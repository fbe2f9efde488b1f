import MalForms.Proofs.Reader.Spans

/-!
# Brackets and marks around a text

* `read_wrapped`: what a readable text is read as if brackets are put around it or a reader mark in front of it. The
  brackets make one compound form of all its forms. The mark takes as many of the first forms as it needs and leaves the
  others as they are; if there are not enough of them, the text is incomplete.

The text within the brackets or behind the mark is read as it is alone, places aside (`reads_elsewhere`), whatever is
below it on the stack. What is left to show is that the frame of the opening is closed in the right place.
-/

namespace MalForms

open Lexeme
open Grammar (afterGap)

variable {a filename : Text} {fs : List Form}

/-! ## The text at another place -/

section Elsewhere

variable {c c' : Cursor} {gs : List Form} {t : Text}

/-- **A readable text is read as the same forms wherever it stands**, in front of all that does not go on with its last
lexeme. What it has behind its last form is a gap. -/
theorem reads_elsewhere (h : read a filename = .ok fs) (hc : c.rest = a ++ t) (ht : Breaks t) :
    ∃ gs c' r, Reads c gs c' ∧ c'.rest = r ++ t ∧ afterGap r = [] ∧ gs.map Form.erase = fs.map Form.erase := by
  obtain ⟨d, hr, hd⟩ := read_eq_ok_iff.1 h
  have hmoved := (hr.extend (.inr ht)).shift (a := {}) (b := c.pos) (.refl _)
  have hstart : (Cursor.extend (.start a) t).shift {} c.pos = c := by
    rw [Cursor.shift, Cursor.extend, Cursor.start, Position.shift_self, ← hc]
  rw [hstart] at hmoved
  refine ⟨_, _, d.rest, hmoved, rfl, hd, ?_⟩
  rw [List.map_map]
  exact List.map_congr_left fun f _ => Form.erase_mapSpan _ f

/-- Forms that stand one after another can be parted anywhere. -/
theorem Reads.split (h : Reads c (fs ++ gs) c') : ∃ b, Reads c fs b ∧ Reads b gs c' := by
  induction fs generalizing c with
  | nil => exact ⟨c, .nil c, h⟩
  | cons f fs ih =>
    obtain ⟨b₁, hf, hr⟩ := reads_cons h
    obtain ⟨b, hfs, hgs⟩ := ih hr
    exact ⟨b, hf.append hfs, hgs⟩

theorem sameAll_of_erase (h : gs.map Form.erase = fs.map Form.erase) : Form.sameAll gs fs = true := by
  rw [Form.sameAll_iff, Form.eraseAll_eq_map, Form.eraseAll_eq_map, h]

/-- No opening starts with a gap. -/
theorem skipGap_opening (o : Opening) (t : Text) : (Cursor.start (o.text ++ t)).skipGap = .start (o.text ++ t) := by
  apply skipGap_eq_self
  cases o with
  | bracket s => exact afterGap_cons (by cases s <;> decide)
  | mark m => cases m <;> exact afterGap_cons (by decide)

end Elsewhere

/-! ## Brackets -/

/-- Brackets around a readable text make one compound form of its forms. A line feed before the closing bracket ends the
comment that the text may end in. -/
theorem read_bracketed (h : read a filename = .ok fs) (s : Shape) :
    ∃ gs, read (s.opener :: (a ++ [CodePoint.ofChar '\n', s.closer])) filename = .ok gs ∧
      Form.sameAll gs [.compound s fs none] = true := by
  let t : Text := [CodePoint.ofChar '\n', s.closer]
  let c : Cursor := .start (s.opener :: (a ++ t))
  have hgap : c.skipGap = c := skipGap_opening (.bracket s) (a ++ t)
  have hrest : (c.skipGap.advance 1).rest = a ++ t := by
    rw [hgap]
    rfl
  obtain ⟨gs, c₁, r, hr, hc₁, hgap₁, hsame⟩ := reads_elsewhere h hrest (breaks_separator (by decide) _)
  have hclose : c₁.skipGap.rest = [s.closer] := by
    rw [rest_skipGap, hc₁, afterGap_append_newline hgap₁, afterGap_cons (by cases s <;> decide)]
  have ho : Opening.ofText? c.skipGap.rest = some (.bracket s) := by
    rw [hgap]
    exact ofText?_opener s _
  refine ⟨_, read_eq_ok_iff.2 ⟨_, .bracket ho hr (by rw [hclose]; rfl) (.nil _), ?_⟩, ?_⟩
  · rw [rest_skipGap, Cursor.rest_advance, hclose]
    rfl
  · apply sameAll_of_erase
    simp only [List.map_singleton, Form.erase, Form.eraseAll_eq_map, hsame]

/-! ## Marks -/

section Marks

variable {m : Mark}

/-- Each mark is read as such, but for `~` before an `@`. -/
theorem ofText?_mark (hm : m = .unquote → a.head? ≠ some (CodePoint.ofChar '@')) :
    Opening.ofText? (Cursor.start (m.text ++ a)).skipGap.rest = some (.mark m) := by
  have hgap : (Cursor.start (m.text ++ a)).skipGap = .start (m.text ++ a) := skipGap_opening (.mark m) a
  rw [hgap]
  cases m with
  | unquote =>
    show Opening.ofText? (CodePoint.ofChar '~' :: a) = _
    rw [ofText?_cons, openingOf, if_neg (by decide), if_pos rfl, if_neg (hm rfl)]
  | _ => exact ofText?_cons _ _

/-- Behind a mark stand the forms of the text, and nothing else. -/
theorem reads_marked (h : read a filename = .ok fs) (m : Mark) :
    ∃ gs c, Reads ((Cursor.start (m.text ++ a)).skipGap.advance m.text.length) gs c ∧ c.skipGap.rest = [] ∧
      gs.map Form.erase = fs.map Form.erase := by
  have hgap : (Cursor.start (m.text ++ a)).skipGap = .start (m.text ++ a) := skipGap_opening (.mark m) a
  have hrest : ((Cursor.start (m.text ++ a)).skipGap.advance m.text.length).rest = a ++ [] := by
    rw [hgap, Cursor.rest_advance, List.append_nil]
    exact List.drop_left
  obtain ⟨gs, c, r, hr, hc, hr₀, hsame⟩ := reads_elsewhere h hrest breaks_nil
  refine ⟨gs, c, hr, ?_, hsame⟩
  rw [rest_skipGap, hc, List.append_nil, hr₀]

/-- A mark in front of a readable text takes the first forms, as many as it needs. -/
theorem read_marked (h : read a filename = .ok fs) (hm : m = .unquote → a.head? ≠ some (CodePoint.ofChar '@'))
    (gs rest : List Form) (hfs : fs = gs ++ rest) (hl : gs.length = m.arity) :
    ∃ hs, read (m.text ++ a) filename = .ok hs ∧
      Form.sameAll hs (.compound .list (.symbol m.head {} :: gs.reverse) none :: rest) = true := by
  obtain ⟨hs, c, hr, hc, hsame⟩ := reads_marked h m
  rw [hfs, List.map_append] at hsame
  obtain ⟨xs, ys, rfl, hxs, hys⟩ := List.map_eq_append_iff.1 hsame
  obtain ⟨b, hfirst, hothers⟩ := hr.split
  have hlen : xs.length = m.arity := by simpa [hl] using congrArg List.length hxs
  refine ⟨_, read_eq_ok_iff.2 ⟨c, .mark (ofText?_mark hm) hfirst hlen hothers, hc⟩, ?_⟩
  apply sameAll_of_erase
  simp only [markForm, List.map_cons, Form.erase, Form.eraseAll_eq_map, List.map_reverse, hxs, hys]

/-- A text without forms does not start with an `@`. -/
theorem head?_of_read_nil (h : read a filename = .ok []) : a.head? ≠ some (CodePoint.ofChar '@') := by
  intro ha
  obtain ⟨r, rfl⟩ := List.head?_eq_some_iff.1 ha
  obtain ⟨c, hr, hc⟩ := read_eq_ok_iff.1 h
  rw [reads_nil hr, rest_skipGap, Cursor.start, afterGap_cons (by decide)] at hc
  cases hc

/-- A mark in front of a text that has not enough forms for it makes the text incomplete: the text ends in the frame of
the mark. -/
theorem read_marked_incomplete (h : read a filename = .ok fs) (hl : fs.length < m.arity) :
    ∃ e, read (m.text ++ a) filename = .error (.parse e) ∧ e.incomplete = true := by
  obtain ⟨gs, c, hr, hc, hsame⟩ := reads_marked h m
  have hm : m = .unquote → a.head? ≠ some (CodePoint.ofChar '@') := by
    rintro rfl
    obtain rfl : fs = [] := List.length_eq_zero_iff.1 (Nat.lt_one_iff.1 hl)
    exact head?_of_read_nil h
  have hlen : gs.length = fs.length := by simpa using congrArg List.length hsame
  let p : Position := (Cursor.start (m.text ++ a)).skipGap.pos
  have hopen : Open (.start (m.text ++ a)) [⟨.mark m, p, gs.reverse⟩] c := by
    refine .cons .nil (ofText?_mark hm) (by rwa [List.reverse_reverse]) ?_
    simp only [Frame.isFull, List.length_reverse, hlen, decide_eq_false_iff_not]
    omega
  exact read_of_cutOff (.nil _) hopen hc filename

end Marks

/-! ## All together -/

/-- **Brackets and marks around a text go around its forms**: brackets collect the forms of a readable text, and a mark
takes the first one, or the first two, and leaves the others. A mark that finds too few makes the text incomplete. -/
theorem read_wrapped (a filename : Text) (fs : List Form) (h : read a filename = .ok fs) :
    (∀ s : Shape, ∃ gs, read (s.opener :: (a ++ [CodePoint.ofChar '\n', s.closer])) filename = .ok gs ∧
      Form.sameAll gs [.compound s fs none] = true) ∧
    (∀ m : Mark, m ≠ .withMeta → (m = .unquote → a.head? ≠ some (CodePoint.ofChar '@')) → ∀ f rest, fs = f :: rest →
      ∃ gs, read (m.text ++ a) filename = .ok gs ∧
        Form.sameAll gs (.compound .list [.symbol m.head {}, f] none :: rest) = true) ∧
    (∀ f g rest, fs = f :: g :: rest → ∃ gs, read (Mark.withMeta.text ++ a) filename = .ok gs ∧
      Form.sameAll gs (.compound .list [.symbol Mark.withMeta.head {}, g, f] none :: rest) = true) ∧
    ∀ m : Mark, fs.length < m.arity →
      ∃ e, read (m.text ++ a) filename = .error (.parse e) ∧ e.incomplete = true := by
  refine ⟨read_bracketed h, ?_, ?_, fun m hl => read_marked_incomplete h hl⟩
  · intro m hone hm f rest hfs
    have harity : m.arity = 1 := by
      cases m with
      | withMeta => exact absurd rfl hone
      | _ => rfl
    exact read_marked h hm [f] rest hfs harity.symm
  · intro f g rest hfs
    exact read_marked (m := .withMeta) h (fun hm => nomatch hm) [f, g] rest hfs rfl

/-- The bracket in the comment closes nothing. `^` takes both names and `~` the first one; one name is too few for
`^`. -/
theorem read_wrapped_comment :
    (∃ f g, read "f g ;)" = .ok [f, g] ∧
      (∃ gs, read "(f g ;)\n)" = .ok gs ∧ Form.sameAll gs [.compound .list [f, g] none] = true) ∧
      (∃ gs, read "^f g ;)" = .ok gs ∧
        Form.sameAll gs [.compound .list [.symbol "with-meta" {}, g, f] none] = true) ∧
      ∃ gs, read "~f g ;)" = .ok gs ∧ Form.sameAll gs [.compound .list [.symbol "unquote" {}, f] none, g] = true) ∧
    ∃ e, read "^f" = .error (.parse e) ∧ e.incomplete = true := by
  have htwo : read "f g ;)" = .ok [.symbol "f" ⟨1, 0, 1, 1⟩, .symbol "g" ⟨1, 2, 1, 3⟩] :=
    read_eq_ok_iff.2 ⟨_, .scalar (x := .symbol "f") (n := 1) (by decide)
      (.scalar (x := .symbol "g") (n := 1) (by decide) (.nil _)), by decide⟩
  have hone : read "f" = .ok [.symbol "f" ⟨1, 0, 1, 1⟩] :=
    read_eq_ok_iff.2 ⟨_, .scalar (x := .symbol "f") (n := 1) (by decide) (.nil _), by decide⟩
  obtain ⟨hbrackets, hmark, hmeta, -⟩ := read_wrapped _ _ _ htwo
  obtain ⟨-, -, -, hfew⟩ := read_wrapped _ _ _ hone
  have hunquote := hmark .unquote (by decide) (fun _ => by decide) _ _ rfl
  exact ⟨⟨_, _, htwo, hbrackets .list, hmeta _ _ _ rfl, hunquote⟩, hfew .withMeta (by decide)⟩

end MalForms
