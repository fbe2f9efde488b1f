import MalForms.Proofs.Reader.Cut
import MalForms.Session

/-!
# Feeding a session line by line

* `feedAll_read`: feeding lines one after another is the same as reading them as one text.

A session keeps lines as long as they are incomplete. So it cuts the text at ends of lines where what came before can
be read, and the text is readable if and only if all that is left is (`meaning_append`). Where a line brings an error,
the error stays whatever lines follow (`completable_or_stays`), so the whole text has it too. Each line keeps the
agreement between the two ways of reading (`feed_agrees`), and with it all lines do (`feedAll_agrees`).
-/

namespace MalForms.Session

open Lexeme

/-- Feed lines one after another: the replies, and the session after them. -/
def feedAll (s : Session) : List Text → List (Except ReadError Reply) × Session
  | [] => ([], s)
  | line :: lines =>
    let (r, s') := s.feed line
    let (rs, s'') := s'.feedAll lines
    (r :: rs, s'')

/-- The lines as one text, each with its line feed. -/
def wholeText (lines : List Text) : Text := Text.concat (lines.map Text.line)

/-! ## White space -/

section Blank

variable {s t : Text}

/-- If the text is white space, it separates forms. -/
def Clean (t : Text) : Prop := t.isBlank = true → t.all isSeparator = true

theorem strip_isEmpty (t : Text) : t.strip.isEmpty = t.isBlank := by
  rw [Bool.eq_iff_iff, Text.strip, Text.isBlank, List.isEmpty_reverse, List.isEmpty_iff, List.dropWhile_eq_nil_iff,
    List.all_eq_true]
  constructor
  · intro h
    have hnil : t.dropWhile CodePoint.isBlank = [] := by
      cases hd : t.dropWhile CodePoint.isBlank with
      | nil => rfl
      | cons c r =>
        have hnot := List.head?_dropWhile_not CodePoint.isBlank t
        rw [hd] at hnot h
        exact absurd (h c (by simp)) (by rw [hnot]; exact Bool.false_ne_true)
    exact List.dropWhile_eq_nil_iff.1 hnil
  · intro h c hc
    exact h c ((List.dropWhile_suffix _).subset (List.mem_reverse.1 hc))

theorem Clean.append_line (hs : Clean s) (ht : Clean t) : Clean (s ++ t.line) := by
  intro h
  rw [Text.isBlank, Text.line, List.all_append, List.all_append, Bool.and_eq_true, Bool.and_eq_true] at h
  rw [Text.line, List.all_append, List.all_append, hs h.1, ht h.2.1]
  rfl

theorem read_separators (h : t.all isSeparator = true) (filename : Text) : MalForms.read t filename = .ok [] := by
  have hgap := afterGap_separators h []
  rw [List.append_nil] at hgap
  exact read_eq_ok_iff.2 ⟨_, .nil _, hgap⟩

end Blank

/-! ## One line -/

section Feed

variable {s : Session} {line : Text} {fs : List Form} {e : ParseError}

/-- The text of a session that is white space is no exception: it is read as no forms. -/
theorem read_of_clean {code : Text} (h : Clean code) :
    read code = match MalForms.read code filename with
      | .ok [] => .ok { kind := .empty }
      | .ok fs => .ok { kind := .value, forms := fs }
      | .error (.parse e) => .ok { kind := if e.incomplete then .incomplete else .error, error := some e }
      | .error e => .error e := by
  rw [read, strip_isEmpty]
  split_ifs with hb
  · rw [read_separators (h hb)]
  · rfl

theorem feed_ok (hcl : Clean (s.extended line)) (h : MalForms.read (s.extended line) filename = .ok fs) :
    ∃ r, (s.feed line).1 = .ok r ∧ r.isError = false ∧ r.forms = fs ∧ (s.feed line).2.buffer = [] := by
  have hread := read_of_clean hcl
  rw [h] at hread
  cases fs with
  | nil => exact ⟨{ kind := .empty }, by rw [feed, hread], rfl, rfl, by rw [feed, hread]; rfl⟩
  | cons f fs =>
    exact ⟨{ kind := .value, forms := f :: fs }, by rw [feed, hread], rfl, rfl, by rw [feed, hread]; rfl⟩

theorem feed_incomplete (hcl : Clean (s.extended line))
    (h : MalForms.read (s.extended line) filename = .error (.parse e)) (hi : e.incomplete = true) :
    ∃ r, (s.feed line).1 = .ok r ∧ r.isError = false ∧ r.forms = [] ∧ (s.feed line).2.buffer = s.extended line := by
  have hread := read_of_clean hcl
  simp only [h, hi, if_true] at hread
  exact ⟨{ kind := .incomplete, error := some e }, by rw [feed, hread], rfl, rfl, by rw [feed, hread]; rfl⟩

theorem feed_error (hcl : Clean (s.extended line))
    (h : MalForms.read (s.extended line) filename = .error (.parse e)) (hi : e.incomplete = false) :
    ∃ r, (s.feed line).1 = .ok r ∧ r.isError = true := by
  have hread := read_of_clean hcl
  simp only [h, hi, Bool.false_eq_true, if_false] at hread
  exact ⟨{ kind := .error, error := some e }, by rw [feed, hread], rfl⟩

end Feed

/-! ## All lines -/

section Lines

/-- The replies agree with the forms of the whole text: if it can be read, no reply is an error, the forms of all
replies are the forms of the text and nothing is left in the buffer; if not, there is an error or something is left. -/
def Agrees : Option (List Form) → List (Except ReadError Reply) × Session → Prop
  | some gs, (rs, s) => ∃ replies : List Reply, rs = replies.map .ok ∧ (∀ r ∈ replies, r.isError = false) ∧
      Form.eraseAll (replies.flatMap Reply.forms) = gs ∧ s.buffer = []
  | none, (rs, s) => (∃ r : Reply, .ok r ∈ rs ∧ r.isError = true) ∨ s.buffer ≠ []

theorem agrees_cons {m : Option (List Form)} {out : List (Except ReadError Reply) × Session} {r : Reply}
    (h : Agrees m out) (hr : r.isError = false) :
    Agrees (m.map (Form.eraseAll r.forms ++ ·)) (.ok r :: out.1, out.2) := by
  cases m with
  | none =>
    rcases h with ⟨r', hr', he⟩ | hb
    · exact .inl ⟨r', List.mem_cons_of_mem _ hr', he⟩
    · exact .inr hb
  | some gs =>
    obtain ⟨replies, hrs, hall, rfl, hb⟩ := h
    refine ⟨r :: replies, by rw [hrs, List.map_cons], ?_, ?_, hb⟩
    · exact List.forall_mem_cons.2 ⟨hr, hall⟩
    · rw [List.flatMap_cons, Form.eraseAll_eq_map, List.map_append, ← Form.eraseAll_eq_map, ← Form.eraseAll_eq_map]

theorem feedAll_cons (s : Session) (line : Text) (lines : List Text) :
    s.feedAll (line :: lines) =
      ((s.feed line).1 :: ((s.feed line).2.feedAll lines).1, ((s.feed line).2.feedAll lines).2) := rfl

theorem wholeText_cons (line : Text) (lines : List Text) :
    wholeText (line :: lines) = line.line ++ wholeText lines := rfl

/-- The session waits for a text: its buffer is empty or incomplete, white space in it separates forms, and with the
text it holds no numeral of too many digits. -/
structure Waits (s : Session) (rest : Text) : Prop where
  clean : Clean s.buffer
  pending : s.buffer = [] ∨ meaning s.buffer = none
  bounded : ¬HoldsOverlong (s.buffer ++ rest)

/-- **One line keeps the agreement**: it is cut off, or kept for the lines after it, or brings an error that stays. -/
theorem feed_agrees {s : Session} {line rest : Text} {out : List (Except ReadError Reply) × Session}
    (hw : Waits s (line.line ++ rest)) (hl : Clean line)
    (hnext : Waits (s.feed line).2 rest → Agrees (meaning ((s.feed line).2.buffer ++ rest)) out) :
    Agrees (meaning (s.buffer ++ (line.line ++ rest))) ((s.feed line).1 :: out.1, out.2) := by
  have hlast : EndsLine (s.extended line) := endsLine_line _ _
  have hcode : Clean (s.extended line) := hw.clean.append_line hl
  have hover : ¬HoldsOverlong (s.extended line ++ rest) := by
    rw [extended, List.append_assoc]
    exact hw.bounded
  rw [← List.append_assoc]
  show Agrees (meaning (s.extended line ++ rest)) _
  cases hr : MalForms.read (s.extended line) filename with
  | ok fs =>
    obtain ⟨r, hreply, herr, rfl, hbuf⟩ := feed_ok hcode hr
    rw [hbuf, List.nil_append] at hnext
    rw [meaning_append hr hlast hover, hreply]
    refine agrees_cons (hnext ⟨?_, .inl hbuf, ?_⟩) herr
    · rw [hbuf]
      exact fun _ => rfl
    · rw [hbuf]
      exact fun ho => hover (holdsOverlong_append hr hlast ho)
  | error e =>
    cases e with
    | parse e =>
      cases hi : e.incomplete with
      | true =>
        obtain ⟨r, hreply, herr, hforms, hbuf⟩ := feed_incomplete hcode hr hi
        have hwait : Waits (s.feed line).2 rest := by
          constructor <;> rw [hbuf]
          · exact hcode
          · exact .inr (meaning_of_error hr)
          · exact hover
        have hcons := agrees_cons (hnext hwait) herr
        rw [hreply]
        simpa only [hbuf, hforms, Form.eraseAll, List.nil_append, Option.map_id'] using hcons
      | false =>
        obtain ⟨r, hreply, herr⟩ := feed_error hcode hr hi
        obtain ⟨hi', -⟩ | ⟨-, hstays⟩ := completable_or_stays hr
        · cases hi.symm.trans hi'
        obtain ⟨e', he', -⟩ := hstays (not_atLastColon hr hlast) rest
        rw [meaning_of_error he', hreply]
        exact .inl ⟨r, List.mem_cons_self, herr⟩
    | overlong d => exact absurd (holdsOverlong_of_line hr hlast _) hover
    | misescaped f => exact absurd hr (read_ne_misescaped _ _ f)

/-- **All lines keep it**: the replies agree with what is in the buffer and the lines, read as one text. -/
theorem feedAll_agrees {lines : List Text} {s : Session} (hw : Waits s (wholeText lines))
    (hlines : ∀ line ∈ lines, Clean line) : Agrees (meaning (s.buffer ++ wholeText lines)) (s.feedAll lines) := by
  induction lines generalizing s with
  | nil =>
    rw [wholeText, List.map_nil, Text.concat, List.flatten_nil, List.append_nil]
    rcases hw.pending with hnil | hnone
    · rw [hnil, meaning_nil]
      exact ⟨[], rfl, nofun, rfl, hnil⟩
    · rw [hnone]
      refine .inr fun hnil => ?_
      rw [show s.buffer = [] from hnil, meaning_nil] at hnone
      cases hnone
  | cons line lines ih =>
    rw [feedAll_cons, wholeText_cons]
    refine feed_agrees hw (hlines line List.mem_cons_self) fun hw' => ?_
    exact ih hw' fun l hl => hlines l (List.mem_cons_of_mem line hl)

/-- The white space that separates forms. -/
def plainBlanks : Text := [CodePoint.ofChar ' ', CodePoint.ofChar '\t', CodePoint.ofChar '\r', CodePoint.ofChar '\n']

theorem clean_of_plain {t : Text} (h : t.isBlank = true → ∀ c ∈ t, c ∈ plainBlanks) : Clean t := by
  intro hb
  have hall : ∀ c ∈ plainBlanks, isSeparator c = true := by decide
  exact List.all_eq_true.2 fun c hc => hall c (h hb c hc)

/-- **Feeding lines is reading them as one text.** Of lines that are white space only those count that separate forms
anyway, and no numeral has too many digits: then the text can be read if and only if no line brings an error and the
buffer is empty at the end, and the forms of all replies are the forms of the text, places aside. -/
theorem feedAll_read (lines : List Text) (hblank : ∀ line ∈ lines, line.isBlank = true → ∀ c ∈ line, c ∈ plainBlanks)
    (hover : ¬HoldsOverlong (wholeText lines)) :
    ((∃ fs, MalForms.read (wholeText lines) = .ok fs) ↔
      (∀ r, .ok r ∈ (feedAll {} lines).1 → r.isError = false) ∧ (feedAll {} lines).2.buffer = []) ∧
    ∀ fs, MalForms.read (wholeText lines) = .ok fs →
      ∃ replies : List Reply, (feedAll {} lines).1 = replies.map .ok ∧
        Form.sameAll (replies.flatMap Reply.forms) fs = true := by
  have hagree : Agrees (meaning (wholeText lines)) (feedAll {} lines) :=
    feedAll_agrees (s := {}) ⟨fun _ => rfl, .inl rfl, hover⟩ fun line hl => clean_of_plain (hblank line hl)
  cases hr : MalForms.read (wholeText lines) with
  | ok fs =>
    rw [meaning_of_ok hr] at hagree
    obtain ⟨replies, hrs, hall, hforms, hbuf⟩ := hagree
    refine ⟨⟨fun _ => ⟨fun r hmem => ?_, hbuf⟩, fun _ => ⟨fs, rfl⟩⟩, ?_⟩
    · rw [hrs] at hmem
      obtain ⟨r', hr', he⟩ := List.mem_map.1 hmem
      cases he
      exact hall r hr'
    · intro fs' hfs'
      cases hfs'
      exact ⟨replies, hrs, (Form.sameAll_iff _ _).2 hforms⟩
  | error e =>
    rw [meaning_of_error hr] at hagree
    refine ⟨⟨nofun, fun ⟨hall, hbuf⟩ => ?_⟩, nofun⟩
    obtain ⟨r, hmem, herr⟩ | hne := hagree
    · cases (hall r hmem).symm.trans herr
    · exact absurd hbuf hne

/-- A list over three lines: a comment ends the first of them, and the second is white space. -/
theorem feedAll_read_list :
    let lines : List Text := ["(a ;b", " ", "c)"]
    (∀ r, .ok r ∈ (feedAll {} lines).1 → r.isError = false) ∧ (feedAll {} lines).2.buffer = [] := by
  intro lines
  have hover : ¬HoldsOverlong (wholeText lines) := fun h => absurd (length_of_holdsOverlong h) (by decide)
  have hgrammar : Grammar.read (wholeText lines) =
      some [.compound .list [.symbol "a" {}, .symbol "c" {}] none] := by rfl
  obtain ⟨fs, c, hr, hc, -⟩ := Grammar.reads_of_read hover hgrammar
  exact (feedAll_read lines (by decide) hover).1.1 ⟨fs, read_eq_ok_iff.2 ⟨c, hr, hc⟩⟩

end Lines

end MalForms.Session
