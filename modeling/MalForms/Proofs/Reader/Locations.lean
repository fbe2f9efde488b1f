import MalForms.Command
import MalForms.Proofs.Reader.Cut
import MalForms.Proofs.Reader.Joining
import Mathlib.Data.List.Induction
import Mathlib.Data.Prod.Lex

/-!
# Lines and columns

* `locations_agree`: all that says where a place is agrees with all else.

A source has four accounts of a place in it: the line and the column that `Text.location` finds in the table of line
starts, those that the reader counts as it goes (`Position.after`), the text around the place that an error shows
(`Text.lineAround`), and the lines that one gets by cutting the source at its line feeds.

Proof: up to a place the source is made of whole lines and of the front part of one more (`Text.EndsOn`,
`exists_endsOn`), and each of the accounts is computed from that: the table has as many starts up to the place as there
are line feeds before it (`location_append`), the column is the length of the front part (`col_after`), and the line
around the place is the front part with what follows up to the next line feed (`lineAround_append`), which is the line
of that number (`getElem?_lines`). Locations increase because every code point moves on the line or to the next one
(`lineCol_lt_next`).
-/

namespace MalForms

open Lexeme

/-! ## The line that a text ends on -/

namespace Text

/-- The text is `before`, which is empty or ends a line, and then `line`, which goes on without a line feed. -/
structure EndsOn (t before line : Text) : Prop where
  eq : t = before ++ line
  whole : before = [] ∨ EndsLine before
  inline : CodePoint.ofChar '\n' ∉ line

theorem exists_endsOn (t : Text) : ∃ before line, t.EndsOn before line := by
  induction t using List.reverseRecOn with
  | nil => exact ⟨[], [], rfl, .inl rfl, List.not_mem_nil⟩
  | append_singleton t c ih =>
    by_cases hc : c = CodePoint.ofChar '\n'
    · exact ⟨t ++ [c], [], (List.append_nil _).symm, .inr (by rw [EndsLine, List.getLast?_concat, hc]),
        List.not_mem_nil⟩
    · obtain ⟨before, line, rfl, hw, hi⟩ := ih
      refine ⟨before, line ++ [c], List.append_assoc _ _ _, hw, ?_⟩
      rw [List.mem_append, List.mem_singleton]
      rintro (h | h)
      · exact hi h
      · exact hc h.symm

/-- The offset `start` is just after the last line feed before the offset `p`, or the front if there is none. -/
structure StartsLine (t : Text) (p start : Nat) : Prop where
  le : start ≤ p
  first : start = 0 ∨ t[start - 1]? = some (CodePoint.ofChar '\n')
  inline : ∀ i, start ≤ i → i < p → t[i]? ≠ some (CodePoint.ofChar '\n')

variable {u before line : Text}

theorem EndsOn.startsLine (h : u.EndsOn before line) (v : Text) : (u ++ v).StartsLine u.length before.length where
  le := by
    rw [h.eq, List.length_append]
    exact Nat.le_add_right _ _
  first := by
    rcases h.whole with hb | hb
    · exact .inl (by rw [hb]; rfl)
    · obtain ⟨w, hw⟩ := hb.append_line
      refine .inr ?_
      rw [h.eq, hw]
      simp
  inline i hlo hhi := by
    rw [h.eq, List.length_append] at hhi
    rw [List.getElem?_append_left (by rw [h.eq, List.length_append]; exact hhi), h.eq,
      List.getElem?_append_right hlo]
    intro hi
    exact h.inline (List.mem_of_getElem? hi)

theorem notNewline_of_ne {c : CodePoint} (h : c ≠ CodePoint.ofChar '\n') : notNewline c = true := decide_eq_true h

theorem EndsOn.notNewline (h : u.EndsOn before line) {c : CodePoint} (hc : c ∈ line) : notNewline c = true :=
  notNewline_of_ne fun he => h.inline (he ▸ hc)

/-- The line around a place is the line before it and what follows up to the next line feed. -/
theorem lineAround_append (h : u.EndsOn before line) (v : Text) :
    (u ++ v).lineAround u.length = line ++ v.takeWhile notNewline := by
  have hall : ∀ c ∈ line.reverse, notNewline c = true := fun c hc => h.notNewline (List.mem_reverse.1 hc)
  have hstop : ∀ c ∈ before.reverse.head?, notNewline c = false := by
    intro c hc
    rw [List.head?_reverse] at hc
    rcases h.whole with hb | hb
    · rw [hb] at hc
      cases hc
    · rw [show before.getLast? = _ from hb] at hc
      cases hc
      rfl
  rw [lineAround, List.take_left, List.drop_left, h.eq, List.reverse_append,
    takeWhile_all_append (List.all_eq_true.2 hall) hstop, List.reverse_reverse]

/-- It shows the code point at the place, unless that is a line feed. -/
theorem getElem?_lineAround (h : u.EndsOn before line) {v : Text} {c : CodePoint} (hc : v.head? = some c)
    (hne : c ≠ CodePoint.ofChar '\n') : ((u ++ v).lineAround u.length)[line.length]? = some c := by
  obtain ⟨r, rfl⟩ := List.head?_eq_some_iff.1 hc
  rw [lineAround_append h, List.getElem?_append_right (Nat.le_refl _), Nat.sub_self, List.takeWhile_cons,
    if_pos (notNewline_of_ne hne)]
  rfl

/-! ## The lines of a text -/

/-- The lines that the line feeds part a text into. -/
def lines (t : Text) : List Text := t.splitOn (CodePoint.ofChar '\n')

theorem lines_cons (c : CodePoint) (t : Text) :
    lines (c :: t) = if c = CodePoint.ofChar '\n' then [] :: lines t else t.lines.modifyHead (c :: ·) := by
  rw [lines, List.splitOn_cons_eq_if_modifyHead]
  simp [lines]

theorem head?_lines (t : Text) : t.lines.head? = some (t.takeWhile notNewline) := by
  induction t with
  | nil => rfl
  | cons c t ih =>
    rw [lines_cons, List.takeWhile_cons]
    by_cases hc : c = CodePoint.ofChar '\n'
    · simp [hc, notNewline]
    · simp [hc, notNewline, ih]

theorem length_lines (t : Text) : t.lines.length = t.count (CodePoint.ofChar '\n') + 1 := by
  induction t with
  | nil => rfl
  | cons c t ih =>
    rw [lines_cons, List.count_cons]
    by_cases hc : c = CodePoint.ofChar '\n'
    · simp [hc, ih]
    · simp [hc, ih]

/-- **The line around a place** has the number of line feeds before the place. -/
theorem getElem?_lines (u v : Text) :
    (u ++ v).lines[u.count (CodePoint.ofChar '\n')]? = some ((u ++ v).lineAround u.length) := by
  obtain ⟨before, line, h⟩ := exists_endsOn u
  have hfirst : (line ++ v).lines[0]? = some (line ++ v.takeWhile notNewline) := by
    rw [← List.head?_eq_getElem?, head?_lines, List.takeWhile_append_of_pos fun c hc => h.notNewline hc]
  rw [lineAround_append h, ← hfirst, h.eq, List.append_assoc, List.count_append, List.count_eq_zero.2 h.inline]
  rcases h.whole with hb | hb
  · rw [hb]
    rfl
  · obtain ⟨w, rfl⟩ := hb.append_line
    have hcut : (w ++ [CodePoint.ofChar '\n'] ++ (line ++ v)).lines = w.lines ++ (line ++ v).lines := by
      rw [List.append_assoc, List.singleton_append, lines, List.splitOn_append_cons_self]
      rfl
    rw [hcut, List.count_append, List.count_singleton_self, List.getElem?_append_right (by rw [length_lines]),
      length_lines]
    simp

end Text

/-! ## Locations -/

namespace Position

/-- The line and the column of a place. -/
def lineCol (p : Position) : Int × Int := (p.line, p.col)

variable (p : Position)

theorem col_after_inline {t : Text} (h : CodePoint.ofChar '\n' ∉ t) : (p.after t).col = p.col + t.length := by
  induction t generalizing p with
  | nil => rfl
  | cons c t ih =>
    rw [List.mem_cons, not_or] at h
    have hn : p.next c = ⟨p.offset + 1, p.line, p.col + 1⟩ := if_neg (Ne.symm h.1)
    show ((p.next c).after t).col = _
    rw [ih _ h.2, hn, List.length_cons]
    show p.col + 1 + t.length = _
    omega

/-- The column of a place is the length of the line before it. -/
theorem col_after {u before line : Text} (h : u.EndsOn before line) : (({} : Position).after u).col = line.length := by
  have hbefore : (({} : Position).after before).col = 0 := by
    rcases h.whole with hb | hb
    · rw [hb]
      rfl
    · obtain ⟨w, rfl⟩ := hb.append_line
      rw [after_append]
      rfl
  rw [h.eq, after_append, col_after_inline _ h.inline, hbefore, Nat.zero_add]

/-- One code point moves on: on the line, or to the next one. -/
theorem lineCol_lt_next (c : CodePoint) : toLex p.lineCol < toLex (p.next c).lineCol := by
  rw [Prod.Lex.toLex_lt_toLex, next]
  simp only [lineCol]
  split
  · left
    dsimp only
    omega
  · right
    dsimp only
    omega

theorem lineCol_lt_after {w : Text} (hw : w ≠ []) : toLex p.lineCol < toLex (p.after w).lineCol := by
  induction w generalizing p with
  | nil => exact absurd rfl hw
  | cons c w ih =>
    have hc := lineCol_lt_next p c
    cases w with
    | nil => exact hc
    | cons d w => exact hc.trans (ih (p.next c) (List.cons_ne_nil d w))

end Position

namespace Text

theorem lt_of_mem_lineStartsFrom {t : Text} {i s : Nat} (h : s ∈ lineStartsFrom i t) : i < s := by
  induction t generalizing i with
  | nil => cases h
  | cons c t ih =>
    unfold lineStartsFrom at h
    split at h
    · rcases List.mem_cons.1 h with rfl | h
      · exact Nat.lt_succ_self i
      · exact Nat.lt_of_succ_lt (ih h)
    · exact Nat.lt_of_succ_lt (ih h)

/-- Up to a place, the table has a start for each line feed before it. -/
theorem length_takeWhile_lineStartsFrom (u v : Text) (i : Nat) :
    ((lineStartsFrom i (u ++ v)).takeWhile fun (s : Nat) => (s : Int) ≤ (i + u.length : Nat)).length =
      u.count (CodePoint.ofChar '\n') := by
  induction u generalizing i with
  | nil =>
    have hnone : (lineStartsFrom i v).takeWhile (fun (s : Nat) => (s : Int) ≤ (i + 0 : Nat)) = [] := by
      rw [List.takeWhile_eq_nil_iff]
      intro hpos
      have hlt := lt_of_mem_lineStartsFrom (List.getElem_mem hpos)
      simp only [decide_eq_true_eq, List.get_eq_getElem]
      omega
    rw [List.nil_append, List.length_nil, hnone]
    rfl
  | cons c u ih =>
    have hend : i + (c :: u).length = i + 1 + u.length := by
      rw [List.length_cons]
      omega
    rw [List.cons_append, lineStartsFrom, hend, List.count_cons]
    by_cases hc : c = CodePoint.ofChar '\n'
    · have hle : ((i + 1 : Nat) : Int) ≤ (i + 1 + u.length : Nat) := by omega
      rw [if_pos hc, List.takeWhile_cons, if_pos (decide_eq_true hle), List.length_cons, ih, hc]
      simp
    · rw [if_neg hc, ih]
      simp [hc]

/-- **The table of line starts knows the line and the column** that one counts on the way to a place. -/
theorem location_append (u v : Text) : (u ++ v).location u.length = (({} : Position).after u).lineCol := by
  have hcount := length_takeWhile_lineStartsFrom u v 0
  rw [Nat.zero_add] at hcount
  have hnum : ((u ++ v).lineStarts.takeWhile fun (s : Nat) => (s : Int) ≤ u.length).length =
      (({} : Position).after u).line := by
    have hfront : ((0 : Nat) : Int) ≤ u.length := Int.ofNat_le.2 (Nat.zero_le _)
    rw [lineStarts, List.takeWhile_cons, if_pos (decide_eq_true hfront), List.length_cons, hcount, Position.line_after]
    exact Nat.add_comm _ _
  have hline := Position.line_le_after {} u
  have hcol := Position.col_le_offset_after {} (Nat.le_refl _) u
  have hoffset := Position.offset_after {} u
  have hstart : (u ++ v).lineStarts[(({} : Position).after u).line - 1]? = _ :=
    Position.lineStart_after {} (Nat.le_refl _) u v
  rw [location, hnum]
  generalize ({} : Position).after u = q at *
  rw [if_neg (by simp only at hline; omega), List.getD_eq_getElem?_getD, hstart, Option.getD_some, Position.lineCol]
  simp only [Prod.mk.injEq, true_and] at hoffset ⊢
  omega

theorem location_take {t : Text} {p : Nat} (h : p ≤ t.length) :
    t.location p = (({} : Position).after (t.take p)).lineCol := by
  have hloc := location_append (t.take p) (t.drop p)
  rwa [List.take_append_drop, List.length_take_of_le h] at hloc

/-- The line of a place is counted by the line feeds before it, and the column from the last of them. -/
theorem location_eq {t : Text} {p : Nat} (h : p ≤ t.length) : ∃ start, t.StartsLine p start ∧
    t.location p = (1 + ((t.take p).count (CodePoint.ofChar '\n') : Int), (p : Int) - start) := by
  have hlen : (t.take p).length = p := List.length_take_of_le h
  obtain ⟨before, line, hends⟩ := exists_endsOn (t.take p)
  have hstarts := hends.startsLine (t.drop p)
  rw [List.take_append_drop, hlen] at hstarts
  refine ⟨before.length, hstarts, ?_⟩
  have hsum : p = before.length + line.length := by rw [← hlen, hends.eq, List.length_append]
  rw [location_take h, Position.lineCol, Position.line_after, Position.col_after hends, Prod.mk.injEq]
  constructor
  · push_cast
    rfl
  · omega

/-- A line feed is the last place of its line, and one at the end of the text starts a line that is empty. -/
example : [0, 1, 2, 3, 4].map (fun p : Nat => location "a\nb\n" p) = [(1, 0), (1, 1), (2, 0), (2, 1), (3, 0)] := by
  decide

/-- **Locations increase with the offset.** -/
theorem location_lt {t : Text} {p q : Nat} (hpq : p < q) (hq : q ≤ t.length) :
    toLex (t.location p) < toLex (t.location q) := by
  -- between the two places stands at least one code point
  have hsplit : t.take q = t.take p ++ (t.drop p).take (q - p) := by
    rw [← List.take_add]
    congr 1
    omega
  have hne : (t.drop p).take (q - p) ≠ [] := by
    apply List.ne_nil_of_length_pos
    rw [List.length_take, List.length_drop]
    omega
  rw [location_take (by omega), location_take hq, hsplit, Position.after_append]
  exact Position.lineCol_lt_after _ hne

theorem location_injective {t : Text} {p q : Nat} (hp : p ≤ t.length) (hq : q ≤ t.length)
    (h : t.location p = t.location q) : p = q := by
  rcases Nat.lt_trichotomy p q with hlt | heq | hgt
  · exact absurd (congrArg toLex h) (location_lt hlt hq).ne
  · exact heq
  · exact absurd (congrArg toLex h.symm) (location_lt hgt hp).ne

end Text

/-! ## Errors and their reports -/

section Errors

variable {source filename : Text} {e : ParseError} {c : Cursor}

/-- The report shows the line, and its caret stands in the column in which the code point is shown. -/
def Command.PointsAt (es : Transcript) (line : Text) (c : CodePoint) : Prop :=
  ∃ (header shown : Text) (k : Nat), es = [.err header.line, .err shown.line, .err (Text.spaces k ++ "^").line] ∧
    shown = Text.spaces 2 ++ line ∧ shown[k]? = some c

/-- What an error says about its place in the source agrees with the source. -/
structure ParseError.Located (e : ParseError) (source : Text) : Prop where
  inside : 0 ≤ e.pos ∧ e.pos ≤ source.length
  location : source.location e.pos = (e.line, e.col)
  /-- The text is the line of that number. -/
  text : 1 ≤ e.line ∧ source.lines[(e.line - 1).toNat]? = some e.text
  col : 0 ≤ e.col ∧ e.col ≤ e.text.length
  /-- A code point other than a line feed stands at the column, -/
  shown : ∀ c, source[e.pos.toNat]? = some c → c ≠ CodePoint.ofChar '\n' → e.text[e.col.toNat]? = some c
  /-- and the caret under it. -/
  caret : ∀ c, source[e.pos.toNat]? = some c → c ≠ CodePoint.ofChar '\n' →
    Command.PointsAt (Command.reported e) e.text c

theorem Text.spaces_add (m n : Nat) : Text.spaces ((m + n : Nat) : Int) = Text.spaces m ++ Text.spaces n :=
  List.replicate_add m n _

/-- The caret stands under what the text has in the column. -/
theorem Command.pointsAt_reported {c : CodePoint} (hcol : 0 ≤ e.col) (h : e.text[e.col.toNat]? = some c) :
    PointsAt (reported e) e.text c := by
  obtain ⟨col, hcol⟩ := Int.eq_ofNat_of_zero_le hcol
  rw [hcol, Int.toNat_natCast] at h
  have hne : e.text.isEmpty = false := by
    rw [List.isEmpty_eq_false_iff]
    exact List.ne_nil_of_mem (List.mem_of_getElem? h)
  have hcaret : Text.concat ["  ", Text.spaces col, "^"] = Text.spaces ((2 + col : Nat) : Int) ++ "^" := by
    rw [Text.spaces_add, List.append_assoc]
    rfl
  refine ⟨Text.concat ["Error: ", e.filename, ":", Decimal.ofInt e.line, ": ", e.message],
    Text.spaces 2 ++ e.text, 2 + col, ?_, rfl, ?_⟩
  · have hshown : Text.concat ["  ", e.text] = Text.spaces 2 ++ e.text := congrArg _ (List.append_nil e.text)
    rw [reported, hne, hcol, hcaret, hshown]
    rfl
  · rw [List.getElem?_append_right (Nat.le_add_right 2 col)]
    show e.text[2 + col - 2]? = _
    rw [Nat.add_sub_cancel_left, h]

/-- An error is at a place of the source that the reader has come to. -/
theorem stands_of_error (h : read source filename = .error (.parse e)) :
    ∃ (c : Cursor) (ex : List Expectation), c.Stands source ∧ e = .atPosition source c.pos ex filename := by
  obtain ⟨fs, c₀, c, c', stack, p, ex, -, -, hc, hs, rfl⟩ := failure_of_read h
  have hgap : c.skipGap.Stands source := hc.advance _
  cases fails_of_step hs with
  | cutOff => exact ⟨_, _, hgap, rfl⟩
  | absent => exact ⟨_, _, hgap, rfl⟩
  | broken => exact ⟨_, _, hgap.advance _, rfl⟩

/-- An error at a place of the source agrees with it. -/
theorem located_atPosition (h : c.Stands source) (ex : List Expectation) (filename : Text) :
    (ParseError.atPosition source c.pos ex filename).Located source := by
  obtain ⟨u, hsource, hp⟩ := h
  obtain ⟨before, line, hends⟩ := Text.exists_endsOn u
  have hoffset : c.pos.offset = u.length := by
    rw [hp, Position.offset_after]
    exact Nat.zero_add _
  have hline : c.pos.line = 1 + u.count (CodePoint.ofChar '\n') := by
    rw [hp]
    exact Position.line_after {} u
  have hcol : c.pos.col = line.length := by
    rw [hp]
    exact Position.col_after hends
  have htext : source.lineAround c.pos.offset = (u ++ c.rest).lineAround u.length := by rw [hoffset, hsource]
  have hshown : ∀ d, source[c.pos.offset]? = some d → d ≠ CodePoint.ofChar '\n' →
      (source.lineAround c.pos.offset)[c.pos.col]? = some d := by
    intro d hd hne
    rw [hoffset, hsource, List.getElem?_append_right (Nat.le_refl _), Nat.sub_self, ← List.head?_eq_getElem?] at hd
    rw [htext, hcol]
    exact Text.getElem?_lineAround hends hd hne
  constructor
  · show 0 ≤ (c.pos.offset : Int) ∧ (c.pos.offset : Int) ≤ source.length
    rw [hoffset, hsource, List.length_append]
    omega
  · show source.location c.pos.offset = c.pos.lineCol
    rw [hoffset, hsource, hp]
    exact Text.location_append u c.rest
  · show 1 ≤ (c.pos.line : Int) ∧ source.lines[((c.pos.line : Int) - 1).toNat]? = some (source.lineAround c.pos.offset)
    have hindex : ((c.pos.line : Int) - 1).toNat = u.count (CodePoint.ofChar '\n') := by omega
    refine ⟨by omega, ?_⟩
    rw [hindex, hoffset, hsource]
    exact Text.getElem?_lines u c.rest
  · show 0 ≤ (c.pos.col : Int) ∧ (c.pos.col : Int) ≤ (source.lineAround c.pos.offset).length
    rw [htext, hcol, Text.lineAround_append hends, List.length_append]
    omega
  · exact hshown
  · intro d hd hne
    exact Command.pointsAt_reported (Int.natCast_nonneg _) (hshown d hd hne)

/-- **All accounts of a place agree.** The location of a place of the source is given by the line feeds before it and by
the distance from the last of them; locations increase with the offset, so no two places have the same; and what a
parse error says about its place is true, down to the caret in its report. -/
theorem locations_agree (source filename : Text) :
    (∀ p ≤ source.length, ∃ start, source.StartsLine p start ∧
        source.location p = (1 + ((source.take p).count (CodePoint.ofChar '\n') : Int), (p : Int) - start)) ∧
      (∀ p q : Nat, p < q → q ≤ source.length → toLex (source.location p) < toLex (source.location q)) ∧
      (∀ p q : Nat, p ≤ source.length → q ≤ source.length → source.location p = source.location q → p = q) ∧
      ∀ e, read source filename = .error (.parse e) → e.Located source := by
  refine ⟨fun p => Text.location_eq, fun p q => Text.location_lt, fun p q => Text.location_injective, ?_⟩
  intro e he
  obtain ⟨c, ex, hc, rfl⟩ := stands_of_error he
  exact located_atPosition hc ex filename

/-- A bracket that closes nothing, on the third line. -/
theorem locations_agree_bracket :
    ∃ e, read "(a\n  b\n  ]" = .error (.parse e) ∧ Text.location "(a\n  b\n  ]" e.pos = (3, 2) ∧
      e.text = Text.ofString "  ]" ∧ Command.PointsAt (Command.reported e) e.text ']' := by
  let stack : List Frame := [⟨.bracket .list, {}, [.symbol "b" ⟨2, 2, 2, 3⟩, .symbol "a" ⟨1, 1, 1, 2⟩]⟩]
  have hopen : Open (.start "(a\n  b\n  ]") stack ⟨⟨6, 2, 3⟩, "\n  ]"⟩ :=
    .cons (o := .bracket .list) .nil (by decide) (.scalar (x := .symbol "a") (n := 1) (by decide)
      (.scalar (x := .symbol "b") (n := 1) (by decide) (.nil _))) rfl
  have hclosing : ¬Closing stack (⟨⟨6, 2, 3⟩, "\n  ]"⟩ : Cursor).skipGap := by
    rintro ⟨f, below, b, hst, hf, hhead⟩
    obtain ⟨rfl, -⟩ := List.cons.inj hst
    cases hf
    exact absurd hhead (by decide)
  have hread : read "(a\n  b\n  ]" =
      .error (.parse (.atPosition "(a\n  b\n  ]" ⟨9, 3, 2⟩ [.closer .list, .form] "<input>")) :=
    read_eq_error_iff.2 ⟨[], _, .breaks (.nil _) hopen (step_absent (by decide) hclosing (by decide) (by decide)), rfl⟩
  have hloc := (locations_agree _ _).2.2.2 _ hread
  exact ⟨_, hread, hloc.location, by decide, hloc.caret _ (by decide) (by decide)⟩

end Errors

end MalForms
