import MalForms.Proofs.Reader.Shift

/-!
# Reading line after line

* `read_join`: after a readable text and a line feed, a text is read as it is alone, further down.

Proof: at the line feed the reader is outside all forms and lexemes, even if a comment is open there, so it goes on as
at the beginning of the second text (`reads_before_line`). That text stands at the start of a line, so its reading is
the reading of the text alone with all lines shifted (`run_line`); an error in it shows the same line
(`lineAround_join`).
-/

namespace MalForms

open Lexeme

/-! ## Further down -/

/-- The span `k` lines further down. -/
def Span.lower (k : Nat) (s : Span) : Span := { s with line := s.line + k, endLine := s.endLine + k }

/-- The error of a source that stands `n` code points further on and `k` lines further down; nothing else about it
changes. -/
def ReadError.lower (n k : Nat) : ReadError → ReadError
  | parse e => parse { e with pos := e.pos + n, line := e.line + k }
  | e => e

/-- The place after a text and a line feed. -/
def lineAfter (t : Text) : Position := ({} : Position).after t.line

section Places

variable (s t : Text)

theorem offset_lineAfter : (lineAfter t).offset = t.length + 1 := by
  rw [lineAfter, Position.offset_after, Text.line, List.length_append]
  exact Nat.zero_add _

theorem line_lineAfter : (lineAfter t).line = t.count (CodePoint.ofChar '\n') + 2 := by
  rw [lineAfter, Position.line_after, Text.line, List.count_append, List.count_singleton_self]
  exact Nat.add_comm 1 _

theorem col_lineAfter : (lineAfter t).col = 0 := by
  rw [lineAfter, Text.line, Position.after_append]
  rfl

/-- From the front of a text to the start of a line, columns stay as they are. -/
theorem shift_lineAfter : Span.shift {} (lineAfter t) = Span.lower (t.count (CodePoint.ofChar '\n') + 1) := by
  funext ⟨line, col, endLine, endCol⟩
  simp only [Span.shift, Span.lower, line_lineAfter, col_lineAfter, Span.mk.injEq]
  refine ⟨by push_cast; omega, ?_, by push_cast; omega, ?_⟩ <;> simp

/-- The line around a place does not go over the line feed in front of the text. -/
theorem lineAround_join (i : Nat) : (s.line ++ t).lineAround (i + (s.length + 1)) = t.lineAround i := by
  have hlen : s.line.length = s.length + 1 := List.length_append
  have htake : (s.line ++ t).take (i + (s.length + 1)) = s.line ++ t.take i := by
    rw [Nat.add_comm, ← hlen, List.take_length_add_append]
  have hdrop : (s.line ++ t).drop (i + (s.length + 1)) = t.drop i := by
    rw [Nat.add_comm, ← hlen, List.drop_length_add_append]
  have hstop : ∀ c ∈ s.line.reverse.head?, Text.notNewline c = false := by
    intro c hc
    rw [Text.line, List.reverse_append] at hc
    obtain rfl : CodePoint.ofChar '\n' = c := by simpa using hc
    decide
  rw [Text.lineAround, htake, hdrop, List.reverse_append, takeWhile_append_stop (.inr hstop)]
  rfl

end Places

/-! ## The reading after a line feed -/

section Line

variable {c d : Cursor} {s t filename : Text} {fs : List Form}

/-- After a text that is a gap throughout and a line feed, the reading goes on behind the line feed. -/
theorem skipGap_line (h : c.skipGap.rest = []) (t : Text) :
    (c.extend (CodePoint.ofChar '\n' :: t)).skipGap = (⟨c.pos.after c.rest.line, t⟩ : Cursor).skipGap := by
  have hgap := gapLength_append_newline (gapLength_of_afterGap_nil h) t
  have hstart : (c.extend (CodePoint.ofChar '\n' :: t)).advance (c.rest.length + 1) =
      ⟨c.pos.after c.rest.line, t⟩ := by
    have hrest : c.rest ++ CodePoint.ofChar '\n' :: t = c.rest.line ++ t := by simp [Text.line]
    have hlen : c.rest.length + 1 = c.rest.line.length := by simp [Text.line]
    rw [Cursor.advance, Cursor.rest_extend, hrest, hlen, List.take_left, List.drop_left]
    rfl
  have hsum : c.rest.length + (gapLength false t + 1) = c.rest.length + 1 + gapLength false t := by omega
  rw [Cursor.skipGap, Cursor.rest_extend, hgap, hsum, ← Cursor.advance_advance, hstart]
  rfl

/-- The forms of a readable text stand in front of a line feed, and the reading goes on behind it. -/
theorem reads_before_line (h : read s filename = .ok fs) (t : Text) :
    ∃ c, Reads (.start (s.line ++ t)) fs c ∧ c.skipGap = (⟨lineAfter s, t⟩ : Cursor).skipGap := by
  obtain ⟨c, hr, hc⟩ := read_eq_ok_iff.1 h
  obtain ⟨before, hs, hp⟩ := hr.stands (stands_start s)
  have hbreak : Breaks (CodePoint.ofChar '\n' :: t) := breaks_separator (by decide) t
  have hext := hr.extend (t := CodePoint.ofChar '\n' :: t) (.inr hbreak)
  have hpos : c.pos.after c.rest.line = lineAfter s := by
    rw [lineAfter, hp, ← Position.after_append, Text.line, Text.line, ← List.append_assoc, ← hs]
  refine ⟨_, ?_, (skipGap_line hc t).trans (by rw [hpos])⟩
  rw [Text.line, List.append_assoc]
  exact hext

/-- At the start of a line a text is read as it is alone, with its places shifted. -/
theorem run_line (s t : Text) :
    (trace ⟨lineAfter s, t⟩).forms.map Prod.fst =
        ((trace (.start t)).forms.map Prod.fst).map (Form.mapSpan (Span.shift {} (lineAfter s))) ∧
      (trace ⟨lineAfter s, t⟩).failure = (trace (.start t)).failure.map (Failure.shift {} (lineAfter s)) := by
  have hrun := (run_trace (.start t)).shift (b := lineAfter s) (Position.Reaches.refl _)
  rw [Cursor.shift, show (Cursor.start t).pos = ({} : Position) from rfl, Position.shift_self] at hrun
  exact trace_of_run hrun

/-- The place of a failure comes after the start of the text. -/
theorem reaches_of_run {a p : Position} {ex : List Expectation} (h : Run c fs (some (.mismatch p ex)))
    (ha : a.Reaches c.pos) : a.Reaches p := by
  cases h with
  | breaks hr ho hs =>
    have hc := reaches_skipGap (ho.reaches (hr.reaches ha))
    cases fails_of_step hs with
    | cutOff | absent => exact hc
    | broken => exact reaches_advance hc _

/-- The error of a failure in the second text shows the same line, and what is found there is the same. -/
theorem toError_line {e : Failure} (h : Run (.start t) fs (some e)) (s filename : Text) :
    (e.shift {} (lineAfter s)).toError (s.line ++ t) filename =
      (e.toError t filename).lower (s.length + 1) (s.count (CodePoint.ofChar '\n') + 1) := by
  cases e with
  | overlong d => rfl
  | misescaped f => rfl
  | mismatch p ex =>
    have hline : 1 ≤ p.line := (reaches_of_run h (Position.Reaches.refl _)).line
    have hoff : (p.shift {} (lineAfter s)).offset = p.offset + (s.length + 1) := by
      rw [Position.shift, offset_lineAfter]
      rfl
    have hfound : (s.line ++ t)[p.offset + (s.length + 1)]? = t[p.offset]? := by
      rw [List.getElem?_append_right (by simp [Text.line]), Text.line, List.length_append]
      simp
    have hcol : (p.shift {} (lineAfter s)).col = p.col := by simp [Position.shift, col_lineAfter]
    have hline' : (p.shift {} (lineAfter s)).line = p.line + (s.count (CodePoint.ofChar '\n') + 1) := by
      simp only [Position.shift, line_lineAfter]
      omega
    simp only [Failure.shift, Failure.toError, ReadError.lower, ParseError.atPosition, ParseError.report, hoff, hfound,
      hcol, hline', lineAround_join]
    push_cast
    rfl

/-- **Reading is compositional over lines.** After a readable text and a line feed, a text is read as it is alone: its
forms come after those of the first text, all their lines higher by the number of lines above; or its error is the
error, further on and further down by what stands before it. -/
theorem read_join (s t filename : Text) (fs : List Form) (h : read s filename = .ok fs) :
    read (s ++ CodePoint.ofChar '\n' :: t) filename =
      match read t filename with
      | .ok gs => .ok (fs ++ gs.map (Form.mapSpan (Span.lower (s.count (CodePoint.ofChar '\n') + 1))))
      | .error e => .error (e.lower (s.length + 1) (s.count (CodePoint.ofChar '\n') + 1)) := by
  have hjoin : s ++ CodePoint.ofChar '\n' :: t = s.line ++ t := by simp [Text.line]
  obtain ⟨c, hr, hc⟩ := reads_before_line h t
  obtain ⟨hforms, hfail, -⟩ := trace_reads hr
  obtain ⟨hforms', hfail'⟩ := run_line s t
  rw [trace_congr hc, hforms'] at hforms
  rw [trace_congr hc, hfail'] at hfail
  rw [hjoin, read, read, Trace.result, Trace.result, hfail]
  have hrun := run_trace (.start t)
  cases he : (trace (.start t)).failure with
  | none =>
    rw [← shift_lineAfter]
    exact congrArg Except.ok hforms
  | some e =>
    rw [he] at hrun
    exact congrArg Except.error (toError_line hrun s filename)

/-- A text that ends in a comment, before a text that can be read and before one that breaks off. -/
theorem read_join_comment :
    read (Text.ofString "a ;b" ++ CodePoint.ofChar '\n' :: Text.ofString "c") =
        .ok [.symbol "a" ⟨1, 0, 1, 1⟩, .symbol "c" ⟨2, 0, 2, 1⟩] ∧
      ∃ e, read (Text.ofString "a ;b" ++ CodePoint.ofChar '\n' :: Text.ofString "c\n(") = .error (.parse e) ∧
        e.pos = 8 ∧ e.line = 3 ∧ e.col = 1 ∧ e.text = Text.ofString "(" ∧ e.incomplete = true := by
  have hfirst : read "a ;b" = .ok [.symbol "a" ⟨1, 0, 1, 1⟩] :=
    read_eq_ok_iff.2 ⟨_, .scalar (x := .symbol "a") (n := 1) (by decide) (.nil _), by decide⟩
  have hok : read "c" = .ok [.symbol "c" ⟨1, 0, 1, 1⟩] :=
    read_eq_ok_iff.2 ⟨_, .scalar (x := .symbol "c") (n := 1) (by decide) (.nil _), by decide⟩
  have hopen : Open ⟨⟨1, 1, 1⟩, Text.ofString "\n("⟩ [⟨.bracket .list, ⟨2, 2, 0⟩, []⟩] ⟨⟨3, 2, 1⟩, []⟩ :=
    .cons (o := .bracket .list) .nil (by decide) (.nil _) rfl
  have hbad : read "c\n(" = .error (.parse (.atPosition "c\n(" ⟨3, 2, 1⟩ [.closer .list, .form] "<input>")) :=
    read_eq_error_iff.2 ⟨_, _, .breaks (.scalar (x := .symbol "c") (n := 1) (by decide) (.nil _)) hopen
      (step_cutOff rfl), rfl⟩
  constructor
  · rw [read_join _ _ _ _ hfirst, hok]
    rfl
  · have hjoined := read_join _ "c\n(" _ _ hfirst
    rw [hbad] at hjoined
    exact ⟨_, hjoined, by decide, by decide, by decide, by decide, by decide⟩

end Line

end MalForms
