import MalForms.Proofs.Reader.Completion

/-!
# A line feed at the end of a text

* `trace_line`: a line feed after a text changes nothing about its reading, unless the text breaks off at its end.
* `read_line`: so a text that is not incomplete is read as the same forms, or has the same error, with the line feed.

No lexeme goes on in a line feed, and a comment that is open at the end of the text ends there. A step that fails before
the end of the text fails in the same way with the line feed (`step_newline`); even a colon at the end of the text, which
a name could follow, does. The report of an error shows its line without the line feed, so it stays as it is, too
(`toError_newline`).
-/

namespace MalForms

open Lexeme

/-! ## The steps -/

section Steps

variable {src : Text} {c c₀ c' : Cursor} {stack : List Frame} {e : Failure}

/-- The failure is no break at the end of the source. -/
def Failure.Inside (src : Text) : Failure → Prop
  | mismatch place _ => place.offset < src.length
  | _ => True

theorem breaks_newline : Breaks [CodePoint.ofChar '\n'] := breaks_separator (by decide) []

/-- At a place before the end of the source there is text left. -/
theorem rest_ne_nil_of_offset_lt (hc : c.Stands src) (h : c.pos.offset < src.length) : c.rest ≠ [] := by
  intro hnil
  have hlen := offset_of_stands hc
  rw [hnil, List.length_nil] at hlen
  omega

/-- **A step that fails before the end of the text fails in the same way if a line feed follows.** -/
theorem step_newline (hc : c.Stands src) (hin : e.Inside src) (hs : step stack c = .done (.failed e c')) :
    ∃ c'', step stack (c.extend [CodePoint.ofChar '\n']) = .done (.failed e c'') := by
  have hgap : c.skipGap.Stands src := hc.advance _
  cases fails_of_step hs with
  | cutOff _ hnil => exact absurd hnil (rest_ne_nil_of_offset_lt hgap hin)
  | absent hne hcl ho hx => exact ⟨_, step_extend_absent hne hcl ho hx fun _ => breaks_newline⟩
  | @broken n x hx =>
    have hne := rest_ne_nil_of_offset_lt (hgap.advance n) hin
    rw [Cursor.rest_advance, ← List.length_pos_iff, List.length_drop] at hne
    exact ⟨_, step_extend_broken hx (by omega) _⟩
  | @overlong d n hx =>
    have hne : c.skipGap.rest ≠ [] := ne_nil_of_not_absent (by rw [hx]; exact Match.noConfusion)
    refine ⟨_, step_overlong (n := n) ?_⟩
    rw [Cursor.skipGap_extend hne]
    exact scalar_append_overlong hx (.inr breaks_newline)

theorem trace_of_open (ho : Open c₀ stack c) (hs : step stack c = .done (.failed e c')) :
    trace c₀ = ⟨[], some e, c'⟩ := trace_failed ((next_of_open ho).trans (next_done hs))

end Steps

/-! ## The whole text -/

section Lines

variable {src : Text}

/-- The reading from a cursor on, with a line feed at the end: the same forms end at the same places, and the same failure
comes after them. -/
theorem trace_extend_newline (c : Cursor) (hc : c.Stands src) (hin : ∀ e, (trace c).failure = some e → e.Inside src) :
    (trace (c.extend [CodePoint.ofChar '\n'])).forms = (trace c).forms ∧
      (trace (c.extend [CodePoint.ofChar '\n'])).failure = (trace c).failure := by
  have he : Ends c (next [] c) := ends_next .nil
  generalize hn : next [] c = o at he
  cases he with
  | @form g c' hr =>
    have hlt := rest_lt_of_next hn
    rw [trace_form hn] at hin
    obtain ⟨hforms, hfail⟩ := trace_extend_newline c' (hr.stands hc) hin
    have hn' := next_of_reads (hr.extend (.inr breaks_newline))
    rw [trace_form hn, trace_form hn', hforms, hfail]
    exact ⟨rfl, rfl⟩
  | finished hgap =>
    have hgap' : (c.extend [CodePoint.ofChar '\n']).skipGap.rest = [] := afterGap_append_newline hgap []
    rw [trace_finished hn, trace_finished (next_done (step_finish hgap'))]
    exact ⟨rfl, rfl⟩
  | failed ho hs =>
    rw [trace_failed hn] at hin
    obtain ⟨c'', hs'⟩ := step_newline (ho.stands hc) (hin _ rfl) hs
    rw [trace_failed hn, trace_of_open (ho.extend (.inr breaks_newline)) hs']
    exact ⟨rfl, rfl⟩
termination_by c.rest.length

/-- **A line feed changes nothing about the reading of a text** that does not break off at its end. -/
theorem trace_line (hin : ∀ e, (trace (.start src)).failure = some e → e.Inside src) :
    (trace (.start src.line)).forms = (trace (.start src)).forms ∧
      (trace (.start src.line)).failure = (trace (.start src)).failure :=
  trace_extend_newline (.start src) (stands_start src) hin

/-- The line around a place does not go over the line feed at the end. -/
theorem lineAround_line {i : Nat} (h : i ≤ src.length) : src.line.lineAround i = src.lineAround i := by
  have hstop : ∀ c ∈ [CodePoint.ofChar '\n'].head?, Text.notNewline c = false := by decide
  rw [Text.lineAround, Text.line, List.take_append_of_le_length h, List.drop_append_of_le_length h,
    takeWhile_append_stop (.inr hstop)]
  rfl

/-- A failure before the end of the text is reported in the same way if a line feed follows. -/
theorem toError_newline {e : Failure} (hin : e.Inside src) (filename : Text) :
    e.toError src.line filename = e.toError src filename := by
  cases e with
  | mismatch place expected =>
    have hlt : place.offset < src.length := hin
    have hfound : src.line[place.offset]? = src[place.offset]? := List.getElem?_append_left hlt
    simp only [Failure.toError, ParseError.atPosition, ParseError.report, hfound, lineAround_line (Nat.le_of_lt hlt)]
  | overlong | misescaped => rfl

/-- An error that is not incomplete comes from a failure before the end. -/
theorem inside_of_complete {e : Failure} (filename : Text)
    (h : ∀ x, e.toError src filename = .parse x → x.incomplete = false) : e.Inside src := by
  cases e with
  | mismatch place expected =>
    have hfound : src[place.offset]?.isNone = false := h _ rfl
    by_contra hge
    rw [List.getElem?_eq_none (Nat.le_of_not_lt hge)] at hfound
    cases hfound
  | overlong | misescaped => trivial

theorem inside_of_read {filename : Text} (h : ∀ e, read src filename = .error (.parse e) → e.incomplete = false) :
    ∀ e, (trace (.start src)).failure = some e → e.Inside src := by
  intro e he
  apply inside_of_complete filename
  intro x hx
  apply h
  rw [read, Trace.result, he, ← hx]

/-- **A text that is not incomplete is read in the same way if a line feed follows.** -/
theorem read_line {filename : Text} (h : ∀ e, read src filename = .error (.parse e) → e.incomplete = false) :
    read src.line filename = read src filename := by
  have hin := inside_of_read h
  obtain ⟨hforms, hfail⟩ := trace_line hin
  rw [read, read, Trace.result, Trace.result, hforms, hfail]
  cases he : (trace (.start src)).failure with
  | none => rfl
  | some e => exact congrArg Except.error (toError_newline (hin e he) filename)

end Lines

end MalForms
