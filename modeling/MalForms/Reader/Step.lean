import MalForms.Lexeme
import MalForms.Text.Lines

/-!
# Reading with a stack of open frames

The reader goes over the text once. A bracket or a reader mark opens a frame, which collects forms until its closing
bracket comes or until it has as many as its mark takes; then it becomes a form itself and is handed to the frame around
it. A form with no frame around it is finished. The stack takes the place of recursion, so nesting costs no depth.

* `step`: skip what separates forms, then close a frame, open one or read a scalar.
* `next`: steps until a form is finished, the input ends or does not fit.
* `rest_lt_of_step`: a step that does not end the reading takes at least one code point.
-/

namespace MalForms

open Lexeme (Opening Mark)

/-! ## Cursors -/

/-- A place in a text, and the text from there on. -/
structure Cursor where
  pos : Position
  rest : Text
deriving DecidableEq

namespace Cursor

def start (source : Text) : Cursor := ⟨{}, source⟩

/-- The cursor after `n` more code points. -/
def advance (c : Cursor) (n : Nat) : Cursor := ⟨c.pos.after (c.rest.take n), c.rest.drop n⟩

/-- The cursor after separators and comments. -/
def skipGap (c : Cursor) : Cursor := c.advance (Lexeme.gapLength false c.rest)

@[simp] theorem rest_advance (c : Cursor) (n : Nat) : (c.advance n).rest = c.rest.drop n := rfl

theorem length_rest_advance_lt {c : Cursor} {n : Nat} (hn : 0 < n) (hc : c.rest ≠ []) :
    (c.advance n).rest.length < c.rest.length := by
  have := List.length_pos_iff.2 hc
  simp
  omega

theorem length_rest_skipGap_le (c : Cursor) : c.skipGap.rest.length ≤ c.rest.length := by
  simp [skipGap]

end Cursor

/-- The span between two places. -/
def Span.between (p q : Position) : Span := ⟨p.line, p.col, q.line, q.col⟩

/-! ## Frames -/

/-- An open bracket or mark and the forms it holds so far, the last one first. -/
structure Frame where
  opening : Opening
  start : Position
  items : List Form := []

namespace Frame

/-- Whether the frame has all its forms and needs no closing bracket. -/
def isFull (f : Frame) : Bool :=
  match f.opening with
  | .bracket _ => false
  | .mark m => m.arity ≤ f.items.length

/-- The closing bracket the frame waits for. -/
def closer? (f : Frame) : Option CodePoint :=
  match f.opening with
  | .bracket s => some s.closer
  | .mark _ => none

/-- What may come next in the frame. -/
def expected (f : Frame) : List Expectation :=
  match f.opening with
  | .bracket s => [.closer s, .form]
  | .mark _ => [.form]

/-- The form of a frame that ends at `stop`. A mark becomes a list of its name and its forms, the last one first: of
`^m t` that is `(with-meta t m)`. -/
def close (f : Frame) (stop : Position) : Form :=
  match f.opening with
  | .bracket s => .compound s f.items.reverse (some (.between f.start stop))
  | .mark m =>
    let head := Form.symbol m.head (.between f.start (f.start.after m.text))
    .compound .list (head :: f.items) (some (.between f.start stop))

end Frame

/-- What may come next, in the innermost frame or outside all frames. -/
def expectedIn : List Frame → List Expectation
  | [] => [.endOfInput, .form]
  | f :: _ => f.expected

/-- Hand a form that ends at `stop` to the innermost frame, and what that fills to the next one. The form comes out if
no frame is left. -/
def deliver (stop : Position) : List Frame → Form → List Frame ⊕ Form
  | [], form => .inr form
  | f :: below, form =>
    let f' := { f with items := form :: f.items }
    if f'.isFull then deliver stop below (f'.close stop) else .inl (f' :: below)

/-! ## Steps -/

/-- Why reading stops short. -/
inductive Failure where
  /-- The text does not fit the grammar. -/
  | mismatch (place : Position) (expected : List Expectation)
  /-- A numeral has too many digits. -/
  | overlong (digits : Nat)
  /-- A string literal holds a sequence that is no escape. -/
  | misescaped (fault : Escape.Fault)
deriving DecidableEq

/-- The result of looking for the next form outside all frames. -/
inductive Outcome where
  | form (f : Form) (c : Cursor)
  | finished (c : Cursor)
  | failed (e : Failure) (c : Cursor)

/-- The result of a step. -/
inductive Step where
  | more (stack : List Frame) (c : Cursor)
  | done (o : Outcome)

/-- The step that ends with a form being read. -/
def Step.settle (stack : List Frame) (form : Form) (c : Cursor) : Step :=
  match deliver c.pos stack form with
  | .inl stack => .more stack c
  | .inr form => .done (.form form c)

/-- Read a scalar, or fail. -/
def stepScalar (stack : List Frame) (c : Cursor) : Step :=
  match Lexeme.scalar c.rest with
  | .found s n => .settle stack (s.toForm (.between c.pos (c.advance n).pos)) (c.advance n)
  | .absent => .done (.failed (.mismatch c.pos (expectedIn stack)) c)
  | .broken n e => .done (.failed (.mismatch (c.advance n).pos [e]) c)
  | .overlong d n => .done (.failed (.overlong d) (c.advance n))
  | .misescaped f n => .done (.failed (.misescaped f) (c.advance n))

/-- Open a frame, or read a scalar. -/
def stepForm (stack : List Frame) (c : Cursor) : Step :=
  match Opening.ofText? c.rest with
  | some o => .more ({ opening := o, start := c.pos } :: stack) (c.advance o.text.length)
  | none => stepScalar stack c

/-- One step, from a cursor that separators or comments may follow. -/
def step (stack : List Frame) (c₀ : Cursor) : Step :=
  let c := c₀.skipGap
  match stack with
  | [] => if c.rest.isEmpty then .done (.finished c) else stepForm [] c
  | f :: below =>
    if c.rest.isEmpty then .done (.failed (.mismatch c.pos f.expected) c)
    else if f.closer?.isSome ∧ c.rest.head? = f.closer? then .settle below (f.close (c.advance 1).pos) (c.advance 1)
    else stepForm stack c

/-! ## Every step takes text -/

section Progress

theorem cursor_of_settle {stack stack' : List Frame} {form : Form} {c c' : Cursor}
    (h : Step.settle stack form c = .more stack' c') : c' = c := by
  unfold Step.settle at h
  split at h <;> simp_all

theorem digits_ne_nil {t digits : Text} {negative : Bool} (h : Lexeme.numeral? t = some (negative, digits)) :
    digits ≠ [] := by
  unfold Lexeme.numeral? at h
  split at h
  · cases h
  · simp only [Option.ite_none_left_eq_some, Option.some.injEq, Prod.mk.injEq, List.isEmpty_iff] at h
    exact h.2.2 ▸ h.1

theorem scalar_length_pos {t : Text} {s : Lexeme.Scalar} {n : Nat} (h : Lexeme.scalar t = .found s n) : 0 < n := by
  unfold Lexeme.scalar Lexeme.stringLiteral at h
  split at h
  · simp at h
  · split at h
    · simp only at h
      split at h <;> simp at h
      omega
    · split at h
      · rename_i negative digits hd
        have := List.length_pos_iff.2 (digits_ne_nil hd)
        simp only at h
        split at h <;> simp at h
        omega
      · split at h
        · split at h
          · simp at h
          · split at h <;> simp at h
            omega
        · simp only at h
          split at h <;> simp at h
          rename_i hne
          obtain ⟨-, rfl⟩ := h
          simpa [List.length_pos_iff] using hne

theorem opening_text_pos (o : Opening) : 0 < o.text.length := by
  rcases o with s | m
  · exact Nat.one_pos
  · cases m <;> decide

theorem rest_lt_of_stepForm {stack stack' : List Frame} {c c' : Cursor} (hc : c.rest ≠ [])
    (h : stepForm stack c = .more stack' c') : c'.rest.length < c.rest.length := by
  unfold stepForm at h
  split at h
  · simp only [Step.more.injEq] at h
    rw [← h.2]
    exact Cursor.length_rest_advance_lt (opening_text_pos _) hc
  · unfold stepScalar at h
    split at h <;> try simp at h
    rename_i hs
    rw [cursor_of_settle h]
    exact Cursor.length_rest_advance_lt (scalar_length_pos hs) hc

/-- A step that does not end the reading takes at least one code point. -/
theorem rest_lt_of_step {stack stack' : List Frame} {c c' : Cursor} (h : step stack c = .more stack' c') :
    c'.rest.length < c.rest.length := by
  have hle := c.length_rest_skipGap_le
  unfold step at h
  cases stack with
  | nil =>
    simp only at h
    split at h
    · simp at h
    · rename_i hne
      have := rest_lt_of_stepForm (by simpa using hne) h
      omega
  | cons f below =>
    simp only at h
    split at h
    · simp at h
    · rename_i hne
      have hc : c.skipGap.rest ≠ [] := by simpa using hne
      split at h
      · rw [cursor_of_settle h]
        have := Cursor.length_rest_advance_lt Nat.one_pos hc
        omega
      · have := rest_lt_of_stepForm hc h
        omega

theorem cursor_of_settle_form {stack : List Frame} {form f : Form} {c c' : Cursor}
    (h : Step.settle stack form c = .done (.form f c')) : c' = c := by
  unfold Step.settle at h
  split at h <;> simp_all

theorem rest_lt_of_stepForm_form {stack : List Frame} {c c' : Cursor} {f : Form} (hc : c.rest ≠ [])
    (h : stepForm stack c = .done (.form f c')) : c'.rest.length < c.rest.length := by
  unfold stepForm at h
  split at h
  · simp at h
  · unfold stepScalar at h
    split at h <;> try simp at h
    rename_i hs
    rw [cursor_of_settle_form h]
    exact Cursor.length_rest_advance_lt (scalar_length_pos hs) hc

/-- A step that finishes a form takes at least one code point. -/
theorem rest_lt_of_step_form {stack : List Frame} {c c' : Cursor} {f : Form}
    (h : step stack c = .done (.form f c')) : c'.rest.length < c.rest.length := by
  have hle := c.length_rest_skipGap_le
  unfold step at h
  cases stack with
  | nil =>
    simp only at h
    split at h
    · simp at h
    · rename_i hne
      have := rest_lt_of_stepForm_form (by simpa using hne) h
      omega
  | cons f' below =>
    simp only at h
    split at h
    · simp at h
    · rename_i hne
      have hc : c.skipGap.rest ≠ [] := by simpa using hne
      split at h
      · rw [cursor_of_settle_form h]
        have := Cursor.length_rest_advance_lt Nat.one_pos hc
        omega
      · have := rest_lt_of_stepForm_form hc h
        omega

end Progress

/-- Steps until a form is finished, the input ends or does not fit. -/
def next (stack : List Frame) (c : Cursor) : Outcome :=
  match _h : step stack c with
  | .more stack' c' => next stack' c'
  | .done o => o
termination_by c.rest.length
decreasing_by exact rest_lt_of_step _h

end MalForms
