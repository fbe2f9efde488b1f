import MalForms.Form.Printer
import Mathlib.Algebra.Group.Int.Defs
import Mathlib.Algebra.Group.Nat.Defs

/-!
# The two printers agree

`print` works off a list of work and `render` recurs on the form. Unless a number in the form has too many digits, both
write the same text (`print_eq`): at every moment the texts already written and the texts of the work that is left make
up the whole (`drain_eq`), and this is kept because a piece of work writes what its expansion writes (`expand_ok`).

* `print_recursion`: the loop of `print` comes to its end, and its outcome is that of the recursion.
-/

namespace MalForms.Form

variable {readably : Bool}

theorem join_cons (sep t : Text) (ts : List Text) : Text.join sep (t :: ts) = t ++ ts.flatMap (sep ++ ·) := by
  induction ts generalizing t with
  | nil => simp [Text.join]
  | cons u us ih => rw [Text.join, ih, List.flatMap_cons, List.append_assoc, List.append_assoc]; simp

/-- Both ways to recur give the same text. -/
theorem renderOnto_eq (readably : Bool) (behind : Text) (f : Form) :
    renderOnto readably behind f = render readably f ++ behind := by
  induction f using items_induction generalizing behind with
  | compound s xs span ih =>
    have hitems (rest : Text) : renderAllOnto readably rest xs = Text.join [CodePoint.ofChar ' ']
        (renderAll readably xs) ++ rest := by
      induction xs with
      | nil => rfl
      | cons x xs ihx =>
        have hxs := ihx fun y hy => ih y (List.mem_cons_of_mem x hy)
        cases xs with
        | nil => exact ih x List.mem_cons_self rest
        | cons y ys =>
          rw [renderAllOnto, ih x List.mem_cons_self, hxs]
          simp [renderAll, Text.join]
    rw [renderOnto, hitems, render]
    simp
  | _ => rfl

theorem renderAll_eq_map (readably : Bool) (xs : List Form) : renderAll readably xs = xs.map (render readably) := by
  induction xs with
  | nil => rfl
  | cons x xs ih => rw [renderAll, ih, List.map_cons]

/-- The items of a compound form in one text: a space before every item but the first. -/
def renderItems (readably : Bool) : List Form → Text
  | [] => []
  | x :: xs => render readably x ++ xs.flatMap fun y => CodePoint.ofChar ' ' :: render readably y

/-- What holds of the space and of all that the items are written with holds of the whole text. -/
theorem forall_mem_renderItems {P : CodePoint → Prop} (hspace : P ' ') {xs : List Form}
    (h : ∀ x ∈ xs, ∀ c ∈ render readably x, P c) : ∀ c ∈ renderItems readably xs, P c := by
  cases xs with
  | nil => exact fun c hc => absurd hc List.not_mem_nil
  | cons x xs =>
    rw [List.forall_mem_cons] at h
    rw [renderItems, List.forall_mem_append]
    refine ⟨h.1, fun c hc => ?_⟩
    obtain ⟨y, hy, hc⟩ := List.mem_flatMap.1 hc
    rcases List.mem_cons.1 hc with rfl | hc
    · exact hspace
    · exact h.2 y hy c hc

theorem join_renderAll (readably : Bool) (xs : List Form) :
    Text.join [CodePoint.ofChar ' '] (renderAll readably xs) = renderItems readably xs := by
  cases xs with
  | nil => rfl
  | cons x xs => rw [renderAll_eq_map, List.map_cons, join_cons, List.flatMap_map, renderItems]; rfl

theorem render_compound (s : Shape) (xs : List Form) (span : Option Span) :
    render readably (.compound s xs span) = s.opener :: (renderItems readably xs ++ [s.closer]) := by
  rw [render, join_renderAll]

/-! ## Numbers with too many digits -/

section Printable

variable {f : Form} {fs : List Form}

theorem isShort_iff (n : Int) : isShort n = true ↔ n.natAbs < 10 ^ Lexeme.maxDigits := by
  rw [isShort, decide_eq_true_iff, Decimal.ofNat, List.length_map]
  exact Nat.length_toDigits_le_iff (by decide) (by decide)

theorem arePrintable_iff (fs : List Form) : arePrintable fs = true ↔ ∀ f ∈ fs, f.isPrintable = true := by
  induction fs with
  | nil => simp [arePrintable]
  | cons f fs ih => simp [arePrintable, ih]

/-- No number in a form has too many digits if none at any depth has. -/
theorem isPrintable_iff (f : Form) : f.isPrintable = true ↔ ∀ n, (int n).Within f → isShort n = true := by
  induction f using items_induction with
  | int n =>
    constructor
    · rintro h _ ⟨⟩
      exact h
    · exact fun h => h n .self
  | compound s items span ih =>
    rw [isPrintable, arePrintable_iff]
    constructor
    · rintro h n (_ | ⟨hmem, hw⟩)
      exact (ih _ hmem).1 (h _ hmem) n hw
    · exact fun h f hf => (ih f hf).2 fun n hw => h n (.item hf hw)
  | _ =>
    refine iff_of_true rfl ?_
    rintro n ⟨⟩

end Printable

/-! ## The list of work -/

/-- The text that a piece of work comes to. -/
def Work.written (readably : Bool) : Work → Text
  | text t => t
  | form f => render readably f

/-- Whether a piece of work can be written. -/
def Work.isPrintable : Work → Bool
  | text _ => true
  | form f => f.isPrintable

theorem written_spread (xs : List Form) : (spread xs).flatMap (Work.written readably) = renderItems readably xs := by
  cases xs with
  | nil => rfl
  | cons x xs =>
    rw [spread, List.flatMap_cons, List.flatMap_assoc, renderItems]
    simp [Work.written]

theorem all_spread (xs : List Form) : (spread xs).all Work.isPrintable = arePrintable xs := by
  have hitems (ys : List Form) :
      (ys.flatMap fun y => [Work.text [' '], .form y]).all Work.isPrintable = arePrintable ys := by
    induction ys with
    | nil => rfl
    | cons y ys ih => rw [List.flatMap_cons, List.all_append, ih, arePrintable]; simp [Work.isPrintable]
  cases xs with
  | nil => rfl
  | cons x xs => rw [spread, List.all_cons, hitems, arePrintable, Work.isPrintable]

theorem expand_int (n : Int) :
    (Work.form (int n)).expand readably = if isShort n then .ok (Decimal.ofInt n, []) else .error {} := by
  simp only [Work.expand, printScalar]
  split <;> rfl

/-- A piece of work comes to what it writes at once and what it leaves. -/
theorem expand_ok {w : Work} {t : Text} {more : List Work} (h : w.expand readably = .ok (t, more)) :
    w.written readably = t ++ more.flatMap (Work.written readably) ∧ w.isPrintable = more.all Work.isPrintable := by
  cases w with
  | text u =>
    cases h
    exact ⟨(List.append_nil _).symm, rfl⟩
  | form f =>
    cases f with
    | compound s xs span =>
      cases h
      rw [Work.written, render_compound, List.flatMap_append, written_spread, List.all_append, all_spread]
      exact ⟨rfl, (Bool.and_true _).symm⟩
    | int n =>
      rw [expand_int] at h
      split at h
      · rename_i hshort
        cases h
        exact ⟨(List.append_nil _).symm, hshort⟩
      · cases h
    | _ =>
      cases h
      exact ⟨(List.append_nil _).symm, rfl⟩

/-- Only a number with too many digits is not written. -/
theorem expand_error {w : Work} {e : Unprintable} (h : w.expand readably = .error e) : w.isPrintable = false := by
  cases w with
  | text u => cases h
  | form f =>
    cases f with
    | int n =>
      rw [expand_int] at h
      split at h
      · cases h
      · rename_i hlong
        exact Bool.eq_false_iff.2 hlong
    | _ => cases h

/-- What is written and what is left make up the whole text, if all of it can be written. -/
theorem drain_eq (written : List Text) (ws : List Work) :
    drain readably written ws =
      if ws.all Work.isPrintable then .ok (Text.concat written.reverse ++ ws.flatMap (Work.written readably))
      else .error {} := by
  fun_induction drain readably written ws with
  | case1 written => simp
  | case2 written w ws e he => rw [List.all_cons, expand_error he]; rfl
  | case3 written w ws t more hw ih =>
    obtain ⟨hwritten, hprintable⟩ := expand_ok hw
    rw [ih, List.all_append, List.all_cons, hprintable, List.flatMap_append, List.flatMap_cons, hwritten]
    simp [Text.concat]

/-- **The two printers agree**, unless a number has too many digits. -/
theorem print_eq (f : Form) (readably : Bool) :
    f.print readably = if f.isPrintable then .ok (f.render readably) else .error {} := by
  rw [print, drain_eq]
  simp [Text.concat, Work.written, Work.isPrintable]

theorem print_of_isPrintable {f : Form} (h : f.isPrintable = true) (readably : Bool) :
    f.print readably = .ok (f.render readably) := by
  rw [print_eq, if_pos h]

/-- One form after another is printed, up to a number with too many digits. -/
theorem mapM_print (fs : List Form) (readably : Bool) :
    fs.mapM (print · readably) = if arePrintable fs then .ok (renderAll readably fs) else .error {} := by
  induction fs with
  | nil => rfl
  | cons f fs ih =>
    rw [List.mapM_cons, ih, print_eq, arePrintable, renderAll]
    cases f.isPrintable <;> cases arePrintable fs <;> rfl

theorem printAll_of_arePrintable {fs : List Form} (h : arePrintable fs = true) (readably : Bool) :
    printAll fs readably = .ok (renderItems readably fs) := by
  rw [printAll, mapM_print, if_pos h, ← join_renderAll]
  rfl

/-! ## The loop -/

/-- The printer at work: the texts already written, the last one first, and the work that is left. -/
structure Press where
  written : List Text
  work : List Work

/-- The loop goes from one state to the other in `n` turns. A turn takes the first piece of work away, writes what it
writes at once and puts what it leaves in its place; there is no turn without work. -/
inductive Turns (readably : Bool) : Nat → Press → Press → Prop
  | refl (p : Press) : Turns readably 0 p p
  | turn {n : Nat} {written : List Text} {w : Work} {ws : List Work} {t : Text} {more : List Work} {p : Press} :
      w.expand readably = .ok (t, more) → Turns readably n ⟨t :: written, more ++ ws⟩ p →
      Turns readably (n + 1) ⟨written, w :: ws⟩ p

/-- The loop is at its end: there is no work left, or what comes next cannot be written. -/
inductive Press.Ends (readably : Bool) : Press → Except Unprintable Text → Prop
  | done (written : List Text) : Ends readably ⟨written, []⟩ (.ok (Text.concat written.reverse))
  | fault {written : List Text} {w : Work} {ws : List Work} {e : Unprintable} : w.expand readably = .error e →
      Ends readably ⟨written, w :: ws⟩ (.error e)

/-- The loop comes to an end in no more turns than there was to do, with the outcome of `drain`. -/
theorem turns_drain (readably : Bool) (written : List Text) (ws : List Work) :
    ∃ n p, n ≤ load ws ∧ Turns readably n ⟨written, ws⟩ p ∧ p.Ends readably (drain readably written ws) := by
  fun_induction drain readably written ws with
  | case1 written => exact ⟨0, _, Nat.zero_le _, .refl _, .done written⟩
  | case2 written w ws e he => exact ⟨0, _, Nat.zero_le _, .refl _, .fault he⟩
  | case3 written w ws t more hw ih =>
    obtain ⟨n, p, hn, hturns, hends⟩ := ih
    have hless := load_expand hw
    refine ⟨n + 1, p, ?_, .turn hw hturns, hends⟩
    rw [load_append] at hn
    rw [load]
    omega

/-- The outcome for a compound form from the outcomes for its items. -/
theorem print_compound (s : Shape) (items : List Form) (span : Option Span) :
    print (.compound s items span) readably = (items.mapM (print · readably)).map fun ts =>
      s.opener :: (Text.join [CodePoint.ofChar ' '] ts ++ [s.closer]) := by
  rw [print_eq, mapM_print, render, isPrintable]
  cases arePrintable items <;> rfl

/-- **The loop of the printer does what the recursion says.** A scalar is its own text, and a compound form is the texts
of its items, with a space between two of them, in its brackets. A number with too many digits has no text, and
this is all that keeps a form from having one. The loop comes to this outcome after finitely many turns. -/
theorem print_recursion (f : Form) (readably : Bool) :
    (f.print readably =
      match f with
      | .nil => .ok "nil"
      | .bool b => .ok (if b then "true" else "false")
      | .int n => if n.natAbs < 10 ^ Lexeme.maxDigits then .ok (Decimal.ofInt n) else .error {}
      | .str s => .ok (if readably then CodePoint.ofChar '"' :: (Escape.encode s ++ [CodePoint.ofChar '"']) else s)
      | .symbol name _ => .ok name
      | .keyword name _ => .ok (CodePoint.ofChar ':' :: name)
      | .compound s items _ =>
        let (opener, closer) := match s with
          | .list => ('(', ')')
          | .vector => ('[', ']')
          | .map => ('\x7b', '\x7d')
        (items.mapM (print · readably)).map fun ts =>
          CodePoint.ofChar opener :: (Text.join [CodePoint.ofChar ' '] ts ++ [CodePoint.ofChar closer])) ∧
      ((∃ t, f.print readably = .ok t) ↔ ∀ n, (int n).Within f → n.natAbs < 10 ^ Lexeme.maxDigits) ∧
      ∃ n p, n ≤ f.weight ∧ Turns readably n ⟨[], [.form f]⟩ p ∧ p.Ends readably (f.print readably) := by
  refine ⟨?_, ?_, turns_drain readably [] [.form f]⟩
  · cases f with
    | compound s items span =>
      rw [print_compound]
      cases s <;> rfl
    | int n =>
      rw [print_eq, isPrintable]
      simp only [isShort_iff, render, scalarText]
    | bool b => cases b <;> exact print_of_isPrintable rfl readably
    | nil | str _ | symbol _ _ | keyword _ _ => exact print_of_isPrintable rfl readably
  · simp only [← isShort_iff]
    rw [← isPrintable_iff, print_eq]
    cases f.isPrintable <;> simp

/-- The smallest number with too many digits is a form without a text. -/
theorem print_overlong : (Form.int (10 ^ Lexeme.maxDigits)).print true = .error {} ∧
    (Form.int (10 ^ Lexeme.maxDigits)).print false = .error {} := by
  have hlong : isShort (10 ^ Lexeme.maxDigits) = false := by
    have hten : (10 : Int).natAbs = 10 := rfl
    rw [Bool.eq_false_iff, ne_eq, isShort_iff, Int.natAbs_pow, hten]
    exact Nat.lt_irrefl _
  rw [print_eq, print_eq, isPrintable, hlong]
  exact ⟨rfl, rfl⟩

end MalForms.Form
