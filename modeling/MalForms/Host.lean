import MalForms.Text.Utf8

/-!
# The host

Two things the program does not choose but finds where it runs: which texts standard output takes, and how many calls
there is room for within one another. Everywhere the texts of ASCII are taken, and there is room for a map of plain
values; so a line end or a help text is written without asking.

* `Host`: a host; the default one takes every text.
* `Host.utf8`: standard output is UTF-8, and takes all texts but those with surrogates.
-/

namespace MalForms

structure Host where
  /-- Why standard output does not take a text, if it does not. -/
  refusal? : Text → Option Text := fun _ => none
  /-- How many calls there is room for when a form is converted to data. -/
  calls : Nat := 996
  ascii : ∀ t : Text, (∀ c ∈ t, c.val < 0x80) → refusal? t = none := by intros; rfl
  roomy : 4 ≤ calls := by decide

namespace Host

/-- Standard output takes the text. -/
def Takes (h : Host) (t : Text) : Prop := h.refusal? t = none

instance (h : Host) (t : Text) : Decidable (h.Takes t) := inferInstanceAs (Decidable (_ = _))

theorem surrogates?_of_ascii (i : Nat) {t : Text} (ht : ∀ c ∈ t, c.val < 0x80) :
    Utf8.surrogates? (fun _ => false) i t = none := by
  induction t generalizing i with
  | nil => rfl
  | cons c rest ih =>
    have hc := ht c List.mem_cons_self
    have hplain : c.isSurrogate = false := by
      simp only [CodePoint.isSurrogate, Bool.and_eq_false_iff, decide_eq_false_iff_not]
      omega
    rw [Utf8.surrogates?, hplain]
    exact ih (i + 1) fun c' hc' => ht c' (List.mem_cons_of_mem c hc')

/-- A host whose standard output is UTF-8. -/
def utf8 : Host where
  refusal? t := (Utf8.surrogates? (fun _ => false) 0 t).map Utf8.Surrogates.message
  ascii t ht := by rw [surrogates?_of_ascii 0 ht]; rfl

end Host

end MalForms
