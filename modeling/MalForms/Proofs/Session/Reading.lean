import MalForms.Proofs.Reader.Image
import MalForms.Proofs.Reader.LineEnd
import MalForms.Proofs.Session.Buffer

/-!
# What a session makes of code

* `read_mirrors_iff`: the reply of a session mirrors the reading of the code (forms, nothing, an incomplete text or an
  error) if and only if white space in the code is no more than separators.
* `read_newline`: a reply that does not ask for more code is the same if the code has a line feed after it.

A session does not read code that is white space throughout, and takes it for empty. But white space is wider than what
separates forms: the other white code points are symbol characters, and a text of them has symbols (`covers_blank`), which
the session drops (`read_formFeed`).
-/

namespace MalForms

open Lexeme
open Grammar (afterGap)

/-! ## Texts of white space -/

section Blank

variable {c : CodePoint} {t : Text}

/-- White space that does not separate forms is made of symbol characters. -/
theorem symbolChar_of_blank (hb : c.isBlank = true) (hs : startsGap c = false) : isSymbolChar c = true := by
  have hreserved : ∀ d ∈ reserved, d.isBlank = false := by decide
  simp only [startsGap, Bool.or_eq_false_iff, decide_eq_false_iff_not] at hs
  have hmem : c ∉ reserved := by
    intro hc
    cases hb.symm.trans (hreserved c hc)
  simp [isSymbolChar, hs.1, hs.2, hmem]

/-- No number begins with white space. -/
theorem numeral?_blank (hb : c.isBlank = true) (t : Text) : numeral? (c :: t) = none := by
  have hminus : c ≠ '-' := by
    rintro rfl
    cases hb
  have hdigit : Decimal.isDigit c = false := by
    cases hd : Decimal.isDigit c with
    | false => rfl
    | true => cases hb.symm.trans (Session.not_blank_of_digit hd)
  simp [numeral?_unsigned hminus, numeralOf, hdigit]

theorem isBlank_drop (h : t.isBlank = true) (n : Nat) : Text.isBlank (t.drop n) = true := by
  rw [Text.isBlank, List.all_eq_true] at h ⊢
  intro d hd
  exact h d (List.mem_of_mem_drop hd)

/-- White space separates forms if there is nothing else in its gap. -/
theorem all_separator_of_afterGap (hb : t.isBlank = true) (h : afterGap t = []) : t.all isSeparator = true := by
  induction t with
  | nil => rfl
  | cons c t ih =>
    rw [Text.isBlank, List.all_cons, Bool.and_eq_true] at hb
    by_cases hsep : isSeparator c = true
    · rw [afterGap_separator hsep] at h
      rw [List.all_cons, hsep, ih hb.2 h]
      rfl
    · have hgap : startsGap c = false := by
        have hmark : c ≠ commentMark := by
          rintro rfl
          cases hb.1
        simp [startsGap, hsep, hmark]
      rw [afterGap_cons hgap] at h
      cases h

/-- **A text of white space can be read**: apart from separators, it is made of symbols. -/
theorem covers_blank (c : Cursor) (h : c.rest.isBlank = true) : ∃ fs, Covers c fs := by
  cases hgap : c.skipGap.rest with
  | nil => exact ⟨[], c, .nil c, hgap⟩
  | cons d r =>
    have hblank : Text.isBlank (d :: r) = true := by
      rw [← hgap]
      exact isBlank_drop h _
    rw [Text.isBlank, List.all_cons, Bool.and_eq_true] at hblank
    have hsym := symbolChar_of_blank hblank.1 (head_afterGap hgap)
    have hx := scalar_name hsym (numeral?_blank hblank.1 r)
    rw [← hgap] at hx
    have hlt := length_scalar hx
    obtain ⟨fs, hfs⟩ := covers_blank (c.skipGap.advance _) (isBlank_drop (isBlank_drop h _) _)
    exact ⟨_, hfs.prepend (.scalar hx (.nil _))⟩
termination_by c.rest.length
decreasing_by exact hlt

end Blank

namespace Session

/-! ## The reply and the reading -/

section Replies

variable {code name : Text} {r : Reply}

/-- The replies of a session to code mirror its reading as a source of some name: its forms if there are any, nothing if
there are none, a demand for more if it is incomplete, and an error if it has one. -/
structure Mirrors (code name : Text) : Prop where
  value (fs : List Form) : (∃ r, read code = .ok r ∧ r.kind = .value ∧ r.forms = fs) ↔
    MalForms.read code name = .ok fs ∧ fs ≠ []
  empty : (∃ r, read code = .ok r ∧ r.kind = .empty) ↔ MalForms.read code name = .ok []
  incomplete : (∃ r, read code = .ok r ∧ r.kind = .incomplete) ↔
    ∃ e, MalForms.read code name = .error (.parse e) ∧ e.incomplete = true
  error : (∃ r, read code = .ok r ∧ r.kind = .error) ↔
    ∃ e, MalForms.read code name = .error (.parse e) ∧ e.incomplete = false

/-- The name of a source shows in its errors only. -/
theorem read_named (code name name' : Text) : MalForms.read code name =
    match MalForms.read code name' with
    | .ok fs => .ok fs
    | .error (.parse e) => .error (.parse { e with filename := name })
    | .error e => .error e := by
  rw [MalForms.read, MalForms.read, Trace.result, Trace.result]
  cases (trace (.start code)).failure with
  | none => rfl
  | some e => cases e <;> rfl

theorem mirrors_of_clean (h : Clean code) (name : Text) : Mirrors code name := by
  have hreply := read_of_clean h
  have hname := read_named code name filename
  cases hr : MalForms.read code filename with
  | ok fs =>
    rw [hr] at hreply hname
    cases fs with
    | nil => constructor <;> simp [hreply, hname]
    | cons f fs => constructor <;> simp +contextual [hreply, hname]
  | error x =>
    rw [hr] at hreply hname
    cases x with
    | parse e =>
      have hinc : ({ e with filename := name } : ParseError).incomplete = e.incomplete := rfl
      cases hi : e.incomplete with
      | true => constructor <;> simp [hreply, hname, hinc, hi]
      | false => constructor <;> simp [hreply, hname, hinc, hi]
    | overlong d => constructor <;> simp [hreply, hname]
    | misescaped f => constructor <;> simp [hreply, hname]

/-- Code that is white space but not only separators has symbols, and the session takes it for empty. -/
theorem read_of_not_clean (h : ¬Clean code) (name : Text) :
    read code = .ok { kind := .empty } ∧ ∃ f fs, MalForms.read code name = .ok (f :: fs) := by
  rw [Clean, Classical.not_imp] at h
  obtain ⟨hblank, hsep⟩ := h
  constructor
  · rw [read, strip_isEmpty, hblank]
    rfl
  · obtain ⟨fs, hfs⟩ := covers_blank (.start code) hblank
    cases fs with
    | nil =>
      obtain ⟨c, hr, hc⟩ := hfs
      rw [reads_nil hr] at hc
      exact absurd (all_separator_of_afterGap hblank hc) hsep
    | cons f fs => exact ⟨f, fs, read_eq_ok_iff_covers.2 hfs⟩

theorem read_ok_of_not_holdsOverlong (h : ¬HoldsOverlong code) : ∃ r, read code = .ok r := by
  cases hr : read code with
  | ok r => exact ⟨r, rfl⟩
  | error e =>
    obtain ⟨-, d, -, hd⟩ := read_error_iff.1 hr
    exact absurd (holdsOverlong_of_read hd) h

/-- **A session mirrors the reading of code if and only if white space in it is no more than separators.** Code without
a number of too many digits always has a reply. Where white space is more than separators the reply is that there is
nothing, though the code reads as symbols. -/
theorem read_mirrors_iff (code name : Text) (hover : ¬HoldsOverlong code) :
    (∃ r, read code = .ok r) ∧ (Mirrors code name ↔ Clean code) ∧
      (¬Clean code → read code = .ok { kind := .empty } ∧ ∃ f fs, MalForms.read code name = .ok (f :: fs)) := by
  refine ⟨read_ok_of_not_holdsOverlong hover, ⟨?_, fun h => mirrors_of_clean h name⟩, fun h => read_of_not_clean h name⟩
  intro hm
  by_contra hclean
  obtain ⟨hempty, f, fs, hread⟩ := read_of_not_clean hclean name
  cases hread.symm.trans (hm.empty.1 ⟨_, hempty, rfl⟩)

/-- An open bracket after a comma: none of it is white space that the reader would not pass over. -/
theorem read_mirrors_iff_bracket :
    ¬HoldsOverlong ",(" ∧ (∃ r, read ",(" = .ok r) ∧ Mirrors ",(" "<input>" := by
  have hclean : Clean ",(" := nofun
  have hover : ¬HoldsOverlong ",(" := fun h => absurd (length_of_holdsOverlong h) (by decide)
  obtain ⟨hreply, hiff, -⟩ := read_mirrors_iff ",(" "<input>" hover
  exact ⟨hover, hreply, hiff.2 hclean⟩

/-- A form feed is a symbol to the reader and nothing to a session. -/
theorem read_formFeed : read "\x0c" = .ok { kind := .empty } ∧
    MalForms.read "\x0c" = .ok [.symbol "\x0c" ⟨1, 0, 1, 1⟩] ∧ ¬Mirrors "\x0c" "<input>" := by
  have hempty : read "\x0c" = .ok { kind := .empty } := rfl
  have hread : MalForms.read "\x0c" = .ok [.symbol "\x0c" ⟨1, 0, 1, 1⟩] :=
    read_eq_ok_iff.2 ⟨_, .scalar (x := .symbol "\x0c") (n := 1) (by decide) (.nil _), by decide⟩
  refine ⟨hempty, hread, fun hm => ?_⟩
  cases hread.symm.trans (hm.empty.1 ⟨_, hempty, rfl⟩)

end Replies

/-! ## Forms that are shown -/

/-- The forms of a reply can be shown: what is read has no number of too many digits. -/
theorem shown_of_read {code : Text} {r : Reply} (h : read code = .ok r) (pretty : Bool) :
    ∃ t, shown pretty r.forms = .ok t := by
  have hread : Form.areReadable r.forms = true := by
    unfold read at h
    split at h
    · cases h
      rfl
    · split at h
      · cases h
        rfl
      · rename_i fs _ hfs
        cases h
        obtain ⟨c, hr, -⟩ := read_eq_ok_iff.1 hfs
        exact hr.areReadable
      · cases h
        rfl
      · cases h
  have hprintable := arePrintable_of_areReadable hread
  cases pretty with
  | false => exact ⟨_, Form.printAll_of_arePrintable hprintable true⟩
  | true => exact ⟨_, Form.layoutAll_of_arePrintable hprintable⟩

/-! ## A line feed after the code -/

section Newline

variable {code : Text} {r : Reply}

theorem isBlank_line (t : Text) : t.line.isBlank = t.isBlank := by
  have hnewline : CodePoint.isBlank '\n' = true := by decide
  simp [Text.isBlank, Text.line, hnewline]

/-- Code to which a session does not ask for more is not incomplete. -/
theorem complete_of_read (h : read code = .ok r) (hi : r.isIncomplete = false) (hblank : code.isBlank = false) :
    ∀ e, MalForms.read code filename = .error (.parse e) → e.incomplete = false := by
  intro e he
  rw [read, strip_isEmpty, hblank, he] at h
  cases hinc : e.incomplete with
  | false => rfl
  | true =>
    simp only [hinc] at h
    cases h
    cases hi

/-- **A reply that does not ask for more is the same if a line feed follows the code**, and so are the records. -/
theorem read_newline (h : read code = .ok r) (hi : r.isIncomplete = false) :
    read code.line = .ok r ∧ records code.line = records code := by
  cases hblank : code.isBlank with
  | true =>
    rw [read, strip_isEmpty, hblank] at h
    simp only [read, records, strip_isEmpty, isBlank_line, hblank, if_true]
    exact ⟨h, trivial⟩
  | false =>
    have hcomplete := complete_of_read h hi hblank
    have hin := inside_of_read hcomplete
    obtain ⟨hforms, hfail⟩ := trace_line hin
    rw [← h]
    simp only [read, records, strip_isEmpty, isBlank_line, hblank, Bool.false_eq_true, if_false]
    refine ⟨by rw [MalForms.read_line hcomplete], ?_⟩
    rw [Log.ofTrace, Log.ofTrace, hforms, hfail]
    cases he : (trace (.start code)).failure with
    | none => rfl
    | some e => simp only [toError_newline (hin e he)]

end Newline

end Session

end MalForms
