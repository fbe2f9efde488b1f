import MalForms.Proofs.Layout
import MalForms.Proofs.Reader.CutShort
import MalForms.Proofs.Reader.Spans

/-!
# Printed forms that are cut short

* `read_cut_print`: no text of a string or of a compound form, on one line or laid out, is readable if it is cut short;
  without its last code point it is incomplete.

Such a form is written between delimiters (`Enclosed`). A form that starts with one ends at the other, whatever comes
behind it (`Reads.extend_delimited`). So if the front of the text were readable, the form that stands there would stand
in the whole text as well, and it would end too early, because a text reads in one way only.
-/

namespace MalForms

open Lexeme
open Escape (quote)

/-! ## Delimiters -/

section Delimiters

variable {c c' : Cursor} {d : CodePoint} {g : Form} {r p t filename : Text}

/-- The code point starts a string or a compound form. -/
def Delimits (d : CodePoint) : Prop := d = quote ∨ ∃ s : Shape, d = s.opener

theorem skipGap_delimiter (hd : Delimits d) (r : Text) : (Cursor.start (d :: r)).skipGap = .start (d :: r) := by
  apply skipGap_eq_self
  apply afterGap_cons
  rcases hd with rfl | ⟨s, rfl⟩
  · decide
  · cases s <;> decide

/-- A scalar that starts with a delimiter is a string. -/
theorem eq_quote_of_found {x : Scalar} {n : Nat} (hd : Delimits d) (h : scalar (d :: r) = .found x n) :
    d = quote := by
  rcases hd with rfl | ⟨s, rfl⟩
  · rfl
  · rw [scalar_opening (ofText?_opener s r)] at h
    cases h

theorem ofText?_delimiter (hd : Delimits d) (m : Mark) : Opening.ofText? (d :: r) ≠ some (.mark m) := by
  rcases hd with rfl | ⟨s, rfl⟩
  · rw [ofText?_cons]
    nofun
  · rw [ofText?_opener]
    nofun

/-- **A form between delimiters ends at the second one**, whatever comes after it. -/
theorem Reads.extend_delimited (h : Reads c [g] c') (hd : Delimits d) (hc : c.skipGap.rest = d :: r) (t : Text) :
    Reads (c.extend t) [g] (c'.extend t) := by
  cases h with
  | @scalar _ _ x n _ hs hr =>
    rw [reads_nil hr]
    have hne : c.skipGap.rest ≠ [] := ne_nil_of_not_absent (by rw [hs]; exact Match.noConfusion)
    have hgap := Cursor.skipGap_extend hne t
    have hs' : Lexeme.scalar (c.extend t).skipGap.rest = .found x n := by
      rw [hc] at hs
      obtain rfl := eq_quote_of_found hd hs
      rw [hgap, Cursor.rest_extend, hc]
      exact scalar_append_string hs t
    have hx := Reads.scalar hs' (.nil _)
    rwa [hgap, Cursor.advance_extend (scalar_length_le hs)] at hx
  | bracket ho hg hcl hr =>
    rw [reads_nil hr]
    exact reads_bracket_extend ho hg (hg.extend (parted_of_closer hcl t)) hcl (.nil _)
  | mark ho =>
    rw [hc] at ho
    exact absurd ho (ofText?_delimiter hd _)

/-- The front of a text that reads as one form between delimiters is not readable. -/
theorem read_front_ne_ok (h : Reads (.start (p ++ t)) [g] c) (hc : c.rest = []) (hp : ∃ d r, p = d :: r ∧ Delimits d)
    (ht : t ≠ []) (fs : List Form) : read p filename ≠ .ok fs := by
  obtain ⟨d, r, rfl, hd⟩ := hp
  intro hread
  obtain ⟨c₁, hr, hend⟩ := read_eq_ok_iff.1 hread
  have hgap : (Cursor.start (d :: r)).skipGap.rest = d :: r := by
    rw [skipGap_delimiter hd]
    rfl
  cases fs with
  | nil =>
    rw [reads_nil hr, hgap] at hend
    cases hend
  | cons f fs =>
    obtain ⟨b, hf, -⟩ := reads_cons hr
    -- the form stands in the whole text too, but the text reads in one way only, as a form that takes it all
    have hlong : Reads (.start (d :: r ++ t)) [f] (b.extend t) := hf.extend_delimited hd hgap t
    have hsame := (next_of_reads hlong).symm.trans (next_of_reads h)
    have hrest : b.rest ++ t = [] := by
      rw [← hc, ← (Outcome.form.inj hsame).2]
      rfl
    exact ht (List.append_eq_nil_iff.1 hrest).2

end Delimiters

/-! ## Texts between delimiters -/

/-- Whether the form is written between delimiters. -/
def Form.isDelimited : Form → Bool
  | str _ | compound _ _ _ => true
  | _ => false

/-- The text is the form between its delimiters: an encoded string or a row of items. -/
inductive Enclosed : Text → Form → Prop
  | str (s : Text) : Enclosed (quote :: (Escape.encode s ++ [quote])) (.str s)
  | compound {r : Text} {items : List Form} (s : Shape) (span : Option Span) : Row Spells r items →
      Enclosed (s.opener :: (r ++ [s.closer])) (.compound s items span)

section Texts

variable {f : Form} {u p t : Text}

theorem enclosed_render (h : f.isReadable = true) (hd : f.isDelimited = true) : Enclosed (f.render true) f := by
  cases f with
  | str s => exact .str s
  | compound s items span =>
    rw [Form.render_compound]
    apply Enclosed.compound
    exact row_renderItems fun g hg => returns_of_isReadable ((areReadable_iff items).1 h g hg)
  | nil | bool | int | symbol | keyword => cases hd

theorem enclosed_arrange (h : f.isReadable = true) (hd : f.isDelimited = true) (indent : Int) (pretty : Bool) :
    Enclosed (f.arrange indent pretty) f := by
  obtain ⟨levels, hl⟩ := laidOut_arrange f indent pretty
  let Q : Text → Form → Prop := fun u g => Spells u g ∧ (g.isDelimited = true → Enclosed u g)
  have hlaid : Q (f.arrange indent pretty) f := by
    refine laidOut_induction (fun g hg => ⟨returns_of_isReadable hg, enclosed_render hg⟩) ?_ hl h
    intro r items hrow s span
    have hspells : Row Spells r items := hrow.imp fun g _ u hu => hu.1
    exact ⟨spells_compound hspells s span, fun _ => .compound s span hspells⟩
  exact hlaid.2 hd

theorem Enclosed.spells (h : Enclosed u f) : Spells u f := by
  cases h with
  | str s => exact returns_of_isReadable (f := .str s) rfl
  | compound s span hrow => exact spells_compound hrow s span

/-- Each front of the text starts with the first delimiter. -/
theorem Enclosed.starts (h : Enclosed (p ++ t) f) (hp : p ≠ []) : ∃ d r, p = d :: r ∧ Delimits d := by
  obtain ⟨d, r, rfl⟩ := List.exists_cons_of_ne_nil hp
  refine ⟨d, r, rfl, ?_⟩
  generalize hu : d :: r ++ t = u at h
  cases h with
  | str s => exact .inl (List.cons.inj hu).1
  | compound s span hrow => exact .inr ⟨s, (List.cons.inj hu).1⟩

/-- The text reads as one form. -/
theorem Enclosed.reads (h : Enclosed u f) : ∃ g c, Reads (.start u) [g] c ∧ c.rest = [] := by
  obtain ⟨g, c, hr, hc, -⟩ := h.spells (.start u) [] (by rw [List.append_nil]; rfl) breaks_nil
  exact ⟨g, c, hr, hc⟩

/-- A string literal without its closing quote is incomplete. -/
theorem read_open_string {b : Text} (hb : Body b) (filename : Text) :
    ∃ e, read (quote :: b) filename = .error (.parse e) ∧ e.incomplete = true := by
  let c : Cursor := .start (quote :: b)
  have hgap : c.skipGap = c := skipGap_delimiter (.inl rfl) b
  have hlen : bodyLength .plain b = (b.length, some .quote) := by
    have hbody := bodyLength_body hb []
    rw [List.append_nil] at hbody
    rw [hbody, bodyLength, Nat.zero_add]
    rfl
  have hs : Lexeme.scalar c.skipGap.rest = .broken (b.length + 1) .quote := by
    rw [hgap]
    show Lexeme.scalar (quote :: b) = _
    rw [scalar_quote, stringLiteral, hlen]
  have hstands : (c.skipGap.advance (b.length + 1)).Stands (quote :: b) := ((stands_start _).advance _).advance _
  refine ⟨_, read_eq_error_iff.2 ⟨[], _, .breaks (.nil _) .nil (step_broken hs), rfl⟩, ?_⟩
  rw [incomplete_atPosition hstands, hgap, Cursor.rest_advance]
  exact List.drop_eq_nil_of_le (Nat.le_refl _)

/-- A row of items without its closing bracket is incomplete. -/
theorem read_open_row {r : Text} {items : List Form} (h : Row Spells r items) (s : Shape) (filename : Text) :
    ∃ e, read (s.opener :: r) filename = .error (.parse e) ∧ e.incomplete = true := by
  let c : Cursor := .start (s.opener :: r)
  have hgap : c.skipGap = c := skipGap_delimiter (.inr ⟨s, rfl⟩) r
  have hrest : (c.skipGap.advance 1).rest = r ++ [] := by
    rw [hgap, List.append_nil]
    rfl
  obtain ⟨gs, c', hr, hc', -⟩ := reads_row h hrest breaks_nil
  have hopen : Open c [⟨.bracket s, c.skipGap.pos, gs.reverse⟩] c' := by
    refine .cons .nil ?_ (by rwa [List.reverse_reverse]) rfl
    rw [hgap]
    exact ofText?_opener s r
  refine read_of_cutOff (.nil _) hopen ?_ filename
  rw [rest_skipGap, hc']
  rfl

/-- Without its second delimiter the text is incomplete. -/
theorem Enclosed.incomplete {x : CodePoint} (h : Enclosed u f) (hu : u = p ++ [x]) (filename : Text) :
    ∃ e, read p filename = .error (.parse e) ∧ e.incomplete = true := by
  cases h with
  | str s =>
    rw [← List.cons_append] at hu
    obtain ⟨rfl, -⟩ := List.append_inj' hu rfl
    exact read_open_string (body_encode s) filename
  | @compound r items s span hrow =>
    rw [← List.cons_append] at hu
    obtain ⟨rfl, -⟩ := List.append_inj' hu rfl
    exact read_open_row hrow s filename

/-- **Printed strings and compound forms cannot be cut short**: they have a text on one line and a layout, no front of
either is readable, and without its last code point it is incomplete. -/
theorem read_cut_print (f : Form) (h : f.isReadable = true) (hd : f.isDelimited = true) (indent : Int) (pretty : Bool) :
    (∃ line, f.print = .ok line) ∧ (∃ laid, f.layout indent pretty = .ok laid) ∧
    ∀ text p t filename, f.print = .ok text ∨ f.layout indent pretty = .ok text → text = p ++ t → p ≠ [] → t ≠ [] →
      ∃ e, read p filename = .error (.parse e) ∧ (t.length = 1 → e.incomplete = true) := by
  have hprint := Form.print_of_isPrintable (isPrintable_of_isReadable h) true
  have hlayout := Form.layout_of_isPrintable (isPrintable_of_isReadable h) indent pretty
  refine ⟨⟨_, hprint⟩, ⟨_, hlayout⟩, ?_⟩
  rintro text p t filename htext rfl hp ht
  have henc : Enclosed (p ++ t) f := by
    rcases htext with htext | htext
    · rw [← Except.ok.inj (hprint.symm.trans htext)]
      exact enclosed_render h hd
    · rw [← Except.ok.inj (hlayout.symm.trans htext)]
      exact enclosed_arrange h hd indent pretty
  obtain ⟨g, c, hr, hc⟩ := henc.reads
  have hwhole : read (p ++ t) filename = .ok [g] := read_eq_ok_iff.2 ⟨c, hr, by rw [rest_skipGap, hc]; rfl⟩
  obtain ⟨e, he⟩ := parse_of_front hwhole (read_front_ne_ok hr hc (henc.starts hp) ht)
  refine ⟨e, he, fun hlast => ?_⟩
  obtain ⟨x, rfl⟩ := List.length_eq_one_iff.1 hlast
  obtain ⟨e', he', hi⟩ := henc.incomplete rfl filename
  cases he.symm.trans he'
  exact hi

/-- The cuts within the escaped backslash of a string in a list, and before the bracket that closes the list. -/
theorem read_cut_print_escape :
    let f : Form := .compound .list [.str ":)\\"] none
    f.isReadable = true ∧ f.isDelimited = true ∧ f.print = .ok (Text.ofString "(\":)\\\\\")") ∧
      (∃ e, read "(\":)\\" = .error (.parse e)) ∧
      ∃ e, read "(\":)\\\\\"" = .error (.parse e) ∧ e.incomplete = true := by
  intro f
  have hf : f.isReadable = true := by decide
  have hline : f.render true = Text.ofString "(\":)\\\\\")" := by decide
  have hprint : f.print = .ok (Text.ofString "(\":)\\\\\")") := by
    rw [Form.print_of_isPrintable (isPrintable_of_isReadable hf), hline]
  obtain ⟨-, -, hcut⟩ := read_cut_print f hf rfl 0 true
  obtain ⟨e, he, -⟩ := hcut _ "(\":)\\" "\\\")" "<input>" (.inl hprint) (by decide) (by decide) (by decide)
  obtain ⟨e', he', hi⟩ := hcut _ "(\":)\\\\\"" ")" "<input>" (.inl hprint) (by decide) (by decide) (by decide)
  exact ⟨hf, rfl, hprint, ⟨e, he⟩, e', he', hi rfl⟩

end Texts

end MalForms
