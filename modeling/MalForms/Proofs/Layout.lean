import MalForms.Proofs.RoundTrip

/-!
# Layout

* `layout_faithful`: a readable form is laid out as its text on one line, but for line ends and indentation where there
  is a space; forms laid out one below another are read as the same forms.

Proof: a layout is the text on one line, or a row of layouts between brackets (`laidOut_induction`), so what is to be
shown of all layouts need only pass from the items in a row to the compound form. For reading this is
`spells_compound`, which does not ask what the separators are. On one line, every separator becomes a space, because the
text after it starts with no space of its own (`Flattens`, `flattens_compound`).
-/

namespace MalForms

open Lexeme

/-- The text on one line: a space for every line feed and the spaces after it. -/
def Text.oneLine : Text → Text
  | [] => []
  | c :: t => if c = '\n' then CodePoint.ofChar ' ' :: oneLine (t.dropWhile (· = ' ')) else c :: oneLine t
termination_by t => t.length
decreasing_by
  · have := (List.dropWhile_sublist (· = CodePoint.ofChar ' ') (l := t)).length_le
    simp only [List.length_cons]
    omega
  · simp

/-! ## Texts on one line -/

section OneLine

variable {s t sep : Text}

theorem oneLine_append (h : CodePoint.ofChar '\n' ∉ s) (t : Text) : (s ++ t).oneLine = s ++ t.oneLine := by
  induction s with
  | nil => rfl
  | cons c s ih =>
    rw [List.mem_cons, not_or] at h
    rw [List.cons_append, Text.oneLine, if_neg (Ne.symm h.1), ih h.2, List.cons_append]

/-- The text starts with something other than a space. -/
def Flush (t : Text) : Prop := ∃ c r, t = c :: r ∧ c ≠ ' '

theorem Flush.append (h : Flush s) (t : Text) : Flush (s ++ t) := by
  obtain ⟨c, r, rfl, hc⟩ := h
  exact ⟨c, r ++ t, rfl, hc⟩

theorem dropWhile_spaces (n : Nat) (h : Flush t) :
    (List.replicate n (CodePoint.ofChar ' ') ++ t).dropWhile (· = CodePoint.ofChar ' ') = t := by
  obtain ⟨c, r, rfl, hc⟩ := h
  induction n with
  | zero => simp [hc]
  | succ n ih => simpa [List.replicate_succ] using ih

/-- A separator is one space on one line. -/
theorem oneLine_separates (h : Separates sep) (ht : Flush t) :
    (sep ++ t).oneLine = CodePoint.ofChar ' ' :: t.oneLine := by
  cases h with
  | space => exact oneLine_append (by decide) t
  | lineBreak indent =>
    rw [Form.lineBreak, Text.spaces, List.cons_append, Text.oneLine, if_pos rfl, dropWhile_spaces _ ht]

/-- On one line, the text starts as the form does on one line, whatever follows it. -/
structure Flattens (t : Text) (f : Form) : Prop where
  flush : Flush t
  oneLine : ∀ r, (t ++ r).oneLine = f.render true ++ r.oneLine

theorem oneLine_spaced {fs : List Form} (h : Spaced Flattens s fs) (r : Text) :
    (s ++ r).oneLine = (fs.flatMap fun y => CodePoint.ofChar ' ' :: y.render true) ++ r.oneLine := by
  induction h with
  | nil => rfl
  | cons hsep hf _ ih =>
    rw [List.append_assoc, List.append_assoc, oneLine_separates hsep (hf.flush.append _), hf.oneLine, ih]
    simp

theorem oneLine_row {fs : List Form} (h : Row Flattens s fs) (r : Text) :
    (s ++ r).oneLine = Form.renderItems true fs ++ r.oneLine := by
  cases h with
  | nil => rfl
  | cons hf hs => rw [List.append_assoc, hf.oneLine, oneLine_spaced hs, Form.renderItems, List.append_assoc]

theorem flattens_compound {items : List Form} (h : Row Flattens t items) (s : Shape) (span : Option Span) :
    Flattens (s.opener :: (t ++ [s.closer])) (.compound s items span) where
  flush := ⟨s.opener, _, rfl, by cases s <;> decide⟩
  oneLine r := by
    have hopen : CodePoint.ofChar '\n' ∉ [s.opener] := by cases s <;> decide
    have hclose : CodePoint.ofChar '\n' ∉ [s.closer] := by cases s <;> decide
    calc
      Text.oneLine (s.opener :: (t ++ [s.closer]) ++ r) = Text.oneLine ([s.opener] ++ (t ++ ([s.closer] ++ r))) := by
        simp
      _ = [s.opener] ++ (Form.renderItems true items ++ ([s.closer] ++ r.oneLine)) := by
        rw [oneLine_append hopen, oneLine_row h, oneLine_append hclose]
      _ = (Form.compound s items span).render true ++ r.oneLine := by simp [Form.render_compound]

end OneLine

/-! ## Printed texts -/

section Printed

/-- The text is on one line and starts with something other than a space. -/
structure Inline (t : Text) : Prop where
  lineEnd : ∀ c ∈ t, isLineEnd c = false
  flush : Flush t

theorem Inline.newline {t : Text} (h : Inline t) : CodePoint.ofChar '\n' ∉ t := by
  intro hn
  exact absurd (h.lineEnd _ hn) (by decide)

theorem inline_cons {c : CodePoint} {t : Text} (hc : isLineEnd c = false) (hs : c ≠ ' ')
    (h : ∀ c ∈ t, isLineEnd c = false) : Inline (c :: t) where
  lineEnd := List.forall_mem_cons.2 ⟨hc, h⟩
  flush := ⟨c, t, rfl, hs⟩

theorem not_lineEnd_of_symbolChar {c : CodePoint} (h : isSymbolChar c = true) : isLineEnd c = false := by
  simp only [isSymbolChar, isSeparator, Bool.and_eq_true, Bool.not_eq_true', Bool.or_eq_false_iff] at h
  simp [isLineEnd, h]

theorem inline_of_isName {w : Text} (h : isName w = true) : Inline w := by
  rw [isName, Bool.and_eq_true] at h
  obtain ⟨hne, hall⟩ := h
  refine ⟨fun c hc => not_lineEnd_of_symbolChar (List.all_eq_true.1 hall c hc), ?_⟩
  cases w with
  | nil => cases hne
  | cons c r =>
    refine ⟨c, r, rfl, ?_⟩
    rintro rfl
    cases hall

theorem isName_ofInt (n : Int) : isName (Decimal.ofInt n) = true := by
  have hdigits (k : Nat) : (Decimal.ofNat k).all isSymbolChar = true :=
    List.all_eq_true.2 fun c hc => symbolChar_of_digit (List.all_eq_true.1 (all_ofNat k) c hc)
  cases n with
  | ofNat k =>
    rw [Decimal.ofInt, isName, hdigits, Bool.and_true, Bool.not_eq_true', List.isEmpty_eq_false_iff]
    exact ofNat_ne_nil k
  | negSucc k =>
    rw [Decimal.ofInt, isName, List.all_cons, hdigits]
    rfl

theorem not_lineEnd_of_mem_encode {c : CodePoint} {s : Text} (h : c ∈ Escape.encode s) : isLineEnd c = false := by
  have hlow := (mem_encode h).1
  rw [Bool.eq_false_iff]
  intro hc
  simp only [isLineEnd, Bool.or_eq_true, decide_eq_true_eq] at hc
  rcases hc with rfl | rfl <;> exact absurd hlow (by decide)

/-- A readable form prints on one line. -/
theorem inline_render {f : Form} (h : f.isReadable = true) : Inline (f.render true) := by
  induction f using Form.items_induction with
  | nil => exact inline_of_isName (by decide)
  | bool b => cases b <;> exact inline_of_isName (by decide)
  | int n => exact inline_of_isName (isName_ofInt n)
  | str s =>
    refine inline_cons (by decide) (by decide) (List.forall_mem_append.2 ⟨?_, by decide⟩)
    exact fun c hc => not_lineEnd_of_mem_encode hc
  | symbol name span =>
    rw [Form.isReadable, isSymbolName, Bool.and_eq_true, Bool.and_eq_true] at h
    exact inline_of_isName h.1.1
  | keyword name span => exact inline_cons (by decide) (by decide) (inline_of_isName h).lineEnd
  | compound s items span ih =>
    have hitems := Form.forall_mem_renderItems (by decide) fun f hf =>
      (ih f hf ((areReadable_iff items).1 h f hf)).lineEnd
    rw [Form.render_compound]
    refine inline_cons (by cases s <;> decide) (by cases s <;> decide) (List.forall_mem_append.2 ⟨hitems, ?_⟩)
    cases s <;> decide

theorem flattens_render {f : Form} (h : f.isReadable = true) : Flattens (f.render true) f where
  flush := (inline_render h).flush
  oneLine r := oneLine_append (inline_render h).newline r

end Printed

/-! ## Layouts -/

section Layouts

/-- What holds of the texts on one line, and of a row between brackets if it holds of the items, holds of all layouts of
readable forms. -/
theorem laidOut_induction {Q : Text → Form → Prop} (line : ∀ f : Form, f.isReadable = true → Q (f.render true) f)
    (broken : ∀ {t items}, Row Q t items → ∀ s span, Q (s.opener :: (t ++ [s.closer])) (.compound s items span))
    {levels : Nat} {t : Text} {f : Form} (h : Form.LaidOut levels t f) (hf : f.isReadable = true) : Q t f := by
  induction levels generalizing t f with
  | zero =>
    obtain ⟨indent, rfl⟩ := h
    rw [Form.layoutFrom, Form.flat_eq]
    exact line f hf
  | succ levels ih =>
    rcases Form.laidOut_cases h with rfl | ⟨s, items, span, r, rfl, rfl, hrow⟩
    · exact line f hf
    · exact broken (hrow.imp fun g hg u hu => ih hu ((areReadable_iff items).1 hf g hg)) s span

theorem laidOut_arrange (f : Form) (indent : Int) (pretty : Bool) :
    ∃ levels, Form.LaidOut levels (f.arrange indent pretty) f := by
  cases pretty with
  | false => exact ⟨0, indent, rfl⟩
  | true => exact ⟨Form.breakLevels, indent, rfl⟩

theorem flattens_arrange {f : Form} (h : f.isReadable = true) (indent : Int) (pretty : Bool) :
    Flattens (f.arrange indent pretty) f := by
  obtain ⟨levels, hl⟩ := laidOut_arrange f indent pretty
  exact laidOut_induction (fun _ => flattens_render) flattens_compound hl h

theorem spells_arrange {f : Form} (h : f.isReadable = true) (indent : Int) (pretty : Bool) :
    Spells (f.arrange indent pretty) f := by
  obtain ⟨levels, hl⟩ := laidOut_arrange f indent pretty
  exact laidOut_induction (fun _ => returns_of_isReadable) spells_compound hl h

/-- **Laying out changes the layout only**: a readable form prints on one line, its layout on one line is that text, and
layouts one below another are read as their forms. -/
theorem layout_faithful (indent : Int) (pretty : Bool) :
    (∀ f : Form, f.isReadable = true → ∃ line laid, f.print = .ok line ∧ f.layout indent pretty = .ok laid ∧
      CodePoint.ofChar '\n' ∉ line ∧ laid.oneLine = line) ∧
    ∀ fs, Form.areReadable fs = true → ∃ ts, fs.mapM (Form.layout · indent pretty) = .ok ts ∧
      readsAs (Text.join [CodePoint.ofChar '\n'] ts) fs = .ok true := by
  refine ⟨fun f h => ?_, fun fs h => ?_⟩
  · have hprintable := isPrintable_of_isReadable h
    refine ⟨_, _, Form.print_of_isPrintable hprintable true, Form.layout_of_isPrintable hprintable indent pretty,
      (inline_render h).newline, ?_⟩
    have hflat := (flattens_arrange h indent pretty).oneLine []
    simpa [Text.oneLine] using hflat
  · refine ⟨_, Form.mapM_layout (arePrintable_of_areReadable h) indent pretty, ?_⟩
    exact readsAs_row (row_join (.lineBreak 0) fs fun f hf =>
      spells_arrange ((areReadable_iff fs).1 h f hf) indent pretty)

/-- A list that is too long for its line by three columns, broken after its head. -/
theorem layout_faithful_broken :
    let f : Form := .compound .list [.symbol "a" {}, .int 1] none
    let laid := Text.concat [Text.ofString "(a", Form.lineBreak 60, Text.ofString "1)"]
    f.isReadable = true ∧ f.print = .ok "(a 1)" ∧ f.layout 58 = .ok laid ∧ laid.oneLine = Text.ofString "(a 1)" ∧
      readsAs (Text.join [CodePoint.ofChar '\n'] [laid, laid]) [f, f] = .ok true := by
  intro f laid
  have hf : f.isReadable = true := by decide
  have hprintable := isPrintable_of_isReadable hf
  have hline : f.render true = Text.ofString "(a 1)" := by decide
  have hlong : ¬(f.flat.length : Int) + 58 ≤ Form.lineWidth := by
    rw [Form.flat_eq, hline]
    decide
  have hhead : Form.layoutFrom 63 59 (.symbol "a" {}) = Form.flat (.symbol "a" {}) := by
    unfold Form.layoutFrom
    exact ite_self _
  have htail : Form.layoutFrom 63 60 (.int 1) = Form.flat (.int 1) := by
    unfold Form.layoutFrom
    exact ite_self _
  have hbroken : f.arrange 58 true = laid := by
    show Form.layoutFrom (63 + 1) 58 f = _
    rw [Form.layoutFrom, if_neg hlong]
    show Text.concat [_, Form.layoutFrom 63 59 _, Text.concat [Form.lineBreak 60 ++ Form.layoutFrom 63 60 _], _] = _
    rw [hhead, htail]
    decide
  have hprint : f.print = .ok "(a 1)" := by rw [Form.print_of_isPrintable hprintable, hline]
  have hlayout : f.layout 58 = .ok laid := by rw [Form.layout_of_isPrintable hprintable, hbroken]
  obtain ⟨hone, hall⟩ := layout_faithful 58 true
  obtain ⟨line, laid', hline', hlaid', -, hflat⟩ := hone f hf
  cases hprint.symm.trans hline'
  cases hlayout.symm.trans hlaid'
  obtain ⟨ts, hts, hreads⟩ := hall [f, f] (by decide)
  have hpair : [f, f].mapM (Form.layout · 58) = .ok [laid, laid] := by
    rw [List.mapM_cons, List.mapM_cons, hlayout]
    rfl
  cases hpair.symm.trans hts
  exact ⟨hf, hprint, hlayout, hflat, hreads⟩

end Layouts

end MalForms
