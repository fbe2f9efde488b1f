import MalForms.Proofs.Reader.Restriction
import MalForms.Proofs.Reader.Shift

/-!
# The spans of the forms that are read

* `read_spans`: the span of a form takes the part of the source that reads as the form.

The forms of a source come in rows: the forms outside all brackets, and the items of every compound form (`Siblings`).
What is claimed of each row is `Faithful`: its compound forms have spans, the part of the source that a span takes reads
as the form alone, the spans of the row lie within the span of the form around it and do not overlap. Only the name at
the head of a list that was written with a reader mark is no part of the source: its span takes the mark.

Proof: a form of the result stands between two cursors, and its span is the span between them (`Placed`,
`placed_of_mem`). The text between the cursors reads as the form because nothing before and nothing behind it matters
(`Reads.restrict`, `Reads.shift`). Going down into a form that stands somewhere, one finds its items standing one after
another behind its opening (`placed_compound`).
-/

namespace MalForms

open Lexeme

/-! ## What is claimed -/

/-- The part of a text from offset `s` up to offset `e`. -/
def Text.between (t : Text) (s e : Nat) : Text := (t.take e).drop s

/-- The span takes the part of the source from offset `s` up to offset `e`, which is not empty. -/
structure Span.Takes (source : Text) (span : Span) (s e : Nat) : Prop where
  start : source.offsetOf? span.line span.col = some (s : Int)
  stop : source.offsetOf? span.endLine span.endCol = some (e : Int)
  lt : s < e
  le : e ≤ source.length

/-- Forms that stand side by side in `fs`, and the form that they are the items of: the forms of `fs`, which are the
items of none, and the items of every compound form at any depth. -/
inductive Siblings (fs : List Form) : Option Form → List Form → Prop
  | top : Siblings fs none fs
  | items {parent : Option Form} {row items : List Form} {s : Shape} {span : Option Span} : Siblings fs parent row →
      .compound s items span ∈ row → Siblings fs (some (.compound s items span)) items

/-- The form is a list that was written with a reader mark: the source has the mark where the list starts. -/
def WrittenWith (source : Text) (m : Mark) (parent : Option Form) : Prop :=
  ∃ items span, ∃ s : Nat, parent = some (.compound .list items (some span)) ∧
    source.offsetOf? span.line span.col = some (s : Int) ∧ Opening.ofText? (source.drop s) = some (.mark m)

/-- The spans of the two forms do not overlap, if both have one. -/
def Apart (source : Text) (f g : Form) : Prop := ∀ span span', f.span? = some span → g.span? = some span' →
  ∃ s e s' e', span.Takes source s e ∧ span'.Takes source s' e' ∧ (e ≤ s' ∨ e' ≤ s)

/-- The spans in a row of forms, and the span of the form that they are the items of, are right. -/
structure Faithful (source : Text) (parent : Option Form) (row : List Form) : Prop where
  /-- Every compound form has a span. -/
  located : ∀ s items span, .compound s items span ∈ row → span.isSome = true
  /-- The head of a list written with a mark has the name of the mark, and its span takes the mark. -/
  head : ∀ m, WrittenWith source m parent → ∃ span s e rest, row = .symbol m.head span :: rest ∧
    span.Takes source s e ∧ source.between s e = m.text
  /-- Of every other form, the part of the source that its span takes reads as that form alone. -/
  reread : ∀ i f span, row[i]? = some f → f.span? = some span → (i = 0 → ∀ m, ¬WrittenWith source m parent) →
    ∃ s e, span.Takes source s e ∧ readsAs (source.between s e) [f] = .ok true
  /-- The spans lie within the span of the form around them. -/
  inside : ∀ p outer f span, parent = some p → p.span? = some outer → f ∈ row → f.span? = some span →
    ∃ s e s' e', outer.Takes source s e ∧ span.Takes source s' e' ∧ s ≤ s' ∧ e' ≤ e
  /-- No two spans overlap. -/
  apart : row.Pairwise (Apart source)

/-! ## Where a form stands -/

section Placed

variable {source : Text} {c c' a b : Cursor} {f : Form} {fs gs : List Form} {span : Span}

/-- The form stands in the source between the cursors, without a gap in front of it. -/
structure Placed (source : Text) (f : Form) (a b : Cursor) : Prop where
  stands : a.Stands source
  start : a.skipGap = a
  reads : Reads a [f] b

theorem offsetOf?_stands (h : c.Stands source) : source.offsetOf? c.pos.line c.pos.col = some (c.pos.offset : Int) := by
  obtain ⟨before, rfl, hp⟩ := h
  rw [hp]
  exact offsetOf?_after before c.rest

theorem drop_stands (h : c.Stands source) : source.drop c.pos.offset = c.rest := by
  obtain ⟨before, rfl, hp⟩ := h
  rw [hp, Position.offset_after, show ({} : Position).offset = 0 from rfl, Nat.zero_add, List.drop_left]

theorem reads_cons (h : Reads c (f :: fs) c') : ∃ b, Reads c [f] b ∧ Reads b fs c' := by
  cases h with
  | scalar hs hr => exact ⟨_, .scalar hs (.nil _), hr⟩
  | bracket ho hg hc hr => exact ⟨_, .bracket ho hg hc (.nil _), hr⟩
  | mark ho hg hl hr => exact ⟨_, .mark ho hg hl (.nil _), hr⟩

theorem placed_of_reads (h : Reads c [f] c') (hc : c.Stands source) : Placed source f c.skipGap c' :=
  ⟨hc.advance _, skipGap_skipGap c, h.congr (List.cons_ne_nil f []) (skipGap_skipGap c)⟩

theorem offset_le_of_reads (h : Reads c fs c') : c.pos.offset ≤ c'.pos.offset :=
  (h.reaches (Position.Reaches.refl c.pos)).offset

theorem offset_le_skipGap (c : Cursor) : c.pos.offset ≤ c.skipGap.pos.offset :=
  (reaches_skipGap (Position.Reaches.refl c.pos)).offset

namespace Placed

theorem stop_stands (h : Placed source f a b) : b.Stands source := h.reads.stands h.stands

theorem lt (h : Placed source f a b) : a.pos.offset < b.pos.offset := by
  have hlen := h.reads.length_le
  have ha := offset_of_stands h.stands
  have hb := offset_of_stands h.stop_stands
  rw [List.length_singleton] at hlen
  omega

/-- The span of a form is the span between the cursors. -/
theorem span_eq (h : Placed source f a b) (hs : f.span? = some span) : span = .between a.pos b.pos := by
  have hstart := h.start
  cases h.reads with
  | @scalar _ _ x n _ hx hr =>
    rw [reads_nil hr, hstart]
    rw [hstart] at hs
    cases x <;> cases hs <;> rfl
  | bracket ho hg hc hr =>
    rw [reads_nil hr]
    rw [hstart] at hs
    cases hs
    rfl
  | mark ho hg hl hr =>
    rw [reads_nil hr]
    rw [hstart] at hs
    cases hs
    rfl

theorem takes (h : Placed source f a b) (hs : f.span? = some span) :
    span.Takes source a.pos.offset b.pos.offset := by
  have hb := offset_of_stands h.stop_stands
  rw [h.span_eq hs]
  exact ⟨offsetOf?_stands h.stands, offsetOf?_stands h.stop_stands, h.lt, by omega⟩

/-- **The text between the cursors reads as the form**: nothing before it and nothing behind it matters. -/
theorem reread (h : Placed source f a b) : readsAs (source.between a.pos.offset b.pos.offset) [f] = .ok true := by
  have hstop : b = Cursor.extend ⟨b.pos, []⟩ b.rest := rfl
  obtain ⟨d, hd, hr⟩ := h.reads.restrict hstop
  have hpos : a.pos = d.pos := by rw [hd]; rfl
  have hrest : a.rest = d.rest ++ b.rest := by rw [hd]; rfl
  have hslice : source.between a.pos.offset b.pos.offset = d.rest := by
    have hdrop := drop_stands h.stands
    have ha := offset_of_stands h.stands
    have hb := offset_of_stands h.stop_stands
    have hlen : b.pos.offset - a.pos.offset = d.rest.length := by
      rw [hrest, List.length_append] at ha
      omega
    rw [Text.between, List.drop_take, hdrop, hrest, hlen, List.take_left]
  have hshift := hr.shift (b := {}) (Position.Reaches.refl d.pos)
  rw [Cursor.shift, Position.shift_self] at hshift
  have hread : read (source.between a.pos.offset b.pos.offset) = .ok [f.mapSpan (Span.shift d.pos {})] := by
    rw [hslice]
    exact read_eq_ok_iff.2 ⟨_, hshift, rfl⟩
  have hsame : Form.sameAll [f.mapSpan (Span.shift d.pos {})] [f] = true := by
    rw [Form.sameAll_iff, Form.eraseAll_eq_map, Form.eraseAll_eq_map, List.map_singleton, List.map_singleton,
      Form.erase_mapSpan]
  exact readsAs_iff.2 ⟨_, hread, hsame⟩

end Placed

/-! ## Rows of forms -/

/-- Each of the forms that stand between two cursors stands between them. -/
theorem placed_of_mem (h : Reads c fs c') (hc : c.Stands source) (hf : f ∈ fs) :
    ∃ a b, Placed source f a b ∧ c.pos.offset ≤ a.pos.offset ∧ b.pos.offset ≤ c'.pos.offset := by
  induction fs generalizing c with
  | nil => cases hf
  | cons g fs ih =>
    obtain ⟨b, hg, hr⟩ := reads_cons h
    rcases List.mem_cons.1 hf with rfl | hf
    · exact ⟨_, b, placed_of_reads hg hc, offset_le_skipGap c, offset_le_of_reads hr⟩
    · obtain ⟨a, b', hp, hle, hle'⟩ := ih hr (hg.stands hc) hf
      exact ⟨a, b', hp, Nat.le_trans (offset_le_of_reads hg) hle, hle'⟩

/-- The spans of forms between two cursors lie between them and take what reads as the forms. -/
theorem takes_of_mem (h : Reads c fs c') (hc : c.Stands source) (hf : f ∈ fs) (hs : f.span? = some span) :
    ∃ s e, span.Takes source s e ∧ readsAs (source.between s e) [f] = .ok true ∧ c.pos.offset ≤ s ∧
      e ≤ c'.pos.offset := by
  obtain ⟨a, b, hp, hle, hle'⟩ := placed_of_mem h hc hf
  exact ⟨_, _, hp.takes hs, hp.reread, hle, hle'⟩

theorem Apart.symm {g : Form} (h : Apart source f g) : Apart source g f := by
  intro span span' hs hs'
  obtain ⟨s, e, s', e', ht, ht', hor⟩ := h span' span hs' hs
  exact ⟨s', e', s, e, ht', ht, hor.symm⟩

/-- The spans of forms between two cursors do not overlap, since the forms come one after another. -/
theorem pairwise_apart (h : Reads c fs c') (hc : c.Stands source) : fs.Pairwise (Apart source) := by
  induction fs generalizing c with
  | nil => exact .nil
  | cons f fs ih =>
    obtain ⟨b, hf, hr⟩ := reads_cons h
    refine .cons (fun g hg => ?_) (ih hr (hf.stands hc))
    intro span span' hs hs'
    obtain ⟨s', e', ht', -, hle, -⟩ := takes_of_mem hr (hf.stands hc) hg hs'
    exact ⟨_, _, s', e', (placed_of_reads hf hc).takes hs, ht', .inl hle⟩

end Placed

/-! ## The items of a form -/

section Items

variable {source : Text} {a b : Cursor} {s : Shape} {items : List Form} {span : Option Span} {m : Mark}

/-- The items of a compound form that stands somewhere: forms between its brackets, or behind its mark the forms that
the mark takes, the last one first after the name of the mark. -/
inductive Inside (a b : Cursor) (s : Shape) (items : List Form) : Prop
  | bracket {c : Cursor} : Opening.ofText? a.rest = some (.bracket s) → Reads (a.advance 1) items c →
      c.pos.offset ≤ b.pos.offset → Inside a b s items
  | mark {m : Mark} {gs : List Form} : s = .list → Opening.ofText? a.rest = some (.mark m) →
      Reads (a.advance m.text.length) gs b →
      items = .symbol m.head (.between a.pos (a.advance m.text.length).pos) :: gs.reverse → Inside a b s items

/-- **Going down into a form**: it has a span, and its items stand one after another in it. -/
theorem placed_compound (h : Placed source (.compound s items span) a b) : span.isSome = true ∧ Inside a b s items := by
  have hstart := h.start
  generalize hf : Form.compound s items span = f at h
  cases h.reads with
  | @scalar _ _ x n _ hx hr => cases x <;> cases hf
  | @bracket _ c _ _ gs _ ho hg hc hr =>
    cases hf
    rw [hstart] at ho hg
    refine ⟨rfl, .bracket ho hg ?_⟩
    rw [reads_nil hr]
    exact Nat.le_trans (offset_le_skipGap c) (reaches_advance (Position.Reaches.refl _) 1).offset
  | @mark _ c _ m gs _ ho hg hl hr =>
    cases hf
    rw [hstart] at ho hg
    have hpos : (a.advance m.text.length).pos = a.pos.after m.text := by
      obtain ⟨r, hrest⟩ := text_of_ofText? ho
      rw [Cursor.advance, hrest, Opening.text, List.take_left]
    refine ⟨rfl, .mark rfl ho (reads_nil hr ▸ hg) ?_⟩
    rw [hstart, hpos]

/-- A list was written with the mark that stands where it starts. -/
theorem writtenWith_iff (h : Placed source (.compound s items span) a b) :
    WrittenWith source m (some (.compound s items span)) ↔
      s = .list ∧ Opening.ofText? a.rest = some (.mark m) := by
  obtain ⟨outer, rfl⟩ := Option.isSome_iff_exists.1 (placed_compound h).1
  have hstart := (h.takes rfl).start
  constructor
  · rintro ⟨items', span', i, he, hi, ho⟩
    cases he
    rw [hstart] at hi
    cases hi
    exact ⟨rfl, by rw [← drop_stands h.stands]; exact ho⟩
  · rintro ⟨rfl, ho⟩
    exact ⟨items, outer, a.pos.offset, rfl, hstart, by rw [drop_stands h.stands]; exact ho⟩

/-- The part of the source that the next code points take. -/
theorem between_advance (h : a.Stands source) (n : Nat) :
    source.between a.pos.offset (a.advance n).pos.offset = a.rest.take n := by
  have hlen : (a.advance n).pos.offset - a.pos.offset = (a.rest.take n).length := by
    rw [Cursor.advance, Position.offset_after]
    omega
  rw [Text.between, List.drop_take, drop_stands h, hlen, List.length_take, ← List.take_take, List.take_length]

/-- The span of the name of a mark takes the mark. -/
theorem takes_mark (h : a.Stands source) (ho : Opening.ofText? a.rest = some (.mark m)) :
    (Span.between a.pos (a.advance m.text.length).pos).Takes source a.pos.offset (a.advance m.text.length).pos.offset ∧
      source.between a.pos.offset (a.advance m.text.length).pos.offset = m.text := by
  obtain ⟨r, hrest⟩ := text_of_ofText? ho
  have htake : a.rest.take m.text.length = m.text := by rw [hrest, Opening.text, List.take_left]
  have hstop := h.advance m.text.length
  have hlen := offset_of_stands hstop
  have hpos := opening_text_pos (.mark m)
  refine ⟨⟨offsetOf?_stands h, offsetOf?_stands hstop, ?_, by omega⟩, by rw [between_advance h, htake]⟩
  rw [Cursor.advance, Position.offset_after, htake]
  exact Nat.lt_add_of_pos_right hpos

end Items

/-! ## Every row is faithful -/

section Rows

variable {source : Text} {parent : Option Form} {row : List Form}

/-- The row stands in the source: its forms do, if they are the items of no form, and otherwise the form does. -/
def RowStands (source : Text) : Option Form → List Form → Prop
  | none, row => ∃ c, Reads (.start source) row c
  | some p, row => ∃ s span a b, p = .compound s row span ∧ Placed source p a b

theorem placed_of_row (h : RowStands source parent row) {s : Shape} {items : List Form} {span : Option Span}
    (hf : .compound s items span ∈ row) : ∃ a b, Placed source (.compound s items span) a b := by
  cases parent with
  | none =>
    obtain ⟨c, hr⟩ := h
    obtain ⟨a, b, hp, -⟩ := placed_of_mem hr (stands_start source) hf
    exact ⟨a, b, hp⟩
  | some p =>
    obtain ⟨s', span', a, b, rfl, hp⟩ := h
    obtain ⟨-, hin⟩ := placed_compound hp
    cases hin with
    | bracket ho hr hle =>
      obtain ⟨a', b', hp', -⟩ := placed_of_mem hr (hp.stands.advance 1) hf
      exact ⟨a', b', hp'⟩
    | mark hs ho hr hrow =>
      rw [hrow, List.mem_cons, List.mem_reverse] at hf
      obtain ⟨a', b', hp', -⟩ := placed_of_mem hr (hp.stands.advance _) (hf.resolve_left nofun)
      exact ⟨a', b', hp'⟩

/-- One step down keeps it, so every row of forms that stand in the source stands there. -/
theorem rowStands_of_siblings {fs : List Form} {c : Cursor} (hr : Reads (.start source) fs c)
    (h : Siblings fs parent row) : RowStands source parent row := by
  induction h with
  | top => exact ⟨c, hr⟩
  | items _ hf ih =>
    obtain ⟨a, b, hp⟩ := placed_of_row ih hf
    exact ⟨_, _, a, b, rfl, hp⟩

theorem faithful_top {c : Cursor} (hr : Reads (.start source) row c) : Faithful source none row where
  located s items span hf := by
    have hrow : RowStands source none row := ⟨c, hr⟩
    obtain ⟨a, b, hp⟩ := placed_of_row hrow hf
    exact (placed_compound hp).1
  head := by
    rintro m ⟨items, span, s, hp, -⟩
    cases hp
  reread i f span hi hs _ := by
    obtain ⟨s, e, ht, hread, -⟩ := takes_of_mem hr (stands_start source) (List.mem_of_getElem? hi) hs
    exact ⟨s, e, ht, hread⟩
  inside := by
    rintro p outer f span hp
    cases hp
  apart := pairwise_apart hr (stands_start source)

theorem faithful_bracket {s : Shape} {span : Option Span} {a b c : Cursor}
    (hp : Placed source (.compound s row span) a b) (ho : Opening.ofText? a.rest = some (.bracket s))
    (hr : Reads (a.advance 1) row c) (hle : c.pos.offset ≤ b.pos.offset) :
    Faithful source (some (.compound s row span)) row where
  located s' items span' hf := by
    have hst : RowStands source (some (.compound s row span)) row := ⟨_, _, a, b, rfl, hp⟩
    obtain ⟨a', b', hp'⟩ := placed_of_row hst hf
    exact (placed_compound hp').1
  head m hm := by
    obtain ⟨-, hm⟩ := (writtenWith_iff hp).1 hm
    cases ho.symm.trans hm
  reread i f span hi hs _ := by
    obtain ⟨s, e, ht, hread, -⟩ := takes_of_mem hr (hp.stands.advance 1) (List.mem_of_getElem? hi) hs
    exact ⟨s, e, ht, hread⟩
  inside := by
    intro p outer f span' hpar houter hf hs
    cases hpar
    obtain ⟨s', e', ht, -, hlo, hhi⟩ := takes_of_mem hr (hp.stands.advance 1) hf hs
    have hfirst : a.pos.offset ≤ (a.advance 1).pos.offset := (reaches_advance (Position.Reaches.refl _) 1).offset
    exact ⟨_, _, s', e', hp.takes houter, ht, Nat.le_trans hfirst hlo, Nat.le_trans hhi hle⟩
  apart := pairwise_apart hr (hp.stands.advance 1)

theorem faithful_mark {span : Option Span} {a b : Cursor} {m : Mark} {gs : List Form}
    (hp : Placed source (.compound .list row span) a b) (ho : Opening.ofText? a.rest = some (.mark m))
    (hr : Reads (a.advance m.text.length) gs b)
    (hrow : row = .symbol m.head (.between a.pos (a.advance m.text.length).pos) :: gs.reverse) :
    Faithful source (some (.compound .list row span)) row where
  located s items span' hf := by
    have hst : RowStands source (some (.compound .list row span)) row := ⟨_, _, a, b, rfl, hp⟩
    obtain ⟨a', b', hp'⟩ := placed_of_row hst hf
    exact (placed_compound hp').1
  head m' hm := by
    obtain ⟨-, hm⟩ := (writtenWith_iff hp).1 hm
    cases ho.symm.trans hm
    obtain ⟨ht, htext⟩ := takes_mark hp.stands ho
    exact ⟨_, _, _, _, hrow, ht, htext⟩
  reread i f span hi hs hmark := by
    cases i with
    | zero => exact absurd ((writtenWith_iff hp).2 ⟨rfl, ho⟩) (hmark rfl m)
    | succ i =>
      rw [hrow, List.getElem?_cons_succ] at hi
      have hf : f ∈ gs := List.mem_reverse.1 (List.mem_of_getElem? hi)
      obtain ⟨s, e, ht, hread, -⟩ := takes_of_mem hr (hp.stands.advance _) hf hs
      exact ⟨s, e, ht, hread⟩
  inside := by
    intro p outer f span' hpar houter hf hs
    cases hpar
    have hfirst : a.pos.offset ≤ (a.advance m.text.length).pos.offset :=
      (reaches_advance (Position.Reaches.refl _) _).offset
    rw [hrow, List.mem_cons, List.mem_reverse] at hf
    rcases hf with rfl | hf
    · cases hs
      exact ⟨_, _, _, _, hp.takes houter, (takes_mark hp.stands ho).1, Nat.le_refl _, offset_le_of_reads hr⟩
    · obtain ⟨s', e', ht, -, hlo, hhi⟩ := takes_of_mem hr (hp.stands.advance _) hf hs
      exact ⟨_, _, s', e', hp.takes houter, ht, Nat.le_trans hfirst hlo, hhi⟩
  apart := by
    rw [hrow]
    refine .cons (fun g hg => ?_) ?_
    · intro span span' hs hs'
      cases hs
      obtain ⟨s', e', ht, -, hlo, -⟩ := takes_of_mem hr (hp.stands.advance _) (List.mem_reverse.1 hg) hs'
      exact ⟨_, _, s', e', (takes_mark hp.stands ho).1, ht, .inl hlo⟩
    · exact List.pairwise_reverse.2 ((pairwise_apart hr (hp.stands.advance _)).imp Apart.symm)

/-- **The spans of the forms that are read are faithful**, in every row of forms at every depth. -/
theorem read_spans (source filename : Text) (fs : List Form) (h : read source filename = .ok fs)
    (parent : Option Form) (row : List Form) (hrow : Siblings fs parent row) : Faithful source parent row := by
  obtain ⟨c, hr, -⟩ := read_eq_ok_iff.1 h
  have hst := rowStands_of_siblings hr hrow
  cases parent with
  | none =>
    obtain ⟨c', hr'⟩ := hst
    exact faithful_top hr'
  | some p =>
    obtain ⟨s, span, a, b, rfl, hp⟩ := hst
    obtain ⟨-, hin⟩ := placed_compound hp
    cases hin with
    | bracket ho hr' hle => exact faithful_bracket hp ho hr' hle
    | mark hs ho hr' hitems =>
      subst hs
      exact faithful_mark hp ho hr' hitems

/-- A quoted list over two lines: the row of the mark's name and the list. -/
theorem read_spans_quoted :
    let inner : Form := .compound .list [.symbol "a" ⟨1, 2, 1, 3⟩, .int 1] (some ⟨1, 1, 2, 2⟩)
    let row : List Form := [.symbol "quote" ⟨1, 0, 1, 1⟩, inner]
    let outer : Form := .compound .list row (some ⟨1, 0, 2, 2⟩)
    read "'(a\n1)" = .ok [outer] ∧ Siblings [outer] (some outer) row ∧ Faithful "'(a\n1)" (some outer) row := by
  intro inner row outer
  have hread : read "'(a\n1)" = .ok [outer] :=
    read_eq_ok_iff.2 ⟨⟨⟨6, 2, 2⟩, []⟩, .mark (m := .quote) (by decide)
      (.bracket (s := .list) (by decide) (.scalar (x := .symbol "a") (n := 1) (by decide)
        (.scalar (x := .int 1) (n := 1) (by decide) (.nil _))) (by decide) (.nil _)) rfl (.nil _), rfl⟩
  have hrow : Siblings [outer] (some outer) row := .items .top List.mem_cons_self
  exact ⟨hread, hrow, read_spans _ _ _ hread _ _ hrow⟩

end Rows

end MalForms
