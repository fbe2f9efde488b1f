import MalForms.Proofs.Form.Comparison
import MalForms.Proofs.Layout
import MalForms.Proofs.Settings.Entries

/-!
# Settings on disk

Settings can be written as a map with an entry for each of them (`toForm`), on one line or laid out over several.

* `load_written`: a file with this text is loaded as the same settings, if no surrogate is in their texts.
* `load_nested`: whatever room there is on the host, there is a file with a map too deep for it.

Proof: what is written for a map has neither carriage returns nor surrogates, so it comes back from the file as it is
(`textOf_encode`), and it is read as the map, places aside (`read_arrange`). Places do not matter for data
(`ofForm_erase`), and the entries of the map give back what was written (`ofEntries_toEntries`).
-/

namespace MalForms

open Lexeme

/-! ## Texts on disk -/

section Text

variable {P : CodePoint → Prop} {t : Text}

/-- A text without surrogates and carriage returns is the text of its own bytes. -/
theorem textOf_encode (hs : ∀ c ∈ t, c.isSurrogate = false) (hr : CodePoint.ofChar '\r' ∉ t) :
    Disk.textOf (Utf8.encode t) = .ok t := by
  rw [Disk.textOf, Utf8.decode_encode hs, Except.map, Text.unifyLineEnds_eq_self hr]

/-- On one line, a text keeps all code points but line feeds and spaces. -/
theorem forall_mem_of_oneLine (hn : P '\n') (hs : P ' ') (h : ∀ c ∈ t.oneLine, P c) : ∀ c ∈ t, P c := by
  fun_induction Text.oneLine t with
  | case1 => exact fun c hc => absurd hc List.not_mem_nil
  | case2 t ih =>
    have hrest := ih (List.forall_mem_cons.1 h).2
    refine List.forall_mem_cons.2 ⟨hn, fun c hc => ?_⟩
    -- only spaces are left out after the line feed
    rw [← List.takeWhile_append_dropWhile (p := (· = CodePoint.ofChar ' ')) (l := t), List.mem_append] at hc
    rcases hc with hc | hc
    · have hspace := List.mem_takeWhile_imp hc
      rw [of_decide_eq_true hspace]
      exact hs
    · exact hrest c hc
  | case3 c t _ ih =>
    rw [List.forall_mem_cons] at h
    exact List.forall_mem_cons.2 ⟨h.1, ih h.2⟩

variable {f : Form} (indent : Int) (pretty : Bool)

/-- A layout is written with line feeds, spaces and what the form is written with on one line. -/
theorem forall_mem_arrange (hf : f.isReadable = true) (hn : P '\n') (hs : P ' ') (h : ∀ c ∈ f.render true, P c) :
    ∀ c ∈ f.arrange indent pretty, P c := by
  have hflat := (flattens_arrange hf indent pretty).oneLine []
  rw [List.append_nil, Text.oneLine, List.append_nil] at hflat
  apply forall_mem_of_oneLine hn hs
  rwa [hflat]

/-- The layout of a readable form comes back from the disk, if it is written without surrogates. -/
theorem textOf_arrange (hf : f.isReadable = true) (h : ∀ c ∈ f.render true, c.isSurrogate = false) :
    Disk.textOf (Utf8.encode (f.arrange indent pretty)) = .ok (f.arrange indent pretty) := by
  have hreturns : ∀ c ∈ f.render true, c ≠ '\r' := by
    rintro c hc rfl
    exact absurd ((inline_render hf).lineEnd _ hc) (by decide)
  refine textOf_encode (forall_mem_arrange indent pretty hf (by decide) (by decide) h) fun hr => ?_
  exact forall_mem_arrange indent pretty hf (by decide) (by decide) hreturns _ hr rfl

/-- The layout of a readable form is read as one form, the same but for its places. -/
theorem read_arrange (hf : f.isReadable = true) (filename : Text) :
    ∃ g, read (f.arrange indent pretty) filename = .ok [g] ∧ g.erase = f.erase := by
  have hrow : Row Spells (f.arrange indent pretty) [f] := by
    have hone := Row.cons (spells_arrange hf indent pretty) Spaced.nil
    rwa [List.append_nil] at hone
  obtain ⟨gs, hread, hsame⟩ := readsAs_iff.1 (readsAs_row hrow)
  rw [Form.sameAll_iff, Form.eraseAll_eq_map, Form.eraseAll_eq_map, List.map_singleton,
    List.map_eq_singleton_iff] at hsame
  obtain ⟨g, rfl, hg⟩ := hsame
  exact ⟨g, read_eq_ok_iff.2 (read_eq_ok_iff.1 hread), hg⟩

end Text

/-! ## Data without places -/

namespace Datum

variable {room : Nat} {items : List Form}

theorem ofForms_erase (h : ∀ f ∈ items, ∀ d, ofForm room f.erase = .ok d ↔ ofForm room f = .ok d)
    (ds : List Datum) : ofForms room (items.map Form.erase) = .ok ds ↔ ofForms room items = .ok ds := by
  induction items generalizing ds with
  | nil => rfl
  | cons f fs ih =>
    rw [List.forall_mem_cons] at h
    simp only [List.map_cons, ofForms_cons, bind_eq_ok, map_eq_ok, h.1, ih h.2]

theorem entriesOf_erase (h : ∀ f ∈ items, ∀ d, ofForm room f.erase = .ok d ↔ ofForm room f = .ok d)
    (entries es : List (Atom × Datum)) :
    entriesOf room entries (items.map Form.erase) = .ok es ↔ entriesOf room entries items = .ok es := by
  induction items using Form.inTwos.induct generalizing entries with
  | case1 k v rest ih =>
    rw [List.forall_mem_cons, List.forall_mem_cons] at h
    simp only [List.map_cons, entriesOf_cons, bind_eq_ok, h.1, h.2.1, ih h.2.2]
  | case2 items hshort =>
    rcases items with _ | ⟨k, _ | ⟨v, rest⟩⟩
    · rfl
    · rfl
    · exact absurd rfl (hshort k v rest)

/-- **The datum of a form does not depend on places.** -/
theorem ofForm_erase (f : Form) (d : Datum) : ofForm room f.erase = .ok d ↔ ofForm room f = .ok d := by
  induction f using Form.items_induction generalizing room d with
  | compound s items span ih =>
    rw [Form.erase, Form.eraseAll_eq_map]
    rcases room with _ | _ | room
    · rfl
    · rfl
    by_cases hs : s = .map
    · subst hs
      rcases room with _ | room
      · rfl
      by_cases heven : items.length % 2 = 0
      · have heven' : (items.map Form.erase).length % 2 = 0 := by rwa [List.length_map]
        simp only [ofForm_map heven, ofForm_map heven', map_eq_ok, entriesOf_erase fun f hf d => ih f hf d]
      · have hodd : ¬(items.map Form.erase).length % 2 = 0 := by rwa [List.length_map]
        simp [ofForm_oddMap heven, ofForm_oddMap hodd]
    · simp only [ofForm_row hs, map_eq_ok, ofForms_erase fun f hf d => ih f hf d]
  | _ => rcases room with _ | _ | room <;> rfl

end Datum

/-! ## Settings as a map -/

namespace Settings

/-- The settings as a map with an entry for each of them. -/
def toForm (s : Settings) : Form :=
  .compound .map [
    .keyword "prompt" {}, .str s.prompt,
    .keyword "continuation-prompt" {}, .str s.continuationPrompt,
    .keyword "history-file" {}, s.historyFile.elim .nil .str,
    .keyword "pretty" {}, .bool s.pretty,
    .keyword "log-level" {}, .str s.logLevel.name] none

/-- No text of the settings has a surrogate. -/
structure Storable (s : Settings) : Prop where
  prompt : ∀ c ∈ s.prompt, c.isSurrogate = false
  continuationPrompt : ∀ c ∈ s.continuationPrompt, c.isSurrogate = false
  historyFile : ∀ t ∈ s.historyFile, ∀ c ∈ t, c.isSurrogate = false

variable {s : Settings}

theorem isReadable_toForm (s : Settings) : s.toForm.isReadable = true := by
  obtain ⟨prompt, cont, _ | history, pretty, level, path⟩ := s <;> rfl

theorem surrogate_render_str {t : Text} (h : ∀ c ∈ t, c.isSurrogate = false) :
    ∀ c ∈ (Form.str t).render true, c.isSurrogate = false := by
  refine List.forall_mem_cons.2 ⟨by decide, List.forall_mem_append.2 ⟨fun c hc => ?_, by decide⟩⟩
  obtain ⟨-, -, hmem | hascii⟩ := mem_encode hc
  · exact h c hmem
  · rw [CodePoint.isSurrogate, Bool.and_eq_false_iff, decide_eq_false_iff_not]
    exact .inl (by omega)

theorem surrogate_render_toForm (h : s.Storable) : ∀ c ∈ s.toForm.render true, c.isSurrogate = false := by
  have hhistory : ∀ c ∈ (s.historyFile.elim Form.nil Form.str).render true, c.isSurrogate = false := by
    cases hfile : s.historyFile with
    | none => decide
    | some t => exact surrogate_render_str (h.historyFile t hfile)
  have hpretty : ∀ c ∈ (Form.bool s.pretty).render true, c.isSurrogate = false := by cases s.pretty <;> decide
  have hlevel : ∀ c ∈ s.logLevel.name, c.isSurrogate = false := by cases s.logLevel <;> decide
  rw [toForm, Form.render_compound]
  refine List.forall_mem_cons.2 ⟨by decide, List.forall_mem_append.2 ⟨?_, by decide⟩⟩
  refine Form.forall_mem_renderItems (by decide) ?_
  simp only [List.forall_mem_cons]
  exact ⟨by decide, surrogate_render_str h.prompt, by decide, surrogate_render_str h.continuationPrompt, by decide,
    hhistory, by decide, hpretty, by decide, surrogate_render_str hlevel, by simp⟩

/-- The dictionary of the map. -/
def toEntries (s : Settings) : List (Datum.Atom × Datum) := [
  (.str "prompt", .atom (.str s.prompt)),
  (.str "continuation-prompt", .atom (.str s.continuationPrompt)),
  (.str "history-file", .atom (s.historyFile.elim .null .str)),
  (.str "pretty", .atom (.bool s.pretty)),
  (.str "log-level", .atom (.str s.logLevel.name))]

/-- On every host there is room for the map. -/
theorem ofForm_toForm (host : Host) (s : Settings) : Datum.ofForm host.calls s.toForm = .ok (.dict s.toEntries) := by
  refine Datum.ofForm_mono host.roomy ?_
  have hhistory : Datum.ofForm 2 (s.historyFile.elim .nil .str) = .ok (.atom (s.historyFile.elim .null .str)) := by
    cases s.historyFile <;> rfl
  rw [toForm, Datum.ofForm_map (by simp)]
  simp only [Datum.entriesOf, Datum.ofForm, hhistory]
  rfl

/-- The entries give the settings back. -/
theorem ofEntries_toEntries (s : Settings) (path : Text) :
    ofEntries s.toEntries path = .ok { s with path := some path } := by
  have hlevel : Log.Level.ofName? s.logLevel.name.lower = some s.logLevel := by cases s.logLevel <;> decide
  refine ofEntries_eq_ok.2 ⟨rfl, rfl, ?_, rfl, hlevel, rfl⟩
  obtain ⟨prompt, cont, _ | history, pretty, level, path⟩ := s <;> rfl

/-- A text that is read as the map, places aside, gives the settings. -/
theorem ofText_of_same {source path : Text} {g : Form} (hread : MalForms.read source path = .ok [g])
    (hg : g.erase = s.toForm.erase) (host : Host) : ofText host path source = .ok { s with path := some path } := by
  have hdata := ofForm_toForm host s
  rw [← Datum.ofForm_erase, ← hg, Datum.ofForm_erase] at hdata
  cases g with
  | compound shape items span =>
    simp only [toForm, Form.erase, Form.compound.injEq] at hg
    obtain ⟨rfl, -, -⟩ := hg
    simp only [ofText, hread, ofForms, hdata, ofEntries_toEntries]
  | _ => cases hg

/-- A file with the layout of a readable form is loaded as what is read there, the form but for its places. -/
theorem load_arrange {f : Form} (hf : f.isReadable = true) (hs : ∀ c ∈ f.render true, c.isSurrogate = false)
    {d : Disk} {path : Text} {indent : Int} {pretty : Bool}
    (hfile : d.file? path = some (Utf8.encode (f.arrange indent pretty))) (host : Host) :
    ∃ g, g.erase = f.erase ∧ MalForms.read (f.arrange indent pretty) path = .ok [g] ∧
      load host d (some path) = ofText host path (f.arrange indent pretty) := by
  obtain ⟨g, hread, hg⟩ := read_arrange indent pretty hf path
  refine ⟨g, hg, hread, ?_⟩
  rw [load, ofFile, Disk.text?, hfile, Option.map_some, textOf_arrange indent pretty hf hs]

/-- **Settings come back from the disk**: the map of settings, wherever its forms were read from, can be printed and laid
out, and on every host what is written so is loaded as the same settings. -/
theorem load_written (host : Host) (s : Settings) (hs : s.Storable) (d : Disk) (path : Text) (f : Form)
    (hf : f.same s.toForm = true) :
    (∃ t, f.print = .ok t) ∧ (∀ indent pretty, ∃ t, f.layout indent pretty = .ok t) ∧
    ∀ t, (f.print = .ok t ∨ ∃ indent pretty, f.layout indent pretty = .ok t) →
      d.file? path = some (Utf8.encode t) → load host d (some path) = .ok { s with path := some path } := by
  obtain ⟨hprint, hlayout⟩ := Form.texts_of_same hf
  have hreadable := isReadable_toForm s
  have hprintable := isPrintable_of_isReadable hreadable
  have hlaid (indent : Int) (pretty : Bool) : f.layout indent pretty = .ok (s.toForm.arrange indent pretty) := by
    rw [hlayout, Form.layout_of_isPrintable hprintable]
  have hline : f.print = .ok (s.toForm.arrange 0 false) := by
    rw [hprint, Form.print_of_isPrintable hprintable, Form.arrange, Form.flat_eq]
    rfl
  refine ⟨⟨_, hline⟩, fun indent pretty => ⟨_, hlaid indent pretty⟩, fun t ht hfile => ?_⟩
  have hwritten : ∃ indent pretty, t = s.toForm.arrange indent pretty := by
    rcases ht with ht | ⟨indent, pretty, ht⟩
    · exact ⟨0, false, Except.ok.inj (ht.symm.trans hline)⟩
    · exact ⟨indent, pretty, Except.ok.inj (ht.symm.trans (hlaid indent pretty))⟩
  obtain ⟨indent, pretty, rfl⟩ := hwritten
  obtain ⟨g, hg, hread, hload⟩ := load_arrange hreadable (surrogate_render_toForm hs) hfile host
  rw [hload]
  exact ofText_of_same hread hg host

/-- Settings with a prompt that ends a line both ways and looks like source text, and without a history. -/
def oddSettings : Settings where
  prompt := "\x22\\n\r\n\x7f\x7d:pretty nil; "
  continuationPrompt := []
  historyFile := none
  pretty := true
  logLevel := .critical

theorem load_written_odd : oddSettings.Storable ∧ ∃ line laid, oddSettings.toForm.print = .ok line ∧
    oddSettings.toForm.layout = .ok laid ∧
    load .utf8 (rcDisk line) (some "rc") = .ok { oddSettings with path := some "rc" } ∧
    load .utf8 (rcDisk laid) (some "rc") = .ok { oddSettings with path := some "rc" } := by
  have hs : oddSettings.Storable := ⟨by decide, by decide, nofun⟩
  have hsame : oddSettings.toForm.same oddSettings.toForm = true := (Form.same_iff _ _).2 rfl
  have hwritten (t : Text) := load_written .utf8 oddSettings hs (rcDisk t) "rc" oddSettings.toForm hsame
  obtain ⟨⟨line, hline⟩, hlaid, -⟩ := hwritten []
  obtain ⟨laid, hlaid⟩ := hlaid 0 true
  exact ⟨hs, line, laid, hline, hlaid, (hwritten line).2.2 line (.inl hline) rfl,
    (hwritten laid).2.2 laid (.inr ⟨0, true, hlaid⟩) rfl⟩

/-! ## Files that are too deep -/

/-- A map with one entry, which no setting has for a key, and in it an empty list in so many lists. -/
def deepMap (n : Nat) : Form := .compound .map [.keyword "a" {}, .nested n] none

theorem isReadable_nested (n : Nat) : (Form.nested n).isReadable = true := by
  induction n with
  | zero => rfl
  | succ n ih => simp [Form.nested, Form.isReadable, Form.areReadable, ih]

theorem surrogate_render_nested (n : Nat) : ∀ c ∈ (Form.nested n).render true, c.isSurrogate = false := by
  induction n with
  | zero => decide
  | succ n ih =>
    rw [Form.nested, Form.render_compound]
    refine List.forall_mem_cons.2 ⟨by decide, List.forall_mem_append.2 ⟨?_, by decide⟩⟩
    exact Form.forall_mem_renderItems (by decide) (by simpa using ih)

/-- There is no room for the map if there are as many lists as there is room for calls, whatever places they carry. -/
theorem ofForms_deepMap (host : Host) (path : Text) {g : Form} (hg : g.erase = (deepMap host.calls).erase) :
    ∃ call, ofForms host path [g] = .error (.tooDeep call) := by
  obtain ⟨items, span, rfl, hitems⟩ := Form.eq_compound_of_erase hg
  simp only [Form.eraseAll, Form.erase_nested, List.map_eq_cons_iff, List.map_eq_nil_iff] at hitems
  obtain ⟨k, _, rfl, hk, v, _, rfl, hv, rfl⟩ := hitems
  obtain ⟨inner, hinner⟩ := Nat.exists_eq_add_of_le' host.roomy
  obtain ⟨call, hcall⟩ := Datum.ofForm_nested (n := host.calls) (by omega : inner + 2 < _) hv
  have hkey : Datum.ofForm (inner + 2) k = .ok (.atom (.str "a")) := by
    cases k with
    | keyword name span =>
      cases hk
      rfl
    | _ => cases hk
  refine ⟨call, ?_⟩
  rw [ofForms, hinner, Datum.ofForm_map (by simp), Datum.entriesOf_cons, hkey, hcall]
  rfl

/-- **On every host there is a file that is too deep**: its text is read as a single map, but loading it gives neither
settings nor a fault of the file. -/
theorem load_nested (host : Host) : ∃ line, (deepMap host.calls).print = .ok line ∧
    (∃ items span, MalForms.read line "rc" = .ok [.compound .map items span]) ∧
    ∃ call, load host (rcDisk line) (some "rc") = .error (.tooDeep call) := by
  have hreadable : (deepMap host.calls).isReadable = true := by
    have hkey : (Form.keyword "a" {}).isReadable = true := by decide
    rw [deepMap, Form.isReadable, Form.areReadable, Form.areReadable, hkey, isReadable_nested]
    rfl
  have hsurrogate : ∀ c ∈ (deepMap host.calls).render true, c.isSurrogate = false := by
    rw [deepMap, Form.render_compound]
    refine List.forall_mem_cons.2 ⟨by decide, List.forall_mem_append.2 ⟨?_, by decide⟩⟩
    refine Form.forall_mem_renderItems (by decide) ?_
    simp only [List.forall_mem_cons]
    exact ⟨by decide, surrogate_render_nested host.calls, by simp⟩
  have hline : (deepMap host.calls).print = .ok ((deepMap host.calls).arrange 0 false) := by
    rw [Form.print_of_isPrintable (isPrintable_of_isReadable hreadable), Form.arrange, Form.flat_eq]
    rfl
  have hfile : (rcDisk ((deepMap host.calls).arrange 0 false)).file? "rc" =
      some (Utf8.encode ((deepMap host.calls).arrange 0 false)) := rfl
  obtain ⟨g, hg, hread, hload⟩ := load_arrange hreadable hsurrogate hfile host
  obtain ⟨call, hcall⟩ := ofForms_deepMap host "rc" hg
  obtain ⟨items, span, rfl, -⟩ := Form.eq_compound_of_erase hg
  refine ⟨_, hline, ⟨items, span, hread⟩, call, ?_⟩
  rw [hload, ofText, hread]
  exact hcall

/-- The file that is too deep with room for a thousand calls, less the few that are made before. -/
theorem load_nested_utf8 : ∃ line, (deepMap 996).print = .ok line ∧
    (∃ items span, MalForms.read line "rc" = .ok [.compound .map items span]) ∧
    ∃ call, load .utf8 (rcDisk line) (some "rc") = .error (.tooDeep call) :=
  load_nested .utf8

end Settings

end MalForms
