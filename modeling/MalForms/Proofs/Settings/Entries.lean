import MalForms.Disk.Tree
import MalForms.Proofs.Datum.Dictionary
import MalForms.Proofs.Reader.Reads
import MalForms.Proofs.Text.Utf8
import MalForms.Settings

/-!
# Settings by their entries

Of the map in a settings file only five values count, those of the last entries with the keys of the five settings
(`Given`). Each of them, if it is there, is read on its own (`setting`), and the settings of the file are those that
carry all five (`Carries`). But there has to be room for the map on the host: if there is none, loading gives neither
settings nor a fault of the file.

* `load_laws`: what comes of loading a file whose bytes are UTF-8.

Proof: what an entry gives is a matter of the value that the dictionary has for its key (`stringEntry_eq` and its
siblings), and that value is the one of the last entry with the key (`get?_eq_valueOf?`), because the dictionary gathers
all entries.
-/

namespace MalForms

/-! ## Values of the right type -/

namespace Datum

/-- The text of a string. -/
def text? : Datum → Option Text
  | atom (.str s) => some s
  | _ => none

def bool? : Datum → Option Bool
  | atom (.bool b) => some b
  | _ => none

/-- The text of a string, or none for nil. -/
def optionalText? : Datum → Option (Option Text)
  | atom .null => some none
  | atom (.str s) => some (some s)
  | _ => none

/-- The level whose name a string is in any case. -/
def level? (d : Datum) : Option Log.Level := d.text?.bind fun t => Log.Level.ofName? t.lower

/-- The value of the last entry in a map whose key is a text. -/
def valueOf? (room : Nat) (items : List Form) (key : Text) : Option Datum :=
  (Form.lastValue? (.str key) (Form.inTwos items)).bind fun v => (ofForm room v).toOption

theorem get?_eq_valueOf? {room : Nat} {items : List Form} {es : List (Atom × Datum)}
    (h : Gathers room (Form.inTwos items) es) (key : Text) : get? (.str key) es = valueOf? room items key := by
  have hvalue := h.value (.str key) (.str key) rfl
  rw [valueOf?]
  cases hlast : Form.lastValue? (.str key) (Form.inTwos items) with
  | none =>
    rw [hlast, Option.map_none] at hvalue
    exact Option.map_eq_none_iff.1 hvalue.symm
  | some v =>
    rw [hlast, Option.map_some] at hvalue
    obtain ⟨d, hd, hv⟩ := Option.map_eq_some_iff.1 hvalue.symm
    rw [hd, Option.bind_some, ← hv]
    rfl

theorem text?_eq_some {d : Datum} {t : Text} : d.text? = some t ↔ d = .atom (.str t) := by
  unfold text?
  split <;> simp_all

theorem bool?_eq_some {d : Datum} {b : Bool} : d.bool? = some b ↔ d = .atom (.bool b) := by
  unfold bool?
  split
  · simp
  · rename_i hne
    exact iff_of_false nofun (hne b)

theorem optionalText?_isSome {d : Datum} :
    (∃ t, d.optionalText? = some t) ↔ d = .atom .null ∨ ∃ t, d = .atom (.str t) := by
  unfold optionalText?
  split <;> simp_all

end Datum

theorem Log.Level.ofName?_eq_some {t : Text} {l : Log.Level} : Log.Level.ofName? t = some l ↔ t = l.name := by
  constructor
  · intro h
    have hname := List.find?_some h
    exact (of_decide_eq_true hname).symm
  · rintro rfl
    cases l <;> decide

namespace Settings

open Datum (text? bool? optionalText? level? valueOf?)

/-! ## Entries -/

section Entries

variable {α : Type} {entries : List (Datum.Atom × Datum)} {path : Text} {s : Settings}

/-- The setting that a value gives, if it has the right type; without a value it is the default. -/
def setting (read : Datum → Option α) (default : α) : Option Datum → Option α
  | none => some default
  | some d => read d

/-- A value checked for its type: the setting it gives, or a fault. -/
def checked (read : Datum → Option α) (default : α) (fault : Datum → Fault) : Option Datum → Except Fault α
  | none => .ok default
  | some d =>
    match read d with
    | some a => .ok a
    | none => .error (fault d)

theorem stringEntry_eq (key default : Text) : stringEntry entries key default =
    checked text? default (.wrongType key "string") (Datum.get? (.str key) entries) := by
  unfold stringEntry checked text?
  split <;> simp_all

theorem boolEntry_eq (key : Text) (default : Bool) : boolEntry entries key default =
    checked bool? default (.wrongType key "boolean") (Datum.get? (.str key) entries) := by
  unfold boolEntry checked bool?
  split <;> simp_all

theorem optionalEntry_eq (key : Text) (default : Option Text) : optionalEntry entries key default =
    checked optionalText? default (.wrongType key "string or nil") (Datum.get? (.str key) entries) := by
  unfold optionalEntry checked optionalText?
  split <;> simp_all

theorem checked_eq_ok (read : Datum → Option α) (default a : α) (fault : Datum → Fault) (v : Option Datum) :
    checked read default fault v = .ok a ↔ setting read default v = some a := by
  unfold checked setting
  cases v with
  | none => simp
  | some d => cases h : read d <;> simp [h]

theorem levelNamed_eq_ok (name : Text) (l : Log.Level) :
    levelNamed name = .ok l ↔ Log.Level.ofName? name.lower = some l := by
  unfold levelNamed
  split <;> simp_all

/-- The level is read from a name, and the default level from its own name. -/
theorem setting_level (v : Option Datum) (l : Log.Level) : setting level? ({} : Settings).logLevel v = some l ↔
    ∃ t, setting text? ({} : Settings).logLevel.name v = some t ∧ Log.Level.ofName? t.lower = some l := by
  cases v with
  | none =>
    have hdefault : Log.Level.ofName? ({} : Settings).logLevel.name.lower = some ({} : Settings).logLevel := by decide
    simp [setting, hdefault]
  | some d => simp [setting, level?, Option.bind_eq_some_iff]

/-- The values that count, each if it is there. -/
structure Given where
  prompt : Option Datum
  continuationPrompt : Option Datum
  historyFile : Option Datum
  pretty : Option Datum
  logLevel : Option Datum

/-- The values that count, by their keys. -/
def Given.ofValues (value : Text → Option Datum) : Given where
  prompt := value "prompt"
  continuationPrompt := value "continuation-prompt"
  historyFile := value "history-file"
  pretty := value "pretty"
  logLevel := value "log-level"

/-- The settings of a file carry the values given: each of them has its type, and what is not given is the default. -/
structure Carries (path : Text) (g : Given) (s : Settings) : Prop where
  prompt : setting text? ({} : Settings).prompt g.prompt = some s.prompt
  continuationPrompt : setting text? ({} : Settings).continuationPrompt g.continuationPrompt = some s.continuationPrompt
  historyFile : setting optionalText? ({} : Settings).historyFile g.historyFile = some s.historyFile
  pretty : setting bool? ({} : Settings).pretty g.pretty = some s.pretty
  logLevel : setting level? ({} : Settings).logLevel g.logLevel = some s.logLevel
  path : s.path = some path

/-- **The settings of entries are those that carry their values.** -/
theorem ofEntries_eq_ok : ofEntries entries path = .ok s ↔
    Carries path (.ofValues fun key => Datum.get? (.str key) entries) s := by
  simp only [ofEntries, stringEntry_eq, boolEntry_eq, optionalEntry_eq, bind_eq_ok, checked_eq_ok, levelNamed_eq_ok]
  constructor
  · rintro ⟨prompt, hprompt, cont, hcont, pretty, hpretty, name, hname, history, hhistory, level, hlevel, ⟨rfl⟩⟩
    exact ⟨hprompt, hcont, hhistory, hpretty, (setting_level _ _).2 ⟨name, hname, hlevel⟩, rfl⟩
  · rintro ⟨hprompt, hcont, hhistory, hpretty, hlevel, hpath⟩
    obtain ⟨name, hname, hlevel⟩ := (setting_level _ _).1 hlevel
    obtain ⟨prompt, cont, history, pretty, level, _⟩ := s
    cases hpath
    exact ⟨prompt, hprompt, cont, hcont, pretty, hpretty, name, hname, history, hhistory, level, hlevel, rfl⟩

/-- Entries with the same values that count have the same outcome, the fault included. -/
theorem ofEntries_congr {entries' : List (Datum.Atom × Datum)}
    (h : Given.ofValues (fun key => Datum.get? (.str key) entries) =
      .ofValues fun key => Datum.get? (.str key) entries') (path : Text) :
    ofEntries entries path = ofEntries entries' path := by
  have hprompt := congrArg Given.prompt h
  have hcont := congrArg Given.continuationPrompt h
  have hhistory := congrArg Given.historyFile h
  have hpretty := congrArg Given.pretty h
  have hlevel := congrArg Given.logLevel h
  simp only [Given.ofValues] at hprompt hcont hhistory hpretty hlevel
  simp only [ofEntries, stringEntry_eq, boolEntry_eq, optionalEntry_eq, hprompt, hcont, hhistory, hpretty, hlevel]

/-- Each value that is given has the type of its setting. -/
structure Given.WellTyped (g : Given) : Prop where
  prompt : ∀ d ∈ g.prompt, ∃ t, d = .atom (.str t)
  continuationPrompt : ∀ d ∈ g.continuationPrompt, ∃ t, d = .atom (.str t)
  historyFile : ∀ d ∈ g.historyFile, d = .atom .null ∨ ∃ t, d = .atom (.str t)
  pretty : ∀ d ∈ g.pretty, ∃ b, d = .atom (.bool b)
  logLevel : ∀ d ∈ g.logLevel, ∃ t, d = .atom (.str t) ∧ t.lower ∈ Log.Level.all.map Log.Level.name

theorem exists_setting_iff (read : Datum → Option α) (default : α) (v : Option Datum) :
    (∃ a, setting read default v = some a) ↔ ∀ d ∈ v, ∃ a, read d = some a := by
  cases v <;> simp [setting]

theorem exists_level?_iff (d : Datum) : (∃ l, d.level? = some l) ↔
    ∃ t, d = .atom (.str t) ∧ t.lower ∈ Log.Level.all.map Log.Level.name := by
  have hall (l : Log.Level) : l ∈ Log.Level.all := by cases l <;> decide
  simp only [level?, Option.bind_eq_some_iff, Datum.text?_eq_some, Log.Level.ofName?_eq_some, List.mem_map]
  constructor
  · rintro ⟨l, t, rfl, hl⟩
    exact ⟨t, rfl, l, hall l, hl.symm⟩
  · rintro ⟨t, rfl, l, -, hl⟩
    exact ⟨l, t, rfl, hl.symm⟩

/-- Settings that carry the values given exist if and only if each of the values has its type. -/
theorem exists_carries_iff (path : Text) (g : Given) : (∃ s, Carries path g s) ↔ g.WellTyped := by
  have htext (default : Text) (v : Option Datum) :
      (∃ t, setting text? default v = some t) ↔ ∀ d ∈ v, ∃ t, d = .atom (.str t) := by
    simp only [exists_setting_iff, Datum.text?_eq_some]
  constructor
  · rintro ⟨s, h⟩
    refine ⟨(htext _ _).1 ⟨_, h.prompt⟩, (htext _ _).1 ⟨_, h.continuationPrompt⟩, fun d hd => ?_, fun d hd => ?_,
      fun d hd => ?_⟩
    · exact Datum.optionalText?_isSome.1 ((exists_setting_iff _ _ _).1 ⟨_, h.historyFile⟩ d hd)
    · simpa only [Datum.bool?_eq_some] using (exists_setting_iff _ _ _).1 ⟨_, h.pretty⟩ d hd
    · exact (exists_level?_iff d).1 ((exists_setting_iff _ _ _).1 ⟨_, h.logLevel⟩ d hd)
  · intro h
    obtain ⟨prompt, hprompt⟩ := (htext ({} : Settings).prompt _).2 h.prompt
    obtain ⟨cont, hcont⟩ := (htext ({} : Settings).continuationPrompt _).2 h.continuationPrompt
    obtain ⟨history, hhistory⟩ := (exists_setting_iff optionalText? ({} : Settings).historyFile _).2
      fun d hd => Datum.optionalText?_isSome.2 (h.historyFile d hd)
    obtain ⟨pretty, hpretty⟩ := (exists_setting_iff bool? ({} : Settings).pretty _).2
      fun d hd => by simpa only [Datum.bool?_eq_some] using h.pretty d hd
    obtain ⟨level, hlevel⟩ := (exists_setting_iff level? ({} : Settings).logLevel _).2
      fun d hd => (exists_level?_iff d).2 (h.logLevel d hd)
    exact ⟨⟨prompt, cont, history, pretty, level, some path⟩, hprompt, hcont, hhistory, hpretty, hlevel, rfl⟩

end Entries

/-! ## Faults of the content -/

section Faults

variable {α β : Type} {r : Except Fault α}

/-- Whether a fault is one of what stands in the file, and not that there is none, that its bytes are no text, or that
there is no room. -/
def Fault.ofContent : Fault → Bool
  | missing _ | undecodable _ | tooDeep _ => false
  | _ => true

/-- A step with no faults but those of the content. -/
def FaultsOfContent (r : Except Fault α) : Prop := (∃ a, r = .ok a) ∨ ∃ f, r = .error f ∧ f.ofContent = true

theorem FaultsOfContent.bind {k : α → Except Fault β} (h : FaultsOfContent r) (hk : ∀ a, FaultsOfContent (k a)) :
    FaultsOfContent (r >>= k) := by
  rcases h with ⟨a, rfl⟩ | ⟨f, rfl, hf⟩
  · exact hk a
  · exact .inr ⟨f, rfl, hf⟩

theorem faults_checked (read : Datum → Option α) (default : α) {fault : Datum → Fault}
    (h : ∀ d, (fault d).ofContent = true) (v : Option Datum) : FaultsOfContent (checked read default fault v) := by
  unfold checked
  split
  · exact .inl ⟨_, rfl⟩
  · split
    · exact .inl ⟨_, rfl⟩
    · exact .inr ⟨_, rfl, h _⟩

theorem faults_levelNamed (name : Text) : FaultsOfContent (levelNamed name) := by
  unfold levelNamed
  split
  · exact .inl ⟨_, rfl⟩
  · exact .inr ⟨_, rfl, rfl⟩

theorem faults_ofEntries (entries : List (Datum.Atom × Datum)) (path : Text) :
    FaultsOfContent (ofEntries entries path) := by
  have hentry {γ : Type} (read : Datum → Option γ) (default : γ) (key wanted : Text) (v : Option Datum) :
      FaultsOfContent (checked read default (.wrongType key wanted) v) := faults_checked read default (fun _ => rfl) v
  simp only [ofEntries, stringEntry_eq, boolEntry_eq, optionalEntry_eq]
  refine (hentry ..).bind fun _ => (hentry ..).bind fun _ => (hentry ..).bind fun _ => ?_
  refine (hentry ..).bind fun _ => (hentry ..).bind fun _ => (faults_levelNamed _).bind fun _ => ?_
  exact .inl ⟨_, rfl⟩

/-- The forms are a single map for which there is no room. -/
def NoRoom (host : Host) (fs : List Form) (call : Datum.Call) : Prop :=
  ∃ items span, fs = [.compound .map items span] ∧
    Datum.ofForm host.calls (.compound .map items span) = .error (.tooDeep call)

/-- Forms have settings, or a fault of the content, or there is no room for them. -/
theorem faults_ofForms (host : Host) (path : Text) (fs : List Form) :
    FaultsOfContent (ofForms host path fs) ∨ ∃ call, ofForms host path fs = .error (.tooDeep call) ∧
      NoRoom host fs call := by
  unfold ofForms
  split
  · exact .inl (.inl ⟨_, rfl⟩)
  · rename_i items span
    split
    · exact .inl (faults_ofEntries _ path)
    · exact .inl (.inr ⟨_, rfl, rfl⟩)
    · rename_i call hdeep
      exact .inr ⟨call, rfl, items, span, rfl, hdeep⟩
    · exact .inl (.inr ⟨_, rfl, rfl⟩)
  · exact .inl (.inr ⟨_, rfl, rfl⟩)

theorem faults_ofText (host : Host) (path source : Text) :
    FaultsOfContent (ofText host path source) ∨ ∃ fs call, MalForms.read source path = .ok fs ∧
      ofText host path source = .error (.tooDeep call) ∧ NoRoom host fs call := by
  unfold ofText
  split
  · exact .inl (.inr ⟨_, rfl, rfl⟩)
  · rename_i fs hread
    rcases faults_ofForms host path fs with h | ⟨call, hcall, hroom⟩
    · exact .inl h
    · exact .inr ⟨fs, call, hread, hcall, hroom⟩

theorem FaultsOfContent.ne_tooDeep (h : FaultsOfContent r) (call : Datum.Call) : r ≠ .error (.tooDeep call) := by
  rintro rfl
  rcases h with ⟨a, ha⟩ | ⟨f, hf, hcontent⟩
  · cases ha
  · cases hf
    cases hcontent

end Faults

/-! ## Loading -/

section Loading

variable {host : Host} {d : Disk} {path source raw : Text} {bytes : List UInt8} {items : List Form}

/-- The text is read as a single map, which is data. -/
def HoldsMap (host : Host) (path source : Text) (items : List Form) : Prop :=
  ∃ span datum, MalForms.read source path = .ok [.compound .map items span] ∧
    Datum.ofForm host.calls (.compound .map items span) = .ok datum

theorem ofText_of_holdsMap (h : HoldsMap host path source items) :
    ∃ es, Datum.Gathers host.calls (Form.inTwos items) es ∧ ofText host path source = ofEntries es path := by
  obtain ⟨span, datum, hread, hdatum⟩ := h
  obtain ⟨es, rfl, hes⟩ := Datum.gathers_ofForm hdatum
  refine ⟨es, hes, ?_⟩
  simp only [ofText, hread, ofForms, hdatum]

theorem given_of_gathers {room : Nat} {es : List (Datum.Atom × Datum)} (h : Datum.Gathers room (Form.inTwos items) es) :
    Given.ofValues (fun key => Datum.get? (.str key) es) = .ofValues (valueOf? room items) := by
  rw [funext (Datum.get?_eq_valueOf? h)]

theorem load_of_file (hfile : d.file? path = some bytes) (hraw : Utf8.decode bytes = .ok raw) :
    load host d (some path) = ofText host path raw.unifyLineEnds := by
  simp [load, ofFile, Disk.text?, hfile, Disk.textOf, hraw, Except.map]

/-- What comes of a settings file with a text. -/
structure Loads (host : Host) (path source : Text) (result : Except Fault Settings) : Prop where
  /-- There are settings, or there is a fault in the text, or there is no room. -/
  outcome : (∃ s, result = .ok s) ∨ (∃ f, result = .error f ∧ f.ofContent = true) ∨
    ∃ call, result = .error (.tooDeep call)
  /-- There is no room if and only if the text is a single map whose conversion stops for want of room. -/
  cramped : ∀ call, result = .error (.tooDeep call) ↔ ∃ items span,
    MalForms.read source path = .ok [.compound .map items span] ∧
    (Datum.obstacles host.calls (.compound .map items span)).head? = some (.tooDeep call)
  /-- If there is room for all that is read, there are settings or there is a fault in the text, and nothing else. -/
  roomy : (∀ fs, MalForms.read source path = .ok fs → ∀ f ∈ fs, Datum.calls f ≤ host.calls) →
    (∃ s, result = .ok s) ∨ ∃ f, result = .error f ∧ f.ofContent = true
  /-- Without a form all settings are the defaults. -/
  empty : MalForms.read source path = .ok [] → result = .ok { path := some path }
  /-- For a map that is data the settings carry the values that count; they are there if these have their types, and
  there is a fault in the text if not. -/
  carried : ∀ items, HoldsMap host path source items →
    (∀ s, result = .ok s ↔ Carries path (.ofValues (valueOf? host.calls items)) s) ∧
    ((∃ s, result = .ok s) ↔ (Given.ofValues (valueOf? host.calls items)).WellTyped) ∧
    ((∃ f, result = .error f ∧ f.ofContent = true) ↔ ¬(Given.ofValues (valueOf? host.calls items)).WellTyped)
  /-- The level of the settings is known by its name. -/
  level : ∀ s, result = .ok s → Log.Level.ofName? s.logLevel.name = some s.logLevel ∧
    s.logLevel.number ∈ [10, 20, 30, 40, 50]

/-- There is no room for the map of a text if and only if want of room is the first obstacle in it. -/
theorem ofText_tooDeep_iff (host : Host) (path source : Text) (call : Datum.Call) :
    ofText host path source = .error (.tooDeep call) ↔ ∃ items span,
      MalForms.read source path = .ok [.compound .map items span] ∧
      (Datum.obstacles host.calls (.compound .map items span)).head? = some (.tooDeep call) := by
  constructor
  · intro h
    rcases faults_ofText host path source with hf | ⟨fs, call', hread, hdeep, items, span, rfl, hroom⟩
    · exact absurd h (hf.ne_tooDeep call)
    · cases h.symm.trans hdeep
      exact ⟨items, span, hread, (Datum.ofForm_tooDeep_iff _ _ call).1 hroom⟩
  · rintro ⟨items, span, hread, hhead⟩
    simp only [ofText, hread, ofForms, (Datum.ofForm_tooDeep_iff _ _ call).2 hhead]

theorem loads_ofText (host : Host) (path source : Text) : Loads host path source (ofText host path source) where
  outcome := by
    rcases faults_ofText host path source with (h | h) | ⟨_, call, -, hcall, -⟩
    · exact .inl h
    · exact .inr (.inl h)
    · exact .inr (.inr ⟨call, hcall⟩)
  cramped := ofText_tooDeep_iff host path source
  roomy h := by
    rcases faults_ofText host path source with hf | ⟨fs, call, hread, -, items, span, rfl, hroom⟩
    · exact hf
    · have hmem := List.mem_of_head? ((Datum.ofForm_tooDeep_iff _ _ call).1 hroom)
      have hlt := (Datum.cramped_iff _ host.calls).1 ⟨call, hmem⟩
      exact absurd (h _ hread _ (List.mem_singleton.2 rfl)) (Nat.not_le.2 hlt)
  empty h := by simp only [ofText, h, ofForms]
  carried items h := by
    obtain ⟨es, hes, htext⟩ := ofText_of_holdsMap h
    have hok (s : Settings) : ofText host path source = .ok s ↔
        Carries path (.ofValues (valueOf? host.calls items)) s := by
      rw [htext, ofEntries_eq_ok, given_of_gathers hes]
    have hsome : (∃ s, ofText host path source = .ok s) ↔ (Given.ofValues (valueOf? host.calls items)).WellTyped := by
      rw [← exists_carries_iff path]
      exact exists_congr hok
    refine ⟨hok, hsome, ?_⟩
    rw [← hsome, htext]
    rcases faults_ofEntries es path with ⟨s, hs⟩ | ⟨f, hf, hcontent⟩
    · simp [hs]
    · simp [hf, hcontent]
  level s _ := ⟨Log.Level.ofName?_eq_some.2 rfl, by cases s.logLevel <;> decide⟩

/-- **The laws of loading** a file whose bytes are UTF-8. If there is room, there are settings or a fault of the file.
If its text is a map that is data, nothing counts but the values of the five settings, each in its last entry: another
file with a map in which these are the same has the same outcome. -/
theorem load_laws (host : Host) (d : Disk) (path : Text) (bytes : List UInt8) (raw : Text)
    (hfile : d.file? path = some bytes) (hraw : Utf8.decode bytes = .ok raw) :
    Loads host path raw.unifyLineEnds (load host d (some path)) ∧
    ∀ d' bytes' raw' items items', d'.file? path = some bytes' → Utf8.decode bytes' = .ok raw' →
      HoldsMap host path raw.unifyLineEnds items → HoldsMap host path raw'.unifyLineEnds items' →
      Given.ofValues (valueOf? host.calls items) = .ofValues (valueOf? host.calls items') →
      load host d' (some path) = load host d (some path) := by
  rw [load_of_file hfile hraw]
  refine ⟨loads_ofText host path _, fun d' bytes' raw' items items' hfile' hraw' h h' hgiven => ?_⟩
  obtain ⟨es, hes, htext⟩ := ofText_of_holdsMap h
  obtain ⟨es', hes', htext'⟩ := ofText_of_holdsMap h'
  rw [load_of_file hfile' hraw', htext, htext']
  apply ofEntries_congr
  rw [given_of_gathers hes, given_of_gathers hes', hgiven]

/-- A disk with a text in the file `rc`. -/
def rcDisk (t : Text) : Disk := Tree.disk [([Path.encode "rc"], .file (Utf8.encode t))] "/"

/-- A file with one entry. -/
def onceText : Text := "\x7bpretty true\x7d"

/-- The file with an entry for the same setting before it, a number. -/
def twiceText : Text := "\x7bpretty 1 pretty true\x7d"

theorem holdsMap_once : HoldsMap .utf8 "rc" onceText [.symbol "pretty" ⟨1, 1, 1, 7⟩, .bool true] := by
  refine ⟨some ⟨1, 0, 1, 13⟩, .dict [(.str "pretty", .atom (.bool true))],
    read_eq_ok_iff.2 ⟨⟨⟨13, 1, 13⟩, []⟩, ?_, rfl⟩, rfl⟩
  exact .bracket (s := .map) (by decide) (.scalar (x := .symbol "pretty") (n := 6) (by decide)
    (.scalar (x := .bool true) (n := 4) (by decide) (.nil _))) (by decide) (.nil _)

theorem holdsMap_twice : HoldsMap .utf8 "rc" twiceText
    [.symbol "pretty" ⟨1, 1, 1, 7⟩, .int 1, .symbol "pretty" ⟨1, 10, 1, 16⟩, .bool true] := by
  have hlast : Reads ⟨⟨9, 1, 9⟩, " pretty true\x7d"⟩ [.symbol "pretty" ⟨1, 10, 1, 16⟩, .bool true]
      ⟨⟨21, 1, 21⟩, "\x7d"⟩ :=
    .scalar (x := .symbol "pretty") (n := 6) (by decide) (.scalar (x := .bool true) (n := 4) (by decide) (.nil _))
  have hitems : Reads ⟨⟨1, 1, 1⟩, "pretty 1 pretty true\x7d"⟩
      [.symbol "pretty" ⟨1, 1, 1, 7⟩, .int 1, .symbol "pretty" ⟨1, 10, 1, 16⟩, .bool true] ⟨⟨21, 1, 21⟩, "\x7d"⟩ :=
    .scalar (x := .symbol "pretty") (n := 6) (by decide) (.scalar (x := .int 1) (n := 1) (by decide) hlast)
  refine ⟨some ⟨1, 0, 1, 22⟩, .dict [(.str "pretty", .atom (.bool true))],
    read_eq_ok_iff.2 ⟨⟨⟨22, 1, 22⟩, []⟩, ?_, rfl⟩, rfl⟩
  exact .bracket (c := .start twiceText) (s := .map) (by decide) hitems (by decide) (.nil _)

/-- The first of the two entries does not matter, although it is of the wrong type. -/
theorem load_laws_repeated :
    (rcDisk twiceText).file? "rc" = some (Utf8.encode twiceText) ∧
      Utf8.decode (Utf8.encode twiceText) = .ok twiceText ∧
      load .utf8 (rcDisk twiceText) (some "rc") = .ok { pretty := true, path := some "rc" } ∧
      load .utf8 (rcDisk onceText) (some "rc") = load .utf8 (rcDisk twiceText) (some "rc") := by
  have hfile (t : Text) : (rcDisk t).file? "rc" = some (Utf8.encode t) := rfl
  have hdecode : Utf8.decode (Utf8.encode twiceText) = .ok twiceText := Utf8.decode_encode (by decide)
  have hdecode' : Utf8.decode (Utf8.encode onceText) = .ok onceText := Utf8.decode_encode (by decide)
  obtain ⟨hloads, hsame⟩ := load_laws .utf8 (rcDisk twiceText) "rc" _ twiceText (hfile twiceText) hdecode
  have hsame' := hsame (rcDisk onceText) _ onceText
    [.symbol "pretty" ⟨1, 1, 1, 7⟩, .int 1, .symbol "pretty" ⟨1, 10, 1, 16⟩, .bool true]
    [.symbol "pretty" ⟨1, 1, 1, 7⟩, .bool true] (hfile onceText) hdecode'
  rw [Text.unifyLineEnds_eq_self (by decide)] at hloads hsame'
  rw [Text.unifyLineEnds_eq_self (by decide)] at hsame'
  refine ⟨hfile twiceText, hdecode, ?_, hsame' holdsMap_twice holdsMap_once rfl⟩
  exact ((hloads.carried _ holdsMap_twice).1 _).2 ⟨rfl, rfl, rfl, rfl, rfl, rfl⟩

end Loading

end Settings

end MalForms
