import MalForms.Command

/-!
# A desk with a quiet log

A log may be a file on the disk that the command reads from, so what is written to it could show up in a later file. At
the default level this does not happen: reading and checking make records of lower levels only, and a desk with such a log
stays as it is (`Desk.Quiet.after_eq`). That the desk which the command opens is of this kind (`quiet_openLog`) rests on
the law that adding to a file twice is adding once (`Disk.append_append`): the file was made when the log was opened, and
nothing is added to it from then on.
-/

namespace MalForms

/-! ## Adding to a file -/

namespace Disk

section Append

variable {d : Disk} {here place q : Place} {n : Node} {bytes : List UInt8}

/-- A file can be written at the place: there is one, or nothing is there. -/
def Writable (d : Disk) (place : Place) : Prop :=
  d.node? place = none ∨ ∃ bytes, d.node? place = some (.file bytes)

theorem Writable.ne_nil (h : d.Writable place) : place ≠ [] := by
  rintro rfl
  rcases h with h | ⟨bytes, h⟩ <;> cases h

theorem node?_put_self (h : place ≠ []) : (d.put place n).node? place = some n := by
  simp [node?, put, h]

theorem node?_put_of_ne (h : q ≠ place) : (d.put place n).node? q = d.node? q := by
  simp [node?, put, h]

theorem put_put (d : Disk) (place : Place) (n n' : Node) : (d.put place n).put place n' = d.put place n' := by
  simp only [put, Disk.mk.injEq, true_and]
  funext q
  by_cases hq : q = place <;> simp [hq]

/-- A path leads to the same place once a file is there. -/
theorem walk_put {names : Place} (h : d.walk here names = .ok place) (hw : d.Writable place) :
    (d.put place (.file bytes)).walk here names = .ok place := by
  induction names generalizing here with
  | nil => exact h
  | cons name rest ih =>
    rw [walk] at h ⊢
    split at h
    · rename_i hself
      rw [if_pos hself]
      exact ih h
    rename_i hself
    rw [if_neg hself]
    split at h
    · rename_i habove
      rw [if_pos habove]
      exact ih h
    rename_i habove
    rw [if_neg habove]
    split at h
    · cases h
    rename_i hlong
    rw [if_neg hlong]
    by_cases hq : here ++ [name] = place
    · -- a place for a file is not gone through, so this is the last name
      have hlast : rest.isEmpty = true := by
        cases hrest : rest.isEmpty with
        | true => rfl
        | false => rcases hw with hw | ⟨old, hw⟩ <;> simp [hq, hw, hrest] at h
      simp [hq, node?_put_self hw.ne_nil, hlast]
    · rw [node?_put_of_ne hq]
      cases hnode : d.node? (here ++ [name]) with
      | none =>
        rw [hnode] at h
        exact h
      | some m =>
        rw [hnode] at h
        cases m with
        | directory => exact ih h
        | file _ | device | closed _ => exact h

theorem locate_put {p : Text} (h : d.locate p = .ok place) (hw : d.Writable place) :
    (d.put place (.file bytes)).locate p = .ok place := by
  rw [locate] at h ⊢
  split at h
  · cases h
  · rename_i hempty
    rw [if_neg hempty]
    split at h
    · cases h
    · rename_i hlong
      rw [if_neg hlong]
      exact walk_put h hw

theorem append_of_writable {p : Text} (h : d.locate p = .ok place) (hw : d.Writable place) :
    ∃ old, ∀ bytes, d.append p bytes = d.put place (.file (old ++ bytes)) := by
  rcases hw with hw | ⟨old, hw⟩
  · exact ⟨[], fun bytes => by simp [append, h, hw]⟩
  · exact ⟨old, fun bytes => by simp [append, h, hw]⟩

/-- Where no file can be written nothing is. -/
theorem append_of_not_writable {p : Text} (h : ∀ place, d.locate p = .ok place → ¬d.Writable place)
    (bytes : List UInt8) : d.append p bytes = d := by
  rw [append]
  split
  · rfl
  · rename_i place hp
    have hw := h place hp
    split
    · exact absurd (.inl ‹_›) hw
    · exact absurd (.inr ⟨_, ‹_›⟩) hw
    · rfl

/-- **Adding to a file twice is adding once.** -/
theorem append_append (d : Disk) (p : Text) (a b : List UInt8) : (d.append p a).append p b = d.append p (a ++ b) := by
  by_cases h : ∃ place, d.locate p = .ok place ∧ d.Writable place
  · obtain ⟨place, hp, hw⟩ := h
    obtain ⟨old, happend⟩ := append_of_writable hp hw
    have hnode := node?_put_self (d := d) (n := .file (old ++ a)) hw.ne_nil
    rw [happend, happend, append, locate_put hp hw]
    simp only [hnode, put_put, List.append_assoc]
  · have hnot : ∀ place, d.locate p = .ok place → ¬d.Writable place := fun place hp hw => h ⟨place, hp, hw⟩
    rw [append_of_not_writable hnot, append_of_not_writable hnot, append_of_not_writable hnot]

end Append

end Disk

/-! ## Records below a level -/

/-- The lowest level whose records a sink keeps. -/
def Log.Sink.threshold : Log.Sink → Log.Level
  | bare => .warning
  | stream threshold => threshold
  | file threshold _ => threshold

namespace Log

variable {sink : Sink} {r : Record}

theorem Sink.fileText_of_below (h : r.level.number < sink.threshold.number) (stamp : Text) :
    sink.fileText stamp r = [] := by
  cases sink with
  | bare | stream _ => rfl
  | file _ _ => exact if_neg (Nat.not_le.2 h)

/-- The records of reading a source are all for debugging. -/
theorem level_ofError {filename : Text} {e : ReadError} (h : r ∈ ofError filename e) : r.level = .debug := by
  cases e with
  | parse e =>
    rw [List.mem_singleton.1 h]
  | overlong _ | misescaped _ => cases h

theorem level_ofTrace {t : Trace} {source filename : Text} (h : r ∈ ofTrace t source filename) : r.level = .debug := by
  rw [ofTrace, List.mem_append] at h
  rcases h with h | h
  · obtain ⟨⟨f, stop⟩, -, rfl⟩ := List.mem_map.1 h
    rfl
  · split at h
    · cases h
    · exact level_ofError h

end Log

namespace Transcript

variable {es es' : Transcript} {l : Log.Level} {sink : Log.Sink}

/-- The transcript without its records. -/
def written (es : Transcript) : Transcript :=
  es.filter fun
    | .log _ => false
    | _ => true

/-- All records in the transcript are below a level. -/
def Below (l : Log.Level) (es : Transcript) : Prop := ∀ r, Emission.log r ∈ es → r.level.number < l.number

theorem written_append (es es' : Transcript) : (es ++ es').written = es.written ++ es'.written := List.filter_append ..

theorem written_logs (rs : List Log.Record) : written (rs.map .log) = [] := by
  simp [written]

theorem Below.append (h : es.Below l) (h' : es'.Below l) : (es ++ es').Below l := by
  intro r hr
  rcases List.mem_append.1 hr with hr | hr
  · exact h r hr
  · exact h' r hr

/-- Records below the threshold of the sink do not come to its file. -/
theorem logged_of_below (h : es.Below sink.threshold) (stamp : Text) : es.logged sink stamp = [] := by
  rw [logged, List.flatMap_eq_nil_iff]
  intro e he
  cases e with
  | out t | err t => rfl
  | log r => exact Log.Sink.fileText_of_below (h r he) stamp

end Transcript

/-! ## Quiet desks -/

namespace Command

variable {desk : Desk} {es : Transcript}

/-- What comes to standard error at a desk. -/
def Desk.errors (desk : Desk) (es : Transcript) : Text := es.errors desk.sink desk.stamp

/-- A desk whose log has the default level; if it is in a file, the file is there. -/
structure Desk.Quiet (desk : Desk) : Prop where
  level : desk.sink.threshold = ({} : Settings).logLevel
  made : desk.after [] = desk

/-- A desk with a quiet log stays as it is. -/
theorem Desk.Quiet.after_eq (h : desk.Quiet) (hes : es.Below .warning) : desk.after es = desk := by
  have hlogged : es.logged desk.sink desk.stamp = [] := by
    apply Transcript.logged_of_below
    rw [h.level]
    exact hes
  calc desk.after es = desk.after [] := by rw [Desk.after, Desk.after, hlogged]; rfl
    _ = desk := h.made

end Command

end MalForms
