import MalForms.Proofs.Reader.Sharing
import MalForms.Proofs.Reader.Spans

/-!
# A lazy run comes to its end

* `lazy_run_ends`: from any cursor, even outside the source, a lazy run ends after at most as many iterations as the
  source has code points.

An iteration passes over a gap and takes one token: an opening, a closing bracket or a scalar (`taken_of_more`,
`taken_of_form`). No token is empty, so every iteration that goes on moves the cursor forward, and it opens one frame
at most or gives out one form. The invariant of a run (`Underway`) therefore bounds the open frames and the forms given
out by the iterations, and these by the code points between the first cursor and the present one; an iteration keeps it
(`Underway.iterate`), and so does a run (`underway_of_loops`).

That a run does end is the other half: the iterations of one request are the steps of `next` (`comes_next`), and the
requests follow one another until one of them is answered with no form (`ends_from`).
-/

namespace MalForms

open Lexeme

/-! ## The token of an iteration -/

section Tokens

variable {stack stack' : List Frame} {c c' : Cursor} {g : Form} {t : Text} {n : Nat}

/-- A token that can end a form stands at the front of the text and takes `n` code points: a closing bracket or a
scalar. -/
inductive LastToken (t : Text) : Nat → Prop
  | closer {s : Shape} : t.head? = some s.closer → LastToken t 1
  | scalar {x : Scalar} {n : Nat} : Lexeme.scalar t = .found x n → LastToken t n

theorem LastToken.length (h : LastToken t n) : 0 < n ∧ n ≤ t.length := by
  cases h with
  | closer h =>
    obtain ⟨r, rfl⟩ := List.head?_eq_some_iff.1 h
    exact ⟨Nat.one_pos, Nat.succ_le_succ (Nat.zero_le _)⟩
  | scalar h => exact ⟨scalar_length_pos h, scalar_length_le h⟩

/-- The offset of a cursor moves with the code points it takes. -/
theorem offset_advance (c : Cursor) (h : n ≤ c.rest.length) : (c.advance n).pos.offset = c.pos.offset + n := by
  rw [Cursor.advance, Position.offset_after, List.length_take_of_le h]

/-- Handing over a form opens no frame. -/
theorem length_of_deliver {p : Position} (h : deliver p stack g = .inl stack') :
    stack' ≠ [] ∧ stack'.length ≤ stack.length := by
  induction stack generalizing g with
  | nil => cases h
  | cons f below ih =>
    rw [deliver_cons] at h
    split at h
    · obtain ⟨hne, hle⟩ := ih h
      exact ⟨hne, Nat.le_succ_of_le hle⟩
    · cases h
      exact ⟨List.cons_ne_nil _ _, Nat.le_refl _⟩

theorem settle_eq_more (h : Step.settle stack g c = .more stack' c') :
    c' = c ∧ stack' ≠ [] ∧ stack'.length ≤ stack.length := by
  refine ⟨cursor_of_settle h, ?_⟩
  rw [Step.settle] at h
  split at h
  · cases h
    exact length_of_deliver ‹_›
  · cases h

/-- An iteration within a form takes a token and opens one frame at most. -/
theorem taken_of_more (h : step stack c = .more stack' c') :
    stack' ≠ [] ∧ stack'.length ≤ stack.length + 1 ∧
      ∃ n, 0 < n ∧ n ≤ c.skipGap.rest.length ∧ c' = c.skipGap.advance n := by
  have hm := moves stack c
  rw [h] at hm
  generalize hr : Step.more stack' c' = r at hm
  cases hm with
  | finish | cutOff | absent | broken | overlong => cases hr
  | opens ho =>
    cases hr
    refine ⟨List.cons_ne_nil _ _, Nat.le_refl _, _, opening_text_pos _, ?_, rfl⟩
    rw [rest_opening ho, List.length_append]
    exact Nat.le_add_right _ _
  | close hst hf hc =>
    obtain ⟨rfl, hne, hle⟩ := settle_eq_more hr.symm
    obtain ⟨hpos, hlen⟩ := (LastToken.closer hc).length
    refine ⟨hne, ?_, 1, hpos, hlen, rfl⟩
    rw [hst, List.length_cons]
    omega
  | scalar hs =>
    obtain ⟨rfl, hne, hle⟩ := settle_eq_more hr.symm
    obtain ⟨hpos, hlen⟩ := (LastToken.scalar hs).length
    exact ⟨hne, Nat.le_succ_of_le hle, _, hpos, hlen, rfl⟩

/-- An iteration that gives out a form takes its last token. -/
theorem taken_of_form (h : step stack c = .done (.form g c')) :
    ∃ n, LastToken c.skipGap.rest n ∧ c' = c.skipGap.advance n := by
  have hm := moves stack c
  rw [h] at hm
  generalize hr : Step.done (.form g c') = r at hm
  cases hm with
  | finish | cutOff | absent | broken | overlong | opens => cases hr
  | close hst hf hc => exact ⟨1, .closer hc, cursor_of_settle_form hr.symm⟩
  | scalar hs => exact ⟨_, .scalar hs, cursor_of_settle_form hr.symm⟩

end Tokens

/-! ## Iterations -/

namespace Reader

/-- An iteration can be begun: with no frame open, only if the cursor has no more than 64 bits. -/
def Admits (stack : List Frame) (r : Reader) : Prop := stack = [] → SignedIndex.fits r.offset = true

/-- An iteration of a lazy run that goes on: from these open frames and this reader to the next ones, with the form
that it gives out, if it does, and the offset of the cursor then. -/
inductive Iterates (stack : List Frame) (r : Reader) : List Frame → Reader → List (Form × Int) → Prop
  | more {stack' : List Frame} {c : Cursor} : Admits stack r → step stack r.cursor = .more stack' c →
      Iterates stack r stack' (r.moveTo c) []
  | yields {f : Form} {c : Cursor} : Admits stack r → step stack r.cursor = .done (.form f c) →
      Iterates stack r [] (r.moveTo c) [(f, c.pos.offset)]

/-- An iteration that ends the run, by returning or with an error: the answer, and the offset of the cursor then. -/
inductive Stops (stack : List Frame) (r : Reader) : Answer → Int → Prop
  | tooFar : ¬Admits stack r → Stops stack r .tooFar r.offset
  | returns {c : Cursor} : Admits stack r → step stack r.cursor = .done (.finished c) →
      Stops stack r .over c.pos.offset
  | raises {e : Failure} {c : Cursor} : Admits stack r → step stack r.cursor = .done (.failed e c) →
      Stops stack r (r.fail e) c.pos.offset

/-- After `n` iterations of a lazy run of `q`: the open frames, the reader, and the forms given out. -/
inductive Loops (q : Reader) : Nat → List Frame → Reader → List (Form × Int) → Prop
  | start : Loops q 0 [] q []
  | next {n : Nat} {stack stack' : List Frame} {r r' : Reader} {out new : List (Form × Int)} :
      Loops q n stack r out → Iterates stack r stack' r' new → Loops q (n + 1) stack' r' (out ++ new)

variable {q r r' : Reader} {n : Nat} {stack stack' : List Frame} {out new : List (Form × Int)}

theorem stands_skipGap (r : Reader) : r.cursor.skipGap.Stands r.source := r.stands_cursor.advance _

/-- A cursor before the end of the source is no further back than its offset. -/
theorem offset_le_cursor (h : r.cursor.rest ≠ []) : r.offset ≤ r.cursor.pos.offset := by
  have hrest : r.cursor.rest = r.source.drop r.offset.toNat := rfl
  have hpos : r.cursor.pos.offset = 0 + (r.source.take r.offset.toNat).length := Position.offset_after {} _
  rw [hrest, ne_eq, List.drop_eq_nil_iff] at h
  rw [hpos, List.length_take]
  omega

/-- **What an iteration does**: it takes a token after the gap, opens one frame at most or gives out one form, and
changes nothing but the cursor. -/
theorem Iterates.takes (h : Iterates stack r stack' r' new) :
    ∃ n, 0 < n ∧ n ≤ r.cursor.skipGap.rest.length ∧ r'.cursor = r.cursor.skipGap.advance n ∧
      r' = r.moveTo r'.cursor ∧ stack'.length + new.length ≤ stack.length + 1 := by
  cases h with
  | more _ hs =>
    obtain ⟨-, hle, n, hpos, hlen, rfl⟩ := taken_of_more hs
    have hc := cursor_moveTo (r.stands_skipGap.advance n)
    exact ⟨n, hpos, hlen, hc, by rw [hc], hle⟩
  | yields _ hs =>
    obtain ⟨n, ht, rfl⟩ := taken_of_form hs
    have hc := cursor_moveTo (r.stands_skipGap.advance n)
    exact ⟨n, ht.length.1, ht.length.2, hc, by rw [hc], Nat.succ_le_succ (Nat.zero_le _)⟩

/-- **An iteration that goes on moves the cursor forward**, from where it was and from where the gap ends. -/
theorem Iterates.forward (h : Iterates stack r stack' r' new) :
    (r.cursor.skipGap.pos.offset : Int) < r'.offset ∧ r.offset < r'.offset := by
  obtain ⟨n, hpos, hlen, hc, hr, -⟩ := h.takes
  have hne : r.cursor.rest ≠ [] := by
    apply List.ne_nil_of_length_pos
    have := r.cursor.length_rest_skipGap_le
    omega
  have hoffset : r'.offset = r'.cursor.pos.offset := congrArg Reader.offset hr
  have hback := offset_le_cursor hne
  have hle := offset_le_skipGap r.cursor
  rw [hoffset, hc, offset_advance _ hlen]
  omega

/-! ## The invariant of a run -/

/-- What holds after `n` iterations: the source is the same, the frames are open behind a place of it, the cursor has
moved by a code point at least for each iteration, and there are no more open frames and forms given out than there
were iterations. -/
structure Underway (q : Reader) (n : Nat) (stack : List Frame) (r : Reader) (out : List (Form × Int)) : Prop where
  source : r.source = q.source
  opened : ∃ c : Cursor, c.Stands q.source ∧ Open c stack r.cursor
  consumed : q.cursor.pos.offset + n ≤ r.cursor.pos.offset
  few : stack.length + out.length ≤ n

theorem Underway.stands (h : Underway q n stack r out) : r.cursor.skipGap.Stands q.source :=
  h.source ▸ r.stands_skipGap

theorem underway_start (q : Reader) : Underway q 0 [] q [] where
  source := rfl
  opened := ⟨q.cursor, q.stands_cursor, .nil⟩
  consumed := Nat.le_refl _
  few := Nat.le_refl _

/-- The form that an iteration gives out stands behind the frames. -/
theorem reads_of_yields {c c₀ : Cursor} {f : Form} (ho : Open c₀ stack r.cursor)
    (hs : step stack r.cursor = .done (.form f c)) : Reads c₀ [f] c := by
  have hleaves := open_step ho
  rw [hs] at hleaves
  cases hleaves with
  | form hg => exact hg

theorem opened_of_iterates {source : Text} {c₀ : Cursor} (hsource : r.source = source) (hc₀ : c₀.Stands source)
    (ho : Open c₀ stack r.cursor) (h : Iterates stack r stack' r' new) :
    ∃ c : Cursor, c.Stands source ∧ Open c stack' r'.cursor := by
  cases h with
  | @more _ c _ hs =>
    have hopen : Open c₀ stack' c := by
      have hleaves := open_step ho
      rwa [hs] at hleaves
    have hc : (r.moveTo c).cursor = c := cursor_moveTo (by rw [hsource]; exact hopen.stands hc₀)
    exact ⟨c₀, hc₀, by rw [hc]; exact hopen⟩
  | @yields f c _ hs =>
    have hstands : c.Stands source := (reads_of_yields ho hs).stands hc₀
    have hc : (r.moveTo c).cursor = c := cursor_moveTo (by rw [hsource]; exact hstands)
    exact ⟨c, hstands, by rw [hc]; exact .nil⟩

/-- **One iteration keeps the invariant.** -/
theorem Underway.iterate (h : Underway q n stack r out) (hi : Iterates stack r stack' r' new) :
    Underway q (n + 1) stack' r' (out ++ new) := by
  obtain ⟨m, hpos, hlen, hc, hr, hcount⟩ := hi.takes
  have hle := offset_le_skipGap r.cursor
  have hconsumed := h.consumed
  have hfew := h.few
  obtain ⟨c₀, hc₀, ho⟩ := h.opened
  constructor
  · rw [hr]
    exact h.source
  · exact opened_of_iterates h.source hc₀ ho hi
  · rw [hc, offset_advance _ hlen]
    omega
  · rw [List.length_append]
    omega

theorem underway_of_loops (h : Loops q n stack r out) : Underway q n stack r out := by
  induction h with
  | start => exact underway_start q
  | next _ hi ih => exact ih.iterate hi

/-! ## The end of a run -/

/-- What the iterations of a request come to: a form that is given out, or the end of the run. -/
def Comes (q r : Reader) (out : List (Form × Int)) : Outcome → Prop
  | .form f c => ∃ n, Loops q n [] (r.moveTo c) (out ++ [(f, (c.pos.offset : Int))])
  | .finished c => ∃ n stack r', Loops q n stack r' out ∧ Stops stack r' .over c.pos.offset
  | .failed e c => ∃ n stack r', Loops q n stack r' out ∧ Stops stack r' (r.fail e) c.pos.offset

/-- **The iterations of a request** are the steps to the next form. -/
theorem comes_next {n : Nat} {stack : List Frame} {r : Reader} (h : Loops q n stack r out) (ha : Admits stack r) :
    Comes q r out (next stack r.cursor) := by
  cases hs : step stack r.cursor with
  | more stack' c =>
    obtain ⟨hne, -, m, -, -, hadv⟩ := taken_of_more hs
    have hc : (r.moveTo c).cursor = c := by
      rw [hadv]
      exact cursor_moveTo (r.stands_skipGap.advance m)
    have hlt : (r.moveTo c).cursor.rest.length < r.cursor.rest.length := by
      rw [hc]
      exact rest_lt_of_step hs
    have hloops := h.next (.more ha hs)
    rw [List.append_nil] at hloops
    have hcomes := comes_next hloops fun hst => absurd hst hne
    rw [hc] at hcomes
    rw [next_more hs]
    exact hcomes
  | done o =>
    rw [next_done hs]
    cases o with
    | form f c => exact ⟨_, h.next (.yields ha hs)⟩
    | finished c => exact ⟨_, _, _, h, .returns ha hs⟩
    | failed e c => exact ⟨_, _, _, h, .raises ha hs⟩
termination_by r.cursor.rest.length

/-- The last lazy run goes on. -/
def LastRuns (r : Reader) : Prop := r.runs.getLast? = some true

/-- Going on with the last run is looking for the next form. -/
theorem act_resume (h : r.LastRuns) :
    r.act (.resume (-1)) = (r.advance.1, r.advance.2.keepRun (r.runs.length - 1) r.advance.1) := by
  have hpos : 0 < r.runs.length := List.length_pos_of_mem (List.mem_of_getLast? h)
  have hplace : SignedIndex.place r.runs.length (-1) = .ok (r.runs.length - 1) := by
    have hindex : (-1 : Int) + r.runs.length = (r.runs.length - 1 : Nat) := by omega
    have hin : ¬((r.runs.length - 1 : Nat) < (0 : Int) ∨ (r.runs.length : Int) ≤ (r.runs.length - 1 : Nat)) := by omega
    simp only [SignedIndex.place, if_pos (show (-1 : Int) < 0 by decide), hindex]
    rw [if_neg (by decide), if_neg (by simpa using hin), Int.toNat_natCast]
  have hlive : r.runs[r.runs.length - 1]? = some true := by
    rw [← List.getLast?_eq_getElem?]
    exact h
  simp only [act, hplace, hlive, if_true]

theorem offset_keepRun (r : Reader) (place : Nat) (x : Answer) : (r.keepRun place x).offset = r.offset := by
  cases x <;> rfl

/-- A request that is the last one has one answer. -/
theorem run_resume (h : r.LastRuns) : r.run [.resume (-1)] = [(r.advance.1, r.advance.2.offset)] := by
  rw [run, act_resume h]
  show [(r.advance.1, (r.advance.2.keepRun _ _).offset)] = _
  rw [offset_keepRun]

/-- A request gives out a form or ends the run. -/
theorem advance_cases (h : Loops q n [] r out) :
    (∃ f c n', next [] r.cursor = .form f c ∧ r.advance = (.form f, r.moveTo c) ∧
        Loops q n' [] (r.moveTo c) (out ++ [(f, (c.pos.offset : Int))])) ∨
      ∃ n' stack r', Loops q n' stack r' out ∧ Stops stack r' r.advance.1 r.advance.2.offset := by
  unfold advance
  split_ifs with hfits
  · have hcomes := comes_next h fun _ => hfits
    cases hn : next [] r.cursor with
    | form f c =>
      rw [hn] at hcomes
      obtain ⟨n', hloops⟩ := hcomes
      exact .inl ⟨f, c, n', rfl, rfl, hloops⟩
    | finished | failed =>
      rw [hn] at hcomes
      exact .inr hcomes
  · exact .inr ⟨n, [], r, h, .tooFar fun ha => hfits (ha rfl)⟩

/-- The answers to requests that are answered with these forms, and to the one after them. -/
def replies (out : List (Form × Int)) (x : Answer) (stop : Int) : List (Answer × Int) :=
  out.map (fun y => (.form y.1, y.2)) ++ [(x, stop)]

/-- **Requests that follow one another come to the end of the run.** -/
theorem ends_from {n : Nat} {r : Reader} {out : List (Form × Int)} (h : Loops q n [] r out) (hr : r.LastRuns) :
    ∃ n stack r' more x stop, Loops q n stack r' (out ++ more) ∧ Stops stack r' x stop ∧
      r.run (List.replicate (more.length + 1) (.resume (-1))) = replies more x stop := by
  obtain ⟨f, c, n', hn, hadv, hloops⟩ | ⟨n', stack, r', hloops, hstops⟩ := advance_cases h
  · have hc : (r.moveTo c).cursor = c := cursor_moveTo (stands_of_next hn r.stands_cursor)
    have hlt : (r.moveTo c).cursor.rest.length < r.cursor.rest.length := by
      rw [hc]
      exact rest_lt_of_next hn
    obtain ⟨n'', stack, r', more, x, stop, hloops', hstops, hrun⟩ := ends_from hloops hr
    refine ⟨n'', stack, r', (f, c.pos.offset) :: more, x, stop, ?_, hstops, ?_⟩
    · rwa [List.append_assoc] at hloops'
    · rw [List.length_cons, List.replicate_succ, run, act_resume hr, hadv]
      exact congrArg _ hrun
  · exact ⟨n', stack, r', [], _, _, by rwa [List.append_nil], hstops, run_resume hr⟩
termination_by r.cursor.rest.length

/-! ## The bounds on a run -/

/-- The last token of the form stands at offset `k` of the source and ends at offset `stop`: up to there, from some
place on, the source reads as the form alone. -/
def EndsWith (source : Text) (f : Form) (k : Nat) (stop : Int) : Prop :=
  ∃ n start, LastToken (source.drop k) n ∧ stop = (k + n : Nat) ∧ start ≤ k ∧
    readsAs (source.between start (k + n)) [f] = .ok true

/-- What is claimed of a run of `q` after `n` iterations. -/
structure Bounded (q : Reader) (n : Nat) (stack : List Frame) (r : Reader) (out : List (Form × Int)) : Prop where
  /-- The skip at the beginning of an iteration brings the cursor into the source. -/
  skips : 0 ≤ (r.moveTo r.cursor.skipGap).offset ∧ (r.moveTo r.cursor.skipGap).offset ≤ q.source.length
  /-- An iteration that goes on moves the cursor forward, from where it was and from where the skip brought it. -/
  forward : ∀ stack' r' new, Iterates stack r stack' r' new →
    r.offset < r'.offset ∧ (r.moveTo r.cursor.skipGap).offset < r'.offset
  /-- No more frames are open than code points have been passed. -/
  frames : q.cursor.pos.offset + stack.length ≤ r.cursor.pos.offset
  iterations : n ≤ q.source.length
  forms : out.length ≤ q.source.length
  /-- When a form is given out, the cursor is at the end of its last token, the one behind the skip. -/
  token : ∀ r' f stop, Iterates stack r [] r' [(f, stop)] →
    stop = r'.offset ∧ EndsWith q.source f (r.cursor.skipGap.pos.offset) stop

/-- The frames stand behind the gap after the first cursor. -/
theorem offset_skipGap_le {c c₀ : Cursor} (h : Open c₀ stack c) : c₀.skipGap.pos.offset ≤ c.skipGap.pos.offset := by
  induction h with
  | nil => exact Nat.le_refl _
  | @cons _ o _ c₁ c _ _ hr _ ih =>
    calc c₀.skipGap.pos.offset
      _ ≤ c₁.skipGap.pos.offset := ih
      _ ≤ (c₁.skipGap.advance o.text.length).pos.offset := (reaches_advance (Position.Reaches.refl _) _).offset
      _ ≤ c.pos.offset := offset_le_of_reads hr
      _ ≤ c.skipGap.pos.offset := offset_le_skipGap c

/-- **The cursor is at the end of the last token** of a form that is given out. -/
theorem Underway.endsWith (h : Underway q n stack r out) {f : Form} {c : Cursor}
    (hs : step stack r.cursor = .done (.form f c)) :
    EndsWith q.source f r.cursor.skipGap.pos.offset c.pos.offset := by
  obtain ⟨c₀, hc₀, ho⟩ := h.opened
  obtain ⟨m, htoken, rfl⟩ := taken_of_form hs
  have hoffset := offset_advance _ htoken.length.2
  have hplaced := placed_of_reads (reads_of_yields ho hs) hc₀
  refine ⟨m, c₀.skipGap.pos.offset, ?_, congrArg _ hoffset, offset_skipGap_le ho, ?_⟩
  · rwa [drop_stands h.stands]
  · rw [← hoffset]
    exact hplaced.reread

theorem Underway.bounded (h : Underway q n stack r out) : Bounded q n stack r out := by
  have hend := offset_of_stands h.stands
  have hle := offset_le_skipGap r.cursor
  have hconsumed := h.consumed
  have hfew := h.few
  constructor
  · show 0 ≤ (r.cursor.skipGap.pos.offset : Int) ∧ (r.cursor.skipGap.pos.offset : Int) ≤ q.source.length
    omega
  · intro stack' r' new hi
    exact hi.forward.symm
  · omega
  · omega
  · omega
  · intro r' f stop hi
    cases hi with
    | yields _ hs => exact ⟨rfl, h.endsWith hs⟩

/-- **A lazy run comes to its end**, whatever its source is and wherever its cursor was set: each of its iterations is
within the bounds, and going on with the run gives out some forms and then the answer that ends it. -/
theorem lazy_run_ends (r : Reader) :
    let q := (r.act .start).2
    (∀ n stack r' out, Loops q n stack r' out → Bounded q n stack r' out) ∧
      ∃ n stack r' out x stop, Loops q n stack r' out ∧ Stops stack r' x stop ∧
        q.run (List.replicate (out.length + 1) (.resume (-1))) = replies out x stop := by
  intro q
  have hlast : q.LastRuns := List.getLast?_concat
  obtain ⟨n, stack, r', out, x, stop, hloops, hstops, hrun⟩ := ends_from (Loops.start (q := q)) hlast
  exact ⟨fun n stack r' out h => (underway_of_loops h).bounded, n, stack, r', out, x, stop, hloops, hstops, hrun⟩

/-- From a cursor before the front of the source, two iterations open two frames. -/
theorem lazy_run_ends_negative :
    let q := (({ source := "'(a", offset := -7 } : Reader).act .start).2
    ∃ stack r', Loops q 2 stack r' [] ∧ stack.length = 2 ∧ r'.offset = 2 ∧ Bounded q 2 stack r' [] := by
  intro q
  have hquote : Iterates [] q [⟨.mark .quote, {}, []⟩] (q.moveTo ⟨⟨1, 1, 1⟩, "(a"⟩) [] :=
    .more (fun _ => by decide) (step_opening (o := .mark .quote) (by decide))
  have hlist : Iterates [⟨.mark .quote, {}, []⟩] (q.moveTo ⟨⟨1, 1, 1⟩, "(a"⟩)
      [⟨.bracket .list, ⟨1, 1, 1⟩, []⟩, ⟨.mark .quote, {}, []⟩] (q.moveTo ⟨⟨2, 1, 2⟩, "a"⟩) [] :=
    .more nofun (step_opening (o := .bracket .list) (by decide))
  have hloops := (Loops.start.next hquote).next hlist
  exact ⟨_, _, hloops, rfl, rfl, (lazy_run_ends _).1 _ _ _ _ hloops⟩

end Reader

end MalForms
