import Playtest.Proofs.Criteria.OwnKeys
import Playtest.Proofs.Vision.Outstanding
import Playtest.Segment.Run

/-!
# Releasing the requests of a phase

The requests for the criteria of a segment are abandoned by what their keys begin with: `1/end`
stands for all that segment 1 asks for while it waits for its end. One key may well be the beginning
of another one, as `1/end.1` is of `1/end.10`, and 1 is the beginning of 11. The main result,
`Coordinator.keys_tell_requests_apart`, is that a release nevertheless hits the requests of its own
phase and no others, however deep the criteria are and whatever the numbers.

What carries it is that a number in digits ends at the slash and the phases differ in a letter that
both have (`Phase.eq_of_below`). `Coordinator.Tended` are the lives of a coordinator in which
criteria are prepared phase by phase, and the requests made in them are written down together with
the phase they were made for.
-/

namespace Playtest

namespace Phase

variable {number number' : Nat} {phase phase' : Phase} {place place' : Place}

/-- What all keys of a phase begin with, for the segment with a number. -/
def key (number : Nat) (phase : Phase) : Key := s!"{number}/{phase.name}"

/-- A key of a phase begins with the digits of the number and a slash. -/
theorem toList_key (number : Nat) (phase : Phase) :
    (phase.key number).toList = Nat.toDigits 10 number ++ '/' :: phase.name.toList := by
  change (toString number ++ "/" ++ phase.name).toList = _
  rw [String.toList_append, String.toList_append, List.append_assoc, Nat.toString_eq_repr,
    Nat.toList_repr]
  rfl

/-- **A key begins with one phase of one segment only.** -/
theorem eq_of_below (h : Key.Below (phase.key number) ((phase'.key number').along place)) :
    number = number' ∧ phase = phase' := by
  obtain ⟨rest, h⟩ := h
  rw [Key.toList_along, toList_key, toList_key, List.append_assoc, List.append_assoc] at h
  -- behind the number comes a slash, which is no digit
  have hslash : ∀ (name others : List Char),
      ∀ x ∈ ('/' :: name ++ others).head?, x.isDigit = false := by
    intro name others x hx
    cases hx
    rfl
  obtain ⟨rfl, hname⟩ := Key.toDigits_append_inj (hslash _ _) (hslash _ _) h
  refine ⟨rfl, ?_⟩
  -- `entry` and `end` differ in their third letter
  cases phase with
  | entry =>
    cases phase' with
    | entry => rfl
    | completion => cases hname
  | completion =>
    cases phase' with
    | entry => cases hname
    | completion => rfl

/-- A key is that of a place in one phase of one segment only. -/
theorem eq_of_along_eq (h : (phase.key number).along place = (phase'.key number').along place') :
    number = number' ∧ phase = phase' :=
  eq_of_below (h ▸ Key.below_along (phase.key number) place)

end Phase

namespace Vision.Coordinator

open Playtest.Scene

/-- The requests that are outstanding afterwards and were not before. -/
def created (c c' : Coordinator) : List (Key × UInt64) :=
  c'.outstanding.filter fun e => e ∉ c.outstanding

/-- The **lives of a coordinator** that serves the phases of segments, with the requests that were
made in them: the number of the segment, the phase that was prepared, and what became
outstanding. -/
inductive Tended : Coordinator → List (Nat × Phase × Key × UInt64) → Prop
  | of (service : Option Service) : Tended (.of service) []
  | prepare {c : Coordinator} {made : List (Nat × Phase × Key × UInt64)} (h : Tended c made)
      (number : Nat) (phase : Phase) (cs : List Criteria) (snapshot : Snapshot) :
      Tended (c.prepare (phase.key number) cs snapshot).1
        (made ++ (c.created (c.prepare (phase.key number) cs snapshot).1).map
          fun e => (number, phase, e))
  | record {c : Coordinator} {made : List (Nat × Phase × Key × UInt64)} (h : Tended c made)
      (index : UInt64) (reply : Reply) : Tended (c.record index reply) made
  | release {c : Coordinator} {made : List (Nat × Phase × Key × UInt64)} (h : Tended c made)
      (start : String) : Tended (c.release start) made
  | reset {c : Coordinator} {made : List (Nat × Phase × Key × UInt64)} (h : Tended c made) :
      Tended c.reset made

variable {c : Coordinator} {made : List (Nat × Phase × Key × UInt64)} {e : Key × UInt64}
  {number number' : Nat} {phase phase' : Phase} {snapshot : Snapshot} {cs : List Criteria}

/-- What becomes outstanding in a preparation has the key of a place. -/
theorem along_of_mem_created {parent : Key} (h : e ∈ c.created (c.prepare parent cs snapshot).1) :
    ∃ place, parent.along place = e.1 := by
  obtain ⟨hmem, hnew⟩ := List.mem_filter.mp h
  rcases mem_outstanding_prepareKeys (wanted parent cs) hmem with ⟨query, hquery⟩ | hold
  · obtain ⟨criteria, hkey, -⟩ := mem_wanted_iff.mp hquery
    obtain ⟨place, -, hplace⟩ := Criteria.mem_withKeys_iff.mp hkey
    exact ⟨place, hplace⟩
  · exact absurd hold (of_decide_eq_true hnew)

/-- Every request that was made has a key of its phase. -/
theorem Tended.along (h : Tended c made) :
    ∀ m ∈ made, ∃ place, (m.2.1.key m.1).along place = m.2.2.1 := by
  induction h with
  | of service => exact fun _ hm => absurd hm List.not_mem_nil
  | prepare h number phase cs snapshot ih =>
    -- those made before, and those of this preparation
    refine List.forall_mem_append.mpr ⟨ih, fun m hm => ?_⟩
    obtain ⟨e, he, rfl⟩ := List.mem_map.mp hm
    exact along_of_mem_created he
  | record h index reply ih => exact ih
  | release h start ih => exact ih
  | reset h ih => exact ih

/-- Every outstanding request was made for some phase. -/
theorem Tended.made_for (h : Tended c made) :
    ∀ e ∈ c.outstanding, ∃ number phase, (number, phase, e) ∈ made := by
  induction h with
  | of service => exact fun _ he => absurd he List.not_mem_nil
  | @prepare c made h number phase cs snapshot ih =>
    intro e he
    -- either it was outstanding before, or it is among those just made
    by_cases hold : e ∈ c.outstanding
    · obtain ⟨number', phase', hmade⟩ := ih e hold
      exact ⟨number', phase', List.mem_append_left _ hmade⟩
    · have hnew : e ∈ c.created (c.prepare (phase.key number) cs snapshot).1 :=
        List.mem_filter.mpr ⟨he, decide_eq_true hold⟩
      exact ⟨number, phase, List.mem_append_right _ (List.mem_map_of_mem hnew)⟩
  | record h index reply ih => exact ih
  | release h start ih => exact fun e he => ih e (List.mem_filter.mp he).1
  | reset h ih => exact fun _ he => absurd he List.not_mem_nil

/-- A request was made for one phase of one segment only. -/
theorem Tended.unique (h : Tended c made) (hm : (number, phase, e) ∈ made)
    (hm' : (number', phase', e) ∈ made) : number = number' ∧ phase = phase' := by
  obtain ⟨place, hplace⟩ := h.along _ hm
  obtain ⟨place', hplace'⟩ := h.along _ hm'
  exact Phase.eq_of_along_eq (hplace.trans hplace'.symm)

/-- An outstanding request has a key that **begins with a phase** just if it was made for that
phase. -/
theorem Tended.beginsWith_iff (h : Tended c made) (he : e ∈ c.outstanding) :
    beginsWith e.1 (phase.key number) = true ↔ (number, phase, e) ∈ made := by
  rw [Coordinator.beginsWith_iff]
  constructor
  · -- its own phase is the only one that its key begins with
    intro hbelow
    obtain ⟨number', phase', hmade⟩ := h.made_for e he
    obtain ⟨place, hplace⟩ := h.along _ hmade
    dsimp only at hplace
    rw [← hplace] at hbelow
    obtain ⟨rfl, rfl⟩ := Phase.eq_of_below hbelow
    exact hmade
  · intro hmade
    obtain ⟨place, hplace⟩ := h.along _ hmade
    dsimp only at hplace
    rw [← hplace]
    exact Key.below_along ..

/-- A release leaves out the requests that were made for its phase. -/
theorem Tended.release_eq (h : Tended c made) (number : Nat) (phase : Phase) :
    (c.release (phase.key number)).outstanding =
      c.outstanding.filter fun e => (number, phase, e) ∉ made := by
  refine List.filter_congr fun e he => ?_
  rw [Bool.eq_iff_iff, Bool.not_eq_true', decide_eq_true_iff, ← h.beginsWith_iff he,
    Bool.not_eq_true]

/-- **Keys tell criteria and requests apart.**

* No visit hands out a key twice; each key is that of a place, and it is handed out for the criteria
  there.
* Evaluation goes by these keys: it comes to what it comes to by places, with the reply and the
  latch under the key of each place, and what it brings are the keys of places.
* It asks about no other keys: the replies under the keys of vision criteria and the latches under
  the keys of transient criteria decide.
* It brings the keys of the transient criteria that are live, not latched before, and met under
  their keys.
* Visits for different phases or different segments have no key in common.
* A release leaves out just the requests that were made for its phase, and every outstanding request
  was made for one phase of one segment. -/
theorem keys_tell_requests_apart :
    (∀ parent cs, ((Criteria.withKeys parent cs).map Prod.fst).Nodup ∧
      ∀ key c, (key, c) ∈ Criteria.withKeys parent cs ↔
        ∃ place, Criteria.lookup? cs place = some c ∧ parent.along place = key) ∧
    (∀ view parent cs join, Criteria.outcome (Criteria.evaluateAll view parent cs join) =
      (Criteria.evaluateList view.blind (view.known parent) cs join).map fun e =>
        (e.1, e.2.map parent.along)) ∧
    (∀ (view view' : View) parent cs join, view.blind = view'.blind →
      (∀ key c, (key, c) ∈ Criteria.withKeys parent cs →
        ((query? c).isSome → view.reply key = view'.reply key) ∧
          (c.isTransient = true → (key ∈ view.latched ↔ key ∈ view'.latched))) →
      Criteria.outcome (Criteria.evaluateAll view parent cs join) =
        Criteria.outcome (Criteria.evaluateAll view' parent cs join)) ∧
    (∀ view parent cs join status notes,
      Criteria.evaluateAll view parent cs join = (.ok status, notes) →
      ∀ key, key ∈ notes.latched ↔ ∃ place c, parent.along place = key ∧
        Criteria.lookup? cs place = some c ∧
        Criteria.Live view parent cs place ∧ c.isTransient = true ∧ key ∉ view.latched ∧
          (Criteria.evaluate view key c).1 = .ok .met) ∧
    (∀ (r : SegmentRun) phase, r.key phase = phase.key r.number) ∧
    (∀ number number' (phase phase' : Phase) cs cs' key c c',
      (key, c) ∈ Criteria.withKeys (phase.key number) cs →
        (key, c') ∈ Criteria.withKeys (phase'.key number') cs' →
        number = number' ∧ phase = phase') ∧
    ∀ c made, Tended c made →
      (∀ e ∈ c.outstanding, ∃! owner : Nat × Phase, (owner.1, owner.2, e) ∈ made) ∧
        ∀ number phase, (c.release (phase.key number)).outstanding =
          c.outstanding.filter fun e => (number, phase, e) ∉ made := by
  refine ⟨fun parent cs =>
      ⟨Criteria.nodup_withKeys parent cs, fun _ _ => Criteria.mem_withKeys_iff⟩,
    Criteria.outcome_eq, ?_, fun _ _ _ _ _ _ h => Criteria.mem_latched_iff h,
    fun _ _ => rfl, ?_, ?_⟩
  · -- what is asked about under a key is the reply to a vision criteria or the latch of a transient
    -- one
    intro view view' parent cs join hblind hagree
    refine Criteria.outcome_eq_of_agree hblind (fun key v t kind query hmem => ?_) fun key c hmem =>
      (hagree key c hmem).2
    exact (hagree key _ hmem).1 rfl
  · intro number number' phase phase' cs cs' key c c' hmem hmem'
    obtain ⟨place, -, hplace⟩ := Criteria.mem_withKeys_iff.mp hmem
    obtain ⟨place', -, hplace'⟩ := Criteria.mem_withKeys_iff.mp hmem'
    exact Phase.eq_of_along_eq (hplace.trans hplace'.symm)
  · intro c made h
    refine ⟨fun e he => ?_, h.release_eq⟩
    obtain ⟨number, phase, hmade⟩ := h.made_for e he
    refine ⟨(number, phase), hmade, fun owner howner => ?_⟩
    obtain ⟨hnumber, hphase⟩ := h.unique howner hmade
    exact Prod.ext hnumber hphase

/-- Segments 1 and 11 look for a text while they wait for their ends. -/
def bothWaiting : Coordinator :=
  let play : List Criteria := [.single 1 false (.vision .text ⟨some "Play", none, none, 0.5⟩)]
  let first := ((Coordinator.of (some silent)).prepare (Phase.completion.key 1) play pixel).1
  (first.prepare (Phase.completion.key 11) play pixel).1

/-- The two requests were made for the end of either segment. -/
theorem bothWaiting_tended :
    Tended bothWaiting [(1, .completion, "1/end.0", 0), (11, .completion, "11/end.0", 1)] := by
  have first := (Tended.of (some silent)).prepare 1 .completion
    [.single 1 false (.vision .text ⟨some "Play", none, none, 0.5⟩)] pixel
  exact first.prepare 11 .completion
    [.single 1 false (.vision .text ⟨some "Play", none, none, 0.5⟩)] pixel

/-- The release of segment 1 leaves segment 11 alone. -/
theorem release_one_leaves_eleven :
    (bothWaiting.release (Phase.completion.key 1)).outstanding = [("11/end.0", 1)] := by
  obtain ⟨-, -, -, -, -, -, hreleases⟩ := keys_tell_requests_apart
  rw [(hreleases _ _ bothWaiting_tended).2 1 .completion]
  decide +kernel

end Vision.Coordinator

end Playtest
