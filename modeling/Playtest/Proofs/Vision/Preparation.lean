import Playtest.Proofs.Criteria.Places
import Playtest.Proofs.Vision.Outstanding

/-!
# What a preparation asks for

A preparation goes through the vision criteria of a list, and each of their keys has its **turn**.
While one key has its turn the service may already answer, for whatever request, and so what a key
is about to get is only known when its turn comes. `Coordinator.turns` are the keys with the
coordinators that they find, and `Coordinator.asked` those among them that find no request that may
still bring something (`Coordinator.Lacks`).

The main result is `Coordinator.prepareKeys_prepared`: a preparation sends one request for each key
that was asked for, one after another and under consecutive indices. The other keys keep their
requests, and nothing is written under the indices of these but by the service
(`Prepared.untouched`). The last one takes that requests have indices of their own, which is the
invariant of a life.
-/

namespace Playtest.Vision

open Playtest.Scene

namespace Replies

variable {rs rs' : Replies} {i : UInt64}

/-- Records replies one after another. -/
def recordAll (rs : Replies) (answers : List (UInt64 × Reply)) : Replies :=
  answers.foldl (fun (rs : Replies) a => rs.record a.1 a.2) rs

/-- Recording more replies behind others is recording them one after another. -/
theorem recordAll_append (rs : Replies) (answers others : List (UInt64 × Reply)) :
    rs.recordAll (answers ++ others) = (rs.recordAll answers).recordAll others := List.foldl_append

/-- What is recorded does not depend on what there is under other indices. -/
theorem get?_recordAll_congr (h : rs.get? i = rs'.get? i) (answers : List (UInt64 × Reply)) :
    (rs.recordAll answers).get? i = (rs'.recordAll answers).get? i := by
  induction answers generalizing rs rs' with
  | nil => exact h
  | cons a rest ih =>
    apply ih
    rw [get?_record, get?_record, h]

/-- What is recorded under other indices makes no difference. -/
theorem get?_recordAll_of_ne {answers : List (UInt64 × Reply)} (h : ∀ a ∈ answers, a.1 ≠ i)
    (rs : Replies) : (rs.recordAll answers).get? i = rs.get? i := by
  induction answers generalizing rs with
  | nil => rfl
  | cons a rest ih =>
    rw [List.forall_mem_cons] at h
    apply (ih h.2 _).trans
    rw [get?_record, if_neg h.1]

end Replies

namespace Coordinator

variable {c : Coordinator} {key k : Key} {query : VisionQuery} {snapshot : Snapshot}
  {service : Service} {screenshot : Screenshot} {entry : Key × VisionQuery}
  {keys rest : List (Key × VisionQuery)} {past : List Event}

/-! ### The vision criteria of a list -/

/-- Vision criteria come in the order of a visit. -/
theorem wanted_sublist (parent : Key) (cs : List Criteria) :
    ((wanted parent cs).map Prod.fst).Sublist ((Criteria.withKeys parent cs).map Prod.fst) := by
  unfold wanted
  induction Criteria.withKeys parent cs with
  | nil => exact .slnil
  | cons entry rest ih =>
    rw [List.filterMap_cons]
    cases query? entry.2 with
    | none => exact ih.cons _
    | some query => exact ih.cons_cons _

theorem nodup_wanted (parent : Key) (cs : List Criteria) :
    ((wanted parent cs).map Prod.fst).Nodup :=
  (Criteria.nodup_withKeys parent cs).sublist (wanted_sublist parent cs)

/-- What is wanted is the vision criteria of the list, by their places. -/
theorem mem_wanted_iff_lookup {parent : Key} {cs : List Criteria} :
    (key, query) ∈ wanted parent cs ↔
    ∃ place criteria, Criteria.lookup? cs place = some criteria ∧ query? criteria = some query ∧
      parent.along place = key := by
  rw [mem_wanted_iff]
  constructor
  · rintro ⟨criteria, hmem, hq⟩
    obtain ⟨place, hfind, hplace⟩ := Criteria.mem_withKeys_iff.mp hmem
    exact ⟨place, criteria, hfind, hq, hplace⟩
  · rintro ⟨place, criteria, hfind, hq, hplace⟩
    exact ⟨criteria, Criteria.mem_withKeys_iff.mpr ⟨place, hfind, hplace⟩, hq⟩

/-! ### Turns -/

/-- A key **lacks a request** if it has none, or one without a reply, or one that brought
nothing. -/
def Lacks (c : Coordinator) (key : Key) : Prop :=
  c.index? key = none ∨ ∃ index, c.index? key = some index ∧
    (c.replies.get? index = none ∨ c.replies.get? index = some .notMatched ∨
      ∃ reason, c.replies.get? index = some (.failed reason))

/-- The check that the preparation makes is whether a key lacks a request. -/
theorem needsRequest_iff : c.needsRequest key = true ↔ c.Lacks key := by
  unfold needsRequest Lacks
  cases c.index? key with
  | none => simp
  | some index =>
    rcases hget : c.replies.get? index with _ | reply
    · simp [hget]
    · cases reply <;> simp [hget]

instance (c : Coordinator) (key : Key) : Decidable (c.Lacks key) :=
  decidable_of_iff _ needsRequest_iff

/-- The request of a key may still bring something, or has done so. -/
theorem not_lacks_iff : ¬ c.Lacks key ↔
    c.reply key = some .pending ∨ c.reply key = some .matched := by
  rw [← needsRequest_iff, needsRequest, reply]
  cases c.index? key with
  | none => simp
  | some index =>
    rcases hget : c.replies.get? index with _ | reply
    · simp [hget]
    · cases reply <;> simp [hget]

/-- The coordinator after a key has had its **turn**. -/
def turn (snapshot : Snapshot) (c : Coordinator) (entry : Key × VisionQuery) : Coordinator :=
  if c.Lacks entry.1 then (c.submit entry.1 entry.2 snapshot).1 else c

/-- Keys, each with the coordinator that it finds when its turn comes. -/
def turns (snapshot : Snapshot) :
    Coordinator → List (Key × VisionQuery) → List (Coordinator × Key × VisionQuery)
  | _, [] => []
  | c, entry :: rest => (c, entry) :: turns snapshot (turn snapshot c entry) rest

/-- The turns of the keys that are **asked for**. -/
def asked (snapshot : Snapshot) (c : Coordinator) (keys : List (Key × VisionQuery)) :
    List (Coordinator × Key × VisionQuery) :=
  (turns snapshot c keys).filter fun t => t.1.Lacks t.2.1

/-- Every key has its turn. -/
theorem map_snd_turns (snapshot : Snapshot) (c : Coordinator) (keys : List (Key × VisionQuery)) :
    (turns snapshot c keys).map Prod.snd = keys := by
  induction keys generalizing c with
  | nil => rfl
  | cons entry rest ih => rw [turns, List.map_cons, ih]

/-- A key that lacks a request is asked for in its turn. -/
theorem turn_of_lacks (h : c.Lacks entry.1) (snapshot : Snapshot) :
    turn snapshot c entry = (c.submit entry.1 entry.2 snapshot).1 := if_pos h

/-- A key that lacks none is passed over in its turn. -/
theorem turn_of_not_lacks (h : ¬ c.Lacks entry.1) (snapshot : Snapshot) :
    turn snapshot c entry = c := if_neg h

/-- A key that lacks a request is asked for first. -/
theorem asked_cons_of_lacks (h : c.Lacks entry.1) (snapshot : Snapshot)
    (rest : List (Key × VisionQuery)) :
    asked snapshot c (entry :: rest) =
      (c, entry) :: asked snapshot (c.submit entry.1 entry.2 snapshot).1 rest := by
  rw [← turn_of_lacks h snapshot]
  exact List.filter_cons_of_pos (decide_eq_true h)

/-- A key that lacks none is not asked for. -/
theorem asked_cons_of_not_lacks (h : ¬ c.Lacks entry.1) (snapshot : Snapshot)
    (rest : List (Key × VisionQuery)) :
    asked snapshot c (entry :: rest) = asked snapshot c rest := by
  conv_rhs => rw [← turn_of_not_lacks h snapshot]
  exact List.filter_cons_of_neg (by simpa using h)

/-- **A preparation is one turn after another.** -/
theorem prepareKeys_eq (snapshot : Snapshot) (c : Coordinator) (keys : List (Key × VisionQuery)) :
    (prepareKeys snapshot c keys).1 = keys.foldl (turn snapshot) c := by
  induction keys generalizing c with
  | nil => rfl
  | cons entry rest ih =>
    unfold prepareKeys
    rw [List.foldl_cons, ← ih]
    by_cases h : c.Lacks entry.1
    · rw [if_pos (needsRequest_iff.mpr h), turn_of_lacks h]
    · rw [if_neg (mt needsRequest_iff.mp h), turn_of_not_lacks h]

/-! ### What one request changes -/

/-- **The reply that another key goes by** is only written by the service. -/
theorem Sound.get?_submit (h : Sound c past) (hs : c.service = some service)
    (hp : snapshot.screenshot = some screenshot) {index : UInt64} (hi : c.index? k = some index)
    (hk : key ≠ k) :
    (c.submit key query snapshot).1.replies.get? index =
      (c.replies.recordAll
        (service c.submitted (c.request query screenshot)).recorded).get? index := by
  have hmem : (k, index) ∈ c.outstanding := mem_of_index? hi
  have hne : c.nextIndex ≠ index := (UInt64.ne_of_lt (h.below _ hmem)).symm
  have hfailed : ∀ a ∈ (((service c.submitted (c.request query screenshot)).failure.map
      fun failure => (c.nextIndex, Reply.failed failure.1)).toList : List (UInt64 × Reply)),
        a.1 ≠ index := by
    intro a ha
    obtain ⟨failure, -, rfl⟩ := Option.map_eq_some_iff.mp (Option.mem_toList.mp ha)
    exact hne
  rw [submit_eq hs hp]
  change ((c.otherReplies key).recordAll
    (c.firstReplies service (c.request query screenshot))).get? index = _
  rw [firstReplies, Submission.answers, ← List.cons_append, Replies.recordAll_append,
    Replies.get?_recordAll_of_ne hfailed]
  -- what comes first is written under the new index, and what was erased is another key's
  change (((c.otherReplies key).record c.nextIndex .pending).recordAll _).get? index = _
  apply Replies.get?_recordAll_congr
  rw [Replies.get?_record, if_neg hne]
  exact h.get?_otherReplies hmem hk.symm

/-! ### Preparations -/

/-- The requests that are sent for keys. -/
def requests (screenshot : Screenshot) (snapshot : Snapshot) (c : Coordinator)
    (keys : List (Key × VisionQuery)) : List Request :=
  (asked snapshot c keys).map fun t => t.1.request t.2.2 screenshot

/-- What the service records by itself while requests are sent for keys. -/
def recordings (service : Service) (screenshot : Screenshot) (snapshot : Snapshot) (c : Coordinator)
    (keys : List (Key × VisionQuery)) : List (UInt64 × Reply) :=
  (asked snapshot c keys).flatMap fun t =>
    (service t.1.submitted (t.1.request t.2.2 screenshot)).recorded

/-- **What a preparation comes to.** -/
structure Prepared (service : Service) (screenshot : Screenshot) (snapshot : Snapshot)
    (c : Coordinator) (keys : List (Key × VisionQuery)) (after : Coordinator) : Prop where
  /-- There is one request for every key that was asked for, in their order. -/
  submitted : after.submitted = c.submitted ++ requests screenshot snapshot c keys
  /-- The indices of the requests follow one another. -/
  indices : (requests screenshot snapshot c keys).map Request.index =
    (List.range (requests screenshot snapshot c keys).length).map fun n => c.nextIndex + .ofNat n
  /-- Every key that was asked for goes by its new request. -/
  entered : (keys.map Prod.fst).Nodup →
    ∀ t ∈ asked snapshot c keys, after.index? t.2.1 = some t.1.nextIndex
  /-- Every other key goes by the request that it had, if any. -/
  kept : ∀ key, (∀ t ∈ asked snapshot c keys, t.2.1 ≠ key) → after.index? key = c.index? key
  /-- Whatever is written about the requests of the other keys is written by the service. -/
  untouched : ∀ past, Lives c past → after.submitted.length < UInt64.size →
    ∀ key index, (∀ t ∈ asked snapshot c keys, t.2.1 ≠ key) → c.index? key = some index →
      after.replies.get? index =
        (c.replies.recordAll (recordings service screenshot snapshot c keys)).get? index

theorem mem_of_mem_asked {t : Coordinator × Key × VisionQuery} (h : t ∈ asked snapshot c keys) :
    t.2 ∈ keys := by
  rw [← map_snd_turns snapshot c keys]
  exact List.mem_map_of_mem (List.mem_of_mem_filter h)

/-- Without keys, nothing happens. -/
theorem Prepared.nil : Prepared service screenshot snapshot c [] c where
  submitted := (List.append_nil _).symm
  indices := rfl
  entered := fun _ _ ht => absurd ht List.not_mem_nil
  kept := fun _ _ => rfl
  untouched := fun _ _ _ _ _ _ _ => rfl

/-- A key that lacks nothing is passed over. -/
theorem Prepared.cons_of_not_lacks {after : Coordinator} (hl : ¬ c.Lacks entry.1)
    (h : Prepared service screenshot snapshot c rest after) :
    Prepared service screenshot snapshot c (entry :: rest) after := by
  have hasked := asked_cons_of_not_lacks hl snapshot rest
  constructor
  case submitted => rw [requests, hasked]; exact h.submitted
  case indices => rw [requests, hasked]; exact h.indices
  case entered => rw [hasked]; exact fun hnodup => h.entered (List.nodup_cons.mp hnodup).2
  case kept => rw [hasked]; exact h.kept
  case untouched => rw [recordings, hasked]; exact h.untouched

/-- A key that lacks a request gets the next one. -/
theorem Prepared.cons_of_lacks {after : Coordinator} (hs : c.service = some service)
    (hp : snapshot.screenshot = some screenshot) (hl : c.Lacks entry.1)
    (h : Prepared service screenshot snapshot (c.submit entry.1 entry.2 snapshot).1 rest after) :
    Prepared service screenshot snapshot c (entry :: rest) after := by
  have hasked := asked_cons_of_lacks hl snapshot rest
  have hrequests : requests screenshot snapshot c (entry :: rest) =
      c.request entry.2 screenshot ::
        requests screenshot snapshot (c.submit entry.1 entry.2 snapshot).1 rest := by
    rw [requests, hasked]
    rfl
  have hrecordings : recordings service screenshot snapshot c (entry :: rest) =
      (service c.submitted (c.request entry.2 screenshot)).recorded ++
        recordings service screenshot snapshot (c.submit entry.1 entry.2 snapshot).1 rest := by
    rw [recordings, hasked]
    rfl
  have hsubmitted : (c.submit entry.1 entry.2 snapshot).1.submitted =
      c.submitted ++ [c.request entry.2 screenshot] := by
    rw [submit_eq hs hp]
  have hnext : (c.submit entry.1 entry.2 snapshot).1.nextIndex = c.nextIndex + 1 := by
    rw [submit_eq hs hp]
  have hindex : ∀ k, (c.submit entry.1 entry.2 snapshot).1.index? k =
      if entry.1 = k then some c.nextIndex else c.index? k := index?_submit hs hp
  constructor
  case submitted =>
    rw [h.submitted, hsubmitted, hrequests, List.append_assoc, List.singleton_append]
  case indices =>
    rw [hrequests, List.map_cons, h.indices, hnext, List.length_cons, List.range_succ_eq_map,
      List.map_cons, List.map_map]
    congr 1
    · exact (UInt64.add_zero _).symm
    · refine List.map_congr_left fun n _ => ?_
      change c.nextIndex + 1 + .ofNat n = c.nextIndex + .ofNat (n + 1)
      rw [UInt64.ofNat_add, UInt64.add_assoc, UInt64.add_comm 1]
      rfl
  case entered =>
    intro hnodup t ht
    obtain ⟨hnew, hnodup⟩ := List.nodup_cons.mp hnodup
    rw [hasked] at ht
    rcases List.mem_cons.mp ht with rfl | ht
    · -- the key does not come again
      rw [h.kept entry.1 fun t ht heq => hnew (heq ▸ List.mem_map_of_mem (mem_of_mem_asked ht)),
        hindex, if_pos rfl]
    · exact h.entered hnodup t ht
  case kept =>
    intro key hkey
    rw [hasked, List.forall_mem_cons] at hkey
    rw [h.kept key hkey.2, hindex, if_neg hkey.1]
  case untouched =>
    intro past hlives hn key index hkey hi
    rw [hasked, List.forall_mem_cons] at hkey
    -- the requests of now are among those of then, and so there are few enough
    have hsound : Sound c past := by
      apply hlives.sound
      rw [h.submitted, hsubmitted, List.length_append, List.length_append] at hn
      omega
    have hi' : (c.submit entry.1 entry.2 snapshot).1.index? key = some index := by
      rw [hindex, if_neg hkey.1]
      exact hi
    have hlives' := hlives.submit entry.1 entry.2 snapshot hs hp
    rw [h.untouched _ hlives' hn key index hkey.2 hi', hrecordings, Replies.recordAll_append]
    apply Replies.get?_recordAll_congr
    exact hsound.get?_submit hs hp hi hkey.1

/-- Sending a request leaves the service as it is. -/
theorem service_submit (key : Key) (query : VisionQuery) (hs : c.service = some service)
    (hp : snapshot.screenshot = some screenshot) :
    (c.submit key query snapshot).1.service = some service := by
  rw [submit_eq hs hp]
  exact hs

/-- **A preparation asks for what is missing**, key by key. -/
theorem prepareKeys_prepared (hp : snapshot.screenshot = some screenshot)
    (keys : List (Key × VisionQuery)) :
    ∀ {c : Coordinator}, c.service = some service →
      Prepared service screenshot snapshot c keys (prepareKeys snapshot c keys).1 := by
  induction keys with
  | nil => exact fun _ => .nil
  | cons entry rest ih =>
    intro c hs
    rw [prepareKeys_eq, List.foldl_cons, ← prepareKeys_eq]
    -- a key that lacks a request gets one in its turn
    by_cases hl : c.Lacks entry.1
    · rw [turn_of_lacks hl]
      exact .cons_of_lacks hs hp hl (ih (service_submit _ _ hs hp))
    · rw [turn_of_not_lacks hl]
      exact .cons_of_not_lacks hl (ih hs)

/-- Without a service or a screenshot nothing happens. -/
theorem prepareKeys_of_nothing (h : c.service = none ∨ snapshot.screenshot = none)
    (keys : List (Key × VisionQuery)) : (prepareKeys snapshot c keys).1 = c := by
  rw [prepareKeys_eq]
  induction keys with
  | nil => rfl
  | cons entry rest ih =>
    have hturn : turn snapshot c entry = c := by
      unfold turn
      rw [submit_of_nothing h, ite_self]
    rw [List.foldl_cons, hturn, ih]

/-! ### What is sent -/

/-- The turns on which a request **is sent**: it takes a service and a screenshot. -/
def served (snapshot : Snapshot) (c : Coordinator) (keys : List (Key × VisionQuery)) :
    List (Coordinator × Key × VisionQuery) :=
  match c.service, snapshot.screenshot with
  | some _, some _ => asked snapshot c keys
  | _, _ => []

/-- The requests that **are sent**, one on each of these turns. -/
def posted (snapshot : Snapshot) (c : Coordinator) (keys : List (Key × VisionQuery)) :
    List Request :=
  snapshot.screenshot.toList.flatMap fun screenshot =>
    (served snapshot c keys).map fun t => t.1.request t.2.2 screenshot

/-- What is sent was asked for. -/
theorem mem_asked_of_mem_served {t : Coordinator × Key × VisionQuery}
    (h : t ∈ served snapshot c keys) : t ∈ asked snapshot c keys := by
  unfold served at h
  split at h
  · exact h
  · cases h

/-- What is asked for lacks a request when its turn comes. -/
theorem lacks_of_mem_asked {t : Coordinator × Key × VisionQuery} (h : t ∈ asked snapshot c keys) :
    t.1.Lacks t.2.1 :=
  of_decide_eq_true (List.mem_filter.mp h).2

/-- **A preparation sends these requests**, and no others. -/
theorem submitted_prepareKeys (snapshot : Snapshot) (c : Coordinator)
    (keys : List (Key × VisionQuery)) :
    (prepareKeys snapshot c keys).1.submitted = c.submitted ++ posted snapshot c keys := by
  -- without a service or a screenshot nothing is asked for, and the coordinator stays as it is
  have hnothing : c.service = none ∨ snapshot.screenshot = none → posted snapshot c keys = [] →
      (prepareKeys snapshot c keys).1.submitted = c.submitted ++ posted snapshot c keys := by
    intro h hposted
    rw [prepareKeys_of_nothing h, hposted, List.append_nil]
  cases hp : snapshot.screenshot with
  | none =>
    refine hnothing (.inr hp) ?_
    unfold posted
    rw [hp]
    rfl
  | some screenshot =>
    cases hs : c.service with
    | none =>
      refine hnothing (.inl hs) ?_
      unfold posted served
      rw [hp, hs]
      rfl
    | some service =>
      have hposted : posted snapshot c keys = requests screenshot snapshot c keys := by
        unfold posted served
        rw [hp, hs]
        exact List.append_nil _
      rw [hposted]
      exact (prepareKeys_prepared hp keys hs).submitted

/-- A key that has a request keeps one. -/
theorem index?_turn_ne_none (hs : c.service = some service)
    (hp : snapshot.screenshot = some screenshot) (h : entry.1 = k ∨ c.index? k ≠ none) :
    (turn snapshot c entry).index? k ≠ none := by
  by_cases hl : c.Lacks entry.1
  · rw [turn_of_lacks hl, index?_submit hs hp]
    split
    · exact Option.some_ne_none _
    · next hne => exact h.resolve_left hne
  · -- a key that lacks nothing has got a request
    rw [turn_of_not_lacks hl]
    refine h.elim (fun hk hnone => hl (.inl ?_)) id
    rw [hk]
    exact hnone

/-- A turn leaves the service as it is. -/
theorem service_turn (hs : c.service = some service) (hp : snapshot.screenshot = some screenshot) :
    (turn snapshot c entry).service = some service := by
  by_cases hl : c.Lacks entry.1
  · rw [turn_of_lacks hl]
    exact service_submit _ _ hs hp
  · rw [turn_of_not_lacks hl]
    exact hs

/-- **A preparation leaves every key with a request.** -/
theorem index?_prepareKeys_ne_none (hp : snapshot.screenshot = some screenshot)
    (keys : List (Key × VisionQuery)) :
    ∀ {c : Coordinator}, c.service = some service →
      (∃ query, (k, query) ∈ keys) ∨ c.index? k ≠ none →
      (prepareKeys snapshot c keys).1.index? k ≠ none := by
  induction keys with
  | nil => exact fun _ h => h.resolve_left fun ⟨_, hmem⟩ => List.not_mem_nil hmem
  | cons entry rest ih =>
    intro c hs h
    -- a key that had a request before this turn, or gets one on it, keeps one
    rw [prepareKeys_eq, List.foldl_cons, ← prepareKeys_eq]
    refine ih (service_turn hs hp) ?_
    rcases h with ⟨query, hmem⟩ | h
    · rcases List.mem_cons.mp hmem with heq | hmem
      · exact .inr (index?_turn_ne_none hs hp (.inl (congrArg Prod.fst heq.symm)))
      · exact .inl ⟨query, hmem⟩
    · exact .inr (index?_turn_ne_none hs hp (.inr h))

end Coordinator

end Playtest.Vision
