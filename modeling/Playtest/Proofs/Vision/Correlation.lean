import Mathlib.Data.List.Pairwise
import Playtest.Vision.Coordinator

/-!
# Replies and the requests they belong to

The service writes its replies into a table by index, whenever it likes: in the middle of a tick,
after the request was sent again, or long after nobody wants to know any more. The main result,
`Coordinator.reply_is_latest`, is that none of this can mislead: what is seen through a key is the
reply that was last recorded for the latest request of that key, and nothing at all if that request
was abandoned.

What has happened is told by a list of events (`Event`), the last one first. From it one reads off

* `latest?`: the index of the latest request for a key that has not been abandoned since,
* `lastReply?`: the reply that was last recorded under an index.

`Coordinator.Lives` are the lives of a coordinator with the events in them. Between any two requests
of one and the same `Coordinator.prepare` there may be a reply, and so a life is not made of whole
preparations but of single requests (`Coordinator.submit`), sent for any key at any time.
Preparations are stretches of lives (`Lives.prepare`).

The invariant is `Coordinator.Sound`. Whatever is erased from the table is erased under the index of
an abandoned request, and that this never hits another request is due to the indices, which are all
different because they only go up. The counter is a machine word; this is where a life of fewer than
2^64 requests is needed.
-/

namespace Playtest.Vision

open Playtest.Scene

/-! ### The table -/

namespace Replies

variable {i j : UInt64} {reply : Reply}

/-- Erasing one entry leaves the others. -/
theorem get?_erase_of_ne (rs : Replies) (h : j ≠ i) : (rs.erase j).get? i = rs.get? i := by
  unfold get? erase
  rw [List.find?_filter]
  congr 2
  funext r
  by_cases hr : r.1 = i
  · -- an entry under `i` is none of those that were erased
    have hne : r.1 ≠ j := fun he => h (he.symm.trans hr)
    simp [hr, Ne.symm h]
  · simp [hr]

/-- What was recorded last is what is found. -/
theorem get?_record (rs : Replies) :
    (rs.record i reply).get? j = if i = j then some reply else rs.get? j := by
  unfold record
  by_cases h : i = j
  · rw [if_pos h, get?, List.find?_cons_of_pos (by simpa using h)]
    rfl
  · rw [if_neg h, ← get?_erase_of_ne rs h]
    rw [get?, List.find?_cons_of_neg (by simpa using h)]
    rfl

/-- Erasing several entries leaves all others. -/
theorem get?_foldl_erase {entries : List (Key × UInt64)} (h : ∀ e ∈ entries, e.2 ≠ i) :
    ∀ rs : Replies, (entries.foldl (fun (rs : Replies) e => rs.erase e.2) rs).get? i =
      rs.get? i := by
  induction entries with
  | nil => exact fun _ => rfl
  | cons e rest ih =>
    intro rs
    rw [List.forall_mem_cons] at h
    rw [List.foldl_cons, ih h.2, get?_erase_of_ne rs h.1]

end Replies

/-! ### What has happened -/

/-- What can **happen** to a coordinator and its table. -/
inductive Event where
  /-- A request was sent for a key. -/
  | sent (key : Key) (index : UInt64)
  | recorded (index : UInt64) (reply : Reply)
  /-- The requests under all keys that begin with a text were abandoned. -/
  | released (start : String)
  /-- All requests were abandoned. -/
  | reset

namespace Event

/-- Whether requests were abandoned. -/
def abandons : Event → Bool
  | released _ | reset => true
  | sent _ _ | recorded _ _ => false

/-- The replies in a list, put down one after another. -/
def recordings (answers : List (UInt64 × Reply)) : List Event :=
  (answers.map fun a => recorded a.1 a.2).reverse

end Event

/-- The index of the **latest request** for a key that has not been abandoned since. -/
def latest? (key : Key) : List Event → Option UInt64
  | [] => none
  | .sent k index :: past => if k = key then some index else latest? key past
  | .released start :: past => if Coordinator.beginsWith key start then none else latest? key past
  | .reset :: _ => none
  | .recorded _ _ :: past => latest? key past

/-- The reply that was **last recorded** under an index. -/
def lastReply? (index : UInt64) : List Event → Option Reply
  | [] => none
  | .recorded i reply :: past => if i = index then some reply else lastReply? index past
  | .sent _ _ :: past | .released _ :: past | .reset :: past => lastReply? index past

variable {past : List Event}

/-- Recording replies makes no request the latest one. -/
theorem latest?_recordings (key : Key) (answers : List (UInt64 × Reply)) :
    latest? key (Event.recordings answers ++ past) = latest? key past := by
  -- by the replies one by one, none of which is a request
  have h : ∀ events : List Event, (∀ e ∈ events, ∃ index reply, e = .recorded index reply) →
      latest? key (events ++ past) = latest? key past := by
    intro events
    induction events with
    | nil => exact fun _ => rfl
    | cons e rest ih =>
      intro hall
      rw [List.forall_mem_cons] at hall
      obtain ⟨⟨index, reply, rfl⟩, hrest⟩ := hall
      exact ih hrest
  refine h _ fun e he => ?_
  obtain ⟨a, -, rfl⟩ := List.mem_map.mp (List.mem_reverse.mp he)
  exact ⟨a.1, a.2, rfl⟩

/-- Of several recordings, the first one has come before the others. -/
theorem recordings_cons (a : UInt64 × Reply) (rest : List (UInt64 × Reply)) (past : List Event) :
    Event.recordings (a :: rest) ++ past =
      Event.recordings rest ++ (.recorded a.1 a.2 :: past) := by
  simp [Event.recordings]

/-- A table in which replies are recorded goes on telling what was recorded last. -/
theorem lastReply?_recordings {i : UInt64} (answers : List (UInt64 × Reply)) :
    ∀ (rs : Replies) (past : List Event), rs.get? i = lastReply? i past →
      (answers.foldl (fun (rs : Replies) a => rs.record a.1 a.2) rs).get? i =
        lastReply? i (Event.recordings answers ++ past) := by
  induction answers with
  | nil => exact fun _ _ h => h
  | cons a rest ih =>
    intro rs past h
    have hone : (rs.record a.1 a.2).get? i = lastReply? i (.recorded a.1 a.2 :: past) := by
      rw [Replies.get?_record, lastReply?, h]
    rw [List.foldl_cons, recordings_cons]
    exact ih _ _ hone

/-! ### Sending a request -/

/-- What a service **answers** at once to a request with an index: the replies that it records, and
a failed one if it could not take the request. -/
def Submission.answers (s : Submission) (index : UInt64) : List (UInt64 × Reply) :=
  s.recorded ++ (s.failure.map fun failure => (index, .failed failure.1)).toList

/-- A service that has taken a request answers with what it records. -/
theorem Submission.answers_of_taken {s : Submission} (h : s.failure = none) (index : UInt64) :
    s.answers index = s.recorded := by
  rw [answers, h]
  exact List.append_nil _

/-- A service that could not take a request answers with a failure in the end. -/
theorem Submission.answers_of_failure {s : Submission} {reason long : String}
    (h : s.failure = some (reason, long)) (index : UInt64) :
    s.answers index = s.recorded ++ [(index, .failed reason)] := by
  rw [answers, h]
  rfl

namespace Coordinator

variable {c : Coordinator} {key : Key} {query : VisionQuery} {snapshot : Snapshot}
  {service : Service} {screenshot : Screenshot} {start : String}

/-- The next request for a query. -/
def request (c : Coordinator) (query : VisionQuery) (screenshot : Screenshot) : Request :=
  (Request.of screenshot query.textQuery query.imageQuery query.withinRect query.threshold
    c.nextIndex).1

/-- The replies without the one to the earlier request of a key. -/
def otherReplies (c : Coordinator) (key : Key) : Replies :=
  match c.index? key with
  | some previous => c.replies.erase previous
  | none => c.replies

/-- The replies that are recorded when the next request is sent: it is pending at first. -/
def firstReplies (c : Coordinator) (service : Service) (request : Request) :
    List (UInt64 × Reply) :=
  (c.nextIndex, .pending) :: (service c.submitted request).answers c.nextIndex

/-- The events when the next request is sent for a key. -/
def sending (c : Coordinator) (service : Service) (key : Key) (request : Request) : List Event :=
  Event.recordings (c.firstReplies service request) ++ [.sent key c.nextIndex]

/-- **What sending a request does.** The key has got the next index, the entry of its earlier
request is erased, and everything else in the table is what was recorded. -/
theorem submit_eq (hs : c.service = some service) (hp : snapshot.screenshot = some screenshot) :
    (c.submit key query snapshot).1 =
      { c with
        nextIndex := c.nextIndex + 1
        outstanding := (key, c.nextIndex) :: c.outstanding.filter fun entry => entry.1 != key
        replies := (c.firstReplies service (c.request query screenshot)).foldl
          (fun (rs : Replies) r => rs.record r.1 r.2) (c.otherReplies key)
        submitted := c.submitted ++ [c.request query screenshot] } := by
  obtain ⟨_, replies, nextIndex, outstanding, submitted⟩ := c
  obtain rfl : _ = some service := hs
  unfold submit firstReplies request
  rw [hp]
  dsimp only
  rw [List.foldl_cons]
  -- whether the service has taken the request only matters for the last reply
  generalize service submitted _ = submission
  cases hf : submission.failure with
  | none =>
    rw [Submission.answers_of_taken hf]
    rfl
  | some failure =>
    rw [Submission.answers_of_failure hf, List.foldl_append]
    rfl

/-- Leaving out entries by their keys leaves the others where they are found. -/
theorem find?_filter_key (p : Key → Bool) (key : Key) (entries : List (Key × UInt64)) :
    (entries.filter fun e => p e.1).find? (fun e => e.1 == key) =
      if p key then entries.find? fun e => e.1 == key else none := by
  rw [List.find?_filter]
  split
  · next hp =>
    congr 1
    funext e
    by_cases he : e.1 = key
    · simp [he, hp]
    · simp [he]
  · next hp =>
    refine List.find?_eq_none.mpr fun e _ he => hp ?_
    obtain ⟨hpe, hkey⟩ : p e.1 = true ∧ e.1 = key := by simpa using he
    exact hkey ▸ hpe

/-- The key of the request is found under the next index, and every other key where it was. -/
theorem index?_submit (hs : c.service = some service) (hp : snapshot.screenshot = some screenshot)
    (k : Key) :
    (c.submit key query snapshot).1.index? k =
      if key = k then some c.nextIndex else c.index? k := by
  rw [submit_eq hs hp]
  unfold index?
  by_cases hk : key = k
  · rw [if_pos hk, List.find?_cons_of_pos (by simpa using hk)]
    rfl
  · rw [if_neg hk, List.find?_cons_of_neg (by simpa using hk),
      find?_filter_key (· != key) k, if_pos (by simpa using Ne.symm hk)]

/-- Without a service or a screenshot nothing is sent. -/
theorem submit_of_nothing (h : c.service = none ∨ snapshot.screenshot = none) :
    (c.submit key query snapshot).1 = c := by
  unfold submit
  rcases h with h | h
  · rw [h]
  · rw [h]
    cases c.service <;> rfl

/-- A request is sent, or nothing happens. -/
theorem submit_cases (c : Coordinator) (key : Key) (query : VisionQuery) (snapshot : Snapshot) :
    (∃ service screenshot, c.service = some service ∧ snapshot.screenshot = some screenshot) ∨
      (c.submit key query snapshot).1 = c := by
  cases hs : c.service with
  | none => exact .inr (submit_of_nothing (.inl hs))
  | some service =>
    cases hp : snapshot.screenshot with
    | none => exact .inr (submit_of_nothing (.inr hp))
    | some screenshot => exact .inl ⟨service, screenshot, rfl, rfl⟩

/-! ### Lives -/

/-- The **lives of a coordinator**, with the events in them. Replies may be recorded at any time,
for whatever index. -/
inductive Lives : Coordinator → List Event → Prop
  | of (service : Option Service) : Lives (.of service) []
  | submit {c : Coordinator} {past : List Event} (h : Lives c past) (key : Key)
      (query : VisionQuery) (snapshot : Snapshot) {service : Service} {screenshot : Screenshot}
      (hs : c.service = some service) (hp : snapshot.screenshot = some screenshot) :
      Lives (c.submit key query snapshot).1
        (c.sending service key (c.request query screenshot) ++ past)
  | record {c : Coordinator} {past : List Event} (h : Lives c past) (index : UInt64)
      (reply : Reply) :
      Lives (c.record index reply) (.recorded index reply :: past)
  | release {c : Coordinator} {past : List Event} (h : Lives c past) (start : String) :
      Lives (c.release start) (.released start :: past)
  | reset {c : Coordinator} {past : List Event} (h : Lives c past) : Lives c.reset (.reset :: past)

variable {past : List Event}

/-- Sending a request abandons none. -/
theorem sending_asks (service : Service) (request : Request) :
    ∀ e ∈ c.sending service key request, e.abandons = false := by
  intro e he
  rcases List.mem_append.mp he with he | he
  · obtain ⟨a, -, rfl⟩ := List.mem_map.mp (List.mem_reverse.mp he)
    rfl
  · rw [List.mem_singleton.mp he]
    rfl

/-- One key of a preparation, which may get a request or not. -/
theorem Lives.submit_any (h : Lives c past) (key : Key) (query : VisionQuery)
    (snapshot : Snapshot) :
    ∃ events, (∀ e ∈ events, e.abandons = false) ∧
      Lives (c.submit key query snapshot).1 (events ++ past) := by
  rcases submit_cases c key query snapshot with ⟨service, screenshot, hs, hp⟩ | heq
  · exact ⟨_, sending_asks service (c.request query screenshot), h.submit key query snapshot hs hp⟩
  · rw [heq]
    exact ⟨[], fun e he => absurd he List.not_mem_nil, h⟩

/-- Sending requests key by key is a stretch of a life, in which nothing is abandoned. -/
theorem Lives.prepareKeys (snapshot : Snapshot) (keys : List (Key × VisionQuery)) :
    ∀ {c : Coordinator} {past : List Event}, Lives c past →
      ∃ events, (∀ e ∈ events, e.abandons = false) ∧
        Lives (Coordinator.prepareKeys snapshot c keys).1 (events ++ past) := by
  induction keys with
  | nil =>
    intro c past h
    exact ⟨[], fun e he => absurd he List.not_mem_nil, h⟩
  | cons entry rest ih =>
    obtain ⟨key, query⟩ := entry
    intro c past h
    unfold Coordinator.prepareKeys
    split
    · -- a request is sent for it, and then those of the others
      obtain ⟨first, hfirst, hlives⟩ := h.submit_any key query snapshot
      obtain ⟨later, hlater, hlives⟩ := ih hlives
      refine ⟨later ++ first, List.forall_mem_append.mpr ⟨hlater, hfirst⟩, ?_⟩
      rw [List.append_assoc]
      exact hlives
    · -- otherwise this key is passed over
      exact ih h

/-- **A preparation is a stretch of a life**, in which nothing is abandoned. -/
theorem Lives.prepare (h : Lives c past) (parent : Key) (cs : List Criteria) (snapshot : Snapshot) :
    ∃ events, (∀ e ∈ events, e.abandons = false) ∧
      Lives (c.prepare parent cs snapshot).1 (events ++ past) :=
  Lives.prepareKeys snapshot (wanted parent cs) h

/-! ### The invariant -/

/-- **The invariant** of a life. -/
structure Sound (c : Coordinator) (past : List Event) : Prop where
  /-- The counter counts requests. -/
  next : c.nextIndex.toNat = c.submitted.length
  increasing : c.submitted.Pairwise fun r s => r.index < s.index
  sent : ∀ r ∈ c.submitted, r.index < c.nextIndex
  below : ∀ e ∈ c.outstanding, e.2 < c.nextIndex
  /-- No two keys have the same request. -/
  apart : c.outstanding.Pairwise fun d e => d.2 ≠ e.2
  latest : ∀ key, c.index? key = latest? key past
  replies : ∀ e ∈ c.outstanding, c.replies.get? e.2 = lastReply? e.2 past

/-- A key is found under the index of an outstanding request of its own. -/
theorem mem_of_index? {index : UInt64} (h : c.index? key = some index) :
    (key, index) ∈ c.outstanding := by
  obtain ⟨e, he, rfl⟩ := Option.map_eq_some_iff.mp h
  have hkey : e.1 = key := by simpa using List.find?_some he
  rw [← hkey]
  exact List.mem_of_find?_eq_some he

/-- No two entries have the same request. -/
theorem Sound.eq_of_index_eq (h : Sound c past) {d e : Key × UInt64} (hd : d ∈ c.outstanding)
    (he : e ∈ c.outstanding) (hi : d.2 = e.2) : d = e := by
  by_contra hne
  have hsymm : Std.Symm fun d e : Key × UInt64 => d.2 ≠ e.2 := ⟨fun _ _ h => h.symm⟩
  exact h.apart.forall hd he hne hi

/-- **What is seen through a key** is what was last recorded for its latest request. -/
theorem Sound.reply_eq (h : Sound c past) (key : Key) :
    c.reply key = (latest? key past).bind fun index => lastReply? index past := by
  unfold Coordinator.reply
  rw [← h.latest key]
  cases hi : c.index? key with
  | none => rfl
  | some index => exact h.replies _ (mem_of_index? hi)

/-- What is erased for a key is not what another key goes by. -/
theorem Sound.get?_otherReplies (h : Sound c past) {e : Key × UInt64} (he : e ∈ c.outstanding)
    (hkey : e.1 ≠ key) : (c.otherReplies key).get? e.2 = c.replies.get? e.2 := by
  unfold otherReplies
  split
  · next previous hprevious =>
    refine Replies.get?_erase_of_ne c.replies fun hi => hkey ?_
    exact congrArg Prod.fst (h.eq_of_index_eq he (mem_of_index? hprevious) hi.symm)
  · rfl

/-- **Sending a request keeps the invariant**, as long as the counter has room. -/
theorem Sound.submit (h : Sound c past) (hs : c.service = some service)
    (hp : snapshot.screenshot = some screenshot) (hn : c.submitted.length + 1 < UInt64.size) :
    Sound (c.submit key query snapshot).1
      (c.sending service key (c.request query screenshot) ++ past) := by
  rw [submit_eq hs hp]
  -- the counter does not wrap around, and so the next index is a new one
  have hnext : (c.nextIndex + 1).toNat = c.submitted.length + 1 := by
    rw [UInt64.toNat_add, h.next]
    exact Nat.mod_eq_of_lt hn
  have hlt : c.nextIndex < c.nextIndex + 1 := by
    rw [UInt64.lt_iff_toNat_lt, hnext, h.next]
    exact Nat.lt_succ_self _
  have hkept : ∀ e ∈ c.outstanding.filter fun entry => entry.1 != key,
      e ∈ c.outstanding ∧ e.1 ≠ key := by
    intro e he
    simpa using List.mem_filter.mp he
  have hevents : c.sending service key (c.request query screenshot) ++ past =
      Event.recordings (c.firstReplies service (c.request query screenshot)) ++
        (.sent key c.nextIndex :: past) := List.append_assoc ..
  rw [hevents]
  constructor
  case next =>
    dsimp only
    rw [hnext, List.length_append, List.length_singleton]
  case increasing =>
    refine List.pairwise_append.mpr ⟨h.increasing, List.pairwise_singleton .., fun r hr s hs => ?_⟩
    rw [List.mem_singleton.mp hs]
    exact h.sent r hr
  case sent =>
    refine List.forall_mem_append.mpr ⟨fun r hr => ?_, List.forall_mem_singleton.mpr hlt⟩
    exact UInt64.lt_trans (h.sent r hr) hlt
  case below =>
    refine List.forall_mem_cons.mpr ⟨hlt, fun e he => ?_⟩
    exact UInt64.lt_trans (h.below e (hkept e he).1) hlt
  case apart =>
    refine List.pairwise_cons.mpr ⟨fun e he => ?_, h.apart.sublist List.filter_sublist⟩
    exact (UInt64.ne_of_lt (h.below e (hkept e he).1)).symm
  case latest =>
    intro k
    rw [latest?_recordings, latest?, ← h.latest k, ← submit_eq hs hp, index?_submit hs hp]
  case replies =>
    dsimp only
    rw [firstReplies, recordings_cons, List.foldl_cons]
    refine List.forall_mem_cons.mpr ⟨?_, fun e he => ?_⟩
    · -- the new entry is pending, whatever there may have been under its index
      refine lastReply?_recordings _ _ _ ?_
      rw [Replies.get?_record, lastReply?, if_pos rfl, if_pos rfl]
    · obtain ⟨hmem, hkey⟩ := hkept e he
      have hne : c.nextIndex ≠ e.2 := (UInt64.ne_of_lt (h.below e hmem)).symm
      refine lastReply?_recordings _ _ _ ?_
      rw [Replies.get?_record, lastReply?, if_neg hne, if_neg hne, lastReply?, ← h.replies e hmem]
      -- the entry that is erased is the one of another key
      exact h.get?_otherReplies hmem hkey

/-- Recording a reply keeps the invariant. -/
theorem Sound.record (h : Sound c past) (index : UInt64) (reply : Reply) :
    Sound (c.record index reply) (.recorded index reply :: past) := by
  refine { h with latest := h.latest, replies := fun e he => ?_ }
  change (c.replies.record index reply).get? e.2 = _
  rw [Replies.get?_record, lastReply?, h.replies e he]

/-- Abandoning requests keeps the invariant. -/
theorem Sound.release (h : Sound c past) (start : String) :
    Sound (c.release start) (.released start :: past) := by
  have hkept : ∀ e ∈ c.outstanding.filter fun entry => !beginsWith entry.1 start,
      e ∈ c.outstanding ∧ beginsWith e.1 start = false := by
    intro e he
    simpa using List.mem_filter.mp he
  constructor
  case next => exact h.next
  case increasing => exact h.increasing
  case sent => exact h.sent
  case below => exact fun e he => h.below e (hkept e he).1
  case apart => exact h.apart.sublist List.filter_sublist
  case latest =>
    intro key
    rw [latest?, ← h.latest key]
    unfold index? Coordinator.release
    dsimp only
    rw [find?_filter_key (fun k => !beginsWith k start)]
    cases beginsWith key start <;> rfl
  case replies =>
    intro e he
    obtain ⟨hmem, hstart⟩ := hkept e he
    rw [lastReply?, ← h.replies e hmem]
    -- no other request has its index, and so the entry is none of those that are erased
    refine Replies.get?_foldl_erase (fun d hd hi => ?_) c.replies
    obtain ⟨hd, hdstart⟩ := List.mem_filter.mp hd
    rw [h.eq_of_index_eq hd hmem hi, hstart] at hdstart
    exact Bool.false_ne_true hdstart

/-- Abandoning all requests keeps the invariant. -/
theorem Sound.reset (h : Sound c past) : Sound c.reset (.reset :: past) where
  next := h.next
  increasing := h.increasing
  sent := h.sent
  below := fun _ he => absurd he List.not_mem_nil
  apart := .nil
  latest := fun _ => rfl
  replies := fun _ he => absurd he List.not_mem_nil

/-- A coordinator that was just made is sound. -/
theorem Sound.of (service : Option Service) : Sound (.of service) [] where
  next := rfl
  increasing := .nil
  sent := fun _ hr => absurd hr List.not_mem_nil
  below := fun _ he => absurd he List.not_mem_nil
  apart := .nil
  latest := fun _ => rfl
  replies := fun _ he => absurd he List.not_mem_nil

/-- Sending a request makes one request more. -/
theorem length_submitted_submit (hs : c.service = some service)
    (hp : snapshot.screenshot = some screenshot) :
    (c.submit key query snapshot).1.submitted.length = c.submitted.length + 1 := by
  rw [submit_eq hs hp]
  exact List.length_append ..

/-- **A life of fewer than 2^64 requests is sound.** -/
theorem Lives.sound (h : Lives c past) (hn : c.submitted.length < UInt64.size) : Sound c past := by
  induction h with
  | of service => exact .of service
  | submit h key query snapshot hs hp ih =>
    rw [length_submitted_submit hs hp] at hn
    exact (ih (Nat.lt_of_succ_lt hn)).submit hs hp hn
  | record h index reply ih => exact (ih hn).record index reply
  | release h start ih => exact (ih hn).release start
  | reset h ih => exact (ih hn).reset

/-- **Replies belong to the latest request.** In every life of a coordinator of fewer than 2^64
requests,

* the indices of all requests increase, from the first one to the last,
* no two keys have the same outstanding request, and the counter is above all of them,
* what is seen through a key is the reply that was last recorded for its latest request, and nothing
  if it has none that was not abandoned since,
* a reply to a request that no key has any more changes nothing that is seen.

Preparations are stretches of such lives. -/
theorem reply_is_latest (h : Lives c past) (hn : c.submitted.length < UInt64.size) :
    (c.submitted.map Request.index).Pairwise (· < ·) ∧
      c.outstanding.Pairwise (fun d e => d.2 ≠ e.2) ∧ (∀ e ∈ c.outstanding, e.2 < c.nextIndex) ∧
      (∀ key, c.reply key = (latest? key past).bind fun index => lastReply? index past) ∧
      (∀ index reply, (∀ key, latest? key past ≠ some index) →
        ∀ key, (c.record index reply).reply key = c.reply key) ∧
      ∀ parent cs snapshot, ∃ events, (∀ e ∈ events, e.abandons = false) ∧
        Lives (c.prepare parent cs snapshot).1 (events ++ past) := by
  have hs := h.sound hn
  refine ⟨List.pairwise_map.mpr hs.increasing, hs.apart, hs.below, hs.reply_eq, ?_, h.prepare⟩
  -- a reply to another request than the latest is not seen through a key
  intro index reply hnone key
  rw [(hs.record index reply).reply_eq key, hs.reply_eq key, latest?]
  cases hl : latest? key past with
  | none => rfl
  | some i =>
    have hne : index ≠ i := fun hi => hnone key (hi ▸ hl)
    rw [Option.bind_some, Option.bind_some, lastReply?, if_neg hne]

/-- A service that takes every request and keeps silent. -/
def silent : Service := fun _ _ => ⟨[], none⟩

/-- A frame with a screenshot of one black pixel. -/
def pixel : Snapshot := { Snapshot.empty with screenshot := some ⟨1, 1, [0, 0, 0]⟩ }

/-- A coordinator that has sent a request twice, because the first one brought nothing. -/
def sentTwice : Coordinator :=
  let query : VisionQuery := ⟨some "Play", none, none, 0.5⟩
  let first := ((Coordinator.of (some silent)).submit "1/end.0" query pixel).1
  ((first.record 0 .notMatched).submit "1/end.0" query pixel).1

/-- It has come to be by a life of two requests. -/
theorem sentTwice_lives :
    Lives sentTwice [.recorded 1 .pending, .sent "1/end.0" 1, .recorded 0 .notMatched,
      .recorded 0 .pending, .sent "1/end.0" 0] := by
  have first := (Lives.of (some silent)).submit "1/end.0" ⟨some "Play", none, none, 0.5⟩ pixel
    rfl rfl
  exact (first.record 0 .notMatched).submit "1/end.0" ⟨some "Play", none, none, 0.5⟩ pixel rfl rfl

/-- The service finds after all what the first request was about. That is put down in the table, and
nobody sees it. -/
theorem late_reply_is_not_seen :
    sentTwice.submitted.map Request.index = [0, 1] ∧
      (sentTwice.record 0 .matched).replies.get? 0 = some .matched ∧
        (sentTwice.record 0 .matched).reply "1/end.0" = some .pending := by
  obtain ⟨-, -, -, hreply, hlate, -⟩ := reply_is_latest sentTwice_lives (by decide +kernel)
  have habandoned : ∀ key, latest? key [.recorded 1 .pending, .sent "1/end.0" 1,
      .recorded 0 .notMatched, .recorded 0 .pending, .sent "1/end.0" 0] ≠ some 0 := by
    intro key
    by_cases hk : "1/end.0" = key <;> simp [latest?, hk]
  refine ⟨by decide +kernel, by decide +kernel, ?_⟩
  rw [hlate 0 .matched habandoned, hreply]
  rfl

end Coordinator

end Playtest.Vision
