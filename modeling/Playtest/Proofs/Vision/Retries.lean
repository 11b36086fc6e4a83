import Playtest.Proofs.Vision.Preparation

/-!
# Asking again

A key is asked for again and again until its request brings something. Over a whole life this must
neither pile up requests nor repeat what has been found: the main result,
`Coordinator.asks_for_what_is_missing`, says what each preparation sends (`Coordinator.Prepared`),
and that therefore

* no key ever waits for two answers at a time (`Coordinator.Serves.eq_of_waits`),
* a key that was found is not asked for again until it is abandoned or its reply is replaced
  (`Coordinator.Serves.not_asked_again`). Nobody but the service replaces it, and it may: a reply
  that was taken back is one to ask for again (`Coordinator.not_final`).

`Coordinator.Serves` are the stretches of a life in which requests are only sent for keys that lack
one. Preparations are such stretches (`Serves.prepare`), and as in all lives there may be replies
between any two requests.
-/

namespace Playtest.Vision

open Playtest.Scene

/-! ### Waiting and being found -/

/-- A request for a key **waits** under an index: it was sent and not abandoned, and nothing but
that it is pending was recorded for it since. -/
def Waits (key : Key) (index : UInt64) : List Event → Prop
  | [] => False
  | .sent k i :: past => k = key ∧ i = index ∨ Waits key index past
  | .recorded i reply :: past => (i = index → reply = .pending) ∧ Waits key index past
  | .released start :: past => Coordinator.beginsWith key start = false ∧ Waits key index past
  | .reset :: _ => False

namespace Event

/-- Whether the requests of a key are **abandoned**. -/
def Drops (key : Key) : Event → Prop
  | released start => Coordinator.beginsWith key start = true
  | reset => True
  | sent _ _ | recorded _ _ => False

/-- Whether another reply is put in the **place of a match** under an index. -/
def Replaces (index : UInt64) : Event → Prop
  | recorded i reply => i = index ∧ reply ≠ .matched
  | sent _ _ | released _ | reset => False

end Event

variable {key : Key} {index : UInt64} {reply : Reply} {past : List Event}

/-- A request goes on waiting as long as nothing but that it is pending is recorded for it. -/
theorem waits_recordings_iff (answers : List (UInt64 × Reply)) :
    Waits key index (Event.recordings answers ++ past) ↔
    (∀ a ∈ answers, a.1 = index → a.2 = .pending) ∧ Waits key index past := by
  induction answers generalizing past with
  | nil => exact (and_iff_right fun _ ha => absurd ha List.not_mem_nil).symm
  | cons a rest ih =>
    rw [recordings_cons, ih, List.forall_mem_cons, Waits]
    tauto

/-- If one and the same reply is recorded under an index each time, then that is the last one. -/
theorem lastReply?_recordings_of_same {answers : List (UInt64 × Reply)}
    (hsame : ∀ a ∈ answers, a.1 = index → a.2 = reply)
    (h : lastReply? index past = some reply ∨ ∃ a ∈ answers, a.1 = index) :
    lastReply? index (Event.recordings answers ++ past) = some reply := by
  induction answers generalizing past with
  | nil =>
    refine h.resolve_right ?_
    rintro ⟨a, ha, -⟩
    exact List.not_mem_nil ha
  | cons a rest ih =>
    rw [List.forall_mem_cons] at hsame
    rw [recordings_cons]
    refine ih hsame.2 ?_
    by_cases ha : a.1 = index
    · -- the reply is there from now on
      exact .inl (by rw [lastReply?, if_pos ha, hsame.1 ha])
    · rw [lastReply?, if_neg ha]
      refine h.imp_right ?_
      rintro ⟨b, hb, hi⟩
      exact ⟨b, (List.mem_cons.mp hb).resolve_left fun heq => ha (heq ▸ hi), hi⟩

namespace Coordinator

variable {c c₀ : Coordinator} {events : List Event} {service : Service} {snapshot : Snapshot}
  {screenshot : Screenshot}

/-! ### Stretches of lives -/

/-- The coordinators that one comes to by sending requests **for keys that lack one**, and by
recording and abandoning whatever there is. -/
inductive Serves (c₀ : Coordinator) : Coordinator → List Event → Prop
  | refl : Serves c₀ c₀ []
  | ask {c : Coordinator} {events : List Event} (h : Serves c₀ c events) {key : Key}
      (query : VisionQuery) {snapshot : Snapshot} {service : Service} {screenshot : Screenshot}
      (hs : c.service = some service) (hp : snapshot.screenshot = some screenshot)
      (hl : c.Lacks key) :
      Serves c₀ (c.submit key query snapshot).1
        (c.sending service key (c.request query screenshot) ++ events)
  | record {c : Coordinator} {events : List Event} (h : Serves c₀ c events) (index : UInt64)
      (reply : Reply) :
      Serves c₀ (c.record index reply) (.recorded index reply :: events)
  | release {c : Coordinator} {events : List Event} (h : Serves c₀ c events) (start : String) :
      Serves c₀ (c.release start) (.released start :: events)
  | reset {c : Coordinator} {events : List Event} (h : Serves c₀ c events) :
      Serves c₀ c.reset (.reset :: events)

/-- No request is taken back. -/
theorem Serves.length_le (h : Serves c₀ c events) : c₀.submitted.length ≤ c.submitted.length := by
  induction h with
  | refl => exact Nat.le_refl _
  | ask h query hs hp hl ih =>
    rw [length_submitted_submit hs hp]
    exact Nat.le_succ_of_le ih
  | record h index reply ih => exact ih
  | release h start ih => exact ih
  | reset h ih => exact ih

/-- Such a stretch behind a life is a life. -/
theorem Serves.lives (h : Serves c₀ c events) (h₀ : Lives c₀ past) : Lives c (events ++ past) := by
  induction h with
  | refl => exact h₀
  | ask h query hs hp hl ih =>
    rw [List.append_assoc]
    exact ih.submit _ query _ hs hp
  | record h index reply ih => exact ih.record index reply
  | release h start ih => exact ih.release start
  | reset h ih => exact ih.reset

/-- A turn sends a request, or nothing happens. -/
theorem Serves.turn (h : Serves c₀ c events) (snapshot : Snapshot) (entry : Key × VisionQuery) :
    ∃ more, (∀ e ∈ more, e.abandons = false) ∧
      Serves c₀ (Coordinator.turn snapshot c entry) (more ++ events) := by
  by_cases hl : c.Lacks entry.1
  · rw [turn_of_lacks hl]
    rcases submit_cases c entry.1 entry.2 snapshot with ⟨service, screenshot, hs, hp⟩ | heq
    · exact ⟨_, sending_asks service (c.request entry.2 screenshot), h.ask entry.2 hs hp hl⟩
    · rw [heq]
      exact ⟨[], fun e he => absurd he List.not_mem_nil, h⟩
  · rw [turn_of_not_lacks hl]
    exact ⟨[], fun e he => absurd he List.not_mem_nil, h⟩

/-- **A preparation only asks for keys that lack a request.** -/
theorem Serves.prepare (h : Serves c₀ c events) (parent : Key) (cs : List Criteria)
    (snapshot : Snapshot) :
    ∃ more, (∀ e ∈ more, e.abandons = false) ∧
      Serves c₀ (c.prepare parent cs snapshot).1 (more ++ events) := by
  unfold Coordinator.prepare
  rw [prepareKeys_eq]
  generalize wanted parent cs = keys
  induction keys generalizing c events with
  | nil => exact ⟨[], fun e he => absurd he List.not_mem_nil, h⟩
  | cons entry rest ih =>
    -- one turn after another, and what was sent last is written down first
    obtain ⟨first, hfirst, hserves⟩ := h.turn snapshot entry
    obtain ⟨later, hlater, hserves⟩ := ih hserves
    refine ⟨later ++ first, List.forall_mem_append.mpr ⟨hlater, hfirst⟩, ?_⟩
    rw [List.append_assoc]
    exact hserves

/-- A key whose latest request has a reply that is pending or a match lacks nothing. -/
theorem Sound.not_lacks (h : Sound c past) (hl : latest? key past = some index)
    (hr : lastReply? index past = some .pending ∨ lastReply? index past = some .matched) :
      ¬ c.Lacks key := by
  rw [not_lacks_iff, h.reply_eq key, hl]
  exact hr

/-! ### One answer at a time -/

variable {given : Option Service}

/-- **What waits is the latest request** of its key, and it is pending. -/
theorem Serves.latest_of_waits (h : Serves (.of given) c events)
    (hn : c.submitted.length < UInt64.size) (hw : Waits key index events) :
    latest? key events = some index ∧ lastReply? index events = some .pending := by
  -- along the life; only sending and recording can touch what waits
  induction h with
  | refl => exact hw.elim
  | @ask c events h k query snapshot service screenshot hs hp hl ih =>
    rw [length_submitted_submit hs hp] at hn
    have hlives := h.lives (.of given)
    rw [List.append_nil] at hlives
    rw [sending, List.append_assoc, waits_recordings_iff] at hw
    obtain ⟨hpending, ⟨rfl, rfl⟩ | hw⟩ := hw
    · -- the new request is pending from the first
      rw [sending, List.append_assoc, latest?_recordings]
      exact ⟨if_pos rfl, lastReply?_recordings_of_same hpending (.inr ⟨_, List.mem_cons_self, rfl⟩)⟩
    · obtain ⟨hlatest, hlast⟩ := ih (Nat.lt_of_succ_lt hn) hw
      -- a key that waits is not asked for
      have hne : k ≠ key := by
        rintro rfl
        exact (hlives.sound (Nat.lt_of_succ_lt hn)).not_lacks hlatest (.inl hlast) hl
      rw [sending, List.append_assoc, latest?_recordings]
      exact ⟨(if_neg hne).trans hlatest, lastReply?_recordings_of_same hpending (.inl hlast)⟩
  | record h i reply ih =>
    obtain ⟨hpending, hw⟩ := hw
    obtain ⟨hlatest, hlast⟩ := ih hn hw
    refine ⟨hlatest, ?_⟩
    rw [lastReply?]
    split
    · next hi => rw [hpending hi]
    · exact hlast
  | release h start ih =>
    obtain ⟨hstart, hw⟩ := hw
    obtain ⟨hlatest, hlast⟩ := ih hn hw
    refine ⟨?_, hlast⟩
    rw [latest?, hstart]
    exact hlatest
  | reset h ih => exact hw.elim

/-- **No key waits for two answers at a time.** -/
theorem Serves.eq_of_waits {j : UInt64} (h : Serves (.of given) c events)
    (hn : c.submitted.length < UInt64.size) (hi : Waits key index events)
    (hj : Waits key j events) : index = j :=
  Option.some.inj ((h.latest_of_waits hn hi).1.symm.trans (h.latest_of_waits hn hj).1)

/-! ### What was found -/

/-- What is put down one after another is among the events. -/
theorem mem_recordings {answers : List (UInt64 × Reply)} {a : UInt64 × Reply} (h : a ∈ answers) :
    Event.recorded a.1 a.2 ∈ Event.recordings answers :=
  List.mem_reverse.mpr (List.mem_map_of_mem h)

/-- **A key that was found is not asked for again** until it is abandoned or its match is replaced,
and it stays found. -/
theorem Serves.not_asked_again (h : Serves c₀ c events) (h₀ : Lives c₀ past)
    (hn : c.submitted.length < UInt64.size) (hl : latest? key past = some index)
    (hr : lastReply? index past = some .matched)
    (hkeep : ∀ e ∈ events, ¬ e.Drops key ∧ ¬ e.Replaces index) :
    (∀ i, Event.sent key i ∉ events) ∧
      latest? key (events ++ past) = some index ∧
        lastReply? index (events ++ past) = some .matched := by
  -- along the stretch; the match is there all the time
  induction h with
  | refl => exact ⟨fun _ => List.not_mem_nil, hl, hr⟩
  | @ask c events h k query snapshot service screenshot hs hp hlacks ih =>
    rw [length_submitted_submit hs hp] at hn
    have hsound := (h.lives h₀).sound (Nat.lt_of_succ_lt hn)
    obtain ⟨hnever, hlatest, hlast⟩ :=
      ih (Nat.lt_of_succ_lt hn) fun e he => hkeep e (List.mem_append_right _ he)
    have hne : k ≠ key := by
      rintro rfl
      exact hsound.not_lacks hlatest (.inr hlast) hlacks
    -- the service may well write about the match, if only to say the same
    have hsame : ∀ a ∈ c.firstReplies service (c.request query screenshot),
        a.1 = index → a.2 = .matched := by
      intro a ha hi
      by_contra hother
      have hmem : Event.recorded a.1 a.2 ∈
          c.sending service k (c.request query screenshot) ++ events :=
        List.mem_append_left _ (List.mem_append_left _ (mem_recordings ha))
      exact (hkeep _ hmem).2 ⟨hi, hother⟩
    refine ⟨fun i hi => ?_, ?_⟩
    · rw [sending, List.append_assoc] at hi
      rcases List.mem_append.mp hi with hi | hi
      · obtain ⟨a, -, heq⟩ := List.mem_map.mp (List.mem_reverse.mp hi)
        cases heq
      · rcases List.mem_cons.mp hi with heq | hi
        · cases heq
          exact hne rfl
        · exact hnever i hi
    · rw [sending, List.append_assoc, List.append_assoc, latest?_recordings]
      exact ⟨(if_neg hne).trans hlatest, lastReply?_recordings_of_same hsame (.inl hlast)⟩
  | record h i reply ih =>
    rw [List.forall_mem_cons] at hkeep
    obtain ⟨hnever, hlatest, hlast⟩ := ih hn hkeep.2
    refine ⟨fun j hj => hnever j ((List.mem_cons.mp hj).resolve_left fun heq => by cases heq),
      hlatest, ?_⟩
    rw [List.cons_append, lastReply?]
    split
    · next hi =>
      by_contra hother
      exact hkeep.1.2 ⟨hi, fun heq => hother (congrArg some heq)⟩
    · exact hlast
  | release h start ih =>
    rw [List.forall_mem_cons] at hkeep
    obtain ⟨hnever, hlatest, hlast⟩ := ih hn hkeep.2
    refine ⟨fun j hj => hnever j ((List.mem_cons.mp hj).resolve_left fun heq => by cases heq), ?_,
      hlast⟩
    have hstart : ¬ beginsWith key start = true := hkeep.1.1
    rw [List.cons_append, latest?, if_neg hstart]
    exact hlatest
  | reset h ih => exact absurd trivial (List.forall_mem_cons.mp hkeep).1.1

/-- A key that is seen to be found stays found, as long as it is kept. -/
theorem Serves.stays_found (h : Serves c₀ c events) (h₀ : Lives c₀ past)
    (hn : c.submitted.length < UInt64.size) (hi : c₀.index? key = some index)
    (hget : c₀.replies.get? index = some .matched)
    (hkeep : ∀ e ∈ events, ¬ e.Drops key ∧ ¬ e.Replaces index) :
    (∀ i, Event.sent key i ∉ events) ∧ c.reply key = some .matched := by
  have hsound₀ := h₀.sound (Nat.lt_of_le_of_lt h.length_le hn)
  have hlatest : latest? key past = some index := (hsound₀.latest key).symm.trans hi
  have hlast : lastReply? index past = some .matched :=
    (hsound₀.replies _ (mem_of_index? hi)).symm.trans hget
  obtain ⟨hnever, hlatest, hlast⟩ := h.not_asked_again h₀ hn hlatest hlast hkeep
  refine ⟨hnever, ?_⟩
  rw [((h.lives h₀).sound hn).reply_eq key, hlatest]
  exact hlast

/-- **Preparations ask for what is missing.** With a service and a screenshot,

* the vision criteria of the list have one turn each, in the order of a visit, and each under a key
  of its own,
* the keys that lack a request when their turn comes get one, one after another, and the other keys
  keep theirs. In a life of fewer than 2^64 requests nobody but the service writes about these
  (`Prepared`). A key lacks none if its reply is pending or a match.

Without a service or without a screenshot nothing changes. In every life of fewer than 2^64 requests
that are sent in this way, whatever is recorded or abandoned between any two of them,

* no key waits for two answers at a time,
* a key that was found is not asked for again and stays found, until it is abandoned or its match is
  replaced.

Preparations are stretches of such lives. -/
theorem asks_for_what_is_missing :
    (∀ parent cs, ((wanted parent cs).map Prod.fst).Nodup ∧
      ((wanted parent cs).map Prod.fst).Sublist ((Criteria.withKeys parent cs).map Prod.fst) ∧
      ∀ key query, (key, query) ∈ wanted parent cs ↔
        ∃ place criteria, Criteria.lookup? cs place = some criteria ∧ query? criteria = some query ∧
          parent.along place = key) ∧
    (∀ (c : Coordinator) key, ¬ c.Lacks key ↔
      c.reply key = some .pending ∨ c.reply key = some .matched) ∧
    (∀ (c : Coordinator) service snapshot screenshot parent cs, c.service = some service →
      snapshot.screenshot = some screenshot →
        (turns snapshot c (wanted parent cs)).map Prod.snd = wanted parent cs ∧
          Prepared service screenshot snapshot c (wanted parent cs)
            (c.prepare parent cs snapshot).1) ∧
    (∀ (c : Coordinator) snapshot parent cs, c.service = none ∨ snapshot.screenshot = none →
      (c.prepare parent cs snapshot).1 = c) ∧
    (∀ given c events, Serves (.of given) c events → c.submitted.length < UInt64.size →
      ∀ key i j, Waits key i events → Waits key j events → i = j) ∧
    (∀ c₀ past c events, Lives c₀ past → Serves c₀ c events → c.submitted.length < UInt64.size →
      ∀ key index, c₀.index? key = some index → c₀.replies.get? index = some .matched →
        (∀ e ∈ events, ¬ e.Drops key ∧ ¬ e.Replaces index) →
          (∀ i, Event.sent key i ∉ events) ∧ c.reply key = some .matched) ∧
    ∀ c₀ c events parent cs snapshot, Serves c₀ c events →
      ∃ more, (∀ e ∈ more, e.abandons = false) ∧
        Serves c₀ (c.prepare parent cs snapshot).1 (more ++ events) := by
  refine ⟨fun parent cs =>
      ⟨nodup_wanted parent cs, wanted_sublist parent cs, fun _ _ => mem_wanted_iff_lookup⟩,
    fun _ _ => not_lacks_iff, fun c service snapshot screenshot parent cs hs hp => ?_,
    fun c snapshot parent cs h => ?_,
    fun _ _ _ h hn _ _ _ hi hj => h.eq_of_waits hn hi hj,
    fun _ _ _ _ h₀ h hn _ _ hi hget hkeep => h.stays_found h₀ hn hi hget hkeep,
    fun _ _ _ parent cs snapshot h => h.prepare parent cs snapshot⟩
  · exact ⟨map_snd_turns snapshot c _, prepareKeys_prepared hp _ hs⟩
  · exact prepareKeys_of_nothing h _

/-! ### Matches that are taken back -/

/-- What a segment looks for while it waits for its end. -/
def playButton : List Criteria := [.single 1 false (.vision .text ⟨some "Play", none, none, 0.5⟩)]

/-- A coordinator whose only request was answered with a match. -/
def found : Coordinator :=
  (((Coordinator.of (some silent)).prepare "1/end" playButton pixel).1).record 0 .matched

/-- It has come to be by a life of one request. -/
theorem found_lives :
    Lives found [.recorded 0 .matched, .recorded 0 .pending, .sent "1/end.0" 0] := by
  have first := (Lives.of (some silent)).submit "1/end.0" ⟨some "Play", none, none, 0.5⟩ pixel
    rfl rfl
  exact first.record 0 .matched

/-- What the service says about another request leaves the match alone. -/
theorem found_stays_found : (found.record 7 .notMatched).reply "1/end.0" = some .matched := by
  obtain ⟨-, -, -, -, -, hfound, -⟩ := asks_for_what_is_missing
  have hkeep : ∀ e ∈ [Event.recorded 7 .notMatched], ¬ e.Drops "1/end.0" ∧ ¬ e.Replaces 0 := by
    simp [Event.Drops, Event.Replaces]
  have hserves : Serves found (found.record 7 .notMatched) [.recorded 7 .notMatched] :=
    Serves.refl.record 7 .notMatched
  exact (hfound found _ _ _ found_lives hserves (by decide +kernel) "1/end.0" 0 (by decide +kernel)
    (by decide +kernel) hkeep).2

/-- The service takes the match back, and the key is asked for again although nobody has abandoned
it. -/
theorem found_serves :
    Serves found ((found.record 0 .notMatched).prepare "1/end" playButton pixel).1
      [.recorded 1 .pending, .sent "1/end.0" 1, .recorded 0 .notMatched] := by
  have hlacks : (found.record 0 .notMatched).Lacks "1/end.0" := .inr ⟨0, rfl, .inr (.inl rfl)⟩
  have hp : pixel.screenshot = some ⟨1, 1, [0, 0, 0]⟩ := rfl
  exact (Serves.refl.record 0 .notMatched).ask ⟨some "Play", none, none, 0.5⟩ rfl hp hlacks

/-- **A match is not final.** It does not take an abandoned key for a found one to be asked for
again. -/
theorem not_final :
    ¬ ∀ (c₀ c : Coordinator) (past events : List Event) (key : Key), Lives c₀ past →
      Serves c₀ c events → c₀.reply key = some .matched → (∀ e ∈ events, ¬ e.Drops key) →
        ∀ index, Event.sent key index ∉ events := by
  intro hall
  have hkept : ∀ e ∈ [Event.recorded 1 .pending, .sent "1/end.0" 1, .recorded 0 .notMatched],
      ¬ e.Drops "1/end.0" := by
    simp [Event.Drops]
  exact hall _ _ _ _ "1/end.0" found_lives found_serves (by decide +kernel) hkept 1 (by simp)

end Coordinator

end Playtest.Vision
