import Playtest.Playback.ListRun
import Playtest.Proofs.Segment.Course

/-!
# The course of a segment list

What a tick makes of a list that has not finished, and what is true of lists at all times.

* `ListRun.Plays` are the six ways in which such a tick can go, and `ListRun.tick_plays` says that
  there is no other. Everything else about a tick is read off them,
* `ListRun.abort_subject`: a list that is broken off is `ListRun.cutOff`, whatever the environment
  is,
* `ListRun.Sound` is the invariant between ticks: the segments whose turn is over have ended, the
  one whose turn it is has not, and the ones behind it are pending. A tick that is fatal for the run
  leaves pending segments behind in a finished list, and so keeps only the weaker `ListRun.Valid`,
  until breaking the run off makes it `Sound` again,
* `ListRun.Unbroken` says that every required segment whose turn is over has completed. It is what a
  list can only lose by a fatal tick, or by being broken off.
-/

namespace Playtest

namespace ListRun

variable {m : Moment} {l l' : ListRun} {e : ListEvent} {env env' : Environment} {reason : String}

/-- The list as it was made. -/
def origin (l : ListRun) : ListRun :=
  { l with played := [], ahead := l.segments.map SegmentRun.origin, state := .notStarted }

/-! ### One segment after another -/

/-- What happens to each segment alone happens to all of them, whatever the environments between. -/
theorem eachSegment_subject {f : SegmentRun → Environment → Turn SegmentRun}
    {g : SegmentRun → SegmentRun} (h : ∀ s env, (f s env).subject = g s) (ss : List SegmentRun)
    (env : Environment) : (eachSegment f ss env).subject = ss.map g := by
  induction ss generalizing env with
  | nil => rfl
  | cons s rest ih =>
    change (f s env).subject :: (eachSegment f rest (f s env).env).subject = _
    rw [h, ih, List.map_cons]

/-- Skipping segments calls nobody. -/
theorem eachSegment_skip (ss : List SegmentRun) (env : Environment) :
    (eachSegment SegmentRun.skip ss env).subject = ss.map SegmentRun.skipped ∧
      (eachSegment SegmentRun.skip ss env).env = env := by
  refine ⟨eachSegment_subject (fun s env => (SegmentRun.skip_eq env (r := s)).1) ss env, ?_⟩
  induction ss with
  | nil => rfl
  | cons s rest ih =>
    change (eachSegment SegmentRun.skip rest (s.skip env).env).env = env
    rw [(SegmentRun.skip_eq env).2, ih]

/-! ### A tick -/

/-- The list with one segment more whose turn is over. -/
def past (s : SegmentRun) (rest : List SegmentRun) (l : ListRun) : ListRun :=
  { l with played := l.played ++ [s], ahead := rest, state := .running }

/-- Why a segment that the run needs ends the run. -/
def failure (s : SegmentRun) (l : ListRun) : String :=
  s!"Segment `{s.name}` in list `{l.name}` ended {s.state.name}"

/-- The **ways in which a tick of an unfinished list can go**: there is no segment left, the current
one goes on, or it has ended. What comes of the list in the last case depends on how the segment
ended and who needs it. -/
inductive Plays (m : Moment) (l : ListRun) (env : Environment) :
    ListRun → ListEvent → Environment → Prop
  | empty (h : l.ahead = []) : Plays m l env { l with state := .finished } .finished env
  | ongoing {s : SegmentRun} {rest : List SegmentRun} (h : l.ahead = s :: rest)
      (hs : ¬ (s.tick m env).subject.state.isTerminal) :
      Plays m l env { l with ahead := (s.tick m env).subject :: rest, state := .running } .running
        (s.tick m env).env
  | completed {s : SegmentRun} {rest : List SegmentRun} (h : l.ahead = s :: rest)
      (hs : (s.tick m env).subject.state = .completed) :
      Plays m l env (l.past (s.tick m env).subject rest).closed .keyFrame (s.tick m env).env
  | fatal {s : SegmentRun} {rest : List SegmentRun} (h : l.ahead = s :: rest)
      (ht : (s.tick m env).subject.state.isTerminal)
      (hs : (s.tick m env).subject.state ≠ .completed) (hr : s.isRequired) :
      Plays m l env { l.past (s.tick m env).subject rest with state := .finished }
        (.fatal (l.failure (s.tick m env).subject)) (s.tick m env).env
  | cutShort {s : SegmentRun} {rest : List SegmentRun} (h : l.ahead = s :: rest)
      (ht : (s.tick m env).subject.state.isTerminal)
      (hs : (s.tick m env).subject.state ≠ .completed) (hr : ¬ s.isRequired) (ho : l.isOptional) :
      Plays m l env
        { l.past (s.tick m env).subject (rest.map SegmentRun.skipped) with state := .finished }
        .finished (s.tick m env).env
  | passedOver {s : SegmentRun} {rest : List SegmentRun} (h : l.ahead = s :: rest)
      (ht : (s.tick m env).subject.state.isTerminal)
      (hs : (s.tick m env).subject.state ≠ .completed) (hr : ¬ s.isRequired) (ho : ¬ l.isOptional) :
      Plays m l env (l.past (s.tick m env).subject rest).closed
        (if rest.isEmpty then .finished else .running) (s.tick m env).env

/-- The test for a list that has finished looks at its state. -/
theorem isFinished_iff : l.isFinished ↔ l.state = .finished := beq_iff_eq

theorem not_isFinished_of_running (h : l.state = .running) : ¬ l.isFinished := by
  rw [isFinished_iff, h]
  exact ListState.noConfusion

/-- A list that has not finished is running when its tick begins. -/
theorem begun_eq (h : ¬ l.isFinished) : l.begun = { l with state := .running } := by
  unfold begun
  split
  · rfl
  · next hn =>
    have hs : l.state = .running := by
      cases hs : l.state with
      | notStarted => exact absurd hs hn
      | running => rfl
      | finished => exact absurd (isFinished_iff.mpr hs) h
    rw [← hs]

/-- What comes of a list behind a segment that has ended. -/
theorem settle_plays {s : SegmentRun} {rest : List SegmentRun} (h : l.ahead = s :: rest)
    (ht : (s.tick m env).subject.state.isTerminal) :
    let t := settle (s.tick m env).subject (l.past (s.tick m env).subject rest) (s.tick m env).env
    Plays m l env t.subject.1 t.subject.2 t.env := by
  have hreq : (s.tick m env).subject.isRequired = s.isRequired :=
    SegmentRun.isRequired_eq_of_origin (SegmentRun.origin_tick m env)
  -- the cases are those of `settle`, in the order in which it asks
  unfold settle
  dsimp only
  split
  · next hs => exact .completed h hs
  next hs =>
  rw [hreq]
  split
  · next hr => exact .fatal h ht hs hr
  next hr =>
  split
  · next ho =>
    -- the rest is skipped, which leaves the environment alone
    dsimp only [Turn.subject_andThen, Turn.env_andThen, Turn.subject_map, Turn.env_map,
      Turn.subject_saying, Turn.env_saying]
    rw [(eachSegment_skip _ _).1, (eachSegment_skip _ _).2]
    exact .cutShort h ht hs hr ho
  · next ho => exact .passedOver h ht hs hr ho

/-- **Every tick of an unfinished list goes one of these ways.** -/
theorem tick_plays (h : ¬ l.isFinished) :
    Plays m l env (l.tick m env).subject.1 (l.tick m env).subject.2 (l.tick m env).env := by
  change Plays m l env (play m l.begun env).subject.1 (play m l.begun env).subject.2
    (play m l.begun env).env
  rw [begun_eq h]
  unfold play
  dsimp only
  split
  · -- nothing is ahead
    next ha => exact .empty ha
  next s rest ha =>
  dsimp only [Turn.subject_andThen, Turn.env_andThen]
  split
  · -- the segment that is played has ended, and the list goes on or gives up
    next ht => exact settle_plays ha ht
  · next ht => exact .ongoing ha ht

/-- The list after it was **broken off** for a reason. -/
def cutOff (reason : String) (l : ListRun) : ListRun :=
  { l with
    played := l.played.map (SegmentRun.cutOff reason)
    ahead := l.ahead.map (SegmentRun.cutOff reason)
    state := .finished }

/-- Breaking off does to every segment what it does to it alone. -/
theorem abort_subject : (l.abort reason env).subject = l.cutOff reason := by
  have hs := eachSegment_subject fun s env => SegmentRun.abort_subject env reason (r := s)
  change { l with played := _, ahead := _, state := _ } = _
  rw [hs, hs]
  rfl

/-- The segments of a list that was broken off, in their order. -/
theorem segments_cutOff : (l.cutOff reason).segments = l.segments.map (SegmentRun.cutOff reason) :=
  (List.map_append ..).symm

/-- Breaking off changes nothing that a list was made with. -/
theorem origin_cutOff : (l.cutOff reason).origin = l.origin := by
  unfold origin
  rw [segments_cutOff, List.map_map]
  congr 1
  exact List.map_congr_left fun s _ => SegmentRun.origin_cutOff reason

/-- A list that is closed has no segments ahead, or is as it was. -/
theorem closed_cases (l : ListRun) :
    l.ahead = [] ∧ l.closed = { l with state := .finished } ∨ l.ahead ≠ [] ∧ l.closed = l := by
  unfold closed
  cases l.ahead with
  | nil => exact .inl ⟨rfl, rfl⟩
  | cons s rest => exact .inr ⟨List.cons_ne_nil s rest, rfl⟩

/-- Closing a list leaves its segments as they are. -/
theorem segments_closed (l : ListRun) : l.closed.segments = l.segments := by
  rcases l.closed_cases with ⟨-, h⟩ | ⟨-, h⟩
  · rw [h]
    rfl
  · rw [h]

/-- A segment whose turn is over stays in its place. -/
theorem segments_past (s : SegmentRun) (rest : List SegmentRun) :
    (l.past s rest).segments = l.played ++ s :: rest := by
  change l.played ++ [s] ++ rest = _
  rw [List.append_assoc, List.singleton_append]

/-- **A tick plays the current segment, and no other.** The ones behind it may be skipped. -/
theorem Plays.segments_eq (h : Plays m l env l' e env') {s : SegmentRun} {rest : List SegmentRun}
    (ha : l.ahead = s :: rest) :
    env' = (s.tick m env).env ∧
      (l'.segments = l.played ++ (s.tick m env).subject :: rest ∨
        l'.segments = l.played ++ (s.tick m env).subject :: rest.map SegmentRun.skipped) := by
  -- in each case the current segment is the first of those ahead
  cases h with
  | empty h => rw [h] at ha; cases ha
  | ongoing h hs =>
    obtain ⟨rfl, rfl⟩ := List.cons.inj (h.symm.trans ha)
    exact ⟨rfl, .inl rfl⟩
  | completed h hs =>
    obtain ⟨rfl, rfl⟩ := List.cons.inj (h.symm.trans ha)
    rw [segments_closed]
    exact ⟨rfl, .inl (segments_past _ _)⟩
  | fatal h ht hs hr =>
    obtain ⟨rfl, rfl⟩ := List.cons.inj (h.symm.trans ha)
    exact ⟨rfl, .inl (segments_past _ _)⟩
  | cutShort h ht hs hr ho =>
    obtain ⟨rfl, rfl⟩ := List.cons.inj (h.symm.trans ha)
    exact ⟨rfl, .inr (segments_past _ _)⟩
  | passedOver h ht hs hr ho =>
    obtain ⟨rfl, rfl⟩ := List.cons.inj (h.symm.trans ha)
    rw [segments_closed]
    exact ⟨rfl, .inl (segments_past _ _)⟩

/-- A list without a current segment just finishes. -/
theorem Plays.of_empty (h : Plays m l env l' e env') (ha : l.ahead = []) :
    l' = { l with state := .finished } ∧ e = .finished ∧ env' = env := by
  cases h with
  | empty => exact ⟨rfl, rfl, rfl⟩
  | ongoing h => rw [ha] at h; cases h
  | completed h => rw [ha] at h; cases h
  | fatal h => rw [ha] at h; cases h
  | cutShort h => rw [ha] at h; cases h
  | passedOver h => rw [ha] at h; cases h

/-- The name of a list and what the settings say about it. -/
def label (l : ListRun) : String × Bool × Bool := (l.name, l.isOptional, l.isParallel)

/-- Closing a list changes nothing that the settings say about it. -/
theorem label_closed (l : ListRun) : l.closed.label = l.label := by
  rcases l.closed_cases with ⟨-, h⟩ | ⟨-, h⟩
  · rw [h]
    rfl
  · rw [h]

/-- Neither does a tick. -/
theorem Plays.label_eq (h : Plays m l env l' e env') : l'.label = l.label := by
  cases h with
  | empty | ongoing | fatal | cutShort => rfl
  | completed | passedOver => exact label_closed _

/-- A list stays optional or not. -/
theorem Plays.isOptional_eq (h : Plays m l env l' e env') : l'.isOptional = l.isOptional :=
  congrArg (fun label => label.2.1) h.label_eq

/-- It goes on to let others pass or not. -/
theorem Plays.isParallel_eq (h : Plays m l env l' e env') : l'.isParallel = l.isParallel :=
  congrArg (fun label => label.2.2) h.label_eq

/-- A list was made the same if it has the same label and its segments were made the same. -/
theorem origin_eq_iff :
    l'.origin = l.origin ↔
      l'.label = l.label ∧ l'.segments.map SegmentRun.origin =
        l.segments.map SegmentRun.origin := by
  simp [origin, label, and_assoc]

/-- **A list stays the list that it was made as.** -/
theorem Plays.origin_eq (h : Plays m l env l' e env') : l'.origin = l.origin := by
  refine origin_eq_iff.mpr ⟨h.label_eq, ?_⟩
  cases ha : l.ahead with
  | nil => rw [(h.of_empty ha).1]; rfl
  | cons s rest =>
    have hs : l.segments = l.played ++ s :: rest := by rw [segments, ha]
    -- skipping the rest is all in which the two ways differ
    have hskip : (rest.map SegmentRun.skipped).map SegmentRun.origin =
        rest.map SegmentRun.origin := by
      rw [List.map_map]
      exact List.map_congr_left fun _ _ => SegmentRun.origin_skipped
    rcases (h.segments_eq ha).2 with hl | hl <;>
      simp only [hl, hs, List.map_append, List.map_cons, SegmentRun.origin_tick, hskip]

/-! ### The order of the segments -/

/-- What is true of a list also in the middle of a tick of the run. -/
structure Valid (l : ListRun) : Prop where
  segments : ∀ s ∈ l.segments, s.Sound
  optional : l.isOptional → ∀ s ∈ l.segments, ¬ s.isRequired
  played : ∀ s ∈ l.played, s.state.isTerminal

/-- The **invariant** of a list between the ticks of the run. -/
structure Sound (l : ListRun) : Prop extends Valid l where
  current : ¬ l.isFinished → ∀ s ∈ l.ahead.head?, ¬ s.state.isTerminal
  upcoming : ¬ l.isFinished → ∀ s ∈ l.ahead.tail, s.state = .pending
  ended : l.isFinished → ∀ s ∈ l.ahead, s.state.isTerminal

/-- No segment that the run needs has had its turn without completing. -/
structure Unbroken (l : ListRun) : Prop where
  played : ∀ s ∈ l.played, s.isRequired → s.state = .completed
  ahead : l.isFinished → ∀ s ∈ l.ahead, ¬ s.isRequired

/-- What is optional hangs only on how the list was made. -/
theorem optional_of_origin_eq (h : l'.origin = l.origin)
    (hl : l.isOptional → ∀ s ∈ l.segments, ¬ s.isRequired) :
    l'.isOptional → ∀ s ∈ l'.segments, ¬ s.isRequired := by
  intro ho s hs
  have hopt : l'.isOptional = l.isOptional := by injection h
  have hm : s.origin ∈ l.segments.map SegmentRun.origin := by
    rw [← (origin_eq_iff.mp h).2]
    exact List.mem_map_of_mem hs
  obtain ⟨t, ht, heq⟩ := List.mem_map.mp hm
  rw [SegmentRun.isRequired_eq_of_origin heq.symm]
  exact hl (hopt ▸ ho) t ht

/-- What the ticks and the skips of segments keep is kept by a tick of their list. -/
theorem Plays.forall_mem {q : SegmentRun → Prop} (h : Plays m l env l' e env')
    (htick : ∀ s, q s → q (s.tick m env).subject) (hskip : ∀ s, q s → q s.skipped)
    (hl : ∀ s ∈ l.segments, q s) : ∀ s ∈ l'.segments, q s := by
  cases ha : l.ahead with
  | nil =>
    rw [(h.of_empty ha).1]
    exact hl
  | cons s rest =>
    have hseg : l.segments = l.played ++ s :: rest := by rw [segments, ha]
    rw [hseg] at hl
    simp only [List.forall_mem_append, List.forall_mem_cons] at hl
    obtain ⟨hp, hs, hr⟩ := hl
    have hskipped : ∀ t ∈ rest.map SegmentRun.skipped, q t :=
      List.forall_mem_map.mpr fun t ht => hskip t (hr t ht)
    -- what is ahead is either kept or skipped
    rcases (h.segments_eq ha).2 with hl' | hl' <;>
      simp only [hl', List.forall_mem_append, List.forall_mem_cons]
    · exact ⟨hp, htick s hs, hr⟩
    · exact ⟨hp, htick s hs, hskipped⟩

theorem Plays.segments_sound (h : Plays m l env l' e env') (hl : l.Valid) :
    ∀ s ∈ l'.segments, s.Sound :=
  h.forall_mem (fun _ hs => hs.tick m env) (fun _ hs => hs.skipped_sound) hl.segments

/-- Closing a list ends nobody's turn. -/
theorem played_closed (l : ListRun) : l.closed.played = l.played := by
  rcases l.closed_cases with ⟨-, h⟩ | ⟨-, h⟩ <;> rw [h]

/-- **Every tick keeps the weaker invariant**, one that is fatal included. -/
theorem Plays.valid (h : Plays m l env l' e env') (hl : l.Valid) : l'.Valid := by
  refine ⟨h.segments_sound hl, optional_of_origin_eq h.origin_eq hl.optional, ?_⟩
  -- the segment whose turn is over has joined the ones before it
  have hpast : ∀ {s : SegmentRun}, s.state.isTerminal → ∀ t ∈ l.played ++ [s],
      t.state.isTerminal := by
    intro s hs
    simpa only [List.forall_mem_append, List.forall_mem_singleton] using ⟨hl.played, hs⟩
  cases h with
  | empty | ongoing => exact hl.played
  | completed h hs =>
    rw [played_closed]
    exact hpast (by rw [hs]; rfl)
  | fatal h ht | cutShort h ht => exact hpast ht
  | passedOver h ht =>
    rw [played_closed]
    exact hpast ht

/-- A list that has finished is in order if everything ahead has ended. -/
theorem Valid.sound_of_finished (hl : l.Valid) (hf : l.isFinished)
    (ha : ∀ s ∈ l.ahead, s.state.isTerminal) : l.Sound :=
  { hl with
    current := fun h => absurd hf h
    upcoming := fun h => absurd hf h
    ended := fun _ => ha }

/-- A list that is running is in order if the first segment ahead has not ended, and the others are
pending. -/
theorem Valid.sound_of_running (hl : l.Valid) (hr : l.state = .running) {s : SegmentRun}
    {rest : List SegmentRun} (ha : l.ahead = s :: rest) (hs : ¬ s.state.isTerminal)
    (hrest : ∀ t ∈ rest, t.state = .pending) : l.Sound := by
  have hf : ¬ l.isFinished := not_isFinished_of_running hr
  refine { hl with current := fun _ => ?_, upcoming := fun _ => ?_, ended := fun h => absurd h hf }
  · rw [ha, List.head?_cons]
    rintro t ⟨⟩
    exact hs
  · rw [ha]
    exact hrest

/-- Segments that are all pending may wait behind the ones that have had their turn. -/
theorem Valid.closed_sound (hv : l.closed.Valid) (hr : l.state = .running)
    (ha : ∀ s ∈ l.ahead, s.state = .pending) : l.closed.Sound := by
  -- either nothing is ahead, and the list is finished, or somebody is to come
  rcases l.closed_cases with ⟨hn, hc⟩ | ⟨hne, hc⟩
  · rw [hc] at hv ⊢
    refine hv.sound_of_finished rfl fun s hs => ?_
    rw [hn] at hs
    cases hs
  · rw [hc] at hv ⊢
    obtain ⟨s, rest, hcons⟩ := List.exists_cons_of_ne_nil hne
    rw [hcons, List.forall_mem_cons] at ha
    refine hv.sound_of_running hr hcons ?_ ha.2
    rw [ha.1]
    exact Bool.false_ne_true

/-- **A tick that is not fatal keeps the order of the segments.** -/
theorem Plays.sound (h : Plays m l env l' e env') (hf : ¬ l.isFinished) (hl : l.Sound)
    (he : ∀ reason, e ≠ .fatal reason) : l'.Sound := by
  have hv := h.valid hl.toValid
  -- what is behind the current segment has not been reached
  have hrest : ∀ {s : SegmentRun} {rest : List SegmentRun}, l.ahead = s :: rest →
      ∀ t ∈ rest, t.state = .pending := by
    intro s rest ha
    have hu := hl.upcoming hf
    rwa [ha] at hu
  cases h with
  | empty h =>
    refine hv.sound_of_finished rfl fun s hs => ?_
    rw [show _ = [] from h] at hs
    cases hs
  | ongoing h hs => exact hv.sound_of_running rfl rfl hs (hrest h)
  | completed h => exact hv.closed_sound rfl (hrest h)
  -- the one way to finish a list and leave pending segments in it
  | fatal => exact absurd rfl (he _)
  | cutShort h =>
    -- the rest was pending, and so it is skipped
    refine hv.sound_of_finished rfl (List.forall_mem_map.mpr fun t ht => ?_)
    rw [SegmentRun.skipped, if_pos (hrest h t ht)]
    rfl
  | passedOver h => exact hv.closed_sound rfl (hrest h)

/-- A list that is running only finishes by being closed when nothing is ahead. -/
theorem ahead_of_closed_isFinished (hr : l.state = .running) (hf : l.closed.isFinished) :
    l.closed.ahead = [] := by
  rcases l.closed_cases with ⟨hn, hc⟩ | ⟨-, hc⟩ <;> rw [hc] at hf ⊢
  · exact hn
  · exact absurd hf (not_isFinished_of_running hr)

/-- **A tick that is not fatal** lets no required segment have its turn without completing. -/
theorem Plays.unbroken (h : Plays m l env l' e env') (hv : l.Valid) (hl : l.Unbroken)
    (he : ∀ reason, e ≠ .fatal reason) : l'.Unbroken := by
  -- a tick does not change who is needed
  have hreq : ∀ s : SegmentRun, (s.tick m env).subject.isRequired = s.isRequired :=
    fun s => SegmentRun.isRequired_eq_of_origin (SegmentRun.origin_tick m env)
  have hpast : ∀ {s : SegmentRun}, (s.isRequired → s.state = .completed) →
      ∀ t ∈ l.played ++ [s], t.isRequired → t.state = .completed := by
    intro s hs
    simpa only [List.forall_mem_append, List.forall_mem_singleton] using ⟨hl.played, hs⟩
  have hnone : ∀ {ss : List SegmentRun}, ss = [] → ∀ s ∈ ss, ¬ s.isRequired := by
    rintro _ rfl s ⟨⟩
  cases h with
  | empty h => exact ⟨hl.played, fun _ => hnone h⟩
  | ongoing h => exact ⟨hl.played, fun hf => absurd hf Bool.false_ne_true⟩
  | completed h hs =>
    refine ⟨?_, fun hf => hnone (ahead_of_closed_isFinished rfl hf)⟩
    rw [played_closed]
    exact hpast fun _ => hs
  | fatal => exact absurd rfl (he _)
  | @cutShort s rest h ht hs hr ho =>
    -- nothing is required in an optional list, so that skipping the rest loses nothing
    refine ⟨hpast fun hn => absurd (hreq s ▸ hn) hr,
      fun _ => List.forall_mem_map.mpr fun t ht => ?_⟩
    rw [SegmentRun.isRequired_eq_of_origin SegmentRun.origin_skipped]
    refine hv.optional ho t (List.mem_append_right _ ?_)
    rw [h]
    exact List.mem_cons_of_mem _ ht
  | @passedOver s rest h ht hs hr =>
    refine ⟨?_, fun hf => hnone (ahead_of_closed_isFinished rfl hf)⟩
    rw [played_closed]
    exact hpast fun hn => absurd (hreq s ▸ hn) hr

/-- Breaking a list off ends all of its segments, in whatever order they were. -/
theorem Valid.cutOff (hl : l.Valid) (reason : String) : (l.cutOff reason).Sound := by
  have hv : (l.cutOff reason).Valid := by
    refine ⟨?_, optional_of_origin_eq origin_cutOff hl.optional, ?_⟩
    · rw [segments_cutOff]
      exact List.forall_mem_map.mpr fun s hs => (hl.segments s hs).cutOff reason
    · exact List.forall_mem_map.mpr fun s _ => SegmentRun.isTerminal_cutOff reason
  exact hv.sound_of_finished rfl (List.forall_mem_map.mpr fun s _ =>
    SegmentRun.isTerminal_cutOff reason)

/-- Breaking segments off one after another calls handlers for nothing but to make them give up. -/
theorem onlyAborts_eachSegment (reason : String) (ss : List SegmentRun) (env : Environment) :
    env.OnlyAborts (eachSegment (SegmentRun.abort reason) ss env).env := by
  induction ss generalizing env with
  | nil => exact .refl env
  | cons s rest ih => exact (SegmentRun.onlyAborts_abort env reason).trans (ih _)

/-- Breaking a list off calls handlers for nothing but to make them give up. -/
theorem onlyAborts_abort (reason : String) : env.OnlyAborts (l.abort reason env).env :=
  (onlyAborts_eachSegment reason l.played env).trans (onlyAborts_eachSegment reason l.ahead _)

end ListRun

end Playtest
