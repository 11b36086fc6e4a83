import Mathlib.Data.List.Forall2
import Playtest.Proofs.Playback.Heading
import Playtest.Proofs.Playback.Results
import Playtest.Proofs.Segment.InStep
import Playtest.Scripted

/-!
# What earlier runs have left

An environment may serve several runs, one after another. The main result,
`PlaybackRun.past_makes_no_difference`, plays a playlist that never asks the vision service in two
environments with different pasts: paths that earlier runs have remembered, requests that they have
in flight, replies that come late, indices that were used. If handlers, predicates and validations
answer alike in both, the two runs are the same at all times, but for their headings.

Before its first tick, the run has not looked at the environment, and it is enough that the two are
alike. The first tick resets the environment before it resolves its frame, and from then on the two
are in step. When the run has ended, it does not matter any more what becomes of them (`Attuned`).
-/

namespace Playtest

open Playtest.Scene Turn

variable {env env' : Environment}

/-! ### Lists -/

namespace ListRun

variable {m : Moment} {l : ListRun}

/-- That a list begins is nothing to its segments. -/
theorem ahead_begun (l : ListRun) : l.begun.ahead = l.ahead := by
  unfold begun
  split <;> rfl

/-- What comes of a list behind a segment that has ended is the same in both environments. -/
theorem agrees_settle (s : SegmentRun) (l : ListRun) (h : env.InStep env') :
    Agrees (fun _ => Environment.InStep) (settle s l env) (settle s l env') := by
  unfold settle
  dsimp only
  split
  · -- complete, fatal, in an optional list, or passed over
    exact ⟨rfl, h⟩
  split
  · exact ⟨rfl, h⟩
  split
  · refine Agrees.andThen (R := fun _ => Environment.InStep) ⟨rfl, h⟩ fun l env env' h => ?_
    -- skipping segments is nothing that the environment notices
    obtain ⟨hs, he⟩ := eachSegment_skip l.ahead env
    obtain ⟨hs', he'⟩ := eachSegment_skip l.ahead env'
    refine ⟨?_, ?_⟩
    · rw [subject_map, subject_map, hs, hs']
    · rw [env_map, env_map, he, he']
      exact h
  · exact ⟨rfl, h⟩

/-- So is what comes of its current segment. -/
theorem agrees_play (m : Moment) (hl : ∀ s ∈ l.ahead, s.segment.asksVision = false)
    (h : env.InStep env') :
    Agrees (fun _ => Environment.InStep) (play m l env) (play m l env') := by
  unfold play
  split
  · exact ⟨rfl, h⟩
  · next s rest ha =>
    have hs : s.segment.asksVision = false := hl s (ha ▸ List.mem_cons_self)
    refine (SegmentRun.agrees_tick m ⟨hs, h⟩).andThen fun s env env' h => ?_
    -- if its turn is over, the list settles what comes next
    split
    · exact agrees_settle s _ h.envs
    · exact ⟨rfl, h.envs⟩

/-- **A list plays alike in environments that are in step**, if none of its segments asks the vision
service. -/
theorem agrees_tick (m : Moment) (hl : ∀ s ∈ l.segments, s.segment.asksVision = false)
    (h : env.InStep env') :
    Agrees (fun _ => Environment.InStep) (l.tick m env) (l.tick m env') := by
  have hahead : ∀ s ∈ l.begun.ahead, s.segment.asksVision = false := by
    intro s hs
    rw [ahead_begun] at hs
    exact hl s (List.mem_append_right _ hs)
  have hplay := agrees_play m hahead h
  exact ⟨hplay.subject, hplay.related⟩

end ListRun

namespace PlaybackRun

variable {p : Playlist} {c : Config} {b : Beat} {r : PlaybackRun} {reason : String}
  {call call' : HostCall} {cs cs' : List HostCall}

/-- **So do the lists of a round.** -/
theorem agrees_tickLists (m : Moment) (ls : List ListRun)
    (hls : ∀ l ∈ ls, ∀ s ∈ l.segments, s.segment.asksVision = false) (h : env.InStep env') :
    Agrees (fun _ => Environment.InStep) (tickLists m ls env) (tickLists m ls env') := by
  induction ls generalizing env env' with
  | nil => exact ⟨rfl, h⟩
  | cons l rest ih =>
    obtain ⟨hl, hrest⟩ := List.forall_mem_cons.mp hls
    unfold tickLists
    split
    · exact (ih hrest h).map fun _ _ _ h => h
    · refine (ListRun.agrees_tick m hl h).andThen fun t env env' h => ?_
      obtain ⟨ticked, event⟩ := t
      -- fatal in one environment is fatal in both, and otherwise both go on
      cases event with
      | fatal reason => exact ⟨rfl, h⟩
      | running | keyFrame | finished =>
        dsimp only
        split
        · exact (ih hrest h).map fun _ _ _ h => h
        · exact ⟨rfl, h⟩

/-! ### One run in two environments -/

/-- No segment of the run asks the vision service if none of the playlist does. -/
theorem Valid.silent (h : Valid p c r) (hp : ∀ s ∈ p.segments, s.2.asksVision = false) :
    ∀ s ∈ r.segments, s.segment.asksVision = false := by
  intro s hs
  have hmade : s.origin ∈ (p.segments.zipIdx 1).map (made c) := by
    rw [← h.segments_origin]
    exact List.mem_map_of_mem hs
  obtain ⟨x, hx, hxs⟩ := List.mem_map.mp hmade
  have hsegment : x.1.2 = s.segment := congrArg SegmentRun.segment hxs
  rw [← hsegment]
  exact hp x.1 (List.fst_mem_of_mem_zipIdx hx)

/-- A run that goes on **in tune** with two environments: no segment asks the vision service, and
the environments are in step from the first tick on. -/
structure Attuned (r : PlaybackRun) (env env' : Environment) : Prop where
  silent : ∀ s ∈ r.segments, s.segment.asksVision = false
  alike : env.Alike env'
  envs : r.ticks ≠ 0 → env.InStep env'

/-- The first tick makes up for whatever came before. -/
theorem Attuned.prepared (h : Attuned r env env') : (r.prepared env).InStep (r.prepared env') := by
  unfold PlaybackRun.prepared
  split
  · exact h.alike.reset
  · next ht => exact h.envs ht

/-- Both see the same in a tick. -/
theorem Attuned.moment_eq (h : Attuned r env env') (b : Beat) :
    r.moment b env' = r.moment b env := by
  unfold moment
  rw [h.prepared.resolver]

/-- The resolvers were the same before the frame, and so they are behind it. -/
theorem Attuned.opened (h : Attuned r env env') (b : Beat) :
    (r.opened b env).InStep (r.opened b env') := by
  unfold PlaybackRun.opened
  rw [h.prepared.resolver]
  exact h.prepared.resolved _

/-- A round comes to the same, and leaves the environments in step. -/
theorem Attuned.round (h : Attuned r env env') (b : Beat) :
    Agrees (fun _ => Environment.InStep) (r.round b env) (r.round b env') := by
  unfold PlaybackRun.round
  rw [h.moment_eq]
  exact agrees_tickLists (r.moment b env) r.lists (forall_mem_segments.mp h.silent) (h.opened b)

/-- The run looks the same behind a round. -/
theorem Attuned.played_eq (h : Attuned r env env') (b : Beat) :
    r.played b env' = r.played b env := by
  unfold played
  rw [h.moment_eq, (h.round b).subject]

/-- **A tick makes the same of a run** in both, and as long as the run goes on it leaves it in
tune. -/
theorem Attuned.tick (h : Attuned r env env') (hs : Sound p c r)
    (hp : ∀ s ∈ p.segments, s.2.asksVision = false) (hr : r.result = none) (b : Beat) :
    (r.tick b env').subject = (r.tick b env).subject ∧
      ((r.tick b env).subject.result = none →
        Attuned (r.tick b env).subject (r.tick b env).env (r.tick b env').env) := by
  cases ho : (r.begun b).obstacle? with
  | some reason =>
    -- what is in the way of the run is nothing of the environment
    rw [(tick_of_obstacle hr ho).1, (tick_of_obstacle hr ho).1]
    exact ⟨rfl, fun hn => by cases hn⟩
  | none =>
    have hround := h.round b
    cases hf : (r.round b env).subject.fatal with
    | some reason =>
      have hf' : (r.round b env').subject.fatal = some reason := by rw [hround.subject, hf]
      -- the run ends, and what becomes of the environments does not matter
      rw [(tick_of_fatal hr ho hf).1, (tick_of_fatal hr ho hf').1, h.played_eq]
      exact ⟨rfl, fun hn => by cases hn⟩
    | none =>
      have hf' : (r.round b env').subject.fatal = none := by rw [hround.subject, hf]
      have hsilent := (hs.tick b env).silent hp
      obtain ⟨henv, hsubject⟩ := tick_of_not_fatal hr ho hf
      obtain ⟨henv', hsubject'⟩ := tick_of_not_fatal hr ho hf'
      rw [h.played_eq] at hsubject'
      refine ⟨hsubject'.trans hsubject.symm, fun _ => ⟨hsilent, ?_, fun _ => ?_⟩⟩
      · rw [henv, henv']
        exact hround.related.toAlike
      · rw [henv, henv']
        exact hround.related

/-! ### The host -/

end PlaybackRun

/-- A change **spares** what is the run's own: the paths that are remembered and the requests in
flight. Replies may come, and validations may finish. -/
def Environment.Spares (change : Environment → Environment) : Prop :=
  ∀ env, (change env).resolver = env.resolver ∧
    (change env).vision.outstanding = env.vision.outstanding

/-- A change that spares what is the run's own leaves environments in step. -/
theorem Environment.InStep.changed {change change' : Environment → Environment}
    (h : env.InStep env') (halike : (change env).Alike (change' env')) (hs : Spares change)
    (hs' : Spares change') : (change env).InStep (change' env') := by
  obtain ⟨hresolver, houtstanding⟩ := hs env
  obtain ⟨hresolver', houtstanding'⟩ := hs' env'
  refine ⟨halike, ?_, ?_, ?_⟩
  · rw [hresolver, hresolver', h.resolver]
  · rw [houtstanding, h.outstanding.1]
  · rw [houtstanding', h.outstanding.2]

/-- A host does **alike** with two runs: it gives both the same frames, and what it changes in
between spares what is theirs and leaves environments alike that were. -/
inductive HostCall.Alike : HostCall → HostCall → Prop
  | tick (b : Beat) : Alike (.tick b) (.tick b)
  | abort (reason : String) : Alike (.abort reason) (.abort reason)
  | meanwhile {change change' : Environment → Environment}
      (h : ∀ env env', env.Alike env' → (change env).Alike (change' env'))
      (hs : Environment.Spares change)
      (hs' : Environment.Spares change') : Alike (.meanwhile change) (.meanwhile change')

namespace PlaybackRun

variable {p : Playlist} {c : Config} {r : PlaybackRun} {call call' : HostCall}
  {cs cs' : List HostCall}

/-- A call that is alike makes the same of the run, and leaves it in tune as long as it goes on. -/
theorem Attuned.serve (h : Attuned r env env') (hs : Sound p c r)
    (hp : ∀ s ∈ p.segments, s.2.asksVision = false) (hr : r.result = none)
    (hcall : call.Alike call') :
    (serve call' r env').subject = (serve call r env).subject ∧
      ((serve call r env).subject.result = none →
        Attuned (serve call r env).subject (serve call r env).env (serve call' r env').env) := by
  cases hcall with
  | tick b => exact h.tick hs hp hr b
  | abort reason =>
    rw [PlaybackRun.serve, PlaybackRun.serve, abort_subject hr, abort_subject hr]
    -- with a result there is nothing left to stay in tune for
    exact ⟨rfl, fun hn => by cases hn⟩
  | meanwhile halike hspares hspares' =>
    have hchanged := halike env env' h.alike
    exact ⟨rfl, fun _ => ⟨h.silent, hchanged,
      fun ht => (h.envs ht).changed hchanged hspares hspares'⟩⟩

/-- **A run in tune comes to the same in both environments**, whatever a host does alike. -/
theorem Attuned.serveAll (hcs : List.Forall₂ HostCall.Alike cs cs') (hs : Sound p c r)
    (hp : ∀ s ∈ p.segments, s.2.asksVision = false) (h : r.result = none → Attuned r env env') :
    (serveAll cs' r env').subject = (serveAll cs r env).subject := by
  -- induction over the calls of both hosts
  induction hcs generalizing r env env' with
  | nil => rfl
  | @cons call call' cs cs' hcall _ ih =>
    cases hr : r.result with
    | some result =>
      -- what becomes of the environments does not matter any more
      rw [serveAll_of_ended hr, serveAll_of_ended hr]
      rfl
    | none =>
      obtain ⟨hsame, hafter⟩ := (h hr).serve hs hp hr hcall
      rw [PlaybackRun.serveAll, PlaybackRun.serveAll, subject_andThen, subject_andThen, hsame]
      exact ih (hs.serve call env) hafter

/-- **What earlier runs have left makes no difference.** Play a playlist that never asks the vision
service in two environments, whatever has been done with them before, in which handlers, predicates
and validations answer alike. As long as a host gives both runs the same frames, their segments are
in the same states after every call, with the same histories and details. Either both have ended or
none, and their results are the same but for the heading: the run id, what it is kept under, and the
start time. -/
theorem past_makes_no_difference (h : Fresh p c r) (hp : ∀ s ∈ p.segments, s.2.asksVision = false)
    (halike : env.Alike env') (hcs : List.Forall₂ HostCall.Alike cs cs') (runId : String)
    (startedAt : Int64) :
    let first := (serveAll cs r env).subject
    let again := (serveAll cs' (r.headed runId startedAt) env').subject
    again.segments = first.segments ∧
      again.result = first.result.map
        (RunResult.headed runId startedAt (Resource.joinPath first.outputDir runId)) ∧
      again = first.headed runId startedAt := by
  intro first again
  have hattuned : Attuned r env env' :=
    ⟨h.sound.silent hp, halike, fun ht => absurd h.ticks ht⟩
  -- a heading does not get in the way of calls, and both runs are in tune
  have hagain : again = first.headed runId startedAt := calc
    again = (serveAll cs' r env').subject.headed runId startedAt :=
      (serveAll_headed runId startedAt cs' r env').1
    _ = first.headed runId startedAt := by rw [Attuned.serveAll hcs h.sound hp fun _ => hattuned]
  rw [hagain]
  exact ⟨segments_headed runId startedAt, rfl, rfl⟩

/-! Two runs in one studio. The casting waits for a text to be seen when it is left, and the reply
comes when it has gone. The object that it has known as a curtain is the shoot's door. -/

/-- A studio with a handler for every action, and a vision service. -/
def studio : Environment :=
  { Environment.of (Registry.empty.withFallback .logged) with
    vision := .of (some (Scripted.service [])) }

/-- A second in which one object is seen under a name. -/
def showing (name : String) : HostCall :=
  .tick ⟨1.0, { Frame.empty with
    objects := [⟨1, none, some name, [], none, []⟩]
    screenshot := some ⟨1, 1, [0, 0, 0]⟩ }, ⟨0, 1, 1⟩⟩

/-- A casting waits for the word that tells it to leave. -/
def casting : Playlist :=
  .ofSegment { Segment.ofName "casting" with
    action := some (.of "wave" .null)
    endCriteria := [.of (.vision .text ⟨some "exit", none, none, 0.5⟩)] }

/-- A shoot waits for a door, and opens it. -/
def shoot : Playlist :=
  .ofSegment { Segment.ofName "shoot" with
    entryCriteria := [.of (.path false ⟨"Door", .nonZero, 0, 0, 0⟩)]
    action := some (.of "open" .null)
    endCriteria := [.of .actionComplete] }

/-- The service replies to the first request of all. -/
def replied (env : Environment) : Environment :=
  { env with vision := env.vision.record 0 .matched }

/-- The studio as the casting has left it. -/
def leftStudio : Environment :=
  (serveAll [showing "Curtain", showing "Curtain", .meanwhile replied]
    (.of casting .default "casting" 0) studio).env

/-- Three seconds of the door, and something that happens after the first. -/
def doorSeen (change : Environment → Environment) : List HostCall :=
  [showing "Door", .meanwhile change, showing "Door", showing "Door"]

/-- The casting has left everything as it was that answers a run. -/
theorem leftStudio_alike : studio.Alike leftStudio := by
  have hregistry : leftStudio.registry = studio.registry := by rfl
  refine ⟨fun type => ?_, ?_, fun _ _ => rfl⟩
  · rw [hregistry]
    exact .some .fallback ⟨fun _ _ _ _ _ => rfl, fun _ _ _ => rfl⟩
  · rw [hregistry]

/-- The shoot is done in three seconds, in the studio that the casting has left as in a new one. -/
theorem shoot_after_casting :
    leftStudio.resolver.path? 1 = some ⟨"Curtain", "Curtain"⟩ ∧
      leftStudio.vision.reply "1/end.0" = some .matched ∧ leftStudio.vision.nextIndex = 1 ∧
      let first := (serveAll (doorSeen id) (.of shoot .default "first" 0) studio).subject
      let again := (serveAll (doorSeen replied) (.of shoot .default "again" 7) leftStudio).subject
      again.segments = first.segments ∧ again.segments.map SegmentRun.state = [.completed] := by
  have hfresh : Fresh shoot .default (.of shoot .default "first" 0) := .of "first" 0
  have hcalls : List.Forall₂ HostCall.Alike (doorSeen id) (doorSeen replied) := by
    have hshown : HostCall.Alike (showing "Door") (showing "Door") := .tick _
    -- the second call stands for the change of each host
    refine .cons hshown (.cons (.meanwhile ?_ ?_ ?_) (.cons hshown (.cons hshown .nil)))
    · exact fun env env' h => ⟨h.handlers, h.predicates, h.validations⟩
    · exact fun env => ⟨rfl, rfl⟩
    · exact fun env => ⟨rfl, rfl⟩
  obtain ⟨hsegments, -, -⟩ :=
    past_makes_no_difference hfresh (by decide) leftStudio_alike hcalls "again" 7
  refine ⟨by decide +kernel, by decide +kernel, by decide +kernel, hsegments, ?_⟩
  decide +kernel

end PlaybackRun

end Playtest
