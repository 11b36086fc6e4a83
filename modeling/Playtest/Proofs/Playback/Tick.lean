import Playtest.Proofs.Playback.Round

/-!
# A tick of the run

A tick of a run that has not ended either breaks the run off or plays a round of the lists.

* `PlaybackRun.Cause` says why a tick breaks the run off, with the lists and the environment as they
  are by then: a signal comes before the time that is up, and both come before all lists. Only a
  segment that the run needs and that did not complete is a cause in the middle of a round,
* `PlaybackRun.tick_of_cause` and `PlaybackRun.tick_of_no_cause` say what becomes of the run,
* `PlaybackRun.breakOff_subject`: breaking a run off cuts off all of its lists, whatever the
  environment is, and calls handlers only to make them give up (`PlaybackRun.onlyAborts_breakOff`).
-/

namespace Playtest

open Playtest.Scene

namespace PlaybackRun

variable {b : Beat} {r : PlaybackRun} {env env' : Environment} {reason : String}

/-! ### Breaking off -/

/-- The run with the result that it has by now. -/
def ended (ranThrough : Bool) (r : PlaybackRun) : PlaybackRun :=
  { r with
    reporter := r.reporter.map fun reporter => reporter.addAll (r.outcome ranThrough).segments
    result := some (r.outcome ranThrough) }

/-- The run after it was **broken off** for a reason. -/
def cutOff (reason : String) (r : PlaybackRun) : PlaybackRun :=
  { r with lists := r.lists.map (ListRun.cutOff reason) }

/-- Breaking lists off cuts each of them off. -/
theorem abortLists_subject (ls : List ListRun) (env : Environment) :
    (abortLists reason ls env).subject = ls.map (ListRun.cutOff reason) := by
  induction ls generalizing env with
  | nil => rfl
  | cons l rest ih =>
    change (l.abort reason env).subject ::
      (abortLists reason rest (l.abort reason env).env).subject = _
    rw [ListRun.abort_subject, ih, List.map_cons]

/-- It calls handlers only to make them give up. -/
theorem onlyAborts_abortLists (ls : List ListRun) (env : Environment) :
    env.OnlyAborts (abortLists reason ls env).env := by
  induction ls generalizing env with
  | nil => exact .refl env
  | cons l rest ih => exact (ListRun.onlyAborts_abort reason (l := l)).trans (ih _)

/-- Breaking a run off cuts its lists off and gives it a result. -/
theorem breakOff_subject : (breakOff reason r env).subject = (r.cutOff reason).ended false := by
  change ended false { r with lists := (abortLists reason r.lists env).subject } = _
  rw [abortLists_subject]
  rfl

/-- And it calls handlers only to make them give up. -/
theorem onlyAborts_breakOff : env.OnlyAborts (breakOff reason r env).env :=
  onlyAborts_abortLists r.lists env

/-! ### The beginning of a tick -/

/-- The run when its tick has been counted and the signal was looked at. -/
def begun (b : Beat) (r : PlaybackRun) : PlaybackRun := (r.counted b.delta).listened b.signal

/-- The environment when the frame has become a snapshot. -/
def opened (b : Beat) (r : PlaybackRun) (env : Environment) : Environment :=
  { r.prepared env with resolver := ((r.prepared env).resolver.resolve b.frame).2.1 }

/-- What all segments look at in a tick. -/
def moment (b : Beat) (r : PlaybackRun) (env : Environment) : Moment where
  delta := b.delta
  snapshot := ((r.prepared env).resolver.resolve b.frame).1
  keyFrame := r.keyFrame

/-- How the environment is opened hangs only on how many ticks there were. -/
theorem opened_congr {r' : PlaybackRun} (h : r'.ticks = r.ticks) :
    r'.opened b env = r.opened b env := by
  unfold opened prepared
  rw [h]

/-- What there is to see hangs on that and on the key frame. -/
theorem moment_congr {r' : PlaybackRun} (h : r'.ticks = r.ticks) (hk : r'.keyFrame = r.keyFrame) :
    r'.moment b env = r.moment b env := by
  unfold moment prepared
  rw [h, hk]

/-- The run's listener **hears a signal** in a tick. -/
def Signalled (b : Beat) (r : PlaybackRun) : Prop :=
  ∃ listener, r.listener = some listener ∧ listener.hears b.signal

/-- The time of a run is up in a tick. -/
def Late (b : Beat) (r : PlaybackRun) (timeout : Float) : Prop :=
  r.timeout = some timeout ∧ timeout ≤ (r.counted b.delta).elapsed

/-- What is said about a run whose time is up. -/
def lateness (timeout : Float) : String := s!"Sequence timed out after {Number.display timeout}s"

/-- Behind its look at the signal, the listener is aborted if it hears one. -/
theorem begun_any_isAborted : (r.begun b).listener.any (·.isAborted) = true ↔ Signalled b r := by
  change (r.listener.map (·.look b.signal)).any (·.isAborted) = true ↔ _
  unfold Signalled
  cases r.listener with
  | none => simp
  | some listener => simp [Abort.Listener.look]

/-- A signal is in the way. -/
theorem obstacle?_of_signalled (h : Signalled b r) : (r.begun b).obstacle? = some Abort.message :=
  if_pos (begun_any_isAborted.mpr h)

/-- Without one it is only the time that may be. -/
theorem obstacle?_of_not_signalled (h : ¬ Signalled b r) :
    (r.begun b).obstacle? = r.timeout.bind fun timeout =>
      if timeout ≤ (r.counted b.delta).elapsed then some (lateness timeout) else none :=
  if_neg fun ha => h (begun_any_isAborted.mp ha)

/-- A time that is up is in the way. -/
theorem obstacle?_of_late {timeout : Float} (hs : ¬ Signalled b r) (h : Late b r timeout) :
    (r.begun b).obstacle? = some (lateness timeout) := by
  rw [obstacle?_of_not_signalled hs, h.1, Option.bind_some, if_pos h.2]

/-- And that is all. -/
theorem obstacle?_eq_none (hs : ¬ Signalled b r) (hl : ∀ timeout, ¬ Late b r timeout) :
    (r.begun b).obstacle? = none := by
  rw [obstacle?_of_not_signalled hs, Option.bind_eq_none_iff]
  exact fun timeout ht => if_neg fun h => hl timeout ⟨ht, h⟩

/-! ### Causes -/

/-- The **causes** for which a tick breaks the run off, the first one that holds. With the cause
come the lists and the environment as they are when it is found. -/
inductive Cause (b : Beat) (r : PlaybackRun) (env : Environment) :
    String → List ListRun → Environment → Prop
  | signalled (h : Signalled b r) : Cause b r env Abort.message r.lists (r.opened b env)
  | late {timeout : Float} (hs : ¬ Signalled b r) (h : Late b r timeout) :
      Cause b r env (lateness timeout) r.lists (r.opened b env)
  | fatal {front back : List ListRun} {l : ListRun} {s s' : SegmentRun} {rest : List SegmentRun}
      {played : Turn ListTicks} (hs : ¬ Signalled b r) (hl : ∀ timeout, ¬ Late b r timeout)
      (hlists : r.lists = front ++ l :: back) (hturn : HasTurn front l)
      (hplayed : played = tickLists (r.moment b env) front (r.opened b env))
      (hfront : played.subject.fatal = none) (ha : l.ahead = s :: rest) (hr : s.isRequired)
      (hs' : s' = (s.tick (r.moment b env) played.env).subject) (ht : s'.state.isTerminal)
      (hc : s'.state ≠ .completed) :
      Cause b r env (l.failure s')
        (played.subject.lists ++ { l.past s' rest with state := .finished } :: back)
        (s.tick (r.moment b env) played.env).env

/-- A run **in the middle of a tick** of another, with some lists. -/
structure Midway (b : Beat) (r : PlaybackRun) (lists : List ListRun) (r' : PlaybackRun) : Prop where
  lists : r'.lists = lists
  elapsed : r'.elapsed = (r.counted b.delta).elapsed
  timeout : r'.timeout = r.timeout
  result : r'.result = r.result

/-! ### What becomes of the run -/

/-- A run with a result has ended. -/
theorem isFinished_of_ended {result : RunResult} (h : r.result = some result) : r.isFinished := by
  rw [isFinished, h]
  rfl

/-- **A run that has ended** takes no notice of anything. -/
theorem tick_of_ended {result : RunResult} (h : r.result = some result) :
    r.tick b env = .still r env :=
  if_pos (isFinished_of_ended h)

/-- Neither can it be ended again. -/
theorem abort_of_ended {result : RunResult} (h : r.result = some result) :
    r.abort reason env = .still r env := if_pos (isFinished_of_ended h)

/-- A run without one has not. -/
theorem not_isFinished (h : r.result = none) : ¬ r.isFinished := by
  rw [isFinished, h]
  exact Bool.false_ne_true

/-- Ending a run from outside cuts it off. -/
theorem abort_subject (h : r.result = none) :
    (r.abort reason env).subject = (r.cutOff reason).ended false := by
  unfold abort
  rw [if_neg (not_isFinished h)]
  exact breakOff_subject

/-- A run that is broken off has a result, which is no success. -/
theorem exists_result_abort (reason : String) (env : Environment) (h : r.result = none) :
    ∃ result, (r.abort reason env).subject.result = some result ∧ result.success = false := by
  rw [abort_subject h]
  exact ⟨_, rfl, rfl⟩

/-- The obstacle decides about a tick of a run that has not ended. -/
theorem tick_eq (b : Beat) (env : Environment) (h : r.result = none) :
    let t := match (r.begun b).obstacle? with
      | some reason => breakOff reason (r.begun b) (r.opened b env)
      | none => advance b.delta (r.moment b env).snapshot (r.begun b) (r.opened b env)
    (r.tick b env).subject = t.subject ∧ (r.tick b env).env = t.env := by
  unfold tick
  rw [if_neg (not_isFinished h)]
  exact ⟨rfl, rfl⟩

/-- An obstacle breaks the run off before anything plays. -/
theorem tick_of_obstacle (h : r.result = none) (ho : (r.begun b).obstacle? = some reason) :
    (r.tick b env).subject = ((r.begun b).cutOff reason).ended false ∧
      (r.opened b env).OnlyAborts (r.tick b env).env := by
  have ht := tick_eq b env h
  rw [ho] at ht
  rw [ht.1, ht.2]
  exact ⟨breakOff_subject, onlyAborts_breakOff⟩

/-- The round of the lists that a tick plays. -/
def round (b : Beat) (r : PlaybackRun) (env : Environment) : Turn ListTicks :=
  tickLists (r.moment b env) r.lists (r.opened b env)

/-- The run when the lists have played their round. -/
def played (b : Beat) (r : PlaybackRun) (env : Environment) : PlaybackRun :=
  (r.begun b).takeOver (r.moment b env).snapshot (r.round b env).subject

/-- Behind its round, a run is in the middle of a tick. -/
theorem played_midway (b : Beat) (r : PlaybackRun) (env : Environment) :
    Midway b r (r.round b env).subject.lists (r.played b env) :=
  ⟨rfl, rfl, rfl, rfl⟩

/-- A tick without an obstacle plays a round of the lists, and looks at what has come of it. -/
theorem tick_of_no_obstacle (env : Environment) (h : r.result = none)
    (ho : (r.begun b).obstacle? = none) :
    let t := match (r.round b env).subject.fatal with
      | some reason =>
          (Turn.saying .error reason (r.played b env) (r.round b env).env).andThen (breakOff reason)
      | none =>
          if (r.played b env).lists.all ListRun.isFinished then
            finish true (r.played b env) (r.round b env).env
          else .still (r.played b env) (r.round b env).env
    (r.tick b env).subject = t.subject ∧ (r.tick b env).env = t.env := by
  have ht := tick_eq b env h
  rw [ho] at ht
  exact ht

/-- A segment that is fatal breaks the run off behind the round. -/
theorem tick_of_fatal (h : r.result = none) (ho : (r.begun b).obstacle? = none)
    (hf : (r.round b env).subject.fatal = some reason) :
    (r.tick b env).subject = ((r.played b env).cutOff reason).ended false ∧
      (r.round b env).env.OnlyAborts (r.tick b env).env := by
  have ht := tick_of_no_obstacle env h ho
  rw [hf] at ht
  rw [ht.1, ht.2]
  exact ⟨breakOff_subject, onlyAborts_breakOff⟩

/-- Otherwise the run ends when all of its lists have finished, and goes on until then. -/
theorem tick_of_not_fatal (h : r.result = none) (ho : (r.begun b).obstacle? = none)
    (hf : (r.round b env).subject.fatal = none) :
    (r.tick b env).env = (r.round b env).env ∧
      (r.tick b env).subject =
        if (r.played b env).lists.all ListRun.isFinished then (r.played b env).ended true
        else r.played b env := by
  have ht := tick_of_no_obstacle env h ho
  rw [hf] at ht
  rw [ht.1, ht.2]
  dsimp only
  split <;> exact ⟨rfl, rfl⟩

/-- Whatever a tick comes to, the listener has looked at the signal, and the time limit is the
same. -/
theorem commands_tick (h : r.result = none) (b : Beat) (env : Environment) :
    (r.tick b env).subject.listener = r.listener.map (·.look b.signal) ∧
      (r.tick b env).subject.timeout = r.timeout := by
  -- broken off at once, broken off behind the round, or neither
  cases ho : (r.begun b).obstacle? with
  | some reason =>
    rw [(tick_of_obstacle h ho).1]
    exact ⟨rfl, rfl⟩
  | none =>
    cases hf : (r.round b env).subject.fatal with
    | some reason =>
      rw [(tick_of_fatal h ho hf).1]
      exact ⟨rfl, rfl⟩
    | none =>
      rw [(tick_of_not_fatal h ho hf).2]
      split <;> exact ⟨rfl, rfl⟩

/-- A segment that the run needs and that does not complete makes the round fatal. -/
theorem round_of_fatal {front back : List ListRun} {l : ListRun} {s s' : SegmentRun}
    {rest : List SegmentRun} {before : Turn ListTicks} (hlists : r.lists = front ++ l :: back)
    (hturn : HasTurn front l) (hbefore : before = tickLists (r.moment b env) front (r.opened b env))
    (hfront : before.subject.fatal = none) (ha : l.ahead = s :: rest) (hr : s.isRequired)
    (hs' : s' = (s.tick (r.moment b env) before.env).subject) (ht : s'.state.isTerminal)
    (hc : s'.state ≠ .completed) :
    (r.round b env).subject.fatal = some (l.failure s') ∧
      (r.round b env).env = (s.tick (r.moment b env) before.env).env ∧
        (r.round b env).subject.lists =
          before.subject.lists ++ { l.past s' rest with state := .finished } :: back := by
  subst hbefore hs'
  -- the list is fatal, and nothing behind it plays
  obtain ⟨hl, he, henv⟩ := (ListRun.tick_plays hturn.1).fatal_of ha hr ht hc
  have hround := tickLists_of_fatal hturn back hfront he
  dsimp only at hround
  rw [← hlists, hl, henv] at hround
  exact hround

/-- The lists are as they were before the tick, or as a round has left them. -/
theorem Cause.lists_eq {lists : List ListRun} (h : Cause b r env reason lists env') :
    lists = r.lists ∨ lists = (r.round b env).subject.lists := by
  cases h with
  | signalled | late => exact .inl rfl
  | fatal hs hl hlists hturn hbefore hfront ha hr hs' ht hc =>
    exact .inr (round_of_fatal hlists hturn hbefore hfront ha hr hs' ht hc).2.2.symm

/-- **What becomes of a run when there is a cause.** The tick ends it with the lists cut off as they
were when the cause was found, and from then on handlers are only called to make them give up. -/
theorem tick_of_cause {lists : List ListRun} (h : r.result = none)
    (hc : Cause b r env reason lists env') :
    ∃ r', Midway b r lists r' ∧ (r.tick b env).subject = (r'.cutOff reason).ended false ∧
      env'.OnlyAborts (r.tick b env).env := by
  -- before the round, the run is as it was but for the time and the listener
  have hbegun : Midway b r r.lists (r.begun b) := ⟨rfl, rfl, rfl, rfl⟩
  cases hc with
  | signalled hs => exact ⟨r.begun b, hbegun, tick_of_obstacle h (obstacle?_of_signalled hs)⟩
  | late hs hl => exact ⟨r.begun b, hbegun, tick_of_obstacle h (obstacle?_of_late hs hl)⟩
  | fatal hs hl hlists hturn hbefore hfront ha hr hs' ht hc =>
    obtain ⟨hfatal, henv, hround⟩ := round_of_fatal hlists hturn hbefore hfront ha hr hs' ht hc
    obtain ⟨hsubject, honly⟩ := tick_of_fatal h (obstacle?_eq_none hs hl) hfatal
    exact ⟨r.played b env, { played_midway b r env with lists := hround }, hsubject, henv ▸ honly⟩

/-- Nothing breaks the run off in a tick. -/
def Undisturbed (b : Beat) (r : PlaybackRun) (env : Environment) : Prop :=
  ∀ reason lists env', ¬ Cause b r env reason lists env'

/-- Either there is a cause or there is none. -/
theorem undisturbed_or_cause (b : Beat) (r : PlaybackRun) (env : Environment) :
    Undisturbed b r env ∨ ∃ reason lists env', Cause b r env reason lists env' := by
  by_cases h : ∃ reason lists env', Cause b r env reason lists env'
  · exact .inr h
  · exact .inl fun reason lists env' hc => h ⟨reason, lists, env', hc⟩

/-- A tick that does not fail the run was not disturbed. -/
theorem undisturbed_of_success (h : r.result = none)
    (hs : ∀ result, (r.tick b env).subject.result = some result → result.success) :
    Undisturbed b r env := by
  intro reason lists env' hc
  -- a run that is broken off has failed
  obtain ⟨r', -, ht, -⟩ := tick_of_cause h hc
  exact absurd (hs (r'.cutOff reason |>.outcome false) (by rw [ht]; rfl)) Bool.false_ne_true

/-- Where nothing disturbs a tick, there is no signal. -/
theorem Undisturbed.not_signalled (h : Undisturbed b r env) : ¬ Signalled b r :=
  fun hs => h _ _ _ (.signalled hs)

/-- There is time left. -/
theorem Undisturbed.not_late (h : Undisturbed b r env) (timeout : Float) : ¬ Late b r timeout :=
  fun hl => h _ _ _ (.late h.not_signalled hl)

/-- And no segment is fatal. -/
theorem Undisturbed.not_fatal (h : Undisturbed b r env) : (r.round b env).subject.fatal = none := by
  cases hf : (r.round b env).subject.fatal with
  | none => rfl
  | some reason =>
    obtain ⟨front, l, back, hlists, hturn, hfront, he⟩ :=
      (tickLists_round (r.moment b env) r.lists (r.opened b env)).fatal_split hf
    -- only a segment that is needed and did not complete makes a list fatal, and that is a cause
    have hplays : l.Plays (r.moment b env) (tickLists (r.moment b env) front (r.opened b env)).env
        _ _ _ := ListRun.tick_plays hturn.1
    rw [he] at hplays
    obtain ⟨s, rest, ha, hr, ht, hc⟩ := hplays.of_fatal
    exact absurd (.fatal h.not_signalled h.not_late hlists hturn rfl hfront ha hr rfl ht hc)
      (h _ _ _)

/-- **What becomes of a run when there is no cause.** It plays a round of the lists, and ends if all
of them have finished. -/
theorem tick_of_undisturbed (h : r.result = none) (hn : Undisturbed b r env) :
    (r.tick b env).env = (r.round b env).env ∧
      (r.tick b env).subject =
        if (r.played b env).lists.all ListRun.isFinished then (r.played b env).ended true
        else r.played b env :=
  tick_of_not_fatal h (obstacle?_eq_none hn.not_signalled hn.not_late) hn.not_fatal

end PlaybackRun

end Playtest
