import Playtest.Proofs.Segment.Course

/-!
# A segment in two environments

An environment has a past: calls that handlers remember, paths, requests and replies. This module is
about what a segment can notice of it. Two environments are `Environment.Alike` if everybody who is
asked in them gives the same answers from now on, and they are `Environment.InStep` if, besides, the
same paths are remembered and no vision request is in flight. Replies, indices and the requests that
were sent may differ.

The main result is `SegmentRun.agrees_tick`. A segment that never asks the vision service becomes
the same in environments that are in step, and leaves them in step. Each part of a tick agrees by
itself, and `Turn.Agrees` goes through one part after another (`Turn.Agrees.andThen`). That answers
are the same holds on because both pasts grow by the same calls.
-/

namespace Playtest

open Playtest.Scene

/-! ### Criteria that never ask -/

namespace Criteria

mutual

/-- Whether a criteria, or one below it, asks the vision service. -/
def asksVision : Criteria → Bool
  | single _ _ (.vision _ _) => true
  | single _ _ _ => false
  | group _ _ _ members => anyAsksVision members

/-- Whether one of several criteria, or one below them, asks the vision service. -/
def anyAsksVision : List Criteria → Bool
  | [] => false
  | c :: cs => asksVision c || anyAsksVision cs

end

open Vision.Coordinator

mutual

/-- Below a criteria that never asks there is no query. -/
theorem query?_of_mem_keyed (key : Key) :
    ∀ c : Criteria, c.asksVision = false → ∀ e ∈ keyed key c, query? e.2 = none
  | single _ _ test => by
    intro h e he
    rw [List.mem_singleton.mp he]
    cases test with
    | vision => cases h
    | _ => rfl
  | group _ _ _ members => by
    intro h e he
    rcases List.mem_cons.mp he with rfl | he
    · rfl
    · exact query?_of_mem_keyedFrom key 0 members h e he

/-- Below several criteria that never ask there is no query. -/
theorem query?_of_mem_keyedFrom (parent : Key) : ∀ (position : Nat) (cs : List Criteria),
    anyAsksVision cs = false → ∀ e ∈ keyedFrom parent position cs, query? e.2 = none
  | _, [] => fun _ _ he => absurd he List.not_mem_nil
  | position, c :: cs => by
    intro h e he
    obtain ⟨hc, hcs⟩ := Bool.or_eq_false_iff.mp h
    rcases List.mem_append.mp he with he | he
    · exact query?_of_mem_keyed (parent.member position) c hc e he
    · exact query?_of_mem_keyedFrom parent (position + 1) cs hcs e he

end

/-- Criteria that never ask want nothing. -/
theorem wanted_eq_nil {cs : List Criteria} (h : anyAsksVision cs = false) (parent : Key) :
    wanted parent cs = [] := by
  refine List.filterMap_eq_nil_iff.mpr fun e he => ?_
  rw [query?_of_mem_keyedFrom parent 0 cs h e he]
  rfl

end Criteria

/-- Whether a segment asks the vision service. -/
def Segment.asksVision (s : Segment) : Bool :=
  Criteria.anyAsksVision s.entryCriteria || Criteria.anyAsksVision s.endCriteria

/-! ### Environments -/

/-- Two handlers **answer alike** after some calls each: to whatever they are called for from then
on. -/
structure Handler.Alike (earlier earlier' : List Call) (f f' : Handler) : Prop where
  start : ∀ later segment action targets s,
    f'.start (earlier' ++ later) segment action targets s =
      f.start (earlier ++ later) segment action targets s
  isComplete : ∀ later segment s,
    f'.isComplete (earlier' ++ later) segment s = f.isComplete (earlier ++ later) segment s

/-- What two registries have for an action type is **alike**: nothing, or handlers under one name
that answer alike. -/
inductive Handler.FoundAlike (earlier earlier' : List Call) :
    Option (HandlerName × Handler) → Option (HandlerName × Handler) → Prop
  | none : FoundAlike earlier earlier' none none
  | some (name : HandlerName) {f f' : Handler} (h : f.Alike earlier earlier' f') :
      FoundAlike earlier earlier' (some (name, f)) (some (name, f'))

/-- Two monitors of validations **answer alike** after some calls each, whoever asks from then
on. -/
def ValidationMonitor.Alike (earlier earlier' : List Call) (v v' : ValidationMonitor) : Prop :=
  ∀ later segment, v'.pending (earlier' ++ later) segment = v.pending (earlier ++ later) segment

section Answers

variable {earlier earlier' : List Call}

/-- Handlers that answer alike do so after one more call. -/
theorem Handler.Alike.called {f f' : Handler} (h : f.Alike earlier earlier' f') (c : Call) :
    f.Alike (earlier ++ [c]) (earlier' ++ [c]) f' where
  start later segment action targets s := by
    rw [List.append_assoc, List.append_assoc]
    exact h.start ([c] ++ later) segment action targets s
  isComplete later segment s := by
    rw [List.append_assoc, List.append_assoc]
    exact h.isComplete ([c] ++ later) segment s

/-- What was found alike is alike after one more call. -/
theorem Handler.FoundAlike.called {found found' : Option (HandlerName × Handler)}
    (h : FoundAlike earlier earlier' found found') (c : Call) :
    FoundAlike (earlier ++ [c]) (earlier' ++ [c]) found found' := by
  cases h with
  | none => exact .none
  | some name h => exact .some name (h.called c)

/-- Monitors that answer alike do so after one more call. -/
theorem ValidationMonitor.Alike.called {v v' : ValidationMonitor} (h : v.Alike earlier earlier' v')
    (c : Call) : v.Alike (earlier ++ [c]) (earlier' ++ [c]) v' := fun later segment => by
  rw [List.append_assoc, List.append_assoc]
  exact h ([c] ++ later) segment

end Answers

namespace Environment

variable {env env' : Environment}

/-- Handlers, predicates and the monitor of validations **answer alike** in two environments. -/
structure Alike (env env' : Environment) : Prop where
  handlers : ∀ type, Handler.FoundAlike env.calls env'.calls
    (env.registry.handler? type) (env'.registry.handler? type)
  predicates : env'.registry.predicate? = env.registry.predicate?
  validations : env.pendingValidations.Alike env.calls env'.calls env'.pendingValidations

/-- Two environments are **in step** during a run that never asks the vision service. -/
structure InStep (env env' : Environment) : Prop extends Alike env env' where
  resolver : env'.resolver = env.resolver
  outstanding : env.vision.outstanding = [] ∧ env'.vision.outstanding = []

/-- A new run is in step from the beginning, since it forgets paths and requests. -/
theorem Alike.reset (h : env.Alike env') : env.reset.InStep env'.reset :=
  ⟨⟨h.handlers, h.predicates, h.validations⟩, rfl, rfl, rfl⟩

/-- Environments in step stay in step when the same call is made in both. -/
theorem InStep.called (h : env.InStep env') (c : Call) : (env.called c).InStep (env'.called c) :=
  ⟨⟨fun type => (h.handlers type).called c, h.predicates, h.validations.called c⟩,
    h.resolver, h.outstanding⟩

/-- They stay in step when the same paths are remembered in both. -/
theorem InStep.resolved (h : env.InStep env') (resolver : Resolver) :
    { env with resolver }.InStep { env' with resolver } :=
  ⟨⟨h.handlers, h.predicates, h.validations⟩, rfl, h.outstanding⟩

/-- They stay in step when requests are abandoned, as there are none. -/
theorem InStep.released (h : env.InStep env') (start : String) :
    { env with vision := env.vision.release start }.InStep
      { env' with vision := env'.vision.release start } := by
  refine ⟨⟨h.handlers, h.predicates, h.validations⟩, h.resolver, ?_⟩
  unfold Vision.Coordinator.release
  rw [h.outstanding.1, h.outstanding.2]
  exact ⟨rfl, rfl⟩

/-- A reply is known by the request in flight, however many are recorded. -/
theorem reply_of_nothing_outstanding {c : Vision.Coordinator} (h : c.outstanding = []) (key : Key) :
    c.reply key = none := by
  unfold Vision.Coordinator.reply Vision.Coordinator.index?
  rw [h]
  rfl

end Environment

/-! ### Turns -/

namespace Turn

variable {α β : Type} {R : α → Environment → Environment → Prop}
  {S : β → Environment → Environment → Prop} {t t' : Turn α}

/-- Two turns **agree**: they come to the same, with environments that are related. -/
structure Agrees (R : α → Environment → Environment → Prop) (t t' : Turn α) : Prop where
  subject : t'.subject = t.subject
  related : R t.subject t.env t'.env

/-- One turn after another agrees, if the second one does wherever the first one leads. -/
theorem Agrees.andThen {f f' : α → Environment → Turn β} (h : Agrees R t t')
    (hf : ∀ a env env', R a env env' → Agrees S (f a env) (f' a env')) :
    Agrees S (t.andThen f) (t'.andThen f') := by
  have hnext := hf _ _ _ h.related
  refine ⟨?_, ?_⟩
  · rw [subject_andThen, subject_andThen, h.subject]
    exact hnext.subject
  · rw [subject_andThen, env_andThen, env_andThen, h.subject]
    exact hnext.related

/-- Turns agree in what is made of them, if that goes with how the environments are related. -/
theorem Agrees.map {f : α → β} (h : Agrees R t t')
    (hf : ∀ a env env', R a env env' → S (f a) env env') :
    Agrees S (t.map f) (t'.map f) := by
  refine ⟨?_, hf _ _ _ h.related⟩
  rw [subject_map, subject_map, h.subject]

end Turn

/-! ### Parts of a tick -/

namespace SegmentRun

open Turn

variable {r r' : SegmentRun} {env env' : Environment}

/-- A segment that never asks the vision service, in environments that are in step. -/
structure Steady (r : SegmentRun) (env env' : Environment) : Prop where
  silent : r.segment.asksVision = false
  envs : env.InStep env'

theorem Steady.noting (h : Steady r env env') (hr : r'.segment = r.segment) : Steady r' env env' :=
  ⟨hr ▸ h.silent, h.envs⟩

/-- A segment stays steady when the same call is made in both environments. -/
theorem Steady.called (h : Steady r env env') (c : Call) :
    Steady r (env.called c) (env'.called c) :=
  ⟨h.silent, h.envs.called c⟩

/-- Neither the entry nor the end criteria of such a segment ask. -/
theorem anyAsksVision_criteria (h : r.segment.asksVision = false) (phase : Phase) :
    Criteria.anyAsksVision (r.criteria phase) = false := by
  obtain ⟨hentry, hend⟩ := Bool.or_eq_false_iff.mp h
  cases phase with
  | entry => exact hentry
  | completion => exact hend

theorem agrees_enter (state : SegmentState) (h : Steady r env env') :
    Agrees Steady (enter state r env) (enter state r env') :=
  ⟨rfl, h.noting rfl⟩

theorem agrees_fail (reason : String) (h : Steady r env env') :
    Agrees Steady (fail reason r env) (fail reason r env') :=
  ⟨rfl, h.noting rfl⟩

/-- Sending the requests of a segment that never asks sends none. -/
theorem askVision_eq (h : r.segment.asksVision = false) (phase : Phase) (m : Moment)
    (env : Environment) : askVision phase m r env = .still r env := by
  unfold askVision Vision.Coordinator.prepare
  rw [Criteria.wanted_eq_nil (anyAsksVision_criteria h phase)]
  rfl

/-- Abandoning the requests of a phase agrees. -/
theorem agrees_releaseVision (phase : Phase) (h : Steady r env env') :
    Agrees Steady (releaseVision phase r env) (releaseVision phase r env') :=
  ⟨rfl, h.silent, h.envs.released (r.key phase)⟩

/-- Both look at the same: neither of them knows of a reply. -/
theorem view_eq (h : env.InStep env') (r : SegmentRun) (m : Moment) :
    r.view m env' = r.view m env := by
  have hreply : env'.vision.reply = env.vision.reply := by
    funext key
    rw [Environment.reply_of_nothing_outstanding h.outstanding.1,
      Environment.reply_of_nothing_outstanding h.outstanding.2]
  -- the monitor was asked after nothing more than its past
  have hpending := h.validations [] r.number
  rw [List.append_nil, List.append_nil] at hpending
  unfold view
  rw [hreply, hpending, h.predicates]

/-- Judging the criteria of a phase agrees, because both judge the same. -/
theorem agrees_judge (phase : Phase) (m : Moment) (h : Steady r env env') :
    Agrees Steady (judge phase m r env) (judge phase m r env') := by
  unfold judge
  rw [view_eq h.envs]
  -- both evaluations are this one
  rcases Criteria.evaluateAll (r.view m env) (r.key phase) (r.criteria phase) (r.join phase) with
    ⟨e | status, notes⟩
  · exact ⟨rfl, h.noting rfl⟩
  · have hnoted : Steady (r.noted status notes.latched) env env' := h.noting rfl
    dsimp only
    split
    · -- the requests of the phase are abandoned, and the next phase is entered
      have hseen : Agrees Steady
          (⟨r.noted status notes.latched, env, notes.messages⟩ : Turn SegmentRun)
          ⟨r.noted status notes.latched, env', notes.messages⟩ := ⟨rfl, hnoted⟩
      exact (hseen.andThen fun _ _ _ => agrees_releaseVision phase).andThen
        fun _ _ _ => agrees_enter phase.next
    · exact ⟨rfl, hnoted⟩

theorem agrees_await (phase : Phase) (m : Moment) (h : Steady r env env') :
    Agrees Steady (await phase m r env) (await phase m r env') := by
  unfold await
  rw [askVision_eq h.silent, askVision_eq h.silent]
  exact agrees_judge phase m h

/-- A segment begins alike. -/
theorem agrees_begin (m : Moment) (h : Steady r env env') :
    Agrees Steady (begin m r env) (begin m r env') := by
  refine (agrees_enter .awaitingEntry h).andThen fun r env env' h => ?_
  dsimp only
  split
  · exact agrees_fail _ h
  · exact agrees_await .entry m h

/-! ### The action -/

section Handler

variable {name : HandlerName} {f f' : Handler}

/-- A steady segment, the action of which two handlers **handle** alike. -/
structure Handled (f f' : Handler) (r : SegmentRun) (env env' : Environment) : Prop
    extends Steady r env env' where
  handlers : f.Alike env.calls env'.calls f'

/-- The two handlers still answer alike when one has started the action. -/
theorem agrees_start (action : Action) (targets : List Entity) (m : Moment)
    (h : Handled f f' r env env') :
    Agrees (Handled f f') (start (name, f) action targets m r env)
      (start (name, f') action targets m r env') := by
  -- the handler is asked after nothing more than its past, which is where it answers alike
  have hanswer := h.handlers.start [] r.number action targets m.snapshot
  rw [List.append_nil, List.append_nil] at hanswer
  have hcalled := h.called (.start name r.number action targets m.snapshot)
  unfold start
  dsimp only
  rw [hanswer]
  cases f.start env.calls r.number action targets m.snapshot with
  | ok _ => exact ⟨rfl, hcalled.noting rfl, h.handlers.called _⟩
  | error causes => exact ⟨rfl, hcalled.noting rfl, h.handlers.called _⟩

theorem agrees_ask (m : Moment) (h : Handled f f' r env env') :
    Agrees Steady (ask (name, f) m r env) (ask (name, f') m r env') := by
  have hanswer := h.handlers.isComplete [] r.number m.snapshot
  rw [List.append_nil, List.append_nil] at hanswer
  refine ⟨?_, (h.called (.poll name r.number m.snapshot)).noting rfl⟩
  change { r with isActionComplete := f'.isComplete env'.calls r.number m.snapshot } =
    { r with isActionComplete := f.isComplete env.calls r.number m.snapshot }
  rw [hanswer]

end Handler

theorem agrees_dispatch (m : Moment) (h : Steady r env env') :
    Agrees Steady (dispatch m r env) (dispatch m r env') := by
  unfold dispatch
  -- in the order of `dispatch`: the action, its version, its targets, its handler
  split
  · exact ⟨rfl, h.noting rfl⟩
  next action _ =>
  split
  · exact agrees_fail _ h
  split
  · exact ⟨rfl, h.noting rfl⟩
  next targets _ =>
  dsimp only
  -- there is a handler in both environments, or in none
  have hfound := h.envs.handlers action.type
  generalize env.registry.handler? action.type = found at hfound ⊢
  generalize env'.registry.handler? action.type = found' at hfound ⊢
  cases hfound with
  | none => exact ⟨rfl, h.noting rfl⟩
  | some name hf =>
    have haimed : Agrees (Handled _ _) ⟨r, env, r.targetMessages action targets⟩
        ⟨r, env', r.targetMessages action targets⟩ := ⟨rfl, h, hf⟩
    refine (haimed.andThen fun _ _ _ => agrees_start action targets m).andThen
      fun r env env' h => ?_
    -- a start that was refused has ended the segment
    split
    · exact ⟨rfl, h.toSteady⟩
    · exact agrees_ask m h

/-- What a segment finds as its handler is alike. -/
theorem handler?_alike (h : Steady r env env') :
    Handler.FoundAlike env.calls env'.calls (r.handler? env) (r.handler? env') := by
  unfold handler?
  cases r.segment.action with
  | none => exact .none
  | some action => exact h.envs.handlers action.type

theorem agrees_poll (m : Moment) (h : Steady r env env') :
    Agrees Steady (poll m r env) (poll m r env') := by
  unfold poll
  split
  · exact ⟨rfl, h⟩
  have hfound := handler?_alike h
  -- either no handler is found, or both are alike
  generalize r.handler? env = found at hfound ⊢
  generalize r.handler? env' = found' at hfound ⊢
  cases hfound with
  | none => exact ⟨rfl, h⟩
  | some name hf =>
    refine (agrees_ask m ⟨h, hf⟩).andThen fun r env env' h => ?_
    split <;> exact ⟨rfl, h⟩

theorem agrees_abortAction (h : Steady r env env') :
    Agrees Steady (abortAction r env) (abortAction r env') := by
  unfold abortAction
  split
  · exact ⟨rfl, h⟩
  have hfound := handler?_alike h
  -- either no handler is found, or both are alike
  generalize r.handler? env = found at hfound ⊢
  generalize r.handler? env' = found' at hfound ⊢
  cases hfound with
  | none => exact ⟨rfl, h⟩
  | some name _ => exact ⟨rfl, h.called (.abort name r.number)⟩

/-! ### A tick -/

/-- All that a tick does before it looks at the time agrees. -/
theorem agrees_advance (m : Moment) (h : Steady r env env') :
    Agrees Steady (advance m r env) (advance m r env') := by
  unfold advance
  -- in the order of the states
  split
  · exact agrees_begin m h
  · exact agrees_await .entry m h
  · refine (agrees_dispatch m h).andThen fun r env env' h => ?_
    split
    · exact (agrees_enter .awaitingCompletion h).andThen fun _ _ _ => agrees_await .completion m
    · exact ⟨rfl, h⟩
  · exact (agrees_poll m h).andThen fun _ _ _ => agrees_await .completion m
  all_goals exact ⟨rfl, h⟩

theorem agrees_checkTimeout (h : Steady r env env') :
    Agrees Steady (checkTimeout r env) (checkTimeout r env') := by
  unfold checkTimeout
  split
  · have hsaid : Agrees Steady (Turn.saying .warn s!"Segment `{r.name}` {r.timeoutReason}" r env)
        (Turn.saying .warn s!"Segment `{r.name}` {r.timeoutReason}" r env') := ⟨rfl, h⟩
    have hgivenUp := hsaid.andThen fun _ _ _ => agrees_abortAction
    refine Agrees.andThen (hgivenUp.map fun _ _ _ h => ?_) fun _ _ _ => agrees_enter .timedOut
    exact h.noting rfl
  · exact ⟨rfl, h⟩

theorem agrees_releaseIfOver (h : Steady r env env') :
    Agrees Steady (releaseIfOver r env) (releaseIfOver r env') := by
  unfold releaseIfOver
  split
  · exact (agrees_releaseVision .entry h).andThen fun _ _ _ => agrees_releaseVision .completion
  · exact ⟨rfl, h⟩

/-- **A tick comes to the same in environments that are in step**, and leaves them in step. -/
theorem agrees_tick (m : Moment) (h : Steady r env env') :
    Agrees Steady (r.tick m env) (r.tick m env') := by
  unfold tick
  split
  · exact ⟨rfl, h⟩
  · have hcounted : Steady (r.counted m.delta) env env' := h.noting rfl
    have hadvanced := (agrees_advance m hcounted).andThen fun _ _ _ => agrees_checkTimeout
    exact hadvanced.andThen fun _ _ _ => agrees_releaseIfOver

end SegmentRun

end Playtest
