import Playtest.Proofs.Segment.Dialog

/-!
# Actions that are left unfinished

An action is left **unfinished** if it was accepted and never found complete. A segment that ends on
the way should tell the handler of such an action to give it up, and
`SegmentRun.unfinished_is_given_up` says when it does:

* a segment that has timed out has told it so, whether its own time was up or it was ended from
  outside,
* a segment that has failed has not, and there is just one reason for which that can happen: its
  criteria could not be evaluated. Nobody asks the handler to stop then
  (`SegmentRun.unheard_action_goes_on`).

All calls of a run are answered by one registry, which no run changes (`SegmentRun.Served`). It
takes that to know that the handler which has started an action is still there when it is to be
given up.

The invariant is `SegmentRun.Answers`, and goes with `SegmentRun.Talks`, which knows what was said
when. The half of it that matters is about segments that have not ended: an unfinished action is
under way by the flags of the run, and so the look at the time and an end from outside do not miss
it.
-/

namespace Playtest

open Playtest.Scene

namespace SegmentRun

variable {m : Moment} {env : Environment} {r r' : SegmentRun} {cs : List Call} {registry : Registry}
  {ks ls : List (Call.Kind × Reply)}

/-! ### Unfinished actions -/

/-- The action was accepted and **never found complete**. -/
def Unfinished (ks : List (Call.Kind × Reply)) : Prop :=
  (.start, .accepted) ∈ ks ∧ (.poll, .complete) ∉ ks

instance (ks : List (Call.Kind × Reply)) : Decidable (Unfinished ks) :=
  inferInstanceAs (Decidable (_ ∧ _))

/-- What is said after an action was accepted does not make it unfinished. -/
theorem Unfinished.of_append (h : Unfinished (ks ++ ls)) (hl : (.start, .accepted) ∉ ls) :
    Unfinished ks := by
  obtain ⟨hstart, hpoll⟩ := h
  refine ⟨(List.mem_append.mp hstart).resolve_right hl, fun hk => ?_⟩
  exact hpoll (List.mem_append_left ls hk)

/-- There is a handler for the segment's action in a registry. -/
def HasHandler (registry : Registry) (r : SegmentRun) : Prop :=
  ∀ env : Environment, env.registry = registry → ∃ handler, r.handler? env = some handler

/-- A handler that is found in one environment is found wherever the registry is the same. -/
theorem hasHandler_of_handler? {handler : HandlerName × Handler} (he : env.registry = registry)
    (hh : r.handler? env = some handler) : HasHandler registry r := by
  intro env' he'
  refine ⟨handler, ?_⟩
  rw [← hh, handler?, handler?, he, he']

/-! ### The invariant -/

/-- **The invariant**: what a run owes to the handler of an unfinished action. -/
structure Answers (registry : Registry) (r : SegmentRun) (ks : List (Call.Kind × Reply)) :
    Prop where
  underWay : ¬ r.state.isTerminal → Unfinished ks → r.isUnderWay ∧ HasHandler registry r
  /-- Nothing is given up before the segment ends. -/
  patient : ¬ r.state.isTerminal → (.abort, .nothing) ∉ ks
  timedOut : r.state = .timedOut → Unfinished ks → (.abort, .nothing) ∈ ks
  failed : r.state = .failed → Unfinished ks →
    (.abort, .nothing) ∉ ks ∧ ∃ e, r.detail = some (unevaluable e)

/-- While a segment waits, only what is under way matters. -/
theorem Answers.waiting (ht : ¬ r.state.isTerminal)
    (hu : Unfinished ks → r.isUnderWay ∧ HasHandler registry r) (ha : (.abort, .nothing) ∉ ks) :
    Answers registry r ks where
  underWay := fun _ => hu
  patient := fun _ => ha
  timedOut := fun hs => absurd (by rw [hs]; rfl) ht
  failed := fun hs => absurd (by rw [hs]; rfl) ht

/-- Nothing is owed for an action that is not unfinished. -/
theorem Answers.settled (hu : ¬ Unfinished ks)
    (ha : ¬ r.state.isTerminal → (.abort, .nothing) ∉ ks) : Answers registry r ks where
  underWay := fun _ h => absurd h hu
  patient := ha
  timedOut := fun _ h => absurd h hu
  failed := fun _ h => absurd h hu

/-- Nothing is owed by a segment that completes, and by one that was never reached. -/
theorem Answers.quit (hs : r.state = .completed ∨ r.state = .skipped) : Answers registry r ks := by
  have ht : r.state.isTerminal := by rcases hs with hs | hs <;> rw [hs] <;> rfl
  refine ⟨fun hn => absurd ht hn, fun hn => absurd ht hn, fun h => ?_, fun h => ?_⟩ <;>
    rcases hs with hs | hs <;> exact absurd (hs.symm.trans h) (by decide)

/-- A part of a tick keeps the invariant that leaves alone what is under way. -/
theorem Answers.of_eq (h : Answers registry r ks) (ht : ¬ r.state.isTerminal)
    (ht' : ¬ r'.state.isTerminal) (ho : r'.origin = r.origin) (hu : r'.isUnderWay = r.isUnderWay) :
    Answers registry r' ks := by
  refine .waiting ht' (fun hk => ?_) (h.patient ht)
  obtain ⟨hway, hhandler⟩ := h.underWay ht hk
  refine ⟨hu ▸ hway, fun env he => ?_⟩
  obtain ⟨handler, hh⟩ := hhandler env he
  have hsegment : r'.segment = r.segment := by injection ho
  exact ⟨handler, by rw [handler?, hsegment, ← handler?, hh]⟩

/-! ### Ticks -/

/-- What a tick opens with keeps the invariant. -/
theorem Answers.opens (h : Answers registry r ks) (ht : Talks r ks) (he : env.registry = registry)
    (ho : Opens m env (r.counted m.delta) cs r') :
    Answers registry r' (ks ++ gist (env.registry.replies env.calls cs)) := by
  -- before a segment waits for completion nothing was said, and so nothing is unfinished
  have silent : r.state = .pending ∨ r.state = .awaitingEntry ∨ r.state = .executing → ks = [] := by
    rintro (hs | hs | hs) <;> exact (ht.early (by rw [hs]; decide) (by rw [hs]; decide)).2
  -- a segment that waits on owes what it has owed
  have unmoved : ∀ {r' : SegmentRun}, ¬ r.state.isTerminal → ¬ r'.state.isTerminal →
      r'.origin = r.origin → r'.isUnderWay = r.isUnderWay → Answers registry r' (ks ++ gist []) :=
    fun hs hs' ho hu => (List.append_nil ks).symm ▸ h.of_eq hs hs' ho hu
  have nothing : ∀ {r' : SegmentRun}, ks = [] → Answers registry r' (ks ++ gist []) := by
    rintro r' rfl
    exact .settled (by decide) fun _ => List.not_mem_nil
  cases ho with
  | begin hs => exact nothing (silent (.inl hs))
  | wait hs => exact nothing (silent (.inr (.inl hs)))
  | pass hs => exact nothing (silent (.inr (.inr hs)))
  | missing hs => exact nothing (silent (.inr (.inr hs)))
  | astray hs => exact nothing (silent (.inr (.inr hs)))
  | unable hs => exact nothing (silent (.inr (.inr hs)))
  | idle hs =>
    have hs : ¬ r.state.isTerminal := by rw [show r.state = _ from hs]; decide
    exact unmoved hs hs rfl rfl
  | refuse aim herror =>
    obtain rfl := silent (.inr (.inr aim.state))
    rw [gist_single, Registry.reply_start_error aim.handler herror]
    exact .settled (by show ¬ Unfinished [(.start, .refused)]; decide) fun hn => absurd rfl hn
  | @start _ _ handler _ aim call hc hok =>
    obtain rfl := silent (.inr (.inr aim.state))
    rw [gist_pair]
    subst hc
    rw [Registry.reply_start_ok aim.handler hok, Registry.reply_poll aim.handler]
    have hwaits : ∀ isComplete, ¬ ((r.counted m.delta).started isComplete).state.isTerminal :=
      fun _ => Bool.false_ne_true
    -- the handler is asked right after the start, and has either finished by then or is under way
    cases handler.2.isComplete (env.calls ++ [_]) (r.counted m.delta).number m.snapshot with
    | true =>
      exact .settled (by show ¬ Unfinished [(.start, .accepted), (.poll, .complete)]; decide)
        fun _ => by simp [Call.kind]
    | false =>
      have hhandler := hasHandler_of_handler? he aim.handler?_eq
      exact .waiting (hwaits false) (fun _ => ⟨rfl, hhandler⟩) (by simp [Call.kind])
  | @poll handler hs hn hh =>
    have hterminal : ¬ r.state.isTerminal := by rw [show r.state = _ from hs]; decide
    obtain ⟨action, -, hreg⟩ := Option.bind_eq_some_iff.mp hh
    rw [gist_single, Registry.reply_poll hreg]
    cases hd : handler.2.isComplete env.calls (r.counted m.delta).number m.snapshot with
    | true =>
      refine .settled (fun hu => hu.2 ?_) fun _ hk => ?_
      · exact List.mem_append_right ks (List.mem_singleton.mpr rfl)
      · refine h.patient hterminal ((List.mem_append.mp hk).resolve_right ?_)
        show _ ∉ [(Call.Kind.poll, Reply.complete)]
        decide
    | false =>
      -- what has gone on being under way was under way before
      refine .waiting hterminal (fun hu => ?_) fun hk => ?_
      · have hbefore : Unfinished ks := hu.of_append (by show _ ∉ [(Call.Kind.poll, _)]; decide)
        obtain ⟨hway, -⟩ := h.underWay hterminal hbefore
        have hdispatched : r.isDispatched = true := (Bool.and_eq_true _ _ ▸ hway).1
        refine ⟨?_, hasHandler_of_handler? he hh⟩
        show (r.isDispatched && !false) = true
        rw [hdispatched]
        rfl
      · refine h.patient hterminal ((List.mem_append.mp hk).resolve_right ?_)
        show _ ∉ [(Call.Kind.poll, Reply.incomplete)]
        decide

/-- A segment fails with an action unfinished only if its criteria cannot be evaluated. -/
theorem Answers.inspects {env' : Environment} (h : Answers registry r ks) (ht : Talks r ks)
    (hi : Inspects m env r r' env') : Answers registry r' ks := by
  cases hi with
  | rest => exact h
  | tooNew hs =>
    -- nothing has been said to a handler yet
    obtain ⟨-, rfl⟩ := ht.early (by rw [hs]; decide) (by rw [hs]; decide)
    exact .settled (by decide) fun _ => List.not_mem_nil
  | @fail phase hs e he =>
    have hterminal : ¬ r.state.isTerminal := hs ▸ phase.state_not_isTerminal
    exact {
      underWay := fun hn => absurd rfl hn
      patient := fun hn => absurd rfl hn
      timedOut := fun hs => absurd (show SegmentState.failed = .timedOut from hs) (by decide)
      failed := fun _ _ => ⟨h.patient hterminal, e, rfl⟩ }
  | wait phase hs =>
    have hterminal : ¬ r.state.isTerminal := hs ▸ phase.state_not_isTerminal
    exact h.of_eq hterminal hterminal rfl rfl
  | hold phase hs =>
    have hterminal : ¬ r.state.isTerminal := hs ▸ phase.state_not_isTerminal
    cases phase with
    | entry => exact h.of_eq hterminal Bool.false_ne_true rfl rfl
    | completion => exact .quit (.inl rfl)

/-- Giving up is what an unfinished action gets from a segment that ends by running out of time. -/
theorem Answers.givingUp (h : Answers registry r ks) (ht : ¬ r.state.isTerminal)
    (he : env.registry = registry) (hs : r'.state = .timedOut) :
    Answers registry r' (ks ++ gist (env.registry.replies env.calls (r.givingUp env))) := by
  have hterminal : r'.state.isTerminal := by rw [hs]; rfl
  refine ⟨fun hn => absurd hterminal hn, fun hn => absurd hterminal hn, fun _ hu => ?_,
    fun hf => absurd (hs.symm.trans hf) (by decide)⟩
  refine List.mem_append_right ks ?_
  -- nothing is started by giving up, so the action was unfinished before
  have hbefore : Unfinished ks := by
    refine hu.of_append fun hk => ?_
    obtain ⟨e, hmem, heq⟩ := List.mem_map.mp hk
    have hcall : e.1 ∈ r.givingUp env := by
      rw [← Registry.map_fst_replies env.registry (r.givingUp env) env.calls]
      exact List.mem_map_of_mem hmem
    obtain ⟨handler, -, hc⟩ := mem_givingUp hcall
    rw [hc] at heq
    exact absurd (congrArg Prod.fst heq) (show Call.Kind.abort ≠ .start by decide)
  -- the registry is the one that has started it, and so its handler is there to be told
  obtain ⟨hway, hhandler⟩ := h.underWay ht hbefore
  obtain ⟨handler, hh⟩ := hhandler env he
  have hcalls : r.givingUp env = [.abort handler.1 r.number] := by
    rw [SegmentRun.givingUp, if_pos hway, hh]
    rfl
  obtain ⟨action, -, hreg⟩ := Option.bind_eq_some_iff.mp hh
  rw [hcalls, gist_single, Registry.reply_of_handler? hreg rfl]
  exact List.mem_singleton.mpr rfl

/-- The look at the time keeps the invariant. -/
theorem Answers.closes (h : Answers registry r ks) (he : env.registry = registry)
    (hc : Closes env r cs r') :
    Answers registry r' (ks ++ gist (env.registry.replies env.calls cs)) := by
  cases hc with
  | inTime => exact (List.append_nil ks).symm ▸ h
  | late ht => exact h.givingUp ht he rfl

/-- **A tick keeps the invariant.** -/
theorem Answers.tick (h : Answers registry r ks) (ht : Talks r ks) (m : Moment)
    (he : env.registry = registry) :
    Answers registry (r.tick m env).subject (ks ++ gist (env.dialog (r.tick m env).env)) := by
  by_cases hover : r.state.isTerminal
  · rw [tick_of_isTerminal m env hover]
    have hd : env.dialog env = [] := (Environment.Made.refl env).dialog_eq
    rw [Turn.env_still, hd]
    exact (List.append_nil ks).symm ▸ h
  · obtain ⟨cs, ds, env₂, r₁, r₂, ho, hi, hc, henv⟩ := tick_stages m env hover
    obtain ⟨hj, hlook⟩ := hi.judges
    have hmade : env.Made cs env₂ := (Environment.Made.calling env cs).trans_none hlook
    have hlast : env₂.Made ds (r.tick m env).env := by
      rw [henv]
      exact (Environment.Made.calling env₂ ds).trans_none (releaseIfOver_made _ _).2
    rw [hmade.dialog_trans hlast, gist_append, ← List.append_assoc]
    -- looking at criteria needs to know what was said by the time the tick has opened
    have hopened := h.opens ht he ho
    exact (hopened.inspects (ht.opens ho) hi).closes (hmade.registry.trans he) hc

/-- Skipping keeps the invariant. -/
theorem Answers.skipped (h : Answers registry r ks) : Answers registry r.skipped ks := by
  unfold SegmentRun.skipped
  split
  · exact .quit (.inr rfl)
  · exact h

/-- Breaking a run off keeps the invariant. -/
theorem Answers.cutOff (h : Answers registry r ks) (reason : String)
    (he : env.registry = registry) :
    Answers registry (r.cutOff reason)
      (ks ++ gist (env.registry.replies env.calls (r.callsOff env))) := by
  by_cases hw : r.state.isWaiting
  · have ht : ¬ r.state.isTerminal := fun ht => SegmentState.not_isWaiting_of_isTerminal ht hw
    have hp : r.state ≠ .pending := by
      intro hp
      rw [hp] at hw
      exact absurd hw (by decide)
    have hstate : (r.cutOff reason).state = .timedOut := by
      rw [SegmentRun.cutOff, if_neg ht, if_neg hp]
    rw [callsOff, if_pos hw]
    exact h.givingUp ht he hstate
  · -- a segment that does not wait has ended, or is skipped without a word
    rw [callsOff, if_neg hw]
    refine (List.append_nil ks).symm ▸ ?_
    by_cases ht : r.state.isTerminal
    · rw [SegmentRun.cutOff, if_pos ht]
      exact h
    · have hp : r.state = .pending := by
        by_contra hp
        exact hw (SegmentState.isWaiting_of_isBegun (SegmentState.isBegun_of_ne_pending ht hp) ht)
      rw [SegmentRun.cutOff, if_neg ht, if_pos hp]
      exact h.skipped

/-! ### Runs -/

/-- The runs of a segment whose handlers are those of **one registry**, with all that was said on
the way. Everything else about the environments of the calls may differ. -/
inductive Served (registry : Registry) : SegmentRun → List (Call × Reply) → Prop
  | of (s : Segment) (list : String) (number : Nat) (isRequired : Bool) :
      Served registry (.of s list number isRequired) []
  | tick (m : Moment) {env : Environment} (he : env.registry = registry) {r : SegmentRun}
      {es : List (Call × Reply)} (h : Served registry r es) :
      Served registry (r.tick m env).subject (es ++ env.dialog (r.tick m env).env)
  | abort (reason : String) {env : Environment} (he : env.registry = registry) {r : SegmentRun}
      {es : List (Call × Reply)} (h : Served registry r es) :
      Served registry (r.abort reason env).subject (es ++ env.dialog (r.abort reason env).env)
  | skip {env : Environment} (he : env.registry = registry) {r : SegmentRun}
      {es : List (Call × Reply)} (h : Served registry r es) :
      Served registry (r.skip env).subject (es ++ env.dialog (r.skip env).env)

variable {es : List (Call × Reply)}

/-- A run with one registry is a run with all that was said. -/
theorem Served.converses (h : Served registry r es) : Converses r es := by
  induction h with
  | of => exact .of ..
  | tick m _ _ ih => exact .tick m _ ih
  | abort reason _ _ ih => exact .abort reason _ ih
  | skip _ _ ih => exact .skip _ ih

/-- **Every run with one registry keeps the invariant.** -/
theorem Served.answers (h : Served registry r es) : Answers registry r (gist es) := by
  induction h with
  | of => exact .settled (by decide) fun _ => List.not_mem_nil
  | tick m he h ih =>
    rw [gist_append]
    exact ih.tick h.converses.talks m he
  | @abort reason env he r _ h ih =>
    rw [gist_append, abort_subject, (abort_made env reason).dialog_eq]
    exact ih.cutOff reason he
  | @skip env he r _ h ih =>
    rw [dialog_skip r env, List.append_nil, (skip_eq env).1]
    exact ih.skipped

/-- Whatever the gist of a conversation mentions was said about the segment. -/
theorem Served.mem_of_gist (h : Served registry r es) (ha : (.abort, .nothing) ∈ gist es) :
    ∃ handler, (.abort handler r.number, .nothing) ∈ es := by
  obtain ⟨⟨c, reply⟩, hmem, heq⟩ := List.mem_map.mp ha
  obtain ⟨hkind, rfl⟩ := Prod.mk.inj heq
  have hsegment : c.segment = r.number := h.converses.segment_eq _ hmem
  cases c with
  | abort handler segment => exact ⟨handler, (show segment = r.number from hsegment) ▸ hmem⟩
  | start => exact absurd hkind (show Call.Kind.start ≠ .abort by decide)
  | poll => exact absurd hkind (show Call.Kind.poll ≠ .abort by decide)

/-- **When an unfinished action is given up.** If a segment has timed out, then the handler of an
action that was accepted and never found complete was told to give it up. If the segment has failed,
then it was not, and the reason is that the criteria of the segment could not be evaluated. -/
theorem unfinished_is_given_up (h : Served registry r es) (hu : Unfinished (gist es)) :
    (r.state = .timedOut → ∃ handler, (.abort handler r.number, .nothing) ∈ es) ∧
      (r.state = .failed → (.abort, .nothing) ∉ gist es ∧ ∃ e, r.detail = some (unevaluable e)) :=
  ⟨fun hs => h.mem_of_gist (h.answers.timedOut hs hu), fun hs => h.answers.failed hs hu⟩

/-- No tick changes the registry. -/
theorem registry_tick (r : SegmentRun) (m : Moment) (env : Environment) :
    (r.tick m env).env.registry = env.registry := by
  by_cases ht : r.state.isTerminal
  · rw [tick_of_isTerminal m env ht]
    rfl
  · obtain ⟨cs, ds, env₁, r₁, r₂, -, hm, -, -, hm'⟩ := tick_parts m env ht
    exact (hm.trans hm').registry

/-- The registry at the door. -/
def doorkeepers : Registry := Registry.empty.withFallback idler

/-- Each of the ticks at the door is one with the registry there. -/
theorem atDoor_served (n : Nat) :
    (atDoor n).2.registry = doorkeepers ∧ Served doorkeepers (atDoor n).1 (saidAtDoor n) := by
  induction n with
  | zero => exact ⟨rfl, .of ..⟩
  | succ n ih => exact ⟨(registry_tick _ _ _).trans ih.1, ih.2.tick _ ih.1⟩

/-- The door that nobody opens is given up when it is closing time. -/
theorem door_is_given_up :
    Unfinished (gist (saidAtLast 3)) ∧
      ((atDoor 3).1.abort "closing time" (atDoor 3).2).subject.state = .timedOut ∧
        ∃ handler, (.abort handler 1, .nothing) ∈ saidAtLast 3 := by
  obtain ⟨he, h⟩ := atDoor_served 3
  -- breaking it off is one more call of the run
  have hlast : Served doorkeepers ((atDoor 3).1.abort "closing time" (atDoor 3).2).subject
      (saidAtLast 3) := h.abort _ he
  have hu : Unfinished (gist (saidAtLast 3)) := by decide +kernel
  have hs : ((atDoor 3).1.abort "closing time" (atDoor 3).2).subject.state = .timedOut := by
    decide +kernel
  have hnumber : ((atDoor 3).1.abort "closing time" (atDoor 3).2).subject.number = 1 := by
    decide +kernel
  exact ⟨hu, hs, hnumber ▸ (unfinished_is_given_up hlast hu).1 hs⟩

/-- The opening of the door, which is over when a condition holds that nobody knows. -/
def unheard : Segment := { opening with endCriteria := [.of (.custom "unheard" .null)] }

/-- A second in front of the door. -/
def inFront : Moment := ⟨1.0, ⟨0, none, [door], none⟩, none⟩

/-- The first tick of the unheard opening. -/
def unheardOnce : Turn SegmentRun :=
  (SegmentRun.of unheard "Doors" 1 true).tick inFront (.of doorkeepers)

/-- The second tick of the unheard opening. -/
def unheardTwice : Turn SegmentRun := unheardOnce.subject.tick inFront unheardOnce.env

/-- What was said in the two ticks. -/
def saidUnheard : List (Call × Reply) :=
  (Environment.of doorkeepers).dialog unheardOnce.env ++ unheardOnce.env.dialog unheardTwice.env

/-- **A segment may fail and leave its action going on.** The handler has accepted the action and
has not finished, and is not told that nobody waits for it any more. -/
theorem unheard_action_goes_on :
    ¬ ∀ (registry : Registry) (r : SegmentRun) (es : List (Call × Reply)), Served registry r es →
      Unfinished (gist es) → r.state = .timedOut ∨ r.state = .failed →
        ∃ handler, (.abort handler r.number, .nothing) ∈ es := by
  intro hall
  have hregistry : unheardOnce.env.registry = doorkeepers := registry_tick _ _ _
  have hfirst := (Served.of unheard "Doors" 1 true).tick inFront
    (rfl : (Environment.of doorkeepers).registry = doorkeepers)
  have hserved : Served doorkeepers unheardTwice.subject saidUnheard :=
    hfirst.tick inFront hregistry
  -- if it were told, there would be a call to give up
  obtain ⟨handler, hmem⟩ := hall doorkeepers unheardTwice.subject saidUnheard hserved
    (by decide +kernel) (.inr (by decide +kernel))
  have habort : (Call.Kind.abort, Reply.nothing) ∈ gist saidUnheard := List.mem_map_of_mem hmem
  exact absurd habort (by decide +kernel)

end SegmentRun

end Playtest
