import Playtest.Proofs.Scene.Snapshot
import Playtest.Proofs.Segment.History

/-!
# What a segment says to its handler

A handler is called to start an action, to ask about it, and to give it up.
`SegmentRun.Conversation` says in which order one segment may do that, reply by reply, and the main
result, `SegmentRun.calls_follow_protocol`, is that every segment keeps to it, whatever its handler
replies.

Other segments may call the same handler in between. What a segment and its handler have said to
each other is what was said while something was done with the segment (`Environment.dialog`), put
together over all that was ever done with it (`SegmentRun.Converses`).

The invariant behind the result is `SegmentRun.Talks`. Two flags of a run decide about calls,
whether its action was dispatched and whether it is complete, and the invariant ties them to what
was said so far: before a segment waits for completion nothing was said, and while it does, an
action that is not complete was accepted and was never found complete.
-/

namespace Playtest

open Playtest.Scene

namespace SegmentRun

variable {m : Moment} {env env' : Environment} {r r' : SegmentRun} {cs : List Call}

/-! ### Conversations -/

/-- What was said, without what it was about. -/
def gist (es : List (Call × Reply)) : List (Call.Kind × Reply) := es.map fun e => (e.1.kind, e.2)

/-- What has been said while an action was asked about some times and never found complete. -/
def asked (n : Nat) : List (Call.Kind × Reply) :=
  (.start, .accepted) :: List.replicate n (.poll, .incomplete)

/-- **What a segment and its handler may say to each other.** The action is accepted or refused,
then asked about, and in the end it is found complete or given up. A conversation may stand at any
point of that. -/
inductive Conversation : List (Call.Kind × Reply) → Prop
  | silent : Conversation []
  | refused : Conversation [(.start, .refused)]
  | underWay (n : Nat) : Conversation (asked n)
  | completed (n : Nat) : Conversation (asked n ++ [(.poll, .complete)])
  | givenUp (n : Nat) : Conversation (asked n ++ [(.abort, .nothing)])

/-- The gist of a single call is its kind with the reply to it. -/
theorem gist_single (c : Call) (earlier : List Call) (registry : Registry) :
    gist (registry.replies earlier [c]) = [(c.kind, registry.reply earlier c)] := rfl

/-- The gist of two calls has the first among the earlier ones of the second. -/
theorem gist_pair (c d : Call) (earlier : List Call) (registry : Registry) :
    gist (registry.replies earlier [c, d]) =
      [(c.kind, registry.reply earlier c), (d.kind, registry.reply (earlier ++ [c]) d)] := rfl

/-- Asked about once more, an action has got one more answer that it is incomplete. -/
theorem asked_succ (n : Nat) : asked (n + 1) = asked n ++ [(.poll, .incomplete)] := by
  rw [asked, asked, List.replicate_succ', List.cons_append]

/-! ### The invariant -/

/-- **The invariant**: what was said so far fits the state and the flags of the run. -/
structure Talks (r : SegmentRun) (ks : List (Call.Kind × Reply)) : Prop where
  conversation : Conversation ks
  /-- Nothing is said before a segment waits for completion. -/
  early : ¬ r.state.isTerminal → r.state ≠ .awaitingCompletion → r.isDispatched = false ∧ ks = []
  /-- An action that is not complete was never found complete. -/
  underWay : r.state = .awaitingCompletion → r.isActionComplete = false → ∃ n, ks = asked n

variable {ks : List (Call.Kind × Reply)}

/-- In the end, nothing is required but a conversation. -/
theorem Talks.atEnd (h : Conversation ks) (ht : r.state.isTerminal) : Talks r ks where
  conversation := h
  early := fun hn => absurd ht hn
  underWay := fun hs => absurd ht (by rw [hs]; exact Bool.false_ne_true)

/-- Where nothing was dispatched and nothing is under way, nothing has to have been said. -/
theorem Talks.silent (hs : r.state ≠ .awaitingCompletion) (hd : r.isDispatched = false) :
    Talks r [] where
  conversation := .silent
  early := fun _ _ => ⟨hd, rfl⟩
  underWay := fun h => absurd h hs

/-- While a segment waits for an action, only whether it is complete counts. -/
theorem Talks.waiting (h : Conversation ks) (hs : r.state = .awaitingCompletion)
    (hu : r.isActionComplete = false → ∃ n, ks = asked n) : Talks r ks where
  conversation := h
  early := fun _ hn => absurd hs hn
  underWay := fun _ hc => hu hc

/-- The invariant looks at nothing of the run but its state and its two flags. -/
theorem Talks.of_eq (h : Talks r ks) (hs : r'.state = r.state)
    (hd : r'.isDispatched = r.isDispatched) (hc : r'.isActionComplete = r.isActionComplete) :
    Talks r' ks := by
  refine ⟨h.conversation, ?_, ?_⟩
  · rw [hs, hd]
    exact h.early
  · rw [hs, hc]
    exact h.underWay

/-- What a tick opens with is added to the conversation. -/
theorem Talks.opens (h : Talks r ks) (ho : Opens m env (r.counted m.delta) cs r') :
    Talks r' (ks ++ gist (env.registry.replies env.calls cs)) := by
  -- up to and including executing, nothing was said and nothing can be under way
  have early : r.state = .pending ∨ r.state = .awaitingEntry ∨ r.state = .executing →
      r.isDispatched = false ∧ ks = [] := by
    rintro (hs | hs | hs) <;> exact h.early (by rw [hs]; decide) (by rw [hs]; decide)
  have unmoved : Talks (r.counted m.delta) (ks ++ gist []) :=
    (List.append_nil ks).symm ▸ h.of_eq rfl rfl rfl
  cases ho with
  | wait | idle => exact unmoved
  | missing hs => exact unmoved.of_eq rfl rfl rfl
  | begin hs =>
    obtain ⟨hd, rfl⟩ := early (.inl hs)
    exact .silent (show SegmentState.awaitingEntry ≠ .awaitingCompletion by decide) hd
  | pass hs =>
    obtain ⟨-, rfl⟩ := early (.inr (.inr hs))
    exact .waiting .silent rfl fun hc => absurd (show true = false from hc) (by decide)
  | astray hs hd =>
    obtain ⟨hn, -⟩ := early (.inr (.inr hs))
    exact absurd hd (ne_true_of_eq_false hn)
  | unable hs =>
    obtain ⟨-, rfl⟩ := early (.inr (.inr hs))
    exact .atEnd .silent rfl
  | refuse aim he =>
    obtain ⟨-, rfl⟩ := early (.inr (.inr aim.state))
    rw [gist_single, Registry.reply_start_error aim.handler he]
    exact .atEnd .refused rfl
  | @start _ _ handler _ aim call hc he =>
    obtain ⟨-, rfl⟩ := early (.inr (.inr aim.state))
    rw [gist_pair]
    subst hc
    rw [Registry.reply_start_ok aim.handler he, Registry.reply_poll aim.handler]
    -- the handler is asked right after the start, and may have finished by then
    cases hd : handler.2.isComplete (env.calls ++ [_]) (r.counted m.delta).number m.snapshot with
    | false => exact .waiting (.underWay 1) rfl fun _ => ⟨1, rfl⟩
    | true => exact .waiting (.completed 0) rfl fun hn => absurd hn (by simp [started, entered])
  | @poll handler hs hn hh =>
    obtain ⟨n, rfl⟩ := h.underWay hs (eq_false_of_ne_true hn)
    obtain ⟨action, -, hh⟩ := Option.bind_eq_some_iff.mp hh
    rw [gist_single, Registry.reply_poll hh]
    cases hd : handler.2.isComplete env.calls (r.counted m.delta).number m.snapshot with
    | false =>
      exact .waiting (asked_succ n ▸ .underWay (n + 1)) hs fun _ => ⟨n + 1, (asked_succ n).symm⟩
    | true => exact .waiting (.completed n) hs fun hn => absurd hn (by simp)

/-- Judging criteria keeps the invariant, and says nothing. -/
theorem Talks.judges (h : Talks r ks) (hj : Judges r r') : Talks r' ks := by
  have noted : ∀ {r'}, Noted r r' → Talks r' ks := by
    rintro _ ⟨latched, lastUnmet, validationsTimedOut⟩
    exact h.of_eq rfl rfl rfl
  cases hj with
  | rest hn => exact noted hn
  | fail => exact .atEnd h.conversation rfl
  | hold phase hs hn =>
    cases phase with
    | completion => exact .atEnd h.conversation rfl
    | entry =>
      -- executing comes before waiting for completion, too
      have hs : _ = SegmentState.awaitingEntry := hn.state_eq.trans hs
      obtain ⟨hd, rfl⟩ := (noted hn).early (by rw [hs]; decide) (by rw [hs]; decide)
      exact .silent (show SegmentState.executing ≠ .awaitingCompletion by decide) hd

/-- Giving up comes after being asked about, and only if there is something left to give up. -/
theorem Talks.givingUp (h : Talks r ks) (ht : ¬ r.state.isTerminal) :
    Conversation (ks ++ gist (env.registry.replies env.calls (r.givingUp env))) := by
  unfold SegmentRun.givingUp
  split
  · next hu =>
    -- an action that was dispatched and has not ended is one that the segment waits for
    obtain ⟨hd, hc⟩ : r.isDispatched = true ∧ r.isActionComplete = false := by
      simpa [isUnderWay] using hu
    have hs : r.state = .awaitingCompletion :=
      Decidable.byContradiction fun hs => ne_true_of_eq_false (h.early ht hs).1 hd
    obtain ⟨n, rfl⟩ := h.underWay hs hc
    rcases hh : r.handler? env with _ | handler
    · exact (List.append_nil (asked n)).symm ▸ .underWay n
    · obtain ⟨action, -, hh⟩ := Option.bind_eq_some_iff.mp hh
      show Conversation (asked n ++
        gist (env.registry.replies env.calls [.abort handler.1 r.number]))
      rw [gist_single, Registry.reply_of_handler? hh rfl]
      exact .givenUp n
  · exact (List.append_nil ks).symm ▸ h.conversation

/-- The look at the time adds at most that the action is given up. -/
theorem Talks.closes (h : Talks r ks) (hc : Closes env r cs r') :
    Talks r' (ks ++ gist (env.registry.replies env.calls cs)) := by
  cases hc with
  | inTime => exact (List.append_nil ks).symm ▸ h
  | late ht => exact .atEnd (h.givingUp ht) rfl

/-- The gist of one dialog after another is that of the first and then that of the second. -/
theorem gist_append (es es' : List (Call × Reply)) : gist (es ++ es') = gist es ++ gist es' :=
  List.map_append

/-- **A tick goes on with the conversation.** -/
theorem Talks.tick (h : Talks r ks) (m : Moment) (env : Environment) :
    Talks (r.tick m env).subject (ks ++ gist (env.dialog (r.tick m env).env)) := by
  by_cases ht : r.state.isTerminal
  · rw [tick_of_isTerminal m env ht]
    have hd : env.dialog env = [] := (Environment.Made.refl env).dialog_eq
    rw [Turn.env_still, hd]
    exact (List.append_nil ks).symm ▸ h
  · obtain ⟨cs, ds, env₁, r₁, r₂, ho, hm, hj, hc, hm'⟩ := tick_parts m env ht
    -- what opens the tick is said first, then what closes it; judging in between says nothing
    rw [hm.dialog_trans hm', gist_append, ← List.append_assoc]
    exact ((h.opens ho).judges hj).closes hc

/-- Breaking a run off adds at most that the action is given up. -/
theorem Talks.cutOff (h : Talks r ks) (reason : String) (env : Environment) :
    Talks (r.cutOff reason) (ks ++ gist (env.registry.replies env.calls (r.callsOff env))) := by
  refine .atEnd ?_ (isTerminal_cutOff reason)
  unfold callsOff
  split
  · next hw => exact h.givingUp fun ht => SegmentState.not_isWaiting_of_isTerminal ht hw
  · exact (List.append_nil ks).symm ▸ h.conversation

/-- Skipping a run adds nothing. -/
theorem Talks.skipped (h : Talks r ks) : Talks r.skipped ks := by
  unfold SegmentRun.skipped
  split
  · exact .atEnd h.conversation rfl
  · exact h

/-! ### Single calls -/

/-- A call is a segment's **own** if it is made for the segment, on the handler of its action. -/
def Owns (r : SegmentRun) (env : Environment) (c : Call) : Prop :=
  c.segment = r.number ∧ (r.handler? env).map Prod.fst = some c.handler

/-- The handler that an action is started on is the one of the action. -/
theorem Aims.handler?_eq {action : Action} {targets : List Entity} {handler : HandlerName × Handler}
    (aim : Aims m env r action targets handler) : r.handler? env = some handler := by
  rw [handler?, aim.action]
  exact aim.handler

/-- The calls that open a tick are the segment's own. -/
theorem Opens.owns (h : Opens m env r cs r') : ∀ c ∈ cs, r.Owns env c := by
  -- a call belongs to the segment by its number and by the handler of its action
  have own : ∀ {c : Call} {handler}, r.handler? env = some handler → c.segment = r.number →
      c.handler = handler.1 → r.Owns env c := by
    intro c handler hh hn hc
    exact ⟨hn, by rw [hh, hc]; rfl⟩
  cases h with
  | refuse aim => exact List.forall_mem_singleton.mpr (own aim.handler?_eq rfl rfl)
  | start aim hc =>
    exact List.forall_mem_cons.mpr ⟨own aim.handler?_eq (by rw [hc]; rfl) (by rw [hc]; rfl),
      List.forall_mem_singleton.mpr (own aim.handler?_eq rfl rfl)⟩
  | poll _ _ hh => exact List.forall_mem_singleton.mpr (own hh rfl rfl)
  | _ => exact fun c hc => absurd hc List.not_mem_nil

/-- The calls that give an action up are the segment's own, and nothing but that. -/
theorem givingUp_owns : ∀ c ∈ r.givingUp env, r.Owns env c ∧ c.kind = .abort := by
  intro c hc
  obtain ⟨handler, hh, rfl⟩ := mem_givingUp hc
  exact ⟨⟨rfl, by rw [hh]; rfl⟩, rfl⟩

/-- The calls that close a tick are the segment's own, to give its action up. -/
theorem Closes.owns (h : Closes env r cs r') : ∀ c ∈ cs, r.Owns env c ∧ c.kind = .abort := by
  cases h with
  | inTime => exact fun c hc => absurd hc List.not_mem_nil
  | late => exact givingUp_owns

/-- Whom a segment may call is given by what it was made of. -/
theorem Owns.of_origin {c : Call} (h : r'.Owns env' c) (ho : r'.origin = r.origin)
    (he : env'.registry = env.registry) : r.Owns env c := by
  injection ho with hs _ hn
  unfold Owns handler? at h ⊢
  rwa [← hs, ← hn, ← he]

/-- The **targets** that an action is started with: none without a selector, and with one all that
it matches in the snapshot, in order. -/
def Aimed (action : Action) (s : Snapshot) (targets : List Entity) : Prop :=
  match action.target with
  | none => targets = []
  | some target =>
      targets ≠ [] ∧
        (s.Ordered → targets = s.entities.filter target.isMatch ∧ Increasing targets)

/-- The targets that are found are the ones that an action is to be started with. -/
theorem aimed_of_targets? {action : Action} {s : Snapshot} {targets : List Entity}
    (h : targets? action s = some targets) : Aimed action s targets := by
  unfold targets? at h
  unfold Aimed
  cases ht : action.target with
  | none =>
    rw [ht] at h
    exact (Option.some.inj h).symm
  | some target =>
    rw [ht] at h
    dsimp only at h
    split at h
    · cases h
    · -- a selector that matches nothing finds no targets at all
      next hne =>
      obtain rfl := Option.some.inj h
      exact ⟨hne, fun ho => ⟨Snapshot.select_eq_filter ho target,
        Snapshot.increasing_select ho target⟩⟩

/-- What is true of a **start** that a tick makes. -/
structure WellStarted (m : Moment) (r r' : SegmentRun) (action : Action) (targets : List Entity)
    (snapshot : Snapshot) : Prop where
  /-- The segment has entered executing on an earlier tick. -/
  later : ∀ t, (.executing, t) ∈ r'.history → t < r'.ticks
  action_eq : r.segment.action = some action
  snapshot_eq : snapshot = m.snapshot
  aimed : Aimed action m.snapshot targets

/-- A start opens a tick of a segment that is executing, with its action and the targets of that. -/
theorem Opens.of_start_mem (h : Opens m env r cs r') {handler : HandlerName} {segment : Nat}
    {action : Action} {targets : List Entity} {snapshot : Snapshot}
    (hc : .start handler segment action targets snapshot ∈ cs) :
    r.state = .executing ∧ r.segment.action = some action ∧ snapshot = m.snapshot ∧
      targets? action m.snapshot = some targets := by
  cases h with
  | refuse aim =>
    cases List.mem_singleton.mp hc
    exact ⟨aim.state, aim.action, rfl, aim.targets⟩
  | start aim heq =>
    -- it is the start itself, since what follows is a question
    rcases List.mem_cons.mp hc with hc | hc
    · cases hc.trans heq
      exact ⟨aim.state, aim.action, rfl, aim.targets⟩
    · cases List.mem_singleton.mp hc
  | poll => cases List.mem_singleton.mp hc
  | _ => exact absurd hc List.not_mem_nil

/-- The calls that a tick makes are made where it opens, and to give up where it closes. -/
theorem tick_calls (m : Moment) (env : Environment) (h : ¬ r.state.isTerminal) :
    ∃ cs ds r₁, Opens m env (r.counted m.delta) cs r₁ ∧
      env.callsUntil (r.tick m env).env = cs ++ ds ∧ ∀ c ∈ ds, r.Owns env c ∧ c.kind = .abort := by
  obtain ⟨cs, ds, env₁, r₁, r₂, ho, hm, hj, hc, hm'⟩ := tick_parts m env h
  refine ⟨cs, ds, r₁, ho, (hm.trans hm').callsUntil_eq, fun c hd => ?_⟩
  obtain ⟨hown, hk⟩ := hc.owns c hd
  exact ⟨hown.of_origin (ho.onward.1.trans hj.onward).origin hm.registry, hk⟩

/-- All the calls of a tick are the segment's own. -/
theorem tick_owns (m : Moment) (env : Environment) :
    ∀ c ∈ env.callsUntil (r.tick m env).env, r.Owns env c := by
  intro c hc
  by_cases h : r.state.isTerminal
  · rw [tick_of_isTerminal m env h, Turn.env_still,
      (Environment.Made.refl env).callsUntil_eq] at hc
    exact absurd hc List.not_mem_nil
  · obtain ⟨cs, ds, r₁, ho, hcalls, hds⟩ := tick_calls m env h
    -- the calls that open the tick, and those that close it
    rw [hcalls] at hc
    rcases List.mem_append.mp hc with hc | hc
    · exact (ho.owns c hc).of_origin rfl rfl
    · exact (hds c hc).1

/-- **A start is well made.** -/
theorem Charted.wellStarted (h : Charted r) {handler : HandlerName} {segment : Nat}
    {action : Action} {targets : List Entity} {snapshot : Snapshot}
    (hc : .start handler segment action targets snapshot ∈ env.callsUntil (r.tick m env).env) :
    WellStarted m r (r.tick m env).subject action targets snapshot := by
  by_cases ht : r.state.isTerminal
  · rw [tick_of_isTerminal m env ht, Turn.env_still,
      (Environment.Made.refl env).callsUntil_eq] at hc
    exact absurd hc List.not_mem_nil
  · obtain ⟨cs, ds, r₁, ho, hcalls, hds⟩ := tick_calls m env ht
    rw [hcalls] at hc
    rcases List.mem_append.mp hc with hc | hc
    · obtain ⟨hs, haction, hsnapshot, htargets⟩ := ho.of_start_mem hc
      exact ⟨fun t => h.executing_lt hs m env, haction, hsnapshot, aimed_of_targets? htargets⟩
    · -- a tick is only closed by calls to give up
      exact absurd (hds _ hc).2 (show Call.Kind.start ≠ .abort by decide)

/-- All the calls of an abort are the segment's own, to give its action up. -/
theorem abort_calls (reason : String) (env : Environment) :
    ∀ c ∈ env.callsUntil (r.abort reason env).env, r.Owns env c ∧ c.kind = .abort := by
  intro c hc
  rw [(abort_made env reason).callsUntil_eq] at hc
  exact givingUp_owns c (callsOff_subset env hc)

/-! ### Whole conversations -/

/-- The runs that any calls of a segment lead to, with **all that was said** between the segment and
its handler on the way. Others may have called the handler in between. -/
inductive Converses : SegmentRun → List (Call × Reply) → Prop
  | of (s : Segment) (list : String) (number : Nat) (isRequired : Bool) :
      Converses (.of s list number isRequired) []
  | tick (m : Moment) (env : Environment) {r : SegmentRun} {es : List (Call × Reply)}
      (h : Converses r es) : Converses (r.tick m env).subject (es ++ env.dialog (r.tick m env).env)
  | abort (reason : String) (env : Environment) {r : SegmentRun} {es : List (Call × Reply)}
      (h : Converses r es) :
      Converses (r.abort reason env).subject (es ++ env.dialog (r.abort reason env).env)
  | skip (env : Environment) {r : SegmentRun} {es : List (Call × Reply)} (h : Converses r es) :
      Converses (r.skip env).subject (es ++ env.dialog (r.skip env).env)

variable {es : List (Call × Reply)}

/-- A run with all that was said can be reached. -/
theorem Converses.reachable (h : Converses r es) : Reachable r := by
  induction h with
  | of => exact .of ..
  | tick m env _ ih => exact .tick m env ih
  | abort reason env _ ih => exact .abort reason env ih
  | skip env _ ih => exact .skip env ih

theorem dialog_skip (r : SegmentRun) (env : Environment) : env.dialog (r.skip env).env = [] := by
  rw [(skip_eq env).2]
  exact (Environment.Made.refl env).dialog_eq

/-- **What was said fits the run**, whichever calls it has got. -/
theorem Converses.talks (h : Converses r es) : Talks r (gist es) := by
  induction h with
  | of => exact .silent (show SegmentState.pending ≠ .awaitingCompletion by decide) rfl
  | tick m env _ ih =>
    rw [gist_append]
    exact ih.tick m env
  | abort reason env _ ih =>
    rw [gist_append, abort_subject, (abort_made env reason).dialog_eq]
    exact ih.cutOff reason env
  | @skip env r _ _ ih =>
    rw [dialog_skip r env, List.append_nil, (skip_eq env).1]
    exact ih.skipped

/-- All that is said is said about the segment. -/
theorem Converses.segment_eq (h : Converses r es) : ∀ e ∈ es, e.1.segment = r.number := by
  -- one call of the segment, whichever it is, keeps to the segment and adds calls of its own
  have said : ∀ {env env' : Environment} {r r' : SegmentRun} {es : List (Call × Reply)},
      (∀ c ∈ env.callsUntil env', r.Owns env c) → r'.origin = r.origin →
      (∀ e ∈ es, e.1.segment = r.number) →
        ∀ e ∈ es ++ env.dialog env', e.1.segment = r'.number := by
    intro env env' r r' es hown ho ih e he
    rw [number_eq_of_origin ho]
    rcases List.mem_append.mp he with he | he
    · exact ih e he
    · have hc : e.1 ∈ env.callsUntil env' := by
        rw [← Registry.map_fst_replies env.registry (env.callsUntil env') env.calls]
        exact List.mem_map_of_mem he
      exact (hown e.1 hc).1
  induction h with
  | of => exact fun e he => absurd he List.not_mem_nil
  | tick m env _ ih => exact said (tick_owns m env) (origin_tick m env) ih
  | abort reason env _ ih =>
    refine said (fun c hc => (abort_calls reason env c hc).1) ?_ ih
    rw [abort_subject]
    exact origin_cutOff reason
  | @skip env r _ _ ih =>
    rw [dialog_skip r env, List.append_nil, (skip_eq env).1, number_eq_of_origin origin_skipped]
    exact ih

/-- **Calls follow the protocol.** All that a segment and its handler have said to each other is a
conversation about the segment, and it is over when the segment is. A tick may call none but the
handler of the segment's action, and starts the action only when and with what it should; an abort
does nothing but give up. The snapshots that frames resolve to are the ordered ones that targets
need. -/
theorem calls_follow_protocol (h : Converses r es) :
    Conversation (gist es) ∧ (∀ e ∈ es, e.1.segment = r.number) ∧
      (r.state.isTerminal → ∀ env,
        (∀ m, (r.tick m env).env = env) ∧ ∀ reason, (r.abort reason env).env = env) ∧
      (∀ m env, (∀ c ∈ env.callsUntil (r.tick m env).env, r.Owns env c) ∧
        ∀ handler segment action targets snapshot,
          .start handler segment action targets snapshot ∈ env.callsUntil (r.tick m env).env →
            WellStarted m r (r.tick m env).subject action targets snapshot) ∧
      (∀ reason env, ∀ c ∈ env.callsUntil (r.abort reason env).env,
        r.Owns env c ∧ c.kind = .abort) ∧
      ∀ (resolver : Resolver) (f : Frame), (resolver.resolve f).1.Ordered := by
  refine ⟨h.talks.conversation, h.segment_eq, fun ht env => ⟨fun m => ?_, fun reason => ?_⟩,
    fun m env => ⟨tick_owns m env, fun _ _ _ _ _ hc => ?_⟩, abort_calls, Resolver.resolve_ordered⟩
  · rw [tick_of_isTerminal m env ht]
    rfl
  · rw [abort, if_pos ht]
    rfl
  · exact h.reachable.charted.wellStarted hc

/-- A door that is to be opened. -/
def door : Entity := ⟨7, none, "/Door", "/Door", none, []⟩

/-- A segment that opens the door and waits until that is done. -/
def opening : Segment :=
  { Segment.ofName "Open" with
    action := some ((Action.of "open" .null).withTarget (.path "/Door"))
    endCriteria := [.of .actionComplete] }

/-- A handler that opens nothing. -/
def idler : Handler := ⟨fun _ _ _ _ _ => .ok (), fun _ _ _ => false, fun _ => []⟩

/-- The segment and its environment at the door, after some ticks. -/
def atDoor : Nat → SegmentRun × Environment
  | 0 => (.of opening "Doors" 1 true, .of (Registry.empty.withFallback idler))
  | n + 1 =>
      let t := (atDoor n).1.tick ⟨1.0, ⟨0, none, [door], none⟩, none⟩ (atDoor n).2
      (t.subject, t.env)

/-- What was said at the door after some ticks. -/
def saidAtDoor : Nat → List (Call × Reply)
  | 0 => []
  | n + 1 => saidAtDoor n ++ (atDoor n).2.dialog (atDoor (n + 1)).2

/-- Each of the ticks at the door is one of a run with all that was said. -/
theorem atDoor_converses (n : Nat) : Converses (atDoor n).1 (saidAtDoor n) := by
  induction n with
  | zero => exact .of ..
  | succ n ih => exact ih.tick _ _

/-- What was said at the door when it was given up after some ticks. -/
def saidAtLast (n : Nat) : List (Call × Reply) :=
  saidAtDoor n ++ (atDoor n).2.dialog ((atDoor n).1.abort "closing time" (atDoor n).2).env

/-- Nobody opens the door: the handler is asked twice, and told to give up in the end. -/
theorem door_stays_closed :
    Conversation (gist (saidAtLast 3)) ∧
      gist (saidAtLast 3) =
        [(.start, .accepted), (.poll, .incomplete), (.poll, .incomplete), (.abort, .nothing)] := by
  have h : Converses ((atDoor 3).1.abort "closing time" (atDoor 3).2).subject (saidAtLast 3) :=
    .abort _ _ (atDoor_converses 3)
  exact ⟨(calls_follow_protocol h).1, by decide +kernel⟩

end SegmentRun

end Playtest
