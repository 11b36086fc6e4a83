import Playtest.Proofs.Criteria.Latches
import Playtest.Proofs.Segment.History

/-!
# Versions in a segment

A segment, the criteria in it at any depth, and its action each name a version (`Segment.Names`).
The segment can be played if none of them is later than `Version.current` (`Segment.Supported`), and
that is looked at in three places: when the segment begins, at every criteria that is evaluated, and
when the action is started.

The three agree, because `Segment.effectiveVersion` bounds exactly the versions that are named
(`Segment.effectiveVersion_le_iff`). A segment that cannot be played fails on its first tick and
does nothing else (`SegmentRun.tick_of_unsupported`). For one that can, the other two places never
find anything: evaluation refuses nothing but a criteria that names a later version
(`Criteria.of_evaluateKeyed_unsupported`), and so does the start of the action.

`SegmentRun.Faults` says what can go wrong in a tick, and `SegmentRun.tick_faults` that a segment
fails for nothing else.
-/

namespace Playtest

open Playtest.Scene

namespace Version

variable {u v w : Version}

/-- The later of two versions is bounded by what bounds both. -/
theorem max_le_iff : max u v ≤ w ↔ u ≤ w ∧ v ≤ w := by
  simp only [UInt32.le_iff_toNat_le, max]
  split <;> omega

/-- The latest of several versions is bounded by what bounds all of them. -/
theorem highest_le_iff {vs : List Version} : highest v vs ≤ w ↔ v ≤ w ∧ ∀ u ∈ vs, u ≤ w := by
  unfold highest
  induction vs generalizing v with
  | nil => simp
  | cons u rest ih => rw [List.foldl_cons, ih, max_le_iff, List.forall_mem_cons, and_assoc]

end Version

/-! ### The versions that are named -/

namespace Criteria

/-- A criteria is **within** another if it is that criteria itself or within a member of it. -/
inductive Within (c : Criteria) : Criteria → Prop
  | self : Within c c
  | member {v : Version} {t : Bool} {join : Join} {members : List Criteria} {c' : Criteria}
      (hc : c' ∈ members) (h : Within c c') : Within c (.group v t join members)

variable {c : Criteria} {v : Version} {t : Bool}

/-- What is within a criteria within another is within that other, too. -/
theorem Within.trans {c c' c'' : Criteria} (h : c.Within c') (h' : c'.Within c'') :
    c.Within c'' := by
  induction h' with
  | self => exact h
  | member hc _ ih => exact .member hc ih

/-- Within a criteria that is no group there is only itself. -/
theorem within_single_iff {test : Test} : c.Within (.single v t test) ↔ c = .single v t test := by
  constructor
  · rintro ⟨⟩
    rfl
  · rintro rfl
    exact .self

/-- Within a group there are the group itself and what is within its members. -/
theorem within_group_iff {join : Join} {members : List Criteria} :
    c.Within (.group v t join members) ↔
      c = .group v t join members ∨ ∃ c' ∈ members, c.Within c' := by
  constructor
  · rintro (_ | ⟨hc, h⟩)
    · exact .inl rfl
    · exact .inr ⟨_, hc, h⟩
  · rintro (rfl | ⟨c', hc, h⟩)
    · exact .self
    · exact .member hc h

mutual

/-- The effective version bounds just the versions that are named. -/
theorem effectiveVersion_le_iff (w : Version) : ∀ c : Criteria,
    c.effectiveVersion ≤ w ↔ ∀ c' : Criteria, c'.Within c → c'.apiVersion ≤ w
  | single v t test => by
    unfold effectiveVersion
    simp only [within_single_iff, forall_eq, apiVersion]
  | group v t join members => by
    have hmembers := effectiveVersions_le_iff w members v
    unfold effectiveVersion
    rw [hmembers]
    simp only [within_group_iff, forall_eq_or_imp, apiVersion]
    exact and_congr_right fun _ =>
      ⟨fun h c' ⟨c, hc, hin⟩ => h c hc c' hin, fun h c hc c' hin => h c' ⟨c, hc, hin⟩⟩

/-- The effective version of several criteria bounds just the versions that are named in them. -/
theorem effectiveVersions_le_iff (w : Version) : ∀ (cs : List Criteria) (v : Version),
    effectiveVersions v cs ≤ w ↔
      v ≤ w ∧ ∀ c ∈ cs, ∀ c' : Criteria, c'.Within c → c'.apiVersion ≤ w
  | [], v => by
    unfold effectiveVersions
    simp
  | c :: cs, v => by
    have hfirst := effectiveVersion_le_iff w c
    have hrest := effectiveVersions_le_iff w cs (max v c.effectiveVersion)
    unfold effectiveVersions
    rw [hrest, Version.max_le_iff, hfirst, List.forall_mem_cons, and_assoc]

end

end Criteria

namespace Segment

/-- The versions that a segment **names**: its own, that of its action, and those of its criteria at
any depth. -/
inductive Names (s : Segment) : Version → Prop
  | own : s.Names s.apiVersion
  | criteria {c c' : Criteria} (hc : c ∈ s.entryCriteria ++ s.endCriteria) (h : c'.Within c) :
      s.Names c'.apiVersion
  | action {a : Action} (ha : s.action = some a) : s.Names a.apiVersion

/-- The effective version of a segment bounds just the versions that it names. -/
theorem effectiveVersion_le_iff (s : Segment) (w : Version) :
    s.effectiveVersion ≤ w ↔ ∀ v, s.Names v → v ≤ w := by
  -- the three places in which the model collects versions, one after another
  have hbound : s.effectiveVersion ≤ w ↔
      (s.apiVersion ≤ w ∧ ∀ c ∈ s.entryCriteria ++ s.endCriteria,
        ∀ c' : Criteria, c'.Within c → c'.apiVersion ≤ w) ∧
          ∀ a, s.action = some a → a.apiVersion ≤ w := by
    rw [← Criteria.effectiveVersions_le_iff]
    unfold effectiveVersion
    cases s.action with
    | none => simp
    | some a => simp [Version.max_le_iff]
  rw [hbound]
  constructor
  · rintro ⟨⟨hown, hcriteria⟩, haction⟩ v (_ | ⟨hc, h⟩ | ha)
    · exact hown
    · exact hcriteria _ hc _ h
    · exact haction _ ha
  · intro h
    exact ⟨⟨h _ .own, fun c hc c' hin => h _ (.criteria hc hin)⟩, fun a ha => h _ (.action ha)⟩

/-- A segment is **supported** if it names no version that is later than the current one. -/
def Supported (s : Segment) : Prop := ∀ v, s.Names v → v ≤ .current

/-- A segment is not too new just if it is supported. -/
theorem not_current_lt_iff (s : Segment) :
    ¬ Version.current < s.effectiveVersion ↔ s.Supported := by
  rw [UInt32.not_lt]
  exact s.effectiveVersion_le_iff .current

end Segment

namespace SegmentList

/-- The versions that a list **names**: its own, and those of its segments. -/
inductive Names (l : SegmentList) : Version → Prop
  | own : l.Names l.apiVersion
  | segment {s : Segment} {v : Version} (hs : s ∈ l.segments) (h : s.Names v) : l.Names v

/-- The effective version of a list bounds just the versions that it names. -/
theorem effectiveVersion_le_iff (l : SegmentList) (w : Version) :
    l.effectiveVersion ≤ w ↔ ∀ v, l.Names v → v ≤ w := by
  unfold effectiveVersion
  rw [Version.highest_le_iff, List.forall_mem_map]
  constructor
  · rintro ⟨hown, hsegments⟩ v (_ | ⟨hs, h⟩)
    · exact hown
    · exact (Segment.effectiveVersion_le_iff _ w).mp (hsegments _ hs) v h
  · intro h
    exact ⟨h _ .own, fun s hs => (s.effectiveVersion_le_iff w).mpr fun v hv => h v (.segment hs hv)⟩

/-- A list is **supported** if it names no version that is later than the current one. -/
def Supported (l : SegmentList) : Prop := ∀ v, l.Names v → v ≤ .current

/-- A list is not too new just if it is supported. -/
theorem not_current_lt_iff (l : SegmentList) :
    ¬ Version.current < l.effectiveVersion ↔ l.Supported := by
  rw [UInt32.not_lt]
  exact l.effectiveVersion_le_iff .current

theorem Supported.segment {l : SegmentList} (h : l.Supported) {s : Segment} (hs : s ∈ l.segments) :
    s.Supported :=
  fun v hv => h v (.segment hs hv)

end SegmentList

/-! ### Evaluation -/

/-- A test has no version of its own. -/
theorem Test.evaluate_ne_unsupported {test : Test} {key : Key} {view : View} {kind : CriteriaKind}
    {v : Version} : test.evaluate key view ≠ .error (.unsupported kind v) := by
  -- the only test that may fail is the custom one, for want of a predicate
  unfold Test.evaluate
  split
  case h_7 => split <;> rintro ⟨⟩
  all_goals rintro ⟨⟩

namespace Criteria

variable {view : View} {kind : CriteriaKind} {v : Version}

mutual

/-- Evaluation refuses **nothing but a criteria of a later version**, and only where it comes to
one. -/
theorem of_evaluateKeyed_unsupported : ∀ {key : Key} (c : Criteria) {n : Notes},
    (evaluateKeyed view key c n).1 = .error (.unsupported kind v) →
      ∃ c' : Criteria, c'.Within c ∧ c'.kind = kind ∧ c'.apiVersion = v ∧ Version.current < v
  | key, single u t test, n, h => by
    unfold evaluateKeyed at h
    split at h
    · next hlate =>
      cases h
      exact ⟨_, .self, rfl, rfl, hlate⟩
    split at h
    · cases h
    split at h
    · next e he =>
      cases h
      exact absurd he Test.evaluate_ne_unsupported
    · cases h
  | key, group u t join members, n, h => by
    unfold evaluateKeyed at h
    split at h
    · next hlate =>
      cases h
      exact ⟨_, .self, rfl, rfl, hlate⟩
    split at h
    · cases h
    -- what is wrong in a group is wrong in one of its members
    split at h
    · next e notes he =>
      cases h
      obtain ⟨c, hc, c', hin, hkind⟩ := of_evaluateFrom_unsupported members (congrArg Prod.fst he)
      exact ⟨c', .member hc hin, hkind⟩
    · cases h

/-- Evaluating several criteria refuses nothing but one of a later version, either. -/
theorem of_evaluateFrom_unsupported : ∀ {parent : Key} {position : Nat} (cs : List Criteria)
    {n : Notes}, (evaluateFrom view parent position cs n).1 = .error (.unsupported kind v) →
      ∃ c ∈ cs, ∃ c' : Criteria, c'.Within c ∧ c'.kind = kind ∧ c'.apiVersion = v ∧
        Version.current < v
  | parent, position, [], n, h => by
    unfold evaluateFrom at h
    cases h
  | parent, position, c :: cs, n, h => by
    unfold evaluateFrom at h
    split at h
    · next e notes he =>
      -- the criteria in front is refused
      cases h
      exact ⟨c, List.mem_cons_self, of_evaluateKeyed_unsupported c (congrArg Prod.fst he)⟩
    split at h
    · next e notes' he =>
      -- it is not, and one behind it is
      cases h
      obtain ⟨c', hc', hfound⟩ := of_evaluateFrom_unsupported cs (congrArg Prod.fst he)
      exact ⟨c', List.mem_cons_of_mem _ hc', hfound⟩
    · cases h

end

/-- Evaluating a list of criteria refuses nothing but one of a later version. -/
theorem of_evaluateAll_unsupported {key : Key} {cs : List Criteria} {join : Join}
    (h : (evaluateAll view key cs join).1 = .error (.unsupported kind v)) :
    ∃ c ∈ cs, ∃ c' : Criteria, c'.Within c ∧ c'.kind = kind ∧ c'.apiVersion = v ∧
      Version.current < v := by
  unfold evaluateAll at h
  split at h
  · next e notes he =>
    cases h
    exact of_evaluateFrom_unsupported cs (congrArg Prod.fst he)
  · cases h

end Criteria

/-! ### What goes wrong -/

namespace SegmentRun

variable {m : Moment} {r r' : SegmentRun} {env env' : Environment}

/-- What may **go wrong** with a segment, apart from the time. -/
inductive Fault where
  /-- The segment names a version that is not supported. -/
  | tooNew (version : Version)
  | unevaluable (e : EvaluationError)
  | actionTooNew (action : Action)
  | unhandled (action : Action)
  | refused (action : Action) (causes : Text.Causes)

/-- What the segment says about a fault. -/
def Fault.reason : Fault → String
  | tooNew version =>
      s!"requires API version {version.toNat}, but the highest supported version is "
        ++ s!"{Version.current.toNat}"
  | unevaluable e => SegmentRun.unevaluable e
  | actionTooNew action =>
      s!"action `{action.type}` requires API version {action.apiVersion.toNat}, but the "
        ++ s!"highest supported version is {Version.current.toNat}"
  | unhandled action => s!"no handler registered for action type `{action.type}`"
  | refused action causes => s!"action `{action.type}` failed to start: {causes.report}"

/-- Whether a fault is one **of a version**. -/
def Fault.isOfVersion : Fault → Bool
  | tooNew _ | unevaluable (.unsupported _ _) | actionTooNew _ => true
  | unevaluable (.unknownPredicate _) | unhandled _ | refused _ _ => false

/-- The **faults that a tick can run into**. -/
inductive Faults (m : Moment) (env : Environment) (r : SegmentRun) : Fault → Prop
  | tooNew (hs : r.state = .pending) (hv : Version.current < r.segment.effectiveVersion) :
      Faults m env r (.tooNew r.segment.effectiveVersion)
  | unevaluable (phase : Phase) (view : View) {e : EvaluationError}
      (he : (Criteria.evaluateAll view (r.key phase) (r.criteria phase) (r.join phase)).1 =
        .error e) :
      Faults m env r (.unevaluable e)
  | actionTooNew {action : Action} (hs : r.state = .executing) (ha : r.segment.action = some action)
      (hv : Version.current < action.apiVersion) : Faults m env r (.actionTooNew action)
  | unhandled {action : Action} (hs : r.state = .executing) (ha : r.segment.action = some action)
      (hh : env.registry.handler? action.type = none) : Faults m env r (.unhandled action)
  | refused {action : Action} {targets : List Entity} {handler : HandlerName × Handler}
      (aim : Aims m env r action targets handler) {causes : Text.Causes}
      (he : handler.2.start env.calls r.number action targets m.snapshot = .error causes) :
      Faults m env r (.refused action causes)

variable {fault : Fault}

/-- The criteria of a phase are among those of the segment. -/
theorem mem_criteria {phase : Phase} {c : Criteria} (hc : c ∈ r.criteria phase) :
    c ∈ r.segment.entryCriteria ++ r.segment.endCriteria := by
  cases phase with
  | entry => exact List.mem_append_left _ hc
  | completion => exact List.mem_append_right _ hc

/-- **A supported segment has no faults of a version**: neither evaluation nor the start of the
action finds one that the segment has begun with. -/
theorem Faults.not_isOfVersion (h : Faults m env r fault) (hs : r.segment.Supported) :
    fault.isOfVersion = false := by
  cases h with
  | tooNew _ hv => exact absurd hv (r.segment.not_current_lt_iff.mpr hs)
  | @unevaluable phase _ e he =>
    cases e with
    | unknownPredicate => rfl
    | unsupported =>
      -- the evaluation has met a later version, and the segment names it
      obtain ⟨c, hc, c', hin, -, rfl, hv⟩ := Criteria.of_evaluateAll_unsupported he
      exact absurd hv (UInt32.not_lt.mpr (hs _ (.criteria (mem_criteria hc) hin)))
  | actionTooNew _ ha hv => exact absurd hv (UInt32.not_lt.mpr (hs _ (.action ha)))
  | unhandled => rfl
  | refused => rfl

/-- **Nothing in a supported segment is refused**, wherever evaluation comes to it. -/
theorem evaluateKeyed_ne_unsupported {s : Segment} (hs : s.Supported) {c c' : Criteria}
    (hc : c ∈ s.entryCriteria ++ s.endCriteria) (hin : c'.Within c) (view : View) (key : Key)
    (n : Notes) (kind : CriteriaKind) (v : Version) :
    (Criteria.evaluateKeyed view key c' n).1 ≠ .error (.unsupported kind v) := by
  intro he
  obtain ⟨c'', hin', -, rfl, hv⟩ := Criteria.of_evaluateKeyed_unsupported c' he
  exact absurd hv (UInt32.not_lt.mpr (hs _ (.criteria hc (hin'.trans hin))))

/-- What cannot be evaluated later in a tick is what the segment was made with. -/
theorem Faults.of_verdict {phase : Phase} {e : EvaluationError} (ho : r'.origin = r.origin)
    {m' : Moment} (he : (r'.verdict phase m' env').1 = .error e) :
    Faults m env r (.unevaluable e) := by
  refine .unevaluable phase (r'.view m' env') ?_
  unfold verdict at he
  rw [key_eq_of_origin ho, criteria_eq_of_origin ho, join_eq_of_origin ho] at he
  exact he

/-- Counting the tick makes no new faults. -/
theorem Faults.of_counted {delta : Float} (h : Faults m env (r.counted delta) fault) :
    Faults m env r fault := by
  cases h with
  | tooNew hs hv => exact .tooNew hs hv
  | unevaluable phase view he => exact .unevaluable phase view he
  | actionTooNew hs ha hv => exact .actionTooNew hs ha hv
  | unhandled hs ha hh => exact .unhandled hs ha hh
  | refused aim he =>
    have aim : Aims m env r _ _ _ := ⟨aim.state, aim.targets, aim.handler, aim.action⟩
    exact .refused aim he

/-- The run **has failed** for a fault that is one of another run's in the same tick. -/
def FailedFor (m : Moment) (env : Environment) (r r' : SegmentRun) : Prop :=
  r'.state = .failed → ∃ fault, Faults m env r fault ∧ r'.detail = some fault.reason

/-- A run that has not failed has failed for nothing. -/
theorem FailedFor.of_ne {m : Moment} {env : Environment} (h : r'.state ≠ .failed) :
    FailedFor m env r r' :=
  fun hs => absurd hs h

/-- Waiting for the criteria of a phase fails only if they cannot be evaluated. -/
theorem await_failedFor (phase : Phase) {m' : Moment} (ho : r'.origin = r.origin)
    (hn : r'.state ≠ .failed) : FailedFor m env r (await phase m' r' env').subject := by
  change FailedFor m env r (judge phase m' r' (r'.asking phase m' env')).subject
  unfold judge
  dsimp only
  split
  · next e he => exact fun _ => ⟨.unevaluable e, .of_verdict ho he, rfl⟩
  split
  · exact .of_ne (by cases phase <;> exact SegmentState.noConfusion)
  · exact .of_ne hn

/-- A segment that begins fails only if it is too new, or its entry criteria cannot be evaluated. -/
theorem begin_failedFor (hs : r.state = .pending) : FailedFor m env r (begin m r env).subject := by
  unfold begin
  dsimp only [Turn.subject_andThen]
  split
  · next hv => exact fun _ => ⟨_, .tooNew hs hv, rfl⟩
  · exact await_failedFor .entry rfl SegmentState.noConfusion

/-- A start that is refused fails with the causes that the handler gives. -/
theorem start_refused {action : Action} {targets : List Entity} {handler : HandlerName × Handler}
    {causes : Text.Causes}
    (he : handler.2.start env.calls r.number action targets m.snapshot = .error causes) :
    (start handler action targets m r env).subject =
      { r with isDispatched := true }.failed (Fault.refused action causes).reason := by
  unfold start
  dsimp only
  rw [he]
  rfl

/-- Dispatching an action fails only for one of the faults of actions. -/
theorem dispatch_failedFor (hs : r.state = .executing) :
    FailedFor m env r (dispatch m r env).subject := by
  have hn : r.state ≠ .failed := by
    rw [hs]
    exact SegmentState.noConfusion
  unfold dispatch
  -- in the order of `dispatch`: the action, its version, its targets, its handler
  split
  · exact .of_ne hn
  next action ha =>
  split
  · next hv => exact fun _ => ⟨_, .actionTooNew hs ha hv, rfl⟩
  split
  · exact .of_ne hn
  next targets ht =>
  dsimp only
  split
  · next hh => exact fun _ => ⟨_, .unhandled hs ha hh, rfl⟩
  next handler hh =>
  have aim : Aims m env r action targets handler := ⟨hs, ht, hh, ha⟩
  have hw : r.state.isTerminal = false := by
    rw [hs]
    rfl
  dsimp only [Turn.subject_andThen, Turn.env_andThen]
  cases he : handler.2.start env.calls r.number action targets m.snapshot with
  | error causes =>
    simp only [start_refused he, isTerminal_failed, if_true]
    exact fun _ => ⟨_, .refused aim he, rfl⟩
  | ok answer =>
    simp only [(start_ok he).1, hw, Bool.false_eq_true, if_false]
    exact .of_ne hn

/-- What comes before the look at the time fails only for one of the faults of the tick. -/
theorem advance_failedFor (hw : ¬ r.state.isTerminal) :
    FailedFor m env r (advance m r env).subject := by
  unfold advance
  split
  · next hs => exact begin_failedFor hs
  · next hs => exact await_failedFor .entry rfl (by rw [hs]; exact SegmentState.noConfusion)
  · next hs =>
    obtain ⟨cs, -, ho⟩ := dispatch_opens m env hs
    dsimp only [Turn.subject_andThen]
    split
    · next hgo =>
      -- a segment that goes on to wait has not failed before
      obtain ⟨hstay, -⟩ | ⟨-, ho⟩ := ho
      · exact absurd hgo (by rw [hstay]; exact Bool.false_ne_true)
      · exact await_failedFor .completion ho.onward.1.origin SegmentState.noConfusion
    · exact dispatch_failedFor hs
  · next hs =>
    obtain ⟨cs, -, ho⟩ := poll_opens m env hs
    exact await_failedFor .completion ho.onward.1.origin
      (by rw [ho.awaitingCompletion hs]; exact SegmentState.noConfusion)
  all_goals next hs => exact absurd (hs ▸ rfl) hw

/-- **Nothing else goes wrong.** A segment that fails in a tick says which of the faults of the tick
it has failed for. -/
theorem tick_faults (m : Moment) (env : Environment) (hw : ¬ r.state.isTerminal)
    (hs : (r.tick m env).subject.state = .failed) :
    ∃ fault, Faults m env r fault ∧ (r.tick m env).subject.detail = some fault.reason := by
  obtain ⟨ds, hc, -⟩ := checkTimeout_closes (advance m (r.counted m.delta) env).subject
    (advance m (r.counted m.delta) env).env
  have hsub : (r.tick m env).subject = (checkTimeout (advance m (r.counted m.delta) env).subject
      (advance m (r.counted m.delta) env).env).subject := by
    unfold tick
    rw [if_neg hw]
    exact (releaseIfOver_made _ _).1
  rw [hsub] at hs ⊢
  -- whoever has run out of time has not failed
  generalize (checkTimeout (advance m (r.counted m.delta) env).subject _).subject = r' at hc hs ⊢
  cases hc with
  | late => cases hs
  | inTime =>
    have hadvance : FailedFor m env (r.counted m.delta)
        (advance m (r.counted m.delta) env).subject := advance_failedFor hw
    obtain ⟨fault, hfault, hdetail⟩ := hadvance hs
    exact ⟨fault, hfault.of_counted, hdetail⟩

/-- A segment that has failed is not skipped. -/
theorem skipped_of_failed (h : r.skipped.state = .failed) : r.skipped = r := by
  unfold skipped at h ⊢
  split at h
  · cases h
  · next hp => exact if_neg hp

/-- A segment that has failed is not broken off. -/
theorem cutOff_of_failed {reason : String} (h : (r.cutOff reason).state = .failed) :
    r.cutOff reason = r := by
  by_cases ht : r.state.isTerminal
  · exact if_pos ht
  -- whoever has not ended is skipped or has timed out
  have hcut : r.cutOff reason = if r.state = .pending then r.skipped else _ := if_neg ht
  rw [hcut] at h ⊢
  split at h
  · next hp => rw [if_pos hp, skipped_of_failed h]
  · cases h

/-- Whatever can be reached keeps the invariant of segments. -/
theorem Reachable.sound (h : Reachable r) : Sound r := by
  induction h with
  | of => exact .of ..
  | tick m env _ ih => exact ih.tick m env
  | abort reason env _ ih => exact abort_subject env reason ▸ ih.cutOff reason
  | skip env _ ih => exact (skip_eq env).1 ▸ ih.skipped_sound

/-- A segment that has failed did so in a tick, and nothing has happened to it since. -/
theorem Reachable.of_failed (h : Reachable r) (hs : r.state = .failed) :
    ∃ (r₀ : SegmentRun) (m : Moment) (env : Environment), Reachable r₀ ∧ ¬ r₀.state.isTerminal ∧
      r = (r₀.tick m env).subject := by
  induction h with
  | of => cases hs
  | @tick m env r₀ h ih =>
    by_cases ht : r₀.state.isTerminal
    · rw [tick_of_isTerminal m env ht] at hs ⊢
      exact ih hs
    · exact ⟨r₀, m, env, h, ht, rfl⟩
  | @abort reason env r₀ h ih =>
    -- an abort makes nothing fail, so it had failed before
    rw [abort_subject] at hs ⊢
    have heq := cutOff_of_failed hs
    rw [heq] at hs ⊢
    exact ih hs
  | @skip env r₀ h ih =>
    -- nor does a skip
    rw [(skip_eq env).1] at hs ⊢
    have heq := skipped_of_failed hs
    rw [heq] at hs ⊢
    exact ih hs

/-! ### A segment that is not supported -/

/-- The run of a segment that has failed on its first tick, because it is **not supported**. -/
def refusal (r : SegmentRun) : SegmentRun :=
  { r with
    state := .failed
    history := [(.awaitingEntry, 1), (.failed, 1)]
    ticks := 1
    detail := some (Fault.tooNew r.segment.effectiveVersion).reason }

/-- What is said about a segment that is not supported. -/
def refusalMessages (r : SegmentRun) : List LogMessage :=
  let change (before after : SegmentState) : LogMessage :=
    ⟨.debug, s!"Segment `{r.name}` {before.name} -> {after.name} on tick {r.refusal.ticks}"⟩
  [change .pending .awaitingEntry,
    ⟨.error, s!"Segment `{r.name}` failed: {(Fault.tooNew r.segment.effectiveVersion).reason}"⟩,
    change .awaitingEntry .failed]

/-- **A segment that is not supported fails on its first tick**, whatever there is to see, whatever
the criteria would say and whoever handles the action: nothing is asked of anybody, and all that
happens to the environment is that requests are abandoned that the segment does not have. -/
theorem tick_of_unsupported (h : Reachable r) (hp : r.state = .pending) (hs : ¬ r.segment.Supported)
    (m : Moment) (env : Environment) :
    r.tick m env = ⟨r.refusal, (releaseAll r env).env, r.refusalMessages⟩ := by
  have hv : Version.current < r.segment.effectiveVersion := by
    rw [← r.segment.not_current_lt_iff] at hs
    exact Classical.not_not.mp hs
  -- the run is as it was made, so all that the tick finds is known
  have horigin := h.sound.pending hp
  have hbegin : advance m (r.counted m.delta) env = ⟨r.refusal, env, r.refusalMessages⟩ := by
    rw [horigin]
    have hlate : Version.current < (enter .awaitingEntry (r.origin.counted m.delta)
        env).subject.segment.effectiveVersion := hv
    change begin m (r.origin.counted m.delta) env = _
    unfold begin Turn.andThen
    dsimp only
    rw [if_pos hlate]
    rfl
  unfold tick
  rw [if_neg (by rw [hp]; decide), hbegin]
  rfl

/-- A segment that is not supported never comes further than that. -/
theorem Reachable.of_unsupported (h : Reachable r) (hs : ¬ r.segment.Supported) :
    r.state = .pending ∨ r.state = .skipped ∨ r = r.origin.refusal := by
  induction h with
  | of => exact .inl rfl
  | @tick m env r₀ h ih =>
    have horigin := origin_tick (r := r₀) m env
    have hsegment : (r₀.tick m env).subject.segment = r₀.segment := by injection horigin
    rw [hsegment] at hs
    rw [horigin]
    by_cases hp : r₀.state = .pending
    · rw [tick_of_unsupported h hp hs m env]
      exact .inr (.inr (congrArg refusal (h.sound.pending hp)))
    · -- by what it has come to so far, it has ended
      have ht : r₀.state.isTerminal := by
        rcases ih hs with hp' | hskipped | href
        · exact absurd hp' hp
        · rw [hskipped]
          rfl
        · rw [href]
          rfl
      rw [tick_of_isTerminal m env ht]
      exact ih hs
  | @abort reason env r₀ h ih =>
    have horigin := origin_cutOff (r := r₀) reason
    rw [abort_subject] at hs ⊢
    have hsegment : (r₀.cutOff reason).segment = r₀.segment := by injection horigin
    rw [hsegment] at hs
    rw [horigin]
    unfold cutOff skipped
    rcases ih hs with hp | hskipped | href
    · rw [if_neg (by rw [hp]; decide), if_pos hp, if_pos hp]
      exact .inr (.inl rfl)
    · rw [if_pos (by rw [hskipped]; rfl)]
      exact .inr (.inl hskipped)
    · rw [if_pos (by rw [href]; rfl)]
      exact .inr (.inr href)
  | @skip env r₀ h ih =>
    have horigin := origin_skipped (r := r₀)
    rw [(skip_eq env).1] at hs ⊢
    have hsegment : r₀.skipped.segment = r₀.segment := by injection horigin
    rw [hsegment] at hs
    rw [horigin]
    unfold skipped
    split
    · exact .inr (.inl rfl)
    · exact ih hs

end SegmentRun

end Playtest
