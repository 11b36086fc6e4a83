import Playtest.Proofs.Assignment.Lifecycle
import Playtest.Proofs.Assignment.TimeLimit
import Playtest.Proofs.Playback.BreakingOff

/-!
# What is said about an assignment that has failed

An assignment fails in three places: its playlist cannot be loaded, its own time is up, or its
playback has ended without success. The first two always say why. The third one names the first
segment that should have passed, and there need not be one: when the time limit of the playlist ends
a playback that has only optional segments left, every segment that it needs has passed.

* `PlaybackRun.late_of_blameless`: this is the only such ending,
* `AssignmentRun.Accounted` is the invariant. It carries what is known of the playback (nobody
  listens for a signal, and its limit is the one in the settings) up to the tick that ends it,
* `AssignmentRun.failure_is_explained_or_late` says when the details are there and what they are.
-/

namespace Playtest

open Playtest.Calendar

/-- Nobody is to blame if every entry that has to pass has passed. -/
theorem RunResult.firstFailure?_eq_none_iff {result : RunResult} :
    result.firstFailure? = none ↔ ∀ entry ∈ result.segments, entry.isRequired → entry.passed := by
  simp [RunResult.firstFailure?, List.find?_eq_none]

namespace SegmentRun

variable {s : SegmentRun}

/-- What has passed has completed. -/
theorem state_of_passed (h : s.passed) : s.state = .completed := by
  obtain ⟨hstate, -⟩ := Bool.and_eq_true_iff.mp (show (s.state == .completed && _) = true from h)
  exact beq_iff_eq.mp hstate

/-- Breaking a segment off does not decide whether it has passed. -/
theorem passed_cutOff (reason : String) (s : SegmentRun) : (s.cutOff reason).passed = s.passed := by
  -- what has ended already stays as it is
  by_cases ht : s.state.isTerminal
  · rw [cutOff_of_isTerminal reason ht]
  -- what is still going on has not passed, and neither has what it is cut off to
  have hs : ¬ s.passed := by
    intro hp
    rw [state_of_passed hp] at ht
    exact ht rfl
  rw [eq_false_of_ne_true hs]
  by_cases hp : s.state = .pending
  · rw [cutOff_of_pending reason hp]
    rfl
  · rw [cutOff_of_underWay reason ht hp]
    rfl

end SegmentRun

namespace PlaybackRun

variable {b : Beat} {p : PlaybackRun} {env : Environment} {result : RunResult}

/-- A run that nobody listens for goes on like that, with the limit that it has. -/
structure Unheard (limit : Option Float) (p : PlaybackRun) : Prop where
  listener : p.listener = none
  timeout : p.timeout = limit

/-- A tick brings no listener and changes no limit. -/
theorem Unheard.tick {limit : Option Float} (h : Unheard limit p) (b : Beat) (env : Environment) :
    Unheard limit (p.tick b env).subject := by
  cases hp : p.result with
  | some result =>
    -- when the run has ended, the tick does nothing
    rw [tick_of_ended hp]
    exact h
  | none =>
    obtain ⟨hlistener, htimeout⟩ := commands_tick hp b env
    refine ⟨?_, htimeout.trans h.timeout⟩
    -- a listener that is not there is not made by counting its polls
    rw [hlistener, h.listener]
    rfl

/-- Breaking a run off brings no listener and changes no limit either. -/
theorem Unheard.abort {limit : Option Float} (h : Unheard limit p) (reason : String)
    (env : Environment) :
    Unheard limit (p.abort reason env).subject := by
  cases hp : p.result with
  | some result =>
    rw [abort_of_ended hp]
    exact h
  | none =>
    rw [abort_subject hp]
    exact ⟨h.listener, h.timeout⟩

/-- Nobody is to blame for a result if all that is required has passed. -/
theorem blameless_iff {ranThrough : Bool} :
    (p.outcome ranThrough).firstFailure? = none ↔ ∀ s ∈ p.segments, s.isRequired → s.passed := by
  rw [RunResult.firstFailure?_eq_none_iff]
  change (∀ entry ∈ p.segments.map SegmentRun.result, _) ↔ _
  rw [List.forall_mem_map]
  refine forall_congr' fun s => forall_congr' fun _ => ?_
  -- an entry says of its segment whether it is required and whether it has passed
  rw [SegmentRun.result_isRequired, SegmentRun.result_passed]

/-- A run that ran through is a success if nobody is to blame. -/
theorem success_of_blameless (h : (p.outcome true).firstFailure? = none) :
    (p.outcome true).success = true := by
  rw [blameless_iff] at h
  change (true && (p.segments.map SegmentRun.result).all fun s => !s.isRequired || s.passed) = true
  rw [Bool.true_and, List.all_map, List.all_eq_true]
  intro s hs
  change (!s.result.isRequired || s.result.passed) = true
  rw [SegmentRun.result_isRequired, SegmentRun.result_passed]
  -- what is not required does not count, and the rest has passed
  cases hreq : s.isRequired with
  | false => rfl
  | true => exact h s hs hreq

/-- The same goes for a run that is broken off. -/
theorem blameless_cutOff_iff {reason : String} :
    ((p.cutOff reason).outcome false).firstFailure? = none ↔
      ∀ s ∈ p.segments, s.isRequired → s.passed := by
  rw [blameless_iff, segments_cutOff, List.forall_mem_map]
  refine forall_congr' fun s => forall_congr' fun _ => ?_
  rw [SegmentRun.isRequired_eq_of_origin (SegmentRun.origin_cutOff reason),
    SegmentRun.passed_cutOff]

/-- **A run without success has a segment to blame**, unless its time was up. -/
theorem late_of_blameless (hn : p.result = none) (hl : p.listener = none)
    (hr : (p.tick b env).subject.result = some result) (hs : result.success = false)
    (hf : result.firstFailure? = none) : ∃ timeout, Late b p timeout := by
  -- either nothing stood in the way of the tick, or one of three causes has ended the run in it
  rcases undisturbed_or_cause b p env with hu | ⟨reason, lists, env', hc⟩
  · rw [(tick_of_undisturbed hn hu).2] at hr
    -- it has run through, so without anybody to blame it would be a success
    split at hr
    · cases hr
      rw [success_of_blameless hf] at hs
      cases hs
    · -- it has not ended at all
      rw [(played_midway b p env).result, hn] at hr
      cases hr
  · obtain ⟨p', hm, ht, -⟩ := tick_of_cause hn hc
    rw [ht] at hr
    cases hr
    -- the run was cut off, and that hides nobody who is to blame
    rw [blameless_cutOff_iff] at hf
    cases hc with
    | signalled h =>
      -- nobody listens, so there is no signal
      obtain ⟨listener, hsome, -⟩ := h
      rw [hl] at hsome
      cases hsome
    | late _ h => exact ⟨_, h⟩
    | @fatal front back l s s' rest played _ _ hlists hturn hplayed hfront ha hreq hs' hterminal
        hcompleted =>
      -- the segment that is fatal was required, and has not passed
      have hmem : s' ∈ p'.segments := by
        rw [PlaybackRun.segments, hm.lists, List.flatMap_append, List.flatMap_cons]
        refine List.mem_append_right _ (List.mem_append_left _ ?_)
        exact List.mem_append_left _ (List.mem_append_right _ List.mem_cons_self)
      have hrequired : s'.isRequired := by
        rw [hs', SegmentRun.isRequired_eq_of_origin (SegmentRun.origin_tick _ _)]
        exact hreq
      exact absurd (SegmentRun.state_of_passed (hf s' hmem hrequired)) hcompleted

/-- When the time of a run is up and all that it needs has passed, it ends without success, and
nobody is to blame. -/
theorem blameless_of_late {timeout : Float} (hn : p.result = none) (hl : p.listener = none)
    (h : Late b p timeout) (hpassed : ∀ s ∈ p.segments, s.isRequired → s.passed)
    (env : Environment) :
    ∃ result, (p.tick b env).subject.result = some result ∧ result.success = false ∧
      result.firstFailure? = none := by
  -- without a listener no signal can come first
  have hsignal : ¬ Signalled b p := by
    rintro ⟨listener, hsome, -⟩
    rw [hl] at hsome
    cases hsome
  rw [(tick_of_obstacle hn (obstacle?_of_late hsignal h)).1]
  exact ⟨_, rfl, rfl, blameless_cutOff_iff.mpr hpassed⟩

end PlaybackRun

namespace AssignmentRun

variable {now : Instant} {b : Beat} {env : Environment} {a : Assignment} {c : Config}
  {r : AssignmentRun} {p : PlaybackRun} {result : RunResult}

/-- **What the details say**, and what is true of the assignment when they say it. -/
inductive Explains (a : Assignment) (c : Config) (r : AssignmentRun) : String → Prop
  | unloadable {tree : Resource.Tree} {e : Resource.LoadError} (hp : r.playback = none)
      (h : Resource.Loader.playlist ⟨c.resourceRoot, tree⟩ a.resourcePath = .error e) :
      Explains a c r s!"Failed to load BotSequence from path: {a.resourcePath}. {e.causes.line}"
  | late {timeout : Float} (ht : a.timeout = some timeout) (hle : timeout ≤ r.elapsed) :
      Explains a c r (lateness timeout)
  | segment {result : RunResult} {entry : SegmentResult} (hr : r.result = some result)
      (he : result.firstFailure? = some entry) :
      Explains a c r s!"Segment `{entry.segmentName}` ended {entry.outcome.name}"

/-- What the details say is about the playback, the time and the result, so it stays true as long as
those stay. -/
theorem Explains.congr {r' : AssignmentRun} {text : String} (h : Explains a c r text)
    (hp : r'.playback = r.playback) (he : r'.elapsed = r.elapsed) (hr : r'.result = r.result) :
    Explains a c r' text := by
  cases h with
  | unloadable hnone h => exact .unloadable (hp.trans hnone) h
  | late ht hle => exact .late ht (he ▸ hle)
  | segment hresult h => exact .segment (hr.trans hresult) h

/-- The time limit in the settings has ended the playback, and every segment that it needs has
passed. -/
structure Blameless (c : Config) (r : AssignmentRun) (res : RunResult) : Prop where
  result : r.result = some res
  unsuccessful : res.success = false
  passed : ∀ entry ∈ res.segments, entry.isRequired → entry.passed
  late : ∃ timeout, c.timeout? = some timeout ∧ timeout ≤ res.duration

/-- What there is to say about an assignment that has failed. -/
inductive Answered (a : Assignment) (c : Config) (r : AssignmentRun) : Prop
  | explained {text : String} (hd : r.details = some (Report.errorDetails text))
      (h : Explains a c r text)
  | unexplained {result : RunResult} (hd : r.details = none) (h : Blameless c r result)

/-- The **invariant**: as long as an assignment has not failed nothing is said about it, and its
playback is one that only its time limit can end from outside. -/
structure Accounted (a : Assignment) (c : Config) (r : AssignmentRun) : Prop where
  assignment : r.assignment.timeout = a.timeout ∧ r.assignment.resourcePath = a.resourcePath
  settings : r.config = c ∧ r.loader.root = c.resourceRoot
  playback : ∀ p, r.playback = some p → p.Unheard c.timeout?
  going : r.status ≠ .failed → r.details = none
  failed : r.status = .failed → Answered a c r

/-- What has been said stays accounted for while the work goes on. -/
theorem Accounted.goesOn {r' : AssignmentRun} (h : Accounted a c r) (hg : r.status ≠ .failed)
    (hsame : r'.assignment = r.assignment ∧ r'.config = r.config ∧ r'.loader = r.loader ∧
      r'.details = r.details)
    (hplayback : ∀ p, r'.playback = some p → p.Unheard c.timeout?) : Accounted a c r' := by
  obtain ⟨hassignment, hconfig, hloader, hdetails⟩ := hsame
  have hstatus : r'.status = r.status := congrArg Assignment.status hassignment
  constructor
  · rw [hassignment]
    exact h.assignment
  · rw [hconfig, hloader]
    exact h.settings
  · exact hplayback
  · intro _
    rw [hdetails]
    exact h.going hg
  · -- the status is that of the assignment, which has not changed
    intro hf
    exact absurd (hstatus.symm.trans hf) hg

/-- An assignment that goes over to a status other than failure stays accounted for. -/
theorem Accounted.turned {status : Status} (h : Accounted a c r) (hg : r.status ≠ .failed)
    (hs : status ≠ .failed) : Accounted a c (r.turned status) where
  assignment := h.assignment
  settings := h.settings
  playback := h.playback
  going := fun _ => h.going hg
  failed := fun hf => absurd hf hs

/-- **A failure with an explanation** is accounted for. -/
theorem Accounted.failedWith {reason : String} (h : Accounted a c r) (he : Explains a c r reason) :
    Accounted a c (r.failedWith reason) := by
  refine ⟨h.assignment, h.settings, h.playback, fun hs => absurd rfl hs, fun _ => ?_⟩
  exact .explained rfl (he.congr rfl rfl rfl)

/-- The playback that an assignment begins with has no listener, and its limit is the one in the
settings. -/
theorem Accounted.begin {playlist : Playlist} (h : Accounted a c r) (hs : r.status = .pending) :
    Accounted a c ({ r with playback := some (launched playlist r) }.turned .running) := by
  have hg : r.status ≠ .failed := by rw [hs]; decide
  have hplayback : ∀ p, some (launched playlist r) = some p → p.Unheard c.timeout? := by
    rintro p ⟨⟩
    exact ⟨rfl, congrArg Config.timeout? h.settings.1⟩
  -- the playback comes first and the status then
  have hon : Accounted a c { r with playback := some (launched playlist r) } :=
    h.goesOn hg ⟨rfl, rfl, rfl, rfl⟩ hplayback
  exact hon.turned hg (by decide)

/-- **What a playback brings that has come to a result.** If that is no success, the playback has a
segment to blame, or it was late. -/
theorem Accounted.settledOn (h : Accounted a c r) (hp : Plays r p) (hn : p.result = none)
    (hr : (p.tick b env).subject.result = some result) :
    Accounted a c ((r.playedOn (p.tick b env).subject).settledOn result) := by
  have hg : r.status ≠ .failed := by rw [hp.status]; decide
  have hunheard := h.playback p hp.playback
  have hplayback : ∀ q, some (p.tick b env).subject = some q → q.Unheard c.timeout? := by
    rintro q ⟨⟩
    exact hunheard.tick b env
  unfold AssignmentRun.settledOn
  -- by the result: a success completes the assignment
  split
  · have hon : Accounted a c { r.playedOn (p.tick b env).subject with result := some result } :=
      h.goesOn hg ⟨rfl, rfl, rfl, rfl⟩ hplayback
    exact hon.turned hg (by decide)
  · next hs =>
    refine ⟨h.assignment, h.settings, hplayback, fun hs => absurd rfl hs, fun _ => ?_⟩
    have hsuccess : result.success = false := eq_false_of_ne_true hs
    cases hf : result.firstFailure? with
    | some entry =>
      -- the first segment that failed is what the details name
      refine .explained ?_ (.segment rfl hf)
      show (failureDetails result).or _ = _
      rw [failureDetails, hf]
      rfl
    | none =>
      -- nobody is to blame, and nothing was said before
      have hsilent : (failureDetails result).or r.details = none := by
        rw [failureDetails, hf, h.going hg]
        rfl
      refine .unexplained hsilent ⟨rfl, hsuccess, RunResult.firstFailure?_eq_none_iff.mp hf, ?_⟩
      -- so the playback was late, by the limit that it has from the settings
      obtain ⟨timeout, hlimit, hle⟩ :=
        PlaybackRun.late_of_blameless hn hunheard.listener hr hsuccess hf
      rw [PlaybackRun.duration_of_tick hn hr]
      exact ⟨timeout, hunheard.timeout ▸ hlimit, hle⟩

/-- What a tick of the playback brings: nothing to account for yet, or a result. -/
theorem Accounted.brought (h : Accounted a c r) (hp : Plays r p) (hn : p.result = none) :
    Accounted a c (r.brought (p.tick b env).subject) := by
  have hg : r.status ≠ .failed := by rw [hp.status]; decide
  unfold AssignmentRun.brought
  cases hr : (p.tick b env).subject.result with
  | none =>
    refine h.goesOn hg ⟨rfl, rfl, rfl, rfl⟩ ?_
    rintro q ⟨⟩
    exact (h.playback p hp.playback).tick b env
  | some result => exact h.settledOn hp hn hr

/-- Breaking the playback off is nothing to account for by itself. -/
theorem Accounted.stoppedAt (h : Accounted a c r) (hp : r.playback = some p)
    (hg : r.status ≠ .failed) (reason : String) (env : Environment) :
    Accounted a c (r.stoppedAt (p.abort reason env).subject) := by
  refine h.goesOn hg ⟨rfl, rfl, rfl, rfl⟩ ?_
  rintro q ⟨⟩
  exact (h.playback p hp).abort reason env

/-- **A tick keeps the invariant.** It is split by the status, and by what stands in the way of
going on. -/
theorem Accounted.tick (h : Accounted a c r) (hs : Sound c r) (now : Instant) (b : Beat)
    (env : Environment) : Accounted a c (r.tick now b env).subject := by
  obtain ⟨htimeout, hpath⟩ := h.assignment
  cases hstatus : r.status with
  | completed | cancelled | failed =>
    rw [tick_of_isTerminal (by rw [hstatus]; rfl)]
    exact h
  | pending =>
    -- when it is due, everything hangs on whether the playlist can be loaded
    by_cases hd : r.assignment.isDue now
    · cases hl : r.loader.playlist r.assignment.resourcePath with
      | ok playlist =>
        rw [(tick_of_due hstatus hd hl b env).1]
        exact h.begin hstatus
      | error e =>
        have he : Resource.Loader.playlist ⟨c.resourceRoot, r.loader.tree⟩ a.resourcePath =
            .error e := by
          rw [← h.settings.2, ← hpath]
          exact hl
        rw [tick_of_unloadable hstatus hd hl b env, hpath]
        -- a pending assignment has no playback, so the first explanation holds
        exact h.failedWith (.unloadable (hs.of_pending hstatus).1 he)
    · rw [tick_of_early hstatus hd]
      exact h
  | running =>
    obtain ⟨playlist, p, -, hp, hn, -⟩ := hs.of_running hstatus
    have hplays : Plays r p := ⟨hstatus, hp⟩
    -- the limit of the assignment is looked at before the playback gets its tick
    by_cases hlate : ∃ timeout, r.assignment.timeout = some timeout ∧ timeout ≤ r.elapsed
    · obtain ⟨timeout, ht, hle⟩ := hlate
      rw [tick_of_late now b env hplays ht hle]
      have hg : r.status ≠ .failed := by rw [hstatus]; decide
      exact (h.stoppedAt hp hg _ env).failedWith (.late (htimeout ▸ ht) hle)
    · have htime : r.HasTime := fun timeout ht hle => hlate ⟨timeout, ht, hle⟩
      rw [(tick_of_plays now b env hplays htime).1]
      exact h.brought hplays hn

/-- What nobody asks about when an assignment has failed may change at any time. -/
theorem Accounted.unmoved {r' : AssignmentRun} (h : Accounted a c r) (hw : SameWork r r')
    (he : r'.elapsed = r.elapsed)
    (ha : r'.assignment.timeout = r.assignment.timeout ∧
      r'.assignment.resourcePath = r.assignment.resourcePath)
    (hs : r'.config = r.config ∧ r'.loader.root = r.loader.root) : Accounted a c r' := by
  constructor
  · rw [ha.1, ha.2]
    exact h.assignment
  · rw [hs.1, hs.2]
    exact h.settings
  · rw [hw.playback]
    exact h.playback
  · rw [hw.status, hw.details]
    exact h.going
  · intro hf
    cases h.failed (hw.status.symm.trans hf) with
    -- an explanation speaks of the playback, the elapsed time and the result, all of them the same
    | explained hd hx => exact .explained (hw.details.trans hd) (hx.congr hw.playback he hw.result)
    | unexplained hd hb =>
      exact .unexplained (hw.details.trans hd) { hb with result := hw.result.trans hb.result }

/-- Words of the remote side change nothing about that. -/
theorem Accounted.told (h : Accounted a c r) (remoteStatus : Option String) :
    Accounted a c (r.told remoteStatus) :=
  h.unmoved (told_sameWork remoteStatus) rfl ⟨rfl, rfl⟩ ⟨rfl, rfl⟩

/-- **An update keeps the invariant**: a cancellation is no failure. -/
theorem Accounted.update (h : Accounted a c r) (sent : Assignment) (env : Environment) :
    Accounted a c (r.update sent env).subject := by
  by_cases hc : Cancels sent r
  · have htold := h.told sent.remoteStatus
    have hg : (r.told sent.remoteStatus).status ≠ .failed := by
      -- what is cancelled was going on, so it had not failed
      intro hf
      exact hc.going (by rw [show r.status = .failed from hf]; rfl)
    have hstops := update_of_cancels hc env
    generalize (r.update sent env).subject = r' at hstops ⊢
    cases hstops with
    | unplayed => exact htold.turned hg (by decide)
    | broken hp reason => exact (htold.stoppedAt hp hg reason env).turned hg (by decide)
  · obtain ⟨remoteStatus, hr⟩ := update_of_not_cancels hc env
    rw [hr]
    exact h.told remoteStatus

/-- **Every failure of an assignment is accounted for.** -/
theorem Reachable.accounted (h : Reachable a c r) : Accounted a c r := by
  induction h with
  | of tree mark startedAt =>
    refine ⟨⟨rfl, rfl⟩, ⟨rfl, rfl⟩, fun p hp => ?_, fun _ => rfl, fun hf => ?_⟩
    · cases hp
    · -- a new assignment is pending
      exact absurd (show Status.pending = .failed from hf) (by decide)
  | withReporter _ reporter ih => exact ih.unmoved ⟨rfl, rfl, rfl, rfl⟩ rfl ⟨rfl, rfl⟩ ⟨rfl, rfl⟩
  | stored _ tree ih => exact ih.unmoved ⟨rfl, rfl, rfl, rfl⟩ rfl ⟨rfl, rfl⟩ ⟨rfl, rfl⟩
  | tick hr now b env ih => exact ih.tick hr.sound now b env
  | update _ sent env ih => exact ih.update sent env

/-- **What is said about an assignment that has failed.** Nothing is said before it fails. When it
has failed, the details say that the playlist could not be loaded, that the time of the assignment
was up, or which segment should have passed first and did not, and what they say is so. Only in one
case is nothing said: the time limit in the settings has ended the playback, and every segment that
it needs has passed. Nothing is ever said in that case. -/
theorem failure_is_explained_or_late (h : Reachable a c r) :
    (r.status ≠ .failed → r.report.details = none) ∧
    (r.status = .failed →
      (∃ text, r.report.details = some (Report.errorDetails text) ∧ Explains a c r text) ∨
        r.report.details = none ∧ ∃ result, Blameless c r result) ∧
    ∀ p timeout now b env, Plays r p → r.HasTime → PlaybackRun.Late b p timeout →
      (∀ s ∈ p.segments, s.isRequired → s.passed) →
        let r' := (r.tick now b env).subject
        r'.status = .failed ∧ r'.report.details = none := by
  have haccounted := h.accounted
  refine ⟨haccounted.going, fun hf => ?_, fun p timeout now b env hplays htime hlate hpassed => ?_⟩
  · cases haccounted.failed hf with
    | explained hd he => exact .inl ⟨_, hd, he⟩
    | unexplained hd hb => exact .inr ⟨hd, _, hb⟩
  · -- what is being played has not ended and nobody listens, so its limit ends it with nobody to
    -- blame
    obtain ⟨playlist, -, hn, -⟩ := h.sound.of_plays hplays
    have hunheard := haccounted.playback p hplays.playback
    obtain ⟨result, hr, hs, hf⟩ :=
      PlaybackRun.blameless_of_late hn hunheard.listener hlate hpassed env
    have hsilent : r.details = none := haccounted.going (by rw [hplays.status]; decide)
    -- nothing is found to say, and nothing was said before
    dsimp only
    rw [(tick_of_plays now b env hplays htime).1]
    unfold AssignmentRun.brought AssignmentRun.settledOn
    rw [hr]
    dsimp only
    rw [hs]
    refine ⟨rfl, ?_⟩
    show (failureDetails result).or r.details = none
    rw [failureDetails, hf, hsilent]
    rfl

/-! Somebody waits for what never comes. The segment may fail, and there is a second for the
whole. -/

/-- A second for the whole, and a segment that may fail. -/
def patience : Config := { Config.default with timeout := some 1.0, optionalSegments := ["Wait"] }

/-- What is on disk: a segment that waits for what never comes. -/
def waitingRoom : Resource.Tree :=
  [(["wait.json"],
    .text ("\x7b\"name\":\"Wait\",\"endCriteria\":[\x7b\"type\":\"NormalizedPath\"," ++
    "\"data\":\x7b\"path\":\"Never\"\x7d\x7d]\x7d"))]

/-- What becomes of an assignment in the waiting room, after some seconds. -/
def waitAfter (path : String) : Nat → AssignmentRun
  | 0 => .of (.of 1 path) patience waitingRoom "a-wait" 0
  | n + 1 => ((waitAfter path n).tick .epoch (PlaybackRun.second false) (.of .empty)).subject

/-- What becomes of the assignment are runs of it. -/
theorem waitAfter_reachable (path : String) (n : Nat) :
    Reachable (.of 1 path) patience (waitAfter path n) := by
  induction n with
  | zero => exact .of ..
  | succ n ih => exact ih.tick _ _ _

/-- After three seconds it has failed, and there are no details. -/
theorem waitAfter_three : (waitAfter "wait" 3).status = .failed ∧
    (waitAfter "wait" 3).report.details.isSome = false := by
  decide +kernel

/-- The time is up after a second, and nobody says so. With a door that is not there, something is
said. -/
theorem wait_ends_in_silence :
    ((waitAfter "wait" 3).status = .failed ∧ (waitAfter "wait" 3).report.details = none ∧
      ∃ result, Blameless patience (waitAfter "wait" 3) result) ∧
    ∃ text, (waitAfter "door" 1).report.details = some (Report.errorDetails text) ∧
      Explains (.of 1 "door") patience (waitAfter "door" 1) text := by
  constructor
  · obtain ⟨hfailed, hsilent⟩ := waitAfter_three
    obtain ⟨-, hwhy, -⟩ := failure_is_explained_or_late (waitAfter_reachable "wait" 3)
    rcases hwhy hfailed with ⟨text, hd, -⟩ | ⟨hd, hblameless⟩
    · -- an explanation would be there to see
      rw [hd] at hsilent
      cases hsilent
    · exact ⟨hfailed, hd, hblameless⟩
  · obtain ⟨-, hwhy, -⟩ := failure_is_explained_or_late (waitAfter_reachable "door" 1)
    -- the other explanation needs a result, and nothing was played
    refine (hwhy (by decide +kernel)).resolve_right ?_
    rintro ⟨-, result, hblameless⟩
    have hnone : (waitAfter "door" 1).result.isSome = false := by decide +kernel
    rw [hblameless.result] at hnone
    cases hnone

/-- **An assignment may fail without a word.** -/
theorem fails_without_details :
    ¬ ∀ (a : Assignment) (c : Config) (r : AssignmentRun), Reachable a c r → r.status = .failed →
      ∃ text, r.report.details = some (Report.errorDetails text) := by
  intro hall
  obtain ⟨hfailed, hsilent⟩ := waitAfter_three
  obtain ⟨text, hd⟩ := hall (.of 1 "wait") patience (waitAfter "wait" 3)
    (waitAfter_reachable "wait" 3) hfailed
  rw [hd] at hsilent
  cases hsilent

end AssignmentRun

end Playtest
