import Playtest.Proofs.Playback.OptionalList
import Playtest.Proofs.Segment.Unhindered

/-!
# The pace of a run

How many ticks a run takes whose segments wait for nothing. Each segment takes two, a list takes as
many as its segments and ends with the last of them, and a list without segments still takes one.
Lists that are not parallel do not share a tick. So a run of `S` segments and `E` empty lists takes
`2 * S + E` ticks, and one tick if that is none (`PlaybackRun.keeps_pace`).

The invariant is how many ticks are left, said of a list by `ListRun.Left` and of the lists of a run
by `PlaybackRun.Left`. A tick takes one off the first list that has any left
(`PlaybackRun.Left.round`), and the run is over just when none is left.
-/

namespace Playtest

/-- A segment that waits for nothing has ended just if no ticks are left to it, and then it is
complete. -/
theorem SegmentRun.Left.state_cases {n : Nat} {s : SegmentRun} (h : s.Left n) :
    n = 0 ∧ s.state = .completed ∨ 0 < n ∧ ¬ s.state.isTerminal := by
  cases h with
  | unbegun => exact .inr ⟨Nat.succ_pos 1, Bool.false_ne_true⟩
  | halfway h hs =>
    rw [hs]
    exact .inr ⟨Nat.one_pos, Bool.false_ne_true⟩
  | done hs => exact .inl ⟨rfl, hs⟩

/-- A segment to which no tick is left has done everything in two. -/
theorem SegmentRun.Left.done_eq {s : SegmentRun} (h : s.Left 0) :
    s.state = .completed ∧ s.ticks = 2 ∧
      s.history = [(.awaitingEntry, 1), (.executing, 1), (.awaitingCompletion, 2),
        (.completed, 2)] := by
  cases h with
  | done hs ht hh => exact ⟨hs, ht, hh⟩

/-- Such a segment has passed, too. -/
theorem SegmentRun.Left.passed {s : SegmentRun} (h : s.Left 0) : s.passed = true := by
  cases h with
  | done hs ht hh hv =>
    unfold SegmentRun.passed
    rw [hs, hv]
    rfl

namespace ListRun

variable {l l' : ListRun} {m : Moment} {env env' : Environment} {e : ListEvent} {n : Nat}

/-- A list whose segments wait for nothing, and **how many ticks are left** to it. -/
inductive Left : Nat → ListRun → Prop
  | empty {l : ListRun} (hf : ¬ l.isFinished) (ha : l.ahead = []) (hp : l.played = []) : Left 1 l
  | goingOn {l : ListRun} {s : SegmentRun} {rest : List SegmentRun} {n : Nat} (hf : ¬ l.isFinished)
      (ha : l.ahead = s :: rest) (hs : s.Left (n + 1)) (hr : ∀ s ∈ rest, s.Left 2)
      (hp : ∀ s ∈ l.played, s.Left 0) :
      Left (n + 1 + 2 * rest.length) l
  | finished {l : ListRun} (hf : l.isFinished) (hs : ∀ s ∈ l.segments, s.Left 0) : Left 0 l

/-- Such a list has finished just if no ticks are left to it. -/
theorem Left.isFinished_iff (h : Left n l) : l.isFinished ↔ n = 0 := by
  cases h with
  | empty hf => exact iff_of_false hf Nat.one_ne_zero
  | goingOn hf => exact iff_of_false hf (by omega)
  | finished hf => exact iff_of_true hf rfl

/-- When no tick is left to a list, none is left to its segments. -/
theorem Left.segments (h : Left 0 l) : ∀ s ∈ l.segments, s.Left 0 := by
  generalize hn : 0 = k at h
  cases h with
  | empty => cases hn
  | goingOn => omega
  | finished hf hs => exact hs

/-- The list after its current segment has come to its end. -/
theorem left_past {s : SegmentRun} {rest : List SegmentRun} (hs : s.Left 0)
    (hr : ∀ s ∈ rest, s.Left 2) (hp : ∀ s ∈ l.played, s.Left 0) :
    Left (2 * rest.length) (l.past s rest).closed := by
  -- the segment joins the ones that are complete
  have hpast : ∀ t ∈ l.played ++ [s], t.Left 0 := by
    simpa only [List.forall_mem_append, List.forall_mem_singleton] using ⟨hp, hs⟩
  cases rest with
  | nil =>
    refine .finished rfl ?_
    show ∀ t ∈ l.played ++ [s] ++ [], t.Left 0
    rwa [List.append_nil]
  | cons t rest =>
    rw [List.forall_mem_cons] at hr
    have hleft : Left (1 + 1 + 2 * rest.length) (l.past s (t :: rest)) :=
      .goingOn (not_isFinished_of_running rfl) rfl hr.1 hr.2 hpast
    rw [List.length_cons, Nat.mul_succ, Nat.add_comm]
    exact hleft

/-- **A tick of a list is one less that is left**, and it is not fatal. -/
theorem Left.tick (h : Left (n + 1) l) (m : Moment) (env : Environment) :
    Left n (l.tick m env).subject.1 ∧ ∀ reason, (l.tick m env).subject.2 ≠ .fatal reason := by
  have hplays : l.Plays m env _ _ _ :=
    tick_plays fun hf => absurd (h.isFinished_iff.mp hf) (Nat.succ_ne_zero n)
  generalize (l.tick m env).subject.1 = l', (l.tick m env).subject.2 = e,
    (l.tick m env).env = env' at hplays ⊢
  generalize hn : n + 1 = k at h
  cases h with
  | empty hf ha hp =>
    obtain rfl : n = 0 := Nat.succ.inj hn
    obtain ⟨rfl, rfl, -⟩ := hplays.of_empty ha
    refine ⟨.finished rfl ?_, fun _ => ListEvent.noConfusion⟩
    show ∀ s ∈ l.played ++ l.ahead, s.Left 0
    rw [ha, hp]
    exact fun _ hs => absurd hs List.not_mem_nil
  | @goingOn _ s rest i hf ha hs hr hp =>
    have htick := hs.tick m env
    -- a segment that ends is complete
    have hcompletes : (s.tick m env).subject.state.isTerminal →
        (s.tick m env).subject.state = .completed := by
      intro hover
      exact htick.state_cases.elim And.right fun hgoing => absurd hover hgoing.2
    cases hplays with
    | empty h => rw [h] at ha; cases ha
    -- the segment has a tick left, and goes on
    | ongoing h hgoing =>
      obtain ⟨rfl, rfl⟩ := List.cons.inj (ha.symm.trans h)
      have hpos : 0 < i :=
        htick.state_cases.elim (fun hover => absurd (hover.2 ▸ rfl) hgoing) And.left
      obtain ⟨j, rfl⟩ := Nat.exists_eq_succ_of_ne_zero (Nat.ne_of_gt hpos)
      obtain rfl : n = j + 1 + 2 * rest.length := by omega
      exact ⟨.goingOn (not_isFinished_of_running rfl) rfl htick hr hp,
        fun _ => ListEvent.noConfusion⟩
    -- it was the last tick of the segment, and the next one has all of its ticks before it
    | completed h hcompleted =>
      obtain ⟨rfl, rfl⟩ := List.cons.inj (ha.symm.trans h)
      have hnone : i = 0 := by
        rcases htick.state_cases with ⟨hi, -⟩ | ⟨-, hgoing⟩
        · exact hi
        · rw [hcompleted] at hgoing
          exact absurd rfl hgoing
      subst hnone
      obtain rfl : n = 2 * rest.length := by omega
      exact ⟨left_past htick hr hp, fun _ => ListEvent.noConfusion⟩
    -- a segment that waits for nothing ends in no other way
    | fatal h ht hincomplete | cutShort h ht hincomplete | passedOver h ht hincomplete =>
      obtain ⟨rfl, rfl⟩ := List.cons.inj (ha.symm.trans h)
      exact absurd (hcompletes ht) hincomplete
  | finished => cases hn

end ListRun

namespace PlaybackRun

variable {r r' : PlaybackRun} {ls : List ListRun} {t : ListTicks} {m : Moment}
  {env env' : Environment} {n : Nat}

/-- Lists that do not share a tick, and **how many ticks are left** to all of them. -/
inductive Left : Nat → List ListRun → Prop
  | nil : Left 0 []
  | cons {l : ListRun} {rest : List ListRun} {a b : Nat} (hl : l.Left a) (hp : ¬ l.isParallel)
      (hr : Left b rest) : Left (a + b) (l :: rest)

/-- All lists have finished just if no ticks are left. -/
theorem Left.all_isFinished_iff (h : Left n ls) : (∀ l ∈ ls, l.isFinished) ↔ n = 0 := by
  induction h with
  | nil => exact iff_of_true (fun _ hl => absurd hl List.not_mem_nil) rfl
  | cons hl hp hr ih => rw [List.forall_mem_cons, hl.isFinished_iff, ih, Nat.add_eq_zero_iff]

/-- **A round is one less that is left**, and it is not fatal. -/
theorem Left.round (h : Left (n + 1) ls) (hr : Round m ls env t env') :
    t.fatal = none ∧ Left n t.lists := by
  generalize hn : n + 1 = k at h
  induction hr generalizing k with
  | nil => cases h; cases hn
  -- no tick is left to the first list, and so one is taken off the others
  | @finished l rest env env' t hf hr ih =>
    cases h with
    | @cons _ _ a b hl hp hrest =>
      obtain rfl : a = 0 := hl.isFinished_iff.mp hf
      obtain ⟨hfatal, hleft⟩ := ih b (hn.trans (Nat.zero_add b)) hrest
      refine ⟨hfatal, ?_⟩
      rw [← Nat.zero_add n]
      exact .cons hl hp hleft
  | fatal hf he =>
    cases h with
    | @cons _ _ a b hl hp hrest =>
      obtain ⟨a, rfl⟩ := Nat.exists_eq_succ_of_ne_zero (mt hl.isFinished_iff.mpr hf)
      exact absurd he ((hl.tick _ _).2 _)
  -- no list shares a tick
  | parallel hf he hpar =>
    cases h with
    | cons hl hp => exact absurd hpar hp
  -- this is the list that the tick is taken off
  | @last l rest env hf he hp =>
    cases h with
    | @cons _ _ a b hl hp hrest =>
      obtain ⟨a, rfl⟩ := Nat.exists_eq_succ_of_ne_zero (mt hl.isFinished_iff.mpr hf)
      obtain rfl : n = a + b := by omega
      have hparallel : (l.tick m env).subject.1.isParallel = l.isParallel :=
        (ListRun.tick_plays hf).isParallel_eq
      exact ⟨rfl, .cons (hl.tick m env).1 (hparallel ▸ hp) hrest⟩

/-- When no tick is left to the lists, none is left to any segment. -/
theorem Left.segments (h : Left 0 ls) : ∀ l ∈ ls, ∀ s ∈ l.segments, s.Left 0 := by
  generalize hn : 0 = k at h
  induction h with
  | nil => exact fun _ hl => absurd hl List.not_mem_nil
  | @cons l rest a b hl hp hr ih =>
    obtain ⟨rfl, rfl⟩ := Nat.add_eq_zero_iff.mp hn.symm
    exact List.forall_mem_cons.mpr ⟨hl.segments, ih rfl⟩

/-! ### Runs -/

/-- A run that goes on without a time limit, with **how many ticks are left** to its lists. -/
structure Keeps (n : Nat) (r : PlaybackRun) : Prop where
  result : r.result = none
  timeout : r.timeout = none
  left : Left n r.lists

variable {b : Beat}

/-- A round takes one off, if there is any left. -/
theorem Keeps.round (h : Keeps n r) (b : Beat) (env : Environment) :
    (r.round b env).subject.fatal = none ∧ Left (n - 1) (r.played b env).lists := by
  cases n with
  | zero =>
    have hfinished : ∀ l ∈ r.lists, l.isFinished := h.left.all_isFinished_iff.mpr rfl
    obtain ⟨hlists, hfatal⟩ := round_of_finished b env hfinished
    exact ⟨hfatal, hlists.symm ▸ h.left⟩
  | succ n => exact h.left.round (tickLists_round (r.moment b env) r.lists (r.opened b env))

/-- A run all of whose segments are complete ends **with success**. -/
theorem success_of_left (h : Left 0 r.lists) : (r.outcome true).success = true := by
  refine List.all_eq_true.mpr fun e he => ?_
  obtain ⟨s, hs, rfl⟩ := List.mem_map.mp he
  obtain ⟨l, hl, hs⟩ := List.mem_flatMap.mp hs
  have hpassed : s.passed = true := (h.segments l hl s hs).passed
  rw [SegmentRun.result_passed, hpassed, Bool.or_true]

/-- **A tick of a run that nobody breaks off.** The run goes on as long as more than this tick was
left. -/
theorem Keeps.tick (h : Keeps n r) (hs : ¬ Signalled b r) (env : Environment) :
    (r.tick b env).subject.listener = r.listener ∧
      (1 < n → Keeps (n - 1) (r.tick b env).subject) ∧
      (n ≤ 1 → Left 0 (r.tick b env).subject.lists ∧
        ∃ result, (r.tick b env).subject.result = some result ∧ result.success = true) := by
  have ho := obstacle?_of_peace hs h.timeout
  -- whether the run is over is whether nothing is left behind the round
  obtain ⟨hfatal, hleft⟩ := h.round b env
  rw [(tick_of_not_fatal h.result ho hfatal).2]
  have hover : (r.played b env).lists.all ListRun.isFinished = true ↔ n - 1 = 0 :=
    List.all_eq_true.trans hleft.all_isFinished_iff
  by_cases hn : n ≤ 1
  · have hnone : n - 1 = 0 := Nat.sub_eq_zero_of_le hn
    rw [if_pos (hover.mpr hnone)]
    rw [hnone] at hleft
    exact ⟨listener_begun hs, fun hmore => absurd hn (Nat.not_le.mpr hmore),
      fun _ => ⟨hleft, _, rfl, success_of_left hleft⟩⟩
  · have hmore : n - 1 ≠ 0 := by omega
    rw [if_neg (mt hover.mp hmore)]
    exact ⟨listener_begun hs, fun _ => ⟨h.result, h.timeout, hleft⟩, fun hle => absurd hle hn⟩

/-- The run after some ticks, each in an environment of its own. -/
def after (ticks : List (Beat × Environment)) (r : PlaybackRun) : PlaybackRun :=
  ticks.foldl (fun r t => (r.tick t.1 t.2).subject) r

/-- A run that has ended stays as it is. -/
theorem after_of_ended {result : RunResult} (h : r.result = some result)
    (ticks : List (Beat × Environment)) : r.after ticks = r := by
  induction ticks with
  | nil => rfl
  | cons t rest ih =>
    show (r.tick t.1 t.2).subject.after rest = r
    rw [tick_of_ended h]
    exact ih

/-- **A run takes as many ticks as are left**, and at least one. -/
theorem Keeps.after (h : Keeps n r) (ticks : List (Beat × Environment))
    (hs : ∀ t ∈ ticks, ¬ Signalled t.1 r) :
    (ticks.length < max 1 n → (r.after ticks).result = none) ∧
      (max 1 n ≤ ticks.length → Left 0 (r.after ticks).lists ∧
        ∃ result, (r.after ticks).result = some result ∧ result.success = true) := by
  -- induction over the ticks, with what is left to the lists as the invariant
  induction ticks generalizing r n with
  | nil =>
    refine ⟨fun _ => h.result, fun hle => ?_⟩
    have hpos : 0 < max 1 n := Nat.lt_of_lt_of_le Nat.one_pos (Nat.le_max_left 1 n)
    exact absurd hle (Nat.not_le.mpr hpos)
  | cons t rest ih =>
    rw [List.forall_mem_cons] at hs
    obtain ⟨hlistener, hgoesOn, hends⟩ := h.tick hs.1 t.2
    have hafter : r.after (t :: rest) = (r.tick t.1 t.2).subject.after rest := rfl
    rw [List.length_cons, hafter]
    by_cases hn : n ≤ 1
    · -- the run ends with this tick, and stays as it is
      obtain ⟨hleft, result, hresult, hsuccess⟩ := hends hn
      rw [after_of_ended hresult]
      exact ⟨fun hlt => by omega, fun _ => ⟨hleft, result, hresult, hsuccess⟩⟩
    · have hmore : 1 < n := Nat.not_le.mp hn
      -- the run goes on to listen for what it has listened for
      have hrest : ∀ u ∈ rest, ¬ Signalled u.1 (r.tick t.1 t.2).subject := by
        intro u hu hheard
        unfold Signalled at hheard
        rw [hlistener] at hheard
        exact hs.2 u hu hheard
      obtain ⟨hbefore, hafter⟩ := ih (hgoesOn hmore) hrest
      exact ⟨fun hlt => hbefore (by omega), fun hle => hafter (by omega)⟩

/-! ### The beginning -/

variable {p : Playlist} {c : Config}

/-- A segment that has not begun has two ticks left. -/
theorem left_segmentRuns (c : Config) (list : String) (number : Nat) {ss : List Segment}
    (h : ∀ s ∈ ss, s.Unhindered) : ∀ s ∈ segmentRuns c list number ss, s.Left 2 := by
  induction ss generalizing number with
  | nil => exact fun _ hs => absurd hs List.not_mem_nil
  | cons s rest ih =>
    rw [List.forall_mem_cons] at h
    exact List.forall_mem_cons.mpr ⟨.unbegun h.1 .., ih _ h.2⟩

/-- Two ticks for each segment, and one for each list without segments. -/
def paces (ls : List SegmentList) : Nat :=
  2 * (Playlist.segments ⟨"", ls⟩).length + ls.countP fun l => l.segments.isEmpty

/-- The ticks of the first list, and of the others. -/
theorem paces_cons (l : SegmentList) (rest : List SegmentList) :
    paces (l :: rest) = (if l.segments.isEmpty then 1 else 2 * l.segments.length) + paces rest := by
  have hlength : (Playlist.segments ⟨"", l :: rest⟩).length =
      l.segments.length + (Playlist.segments ⟨"", rest⟩).length := by
    show (l.segments.map _ ++ _).length = _
    rw [List.length_append, List.length_map]
    rfl
  unfold paces
  rw [hlength, List.countP_cons]
  cases l.segments with
  | nil =>
    -- an empty list takes the tick in which it is found empty
    rw [List.isEmpty_nil, List.length_nil, if_pos rfl]
    omega
  | cons s ss =>
    rw [List.isEmpty_cons, if_neg Bool.false_ne_true, if_neg Bool.false_ne_true]
    omega

/-- Lists that have not begun have as many ticks left as they will take. -/
theorem left_listRuns (number : Nat) {ls : List SegmentList}
    (h : ∀ l ∈ ls, ∀ s ∈ l.segments, s.Unhindered)
    (hp : ∀ l ∈ ls, ¬ c.isParallelList l.name) : Left (paces ls) (listRuns c number ls) := by
  induction ls generalizing number with
  | nil => exact .nil
  | cons l rest ih =>
    rw [List.forall_mem_cons] at h hp
    rw [paces_cons]
    refine .cons ?_ hp.1 (ih _ h.2 hp.2)
    have hunfinished : ListState.notStarted ≠ .finished := ListState.noConfusion
    have hruns := left_segmentRuns c l.name number h.1
    cases hs : l.segments with
    -- an empty list takes one tick, and any other one two for each segment
    | nil => exact .empty (mt ListRun.isFinished_iff.mp hunfinished) rfl rfl
    | cons s ss =>
      rw [hs] at hruns
      obtain ⟨hfirst, hrest⟩ := List.forall_mem_cons.mp hruns
      have hlength : (segmentRuns c l.name (number + 1) ss).length = ss.length := by
        rw [segmentRuns_eq, List.length_map, List.length_zipIdx, List.length_map]
      rw [List.isEmpty_cons, if_neg Bool.false_ne_true, List.length_cons, Nat.mul_succ,
        Nat.add_comm, ← hlength]
      exact .goingOn (mt ListRun.isFinished_iff.mp hunfinished) rfl hfirst hrest
        fun _ hs => absurd hs List.not_mem_nil

/-- A run that is ticked is a run like any other. -/
theorem reachable_after (h : Reachable p c r) (ticks : List (Beat × Environment)) :
    Reachable p c (r.after ticks) := by
  induction ticks generalizing r with
  | nil => exact h
  | cons t rest ih => exact ih (h.tick t.1 t.2)

/-- **Two ticks for each segment, one for each empty list.** Consider a run of a playlist that has
not begun. None of its segments waits for anything, none of its lists is parallel, it has no time
limit, and no signal comes. Then, whatever the frames and the times are, and in whichever
environments it is played,

* there is no result before the tick that is due,
* on that tick there is one, and it is a success. Every segment has completed on its second tick. -/
theorem keeps_pace (h : Fresh p c r) (hidle : ∀ l ∈ p.lists, ∀ s ∈ l.segments, s.Unhindered)
    (hp : ∀ l ∈ p.lists, ¬ c.isParallelList l.name) (ht : r.timeout = none)
    (ticks : List (Beat × Environment)) (hs : ∀ t ∈ ticks, ¬ Signalled t.1 r) :
    let due := max 1 (2 * p.segments.length + p.lists.countP fun l => l.segments.isEmpty)
    (ticks.length < due → (r.after ticks).result = none) ∧
      (due ≤ ticks.length →
        (∃ result, (r.after ticks).result = some result ∧ result.success = true) ∧
          (r.after ticks).segments.length = p.segments.length ∧
            ∀ s ∈ (r.after ticks).segments, s.state = .completed ∧ s.ticks = 2 ∧
              s.history = [(.awaitingEntry, 1), (.executing, 1), (.awaitingCompletion, 2),
                (.completed, 2)]) := by
  intro due
  -- two ticks are left for each segment, and one for each empty list
  have hleft : Left (paces p.lists) r.lists := h.lists_eq ▸ left_listRuns 1 hidle hp
  have hkeeps : Keeps (paces p.lists) r := ⟨h.idle.2, ht, hleft⟩
  obtain ⟨hbefore, hafter⟩ := hkeeps.after ticks hs
  refine ⟨hbefore, fun hdue => ?_⟩
  -- once these are used up, every segment is done
  obtain ⟨hdone, hresult⟩ := hafter hdue
  refine ⟨hresult, (reachable_after (.fresh h) ticks).sound.length_segments, fun s hs => ?_⟩
  obtain ⟨l, hl, hs⟩ := List.mem_flatMap.mp hs
  exact (hdone.segments l hl s hs).done_eq

/-- A stroll: a step, nothing, and two steps more, of which the last one takes any of two void
criteria. -/
def stroll : Playlist where
  name := "stroll"
  lists :=
    [⟨"out", "", 1, [.ofName "step"]⟩, ⟨"bench", "", 1, []⟩,
      ⟨"back", "", 1, [{ Segment.ofName "turn" with timeout := 0.5 },
        { Segment.ofName "step" with
          endCriteria := [.of .void, .single 1 true .void]
          endJoin := .any }]⟩]

/-- A segment that is supported and has no action waits for nothing if its criteria are void. -/
theorem unhindered_of_void {s : Segment} (hv : ¬ Version.current < s.effectiveVersion)
    (ha : s.action = none) (hc : ∀ c ∈ s.entryCriteria ++ s.endCriteria, c.IsVoid) : s.Unhindered :=
  ⟨s.not_current_lt_iff.mp hv, ha, hc⟩

/-- The stroll is over on its seventh tick, and not on the sixth. -/
theorem stroll_takes_seven :
    let begun := PlaybackRun.of stroll .default "a-stroll" 0
    let ticks (n : Nat) := List.replicate n (second false, Environment.of .empty)
    (begun.after (ticks 6)).result = none ∧
      ∃ result, (begun.after (ticks 7)).result = some result ∧ result.success = true := by
  intro begun ticks
  -- nothing in the stroll has to be waited for
  have hidle : ∀ l ∈ stroll.lists, ∀ s ∈ l.segments, s.Unhindered := by
    have hstep : (Segment.ofName "step").Unhindered :=
      unhindered_of_void (by decide +kernel) rfl fun _ hc => absurd hc List.not_mem_nil
    have hturn : Segment.Unhindered { Segment.ofName "turn" with timeout := 0.5 } :=
      unhindered_of_void (by decide +kernel) rfl fun _ hc => absurd hc List.not_mem_nil
    have hlast : Segment.Unhindered
        { Segment.ofName "step" with
          endCriteria := [.of .void, .single 1 true .void]
          endJoin := .any } := by
      refine unhindered_of_void (by decide +kernel) rfl fun c hc => ?_
      rcases List.mem_pair.mp hc with rfl | rfl <;> exact ⟨_, _, rfl⟩
    have hback := List.forall_mem_cons.mpr ⟨hturn, List.forall_mem_singleton.mpr hlast⟩
    have hbench : ∀ s ∈ ([] : List Segment), s.Unhindered := fun _ hs => absurd hs List.not_mem_nil
    exact List.forall_mem_cons.mpr ⟨List.forall_mem_singleton.mpr hstep,
      List.forall_mem_cons.mpr ⟨hbench, List.forall_mem_singleton.mpr hback⟩⟩
  -- there is nobody who could signal
  have hquiet : ∀ n, ∀ t ∈ ticks n, ¬ Signalled t.1 begun := by
    rintro n t - ⟨listener, hl, -⟩
    cases hl
  have hpace := fun n => keeps_pace (.of "a-stroll" 0) hidle (by decide +kernel) rfl
    (ticks n) (hquiet n)
  exact ⟨(hpace 6).1 (by decide +kernel), ((hpace 7).2 (by decide +kernel)).1⟩

end PlaybackRun

end Playtest
