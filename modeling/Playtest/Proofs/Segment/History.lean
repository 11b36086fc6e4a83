import Mathlib.Data.List.Nodup
import Playtest.Proofs.Segment.Course

/-!
# The history of a segment

Every state that a segment enters is put down in its history, with the tick on which it was entered.
The main result, `SegmentRun.history_is_path`, is that the history of every run is a path through

    Pending -> AwaitingEntry -> Executing -> AwaitingCompletion -> Completed

which may stop or be left early, whatever handlers, criteria and the time do, and in whichever order
ticks, aborts and skips arrive (`SegmentRun.Reachable`).

The invariant behind it is `SegmentRun.Chart`. It has one rule for each state and says what the
history looks like in that state at the end of a tick. A tick may enter up to three states on its
way, so the invariant is not carried over from tick to tick in one go, but from each part of a tick
to the next (`Chart.opens`, `Chart.judges`, `Chart.closes`). It is only between two ticks that time
is counted, and this is why no segment waits for completion on the tick on which it has begun to
execute.
-/

namespace Playtest

namespace SegmentRun

variable {m : Moment} {env : Environment} {r r' : SegmentRun} {cs : List Call}

/-! ### Paths -/

/-- The states in which a segment waits, in their order. -/
def stages : List SegmentState := [.awaitingEntry, .executing, .awaitingCompletion]

/-- The **paths** that lead through the states of a segment. -/
inductive Path : List SegmentState → Prop
  | untouched : Path []
  | skipped : Path [.skipped]
  | waiting (n : Nat) (hn : 0 < n) : Path (stages.take n)
  | completed : Path (stages ++ [.completed])
  /-- Each of the stages may be the last one. -/
  | stopped (n : Nat) (hn : 0 < n) {e : SegmentState} (he : e = .timedOut ∨ e = .failed) :
      Path (stages.take n ++ [e])

/-- No state is entered twice. -/
theorem Path.nodup {ss : List SegmentState} (h : Path ss) : ss.Nodup := by
  have waiting : ∀ n, (stages.take n).Nodup :=
    fun n => (List.take_sublist n stages).nodup (by decide)
  cases h with
  | untouched => exact List.nodup_nil
  | skipped => exact List.nodup_singleton _
  | waiting n => exact waiting n
  | completed => decide
  | stopped n _ he =>
    refine List.nodup_append.mpr ⟨waiting n, List.nodup_singleton _, fun s hs e' he' => ?_⟩
    rw [List.mem_singleton.mp he']
    rintro rfl
    -- an end is none of the stages
    have hs := List.mem_of_mem_take hs
    rcases he with rfl | rfl <;> exact absurd hs (by decide)

/-- A history is **timed** if the ticks in it fit the states that were entered on them. -/
structure Timed (tick : Nat) (hs : List (SegmentState × Nat)) : Prop where
  /-- Nothing was entered later than now. -/
  past : ∀ p ∈ hs, p.2 ≤ tick
  ordered : hs.Pairwise fun p q => p.2 ≤ q.2
  /-- A segment is skipped before it is reached by a tick. -/
  skipped : ∀ t, (.skipped, t) ∈ hs → t = 0
  /-- A segment begins on the first tick that reaches it. -/
  begun : ∀ t, (.awaitingEntry, t) ∈ hs → t = 1
  /-- An action is given at least one tick before its completion is waited for. -/
  dispatched : ∀ t u, (.executing, t) ∈ hs → (.awaitingCompletion, u) ∈ hs → t < u

/-! ### Charts -/

/-- What the **history looks like** when a segment is in a state at the end of a tick. -/
inductive Chart : SegmentState → (tick : Nat) → List (SegmentState × Nat) → Prop
  | untouched : Chart .pending 0 []
  | skipped : Chart .skipped 0 [(.skipped, 0)]
  | entry {n : Nat} (hn : 1 ≤ n) : Chart .awaitingEntry n [(.awaitingEntry, 1)]
  | executing {t n : Nat} (ht : 1 ≤ t) (hn : t ≤ n) :
      Chart .executing n [(.awaitingEntry, 1), (.executing, t)]
  | completion {t u n : Nat} (ht : 1 ≤ t) (hu : t < u) (hn : u ≤ n) :
      Chart .awaitingCompletion n [(.awaitingEntry, 1), (.executing, t), (.awaitingCompletion, u)]
  | completed {n : Nat} {hs : List (SegmentState × Nat)} (h : Chart .awaitingCompletion n hs) :
      Chart .completed n (hs ++ [(.completed, n)])
  | stopped {s e : SegmentState} {n : Nat} {hs : List (SegmentState × Nat)} (h : Chart s n hs)
      (hw : s.isWaiting) (he : e = .timedOut ∨ e = .failed) : Chart e n (hs ++ [(e, n)])

section Chart

variable {s e : SegmentState} {n : Nat} {hs : List (SegmentState × Nat)}

/-- A segment that waits has the stages up to its own behind it. -/
theorem Chart.of_isWaiting (h : Chart s n hs) (hw : s.isWaiting) :
    ∃ k, 0 < k ∧ hs.map Prod.fst = stages.take k := by
  cases h with
  | entry => exact ⟨1, by decide, rfl⟩
  | executing => exact ⟨2, by decide, rfl⟩
  | completion => exact ⟨3, by decide, rfl⟩
  | untouched | skipped | completed => exact absurd hw (by decide)
  | stopped _ _ he => rcases he with rfl | rfl <;> exact absurd hw (by decide)

/-- What a chart goes through is a path. -/
theorem Chart.path (h : Chart s n hs) : Path (hs.map Prod.fst) := by
  cases h with
  | untouched => exact .untouched
  | skipped => exact .skipped
  | entry => exact .waiting 1 (by decide)
  | executing => exact .waiting 2 (by decide)
  | completion => exact .waiting 3 (by decide)
  | completed h =>
    cases h with
    | completion => exact .completed
    -- completion is no other end
    | stopped _ _ he => exact absurd he (by decide)
  | stopped h hw he =>
    -- it was stopped behind some of its waiting states
    obtain ⟨k, hpos, hk⟩ := h.of_isWaiting hw
    rw [List.map_append, hk]
    exact .stopped k hpos he

/-- The last state of a history is the one that the segment is in. -/
theorem Chart.last (h : Chart s n hs) : (hs.map Prod.fst).getLast?.getD .pending = s := by
  cases h with
  | completed | stopped => rw [List.map_append, List.getLast?_append]; rfl
  | untouched | skipped | entry | executing | completion => rfl

/-- Ending now is timed well, whatever the history was, unless it is by being skipped. -/
theorem Timed.ended (h : Timed n hs) (he : e = .completed ∨ e = .timedOut ∨ e = .failed) :
    Timed n (hs ++ [(e, n)]) := by
  -- nothing but the new entry is in one of the states of an end
  have earlier : ∀ {s t}, s ≠ .completed → s ≠ .timedOut → s ≠ .failed →
      (s, t) ∈ hs ++ [(e, n)] → (s, t) ∈ hs := by
    intro s t hc ht hf hm
    rcases List.mem_append.mp hm with hm | hm
    · exact hm
    · obtain ⟨rfl, -⟩ := Prod.mk.inj (List.mem_singleton.mp hm)
      simp_all
  refine ⟨fun p hp => ?_, ?_, fun t ht => ?_, fun t ht => ?_, fun t u ht hu => ?_⟩
  · rcases List.mem_append.mp hp with hp | hp
    · exact h.past p hp
    · exact Nat.le_of_eq (congrArg Prod.snd (List.mem_singleton.mp hp))
  · refine List.pairwise_append.mpr ⟨h.ordered, List.pairwise_singleton .., fun p hp q hq => ?_⟩
    rw [List.mem_singleton.mp hq]
    exact h.past p hp
  · exact h.skipped t (earlier (by decide) (by decide) (by decide) ht)
  · exact h.begun t (earlier (by decide) (by decide) (by decide) ht)
  · exact h.dispatched t u (earlier (by decide) (by decide) (by decide) ht)
      (earlier (by decide) (by decide) (by decide) hu)

/-- What a chart goes through is timed. -/
theorem Chart.timed (h : Chart s n hs) : Timed n hs := by
  -- along how the segment has ended, if it has
  induction h with
  | completed _ ih => exact ih.ended (.inl rfl)
  | stopped _ _ he ih => exact ih.ended (.inr he)
  | untouched | skipped | entry | executing | completion => constructor <;> simp <;> omega

/-! ### Ticks -/

/-- Time may pass while a segment waits. -/
theorem Chart.later (h : Chart s n hs) (hw : s.isWaiting) {k : Nat} (hk : n ≤ k) :
    Chart s k hs := by
  cases h with
  | entry hn => exact .entry (Nat.le_trans hn hk)
  | executing ht hn => exact .executing ht (Nat.le_trans hn hk)
  | completion ht hu hn => exact .completion ht hu (Nat.le_trans hn hk)
  | untouched | skipped | completed => exact absurd hw (by decide)
  | stopped _ _ he => rcases he with rfl | rfl <;> exact absurd hw (by decide)

theorem Chart.of_pending (h : Chart .pending n hs) : n = 0 ∧ hs = [] := by
  cases h with
  | untouched => exact ⟨rfl, rfl⟩
  | stopped _ _ he => exact absurd he (by decide)

/-- A segment that waits for its entry criteria has entered nothing else. -/
theorem Chart.of_awaitingEntry (h : Chart .awaitingEntry n hs) :
    1 ≤ n ∧ hs = [(.awaitingEntry, 1)] := by
  cases h with
  | entry hn => exact ⟨hn, rfl⟩
  | stopped _ _ he => exact absurd he (by decide)

/-- A segment that is executing has entered two states. -/
theorem Chart.of_executing (h : Chart .executing n hs) :
    ∃ t, 1 ≤ t ∧ t ≤ n ∧ hs = [(.awaitingEntry, 1), (.executing, t)] := by
  cases h with
  | executing ht hn => exact ⟨_, ht, hn, rfl⟩
  | stopped _ _ he => exact absurd he (by decide)

end Chart

/-- **The invariant**: the history of a run is the one of its state and its ticks. -/
def Charted (r : SegmentRun) : Prop := Chart r.state r.ticks r.history

/-- A segment that waits may fail. -/
theorem Charted.failed (h : Charted r) (hw : r.state.isWaiting) (reason : String) :
    Charted (r.failed reason) :=
  Chart.stopped h hw (.inr rfl)

/-- A segment that waits may run out of time. -/
theorem Charted.timedOut (h : Charted r) (hw : r.state.isWaiting) (reason : String) :
    Charted (r.timedOut reason) :=
  Chart.stopped h hw (.inl rfl)

/-- The tick is counted before a segment goes on to wait for completion, and so it is not the one on
which the segment has begun to execute. -/
theorem Charted.dispatched (h : Charted r) (hs : r.state = .executing)
    (hh : r'.history = r.history) (ht : r'.ticks = r.ticks + 1) :
    Charted (r'.entered .awaitingCompletion) := by
  have h : Chart .executing r.ticks r.history := hs ▸ h
  obtain ⟨t, hpos, hle, hist⟩ := h.of_executing
  show Chart .awaitingCompletion r'.ticks (r'.history ++ [(.awaitingCompletion, r'.ticks)])
  rw [hh, ht, hist]
  exact .completion hpos (Nat.lt_succ_of_le hle) (Nat.le_refl _)

/-- Whatever a tick opens with keeps the invariant, and the segment does not stay pending. -/
theorem Charted.opens (h : Charted r) (ho : Opens m env (r.counted m.delta) cs r') :
    Charted r' := by
  -- a segment that waits on has one tick more behind it, and the same history
  have counted : r.state.isWaiting → Charted (r.counted m.delta) :=
    fun hw => h.later hw (Nat.le_succ _)
  -- the flag makes no difference to a history
  have failed : r.state = .executing → ∀ d reason,
      Charted ({ r.counted m.delta with isDispatched := d }.failed reason) := by
    intro hs d reason
    exact Charted.failed (r := { r.counted m.delta with isDispatched := d })
      (counted (by rw [hs]; rfl)) (by show r.state.isWaiting; rw [hs]; rfl) reason
  cases ho with
  | begin hs =>
    have h : Chart .pending r.ticks r.history := hs ▸ h
    obtain ⟨ht, hh⟩ := h.of_pending
    show Chart .awaitingEntry (r.ticks + 1) (r.history ++ [(.awaitingEntry, r.ticks + 1)])
    rw [ht, hh]
    exact .entry (Nat.le_refl 1)
  | wait hs => exact counted (by rw [show r.state = _ from hs]; rfl)
  | pass hs => exact h.dispatched hs rfl rfl
  | missing hs => exact counted (by rw [show r.state = _ from hs]; rfl)
  | astray hs => exact h.dispatched hs rfl rfl
  | unable hs reason => exact failed hs _ reason
  | refuse aim _ reason => exact failed aim.state _ reason
  | start aim => exact h.dispatched aim.state rfl rfl
  | idle hs => exact counted (by rw [show r.state = _ from hs]; rfl)
  | poll hs => exact counted (by rw [show r.state = _ from hs]; rfl)

theorem Charted.noted (h : Charted r) (hn : Noted r r') : Charted r' := by
  cases hn
  exact h

/-- Criteria that hold let a segment go on, which keeps the invariant. -/
theorem Charted.held (phase : Phase) (h : Charted r) (hs : r.state = phase.state) :
    Charted (r.entered phase.next) := by
  have h : Chart phase.state r.ticks r.history := hs ▸ h
  show Chart phase.next r.ticks (r.history ++ [(phase.next, r.ticks)])
  cases phase with
  | completion => exact .completed h
  | entry =>
    obtain ⟨hpos, hist⟩ := h.of_awaitingEntry
    rw [hist]
    exact .executing hpos (Nat.le_refl _)

/-- Judging criteria keeps the invariant. -/
theorem Charted.judges (h : Charted r) (hj : Judges r r') : Charted r' := by
  cases hj with
  | rest hn => exact h.noted hn
  | hold phase hs hn => exact (h.noted hn).held phase (hn.state_eq.trans hs)
  | fail hs reason => exact h.failed hs reason

/-- The look at the time keeps the invariant. -/
theorem Charted.closes (h : Charted r) (hb : r.state.isBegun) (hc : Closes env r cs r') :
    Charted r' := by
  cases hc with
  | inTime => exact h
  | late hs =>
    exact Charted.timedOut (r := { r with lastUnmet := none }) h
      (SegmentState.isWaiting_of_isBegun hb hs) _

/-- **A tick keeps the invariant.** -/
theorem Charted.tick (h : Charted r) (m : Moment) (env : Environment) :
    Charted (r.tick m env).subject := by
  by_cases ht : r.state.isTerminal
  · rw [tick_of_isTerminal m env ht]
    exact h
  · obtain ⟨cs, ds, env₁, r₁, r₂, ho, -, hj, hc, -⟩ := tick_parts m env ht
    exact ((h.opens ho).judges hj).closes (hj.onward.isBegun ho.onward.2) hc

/-- Skipping keeps the invariant, since only a pending run is skipped. -/
theorem Charted.skipped (h : Charted r) : Charted r.skipped := by
  unfold SegmentRun.skipped
  split
  · next hs =>
    -- nothing is in the history of a pending run
    have h : Chart .pending r.ticks r.history := hs ▸ h
    obtain ⟨ht, hh⟩ := h.of_pending
    show Chart .skipped r.ticks (r.history ++ [(.skipped, r.ticks)])
    rw [ht, hh]
    exact .skipped
  · exact h

/-- Breaking off keeps the invariant. -/
theorem Charted.cutOff (h : Charted r) (reason : String) : Charted (r.cutOff reason) := by
  unfold SegmentRun.cutOff
  split
  · exact h
  split
  · exact h.skipped
  · next ht hp =>
    have hw := SegmentState.isWaiting_of_isBegun (SegmentState.isBegun_of_ne_pending ht hp) ht
    exact h.timedOut hw reason

/-- What is in the history stays there. -/
theorem Onward.keeps_history (h : Onward r r') : r.history <+: r'.history := by
  -- by induction on the states that were entered, each of which is put behind the others
  have grows : ∀ {n p q}, Relation.ReflTransGen (Enters n) p q → p.2 <+: q.2 := by
    intro n p q hpq
    induction hpq with
    | refl => exact List.prefix_refl _
    | tail _ he ih => exact ih.trans ⟨_, he.2.symm⟩
  exact grows h.entered

/-- A tick that finds a segment executing comes after the one on which it has begun to. -/
theorem Charted.executing_lt (h : Charted r) (hs : r.state = .executing) (m : Moment)
    (env : Environment) {t : Nat} (ht : (.executing, t) ∈ (r.tick m env).subject.history) :
    t < (r.tick m env).subject.ticks := by
  have hover : ¬ r.state.isTerminal := by rw [hs]; decide
  -- the entry that was made before is the only one
  have h' : Chart .executing r.ticks r.history := hs ▸ h
  obtain ⟨u, -, hle, hist⟩ := h'.of_executing
  have hu : (.executing, u) ∈ r.history := by
    rw [hist]
    exact List.mem_cons_of_mem _ List.mem_cons_self
  have hu' := (tick_course m env hover).1.keeps_history.subset hu
  have heq : t = u := congrArg Prod.snd
    (List.inj_on_of_nodup_map (h.tick m env).path.nodup ht hu' rfl)
  rw [heq, ticks_tick m env hover]
  exact Nat.lt_succ_of_le hle

/-! ### Runs -/

/-- The runs that **any calls** of a segment lead to, each of them in an environment of its own. -/
inductive Reachable : SegmentRun → Prop
  | of (s : Segment) (list : String) (number : Nat) (isRequired : Bool) :
      Reachable (.of s list number isRequired)
  | tick (m : Moment) (env : Environment) {r : SegmentRun} (h : Reachable r) :
      Reachable (r.tick m env).subject
  | abort (reason : String) (env : Environment) {r : SegmentRun} (h : Reachable r) :
      Reachable (r.abort reason env).subject
  | skip (env : Environment) {r : SegmentRun} (h : Reachable r) : Reachable (r.skip env).subject

/-- **Every run keeps the invariant.** -/
theorem Reachable.charted (h : Reachable r) : Charted r := by
  induction h with
  | of => exact .untouched
  | tick m env _ ih => exact ih.tick m env
  | abort reason env _ ih => exact abort_subject env reason ▸ ih.cutOff reason
  | skip env _ ih => exact (skip_eq env).1 ▸ ih.skipped

/-- **The history of a segment is a path**, with ticks that fit it, and ends with the state of the
segment. What has ended stays as it is, and so does the environment. -/
theorem history_is_path (h : Reachable r) :
    Path (r.history.map Prod.fst) ∧ Timed r.ticks r.history ∧
      (r.history.map Prod.fst).getLast?.getD .pending = r.state ∧
        (r.state.isTerminal → ∀ env, (∀ m, r.tick m env = .still r env) ∧
          (∀ reason, r.abort reason env = .still r env) ∧ r.skip env = .still r env) := by
  have hc := h.charted
  refine ⟨hc.path, hc.timed, hc.last, fun ht env => ⟨fun m => ?_, fun reason => ?_, ?_⟩⟩
  · exact tick_of_isTerminal m env ht
  · exact if_pos ht
  · -- skipping is the only call that looks for a pending run
    have hp : r.state ≠ .pending := by
      intro hp
      rw [hp] at ht
      exact absurd ht (by decide)
    exact if_neg hp

/-- A pause of two ticks, which waits for nothing. -/
def pause : SegmentRun :=
  let m : Moment := ⟨1.0, .empty, none⟩
  let env := Environment.of .empty
  let begun := ((SegmentRun.of (.ofName "Pause") "Breaks" 1 true).tick m env).subject
  (begun.tick m env).subject

/-- It ends on the tick on which it begins to wait for completion, its second one. -/
theorem pause_has_history :
    Path (pause.history.map Prod.fst) ∧ pause.history =
      [(.awaitingEntry, 1), (.executing, 1), (.awaitingCompletion, 2), (.completed, 2)] := by
  have h : Reachable pause := .tick _ _ (.tick _ _ (.of ..))
  exact ⟨(history_is_path h).1, by decide +kernel⟩

end SegmentRun

end Playtest
