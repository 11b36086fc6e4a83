import Playtest.Proofs.Playback.Reachable

/-!
# The order of play

Which lists and segments may be under way at the same time, and which of them play in a tick
(`PlaybackRun.played_in_order`).

The order of the lists is `PlaybackRun.Ordered`, the order of the segments in a list is part of
`ListRun.Sound`, and what a tick plays is `PlaybackRun.Round.plays`. What is left to do is to read
off that no two lists can run at the same time that both let nobody pass (`Ordered.eq_of_running`).
-/

namespace Playtest

namespace PlaybackRun

variable {p : Playlist} {c : Config} {b : Beat} {r : PlaybackRun} {env : Environment}
  {ls : List ListRun} {l k : ListRun} {i j : Nat}

/-- What stands in front of a list that has started lets others pass. -/
theorem Ordered.letsPass (h : Ordered ls) (hij : i < j) (hi : ls[i]? = some l)
    (hj : ls[j]? = some k) (hk : k.state ≠ .notStarted) : l.LetsPass := by
  obtain ⟨hil, rfl⟩ := List.getElem?_eq_some_iff.mp hi
  obtain ⟨hjl, rfl⟩ := List.getElem?_eq_some_iff.mp hj
  exact List.pairwise_iff_getElem.mp h i j hil hjl hij hk

/-- A list **blocks** the ones behind it while it runs and is not parallel. -/
def Blocks (l : ListRun) : Prop := l.state = .running ∧ ¬ l.isParallel

theorem Blocks.not_letsPass (h : Blocks l) : ¬ l.LetsPass := by
  rintro (hf | hp)
  · exact ListRun.not_isFinished_of_running h.1 hf
  · exact h.2 hp

theorem Blocks.ne_notStarted (h : Blocks l) : l.state ≠ .notStarted := by
  rw [h.1]
  exact ListState.noConfusion

/-- At most one list blocks. -/
theorem Ordered.eq_of_blocks (h : Ordered ls) (hi : ls[i]? = some l) (hj : ls[j]? = some k)
    (hl : Blocks l) (hk : Blocks k) : i = j := by
  -- whichever comes first would have to let the other one pass
  rcases Nat.lt_trichotomy i j with hlt | heq | hgt
  · exact absurd (h.letsPass hlt hi hj hk.ne_notStarted) hl.not_letsPass
  · exact heq
  · exact absurd (h.letsPass hgt hj hi hl.ne_notStarted) hk.not_letsPass

theorem Round.length_eq {m : Moment} {t : ListTicks} {env' : Environment}
    (h : Round m ls env t env') : t.lists.length = ls.length := by
  have hl := congrArg List.length h.map_origin
  rwa [List.length_map, List.length_map] at hl

/-- **The lists that have their turn have played once**, and nothing else has happened: their
current segments have ticked, one after another, and all other lists are as they were. -/
structure TurnsPlayed (m : Moment) (ls : List ListRun) (env : Environment) (ls' : List ListRun)
    (env' : Environment) : Prop where
  length_eq : ls'.length = ls.length
  env_eq : env' = (ListRun.eachSegment (SegmentRun.tick m) (currents ls) env).env
  turn : ∀ (i : Nat) (l : ListRun), ls[i]? = some l → HasTurn (ls.take i) l →
    ∃ l', ls'[i]? = some l' ∧
      l.PlaysOnce m (ListRun.eachSegment (SegmentRun.tick m) (currents (ls.take i)) env).env l'
  others : ∀ (i : Nat) (l : ListRun), ls[i]? = some l → ¬ HasTurn (ls.take i) l → ls'[i]? = some l

/-- **A round that is not fatal** plays every turn that is due, and nothing else. -/
theorem Round.turnsPlayed {m : Moment} {t : ListTicks} {env' : Environment}
    (h : Round m ls env t env') (ht : t.fatal = none) (hs : ∀ l ∈ ls, l.Sound) :
    TurnsPlayed m ls env t.lists env' where
  length_eq := h.length_eq
  env_eq := h.env_eq ht
  turn := by
    intro i l hl hturn
    obtain ⟨l', hl', hplays, -⟩ := h.plays ht hs hl
    exact ⟨l', hl', hplays hturn⟩
  others := by
    intro i l hl hturn
    obtain ⟨l', hl', -, hother⟩ := h.plays ht hs hl
    rw [hl', hother hturn]

/-- A tick that nothing disturbs leaves the lists as its round has left them. -/
theorem tick_lists (hr : r.result = none) (hu : Undisturbed b r env) :
    (r.tick b env).subject.lists = (r.round b env).subject.lists := by
  rw [(tick_of_undisturbed hr hu).2]
  split <;> rfl

/-- **The order of play.** In every run of the playlist,

* a list has started only if every list in front has finished or is parallel, and so at most one
  list runs that is not parallel,
* in every list the segments whose turn is over have ended, and while it is unfinished, the current
  one has not and all behind it are pending,
* a tick that nothing disturbs ticks the current segments of the lists that have their turn, each of
  them once, and leaves all other segments and lists alone. -/
theorem played_in_order (h : Reachable p c r) :
    (∀ (i j : Nat) (l k : ListRun), i < j → r.lists[i]? = some l → r.lists[j]? = some k →
      k.state ≠ .notStarted → l.isFinished ∨ l.isParallel) ∧
    (∀ (i j : Nat) (l k : ListRun), r.lists[i]? = some l → r.lists[j]? = some k →
      l.state = .running ∧ ¬ l.isParallel → k.state = .running ∧ ¬ k.isParallel → i = j) ∧
    (∀ l ∈ r.lists, (∀ s ∈ l.played, s.state.isTerminal) ∧
      (¬ l.isFinished → (∀ s ∈ l.ahead.head?, ¬ s.state.isTerminal) ∧
        ∀ s ∈ l.ahead.tail, s.state = .pending)) ∧
    (r.result = none → ∀ b env, Undisturbed b r env →
      TurnsPlayed (r.moment b env) r.lists (r.opened b env) (r.tick b env).subject.lists
        (r.tick b env).env) := by
  have hs := h.sound
  refine ⟨fun i j l k hij hi hj hk => hs.ordered.letsPass hij hi hj hk,
    fun i j l k hi hj hl hk => hs.ordered.eq_of_blocks hi hj hl hk, fun l hl => ?_,
    fun hr b env hu => ?_⟩
  · -- what has had its turn, and what is still to come
    exact ⟨(hs.lists l hl).played,
      fun hf => ⟨(hs.lists l hl).current hf, (hs.lists l hl).upcoming hf⟩⟩
  · -- a tick that nothing disturbs plays one round
    rw [(tick_of_undisturbed hr hu).1, tick_lists hr hu]
    exact (tickLists_round (r.moment b env) r.lists (r.opened b env)).turnsPlayed hu.not_fatal
      hs.lists

/-- In its second second the tour plays both lists at once, the first of which lets the other
pass. -/
theorem tour_plays_both_lists :
    (tourAfter lenient 1).segments.map SegmentRun.ticks = [1, 0, 1, 0] ∧
      (tourAfter lenient 2).segments.map SegmentRun.ticks = [2, 0, 2, 0] ∧
        ∃ l l', (tourAfter lenient 1).lists[1]? = some l ∧
          HasTurn ((tourAfter lenient 1).lists.take 1) l ∧
            (tourAfter lenient 2).lists[1]? = some l' ∧
            ∃ env,
              l.PlaysOnce ((tourAfter lenient 1).moment (second false) (.of .empty)) env l' := by
  have hnone : (tourAfter lenient 1).result = none := by rfl
  have hlater : (tourAfter lenient 2).result = none := by rfl
  -- the run goes on behind this tick, and so nothing has disturbed it
  have hu : Undisturbed (second false) (tourAfter lenient 1) (.of .empty) := by
    refine undisturbed_of_success hnone fun result hr => ?_
    cases hr.symm.trans hlater
  obtain ⟨-, -, -, hticks⟩ := played_in_order (tourAfter_reachable lenient 1)
  have hplays := hticks hnone (second false) (.of .empty) hu
  have hunfinished : (tourAfter lenient 1).lists[1]?.map ListRun.isFinished = some false := by rfl
  have hparallel : ((tourAfter lenient 1).lists.take 1).all ListRun.isParallel = true := by rfl
  obtain ⟨l, hl, hf⟩ := Option.map_eq_some_iff.mp hunfinished
  have hturn : HasTurn ((tourAfter lenient 1).lists.take 1) l :=
    ⟨by rw [hf]; exact Bool.false_ne_true, fun f hm => .inr (List.all_eq_true.mp hparallel f hm)⟩
  obtain ⟨l', hl', hplayed⟩ := hplays.turn 1 l hl hturn
  exact ⟨by rfl, by rfl, l, l', hl, hturn, hl', _, hplayed⟩

end PlaybackRun

end Playtest
