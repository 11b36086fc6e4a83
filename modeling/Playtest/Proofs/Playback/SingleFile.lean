import Playtest.Proofs.Playback.KeyFrame
import Playtest.Proofs.Playback.Results

/-!
# Segments in single file

Where no list is parallel or optional, the lists of a run are nothing but a way to write its
segments down. All segments stand in single file, and each tick plays the first one that has not
ended (`PlaybackRun.playFirst`).

* `PlaybackRun.Round.singleFile`: a round of such lists makes of their segments, and of the
  environment, what `playFirst` makes of them,
* `PlaybackRun.Round.fatal_iff`, `PlaybackRun.finished_iff` and `PlaybackRun.Round.completes` tell
  from the segments alone what comes of the round: it is fatal, all lists have finished, or a
  segment was completed.

It takes that no list is empty. An empty list is played for a tick, in which no segment is.
-/

namespace Playtest

open Playtest.Scene

variable {m : Moment} {env env' : Environment} {reason : String}

namespace ListRun

variable {l l' : ListRun} {e : ListEvent}

/-- A list that is played **in single file** with the others: nobody passes it, it ends early for
nobody, and it has a segment to play as long as it has not finished. -/
structure Single (l : ListRun) : Prop where
  alone : ¬ l.isParallel
  needed : ¬ l.isOptional
  stocked : ¬ l.isFinished → l.ahead ≠ []
  unreached : l.state = .notStarted → ∀ s ∈ l.segments, s.state = .pending

/-- A list that was closed has something ahead, or has finished. -/
theorem stocked_closed (l : ListRun) : ¬ l.closed.isFinished → l.closed.ahead ≠ [] := by
  intro hf
  rcases l.closed_cases with ⟨-, h⟩ | ⟨hne, h⟩
  · rw [h] at hf
    exact absurd rfl hf
  · rw [h]
    exact hne

/-- A list that was running has started, closed or not. -/
theorem closed_ne_notStarted (h : l.state = .running) : l.closed.state ≠ .notStarted := by
  rcases l.closed_cases with ⟨-, hc⟩ | ⟨-, hc⟩ <;> rw [hc]
  · exact ListState.noConfusion
  · rw [h]
    exact ListState.noConfusion

/-- A tick leaves a list in single file. -/
theorem Plays.single (h : Plays m l env l' e env') (hl : l.Single) : l'.Single := by
  have halone : ¬ l'.isParallel := h.isParallel_eq ▸ hl.alone
  have hneeded : ¬ l'.isOptional := h.isOptional_eq ▸ hl.needed
  cases h with
  | empty | fatal | cutShort =>
    exact ⟨halone, hneeded, fun hf => absurd rfl hf, fun hs => by cases hs⟩
  | ongoing => exact ⟨halone, hneeded, fun _ => List.cons_ne_nil _ _, fun hs => by cases hs⟩
  | completed | passedOver =>
    exact ⟨halone, hneeded, stocked_closed _, fun hs => absurd hs (closed_ne_notStarted rfl)⟩

/-- A list that is needed skips nothing. -/
theorem Plays.segments_of_needed (h : Plays m l env l' e env') (hn : ¬ l.isOptional)
    {s : SegmentRun} {rest : List SegmentRun} (ha : l.ahead = s :: rest) :
    l'.segments = l.played ++ (s.tick m env).subject :: rest := by
  cases h with
  | empty h => rw [h] at ha; cases ha
  -- only an optional list is cut short
  | cutShort h _ _ _ ho => exact absurd ho hn
  | ongoing h =>
    obtain ⟨rfl, rfl⟩ := List.cons.inj (h.symm.trans ha)
    rfl
  | completed h | passedOver h =>
    obtain ⟨rfl, rfl⟩ := List.cons.inj (h.symm.trans ha)
    rw [segments_closed, segments_past]
  | fatal h =>
    obtain ⟨rfl, rfl⟩ := List.cons.inj (h.symm.trans ha)
    exact segments_past _ _

end ListRun

namespace PlaybackRun

variable {p : Playlist} {c : Config} {b : Beat} {r : PlaybackRun} {ls : List ListRun}
  {t : ListTicks} {ss ts : List SegmentRun} {s : SegmentRun}

/-! ### Playing the first one -/

/-- Plays a tick of **the first segment that has not ended**. -/
def playFirst (m : Moment) : List SegmentRun → Environment → Turn (List SegmentRun)
  | [], env => .still [] env
  | s :: rest, env =>
      if s.state.isTerminal then (playFirst m rest env).map (s :: ·)
      else (s.tick m env).map (· :: rest)

/-- It plays the first one, if that has not ended. -/
theorem playFirst_cons (h : ¬ s.state.isTerminal) :
    playFirst m (s :: ts) env = (s.tick m env).map (· :: ts) := if_neg h

/-- It passes over segments that have ended. -/
theorem playFirst_append (h : ∀ s ∈ ss, s.state.isTerminal) :
    playFirst m (ss ++ ts) env = (playFirst m ts env).map (ss ++ ·) := by
  induction ss with
  | nil => rfl
  | cons s rest ih =>
    rw [List.forall_mem_cons] at h
    rw [List.cons_append, playFirst, if_pos h.1, ih h.2]
    rfl

/-- Segments **wait for each other**: nobody has begun behind one that has not ended. -/
def Queued (ss : List SegmentRun) : Prop :=
  ss.Pairwise fun s t => s.state.isTerminal ∨ t.state = .pending

/-- Some segment that the run needs has ended without completing. -/
def Broken (ss : List SegmentRun) : Prop :=
  ∃ s ∈ ss, s.isRequired ∧ s.state.isTerminal ∧ s.state ≠ .completed

/-- Somebody breaks the file in front or behind. -/
theorem broken_cons : Broken (s :: ss) ↔
    (s.isRequired ∧ s.state.isTerminal ∧ s.state ≠ .completed) ∨ Broken ss := by
  simp only [Broken, List.mem_cons, or_and_right, exists_or, exists_eq_left]

/-- When a segment breaks the file, **no other one is under way**. -/
theorem Queued.settled (h : Queued ss) (hn : ¬ Broken ss)
    (hb : Broken (playFirst m ss env).subject) :
    ∀ s ∈ (playFirst m ss env).subject, s.state.isTerminal ∨ s.state = .pending := by
  induction ss with
  | nil => exact fun s hs => absurd hs List.not_mem_nil
  | cons s rest ih =>
    rw [broken_cons, not_or] at hn
    have hrest := (List.pairwise_cons.mp h).1
    by_cases hs : s.state.isTerminal
    · -- this one has ended before, and so it is another one that breaks the file
      rw [playFirst, if_pos hs, Turn.subject_map] at hb ⊢
      have hb := (broken_cons.mp hb).resolve_left hn.1
      exact List.forall_mem_cons.mpr ⟨.inl hs, ih h.of_cons hn.2 hb⟩
    · -- this one plays, and nobody behind it has begun
      have hpending : ∀ t ∈ rest, t.state = .pending := fun t ht => (hrest t ht).resolve_left hs
      rw [playFirst_cons hs, Turn.subject_map] at hb ⊢
      refine List.forall_mem_cons.mpr ⟨.inl ?_, fun t ht => .inr (hpending t ht)⟩
      rcases broken_cons.mp hb with hb | ⟨t, ht, -, hterminal, -⟩
      · exact hb.2.1
      · rw [hpending t ht] at hterminal
        exact absurd hterminal Bool.false_ne_true

/-! ### Rounds -/

/-- **A round of lists in single file** plays the first segment that has not ended. -/
theorem Round.singleFile (h : Round m ls env t env') (hl : ∀ l ∈ ls, l.Sound ∧ l.Single) :
    t.lists.flatMap ListRun.segments = (playFirst m (ls.flatMap ListRun.segments) env).subject ∧
      env' = (playFirst m (ls.flatMap ListRun.segments) env).env := by
  -- the list whose turn it is plays its current segment, behind which nothing happens
  have hturn : ∀ {l : ListRun} (rest : List ListRun) (env : Environment), l.Sound → l.Single →
      ¬ l.isFinished →
      ((l.tick m env).subject.1 :: rest).flatMap ListRun.segments =
          (playFirst m ((l :: rest).flatMap ListRun.segments) env).subject ∧
        (l.tick m env).env = (playFirst m ((l :: rest).flatMap ListRun.segments) env).env := by
    intro l rest env hsound hsingle hf
    obtain ⟨s, upcoming, ha⟩ := List.exists_cons_of_ne_nil (hsingle.stocked hf)
    have hplays : l.Plays m env _ _ _ := ListRun.tick_plays hf
    have hs : ¬ s.state.isTerminal := hsound.current hf s (by rw [ha]; rfl)
    have hsplit : (l :: rest).flatMap ListRun.segments =
        l.played ++ s :: (upcoming ++ rest.flatMap ListRun.segments) := by
      rw [List.flatMap_cons, ListRun.segments, ha, List.append_assoc, List.cons_append]
    rw [hsplit, playFirst_append hsound.played, playFirst_cons hs, List.flatMap_cons,
      hplays.segments_of_needed hsingle.needed ha, (hplays.segments_eq ha).1]
    refine ⟨?_, rfl⟩
    rw [List.append_assoc, List.cons_append]
    rfl
  induction h with
  | nil => exact ⟨rfl, rfl⟩
  | @finished l rest env env' t hf _ ih =>
    rw [List.forall_mem_cons] at hl
    obtain ⟨hsegments, henv⟩ := ih hl.2
    rw [List.flatMap_cons, playFirst_append (hl.1.1.isTerminal hf)]
    exact ⟨congrArg (l.segments ++ ·) hsegments, henv⟩
  | @fatal l rest env _ hf | @last l rest env hf =>
    rw [List.forall_mem_cons] at hl
    exact hturn rest env hl.1.1 hl.1.2 hf
  | parallel _ _ hp =>
    rw [List.forall_mem_cons] at hl
    exact absurd hp hl.1.2.alone

theorem Round.single (h : Round m ls env t env') (hl : ∀ l ∈ ls, l.Single) :
    ∀ l ∈ t.lists, l.Single :=
  h.forall_mem (fun _ _ hf hl _ => (ListRun.tick_plays hf).single hl) hl

/-- As long as nothing was fatal, no list is broken. -/
theorem not_broken (hl : ∀ l ∈ ls, l.Sound ∧ l.Unbroken) :
    ¬ Broken (ls.flatMap ListRun.segments) := by
  -- it has had its turn, it stands in a list that has finished, or in one that goes on
  rintro ⟨s, hs, hr, ht, hc⟩
  obtain ⟨l, hmem, hs⟩ := List.mem_flatMap.mp hs
  obtain ⟨hsound, hunbroken⟩ := hl l hmem
  rcases List.mem_append.mp hs with hs | hs
  · exact hc (hunbroken.played s hs hr)
  by_cases hf : l.isFinished
  · exact hunbroken.ahead hf s hs hr
  · -- what is ahead has not ended
    cases ha : l.ahead with
    | nil => rw [ha] at hs; cases hs
    | cons current rest =>
      rw [ha] at hs
      rcases List.mem_cons.mp hs with rfl | hs
      · exact hsound.current hf s (by rw [ha]; rfl) ht
      · have hpending := hsound.upcoming hf s (by rw [ha]; exact hs)
        rw [hpending] at ht
        exact Bool.false_ne_true ht

/-- **A round is fatal** just if it has broken the file. -/
theorem Round.fatal_iff (h : Round m ls env t env') (hl : ∀ l ∈ ls, l.Sound ∧ l.Unbroken) :
    t.fatal.isSome ↔ Broken (t.lists.flatMap ListRun.segments) := by
  cases hf : t.fatal with
  | none =>
    -- if the round was not fatal, every list is still in order and unbroken
    have hsound := h.sound hf fun l hm => (hl l hm).1
    have hunbroken := h.unbroken hf fun l hm => ⟨(hl l hm).1.toValid, (hl l hm).2⟩
    exact iff_of_false Bool.false_ne_true
      (not_broken fun l hm => ⟨hsound l hm, (hunbroken l hm).2⟩)
  | some reason =>
    refine iff_of_true rfl ?_
    -- otherwise one list was fatal, and its current segment breaks the file
    obtain ⟨front, l, back, rfl, hturn, hfront, he⟩ := h.fatal_split hf
    have hplays : l.Plays m (tickLists m front env).env _ _ _ := ListRun.tick_plays hturn.1
    rw [he] at hplays
    obtain ⟨s, rest, ha, hr, ht, hc⟩ := hplays.of_fatal
    -- the segment that was fatal stands in what has become of its list
    obtain ⟨-, -, hlists⟩ := tickLists_of_fatal hturn back hfront he
    rw [h.eq.1, hlists]
    refine ⟨(s.tick m (tickLists m front env).env).subject, ?_, ?_, ht, hc⟩
    · rw [List.flatMap_append, List.flatMap_cons, (hplays.fatal_of ha hr ht hc).1]
      refine List.mem_append_right _ (List.mem_append_left _ (List.mem_append_left _ ?_))
      exact List.mem_append_right _ List.mem_cons_self
    · rw [SegmentRun.isRequired_eq_of_origin (SegmentRun.origin_tick m _)]
      exact hr

/-- All lists have finished just if all segments have ended. -/
theorem finished_iff (hl : ∀ l ∈ ls, l.Sound ∧ l.Single) :
    ls.all ListRun.isFinished ↔ ∀ s ∈ ls.flatMap ListRun.segments, s.state.isTerminal := by
  rw [List.all_eq_true, List.forall_mem_flatMap]
  constructor
  · exact fun hall l hm => (hl l hm).1.isTerminal (hall l hm)
  · intro hall l hm
    -- a list that goes on has a current segment, which has not ended
    by_contra hf
    obtain ⟨s, rest, ha⟩ := List.exists_cons_of_ne_nil ((hl l hm).2.stocked hf)
    have hs : s ∈ l.segments := List.mem_append_right _ (ha ▸ List.mem_cons_self)
    exact (hl l hm).1.current hf s (by rw [ha]; rfl) (hall l hm s hs)

/-- The segments of lists in single file wait for each other. -/
theorem queued_segments (hl : ∀ l ∈ ls, l.Sound ∧ l.Single) (ho : Ordered ls) :
    Queued (ls.flatMap ListRun.segments) := by
  refine List.pairwise_flatMap.mpr ⟨fun l hm => ?_, ?_⟩
  · -- in a list that goes on, everybody waits for the current segment
    obtain ⟨hsound, -⟩ := hl l hm
    refine List.pairwise_append.mpr ⟨?_, ?_, fun s hs t _ => .inl (hsound.played s hs)⟩
    · exact List.pairwise_of_forall_mem_list fun s hs t _ => .inl (hsound.played s hs)
    by_cases hf : l.isFinished
    · exact List.pairwise_of_forall_mem_list fun s hs t _ => .inl (hsound.ended hf s hs)
    · have hupcoming := hsound.upcoming hf
      cases ha : l.ahead with
      | nil => exact .nil
      | cons s rest =>
        rw [ha, List.tail_cons] at hupcoming
        exact .cons (fun t ht => .inr (hupcoming t ht))
          (List.pairwise_of_forall_mem_list fun _ _ t ht => .inr (hupcoming t ht))
  · -- a list behind one that has not finished has not started
    refine List.Pairwise.imp_of_mem (fun {k l} hk hm hkl s hs t ht => ?_) ho
    by_cases hstarted : l.state = .notStarted
    · exact .inr ((hl l hm).2.unreached hstarted t ht)
    · exact .inl ((hl k hk).1.isTerminal ((hkl hstarted).resolve_right (hl k hk).2.alone) s hs)

end PlaybackRun

end Playtest
