import Playtest.Playback.Run
import Playtest.Proofs.Playback.ListRun

/-!
# A round of the lists

What a tick of the run makes of its lists, as long as nothing breaks the run off before.

* `PlaybackRun.Round` are the ways in which the lists can come to their turn, one behind the other,
  and `PlaybackRun.round_iff` says that it is the graph of `PlaybackRun.tickLists`. Everything else
  about a round is an induction on it,
* `PlaybackRun.currents` are the segments whose turn it is. A round that is not fatal ticks each of
  them once and does nothing else to the environment (`Round.env_eq`), and a list plays in it
  exactly if it has not finished and all lists in front let it pass (`Round.plays`),
* `PlaybackRun.Ordered` is the order of the lists. It is kept because a list that lets nobody pass
  has only untouched lists behind it (`Round.ordered`),
* `PlaybackRun.fatal_split`: a round becomes fatal at one list, in front of which no list was fatal.
-/

namespace Playtest

namespace ListRun

variable {m : Moment} {l l' : ListRun} {e : ListEvent} {env env' : Environment}

/-- The list has not to be waited for by the ones behind it. -/
def LetsPass (l : ListRun) : Prop := l.isFinished ∨ l.isParallel

/-- The current segment has **played its tick**, and no other segment has. -/
def PlaysOnce (m : Moment) (env : Environment) (l l' : ListRun) : Prop :=
  match l.ahead with
  | [] => l'.segments = l.segments
  | s :: rest =>
      (s.tick m env).subject.ticks = s.ticks + 1 ∧
        (l'.segments = l.played ++ (s.tick m env).subject :: rest ∨
          l'.segments = l.played ++ (s.tick m env).subject :: rest.map SegmentRun.skipped)

/-- A tick of a list that is in order plays its current segment once, if there is one. -/
theorem Plays.playsOnce (h : Plays m l env l' e env') (hf : ¬ l.isFinished) (hl : l.Sound) :
    PlaysOnce m env l l' := by
  unfold PlaysOnce
  split
  · -- nobody is ahead, so nobody is played
    next ha =>
    rw [(h.of_empty ha).1]
    rfl
  · next s rest ha =>
    -- the current segment has not ended, so its tick counts
    refine ⟨SegmentRun.ticks_tick m env (hl.current hf s ?_), (h.segments_eq ha).2⟩
    rw [ha]
    rfl

/-- A tick does to the environment what the tick of the current segment does. -/
theorem Plays.env_eq (h : Plays m l env l' e env') :
    env' = (eachSegment (SegmentRun.tick m) l.ahead.head?.toList env).env := by
  cases ha : l.ahead with
  | nil => exact (h.of_empty ha).2.2
  | cons s rest => exact (h.segments_eq ha).1

/-- A segment that the run needs and that ends without completing **is fatal**. -/
theorem Plays.fatal_of (h : Plays m l env l' e env') {s : SegmentRun} {rest : List SegmentRun}
    (ha : l.ahead = s :: rest) (hr : s.isRequired) (ht : (s.tick m env).subject.state.isTerminal)
    (hs : (s.tick m env).subject.state ≠ .completed) :
    l' = { l.past (s.tick m env).subject rest with state := .finished } ∧
      e = .fatal (l.failure (s.tick m env).subject) ∧ env' = (s.tick m env).env := by
  cases h with
  | empty h => rw [h] at ha; cases ha
  | ongoing h hn =>
    -- it is the same segment, and it would still go on
    obtain ⟨rfl, rfl⟩ := List.cons.inj (h.symm.trans ha)
    exact absurd ht hn
  | completed h hc =>
    obtain ⟨rfl, rfl⟩ := List.cons.inj (h.symm.trans ha)
    -- here it would have completed
    exact absurd hc hs
  | fatal h =>
    obtain ⟨rfl, rfl⟩ := List.cons.inj (h.symm.trans ha)
    exact ⟨rfl, rfl, rfl⟩
  | cutShort h _ _ hn | passedOver h _ _ hn =>
    obtain ⟨rfl, rfl⟩ := List.cons.inj (h.symm.trans ha)
    -- only an optional list skips or passes over a segment
    exact absurd hr hn

/-- Nothing else is fatal. -/
theorem Plays.of_fatal {reason : String} (h : Plays m l env l' (.fatal reason) env') :
    ∃ s rest, l.ahead = s :: rest ∧ s.isRequired ∧ (s.tick m env).subject.state.isTerminal ∧
      (s.tick m env).subject.state ≠ .completed := by
  generalize he : ListEvent.fatal reason = e at h
  cases h with
  | fatal h ht hs hr => exact ⟨_, _, h, hr, ht, hs⟩
  | passedOver h => split at he <;> cases he
  | empty | ongoing | completed | cutShort => cases he

/-- What is done to segments one after another may be cut in two. -/
theorem eachSegment_append (f : SegmentRun → Environment → Turn SegmentRun)
    (ss ts : List SegmentRun) (env : Environment) :
    (eachSegment f (ss ++ ts) env).env = (eachSegment f ts (eachSegment f ss env).env).env := by
  induction ss generalizing env with
  | nil => rfl
  | cons s rest ih => exact ih (f s env).env

end ListRun

namespace PlaybackRun

variable {m : Moment} {ls : List ListRun} {t : ListTicks} {env env' : Environment}

/-- The **ways in which a round can go**: a list that has finished is passed over, and any other
plays a tick. Behind one that was fatal or is not parallel, nothing happens. -/
inductive Round (m : Moment) : List ListRun → Environment → ListTicks → Environment → Prop
  | nil {env : Environment} : Round m [] env ⟨[], false, none⟩ env
  | finished {l : ListRun} {rest : List ListRun} {env env' : Environment} {t : ListTicks}
      (hf : l.isFinished) (h : Round m rest env t env') :
      Round m (l :: rest) env (.cons l false t) env'
  | fatal {l : ListRun} {rest : List ListRun} {env : Environment} {reason : String}
      (hf : ¬ l.isFinished) (he : (l.tick m env).subject.2 = .fatal reason) :
      Round m (l :: rest) env ⟨(l.tick m env).subject.1 :: rest, false, some reason⟩
        (l.tick m env).env
  | parallel {l : ListRun} {rest : List ListRun} {env env' : Environment} {t : ListTicks}
      (hf : ¬ l.isFinished) (he : ∀ reason, (l.tick m env).subject.2 ≠ .fatal reason)
      (hp : l.isParallel) (h : Round m rest (l.tick m env).env t env') :
      Round m (l :: rest) env
        (.cons (l.tick m env).subject.1 ((l.tick m env).subject.2 == .keyFrame) t) env'
  | last {l : ListRun} {rest : List ListRun} {env : Environment}
      (hf : ¬ l.isFinished) (he : ∀ reason, (l.tick m env).subject.2 ≠ .fatal reason)
      (hp : ¬ l.isParallel) :
      Round m (l :: rest) env
        ⟨(l.tick m env).subject.1 :: rest, (l.tick m env).subject.2 == .keyFrame, none⟩
        (l.tick m env).env

/-- **Every round goes one of these ways.** -/
theorem tickLists_round (m : Moment) (ls : List ListRun) (env : Environment) :
    Round m ls env (tickLists m ls env).subject (tickLists m ls env).env := by
  induction ls generalizing env with
  | nil => exact .nil
  | cons l rest ih =>
    unfold tickLists
    split
    · next hf => exact .finished hf (ih env)
    next hf =>
    dsimp only [Turn.subject_andThen, Turn.env_andThen]
    split
    · next reason he => exact .fatal hf he
    -- the events that are not fatal are all treated alike
    all_goals
      next he =>
      have hn : ∀ reason, (l.tick m env).subject.2 ≠ .fatal reason := by
        intro reason hr
        rw [he] at hr
        cases hr
      split
      · next hp => exact .parallel hf hn hp (ih _)
      · next hp => exact .last hf hn hp

/-- **No round goes two ways**: what comes of it is what `tickLists` says. -/
theorem Round.eq (h : Round m ls env t env') :
    t = (tickLists m ls env).subject ∧ env' = (tickLists m ls env).env := by
  induction h with
  | nil => exact ⟨rfl, rfl⟩
  | finished hf h ih =>
    unfold tickLists
    rw [if_pos hf]
    exact ⟨congrArg _ ih.1, ih.2⟩
  | fatal hf he =>
    unfold tickLists
    rw [if_neg hf]
    dsimp only [Turn.subject_andThen, Turn.env_andThen]
    rw [he]
    exact ⟨rfl, rfl⟩
  | parallel hf he hp h ih =>
    unfold tickLists
    rw [if_neg hf]
    dsimp only [Turn.subject_andThen, Turn.env_andThen]
    rw [if_pos hp]
    split
    · -- the list has not been fatal, so this branch is not taken
      next hr => exact absurd hr (he _)
    all_goals exact ⟨congrArg _ ih.1, ih.2⟩
  | last hf he hp =>
    unfold tickLists
    rw [if_neg hf]
    dsimp only [Turn.subject_andThen, Turn.env_andThen]
    rw [if_neg hp]
    split
    · next hr => exact absurd hr (he _)
    all_goals exact ⟨rfl, rfl⟩

/-! ### What a round keeps -/

/-- What is kept by every tick is kept by a round. If the round is not fatal, then no tick is. -/
theorem Round.forall_mem {p : ListRun → Prop} (h : Round m ls env t env')
    (htick : ∀ l env, ¬ l.isFinished → p l →
      (t.fatal = none → ∀ reason, (l.tick m env).subject.2 ≠ .fatal reason) →
        p (l.tick m env).subject.1)
    (hp : ∀ l ∈ ls, p l) : ∀ l ∈ t.lists, p l := by
  induction h with
  | nil => exact hp
  | finished hf h ih =>
    rw [List.forall_mem_cons] at hp
    exact List.forall_mem_cons.mpr ⟨hp.1, ih htick hp.2⟩
  | fatal hf he =>
    rw [List.forall_mem_cons] at hp
    exact List.forall_mem_cons.mpr ⟨htick _ _ hf hp.1 (fun hn => by cases hn), hp.2⟩
  | parallel hf he _ h ih =>
    rw [List.forall_mem_cons] at hp
    exact List.forall_mem_cons.mpr ⟨htick _ _ hf hp.1 (fun _ => he), ih htick hp.2⟩
  | last hf he =>
    rw [List.forall_mem_cons] at hp
    exact List.forall_mem_cons.mpr ⟨htick _ _ hf hp.1 (fun _ => he), hp.2⟩

/-- A round keeps every list valid. -/
theorem Round.valid (h : Round m ls env t env') (hl : ∀ l ∈ ls, l.Valid) : ∀ l ∈ t.lists, l.Valid :=
  h.forall_mem (fun _ _ hf hl _ => (ListRun.tick_plays hf).valid hl) hl

/-- If it is not fatal, it keeps them all in order. -/
theorem Round.sound (h : Round m ls env t env') (ht : t.fatal = none) (hl : ∀ l ∈ ls, l.Sound) :
    ∀ l ∈ t.lists, l.Sound :=
  h.forall_mem (fun _ _ hf hl he => (ListRun.tick_plays hf).sound hf hl (he ht)) hl

/-- And unbroken. -/
theorem Round.unbroken (h : Round m ls env t env') (ht : t.fatal = none)
    (hl : ∀ l ∈ ls, l.Valid ∧ l.Unbroken) : ∀ l ∈ t.lists, l.Valid ∧ l.Unbroken := by
  refine h.forall_mem (fun l env hf hl he => ?_) hl
  have hplays : l.Plays m env _ _ _ := ListRun.tick_plays hf
  exact ⟨hplays.valid hl.1, hplays.unbroken hl.1 hl.2 (he ht)⟩

/-- A round changes nothing that the lists were made with. -/
theorem Round.map_origin (h : Round m ls env t env') :
    t.lists.map ListRun.origin = ls.map ListRun.origin := by
  induction h with
  | nil => rfl
  | finished _ _ ih => exact congrArg (List.cons _) ih
  -- a list that has its turn keeps what it was made with
  | fatal hf | last hf =>
    rw [List.map_cons, (ListRun.tick_plays hf).origin_eq]
    rfl
  | parallel hf _ _ _ ih =>
    change List.map _ (_ :: _) = _
    rw [List.map_cons, (ListRun.tick_plays hf).origin_eq, ih]
    rfl

/-- The **order of the lists**: whoever has started has been let pass by all in front. -/
def Ordered (ls : List ListRun) : Prop :=
  ls.Pairwise fun earlier later => later.state ≠ .notStarted → earlier.LetsPass

/-- A list that lets nobody pass has only untouched ones behind it, and so may do anything. One that
lets others pass goes on doing so. -/
theorem Round.ordered (h : Round m ls env t env') (ht : t.fatal = none) (ho : Ordered ls) :
    Ordered t.lists := by
  induction h with
  | nil => exact ho
  | finished hf h ih => exact .cons (fun _ _ _ => .inl hf) (ih ht ho.of_cons)
  | fatal => cases ht
  | @parallel l _ env _ _ hf _ hp h ih =>
    have hpar : (l.tick m env).subject.1.isParallel = l.isParallel :=
      (ListRun.tick_plays hf).isParallel_eq
    exact .cons (fun _ _ _ => .inr (hpar ▸ hp)) (ih ht ho.of_cons)
  | last hf _ hp =>
    -- had one behind it started, then the list would have let it pass
    obtain ⟨hfront, hback⟩ := List.pairwise_cons.mp ho
    refine .cons (fun k hk hs => ?_) hback
    exact ((hfront k hk hs).elim hf hp).elim

/-! ### Whose turn it is -/

/-- The list has **its turn** behind some others. -/
def HasTurn (front : List ListRun) (l : ListRun) : Prop :=
  ¬ l.isFinished ∧ ∀ f ∈ front, f.LetsPass

/-- The **segments whose turn it is**: the current ones of the lists that have their turn. -/
def currents : List ListRun → List SegmentRun
  | [] => []
  | l :: rest =>
      if l.isFinished then currents rest
      else l.ahead.head?.toList ++ if l.isParallel then currents rest else []

/-- **A round ticks the current segments**, one after another, and that is all that happens to the
environment. -/
theorem Round.env_eq (h : Round m ls env t env') (ht : t.fatal = none) :
    env' = (ListRun.eachSegment (SegmentRun.tick m) (currents ls) env).env := by
  induction h with
  | nil => rfl
  | finished hf _ ih =>
    rw [currents, if_pos hf]
    exact ih ht
  | fatal => cases ht
  -- the first list ticks its current segment, and the others tick theirs behind it
  | parallel hf _ hp _ ih =>
    rw [currents, if_neg hf, if_pos hp, ListRun.eachSegment_append,
      ← (ListRun.tick_plays hf).env_eq]
    exact ih ht
  | last hf _ hp =>
    rw [currents, if_neg hf, if_neg hp, List.append_nil]
    exact (ListRun.tick_plays hf).env_eq

/-- Who has a turn behind some lists is let pass by each of them. -/
theorem hasTurn_cons {f l : ListRun} {front : List ListRun} :
    HasTurn (f :: front) l ↔ f.LetsPass ∧ HasTurn front l := by
  unfold HasTurn
  rw [List.forall_mem_cons]
  exact and_left_comm

/-- **Who has its turn plays once, and nobody else does.** A list plays in the environment that the
current segments in front of it have left. -/
theorem Round.plays (h : Round m ls env t env') (ht : t.fatal = none) (hs : ∀ l ∈ ls, l.Sound)
    {i : Nat} {l : ListRun} (hl : ls[i]? = some l) :
    ∃ l', t.lists[i]? = some l' ∧
      (HasTurn (ls.take i) l →
        l.PlaysOnce m (ListRun.eachSegment (SegmentRun.tick m) (currents (ls.take i)) env).env l') ∧
      (¬ HasTurn (ls.take i) l → l' = l) := by
  -- the list in front has its turn, as nobody is in front of it
  have first : ∀ {f : ListRun} {env : Environment}, f.Sound → ¬ f.isFinished →
      (HasTurn [] f → f.PlaysOnce m env (f.tick m env).subject.1) ∧
        (¬ HasTurn [] f → (f.tick m env).subject.1 = f) :=
    fun hf hn => ⟨fun _ => (ListRun.tick_plays hn).playsOnce hn hf,
      fun ht => absurd ⟨hn, fun _ hm => by cases hm⟩ ht⟩
  induction h generalizing i with
  | nil => cases hl
  | finished hf _ ih =>
    rw [List.forall_mem_cons] at hs
    cases i with
    | zero =>
      cases hl
      exact ⟨_, rfl, fun hturn => absurd hf hturn.1, fun _ => rfl⟩
    | succ i =>
      -- a list that has finished lets pass, and has no current segment
      rw [List.take_succ_cons, hasTurn_cons, currents, if_pos hf, and_iff_right (.inl hf)]
      exact ih ht hs.2 hl
  | fatal => cases ht
  | parallel hf _ hp _ ih =>
    rw [List.forall_mem_cons] at hs
    cases i with
    | zero =>
      cases hl
      exact ⟨_, rfl, first hs.1 hf⟩
    | succ i =>
      rw [List.take_succ_cons, hasTurn_cons, currents, if_neg hf, if_pos hp,
        ListRun.eachSegment_append, ← (ListRun.tick_plays hf).env_eq, and_iff_right (.inr hp)]
      exact ih ht hs.2 hl
  | last hf _ hp =>
    rw [List.forall_mem_cons] at hs
    cases i with
    | zero =>
      cases hl
      exact ⟨_, rfl, first hs.1 hf⟩
    | succ i =>
      -- this list lets nobody pass, and so nobody behind it has a turn
      rw [List.take_succ_cons, hasTurn_cons]
      exact ⟨l, hl, fun hturn => (hturn.1.elim hf hp).elim, fun _ => rfl⟩

/-! ### Where a round becomes fatal -/

/-- A round goes on behind lists that have let it pass. -/
theorem Round.append {front back : List ListRun} {u : ListTicks} {env'' : Environment}
    (h : Round m front env t env') (ht : t.fatal = none) (hp : ∀ l ∈ front, l.LetsPass)
    (h' : Round m back env' u env'') :
    ∃ isKeyFrame, Round m (front ++ back) env ⟨t.lists ++ u.lists, isKeyFrame, u.fatal⟩ env'' := by
  induction h with
  | nil => exact ⟨_, h'⟩
  | finished hf _ ih =>
    rw [List.forall_mem_cons] at hp
    obtain ⟨_, hr⟩ := ih ht hp.2 h'
    exact ⟨_, .finished hf hr⟩
  | fatal => cases ht
  | parallel hf he hpar _ ih =>
    rw [List.forall_mem_cons] at hp
    obtain ⟨_, hr⟩ := ih ht hp.2 h'
    exact ⟨_, .parallel hf he hpar hr⟩
  -- a list behind which nothing happens is none that lets others pass
  | last hf _ hpar => exact ((List.forall_mem_cons.mp hp).1.elim hf hpar).elim

/-- **A round becomes fatal at one list**, which had its turn, and no list in front was fatal. -/
theorem Round.fatal_split {reason : String} (h : Round m ls env t env')
    (ht : t.fatal = some reason) :
    ∃ front l back, ls = front ++ l :: back ∧ HasTurn front l ∧
      (tickLists m front env).subject.fatal = none ∧
        (l.tick m (tickLists m front env).env).subject.2 = .fatal reason := by
  induction h with
  | nil => cases ht
  | @finished l _ env _ _ hf _ ih =>
    obtain ⟨front, k, back, rfl, hturn, hn, he⟩ := ih ht
    -- what the lists in front do with `l` before them is what they do without it
    have hr := (Round.finished hf (tickLists_round m front env)).eq
    refine ⟨l :: front, k, back, rfl, hasTurn_cons.mpr ⟨.inl hf, hturn⟩, ?_, ?_⟩
    · rw [← hr.1]
      exact hn
    · rw [← hr.2]
      exact he
  | @fatal l rest env _ hf he =>
    cases ht
    exact ⟨[], l, rest, rfl, ⟨hf, fun _ hm => by cases hm⟩, rfl, he⟩
  | @parallel l _ env _ _ hf hl hp _ ih =>
    obtain ⟨front, k, back, rfl, hturn, hn, he⟩ := ih ht
    have hr := (Round.parallel hf hl hp (tickLists_round m front _)).eq
    refine ⟨l :: front, k, back, rfl, hasTurn_cons.mpr ⟨.inr hp, hturn⟩, ?_, ?_⟩
    · rw [← hr.1]
      exact hn
    · rw [← hr.2]
      exact he
  | last => cases ht

/-- Nothing behind the list that was fatal has played. -/
theorem tickLists_of_fatal {front : List ListRun} {l : ListRun} {reason : String}
    (hturn : HasTurn front l) (back : List ListRun)
    (hn : (tickLists m front env).subject.fatal = none)
    (he : (l.tick m (tickLists m front env).env).subject.2 = .fatal reason) :
    let played := tickLists m front env
    let t := tickLists m (front ++ l :: back) env
    t.subject.fatal = some reason ∧ t.env = (l.tick m played.env).env ∧
      t.subject.lists = played.subject.lists ++ (l.tick m played.env).subject.1 :: back := by
  have hl : Round m (l :: back) (tickLists m front env).env _ _ := .fatal hturn.1 he
  obtain ⟨_, hr⟩ := (tickLists_round m front env).append hn hturn.2 hl
  dsimp only
  rw [← hr.eq.1, ← hr.eq.2]
  exact ⟨rfl, rfl, rfl⟩

end PlaybackRun

end Playtest
