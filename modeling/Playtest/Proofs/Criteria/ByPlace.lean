import Playtest.Criteria.Evaluation
import Playtest.Proofs.Criteria.Places

/-!
# Evaluation by places

Evaluation asks for the reply to a vision criteria, and for the latch of a transient one, under keys
that it makes up as it goes along. This module evaluates criteria without any keys. All that may be
asked of a criteria is given by its place (`Known`), so that no criteria can see what is known of
another one, and what is met for the first time is told by its place.

The main result is that the two agree if keys are taken for what they are, the keys of places
(`Criteria.evaluateAll_tells`). Evaluation therefore asks about every criteria under the key that a
visit hands out for it, and nothing that is true of evaluation has to do with how keys are written.
It is much easier to argue by places: what is inside a member is at places that begin with the
position of that member, so that members cannot get into each other's way.
-/

namespace Playtest

/-! ### What is known by places -/

/-- **What is known of criteria** before they are evaluated, by their places. -/
structure Known where
  reply : Place → Option Vision.Reply
  isLatched : Place → Bool

/-- What is known of the criteria inside the member at a position. -/
def Known.inside (known : Known) (i : Nat) : Known :=
  ⟨fun place => known.reply (i :: place), fun place => known.isLatched (i :: place)⟩

namespace View

/-- What a view knows of criteria, if they go by the keys of their places. -/
def known (view : View) (key : Key) : Known :=
  ⟨fun place => view.reply (key.along place), fun place => view.latched.contains (key.along place)⟩

/-- The view without anything that goes by keys. -/
def blind (view : View) : View := { view with reply := fun _ => none, latched := [] }

/-- To know a member by its key is to know what is inside that member. -/
theorem known_member (view : View) (key : Key) (i : Nat) :
    view.known (key.member i) = (view.known key).inside i := rfl

end View

/-! ### Evaluation -/

/-- Evaluates a test that has a reply. -/
def Test.evaluateWith (reply : Option Vision.Reply) (view : View) (t : Test) :
    Except EvaluationError CriteriaStatus :=
  t.evaluate "" { view with reply := fun _ => reply }

/-- A test only asks for the reply under its own key, and for no latch. -/
theorem Test.evaluate_eq (t : Test) (key : Key) (view : View) :
    t.evaluate key view = t.evaluateWith (view.reply key) view.blind := by
  cases t <;> rfl

namespace Criteria

/-- The place of a criteria itself, if it is transient and met. -/
def newlyMet (isTransient : Bool) (status : CriteriaStatus) : List Place :=
  if isTransient && status == .met then [[]] else []

mutual

/-- Evaluates a criteria by what is known of it and of what is inside it, and tells which transient
criteria are met for the first time. -/
def evaluateAt (view : View) :
    Known → Criteria → Except EvaluationError (CriteriaStatus × List Place)
  | known, single v t test =>
      if Version.current < v then .error (.unsupported test.kind v)
      else if t && known.isLatched [] then .ok (.met, [])
      else
        match test.evaluateWith (known.reply []) view with
        | .error e => .error e
        | .ok status => .ok (status, newlyMet t status)
  | known, group v t join members =>
      if Version.current < v then .error (.unsupported join.kind v)
      else if t && known.isLatched [] then .ok (.met, [])
      else
        match evaluateMembers view known 0 members with
        | .error e => .error e
        | .ok (statuses, places) =>
            .ok (.combine join statuses, places ++ newlyMet t (.combine join statuses))

/-- Evaluates criteria from a position of their list on. -/
def evaluateMembers (view : View) :
    Known → (position : Nat) → List Criteria →
      Except EvaluationError (List CriteriaStatus × List Place)
  | _, _, [] => .ok ([], [])
  | known, position, c :: cs =>
      match evaluateAt view (known.inside position) c with
      | .error e => .error e
      | .ok (status, places) =>
          match evaluateMembers view known (position + 1) cs with
          | .error e => .error e
          | .ok (statuses, others) => .ok (status :: statuses, places.map (position :: ·) ++ others)

end

/-- What a criteria comes to if it has to be looked at: its test, or its members. -/
def evaluateOwn (view : View) (known : Known) :
    Criteria → Except EvaluationError (CriteriaStatus × List Place)
  | single _ _ test =>
      match test.evaluateWith (known.reply []) view with
      | .error e => .error e
      | .ok status => .ok (status, [])
  | group _ _ join members =>
      match evaluateMembers view known 0 members with
      | .error e => .error e
      | .ok (statuses, places) => .ok (.combine join statuses, places)

/-- **Versions come first, then latches**, and only then a criteria is looked at. -/
theorem evaluateAt_eq (view : View) (known : Known) (c : Criteria) :
    evaluateAt view known c =
      if Version.current < c.apiVersion then .error (.unsupported c.kind c.apiVersion)
      else if c.isTransient && known.isLatched [] then .ok (.met, [])
      else
        match evaluateOwn view known c with
        | .error e => .error e
        | .ok (status, places) => .ok (status, places ++ newlyMet c.isTransient status) := by
  cases c with
  | single v t test =>
    unfold evaluateAt evaluateOwn
    dsimp only [apiVersion, kind, isTransient]
    -- on both sides the same three things are asked in the same order
    cases test.evaluateWith (known.reply []) view <;> rfl
  | group v t join members =>
    unfold evaluateAt evaluateOwn
    dsimp only [apiVersion, kind, isTransient]
    rcases evaluateMembers view known 0 members with _ | ⟨statuses, places⟩ <;> rfl

/-- **Evaluates a list of criteria** by what is known of them. -/
def evaluateList (view : View) (known : Known) (cs : List Criteria) (join : Join) :
    Except EvaluationError (CriteriaStatus × List Place) :=
  match evaluateMembers view known 0 cs with
  | .error e => .error e
  | .ok (statuses, places) => .ok (.combine join statuses, places)

/-! ### When evaluation succeeds -/

section Succeeds

variable {view : View} {known : Known} {c : Criteria} {cs : List Criteria} {status : CriteriaStatus}
  {statuses : List CriteriaStatus} {places : List Place} {position : Nat}

/-- A criteria that can be evaluated was latched before, or was looked at. -/
theorem evaluateAt_ok_cases (h : evaluateAt view known c = .ok (status, places)) :
    ¬ Version.current < c.apiVersion ∧
      ((c.isTransient && known.isLatched []) = true ∧ status = .met ∧ places = [] ∨
        (c.isTransient && known.isLatched []) = false ∧
          ∃ inner, evaluateOwn view known c = .ok (status, inner) ∧
            places = inner ++ newlyMet c.isTransient status) := by
  rw [evaluateAt_eq] at h
  split at h
  · cases h
  next hv =>
  refine ⟨hv, ?_⟩
  -- it was latched before, and nothing has been noted
  split at h
  · next hl =>
    cases h
    exact .inl ⟨hl, rfl, rfl⟩
  next hl =>
  refine .inr ⟨Bool.eq_false_iff.mpr hl, ?_⟩
  -- it has been looked at, and that has not failed
  rcases ho : evaluateOwn view known c with _ | ⟨status', inner⟩
  · rw [ho] at h
    cases h
  · rw [ho] at h
    cases h
    exact ⟨inner, rfl, rfl⟩

/-- What is latched is met, whatever is inside. -/
theorem evaluateAt_of_latched (hv : ¬ Version.current < c.apiVersion)
    (hl : (c.isTransient && known.isLatched []) = true) :
      evaluateAt view known c = .ok (.met, []) := by
  rw [evaluateAt_eq, if_neg hv, if_pos hl]

/-- What is not latched comes to what is found when it is looked at. -/
theorem evaluateAt_of_own (hv : ¬ Version.current < c.apiVersion)
    (hl : (c.isTransient && known.isLatched []) = false)
    (ho : evaluateOwn view known c = .ok (status, places)) :
    evaluateAt view known c = .ok (status, places ++ newlyMet c.isTransient status) := by
  rw [evaluateAt_eq, if_neg hv, hl, ho]
  rfl

/-- A group comes to what its members come to together. -/
theorem evaluateOwn_group_ok_iff {v : Version} {t : Bool} {join : Join} {members : List Criteria} :
    evaluateOwn view known (group v t join members) = .ok (status, places) ↔
      ∃ statuses, evaluateMembers view known 0 members = .ok (statuses, places) ∧
        .combine join statuses = status := by
  unfold evaluateOwn
  dsimp only
  rcases evaluateMembers view known 0 members with _ | ⟨statuses, inner⟩
  · simp
  · simp [and_comm]

/-- A test comes to what it is evaluated to, and there is nothing inside to be noted. -/
theorem evaluateOwn_single_ok_iff {v : Version} {t : Bool} {test : Test} :
    evaluateOwn view known (single v t test) = .ok (status, places) ↔
      test.evaluateWith (known.reply []) view = .ok status ∧ places = [] := by
  unfold evaluateOwn
  dsimp only
  cases test.evaluateWith (known.reply []) view with
  | error e => simp
  | ok status' => simp [eq_comm]

/-- Members can be evaluated if the first one can, and then the others. The places of the first one
get its position in front. -/
theorem evaluateMembers_cons_ok_iff :
    evaluateMembers view known position (c :: cs) = .ok (statuses, places) ↔
      ∃ status first others rest, evaluateAt view (known.inside position) c = .ok (status, first) ∧
        evaluateMembers view known (position + 1) cs = .ok (others, rest) ∧
          status :: others = statuses ∧ first.map (position :: ·) ++ rest = places := by
  rw [evaluateMembers]
  rcases evaluateAt view (known.inside position) c with _ | ⟨status, first⟩
  · simp
  · rcases evaluateMembers view known (position + 1) cs with _ | ⟨others, rest⟩ <;> simp

/-- The same for a list of criteria. -/
theorem evaluateList_ok_iff {join : Join} : evaluateList view known cs join = .ok (status, places) ↔
    ∃ statuses, evaluateMembers view known 0 cs = .ok (statuses, places) ∧
      .combine join statuses = status := by
  unfold evaluateList
  rcases evaluateMembers view known 0 cs with _ | ⟨statuses, inner⟩
  · simp
  · simp [and_comm]

/-! ### Places that are noted -/

/-- Only a criteria that is transient and met is noted, and only at its own place. -/
theorem mem_newlyMet_iff {t : Bool} {place : Place} :
    place ∈ newlyMet t status ↔ (t && status == .met) = true ∧ place = [] := by
  unfold newlyMet
  split
  · next h => rw [and_iff_right h, List.mem_singleton]
  · next h => exact iff_of_false List.not_mem_nil fun hr => h hr.1

/-- Places that lie inside members from a position on. -/
def Inside (position : Nat) (places : List Place) : Prop :=
  ∀ place ∈ places, ∃ i rest, position ≤ i ∧ place = i :: rest

/-- What lies inside members from a position on lies inside those from an earlier one on. -/
theorem Inside.mono {from' : Nat} (h : Inside from' places) (hle : position ≤ from') :
    Inside position places := by
  intro place hp
  obtain ⟨i, rest, hi, rfl⟩ := h place hp
  exact ⟨i, rest, Nat.le_trans hle hi, rfl⟩

/-- **Whatever members note is inside them.** -/
theorem evaluateMembers_inside (view : View) (known : Known) (cs : List Criteria) :
    ∀ {position : Nat} {statuses : List CriteriaStatus} {places : List Place},
      evaluateMembers view known position cs = .ok (statuses, places) → Inside position places := by
  induction cs with
  | nil =>
    intro position statuses places h
    cases h
    exact fun _ hp => absurd hp List.not_mem_nil
  | cons c cs ih =>
    intro position statuses places h
    obtain ⟨status, first, others, rest, -, hrest, -, rfl⟩ := evaluateMembers_cons_ok_iff.mp h
    -- the places of the first member begin with its position, those of the others with a later one
    refine List.forall_mem_append.mpr ⟨fun place hp => ?_, (ih hrest).mono (Nat.le_succ position)⟩
    obtain ⟨inner, -, rfl⟩ := List.mem_map.mp hp
    exact ⟨position, inner, Nat.le_refl _, rfl⟩

/-- What is noted by looking at a criteria is inside it. -/
theorem evaluateOwn_inside (h : evaluateOwn view known c = .ok (status, places)) :
    Inside 0 places := by
  cases c with
  | single v t test =>
    obtain ⟨-, rfl⟩ := evaluateOwn_single_ok_iff.mp h
    exact fun _ hp => absurd hp List.not_mem_nil
  | group v t join members =>
    obtain ⟨statuses, hmembers, -⟩ := evaluateOwn_group_ok_iff.mp h
    exact evaluateMembers_inside view known members hmembers

end Succeeds

/-! ### Agreement -/

/-- An evaluation under a key **tells** the same as one by places: what it comes to, and, behind
what was noted before, the keys of the places that are met for the first time. -/
inductive Tells {α : Type} (key : Key) (earlier : Notes) :
    Except EvaluationError α × Notes → Except EvaluationError (α × List Place) → Prop
  | error (e : EvaluationError) (notes : Notes) : Tells key earlier (.error e, notes) (.error e)
  | ok (a : α) (notes : Notes) (places : List Place)
      (h : notes.latched = earlier.latched ++ places.map key.along) :
      Tells key earlier (.ok a, notes) (.ok (a, places))

variable {view : View} {key parent : Key} {c : Criteria} {n : Notes}

/-- Settling a criteria notes its own key if it is met for the first time. -/
theorem latched_settle (n : Notes) (c : Criteria) (key : Key) (status : CriteriaStatus) :
    (n.settle c key status).latched = n.latched ++
      (newlyMet c.isTransient status).map key.along := by
  unfold Notes.settle newlyMet
  split
  · rfl
  · exact (List.append_nil _).symm

mutual

/-- **A criteria is evaluated under its key as it is at its place.** -/
theorem evaluateKeyed_tells (view : View) : ∀ (c : Criteria) (key : Key) (n : Notes),
    Tells key n (evaluateKeyed view key c n) (evaluateAt view.blind (view.known key) c)
  | single v t test, key, n => by
    -- the test asks under its own key, which is the key of the place of the criteria itself
    have htest := test.evaluate_eq key view
    unfold evaluateKeyed evaluateAt
    change Tells key n _ (if _ then _ else if (t && view.latched.contains key) = true then _ else
      match test.evaluateWith (view.reply key) view.blind with | .error e => _ | .ok status => _)
    split
    · -- the version comes first on both sides
      exact .error ..
    split
    · -- then the latch, which lets nothing be noted
      exact .ok _ _ [] (List.append_nil _).symm
    rw [htest]
    cases test.evaluateWith (view.reply key) view.blind with
    | error e => exact .error ..
    | ok status => exact .ok _ _ _ (latched_settle _ (single v t test) key status)
  | group v t join members, key, n => by
    have hmembers := evaluateFrom_tells view members key 0 n
    unfold evaluateKeyed evaluateAt
    change Tells key n _ (if _ then _ else if (t && view.latched.contains key) = true then _ else _)
    split
    · exact .error ..
    split
    · exact .ok _ _ [] (List.append_nil _).symm
    -- only what is known of the members matters from here on
    generalize evaluateFrom view key 0 members n = keyed at hmembers ⊢
    generalize evaluateMembers view.blind (view.known key) 0 members = placed at hmembers ⊢
    cases hmembers with
    | error e notes => exact .error ..
    | ok statuses notes places h =>
      refine .ok _ _ _ ?_
      -- the group notes itself behind what its members have noted
      rw [latched_settle, h, List.map_append, List.append_assoc]
      rfl

/-- **Members are evaluated under their keys as they are at their places**, from any position on. -/
theorem evaluateFrom_tells (view : View) : ∀ (cs : List Criteria) (parent : Key) (position : Nat)
    (n : Notes), Tells parent n (evaluateFrom view parent position cs n)
      (evaluateMembers view.blind (view.known parent) position cs)
  | [], parent, position, n => by
    unfold evaluateFrom evaluateMembers
    exact .ok _ _ [] (List.append_nil _).symm
  | c :: cs, parent, position, n => by
    have hfirst := evaluateKeyed_tells view c (parent.member position) n
    rw [View.known_member] at hfirst
    unfold evaluateFrom evaluateMembers
    generalize evaluateKeyed view (parent.member position) c n = keyed at hfirst ⊢
    generalize evaluateAt view.blind ((view.known parent).inside position) c = placed at hfirst ⊢
    cases hfirst with
    | error e notes => exact .error ..
    | ok status notes places h =>
      -- the others come behind what the first one has noted
      have hothers := evaluateFrom_tells view cs parent (position + 1) notes
      dsimp only
      generalize evaluateFrom view parent (position + 1) cs notes = keyed at hothers ⊢
      generalize evaluateMembers view.blind (view.known parent) (position + 1) cs = placed
        at hothers ⊢
      cases hothers with
      | error e notes => exact .error ..
      | ok statuses notes' others h' =>
        refine .ok _ _ _ ?_
        rw [h', h, List.map_append, List.map_map, List.append_assoc]
        rfl

end

/-- **Evaluation asks about criteria under the keys of their places**, and notes them under these
keys. -/
theorem evaluateAll_tells (view : View) (parent : Key) (cs : List Criteria) (join : Join) :
    Tells parent .none (evaluateAll view parent cs join)
      (evaluateList view.blind (view.known parent) cs join) := by
  have hmembers := evaluateFrom_tells view cs parent 0 .none
  unfold evaluateAll evaluateList
  generalize evaluateFrom view parent 0 cs .none = keyed at hmembers ⊢
  generalize evaluateMembers view.blind (view.known parent) 0 cs = placed at hmembers ⊢
  cases hmembers with
  | error e notes => exact .error ..
  | ok statuses notes places h => exact .ok _ _ _ h

namespace Tells

variable {α : Type} {keyed : Except EvaluationError α × Notes}
  {placed : Except EvaluationError (α × List Place)} {a : α} {notes : Notes} {places : List Place}

/-- Both come to the same. -/
theorem fst (h : Tells key n keyed placed) : keyed.1 = placed.map Prod.fst := by
  cases h <;> rfl

theorem of_keyed (h : Tells key n (.ok a, notes) placed) :
    ∃ places, placed = .ok (a, places) ∧ notes.latched = n.latched ++ places.map key.along := by
  cases h with
  | ok _ _ places h => exact ⟨places, rfl, h⟩

theorem of_placed (h : Tells key n keyed (.ok (a, places))) :
    ∃ notes, keyed = (.ok a, notes) ∧ notes.latched = n.latched ++ places.map key.along := by
  cases h with
  | ok _ notes _ h => exact ⟨notes, rfl, h⟩

end Tells

/-- An empty frame while the action of the segment goes on. -/
def stillActing : View where
  snapshot := .empty
  keyFrame := none
  actionComplete := false
  reply := fun _ => none
  pendingValidations := 0
  elapsed := 0.0
  predicate := fun _ => none
  latched := []

end Criteria

end Playtest
