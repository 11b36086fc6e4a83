import Mathlib.Logic.Relation
import Playtest.Proofs.Text.Trimming
import Playtest.Scene.Resolver

/-!
# Names without their suffixes

A name is normalized in passes. Each pass cuts off one suffix, with the blanks in front of it, and
the last pass is followed by nothing that could be cut (`Cut`, `normalizes`). The first main result,
`copies_normalize_alike`, is that copies of an object have the same normalized name, whatever
suffixes they were given (`Suffix`), and that a normalized name is a beginning of the name and comes
to itself.

A pass looks for something that is left in front of the suffix, but what is left may be blank. So a
name that has blanks in front and nothing else but suffixes is normalized to nothing at all,
although it is not blank itself. The second main result, `normalized_vanishes_iff`, is that only
such names are (`Bare`).
-/

namespace Playtest.Scene

open Playtest.Text

variable {cs ds kept label ws : List Char}

/-! ### Suffixes -/

/-- A **suffix** that tells copies apart: something in parentheses, perhaps with blanks around. -/
structure Suffix where
  front : List Char
  label : List Char
  behind : List Char
  front_blank : ∀ c ∈ front, isBlank c = true
  behind_blank : ∀ c ∈ behind, isBlank c = true
  notMem_label : '(' ∉ label

/-- A suffix as it is written. -/
def Suffix.chars (s : Suffix) : List Char := s.front ++ '(' :: s.label ++ ')' :: s.behind

/-- **One cut** takes a suffix off a name and the blanks in front of it, unless nothing would stand
there. -/
inductive Cut : List Char → List Char → Prop
  | suffix {kept label : List Char} (hkept : kept ≠ []) (hlabel : '(' ∉ label) :
      Cut (kept ++ '(' :: label ++ [')']) (trimBack kept)

/-- What a cut leaves has no blanks behind it. -/
theorem Cut.trimBack_eq (h : Cut cs ds) : trimBack ds = ds := by
  cases h
  exact trimBack_trimBack _

/-- What a cut leaves is a beginning of the name. -/
theorem Cut.isPrefix (h : Cut cs ds) : ds <+: cs := by
  cases h with
  | @suffix kept label hkept hlabel =>
    rw [List.append_assoc]
    exact (isPrefix_trimBack kept).trans (List.prefix_append _ _)

/-- A cut makes a name shorter. -/
theorem Cut.length_lt (h : Cut cs ds) : ds.length < cs.length := by
  cases h with
  | @suffix kept label hkept hlabel =>
    have hle := (isPrefix_trimBack kept).length_le
    rw [List.length_append, List.length_append, List.length_singleton]
    omega

/-- **Cutting comes to an end.** -/
theorem wellFounded_cut : WellFounded fun after before => Cut before after :=
  Subrelation.wf Cut.length_lt (measure List.length).wf

theorem not_cut_nil : ¬ Cut [] ds := fun h => Nat.not_lt_zero _ h.length_lt

/-! ### The loop -/

/-- Behind a label that has no parenthesis, the first one to be found is its own. -/
theorem dropWhile_label (h : '(' ∉ label) (front : List Char) :
    (label ++ '(' :: front).dropWhile (· ≠ '(') = '(' :: front := by
  have hlabel : ∀ c ∈ label, decide (c ≠ '(') = true :=
    fun c hc => decide_eq_true fun heq => h (heq ▸ hc)
  rw [List.dropWhile_append_of_pos hlabel]
  exact List.dropWhile_cons_of_neg (by decide)

/-- Where an opening parenthesis is found, what comes before it is a label without one. -/
theorem exists_label_of_dropWhile {x : Char} {front : List Char}
    (h : cs.dropWhile (· ≠ '(') = x :: front) :
    ∃ label, '(' ∉ label ∧ cs = label ++ '(' :: front := by
  induction cs with
  | nil => cases h
  | cons c rest ih =>
    by_cases hc : c = '('
    · -- the parenthesis is the first character
      rw [List.dropWhile_cons_of_neg (by simpa using hc)] at h
      obtain ⟨rfl, rfl⟩ := List.cons.inj h
      exact ⟨[], List.not_mem_nil, by rw [hc, List.nil_append]⟩
    · -- otherwise it is found further on
      rw [List.dropWhile_cons_of_pos (by simpa using hc)] at h
      obtain ⟨label, hlabel, rfl⟩ := ih h
      exact ⟨c :: label, List.not_mem_cons_of_ne_of_not_mem (Ne.symm hc) hlabel, rfl⟩

/-- **A pass of the loop is a cut.** The loop has its name in reverse. -/
theorem cutSuffix?_reverse_eq_some_iff : cutSuffix? cs.reverse = some ds.reverse ↔ Cut cs ds := by
  constructor
  · intro h
    unfold cutSuffix? at h
    split at h
    · next rest hcs =>
      split at h
      · next x c front hfront =>
        obtain ⟨label, hlabel, rfl⟩ := exists_label_of_dropWhile hfront
        -- back in the order of the name, the pass is a cut of `kept ++ '(' :: label ++ [')']`
        have hcs' : cs = (c :: front).reverse ++ '(' :: label.reverse ++ [')'] := by
          rw [← List.reverse_inj, hcs]
          simp
        have hds : ds = trimBack (c :: front).reverse := by
          unfold trimBack
          rw [List.reverse_reverse, Option.some.inj h, List.reverse_reverse]
        rw [hcs', hds]
        exact .suffix (by simp) (by simpa using hlabel)
      · cases h
    · cases h
  · -- the other way round, the loop finds the parenthesis in front of the label
    rintro @⟨kept, label, hkept, hlabel⟩
    obtain ⟨c, front, hfront⟩ := List.exists_cons_of_ne_nil (List.reverse_ne_nil_iff.mpr hkept)
    have hreverse : (kept ++ '(' :: label ++ [')']).reverse =
        ')' :: (label.reverse ++ '(' :: (c :: front)) := by
      rw [← hfront]
      simp
    rw [hreverse, cutSuffix?, dropWhile_label (by simpa using hlabel)]
    unfold trimBack
    rw [List.reverse_reverse, hfront]

/-- The loop goes on with what a cut leaves. -/
theorem stripSuffixes_of_cut (h : Cut cs ds) :
    stripSuffixes cs.reverse = stripSuffixes ds.reverse := by
  have hpass := cutSuffix?_reverse_eq_some_iff.mpr h
  rw [stripSuffixes]
  split
  · next ds' hds => rw [Option.some.inj (hds.symm.trans hpass)]
  · next hnone => cases hnone.symm.trans hpass

/-- The loop stops where nothing can be cut. -/
theorem stripSuffixes_of_not_cut (h : ∀ ds, ¬ Cut cs ds) :
    stripSuffixes cs.reverse = cs.reverse := by
  rw [stripSuffixes]
  split
  · next ds' hds =>
    rw [← ds'.reverse_reverse] at hds
    exact absurd (cutSuffix?_reverse_eq_some_iff.mp hds) (h _)
  · rfl

/-- Normalizing is trimming and then the loop, which has the name in reverse. -/
theorem normalizeChars_eq (cs : List Char) :
    normalizeChars cs = (stripSuffixes (trimBack cs).reverse).reverse := by
  unfold normalizeChars trimBack
  rw [List.reverse_reverse]

/-- A cut of the trimmed name makes no difference to the normalized one. -/
theorem normalizeChars_of_cut (h : Cut (trimBack cs) ds) :
    normalizeChars cs = normalizeChars ds := by
  rw [normalizeChars_eq, normalizeChars_eq, stripSuffixes_of_cut h, h.trimBack_eq]

/-- Where nothing can be cut, normalizing only trims. -/
theorem normalizeChars_of_not_cut (h : ∀ ds, ¬ Cut (trimBack cs) ds) :
    normalizeChars cs = trimBack cs := by
  rw [normalizeChars_eq, stripSuffixes_of_not_cut h, List.reverse_reverse]

/-- Names that are trimmed alike are normalized alike. -/
theorem normalizeChars_congr (h : trimBack ds = trimBack cs) :
    normalizeChars ds = normalizeChars cs := by
  rw [normalizeChars_eq, normalizeChars_eq, h]

/-- **Normalizing** cuts until nothing can be cut any more. -/
theorem normalizes (cs : List Char) :
    Relation.ReflTransGen Cut (trimBack cs) (normalizeChars cs) ∧
      ∀ ds, ¬ Cut (normalizeChars cs) ds := by
  suffices h : ∀ trimmed cs, trimBack cs = trimmed →
      Relation.ReflTransGen Cut (trimBack cs) (normalizeChars cs) ∧
        ∀ ds, ¬ Cut (normalizeChars cs) ds from h _ cs rfl
  intro trimmed
  -- on what is left to cut; what a cut leaves is trimmed, so it is normalized as it is
  induction trimmed using wellFounded_cut.induction with
  | _ trimmed ih =>
    rintro cs rfl
    by_cases hcut : ∃ ds, Cut (trimBack cs) ds
    · obtain ⟨ds, hds⟩ := hcut
      obtain ⟨hcuts, hend⟩ := ih ds hds ds hds.trimBack_eq
      rw [hds.trimBack_eq, ← normalizeChars_of_cut hds] at hcuts
      rw [← normalizeChars_of_cut hds] at hend
      exact ⟨.head hds hcuts, hend⟩
    · have hnone := not_exists.mp hcut
      rw [normalizeChars_of_not_cut hnone]
      exact ⟨.refl, hnone⟩

/-- A normalized name has no blanks behind it. -/
theorem trimBack_normalizeChars (cs : List Char) :
    trimBack (normalizeChars cs) = normalizeChars cs := by
  have hcuts := (normalizes cs).1
  rcases hcuts.cases_tail with heq | ⟨before, -, hcut⟩
  · rw [heq, trimBack_trimBack]
  · exact hcut.trimBack_eq

/-- A normalized name is a beginning of the name. -/
theorem isPrefix_normalizeChars (cs : List Char) : normalizeChars cs <+: cs := by
  have hcuts := (normalizes cs).1
  refine List.IsPrefix.trans ?_ (isPrefix_trimBack cs)
  generalize normalizeChars cs = normalized at hcuts
  induction hcuts with
  | refl => exact List.prefix_refl _
  | tail _ hcut ih => exact hcut.isPrefix.trans ih

/-- A name that is normalized comes to itself. -/
theorem normalizeChars_normalizeChars (cs : List Char) :
    normalizeChars (normalizeChars cs) = normalizeChars cs := by
  have htrim := trimBack_normalizeChars cs
  have hend := (normalizes cs).2
  rw [← htrim] at hend
  rw [normalizeChars_of_not_cut hend, htrim]

/-! ### Copies -/

/-- **A suffix makes no difference.** -/
theorem normalizeChars_append_suffix (hne : cs ≠ []) (s : Suffix) :
    normalizeChars (cs ++ s.chars) = normalizeChars cs := by
  -- the blanks of the suffix fall to the trimming on the one side and to the cut on the other
  have htrim : trimBack (cs ++ s.chars) = (cs ++ s.front) ++ '(' :: s.label ++ [')'] :=
    calc trimBack (cs ++ s.chars)
        = trimBack (((cs ++ s.front) ++ '(' :: s.label ++ [')']) ++ s.behind) := by
          unfold Suffix.chars
          simp
      _ = (cs ++ s.front) ++ '(' :: s.label ++ [')'] := by
          rw [trimBack_append s.behind_blank, trimBack_concat (by decide)]
  have hcut : Cut (trimBack (cs ++ s.chars)) (trimBack (cs ++ s.front)) := by
    rw [htrim]
    exact .suffix (List.append_ne_nil_of_left_ne_nil hne _) s.notMem_label
  rw [normalizeChars_of_cut hcut, trimBack_append s.front_blank]
  exact normalizeChars_congr (trimBack_trimBack cs)

/-- Any number of suffixes makes no difference. -/
theorem normalizeChars_append_suffixes (hne : cs ≠ []) (suffixes : List Suffix) :
    normalizeChars (cs ++ suffixes.flatMap Suffix.chars) = normalizeChars cs := by
  induction suffixes generalizing cs with
  | nil => rw [List.flatMap_nil, List.append_nil]
  | cons s rest ih =>
    rw [List.flatMap_cons, ← List.append_assoc, ih (List.append_ne_nil_of_left_ne_nil hne _),
      normalizeChars_append_suffix hne]

/-- Normalizing a string is normalizing its characters. -/
theorem toList_normalizeName (name : String) :
    (normalizeName name).toList = normalizeChars name.toList :=
  String.toList_ofList

/-- Suffixes behind a string make no difference, either. -/
theorem normalizeName_append_suffixes {name : String} (hne : name ≠ "") (suffixes : List Suffix) :
    normalizeName (name ++ String.ofList (suffixes.flatMap Suffix.chars)) = normalizeName name := by
  have hchars : name.toList ≠ [] := fun h => hne (String.toList_eq_nil_iff.mp h)
  rw [← String.toList_inj, toList_normalizeName, toList_normalizeName, String.toList_append,
    String.toList_ofList, normalizeChars_append_suffixes hchars]

/-- **Copies have the same normalized name.** Cutting comes to an end whatever a name is, and
normalizing a name makes all the cuts: the blanks behind it go first, then one suffix after another,
until there is none to cut. Hence

* a suffix behind a name, and any number of them, is lost again,
* a normalized name comes to itself, begins the name that it comes from, and has no blanks behind
  it. -/
theorem copies_normalize_alike :
    WellFounded (fun after before => Cut before after) ∧
    ∀ name : String,
      (Relation.ReflTransGen Cut (trimBack name.toList) (normalizeName name).toList ∧
        ∀ after, ¬ Cut (normalizeName name).toList after) ∧
      (name ≠ "" →
        (∀ front label behind : String, allBlank front → allBlank behind → '(' ∉ label.toList →
          normalizeName (name ++ front ++ "(" ++ label ++ ")" ++ behind) = normalizeName name) ∧
        ∀ suffixes : List Suffix,
          normalizeName (name ++ String.ofList (suffixes.flatMap Suffix.chars)) =
            normalizeName name) ∧
      normalizeName (normalizeName name) = normalizeName name ∧
      (normalizeName name).toList <+: name.toList ∧
      ∀ c ∈ (normalizeName name).toList.getLast?, isBlank c = false := by
  refine ⟨wellFounded_cut, fun name =>
    ⟨?_, fun hne => ⟨?_, normalizeName_append_suffixes hne⟩, ?_, ?_, ?_⟩⟩
  · rw [toList_normalizeName]
    exact normalizes name.toList
  · intro front label behind hfront hbehind hlabel
    -- one suffix is a list of one
    have hone := normalizeName_append_suffixes hne
      [⟨front.toList, label.toList, behind.toList, List.all_eq_true.mp hfront,
        List.all_eq_true.mp hbehind, hlabel⟩]
    rw [← hone]
    congr 1
    rw [← String.toList_inj]
    simp [Suffix.chars]
  · rw [← String.toList_inj, toList_normalizeName, toList_normalizeName,
      normalizeChars_normalizeChars]
  · rw [toList_normalizeName]
    exact isPrefix_normalizeChars name.toList
  · rw [toList_normalizeName]
    exact isBlank_getLast? (trimBack_normalizeChars name.toList)

/-- Two copies of an enemy, one of them a copy of a copy. -/
theorem enemies_normalize_alike :
    normalizeName "Enemy(Clone)" = "Enemy" ∧ normalizeName "Enemy (Clone) (3) " = "Enemy" := by
  obtain ⟨-, h⟩ := copies_normalize_alike
  obtain ⟨-, hcopies, -⟩ := h "Enemy"
  obtain ⟨hone, hmany⟩ := hcopies (by decide)
  have henemy : normalizeName "Enemy" = "Enemy" := by decide +kernel
  constructor
  · calc normalizeName "Enemy(Clone)"
        = normalizeName ("Enemy" ++ "" ++ "(" ++ "Clone" ++ ")" ++ "") := by rfl
      _ = normalizeName "Enemy" := hone "" "Clone" "" rfl rfl (by decide)
      _ = "Enemy" := henemy
  · have hblank : ∀ c ∈ [' '], isBlank c = true := List.forall_mem_singleton.mpr rfl
    let clone : Suffix := ⟨[' '], "Clone".toList, [], hblank, nofun, by decide⟩
    let third : Suffix := ⟨[' '], ['3'], [' '], hblank, hblank, by decide⟩
    calc normalizeName "Enemy (Clone) (3) "
        = normalizeName ("Enemy" ++ String.ofList ([clone, third].flatMap Suffix.chars)) := by rfl
      _ = normalizeName "Enemy" := hmany [clone, third]
      _ = "Enemy" := henemy

/-! ### Names that vanish -/

/-- A **bare** name has blanks, and then nothing but suffixes. -/
inductive Bare : List Char → Prop
  | blank {cs : List Char} (h : ∀ c ∈ cs, isBlank c = true) : Bare cs
  | suffix {cs : List Char} (h : Bare cs) (hne : cs ≠ []) (s : Suffix) : Bare (cs ++ s.chars)

/-- Blanks behind a bare name leave it bare. -/
theorem Bare.append_blanks (h : Bare cs) (hw : ∀ c ∈ ws, isBlank c = true) : Bare (cs ++ ws) := by
  cases h with
  | blank h => exact .blank fun c hc => (List.mem_append.mp hc).elim (h c) (hw c)
  | @suffix cs h hne s =>
    -- blanks behind a suffix belong to it
    have hbehind : ∀ c ∈ s.behind ++ ws, isBlank c = true :=
      fun c hc => (List.mem_append.mp hc).elim (s.behind_blank c) (hw c)
    have hchars : cs ++ s.chars ++ ws =
        cs ++ { s with behind := s.behind ++ ws, behind_blank := hbehind : Suffix }.chars := by
      unfold Suffix.chars
      simp
    rw [hchars]
    exact .suffix h hne _

/-- A name is bare if it is bare without the blanks behind it. -/
theorem Bare.of_trimBack (h : Bare (trimBack cs)) : Bare cs := by
  obtain ⟨ws, hw, hcs⟩ := exists_eq_trimBack_append cs
  rw [hcs]
  exact h.append_blanks hw

/-- In front of all suffixes there is a blank. -/
theorem Bare.isBlank_head? (h : Bare cs) : ∀ c ∈ cs.head?, isBlank c = true := by
  induction h with
  | blank h => exact fun c hc => h c (List.mem_of_head? hc)
  | suffix _ hne s ih =>
    intro c hc
    rw [List.head?_append_of_ne_nil _ hne] at hc
    exact ih c hc

/-- **Only bare names vanish.** -/
theorem normalizeChars_eq_nil_iff : normalizeChars cs = [] ↔ Bare cs := by
  constructor
  · intro h
    have hcuts := (normalizes cs).1
    rw [h] at hcuts
    refine .of_trimBack ?_
    generalize trimBack cs = trimmed at hcuts ⊢
    -- from the last cut back to the first, each puts a suffix behind what it kept
    induction hcuts using Relation.ReflTransGen.head_induction_on with
    | refl => exact .blank nofun
    | head hcut _ ih =>
      cases hcut with
      | @suffix kept label hkept hlabel =>
        have hsuffix := ih.of_trimBack.suffix hkept ⟨[], label, [], nofun, nofun, hlabel⟩
        unfold Suffix.chars at hsuffix
        rwa [List.nil_append, ← List.append_assoc] at hsuffix
  · -- back along how the name is bare
    intro h
    induction h with
    | @blank cs h =>
      have hnil : trimBack cs = [] := trimBack_eq_nil_iff.mpr h
      rw [normalizeChars_of_not_cut fun ds hds => not_cut_nil (hnil ▸ hds), hnil]
    | suffix _ hne s ih => rw [normalizeChars_append_suffix hne, ih]

/-- What an object without a name is called begins with a letter. -/
theorem head?_unnamed (o : Object) : (Object.displayName.unnamed o).toList.head? = some 'E' := by
  unfold Object.displayName.unnamed
  split
  · rw [String.toList_append]
    rfl
  · unfold compositeIdentity
    dsimp only
    rw [String.toList_append]
    rfl

/-- An object shows its name, unless it has none but blanks. -/
theorem displayName_cases (o : Object) :
    (∃ name, o.name = some name ∧ allBlank name = false ∧ o.displayName = name) ∨
      (∀ name, o.name = some name → allBlank name = true) ∧
        o.displayName.toList.head? = some 'E' := by
  unfold Object.displayName
  split
  · next name hname =>
    -- a name of blanks is as good as none
    split
    · next hblank =>
        exact .inr ⟨fun _ h => Option.some.inj (hname.symm.trans h) ▸ hblank, head?_unnamed o⟩
    · next hblank => exact .inl ⟨name, hname, eq_false_of_ne_true hblank, rfl⟩
  · next hnone =>
      exact .inr ⟨fun _ h => (Option.some_ne_none _ (h.symm.trans hnone)).elim, head?_unnamed o⟩

/-- A string is normalized to nothing just if it is bare. -/
theorem normalizeName_eq_empty_iff {name : String} :
    normalizeName name = "" ↔ Bare name.toList := by
  rw [← normalizeChars_eq_nil_iff, ← toList_normalizeName, String.toList_eq_nil_iff]

/-- A name that does not begin with a blank is not bare. -/
theorem not_bare {c : Char} (hhead : cs.head? = some c) (hc : isBlank c = false) : ¬ Bare cs :=
  fun h => absurd (h.isBlank_head? c hhead) (ne_true_of_eq_false hc)

/-- What an object is called is never blank. -/
theorem allBlank_displayName (o : Object) : allBlank o.displayName = false := by
  rcases displayName_cases o with ⟨name, -, hblank, heq⟩ | ⟨-, hhead⟩
  · rw [heq]
    exact hblank
  · exact eq_false_of_ne_true fun hblank =>
      not_bare hhead (by decide) (.blank (List.all_eq_true.mp hblank))

/-- **Which normalized names vanish.** What an object is called is never blank. It is normalized to
nothing just if the object has a name, and this name has blanks in front and then nothing but
suffixes. So nothing vanishes that does not begin with a blank. -/
theorem normalized_vanishes_iff (o : Object) :
    allBlank o.displayName = false ∧
    (normalizeName o.displayName = "" ↔ ∃ name, o.name = some name ∧ allBlank name = false ∧
      Bare name.toList) ∧
    ((∀ c ∈ o.displayName.toList.head?, isBlank c = false) → normalizeName o.displayName ≠ "") := by
  refine ⟨allBlank_displayName o, ?_, fun hfront hempty => ?_⟩
  · rw [normalizeName_eq_empty_iff]
    rcases displayName_cases o with ⟨name, hname, hblank, heq⟩ | ⟨hnone, hhead⟩
    · rw [heq]
      refine ⟨fun hbare => ⟨name, hname, hblank, hbare⟩, ?_⟩
      rintro ⟨name', hname', -, hbare⟩
      rwa [Option.some.inj (hname.symm.trans hname')]
    · refine iff_of_false (not_bare hhead (by decide)) ?_
      rintro ⟨name, hname, hblank, -⟩
      exact absurd (hnone name hname) (ne_true_of_eq_false hblank)
  · -- a bare name begins with a blank, unless it is empty, and this one is shown
    have hbare := normalizeName_eq_empty_iff.mp hempty
    cases hhead : o.displayName.toList.head? with
    | none =>
      have hshown := allBlank_displayName o
      rw [String.toList_eq_nil_iff.mp (List.head?_eq_none_iff.mp hhead)] at hshown
      exact absurd hshown (by decide)
    | some c => exact not_bare hhead (hfront c hhead) hbare

/-- A name that is a suffix from its first character on is kept. -/
theorem weird_is_kept : normalizeName "(Weird)" ≠ "" := by
  obtain ⟨-, -, hkept⟩ := normalized_vanishes_iff ⟨1, none, some "(Weird)", [], none, []⟩
  refine hkept fun c hc => ?_
  obtain rfl := Option.some.inj hc
  rfl

/-- An object whose name has a blank in front of the suffix. -/
def spacedCopy : Frame := ⟨0, none, [⟨1, none, some " (1)", [], none, []⟩], none⟩

/-- It is normalized to nothing, and so is its path. -/
theorem spacedCopy_vanishes :
    ¬ (∀ f : Frame, ∀ o ∈ f.objects, ∀ p ∈ (lineage f o).1, normalizeName p.displayName ≠ "") ∧
      ((Resolver.fresh.reset.resolve spacedCopy).1.get? 1).map (·.normalizedPath) = some "" := by
  refine ⟨fun h => ?_, by decide +kernel⟩
  exact h spacedCopy _ List.mem_cons_self _ List.mem_cons_self (by decide +kernel)

end Playtest.Scene
