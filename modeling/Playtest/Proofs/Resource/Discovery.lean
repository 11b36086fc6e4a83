import Mathlib.Data.List.Sort
import Playtest.Proofs.Resource.Places
import Playtest.Proofs.Resource.Versions

/-!
# Discovery and loading

Discovery looks through the files below a directory, and a loader is asked for the path of one file.
A document is found in a file just if a loader loads it from there (`inspect_eq_some_iff`), and a
loader that is asked for the path looks there if the path is in its form (`Askable.document_eq`).

What is found comes in the order of the paths, whatever the order of the walk past the files. So it
is told by its members alone (`eq_of_mem_iff`), and those are the documents in the files that can be
used (`Usable`): other files make no difference, and neither does the walk (`discoverOn_eq`).
-/

namespace Playtest.Resource

open Playtest.Text

variable {t t' : Tree} {directory path : String} {names p q : Place} {content : Content}
  {d : Document} {x : Discovered} {walk : List Place}

/-! ### The order of places -/

/-- A place comes before another one in the order of their names, or is the same. -/
theorem comesBefore_iff : Tree.comesBefore p q = true ↔ p < q ∨ p = q := by
  fun_induction Tree.comesBefore p q with
  | case1 q =>
    cases q with
    | nil => simp
    | cons b q => simp
  | case2 a p => simp
  -- the first names decide, and the others if these are the same
  | case3 a p b q ih =>
    rw [List.cons_lt_cons_iff, Bool.or_eq_true, Bool.and_eq_true, decide_eq_true_iff,
      beq_iff_eq, ih]
    simp only [List.cons.injEq, and_or_left, or_assoc]

/-- The order of places is transitive. -/
theorem comesBefore_trans {r : Place} (hpq : Tree.comesBefore p q = true)
    (hqr : Tree.comesBefore q r = true) : Tree.comesBefore p r = true := by
  rw [comesBefore_iff] at *
  obtain hpq | rfl := hpq
  · obtain hqr | rfl := hqr
    · exact .inl (List.lt_trans hpq hqr)
    · exact .inl hpq
  · exact hqr

/-- It is total. -/
theorem comesBefore_total (p q : Place) :
    (Tree.comesBefore p q || Tree.comesBefore q p) = true := by
  rw [Bool.or_eq_true, comesBefore_iff, comesBefore_iff]
  obtain h | rfl | h : p < q ∨ p = q ∨ q < p := Std.Trichotomous.rel_or_eq_or_rel_swap
  · exact .inl (.inl h)
  · exact .inl (.inr rfl)
  · exact .inr (.inl h)

/-! ### Walks -/

/-- A **walk** past the files below a directory comes past each of them once. -/
structure Tree.IsWalk (t : Tree) (directory : String) (walk : List Place) : Prop where
  nodup : walk.Nodup
  mem_iff : ∀ names, names ∈ walk ↔ ∃ content, t.HasFile directory names content

/-- What is below a place begins with its names. -/
theorem isBelow_iff {place : Place} :
    isBelow place p = true ↔
      ∃ names, p = place ++ names ∧ isBelow place (place ++ names) = true := by
  constructor
  · intro h
    obtain ⟨names, rfl⟩ := List.isPrefixOf_iff_prefix.mp (Bool.and_eq_true_iff.mp h).1
    exact ⟨names, rfl, h⟩
  · rintro ⟨names, rfl, h⟩
    exact h

/-- The files below a place, each by the names that lead to it from there. -/
theorem mem_filesBelow_iff {place : Place} : names ∈ t.filesBelow place ↔
    ∃ content, isBelow place (place ++ names) = true ∧ (place ++ names, content) ∈ t ∧
      content ≠ .directory := by
  unfold Tree.filesBelow
  rw [List.mem_mergeSort, List.mem_filterMap]
  constructor
  · rintro ⟨⟨p, content⟩, hmem, hrest⟩
    obtain ⟨hcond, hrest⟩ := Option.ite_none_right_eq_some.mp hrest
    obtain ⟨hbelow, hfile⟩ := Bool.and_eq_true_iff.mp hcond
    -- what is below the place is given by the names behind it
    obtain ⟨names', rfl, hbelow⟩ := isBelow_iff.mp hbelow
    obtain rfl : names' = names := by simpa using hrest
    exact ⟨content, hbelow, hmem, bne_iff_ne.mp hfile⟩
  · rintro ⟨content, hbelow, hmem, hfile⟩
    refine ⟨_, hmem, Option.ite_none_right_eq_some.mpr ⟨?_, ?_⟩⟩
    · rw [hbelow, bne_iff_ne.mpr hfile]
      rfl
    · rw [List.drop_left]

/-- The files below a directory are a walk past them. -/
theorem Tree.Proper.isWalk_filesBelow {place : Place} (hproper : t.Proper)
    (h : t.locate directory = .ok place) : t.IsWalk directory (t.filesBelow place) where
  nodup := by
    refine (List.mergeSort_perm _ _).nodup_iff.mpr (List.pairwise_filterMap.mpr ?_)
    -- two files under the same names from one place would be one file
    refine (List.pairwise_map.mp hproper.nodup).imp
      fun {entry other} hne names hnames names' hnames' heq => hne ?_
    obtain ⟨hcond, hnames⟩ := Option.ite_none_right_eq_some.mp hnames
    obtain ⟨hcond', hnames'⟩ := Option.ite_none_right_eq_some.mp hnames'
    obtain ⟨rest, hrest, -⟩ := isBelow_iff.mp (Bool.and_eq_true_iff.mp hcond).1
    obtain ⟨rest', hrest', -⟩ := isBelow_iff.mp (Bool.and_eq_true_iff.mp hcond').1
    rw [hrest, List.drop_left] at hnames
    rw [hrest', List.drop_left] at hnames'
    rw [hrest, hrest', Option.some.inj hnames, Option.some.inj hnames', heq]
  mem_iff names := mem_filesBelow_iff.trans (exists_congr fun _ => (hasFile_iff h).symm)

/-- What is discovered below a directory is found on a walk. -/
theorem Tree.Proper.exists_isWalk (hproper : t.Proper)
    (hdirectory : t.isDirectory directory = true) :
    ∃ walk, t.IsWalk directory walk ∧
      discover? t directory = some (discoverOn t directory walk) := by
  unfold isDirectory at hdirectory
  cases hlocate : t.locate directory with
  -- what is not there is no directory
  | error fault =>
    rw [hlocate] at hdirectory
    cases hdirectory
  | ok place =>
    rw [hlocate] at hdirectory
    refine ⟨t.filesBelow place, hproper.isWalk_filesBelow hlocate, ?_⟩
    unfold discover? filesIn?
    rw [hlocate]
    dsimp only
    rw [if_pos hdirectory, Option.map_some]

/-! ### Files that can be used -/

/-- **A document is found in a file just if a loader loads it from there.** -/
theorem inspect_eq_some_iff (root : String) :
    (inspect t path).1 = some x ↔
      x.path = path ∧ (Loader.mk root t).ofFile path = .ok x.document := by
  rw [Loader.ofFile_eq_ok_iff]
  unfold inspect
  constructor
  · -- what is found was read, understood and not too new
    intro h
    split at h
    · cases h
    · next json hread =>
      split at h
      · cases h
      · next document htext =>
        split at h
        · cases h
        · next hold =>
          obtain rfl := Option.some.inj h
          exact ⟨rfl, json, hread, htext, hold⟩
  · rintro ⟨rfl, json, hread, htext, hold⟩
    simp only [hread, htext, hold]

/-- A file can be **used** as a document, by the names that lead to it from a directory and what is
in it. -/
structure Usable (directory : String) (names : Place) (content : Content) (d : Document) :
    Prop where
  name : isDocumentName names = true
  fits : checkPath (names.foldl joinPath directory) = .ok ()
  text : ∃ json, content = .text json ∧ Document.ofText json = .ok d
  supported : d.unsupported? = none

/-- **A loader loads from a file just what it can be used as.** -/
theorem Tree.HasFile.ofFile_eq_ok_iff (hfile : t.HasFile directory names content)
    (hproper : t.Proper) (hname : isDocumentName names = true) (root : String) :
    (Loader.mk root t).ofFile (names.foldl joinPath directory) = .ok d ↔
      Usable directory names content d := by
  rw [Loader.ofFile_eq_ok_iff]
  constructor
  · rintro ⟨json, hread, htext, hold⟩
    obtain ⟨hfits, hcontent⟩ := (hproper.read_of_hasFile hfile).mp hread
    exact ⟨hname, hfits, ⟨json, hcontent, htext⟩, hold⟩
  · rintro ⟨-, hfits, ⟨json, hcontent, htext⟩, hold⟩
    exact ⟨json, (hproper.read_of_hasFile hfile).mpr ⟨hfits, hcontent⟩, htext, hold⟩

/-- What is found on a walk are the documents in the files that can be used. -/
theorem Tree.IsWalk.mem_discoverOn_iff (hwalk : t.IsWalk directory walk) (hproper : t.Proper) :
    x ∈ (discoverOn t directory walk).1 ↔ ∃ names content, t.HasFile directory names content ∧
      x.path = names.foldl joinPath directory ∧ Usable directory names content x.document := by
  unfold discoverOn
  rw [List.mem_mergeSort, List.mem_filterMap]
  constructor
  · -- found by its names on the walk, and by the loader in its file
    rintro ⟨found, hfound, hx⟩
    obtain ⟨names, hnames, rfl⟩ := List.mem_map.mp hfound
    obtain ⟨hmem, hname⟩ := List.mem_filter.mp hnames
    obtain ⟨content, hfile⟩ := (hwalk.mem_iff names).mp hmem
    obtain ⟨hpath, hload⟩ := (inspect_eq_some_iff directory).mp hx
    exact ⟨names, content, hfile, hpath, (hfile.ofFile_eq_ok_iff hproper hname directory).mp hload⟩
  · rintro ⟨names, content, hfile, hpath, husable⟩
    have hmem : names ∈ walk := (hwalk.mem_iff names).mpr ⟨content, hfile⟩
    have hload := (hfile.ofFile_eq_ok_iff hproper husable.name directory).mpr husable
    refine ⟨inspect t (names.foldl joinPath directory), List.mem_map.mpr ⟨names, ?_, rfl⟩, ?_⟩
    · exact List.mem_filter.mpr ⟨hmem, husable.name⟩
    · exact (inspect_eq_some_iff directory).mpr ⟨hpath, hload⟩

/-! ### The order of what is found -/

/-- Documents under different paths come in the order of their paths once they are sorted. -/
theorem pairwise_mergeSort {xs : List Discovered}
    (h : xs.Pairwise fun a b => namesIn a.path ≠ namesIn b.path) :
    (xs.mergeSort fun a b => Tree.comesBefore (namesIn a.path) (namesIn b.path)).Pairwise fun a b =>
      namesIn a.path < namesIn b.path := by
  set before := fun a b : Discovered => Tree.comesBefore (namesIn a.path) (namesIn b.path)
  have hsorted : (xs.mergeSort before).Pairwise fun a b => before a b = true := by
    refine List.pairwise_mergeSort ?_ ?_ xs
    · intro a b c
      exact comesBefore_trans
    · intro a b
      exact comesBefore_total _ _
  -- documents under different paths are not at one place of the order
  have hdistinct := ((List.mergeSort_perm xs before).pairwise_iff Ne.symm).mpr h
  exact (hsorted.and hdistinct).imp fun ⟨hbefore, hne⟩ =>
    (comesBefore_iff.mp hbefore).resolve_right hne

/-- **What is found comes in the order of the paths**, and there is one document under each path. -/
theorem Tree.IsWalk.pairwise_discoverOn (hwalk : t.IsWalk directory walk) (hproper : t.Proper) :
    (discoverOn t directory walk).1.Pairwise fun a b => namesIn a.path < namesIn b.path := by
  unfold discoverOn
  refine pairwise_mergeSort (List.pairwise_filterMap.mpr (List.pairwise_map.mpr ?_))
  -- the walk comes past each file once, and what is found in a file is under its path
  refine (hwalk.nodup.filter _).imp_of_mem fun {names names'} hnames hnames' hne a ha b hb heq =>
    hne ?_
  obtain ⟨content, hfile⟩ := (hwalk.mem_iff names).mp (List.mem_filter.mp hnames).1
  obtain ⟨content', hfile'⟩ := (hwalk.mem_iff names').mp (List.mem_filter.mp hnames').1
  rw [((inspect_eq_some_iff directory).mp ha).1, ((inspect_eq_some_iff directory).mp hb).1] at heq
  exact hproper.names_eq hfile hfile' heq

/-- What comes in the order of the paths is told by its members. -/
theorem eq_of_mem_iff {xs ys : List Discovered}
    (hxs : xs.Pairwise fun a b => namesIn a.path < namesIn b.path)
    (hys : ys.Pairwise fun a b => namesIn a.path < namesIn b.path) (h : ∀ x, x ∈ xs ↔ x ∈ ys) :
      xs = ys := by
  have : Std.Antisymm fun a b : Discovered => namesIn a.path < namesIn b.path :=
    ⟨fun a b hab hba => absurd hba (List.lt_asymm hab)⟩
  have : Std.Irrefl fun a b : Discovered => namesIn a.path < namesIn b.path :=
    ⟨fun a => List.lt_irrefl _⟩
  exact hxs.eq_of_mem_iff hys h

/-- **Files that cannot be used make no difference**, and neither does the walk. -/
theorem discoverOn_eq {walk' : List Place} (hproper : t.Proper) (hproper' : t'.Proper)
    (hwalk : t.IsWalk directory walk) (hwalk' : t'.IsWalk directory walk')
    (h : ∀ names content d, Usable directory names content d →
      (t'.HasFile directory names content ↔ t.HasFile directory names content)) :
    (discoverOn t' directory walk').1 = (discoverOn t directory walk).1 := by
  refine eq_of_mem_iff (hwalk'.pairwise_discoverOn hproper') (hwalk.pairwise_discoverOn hproper)
    fun x => ?_
  rw [hwalk'.mem_discoverOn_iff hproper', hwalk.mem_discoverOn_iff hproper]
  refine exists_congr fun names => exists_congr fun content => ?_
  exact and_congr_left fun ⟨_, husable⟩ => h names content x.document husable

/-! ### Asking for a file -/

/-- The path of some names is one that a loader can be **asked** for: it ends as documents do,
behind a stem, and it stays what it is in its form. -/
structure Askable (names : Place) : Prop where
  ending : ∃ stem : String, stem ≠ "" ∧ names.getLast? = some (stem ++ ".json")
  forward : '\\' ∉ (pathOf names).toList
  noBlankFirst : ∀ c ∈ (pathOf names).toList.head?, isBlank c = false
  noDrive : ¬ BeginsWithDrive (pathOf names).toList

namespace Askable

theorem isDocumentName (h : Askable names) : isDocumentName names = true := by
  obtain ⟨stem, hstem, hlast⟩ := h.ending
  unfold Resource.isDocumentName
  rw [hlast]
  dsimp only
  rw [Bool.and_eq_true, decide_eq_true_iff, String.toList_append, List.length_append]
  refine ⟨List.isSuffixOf_iff_suffix.mpr (List.suffix_append _ _), ?_⟩
  exact Nat.lt_add_of_pos_left (List.length_pos_iff.mpr (mt String.toList_eq_nil_iff.mp hstem))

/-- The path of names that can be asked for is in its form. -/
theorem isResourcePath (h : Askable names) (hnames : ∀ name ∈ names, IsName name)
    (hne : names ≠ []) : IsResourcePath (pathOf names) := by
  obtain ⟨stem, -, hlast⟩ := h.ending
  obtain ⟨front, name, hname, hpath⟩ := exists_pathOf_eq hnames hne
  obtain rfl : stem ++ ".json" = name := Option.some.inj (hlast.symm.trans hname)
  have hsuffixed : suffix <:+ (pathOf names).toList := by
    rw [hpath, String.toList_append, ← List.append_assoc]
    exact List.suffix_append _ _
  constructor
  -- its names are no paths of their own, and the rest is what can be asked for
  case notEmpty => exact (isUnslashed_pathOf hnames hne).notEmpty
  case forward => exact h.forward
  case relative => exact (isUnslashed_pathOf hnames hne).first
  case noDrive => exact h.noDrive
  case noBlankFirst => exact h.noBlankFirst
  case noBlankLast => exact isBlank_getLast?_of_suffix hsuffixed
  case suffixed => exact hsuffixed

/-- **A loader is asked for a file under its names** and looks for it where discovery comes past
it. -/
theorem document_eq (h : Askable names) (hnames : ∀ name ∈ names, IsName name) (hne : names ≠ [])
    (t : Tree) (root : String) :
    (Loader.mk root t).document (pathOf names) =
      (Loader.mk root t).ofFile (names.foldl joinPath root) := by
  have hform : resourcePath? (pathOf names) = some (pathOf names) :=
    resourcePath?_eq_self_iff.mpr (h.isResourcePath hnames hne)
  unfold Loader.document Loader.file?
  rw [hform, foldl_joinPath hnames hne]
  rfl

end Askable

/-- **A file that can be asked for is discovered just if it is loaded**, and with the same
document. -/
theorem Tree.IsWalk.mem_discoverOn_iff_document (hwalk : t.IsWalk directory walk)
    (hproper : t.Proper) (hfile : t.HasFile directory names content) (hask : Askable names) :
    ⟨joinPath directory (pathOf names), d⟩ ∈ (discoverOn t directory walk).1 ↔
      (Loader.mk directory t).document (pathOf names) = .ok d := by
  obtain ⟨hne, hnames⟩ := hproper.names_of_hasFile hfile
  rw [hask.document_eq hnames hne, hwalk.mem_discoverOn_iff hproper,
    hfile.ofFile_eq_ok_iff hproper hask.isDocumentName, ← foldl_joinPath hnames hne]
  constructor
  · rintro ⟨names', content', hfile', heq, husable⟩
    -- no other file is under this path, and the file has one content
    obtain rfl : names = names' := hproper.names_eq hfile hfile' (congrArg namesIn heq)
    exact (hfile.ofFile_eq_ok_iff hproper husable.name directory).mp
      ((hfile'.ofFile_eq_ok_iff hproper husable.name directory).mpr husable)
  · intro husable
    exact ⟨names, content, hfile, rfl, husable⟩

/-- **Discovery and loading agree.** Below a directory of a proper tree, a file that can be asked
for is discovered just if a loader that is rooted there loads its path, and with the same document.
What is discovered comes in the order of the paths, whatever the order of the walk, and each file is
in it once at most. Another tree with the same files that can be used, whatever else is in it, gives
the same. -/
theorem discovery_agrees_with_loading (t : Tree) (directory : String) (hproper : t.Proper)
    (hdirectory : t.isDirectory directory = true) :
    ∃ found messages, discover? t directory = some (found, messages) ∧
      (∀ walk, t.IsWalk directory walk → (discoverOn t directory walk).1 = found) ∧
      (∀ names content, t.HasFile directory names content → Askable names → ∀ d,
        ⟨joinPath directory (pathOf names), d⟩ ∈ found ↔
          (Loader.mk directory t).document (pathOf names) = .ok d) ∧
      (∀ x ∈ found, ∃ names content, t.HasFile directory names content ∧
        x.path = joinPath directory (pathOf names)) ∧
      (found.map Discovered.path).Nodup ∧
        (found.Pairwise fun a b => namesIn a.path < namesIn b.path) ∧
      ∀ t' : Tree, t'.Proper → t'.isDirectory directory = true →
        (∀ names content d, Usable directory names content d →
          (t'.HasFile directory names content ↔ t.HasFile directory names content)) →
        ∃ messages', discover? t' directory = some (found, messages') := by
  -- what is discovered was found on some walk, and all of this holds of what is found on any
  obtain ⟨walk, hwalk, hdiscover⟩ := hproper.exists_isWalk hdirectory
  have hsorted := hwalk.pairwise_discoverOn hproper
  refine ⟨(discoverOn t directory walk).1, _, hdiscover, fun walk' hwalk' => ?_, ?_, ?_,
    ?_, hsorted, ?_⟩
  · -- another walk past the same files
    exact discoverOn_eq hproper hproper hwalk hwalk' fun _ _ _ _ => Iff.rfl
  · intro names content hfile hask d
    exact hwalk.mem_discoverOn_iff_document hproper hfile hask
  · intro x hx
    obtain ⟨names, content, hfile, hpath, -⟩ := (hwalk.mem_discoverOn_iff hproper).mp hx
    exact ⟨names, content, hfile, hpath.trans (hproper.path_of_hasFile hfile).1⟩
  · -- a path does not come before itself
    refine List.pairwise_map.mpr (hsorted.imp fun {a b} hbefore heq => ?_)
    rw [heq] at hbefore
    exact List.lt_irrefl _ hbefore
  · intro t' hproper' hdirectory' hsame
    obtain ⟨walk', hwalk', hdiscover'⟩ := hproper'.exists_isWalk hdirectory'
    refine ⟨(discoverOn t' directory walk').2, ?_⟩
    rw [hdiscover', ← discoverOn_eq hproper hproper' hwalk hwalk' hsame]

/-- A tree with a list, and what else may be beside it. -/
def attic (others : List (Place × Content)) : Tree :=
  (["res", "lists", "tour.json"], .text "\x7b\"segments\":[]\x7d") :: others

/-- The list is found and loaded, and a file beside it with a number in it makes no difference. -/
theorem attic_is_discovered :
    let t := attic [(["res", "seven.json"], .text "7")]
    t.Proper ∧ t.isDirectory "res" = true ∧
      (∃ found messages messages', discover? t "res" = some (found, messages) ∧
        discover? (attic []) "res" = some (found, messages') ∧
        ∀ d, ⟨"res/lists/tour.json", d⟩ ∈ found ↔
          (Loader.mk "res" t).document "lists/tour.json" = .ok d) ∧
      ((Loader.mk "res" t).document "lists/tour.json").isOk = true := by
  intro t
  have hnamed : ∀ t : Tree, (∀ entry ∈ t, ∀ name ∈ entry.1, IsName name) →
      ∀ entry ∈ t, ∃ base names, entry.1 = base ++ names ∧
        (base = ["/"] ∨ ∀ name ∈ base, name = "..") ∧ ∀ name ∈ names, IsName name :=
    fun t hnames entry hentry =>
      ⟨[], entry.1, rfl, .inr (List.forall_mem_nil _), hnames entry hentry⟩
  have hproper : t.Proper :=
    { nodup := by decide, leaf := by decide, named := hnamed t (by decide) }
  have hproper' : (attic []).Proper :=
    { nodup := by decide, leaf := by decide, named := hnamed _ (by decide) }
  have hdirectory : t.isDirectory "res" = true := by decide
  obtain ⟨found, messages, hfound, -, hloads, -, -, -, hsame⟩ :=
    discovery_agrees_with_loading t "res" hproper hdirectory
  have hlocate : t.locate "res" = .ok ["res"] := rfl
  have hlocate' : (attic []).locate "res" = .ok ["res"] := rfl
  have hload : ((Loader.mk "res" t).document "lists/tour.json").isOk = true := by decide +kernel
  -- the number is a file of `t` alone, and no document
  have hother : ∀ names content d, Usable "res" names content d →
      ((attic []).HasFile "res" names content ↔ t.HasFile "res" names content) := by
    intro names content d husable
    rw [Tree.hasFile_iff hlocate', Tree.hasFile_iff hlocate]
    refine and_congr_right fun _ => and_congr_left fun _ => ⟨fun hmem => ?_, fun hmem => ?_⟩
    · exact List.mem_append_left [_] hmem
    · obtain heq | hmem := List.mem_cons.mp hmem
      · exact List.mem_cons.mpr (.inl heq)
      · obtain ⟨json, rfl, htext⟩ := husable.text
        cases List.mem_singleton.mp hmem
        have hnone : (Document.ofText "7").isOk = false := by decide +kernel
        rw [htext] at hnone
        cases hnone
  obtain ⟨messages', hfound'⟩ := hsame (attic []) hproper' (by decide) hother
  have hask : Askable ["lists", "tour.json"] :=
    { ending := ⟨"tour", by decide, rfl⟩
      forward := by decide
      noBlankFirst := by
        intro c hc
        obtain rfl : 'l' = c := Option.some.inj hc
        rfl
      noDrive := hasDrive_iff.not.mp (by decide) }
  have hfile : t.HasFile "res" ["lists", "tour.json"] (.text "\x7b\"segments\":[]\x7d") :=
    (Tree.hasFile_iff hlocate).mpr ⟨rfl, List.mem_cons_self, by decide⟩
  exact ⟨hproper, hdirectory, ⟨found, messages, messages', hfound, hfound', hloads _ _ hfile hask⟩,
    hload⟩

end Playtest.Resource
