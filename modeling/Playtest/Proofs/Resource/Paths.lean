import Playtest.Proofs.Text.Trimming
import Playtest.Resource.Path
import Playtest.Resource.Tree

/-!
# Resource paths have one form

A resource path is brought into a form in which nothing is left to change: a relative path with
forward slashes, without blanks around it, that ends as documents do (`IsResourcePath`). The paths
in this form are just those that come to themselves (`resourcePath?_eq_self_iff`), and however a
path is spelled, with slashes of either kind or blanks around it, it comes to the same one, or to
none (`resourcePath?_of_spelling`).

Seen from a directory such a path begins with the directory (`namesIn_joinPath`). It would not if it
began with a slash.

* a path is trimmed before its slashes are turned, but no slash is blank, so the order makes no
  difference (`trim_map`),
* the ending is put behind a path that has a beginning, so it makes no path foreign
  (`isForeign_withSuffix`).
-/

namespace Playtest.Resource

open Playtest.Text

variable {cs ds : List Char} {p p' q root : String}

/-! ### The form of a resource path -/

/-- A path that **begins with a drive**: a letter and a colon. -/
def BeginsWithDrive (cs : List Char) : Prop :=
  ∃ letter rest, cs = letter :: ':' :: rest ∧ letter.isAlpha = true

/-- The form of a **resource path**. -/
structure IsResourcePath (q : String) : Prop where
  notEmpty : q ≠ ""
  forward : '\\' ∉ q.toList
  relative : q.toList.head? ≠ some '/'
  noDrive : ¬ BeginsWithDrive q.toList
  noBlankFirst : ∀ c ∈ q.toList.head?, isBlank c = false
  noBlankLast : ∀ c ∈ q.toList.getLast?, isBlank c = false
  suffixed : suffix <:+ q.toList

/-- A character with its slash turned. -/
def forward (c : Char) : Char := if c = '\\' then '/' else c

theorem slashed_eq (p : String) : slashed p = (trim p.toList).map forward := rfl

/-- Turning slashes makes nothing blank. -/
theorem isBlank_forward (c : Char) : isBlank (forward c) = isBlank c := by
  unfold forward
  split
  · next h =>
    subst h
    decide
  · rfl

/-- No backslash is left. -/
theorem forward_ne (c : Char) : forward c ≠ '\\' := by
  unfold forward
  split
  · decide
  · next h => exact h

/-- Everything else stays as it is. -/
theorem forward_eq_self {c : Char} (h : c ≠ '\\') : forward c = c := if_neg h

/-- Turned slashes stay as they are. -/
theorem map_forward_eq_self (h : '\\' ∉ cs) : cs.map forward = cs := by
  conv => rhs; rw [← List.map_id cs]
  refine List.map_congr_left fun c hc => forward_eq_self ?_
  rintro rfl
  exact h hc

/-- The order of the two makes no difference. -/
theorem slashed_eq_trim (p : String) : slashed p = trim (p.toList.map forward) :=
  (trim_map isBlank_forward _).symm

theorem not_mem_map_forward (cs : List Char) : '\\' ∉ cs.map forward := by
  intro h
  obtain ⟨c, -, hc⟩ := List.mem_map.mp h
  exact forward_ne c hc

/-- The test for a drive. -/
theorem hasDrive_iff : hasDrive cs = true ↔ BeginsWithDrive cs := by
  unfold BeginsWithDrive
  fun_cases hasDrive cs with
  | case1 letter rest => simp
  | case2 cs h =>
    refine iff_of_false Bool.false_ne_true ?_
    rintro ⟨letter, rest, rfl, -⟩
    exact h letter rest rfl

/-- A path is our own if it is not empty and begins neither with a slash nor with a drive. -/
theorem isForeign_eq_false_iff :
    isForeign cs = false ↔ cs ≠ [] ∧ cs.head? ≠ some '/' ∧ ¬ BeginsWithDrive cs := by
  rw [← hasDrive_iff]
  simp [isForeign, and_assoc]

/-! ### The ending -/

theorem suffix_eq : suffix = ['.', 'j', 's', 'o', 'n'] := rfl

/-- Every path gets its ending. -/
theorem suffix_withSuffix (cs : List Char) : suffix <:+ withSuffix cs := by
  unfold withSuffix
  split
  · next h => exact List.isSuffixOf_iff_suffix.mp h
  · exact List.suffix_append cs suffix

/-- What ends as documents do ends in no blank. -/
theorem isBlank_getLast?_of_suffix (h : suffix <:+ cs) : ∀ c ∈ cs.getLast?, isBlank c = false := by
  obtain ⟨front, rfl⟩ := h
  intro c hc
  have hlast : (front ++ suffix).getLast? = some 'n' := by simp [suffix_eq]
  rw [hlast] at hc
  rw [← Option.mem_some_iff.mp hc]
  decide

/-- The ending comes last. -/
theorem prefix_withSuffix (cs : List Char) : cs <+: withSuffix cs := by
  unfold withSuffix
  split
  · exact List.prefix_rfl
  · exact List.prefix_append cs suffix

/-- It is not put behind a path that has it. -/
theorem withSuffix_eq_self (h : suffix <:+ cs) : withSuffix cs = cs :=
  if_pos (List.isSuffixOf_iff_suffix.mpr h)

/-- The ending brings in nothing but its own letters. -/
theorem mem_withSuffix {c : Char} (h : c ∈ withSuffix cs) : c ∈ cs ∨ c ∈ suffix := by
  unfold withSuffix at h
  split at h
  · exact .inl h
  · exact List.mem_append.mp h

theorem head?_withSuffix (h : cs ≠ []) : (withSuffix cs).head? = cs.head? := by
  obtain ⟨rest, heq⟩ := prefix_withSuffix cs
  rw [← heq, List.head?_append_of_ne_nil _ h]

/-- What has a beginning does not get a drive from its ending. -/
theorem beginsWithDrive_withSuffix (h : cs ≠ []) :
    BeginsWithDrive (withSuffix cs) ↔ BeginsWithDrive cs := by
  obtain ⟨rest, heq⟩ := prefix_withSuffix cs
  match cs, h with
  | [c], _ =>
    -- behind a single character comes the dot of the ending
    have hsuffix : withSuffix [c] = c :: suffix := if_neg (by simp [suffix_eq, List.isSuffixOf])
    rw [hsuffix]
    simp [BeginsWithDrive, suffix_eq]
  | c :: d :: cs, _ =>
    rw [← heq]
    simp [BeginsWithDrive]

/-- **What is no foreign path is none with its ending.** -/
theorem isForeign_withSuffix (h : isForeign cs = false) : isForeign (withSuffix cs) = false := by
  obtain ⟨hne, hslash, hdrive⟩ := isForeign_eq_false_iff.mp h
  refine isForeign_eq_false_iff.mpr ⟨?_, ?_, ?_⟩
  · rintro hnil
    exact hne (List.prefix_nil.mp (hnil ▸ prefix_withSuffix cs))
  · rwa [head?_withSuffix hne]
  · rwa [beginsWithDrive_withSuffix hne]

/-! ### Paths in their form -/

/-- A path that is our own comes to itself with slashes turned and with its ending. -/
theorem resourcePath?_eq_some_iff :
    resourcePath? p = some q ↔
      isForeign (slashed p) = false ∧ q = String.ofList (withSuffix (slashed p)) := by
  unfold resourcePath?
  cases isForeign (slashed p) with
  | true => simp
  | false => simp [eq_comm]

/-- **What a path comes to is in the form.** -/
theorem isResourcePath_of_resourcePath? (h : resourcePath? p = some q) : IsResourcePath q := by
  obtain ⟨hown, rfl⟩ := resourcePath?_eq_some_iff.mp h
  obtain ⟨hne, -, -⟩ := isForeign_eq_false_iff.mp hown
  -- the path is our own with its suffix as well
  obtain ⟨hne', hslash, hdrive⟩ := isForeign_eq_false_iff.mp (isForeign_withSuffix hown)
  constructor
  case notEmpty => simpa using hne'
  case forward =>
    rw [String.toList_ofList]
    intro hmem
    obtain hmem | hmem := mem_withSuffix hmem
    · exact not_mem_map_forward _ hmem
    · -- there is no backslash in the suffix
      simp [suffix_eq] at hmem
  case relative => rwa [String.toList_ofList]
  case noDrive => rwa [String.toList_ofList]
  case noBlankFirst =>
    rw [String.toList_ofList, head?_withSuffix hne, slashed_eq_trim]
    exact isBlank_head?_trim _
  case noBlankLast =>
    rw [String.toList_ofList]
    exact isBlank_getLast?_of_suffix (suffix_withSuffix _)
  case suffixed =>
    rw [String.toList_ofList]
    exact suffix_withSuffix _

/-- Nothing is left to trim or to turn in the form. -/
theorem IsResourcePath.slashed_eq (h : IsResourcePath q) : slashed q = q.toList := by
  rw [slashed_eq_trim, map_forward_eq_self h.forward, trim_eq_self h.noBlankFirst h.noBlankLast]

/-- **The form of a path is what comes to itself.** -/
theorem resourcePath?_eq_self_iff : resourcePath? q = some q ↔ IsResourcePath q := by
  refine ⟨isResourcePath_of_resourcePath?, fun h => resourcePath?_eq_some_iff.mpr ?_⟩
  rw [h.slashed_eq]
  refine ⟨isForeign_eq_false_iff.mpr ⟨fun hnil => h.notEmpty ?_, h.relative, h.noDrive⟩, ?_⟩
  · exact String.toList_eq_nil_iff.mp hnil
  · rw [withSuffix_eq_self h.suffixed, String.ofList_toList]

/-! ### Spellings -/

/-- Another **spelling** of a path: all its slashes are turned forward, or blanks are put around it,
one after the other and any number of times. -/
inductive Spelling (p : String) : String → Prop where
  | same : Spelling p p
  | turned {p' : String} (h : Spelling p p') : Spelling p (String.ofList (p'.toList.map forward))
  | surrounded {p' : String} (h : Spelling p p') {front behind : String}
      (hfront : allBlank front = true) (hbehind : allBlank behind = true) :
      Spelling p (front ++ p' ++ behind)

/-- Turned slashes are turned to the same. -/
theorem slashed_turned (p : String) :
    slashed (String.ofList (p.toList.map forward)) = slashed p := by
  rw [slashed_eq_trim, slashed_eq_trim, String.toList_ofList,
    map_forward_eq_self (not_mem_map_forward _)]

/-- Blanks around a path are trimmed. -/
theorem slashed_surrounded {front behind : String} (hfront : allBlank front = true)
    (hbehind : allBlank behind = true) (p : String) :
    slashed (front ++ p ++ behind) = slashed p := by
  rw [slashed_eq, slashed_eq, String.toList_append, String.toList_append]
  rw [trim_surround (List.all_eq_true.mp hfront) (List.all_eq_true.mp hbehind)]

/-- **All spellings of a path come to the same.** -/
theorem resourcePath?_of_spelling (h : Spelling p p') : resourcePath? p' = resourcePath? p := by
  -- induction over how it is spelled: each change is undone by trimming and turning
  have hslashed : slashed p' = slashed p := by
    induction h with
    | same => rfl
    | turned _ ih => rw [slashed_turned, ih]
    | surrounded _ hfront hbehind ih => rw [slashed_surrounded hfront hbehind, ih]
  unfold resourcePath?
  rw [hslashed]

/-! ### Paths as they are seen from a directory -/

theorem parts_ne_nil (cs : List Char) : parts cs ≠ [] := by
  fun_cases parts cs <;> exact List.cons_ne_nil _ _

/-- A slash cuts a path. -/
theorem parts_append (cs ds : List Char) : parts (cs ++ '/' :: ds) = parts cs ++ parts ds := by
  fun_induction parts cs with
  | case1 => rfl
  | case2 cs ih => rw [List.cons_append, parts, ih, List.cons_append]
  | case3 c cs hc hnil ih => exact absurd hnil (parts_ne_nil cs)
  | case4 c cs hc part more hparts ih =>
    rw [hparts, List.cons_append] at ih
    rw [List.cons_append, parts.eq_3 _ _ hc, ih]
    rfl

/-- A slash between two paths cuts them apart. -/
theorem components_append (p q : String) :
    components (p ++ "/" ++ q) = components p ++ components q := by
  unfold components
  rw [String.append_assoc, String.toList_append, String.toList_append]
  rw [show "/".toList ++ q.toList = '/' :: q.toList from rfl, parts_append, List.map_append,
    List.filter_append]

theorem components_slash (p : String) : components (p ++ "/") = components p := by
  have happend := components_append p ""
  rwa [String.append_empty, show components "" = [] from by decide, List.append_nil] at happend

/-- A path begins where the directory begins that it is behind. -/
theorem origin_append (hp : p ≠ "") (q : String) : origin (p ++ q) = origin p := by
  unfold origin
  rw [String.toList_append, List.head?_append_of_ne_nil _ (mt String.toList_eq_nil_iff.mp hp)]

/-- The names of a relative path are its components, apart from dots. -/
theorem namesIn_of_relative (h : q.toList.head? ≠ some '/') :
    namesIn q = (components q).filter (· != ".") := by
  unfold namesIn origin
  rw [if_neg h, List.nil_append]

theorem namesIn_slash (hp : p ≠ "") : namesIn (p ++ "/") = namesIn p := by
  unfold namesIn
  rw [origin_append hp, components_slash]

theorem append_slash_ne_empty (p : String) : p ++ "/" ≠ "" := by
  intro heq
  have hnil := congrArg String.toList heq
  simp at hnil

/-- Behind a slash, a relative path adds its names to those in front. -/
theorem namesIn_behind (p : String) (h : q.toList.head? ≠ some '/') :
    namesIn (p ++ "/" ++ q) = namesIn (p ++ "/") ++ namesIn q := by
  rw [namesIn_of_relative h]
  unfold namesIn
  rw [origin_append (append_slash_ne_empty p), components_append, components_slash,
    List.filter_append, List.append_assoc]

/-- What a directory adds in front of the paths that are seen from it: itself, with a slash at its
end. -/
def lead (root : String) : String :=
  if root = "" then "" else if root.toList.getLast? = some '/' then root else root ++ "/"

/-- A relative path is put behind what the directory adds. -/
theorem joinPath_eq_lead (root : String) (h : q.toList.head? ≠ some '/') :
    joinPath root q = lead root ++ q := by
  unfold joinPath lead
  by_cases hroot : root = ""
  · rw [if_pos (.inr hroot), if_pos hroot, String.empty_append]
  · rw [if_neg (not_or.mpr ⟨h, hroot⟩), if_neg hroot]
    split <;> rfl

/-- Without a directory nothing is added, and otherwise a slash is behind it, once. -/
theorem lead_cases (root : String) :
    root = "" ∧ lead root = "" ∨
      ∃ p, lead root = p ++ "/" ∧ (root = p ++ "/" ∨ root = p ∧ p ≠ "") := by
  unfold lead
  split
  · next hroot => exact .inl ⟨hroot, rfl⟩
  · next hroot =>
    refine .inr ?_
    split
    · -- the slash that it ends in stays the only one
      next hlast =>
      obtain ⟨cs, hcs⟩ := List.getLast?_eq_some_iff.mp hlast
      have hslash : root = String.ofList cs ++ "/" := by
        apply String.toList_inj.mp
        rw [hcs, String.toList_append, String.toList_ofList]
        rfl
      exact ⟨String.ofList cs, hslash, .inl hslash⟩
    · exact ⟨root, rfl, .inr ⟨rfl, hroot⟩⟩

/-- **A path is seen behind the directory**: the directory is where it begins, and its names come
first. -/
theorem namesIn_joinPath (root : String) (h : q.toList.head? ≠ some '/') :
    root.toList <+: (joinPath root q).toList ∧
      namesIn (joinPath root q) = namesIn root ++ namesIn q := by
  rw [joinPath_eq_lead root h, String.toList_append]
  -- without a directory the path is all there is
  obtain ⟨rfl, hlead⟩ | ⟨p, hlead, hroot⟩ := lead_cases root
  · rw [hlead, String.empty_append]
    exact ⟨List.nil_prefix, rfl⟩
  · rw [hlead, namesIn_behind p h]
    obtain rfl | ⟨rfl, hp⟩ := hroot
    · exact ⟨List.prefix_append _ _, rfl⟩
    · rw [namesIn_slash hp, String.toList_append, List.append_assoc]
      exact ⟨List.prefix_append _ _, rfl⟩

/-- **Resource paths have one form.** A path that means a file comes to a path in the form, which
comes to itself; the form is nothing else than that. Seen from any directory, what it comes to
begins with that directory. All spellings of a path come to the same, or all to nothing. -/
theorem spellings_come_to_one_path :
    (∀ p q : String, resourcePath? p = some q → IsResourcePath q ∧ resourcePath? q = some q ∧
      ∀ root : String,
        root.toList <+: (joinPath root q).toList ∧
          namesIn (joinPath root q) = namesIn root ++ namesIn q) ∧
    (∀ q : String, IsResourcePath q → resourcePath? q = some q) ∧
    ∀ p p' : String, Spelling p p' → resourcePath? p' = resourcePath? p := by
  refine ⟨fun p q h => ?_, fun q => resourcePath?_eq_self_iff.mpr,
    fun p p' => resourcePath?_of_spelling⟩
  have hform : IsResourcePath q := isResourcePath_of_resourcePath? h
  exact ⟨hform, resourcePath?_eq_self_iff.mpr hform,
    fun root => namesIn_joinPath root hform.relative⟩

/-- A path to the menu, with blanks and backslashes, comes to the same as without. A drive stays
foreign. -/
theorem menu_has_one_path :
    resourcePath? "segments\\menu\\open" = some "segments/menu/open.json" ∧
      IsResourcePath "segments/menu/open.json" ∧
      resourcePath? "segments/menu/open.json" = some "segments/menu/open.json" ∧
      namesIn (joinPath "res/" "segments/menu/open.json") =
        namesIn "res/" ++ namesIn "segments/menu/open.json" ∧
      resourcePath? "  segments/menu/open " = some "segments/menu/open.json" ∧
      resourcePath? "C:\\segments\\a" = none ∧ resourcePath? " C:/segments/a" = none := by
  obtain ⟨hforms, -, hspellings⟩ := spellings_come_to_one_path
  have hmenu : resourcePath? "segments\\menu\\open" = some "segments/menu/open.json" := by
    decide +kernel
  have hdrive : resourcePath? "C:\\segments\\a" = none := by decide +kernel
  obtain ⟨hform, hself, hjoin⟩ := hforms _ _ hmenu
  refine ⟨hmenu, hform, hself, (hjoin "res/").2, ?_, hdrive, ?_⟩
  · -- turned first, and surrounded by blanks then
    have hspelling : Spelling "segments\\menu\\open" ("  " ++ "segments/menu/open" ++ " ") :=
      .surrounded (.turned .same) (by decide) (by decide)
    exact (hspellings _ _ hspelling).trans hmenu
  · have hspelling : Spelling "C:\\segments\\a" (" " ++ "C:/segments/a" ++ "") :=
      .surrounded (.turned .same) (by decide) (by decide)
    exact (hspellings _ _ hspelling).trans hdrive

end Playtest.Resource
