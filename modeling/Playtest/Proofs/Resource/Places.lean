import Playtest.Proofs.Resource.Appending
import Playtest.Proofs.Resource.Paths

/-!
# Files below a directory

A directory tree is a **proper** one if each place in it is listed once, under names, and nothing is
below a file (`Tree.Proper`). In such a tree a file below a directory is found at the end of its
path, which is that of the directory with the names of the file behind it
(`Tree.Proper.locate_of_hasFile`):

* the names of a file are those in its path (`namesIn_intercalate`), so they are followed behind
  those of the directory (`Tree.follow_append`),
* on the way there is a directory at each place, since the file is below it
  (`Tree.Proper.get?_above`).
-/

namespace Playtest.Resource

variable {root p q name : String} {names rest : Place} {place : Place} {content : Content}

/-! ### Names -/

/-- A **name** that a file or a directory can have. -/
structure IsName (name : String) : Prop where
  notEmpty : name ≠ ""
  notHere : name ≠ "."
  notUp : name ≠ ".."
  unslashed : '/' ∉ name.toList
  short : name.utf8ByteSize ≤ 255

instance : Decidable (IsName name) :=
  decidable_of_iff (name ≠ "" ∧ name ≠ "." ∧ name ≠ ".." ∧ '/' ∉ name.toList ∧
    name.utf8ByteSize ≤ 255)
    ⟨fun ⟨h₁, h₂, h₃, h₄, h₅⟩ => ⟨h₁, h₂, h₃, h₄, h₅⟩,
      fun ⟨h₁, h₂, h₃, h₄, h₅⟩ => ⟨h₁, h₂, h₃, h₄, h₅⟩⟩

/-- A relative path that **names something**: there is more to it than a slash at its end. -/
structure IsUnslashed (p : String) : Prop where
  notEmpty : p ≠ ""
  first : p.toList.head? ≠ some '/'
  last : p.toList.getLast? ≠ some '/'

/-- A name names something. -/
theorem IsName.isUnslashed (h : IsName name) : IsUnslashed name where
  notEmpty := h.notEmpty
  first heq := h.unslashed (List.mem_of_head? heq)
  last heq := h.unslashed (List.mem_of_getLast? heq)

namespace IsUnslashed

/-- Such a path has characters. -/
theorem toList_ne_nil (h : IsUnslashed p) : p.toList ≠ [] :=
  mt String.toList_eq_nil_iff.mp h.notEmpty

/-- One behind another names something, too. -/
theorem append (hp : IsUnslashed p) (hq : IsUnslashed q) : IsUnslashed (p ++ "/" ++ q) where
  notEmpty heq := by
    have hnil := congrArg String.toList heq
    simp at hnil
  first := by
    rw [String.append_assoc, String.toList_append, List.head?_append_of_ne_nil _ hp.toList_ne_nil]
    exact hp.first
  last := by
    rw [String.toList_append, List.getLast?_append_of_ne_nil _ hq.toList_ne_nil]
    exact hq.last

/-- It is put in front of others with a slash behind it. -/
theorem lead_eq (hp : IsUnslashed p) (root : String) : lead (root ++ p) = root ++ p ++ "/" := by
  unfold lead
  rw [if_neg, if_neg]
  · rw [String.toList_append, List.getLast?_append_of_ne_nil _ hp.toList_ne_nil]
    exact hp.last
  · intro heq
    have hnil := congrArg String.toList heq
    rw [String.toList_append] at hnil
    exact hp.toList_ne_nil (List.append_eq_nil_iff.mp hnil).2

/-- What is seen from a directory and then from there is seen from the directory. -/
theorem joinPath_joinPath (hp : IsUnslashed p) (hq : IsUnslashed q) (root : String) :
    joinPath (joinPath root p) q = joinPath root (p ++ "/" ++ q) := by
  rw [joinPath_eq_lead _ hq.first, joinPath_eq_lead _ hp.first,
    joinPath_eq_lead _ (hp.append hq).first, hp.lead_eq]
  simp only [String.append_assoc]

end IsUnslashed

/-! ### Names in a path -/

/-- The **path of some names**, relative to a directory. -/
def pathOf (names : List String) : String := "/".intercalate names

theorem pathOf_singleton (name : String) : pathOf [name] = name := String.intercalate_singleton

/-- The first name of a path comes before the others, with a slash between. -/
theorem pathOf_cons (name : String) (h : names ≠ []) :
    pathOf (name :: names) = name ++ "/" ++ pathOf names :=
  String.intercalate_cons_of_ne_nil h

section Names

variable (hnames : ∀ name ∈ names, IsName name) (hne : names ≠ [])

include hnames hne

/-- The path of names names something. -/
theorem isUnslashed_pathOf : IsUnslashed (pathOf names) := by
  induction names with
  | nil => exact absurd rfl hne
  | cons name names ih =>
    obtain ⟨hname, hnames⟩ := List.forall_mem_cons.mp hnames
    -- one name is the path itself
    by_cases hnil : names = []
    · rw [hnil, pathOf_singleton]
      exact hname.isUnslashed
    · rw [pathOf_cons name hnil]
      exact hname.isUnslashed.append (ih hnames hnil)

/-- A path that was made name by name is that of all the names. -/
theorem foldl_joinPath (root : String) :
    names.foldl joinPath root = joinPath root (pathOf names) := by
  -- a name that has been put behind the directory may be a path itself
  have hbehind : ∀ (names : List String) (p : String), (∀ name ∈ names, IsName name) →
      IsUnslashed p →
      names.foldl joinPath (joinPath root p) = joinPath root (pathOf (p :: names)) := by
    intro names
    induction names with
    | nil =>
      intro p _ _
      rw [pathOf_singleton]
      rfl
    | cons name names ih =>
      intro p hnames hp
      obtain ⟨hname, hnames⟩ := List.forall_mem_cons.mp hnames
      rw [List.foldl_cons, hp.joinPath_joinPath hname.isUnslashed,
        ih _ hnames (hp.append hname.isUnslashed)]
      rw [pathOf, String.intercalate_cons_append, ← pathOf, pathOf_cons p (List.cons_ne_nil _ _)]
  cases names with
  | nil => exact absurd rfl hne
  | cons name names =>
    obtain ⟨hname, hnames⟩ := List.forall_mem_cons.mp hnames
    exact hbehind names name hnames hname.isUnslashed

/-- The last name ends the path. -/
theorem exists_pathOf_eq :
    ∃ front name, names.getLast? = some name ∧ (pathOf names).toList = front ++ name.toList := by
  induction names with
  | nil => exact absurd rfl hne
  | cons name names ih =>
    obtain ⟨-, hnames⟩ := List.forall_mem_cons.mp hnames
    -- a single name is the path itself, and any other stands behind a slash
    by_cases hnil : names = []
    · rw [hnil, pathOf_singleton]
      exact ⟨[], name, rfl, rfl⟩
    · obtain ⟨front, last, hlast, hfront⟩ := ih hnames hnil
      refine ⟨(name ++ "/").toList ++ front, last, ?_, ?_⟩
      · rw [List.getLast?_cons, hlast]
        rfl
      · rw [pathOf_cons name hnil, String.toList_append, hfront, List.append_assoc]

end Names

/-! ### Parts of paths -/

/-- Without a slash there is one part. -/
theorem parts_of_unslashed {cs : List Char} (h : '/' ∉ cs) : parts cs = [cs] := by
  induction cs with
  | nil => rfl
  | cons c cs ih =>
    obtain ⟨hc, hcs⟩ := not_or.mp (List.mem_cons.not.mp h)
    rw [parts.eq_3 _ _ (Ne.symm hc), ih hcs]

theorem IsName.components_eq (h : IsName name) : components name = [name] := by
  unfold components
  rw [parts_of_unslashed h.unslashed, List.map_singleton, String.ofList_toList]
  simp [h.notEmpty]

/-- The names of a path are those that it was made of. -/
theorem namesIn_pathOf (hnames : ∀ name ∈ names, IsName name) (hne : names ≠ []) :
    namesIn (pathOf names) = names := by
  -- by the names, which are the components one by one
  have hcomponents : components (pathOf names) = names := by
    induction names with
    | nil => exact absurd rfl hne
    | cons name names ih =>
      obtain ⟨hname, hnames⟩ := List.forall_mem_cons.mp hnames
      by_cases hnil : names = []
      · rw [hnil, pathOf_singleton]
        exact hname.components_eq
      · rw [pathOf_cons name hnil, components_append, hname.components_eq, ih hnames hnil]
        rfl
  rw [namesIn_of_relative (isUnslashed_pathOf hnames hne).first, hcomponents]
  exact List.filter_eq_self.mpr fun name hname => bne_iff_ne.mpr (hnames name hname).notHere

/-- Whether a path can only mean a directory is seen behind its last slash. -/
theorem wantsDirectory_behind (p q : String) :
    wantsDirectory (p ++ "/" ++ q) = wantsDirectory q := by
  unfold wantsDirectory
  rw [String.append_assoc, String.toList_append, String.toList_append]
  rw [show "/".toList ++ q.toList = '/' :: q.toList from rfl, parts_append,
    List.getLast?_append_of_ne_nil _ (parts_ne_nil _)]

/-- So it is with a path that is seen from a directory. -/
theorem wantsDirectory_joinPath (root : String) (h : q.toList.head? ≠ some '/') :
    wantsDirectory (joinPath root q) = wantsDirectory q := by
  rw [joinPath_eq_lead root h]
  obtain ⟨-, hlead⟩ | ⟨p, hlead, -⟩ := lead_cases root
  · rw [hlead, String.empty_append]
  · rw [hlead, wantsDirectory_behind]

/-- The path of names may mean a file. -/
theorem wantsDirectory_pathOf (hnames : ∀ name ∈ names, IsName name) (hne : names ≠ []) :
    wantsDirectory (pathOf names) = false := by
  induction names with
  | nil => exact absurd rfl hne
  | cons name names ih =>
    obtain ⟨hname, hnames⟩ := List.forall_mem_cons.mp hnames
    by_cases hnil : names = []
    · rw [hnil, pathOf_singleton]
      -- a name is neither empty nor the current directory
      have hhere : name.toList ≠ ['.'] := fun heq => hname.notHere (String.toList_inj.mp heq)
      have hempty : name.toList ≠ [] := mt String.toList_eq_nil_iff.mp hname.notEmpty
      unfold wantsDirectory
      rw [parts_of_unslashed hname.unslashed]
      simp [hhere, hempty]
    · rw [pathOf_cons name hnil, wantsDirectory_behind]
      exact ih hnames hnil

/-! ### Proper trees -/

/-- A **proper** directory tree: each place is listed once, nothing is below a file, and places have
names, behind the top of the disk or as many steps up as there may be. -/
structure Tree.Proper (t : Tree) : Prop where
  nodup : (t.map Prod.fst).Nodup
  leaf : ∀ entry ∈ t, entry.2 ≠ .directory → ∀ other ∈ t, entry.1 <+: other.1 → other.1 = entry.1
  named : ∀ entry ∈ t, ∃ base names, entry.1 = base ++ names ∧
    (base = ["/"] ∨ ∀ name ∈ base, name = "..") ∧ ∀ name ∈ names, IsName name

/-- Some names lead from a directory to a **file** below it, which has some content. -/
structure Tree.HasFile (t : Tree) (directory : String) (names : Place) (content : Content) :
    Prop where
  listed : ∃ place, t.locate directory = .ok place ∧ isBelow place (place ++ names) = true ∧
    (place ++ names, content) ∈ t
  isFile : content ≠ .directory

/-- What is below a place is there under names, and the first of them leads neither up nor to the
top. -/
theorem isBelow_append_iff :
    isBelow place (place ++ names) = true ↔
      ∃ name rest, names = name :: rest ∧ name ≠ "/" ∧ name ≠ ".." := by
  unfold isBelow
  rw [List.drop_left]
  cases names with
  | nil => simp
  | cons name rest => simp

namespace Tree

variable {t : Tree} {directory : String}

/-- The files below a directory, by its place. -/
theorem hasFile_iff (h : t.locate directory = .ok place) : t.HasFile directory names content ↔
    isBelow place (place ++ names) = true ∧ (place ++ names, content) ∈ t ∧
      content ≠ .directory := by
  constructor
  · rintro ⟨⟨place', h', hbelow, hmem⟩, hfile⟩
    obtain rfl := Except.ok.inj (h.symm.trans h')
    exact ⟨hbelow, hmem, hfile⟩
  · rintro ⟨hbelow, hmem, hfile⟩
    exact ⟨⟨place, h, hbelow, hmem⟩, hfile⟩

/-- Names are followed one after the other. -/
theorem follow_append {first second : List String} {start middle : Place}
    (h : t.follow start first = .ok middle) :
    t.follow start (first ++ second) = t.follow middle second := by
  induction first generalizing start with
  | nil =>
    obtain rfl : start = middle := Except.ok.inj h
    rfl
  | cons name first ih =>
    -- the first name is followed alike
    obtain ⟨hthere, hshort, hrest⟩ := follow_cons_eq_ok_iff.mp h
    rw [List.cons_append, follow, hthere]
    dsimp only
    rw [if_neg (Nat.not_lt.mpr hshort)]
    exact ih hrest

namespace Proper

variable (hproper : t.Proper)

include hproper

/-- In a proper tree, what is listed at a place is looked up there. -/
theorem lookup_eq (h : (place, content) ∈ t) : t.lookup place = some content := by
  have hnodup := hproper.nodup
  clear hproper
  induction t with
  | nil => cases h
  | cons entry t ih =>
    obtain ⟨here, found⟩ := entry
    obtain ⟨hhere, hnodup⟩ := List.nodup_cons.mp hnodup
    rw [List.lookup_cons]
    obtain heq | hlater := List.mem_cons.mp h
    · cases heq
      rw [beq_self_eq_true]
    · -- each place is listed once, and this one is listed later
      have hne : place ≠ here := by
        rintro rfl
        exact hhere (List.mem_map.mpr ⟨_, hlater, rfl⟩)
      rw [beq_eq_false_iff_ne.mpr hne]
      exact ih hlater hnodup

theorem get?_eq (h : (place, content) ∈ t) : t.get? place = some content := by
  unfold get?
  rw [hproper.lookup_eq h]

/-- Above each place there is a directory. -/
theorem get?_above (h : (place ++ name :: names, content) ∈ t) :
    t.get? place = some .directory := by
  unfold get?
  cases hlookup : t.lookup place with
  | some found =>
    have hmem : (place, found) ∈ t := by
      obtain ⟨before, behind, heq, -⟩ := List.lookup_eq_some_iff.mp hlookup
      rw [heq]
      exact List.mem_append_right _ List.mem_cons_self
    by_contra hne
    -- a file would have nothing below it
    have heq := hproper.leaf _ hmem (fun heq => hne (congrArg some heq)) _ h
      (List.prefix_append _ _)
    simpa using congrArg List.length heq
  | none =>
    have hany : t.any (fun entry => place.isPrefixOf entry.1) = true :=
      List.any_eq_true.mpr ⟨_, h, List.isPrefixOf_iff_prefix.mpr (List.prefix_append _ _)⟩
    dsimp only
    -- the place is not listed, and is a directory because something is below it
    rw [if_pos (by rw [hany, Bool.or_true])]

/-- What is below a place is there under names. -/
theorem isName_below (h : (place ++ names, content) ∈ t)
    (hbelow : isBelow place (place ++ names) = true) : ∀ name ∈ names, IsName name := by
  obtain ⟨base, rest, heq, hbase, hrest⟩ := hproper.named _ h
  -- the names of the place begin above the directory, or at or below it
  obtain ⟨further, hfurther, hnames⟩ | ⟨further, -, hnames⟩ := List.append_eq_append_iff.mp heq
  · -- what is above the first name of all is no name that a place is below
    obtain ⟨first, others, rfl, htop, hup⟩ := isBelow_append_iff.mp hbelow
    cases further with
    | nil =>
      rw [hnames]
      exact hrest
    | cons up further =>
      obtain ⟨rfl, -⟩ := List.cons.inj hnames
      have hmem : first ∈ base := by
        rw [hfurther]
        exact List.mem_append_right _ List.mem_cons_self
      obtain rfl | hups := hbase
      · exact absurd (List.mem_singleton.mp hmem) htop
      · exact absurd (hups _ hmem) hup
  · intro name hname
    refine hrest name ?_
    rw [hnames]
    exact List.mem_append_right _ hname

/-- The names of what is listed lead to it. -/
theorem follow_eq (h : (place ++ names, content) ∈ t) (hnames : ∀ name ∈ names, IsName name) :
    t.follow place names = .ok (place ++ names) := by
  induction names generalizing place with
  | nil => rw [List.append_nil, follow]
  | cons name names ih =>
    obtain ⟨hname, hnames⟩ := List.forall_mem_cons.mp hnames
    have hstep : step place name = place ++ [name] := if_neg hname.notUp
    refine follow_cons_eq_ok_iff.mpr ⟨hproper.get?_above h, hname.short, ?_⟩
    rw [hstep, ih (by rwa [List.append_assoc]) hnames, List.append_assoc]
    rfl

variable {names : Place}

/-- A file below a directory has names. -/
theorem names_of_hasFile (h : t.HasFile directory names content) :
    names ≠ [] ∧ ∀ name ∈ names, IsName name := by
  obtain ⟨place, -, hbelow, hmem⟩ := h.listed
  refine ⟨?_, hproper.isName_below hmem hbelow⟩
  obtain ⟨first, rest, rfl, -⟩ := isBelow_append_iff.mp hbelow
  exact List.cons_ne_nil _ _

/-- **The path of a file below a directory** is the directory with the names of the file behind
it. -/
theorem path_of_hasFile (h : t.HasFile directory names content) :
    names.foldl joinPath directory = joinPath directory (pathOf names) ∧
      namesIn (names.foldl joinPath directory) = namesIn directory ++ names := by
  obtain ⟨hne, hnames⟩ := hproper.names_of_hasFile h
  have hpath := foldl_joinPath hnames hne directory
  refine ⟨hpath, ?_⟩
  rw [hpath, (namesIn_joinPath directory (isUnslashed_pathOf hnames hne).first).2,
    namesIn_pathOf hnames hne]

/-- The files below a directory are told by the names in their paths. -/
theorem names_eq {names' : Place} {content' : Content} (h : t.HasFile directory names content)
    (h' : t.HasFile directory names' content')
    (heq : namesIn (names.foldl joinPath directory) = namesIn (names'.foldl joinPath directory)) :
      names = names' := by
  rw [(hproper.path_of_hasFile h).2, (hproper.path_of_hasFile h').2] at heq
  exact List.append_cancel_left heq

/-- **A file below a directory is found at the end of its path**, if the path is not refused. -/
theorem locate_of_hasFile (h : t.HasFile directory names content)
    (hfit : checkPath (names.foldl joinPath directory) = .ok ()) :
    ∃ place, t.locate (names.foldl joinPath directory) = .ok place ∧
      t.get? place = some content := by
  obtain ⟨hne, hnames⟩ := hproper.names_of_hasFile h
  obtain ⟨hpath, hnamesIn⟩ := hproper.path_of_hasFile h
  obtain ⟨place, hdirectory, -, hmem⟩ := h.listed
  -- the way to the directory, and from there along the names
  obtain ⟨-, hway⟩ := of_locate hdirectory
  refine ⟨place ++ names, locate_of_follow hfit ?_ ?_, hproper.get?_eq hmem⟩
  · rw [hpath, wantsDirectory_joinPath directory (isUnslashed_pathOf hnames hne).first,
      wantsDirectory_pathOf hnames hne]
  · rw [hnamesIn, follow_append hway]
    exact hproper.follow_eq hmem hnames

/-- A file below a directory is read from its path if it holds text and the path is not refused. -/
theorem read_of_hasFile {json : String} (h : t.HasFile directory names content) :
    t.read (names.foldl joinPath directory) = .ok json ↔
      checkPath (names.foldl joinPath directory) = .ok () ∧ content = .text json := by
  constructor
  · intro hread
    -- what was read was held at a place, and that place is where the path of the file leads
    obtain ⟨place, hlocate, hheld⟩ := of_read hread
    obtain ⟨hfit, -⟩ := of_locate hlocate
    obtain ⟨found, hfound, hcontent⟩ := hproper.locate_of_hasFile h hfit
    rw [hlocate] at hfound
    obtain rfl := Except.ok.inj hfound
    exact ⟨hfit, Option.some.inj (hcontent.symm.trans hheld)⟩
  · rintro ⟨hfit, rfl⟩
    obtain ⟨place, hlocate, hcontent⟩ := hproper.locate_of_hasFile h hfit
    unfold read
    rw [readLines_of_locate hlocate hcontent]

end Proper

end Tree

end Playtest.Resource
