import Playtest.Proofs.Failing
import Playtest.Resource.Tree

/-!
# Appending and reading

What has been put at the end of a file is read behind what was in it before.

A path is followed through directories, and a file is put where no directory is. So whatever path
was good before the file was put there still is (`Tree.follow_put`), that of the file itself too,
and a file that takes one text takes the next (`Tree.Takes.append`).
-/

namespace Playtest.Resource

namespace Tree

variable {t : Tree} {place : Place} {content : Content} {path text held : String}
  {names : List String}

/-! ### Putting something at a place -/

/-- What is left of a tree by the names of its places is found as before, if it is left. -/
theorem lookup_filter (p : Place → Bool) (t : Tree) (other : Place) :
    (t.filter fun entry => p entry.1).lookup other = if p other then t.lookup other else none := by
  induction t with
  | nil => exact (ite_self _).symm
  | cons entry t ih =>
    obtain ⟨at', found⟩ := entry
    rw [List.filter_cons, List.lookup_cons]
    -- the first entry is for this place or for another
    by_cases hother : other = at'
    · subst hother
      rw [beq_self_eq_true]
      split
      · rw [List.lookup_cons, beq_self_eq_true]
      · next hp => rw [ih, if_neg hp]
    · rw [beq_eq_false_iff_ne.mpr hother]
      split
      · rw [List.lookup_cons, beq_eq_false_iff_ne.mpr hother, ih]
      · exact ih

/-- What is put at a place is found there, and everything else is found where it was. -/
theorem lookup_put (t : Tree) (place : Place) (content : Content) (other : Place) :
    (t.put place content).lookup other =
      if other = place then some content else t.lookup other := by
  unfold put
  rw [List.lookup_append, lookup_filter (· != place), List.lookup_cons]
  by_cases h : other = place
  · rw [if_pos h, if_neg (by simpa using h), beq_iff_eq.mpr h]
    rfl
  · rw [if_neg h, if_pos (bne_iff_ne.mpr h), beq_eq_false_iff_ne.mpr h]
    exact Option.or_none

/-- A place with some property is still there. -/
theorem any_put {p : Place → Bool} (h : t.any (fun entry => p entry.1) = true) :
    (t.put place content).any (fun entry => p entry.1) = true := by
  obtain ⟨entry, hentry, hp⟩ := List.any_eq_true.mp h
  rw [List.any_eq_true]
  by_cases hplace : entry.1 = place
  · exact ⟨(place, content), List.mem_append_right _ List.mem_cons_self, hplace ▸ hp⟩
  · exact ⟨entry, List.mem_append_left _ (List.mem_filter.mpr ⟨hentry, bne_iff_ne.mpr hplace⟩), hp⟩

theorem get?_put_self (t : Tree) (place : Place) (content : Content) :
    (t.put place content).get? place = some content := by
  unfold get?
  rw [lookup_put, if_pos rfl]

/-- A directory stays one, unless something is put in its place. -/
theorem get?_put_directory {other : Place} (h : t.get? other = some .directory)
    (hne : other ≠ place) : (t.put place content).get? other = some .directory := by
  unfold get? at h ⊢
  rw [lookup_put, if_neg hne]
  cases hlookup : t.lookup other with
  | some found =>
    rw [hlookup] at h
    exact h
  | none =>
    rw [hlookup] at h
    dsimp only at h ⊢
    split at h
    · -- nothing is listed there, and so it is a directory for what stands below it
      next hbelow =>
      refine if_pos ?_
      rw [Bool.or_eq_true] at hbelow ⊢
      exact hbelow.imp_right any_put
    · cases h

/-- A name is looked up in a directory. -/
theorem follow_cons_eq_ok_iff {start last : Place} {name : String} :
    t.follow start (name :: names) = .ok last ↔
      t.get? start = some .directory ∧ name.utf8ByteSize ≤ 255 ∧
        t.follow (step start name) names = .ok last := by
  conv => lhs; unfold follow
  -- only in a directory anything can be looked up
  split
  · next h => simp [h]
  · next h => simp [h]
  · next h => simp [h]
  · next h =>
    rw [h]
    split
    · next hlong => exact ⟨nofun, fun ⟨_, hshort, _⟩ => absurd hlong (Nat.not_lt.mpr hshort)⟩
    · next hshort =>
        exact ⟨fun hrest => ⟨rfl, Nat.not_lt.mp hshort, hrest⟩, fun ⟨_, _, hrest⟩ => hrest⟩

/-- A path is followed as before when something is put where no directory was. -/
theorem follow_put {start last : Place} (hplace : t.get? place ≠ some .directory)
    (h : t.follow start names = .ok last) :
      (t.put place content).follow start names = .ok last := by
  induction names generalizing start with
  | nil => exact h
  | cons name names ih =>
    -- the first name was looked up in a directory, and that is still one
    obtain ⟨hdirectory, hshort, hrest⟩ := follow_cons_eq_ok_iff.mp h
    have hne : start ≠ place := fun heq => hplace (heq ▸ hdirectory)
    exact follow_cons_eq_ok_iff.mpr ⟨get?_put_directory hdirectory hne, hshort, ih hrest⟩

/-- Before its last name a path leads to a directory. -/
theorem exists_directory_of_follow {start last : Place} {name : String}
    (h : t.follow start (names ++ [name]) = .ok last) :
    ∃ directory, t.follow start names = .ok directory ∧ t.get? directory = some .directory := by
  induction names generalizing start with
  | nil => exact ⟨start, rfl, (follow_cons_eq_ok_iff.mp h).1⟩
  | cons first names ih =>
    obtain ⟨hdirectory, hshort, hrest⟩ := follow_cons_eq_ok_iff.mp h
    obtain ⟨directory, hfollow, hthere⟩ := ih hrest
    exact ⟨directory, follow_cons_eq_ok_iff.mpr ⟨hdirectory, hshort, hfollow⟩, hthere⟩

/-- The last name of a path is only too long, or leads somewhere. -/
theorem follow_concat {start directory : Place} (name : String)
    (h : t.follow start names = .ok directory) (hdirectory : t.get? directory = some .directory) :
    t.follow start (names ++ [name]) =
      if 255 < name.utf8ByteSize then .error .nameTooLong else .ok (step directory name) := by
  induction names generalizing start with
  | nil =>
    obtain rfl : start = directory := Except.ok.inj h
    rw [List.nil_append, follow, hdirectory]
    rfl
  | cons first names ih =>
    -- the way to the directory goes through the first name
    obtain ⟨hthere, hshort, hrest⟩ := follow_cons_eq_ok_iff.mp h
    rw [List.cons_append, follow, hthere]
    dsimp only
    rw [if_neg (Nat.not_lt.mpr hshort)]
    exact ih hrest

end Tree

/-- A path that names a file ends in a name. -/
theorem exists_namesIn_eq {path : String} (h : namesNoFile path = false) :
    wantsDirectory path = false ∧ ∃ name, namesIn path = namesBefore path ++ [name] := by
  obtain ⟨hwants, hdots⟩ := Bool.or_eq_false_iff.mp h
  refine ⟨hwants, ?_⟩
  cases hlast : (components path).getLast? with
  -- without components the path would be the current directory, which is no file
  | none =>
    rw [hlast] at hdots
    cases hdots
  | some name =>
    rw [hlast] at hdots
    -- a dot at the end names no file either
    have hname : name ≠ "." := by
      rintro rfl
      cases hdots
    refine ⟨name, ?_⟩
    obtain ⟨before, hbefore⟩ := List.getLast?_eq_some_iff.mp hlast
    unfold namesIn namesBefore
    rw [hbefore, List.dropLast_concat, List.filter_append, List.append_assoc]
    simp [hname]

namespace Tree

variable {t : Tree} {place : Place} {path held : String}

/-! ### Finding a file -/

/-- A path that is located fits the tree and can be followed. -/
theorem of_locate (h : t.locate path = .ok place) :
    checkPath path = .ok () ∧ t.follow [] (namesIn path) = .ok place := by
  obtain ⟨_, hfit, h⟩ := Except.bind_eq_ok_iff.mp h
  obtain ⟨found, hfollow, h⟩ := Except.bind_eq_ok_iff.mp h
  refine ⟨hfit, ?_⟩
  -- what is there at most refuses the path
  split at h
  · split at h <;> cases h
    exact hfollow
  · split at h <;> cases h
    exact hfollow
  · cases h
    exact hfollow
  · cases h
    exact hfollow

/-- A path that fits and can be followed is located, unless it wants a directory. -/
theorem locate_of_follow (hfit : checkPath path = .ok ()) (hwants : wantsDirectory path = false)
    (hfollow : t.follow [] (namesIn path) = .ok place) : t.locate path = .ok place := by
  refine Except.bind_eq_ok_iff.mpr ⟨(), hfit, Except.bind_eq_ok_iff.mpr ⟨place, hfollow, ?_⟩⟩
  rw [hwants]
  split <;> rfl

/-- What is read is the text at the place of the path. -/
theorem of_read (h : t.read path = .ok held) :
    ∃ place, t.locate path = .ok place ∧ t.get? place = some (.text held) := by
  unfold read readLines at h
  cases hlocate : t.locate path with
  | error fault =>
    rw [hlocate] at h
    cases h
  | ok place =>
    rw [hlocate] at h
    dsimp only at h
    refine ⟨place, rfl, ?_⟩
    -- only a text can be read to its end
    cases hplace : t.get? place with
    | none => rw [hplace] at h; cases h
    | some content =>
      rw [hplace] at h
      cases content with
      | text content => cases h; rfl
      | binary before => cases h
      | directory => cases h

/-- A text is read with all of its lines. -/
theorem readLines_of_locate (hlocate : t.locate path = .ok place)
    (hplace : t.get? place = some (.text held)) : t.readLines path = .ok (held, none) := by
  unfold readLines
  rw [hlocate]
  dsimp only
  rw [hplace]

/-- What is entered is a directory. -/
theorem of_enter {names : List String} (h : t.enter names = .ok place) :
    t.follow [] names = .ok place ∧ t.get? place = some .directory := by
  obtain ⟨found, hfollow, h⟩ := Except.bind_eq_ok_iff.mp h
  split at h
  · next hplace => cases h; exact ⟨hfollow, hplace⟩
  · cases h
  · cases h
  · cases h

/-! ### Files that take text -/

/-- A file **takes** text behind what it holds: its path is good for a file, and either it is there
with that text, or it is not there yet and holds nothing. -/
structure Takes (t : Tree) (path held : String) : Prop where
  fit : checkPath path = .ok ()
  named : namesNoFile path = false
  there : ∃ place, t.follow [] (namesIn path) = .ok place ∧
    (t.get? place = some (.text held) ∨ t.get? place = none ∧ held = "")

/-- A file that can be read takes text. -/
theorem Takes.of_read (hnamed : namesNoFile path = false) (h : t.read path = .ok held) :
    t.Takes path held := by
  obtain ⟨place, hlocate, hplace⟩ := Tree.of_read h
  obtain ⟨hfit, hfollow⟩ := of_locate hlocate
  exact ⟨hfit, hnamed, place, hfollow, .inl hplace⟩

theorem read_of_locate_error {fault : FileFault} (h : t.locate path = .error fault) :
    t.read path = .error fault := by
  unfold read readLines
  rw [h]

/-- A file that is not there takes text if its directory is there. -/
theorem Takes.of_missing {directory : Place} (hnamed : namesNoFile path = false)
    (henter : t.enter (namesBefore path) = .ok directory) (h : t.read path = .error .notFound) :
      t.Takes path "" := by
  obtain ⟨hwants, name, hnames⟩ := exists_namesIn_eq hnamed
  obtain ⟨hway, hdirectory⟩ := of_enter henter
  have hlast := follow_concat name hway hdirectory
  rw [← hnames] at hlast
  -- another reason not to find the file would have been told
  have hfit : checkPath path = .ok () := by
    cases hcheck : checkPath path with
    | ok => rfl
    | error fault =>
      have hlocate : t.locate path = .error fault := by
        unfold locate
        rw [hcheck]
        rfl
      obtain rfl : fault = .notFound :=
        Except.error.inj ((read_of_locate_error hlocate).symm.trans h)
      unfold checkPath at hcheck
      split at hcheck
      · cases hcheck
      · split at hcheck
        · next hempty =>
          subst hempty
          cases hnamed
        · split at hcheck <;> cases hcheck
  have hfollow : t.follow [] (namesIn path) = .ok (step directory name) := by
    split at hlast
    · have hlocate : t.locate path = .error .nameTooLong := by
        unfold locate
        rw [hfit, hlast]
        rfl
      cases (read_of_locate_error hlocate).symm.trans h
    · exact hlast
  refine ⟨hfit, hnamed, step directory name, hfollow, .inr ⟨?_, rfl⟩⟩
  unfold read readLines at h
  rw [locate_of_follow hfit hwants hfollow] at h
  dsimp only at h
  cases hplace : t.get? (step directory name) with
  | none => rfl
  | some content =>
    rw [hplace] at h
    cases content <;> cases h

/-- **What a file has taken is read from it**, and it takes more behind that. -/
theorem Takes.append (h : t.Takes path held) (text : String) :
    ∃ t', t.append path text = .ok t' ∧ t'.Takes path (held ++ text) ∧
      t'.readLines path = .ok (held ++ text, none) := by
  obtain ⟨hfit, hnamed, place, hfollow, hplace⟩ := h
  obtain ⟨hwants, name, hnames⟩ := exists_namesIn_eq hnamed
  obtain ⟨directory, hway, hdirectory⟩ := exists_directory_of_follow (hnames ▸ hfollow)
  have henter : t.enter (namesBefore path) = .ok directory := by
    refine Except.bind_eq_ok_iff.mpr ⟨directory, hway, ?_⟩
    rw [hdirectory]
  -- what comes of it is one tree, whether the file was there or not
  have happend : t.append path text = .ok (t.put place (.text (held ++ text))) := by
    refine Except.bind_eq_ok_iff.mpr ⟨(), hfit, Except.bind_eq_ok_iff.mpr ⟨directory, henter, ?_⟩⟩
    rw [hnamed]
    refine Except.bind_eq_ok_iff.mpr ⟨place, hfollow, ?_⟩
    obtain hthere | ⟨hnone, rfl⟩ := hplace
    · rw [hthere]
      rfl
    · rw [hnone, String.empty_append]
      rfl
  -- what is there is a text, or nothing
  have hfile : t.get? place ≠ some .directory := by
    obtain hthere | ⟨hnone, -⟩ := hplace
    · rw [hthere]
      nofun
    · rw [hnone]
      nofun
  have hfollow' : (t.put place (.text (held ++ text))).follow [] (namesIn path) = .ok place :=
    follow_put hfile hfollow
  have hplace' := get?_put_self t place (.text (held ++ text))
  refine ⟨_, happend, ⟨hfit, hnamed, place, hfollow', .inl hplace'⟩, ?_⟩
  exact readLines_of_locate (locate_of_follow hfit hwants hfollow') hplace'

end Tree

end Playtest.Resource
