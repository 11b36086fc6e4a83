import Mathlib.Data.List.Basic
import Playtest.Text.Lines

/-!
# Where lines stand

The lines of a file are told by where they stand in its text (`IsLine`): the number of a line is one
more than the number of line feeds in front of it. They are what `fileLines` makes of the text, in
this order (`isLine_iff_getElem?_fileLines`), so the records of a file are those of its lines that
have something on them, under their numbers (`mem_records_iff`).
-/

namespace Playtest.Text

variable {text line rest : List Char} {number : Nat}

/-- How a line **ends** in front of what is behind it: at a line feed, which takes a carriage return
in front of it along, or where the text ends. -/
inductive Ends (line : List Char) : (ending behind : List Char) → Prop where
  | feed {behind : List Char} (hlast : line.getLast? ≠ some '\r') : Ends line ['\n'] behind
  | returnFeed {behind : List Char} : Ends line ['\r', '\n'] behind
  | text : Ends line [] []

/-- A **line of a text**, with its number: it begins where the text does or behind a line feed, and
no line feed is in it. -/
structure IsLine (text : List Char) (number : Nat) (line : List Char) : Prop where
  unbroken : '\n' ∉ line
  place : ∃ front ending behind, text = front ++ (line ++ (ending ++ behind)) ∧
    Ends line ending behind ∧
    (front = [] ∨ front.getLast? = some '\n') ∧ number = front.count '\n' + 1

/-! ### A text cut into lines -/

theorem fileLines_ne_nil (text : List Char) : fileLines text ≠ [] := by
  fun_cases fileLines text <;> exact List.cons_ne_nil _ _

/-- A character in front of a text is in front of its first line, unless it ends one. -/
theorem fileLines_cons {c : Char} {first : List Char} {more : List (List Char)} (hc : c ≠ '\n')
    (hreturn : c = '\r' → text.head? ≠ some '\n') (h : fileLines text = first :: more) :
    fileLines (c :: text) = (c :: first) :: more := by
  have hnone : ∀ rest, c = '\r' → text = '\n' :: rest → False := by
    rintro rest hreturned rfl
    exact hreturn hreturned rfl
  rw [fileLines.eq_4 _ _ hc hnone, h]

/-- Where no line feed is in a line or begins what is behind it, none begins the two. -/
theorem head?_append_ne (h : '\n' ∉ line) (hrest : line = [] → rest.head? ≠ some '\n') :
    (line ++ rest).head? ≠ some '\n' := by
  cases line with
  | nil => exact hrest rfl
  | cons c line => exact fun heq => h (Option.some.inj heq ▸ List.mem_cons_self)

/-- A text without line feeds is one line. -/
theorem fileLines_of_unbroken (h : '\n' ∉ line) : fileLines line = [line] := by
  induction line with
  | nil => rfl
  | cons c line ih =>
    obtain ⟨hc, hline⟩ := not_or.mp (List.mem_cons.not.mp h)
    have hhead : line.head? ≠ some '\n' := fun heq => hline (List.mem_of_head? heq)
    exact fileLines_cons (Ne.symm hc) (fun _ => hhead) (ih hline)

/-- A line feed ends a line. -/
theorem fileLines_feed (h : '\n' ∉ line) (hlast : line.getLast? ≠ some '\r') (rest : List Char) :
    fileLines (line ++ '\n' :: rest) = line :: fileLines rest := by
  induction line with
  | nil => rfl
  | cons c line ih =>
    obtain ⟨hc, hline⟩ := not_or.mp (List.mem_cons.not.mp h)
    have htail : line.getLast? ≠ some '\r' :=
      fun heq => hlast (by rw [List.getLast?_cons, heq]; rfl)
    -- a carriage return at the end of the line would be taken along
    refine fileLines_cons (Ne.symm hc)
      (fun hreturn => head?_append_ne hline fun hnil => ?_) (ih hline htail)
    subst hnil hreturn
    exact absurd rfl hlast

/-- A carriage return and a line feed end a line together. -/
theorem fileLines_returnFeed (h : '\n' ∉ line) (rest : List Char) :
    fileLines (line ++ '\r' :: '\n' :: rest) = line :: fileLines rest := by
  induction line with
  | nil => rfl
  | cons c line ih =>
    obtain ⟨hc, hline⟩ := not_or.mp (List.mem_cons.not.mp h)
    exact fileLines_cons (Ne.symm hc) (fun _ => head?_append_ne hline fun _ => by simp) (ih hline)

/-- The last character of a text is its only one or the last of the rest. -/
theorem getLast?_of_cons {c d : Char} {cs : List Char} (h : (c :: cs).getLast? = some d) :
    cs = [] ∧ c = d ∨ cs.getLast? = some d := by
  cases cs with
  | nil => exact .inl ⟨rfl, Option.some.inj h⟩
  | cons => exact .inr (by rwa [List.getLast?_cons_cons] at h)

/-- Up to behind a line feed there are as many lines as line feeds. -/
theorem exists_fileLines_append {front : List Char} (rest : List Char)
    (hfront : front = [] ∨ front.getLast? = some '\n') :
    ∃ ls, ls.length = front.count '\n' ∧ fileLines (front ++ rest) = ls ++ fileLines rest := by
  induction front using fileLines.induct with
  | case1 => exact ⟨[], rfl, rfl⟩
  -- a line ends with each of the next two
  | case2 front ih =>
    obtain hnil | hlast := hfront
    · cases hnil
    obtain ⟨ls, hlength, hlines⟩ := ih ((getLast?_of_cons hlast).imp_left (·.1))
    refine ⟨[] :: ls, ?_, ?_⟩
    · rw [List.length_cons, hlength, List.count_cons_self]
    · rw [List.cons_append, fileLines, hlines, List.cons_append]
  | case3 front ih =>
    obtain hnil | hlast := hfront
    · cases hnil
    obtain ⟨ls, hlength, hlines⟩ :=
      ih ((getLast?_of_cons (by rwa [List.getLast?_cons_cons] at hlast)).imp_left (·.1))
    refine ⟨[] :: ls, ?_, ?_⟩
    · rw [List.length_cons, hlength, List.count_cons_of_ne (by decide), List.count_cons_self]
    · rw [List.cons_append, List.cons_append, fileLines, hlines, List.cons_append]
  | case4 _ front _ _ hnil => exact absurd hnil (fileLines_ne_nil front)
  -- any other character stands in front of the first line
  | case5 c front hc hnone _ _ _ ih =>
    obtain hnil | hlast := hfront
    · cases hnil
    obtain ⟨-, rfl⟩ | hlast := getLast?_of_cons hlast
    · exact absurd rfl hc
    obtain ⟨ls, hlength, hlines⟩ := ih (.inr hlast)
    have hmem : '\n' ∈ front := List.mem_of_getLast? hlast
    -- the line that `c` is in front of ends in `front`
    obtain ⟨first, ls, rfl⟩ :=
      List.exists_cons_of_length_pos (hlength ▸ List.count_pos_iff.mpr hmem)
    refine ⟨(c :: first) :: ls, ?_, fileLines_cons hc (fun hreturn heq => ?_) hlines⟩
    · rw [List.count_cons_of_ne hc]
      exact hlength
    · cases front with
      | nil => cases hmem
      | cons d front => exact hnone front hreturn (congrArg (· :: front) (Option.some.inj heq))

/-! ### Lines by their places -/

/-- A line stands where its number says. -/
theorem IsLine.getElem?_fileLines (h : IsLine text number line) :
    0 < number ∧ (fileLines text)[number - 1]? = some line := by
  obtain ⟨hunbroken, front, ending, behind, rfl, hends, hfront, rfl⟩ := h
  obtain ⟨ls, hlength, hlines⟩ := exists_fileLines_append (line ++ (ending ++ behind)) hfront
  -- however the line ends, it is cut off there
  have hline : ∃ more, fileLines (line ++ (ending ++ behind)) = line :: more := by
    cases hends with
    | feed hlast => exact ⟨_, fileLines_feed hunbroken hlast behind⟩
    | returnFeed => exact ⟨_, fileLines_returnFeed hunbroken behind⟩
    | text => exact ⟨[], by rw [List.append_nil, List.append_nil, fileLines_of_unbroken hunbroken]⟩
  obtain ⟨more, hmore⟩ := hline
  refine ⟨Nat.succ_pos _, ?_⟩
  rw [hlines, hmore, Nat.add_sub_cancel, ← hlength, List.getElem?_append_right (Nat.le_refl _),
    Nat.sub_self]
  rfl

/-- A line of a text has a higher number if there are lines in front of the text. -/
theorem IsLine.behind {before : List Char} (h : IsLine text number line)
    (hbefore : before.getLast? = some '\n') :
    IsLine (before ++ text) (before.count '\n' + number) line := by
  obtain ⟨hunbroken, front, ending, behind, rfl, hends, hfront, rfl⟩ := h
  refine ⟨hunbroken, before ++ front, ending, behind, (List.append_assoc ..).symm,
    hends, .inr ?_, ?_⟩
  · obtain rfl | hlast := hfront
    · rwa [List.append_nil]
    · rw [List.getLast?_append, hlast]
      rfl
  · rw [List.count_append, Nat.add_assoc]

/-- A character in front of the first line is a part of it. -/
theorem IsLine.cons_first {c : Char} (h : IsLine text 1 line) (hc : c ≠ '\n')
    (hreturn : c = '\r' → text.head? ≠ some '\n') : IsLine (c :: text) 1 (c :: line) := by
  obtain ⟨hunbroken, front, ending, behind, rfl, hends, hfront, hnumber⟩ := h
  -- nothing stands in front of the first line
  have hnil : front = [] := hfront.resolve_right fun hlast => by
    have := List.count_pos_iff.mpr (List.mem_of_getLast? hlast)
    omega
  subst hnil
  have hends' : Ends (c :: line) ending behind := by
    cases hends with
    | feed hlast =>
      refine .feed fun heq => ?_
      obtain ⟨rfl, rfl⟩ | heq := getLast?_of_cons heq
      · exact hreturn rfl rfl
      · exact hlast heq
    | returnFeed => exact .returnFeed
    | text => exact .text
  exact ⟨List.not_mem_cons_of_ne_of_not_mem (Ne.symm hc) hunbroken, [], ending, behind, rfl,
    hends', .inl rfl, rfl⟩

/-- A character in front of the first line leaves the others as they are. -/
theorem IsLine.cons_later {c : Char} (h : IsLine text number line) (hc : c ≠ '\n')
    (hnumber : 1 < number) : IsLine (c :: text) number line := by
  obtain ⟨hunbroken, front, ending, behind, rfl, hends, hfront, rfl⟩ := h
  refine ⟨hunbroken, c :: front, ending, behind, rfl, hends, .inr ?_, ?_⟩
  · obtain rfl | hlast := hfront
    · exact absurd hnumber (by decide)
    · rw [List.getLast?_cons, hlast]
      rfl
  · rw [List.count_cons_of_ne hc]

/-- What a text is cut into is a line of it. -/
theorem isLine_of_getElem?_fileLines {i : Nat} (h : (fileLines text)[i]? = some line) :
    IsLine text (i + 1) line := by
  -- along the cutting; a line is the one that was cut off or one of the rest
  induction text using fileLines.induct generalizing i line with
  | case1 =>
    obtain ⟨rfl, rfl⟩ : i = 0 ∧ [] = line := by simpa [fileLines, List.getElem?_cons] using h
    exact ⟨List.not_mem_nil, [], [], [], rfl, .text, .inl rfl, rfl⟩
  | case2 rest ih =>
    rw [fileLines] at h
    cases i with
    | zero =>
      cases h
      exact ⟨List.not_mem_nil, [], _, rest, rfl, .feed (by simp), .inl rfl, rfl⟩
    | succ i =>
      have hline := (ih h).behind (show ['\n'].getLast? = some '\n' from rfl)
      rwa [Nat.add_comm] at hline
  | case3 rest ih =>
    rw [fileLines] at h
    cases i with
    | zero =>
      cases h
      exact ⟨List.not_mem_nil, [], _, rest, rfl, .returnFeed, .inl rfl, rfl⟩
    | succ i =>
      have hline := (ih h).behind (show ['\r', '\n'].getLast? = some '\n' from rfl)
      rwa [Nat.add_comm] at hline
  | case4 _ rest _ _ hnil => exact absurd hnil (fileLines_ne_nil rest)
  | case5 c rest hc hnone first more hlines ih =>
    have hreturn : c = '\r' → rest.head? ≠ some '\n' := by
      rintro hreturned heq
      cases rest with
      | nil => cases heq
      | cons d rest => exact hnone rest hreturned (congrArg (· :: rest) (Option.some.inj heq))
    rw [fileLines_cons hc hreturn hlines] at h
    cases i with
    | zero =>
      cases h
      exact (ih (congrArg (·[0]?) hlines)).cons_first hc hreturn
    | succ i =>
      have hline : (fileLines rest)[i + 1]? = some line := by rw [hlines]; exact h
      exact (ih hline).cons_later hc (by omega)

/-- **The lines of a text are those that it is cut into**, in their order. -/
theorem isLine_iff_getElem?_fileLines :
    IsLine text number line ↔ 0 < number ∧ (fileLines text)[number - 1]? = some line := by
  refine ⟨IsLine.getElem?_fileLines, fun ⟨hpos, hline⟩ => ?_⟩
  have := isLine_of_getElem?_fileLines hline
  rwa [Nat.sub_add_cancel hpos] at this

/-! ### Records -/

/-- The records of a file are its lines with something on them. -/
theorem mem_records_iff {text s : String} :
    (number, s) ∈ records text ↔
      ∃ line, IsLine text.toList number line ∧ line.all isBlank = false ∧
        String.ofList line = s := by
  unfold records
  simp only [List.mem_filterMap, Prod.exists, Option.ite_none_left_eq_some, Bool.not_eq_true,
    Option.some.injEq, Prod.mk.injEq, List.mem_zipIdx_iff_le_and_getElem?_sub,
    isLine_iff_getElem?_fileLines]
  constructor
  · rintro ⟨line, n, hline, hblank, rfl, rfl⟩
    exact ⟨line, hline, hblank, rfl⟩
  · rintro ⟨line, hline, hblank, rfl⟩
    exact ⟨line, number, hline, hblank, rfl, rfl⟩

/-- Records are in the order of their numbers. -/
theorem pairwise_records (text : String) : (records text).Pairwise fun r r' => r.1 < r'.1 := by
  -- the numbers of the lines go up
  have hlines : ((fileLines text.toList).zipIdx 1).Pairwise fun r r' => r.2 < r'.2 := by
    rw [← List.pairwise_map, List.zipIdx_map_snd]
    exact List.pairwise_lt_range'
  refine List.Pairwise.filterMap _ ?_ hlines
  intro r r' hlt s hs s' hs'
  obtain ⟨-, hs⟩ := Option.ite_none_left_eq_some.mp hs
  obtain ⟨-, hs'⟩ := Option.ite_none_left_eq_some.mp hs'
  cases hs
  cases hs'
  exact hlt

end Playtest.Text
