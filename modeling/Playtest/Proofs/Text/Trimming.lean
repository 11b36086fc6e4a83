import Mathlib.Data.List.DropRight
import Playtest.Text.Blank

/-!
# Blanks around a text

Trimming takes blanks away behind (`trimBack`) and in front (`trim`). `trimBack` is
`List.rdropWhile` by definition and `trimFront` is `List.dropWhile`, and so the general lemmas on
these apply.

Blanks that are added around a text make no difference (`trim_surround`), and a text that begins and
ends with other characters is left as it is (`trim_eq_self`).
-/

namespace Playtest.Text

variable {cs ws front behind : List Char}

/-! ### Blanks behind -/

theorem trimBack_trimBack (cs : List Char) : trimBack (trimBack cs) = trimBack cs :=
  List.rdropWhile_idempotent _ _

theorem isPrefix_trimBack (cs : List Char) : trimBack cs <+: cs := List.rdropWhile_prefix _ _

/-- Nothing is left of blanks, and only of these. -/
theorem trimBack_eq_nil_iff : trimBack cs = [] ↔ ∀ c ∈ cs, isBlank c = true :=
  List.rdropWhile_eq_nil_iff

theorem trimBack_append (hw : ∀ c ∈ ws, isBlank c = true) (cs : List Char) :
    trimBack (cs ++ ws) = trimBack cs := by
  unfold trimBack
  rw [List.reverse_append, List.dropWhile_append_of_pos fun c hc => hw c (List.mem_reverse.mp hc)]

/-- Trimming stops at the first character from behind that is not blank. -/
theorem trimBack_concat {c : Char} (hc : isBlank c = false) (cs : List Char) :
    trimBack (cs ++ [c]) = cs ++ [c] :=
  List.rdropWhile_concat_neg _ _ _ (ne_true_of_eq_false hc)

theorem isBlank_getLast? (h : trimBack cs = cs) : ∀ c ∈ cs.getLast?, isBlank c = false := by
  intro c hc
  obtain ⟨hne, rfl⟩ := List.mem_getLast?_eq_getLast hc
  exact eq_false_of_ne_true (List.rdropWhile_eq_self_iff.mp h hne)

/-- A name is its trimmed form with blanks behind. -/
theorem exists_eq_trimBack_append (cs : List Char) :
    ∃ ws, (∀ c ∈ ws, isBlank c = true) ∧ cs = trimBack cs ++ ws :=
  ⟨cs.rtakeWhile isBlank, fun _ => List.mem_rtakeWhile_imp, List.rdropWhile_append_rtakeWhile.symm⟩

/-- A text that does not end in a blank is left as it is. -/
theorem trimBack_eq_self (h : ∀ c ∈ cs.getLast?, isBlank c = false) : trimBack cs = cs := by
  refine List.rdropWhile_eq_self_iff.mpr fun hne => ?_
  exact ne_true_of_eq_false (h _ (List.getLast?_eq_some_getLast hne))

/-! ### Blanks in front -/

theorem trimFront_append (hw : ∀ c ∈ ws, isBlank c = true) (cs : List Char) :
    trimFront (ws ++ cs) = trimFront cs :=
  List.dropWhile_append_of_pos hw

/-- A text that does not begin with a blank is left as it is. -/
theorem trimFront_eq_self (h : ∀ c ∈ cs.head?, isBlank c = false) : trimFront cs = cs := by
  cases cs with
  | nil => rfl
  | cons c cs => exact List.dropWhile_cons_of_neg (ne_true_of_eq_false (h c rfl))

/-- What is trimmed in front does not begin with a blank. -/
theorem isBlank_head?_trimFront (cs : List Char) :
    ∀ c ∈ (trimFront cs).head?, isBlank c = false := by
  intro c hc
  have hhead := List.head?_dropWhile_not isBlank cs
  rw [show cs.dropWhile isBlank = trimFront cs from rfl, Option.mem_def.mp hc] at hhead
  simpa using hhead

/-! ### Blanks on both sides -/

/-- A text is its trimmed form with blanks around it. -/
theorem exists_eq_surround_trim (cs : List Char) :
    ∃ front behind, (∀ c ∈ front, isBlank c = true) ∧ (∀ c ∈ behind, isBlank c = true) ∧
      cs = front ++ trim cs ++ behind := by
  obtain ⟨behind, hbehind, heq⟩ := exists_eq_trimBack_append (trimFront cs)
  refine ⟨cs.takeWhile isBlank, behind, fun c hc => List.mem_takeWhile_imp hc, hbehind, ?_⟩
  unfold trim
  rw [List.append_assoc, ← heq]
  exact List.takeWhile_append_dropWhile.symm

/-- What begins and ends with something else than blanks is not trimmed. -/
theorem trim_eq_self (hfirst : ∀ c ∈ cs.head?, isBlank c = false)
    (hlast : ∀ c ∈ cs.getLast?, isBlank c = false) : trim cs = cs := by
  unfold trim
  rw [trimFront_eq_self hfirst, trimBack_eq_self hlast]

/-- What is trimmed on both sides does not end in a blank. -/
theorem isBlank_getLast?_trim (cs : List Char) : ∀ c ∈ (trim cs).getLast?, isBlank c = false :=
  isBlank_getLast? (trimBack_trimBack _)

/-- What is trimmed on both sides does not begin with a blank. -/
theorem isBlank_head?_trim (cs : List Char) : ∀ c ∈ (trim cs).head?, isBlank c = false := by
  intro c hc
  obtain ⟨behind, heq⟩ : trim cs <+: trimFront cs := isPrefix_trimBack _
  refine isBlank_head?_trimFront cs c ?_
  rw [← heq, List.head?_append, Option.mem_def.mp hc]
  rfl

/-- Blanks around a text are not looked at. -/
theorem trim_surround (hfront : ∀ c ∈ front, isBlank c = true)
    (hbehind : ∀ c ∈ behind, isBlank c = true) (cs : List Char) :
    trim (front ++ cs ++ behind) = trim cs := by
  unfold trim
  rw [List.append_assoc, trimFront_append hfront]
  by_cases hall : ∀ c ∈ cs, isBlank c = true
  · -- nothing is left of either
    have hnil : ∀ ds : List Char, (∀ c ∈ ds, isBlank c = true) → trimFront ds = [] :=
      fun ds => List.dropWhile_eq_nil_iff.mpr
    rw [hnil cs hall, hnil (cs ++ behind) fun c hc =>
      (List.mem_append.mp hc).elim (hall c) (hbehind c)]
  · -- something is left, so the blanks behind are at its end
    have hdrop : trimFront (cs ++ behind) = trimFront cs ++ behind := by
      unfold trimFront
      rw [List.dropWhile_append, if_neg]
      rwa [List.isEmpty_iff, List.dropWhile_eq_nil_iff]
    rw [hdrop, trimBack_append hbehind]

/-- Characters may be exchanged before or after trimming, if blanks stay blanks and others do not
become any. -/
theorem trim_map {f : Char → Char} (hf : ∀ c, isBlank (f c) = isBlank c) (cs : List Char) :
    trim (cs.map f) = (trim cs).map f := by
  obtain ⟨front, behind, hfront, hbehind, heq⟩ := exists_eq_surround_trim cs
  have hblank : ∀ ws : List Char, (∀ c ∈ ws, isBlank c = true) →
      ∀ c ∈ ws.map f, isBlank c = true := by
    intro ws hws c hc
    obtain ⟨d, hd, rfl⟩ := List.mem_map.mp hc
    rw [hf, hws d hd]
  -- what is exchanged is the trimmed text with blanks around it
  conv => lhs; rw [heq, List.map_append, List.map_append]
  rw [trim_surround (hblank front hfront) (hblank behind hbehind)]
  refine trim_eq_self (fun c hc => ?_) (fun c hc => ?_)
  · rw [List.head?_map] at hc
    obtain ⟨d, hd, rfl⟩ := Option.map_eq_some_iff.mp hc
    rw [hf, isBlank_head?_trim cs d hd]
  · rw [List.getLast?_map] at hc
    obtain ⟨d, hd, rfl⟩ := Option.map_eq_some_iff.mp hc
    rw [hf, isBlank_getLast?_trim cs d hd]

end Playtest.Text
