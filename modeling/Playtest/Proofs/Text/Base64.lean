import Playtest.Proofs.Text.Bytes
import Playtest.Text.Base64

/-!
# Bytes come back from base64

Bytes are read back from the text that they are written as, however many there are
(`Base64.decode_encode`). All groups of four letters but the last one stand for three bytes each
(`wholeGroups_letters`), and the last one for one to three (`exists_lastGroup`). Where the last
group begins is where the bytes split (`exists_last_bytes`).
-/

namespace Playtest.Text.Base64

/-- The byte of a letter. -/
def code (c : Char) : UInt8 := c.val.toUInt8

/-- Every letter is read as the six bits that it stands for. -/
theorem sextet?_letter : ∀ n < 64, sextet? (code (letter n)) = some n := by decide

theorem code_letter_ne_pad : ∀ n < 64, code (letter n) ≠ pad := by decide

theorem letter_le : ∀ n < 64, (letter n).toNat ≤ 127 := by decide

/-- What fills up a text is read as that. -/
theorem code_pad : code '=' = pad := by decide

/-! ### Bits of bytes -/

section Bits

variable (a b c : UInt8)

/-- The six bits at a time that make three bytes are bits of letters. -/
theorem sextets_lt : a.toNat / 4 < 64 ∧ a.toNat % 4 * 16 + b.toNat / 16 < 64 ∧
    b.toNat % 16 * 4 + c.toNat / 64 < 64 ∧ c.toNat % 64 < 64 := by
  have ha := a.toNat_lt
  have hb := b.toNat_lt
  have hc := c.toNat_lt
  omega

/-- The first byte of three is put together again. -/
theorem ofNat_first :
    UInt8.ofNat (a.toNat / 4 * 4 + (a.toNat % 4 * 16 + b.toNat / 16) / 16) = a := by
  have hb := b.toNat_lt
  rw [show a.toNat / 4 * 4 + (a.toNat % 4 * 16 + b.toNat / 16) / 16 = a.toNat by omega,
    UInt8.ofNat_toNat]

/-- The second byte of three is put together again. -/
theorem ofNat_second :
    UInt8.ofNat ((a.toNat % 4 * 16 + b.toNat / 16) % 16 * 16 +
      (b.toNat % 16 * 4 + c.toNat / 64) / 4) = b := by
  have hb := b.toNat_lt
  have hc := c.toNat_lt
  rw [show (a.toNat % 4 * 16 + b.toNat / 16) % 16 * 16 + (b.toNat % 16 * 4 + c.toNat / 64) / 4 =
    b.toNat by omega, UInt8.ofNat_toNat]

/-- The third byte of three is put together again. -/
theorem ofNat_third :
    UInt8.ofNat ((b.toNat % 16 * 4 + c.toNat / 64) % 4 * 64 + c.toNat % 64) = c := by
  have hc := c.toNat_lt
  rw [show (b.toNat % 16 * 4 + c.toNat / 64) % 4 * 64 + c.toNat % 64 = c.toNat by omega,
    UInt8.ofNat_toNat]

end Bits

/-! ### Groups -/

/-- The letters of whole groups of three bytes are read as these bytes. -/
theorem wholeGroups_letters : ∀ (bytes : List UInt8) (offset : Nat), bytes.length % 3 = 0 →
    wholeGroups offset ((letters bytes).map code) = .ok bytes
  | [], _, _ => rfl
  | [_], _, h => absurd h (by simp)
  | [_, _], _, h => absurd h (by simp)
  | a :: b :: c :: rest, offset, h => by
    -- what is left are whole groups as well
    have hrest : rest.length % 3 = 0 := by
      simp only [List.length_cons] at h
      omega
    obtain ⟨hw, hx, hy, hz⟩ := sextets_lt a b c
    simp only [letters, List.map_cons, wholeGroups, sextet?_letter _ hw, sextet?_letter _ hx,
      sextet?_letter _ hy, sextet?_letter _ hz, wholeGroups_letters rest (offset + 4) hrest]
    change Except.ok (_ :: _ :: _ :: rest) = _
    rw [ofNat_first, ofNat_second, ofNat_third]

/-- A letter as it is read in the last group. -/
def entry (n : Nat) : UInt8 × Nat := (code (letter n), n)

section LastGroup

variable (start index : Nat) (read : List (UInt8 × Nat)) (rest : List UInt8)

/-- A letter in the last group is read as one. -/
theorem lastGroup_letter {n : Nat} (hn : n < 64) :
    lastGroup start index read 0 (code (letter n) :: rest) =
      lastGroup start (index + 1) (entry n :: read) 0 rest := by
  rw [lastGroup, if_neg (code_letter_ne_pad n hn), if_neg (Nat.lt_irrefl 0), sextet?_letter n hn]
  rfl

/-- What fills up the last group is counted. -/
theorem lastGroup_pad (hindex : ¬ index < 2) (pads : Nat) :
    lastGroup start index read pads (code '=' :: rest) =
      lastGroup start (index + 1) read (pads + 1) rest := by
  rw [lastGroup, if_pos code_pad, if_neg hindex]

end LastGroup

/-- The letters of one to three bytes are a last group, which is read as these bytes. -/
theorem exists_lastGroup {bytes : List UInt8} (hpos : bytes ≠ []) (hle : bytes.length ≤ 3)
    (start : Nat) :
    (letters bytes).length = 4 ∧ ∃ ls pads,
      lastGroup start 0 [] 0 ((letters bytes).map code) = .ok (ls, pads) ∧
      2 ≤ ls.length ∧ (pads + ls.length) % 4 = 0 ∧ lastBytes start ls = .ok bytes := by
  -- a group that is not full has zeros in the place of the bytes that are missing
  have hzero : (0 : UInt8).toNat = 0 := rfl
  match bytes with
  | [] => exact absurd rfl hpos
  | [a] =>
    have hw := (sextets_lt a 0 0).1
    have hx : a.toNat % 4 * 16 < 64 := by omega
    have hfirst := ofNat_first a 0
    simp only [hzero, Nat.zero_div, Nat.add_zero] at hfirst
    have hread : lastGroup start 0 [] 0 ((letters [a]).map code) =
        .ok ([entry (a.toNat / 4), entry (a.toNat % 4 * 16)], 2) := by
      simp only [letters, List.map_cons, List.map_nil]
      rw [lastGroup_letter _ _ _ _ hw, lastGroup_letter _ _ _ _ hx,
        lastGroup_pad _ _ _ _ (by decide), lastGroup_pad _ _ _ _ (by decide), lastGroup]
      rfl
    refine ⟨rfl, _, _, hread, Nat.le_refl 2, by simp, ?_⟩
    change (if a.toNat % 4 * 16 % 16 = 0 then _ else _) = _
    rw [if_pos (Nat.mul_mod_left _ _), hfirst]
  | [a, b] =>
    obtain ⟨hw, hx, -, -⟩ := sextets_lt a b 0
    have hy : b.toNat % 16 * 4 < 64 := by omega
    have hsecond := ofNat_second a b 0
    simp only [hzero, Nat.zero_div, Nat.add_zero] at hsecond
    have hread : lastGroup start 0 [] 0 ((letters [a, b]).map code) =
        .ok ([entry (a.toNat / 4), entry (a.toNat % 4 * 16 + b.toNat / 16),
          entry (b.toNat % 16 * 4)], 1) := by
      simp only [letters, List.map_cons, List.map_nil]
      rw [lastGroup_letter _ _ _ _ hw, lastGroup_letter _ _ _ _ hx, lastGroup_letter _ _ _ _ hy,
        lastGroup_pad _ _ _ _ (by decide), lastGroup]
      rfl
    refine ⟨rfl, _, _, hread, by simp, by simp, ?_⟩
    change (if b.toNat % 16 * 4 % 4 = 0 then _ else _) = _
    rw [if_pos (Nat.mul_mod_left _ _), ofNat_first, hsecond]
  | [a, b, c] =>
    obtain ⟨hw, hx, hy, hz⟩ := sextets_lt a b c
    have hread : lastGroup start 0 [] 0 ((letters [a, b, c]).map code) =
        .ok ([entry (a.toNat / 4), entry (a.toNat % 4 * 16 + b.toNat / 16),
          entry (b.toNat % 16 * 4 + c.toNat / 64), entry (c.toNat % 64)], 0) := by
      simp only [letters, List.map_cons, List.map_nil]
      rw [lastGroup_letter _ _ _ _ hw, lastGroup_letter _ _ _ _ hx, lastGroup_letter _ _ _ _ hy,
        lastGroup_letter _ _ _ _ hz, lastGroup]
      rfl
    refine ⟨rfl, _, _, hread, by simp, by simp, ?_⟩
    change Except.ok [_, _, _] = _
    rw [ofNat_first, ofNat_second, ofNat_third]
  | _ :: _ :: _ :: _ :: _ =>
    simp only [List.length_cons] at hle
    omega

/-! ### Texts -/

/-- The letters of whole groups and more bytes are those of the groups and then of the others. -/
theorem letters_append : ∀ (front : List UInt8), front.length % 3 = 0 → ∀ last,
    letters (front ++ last) = letters front ++ letters last
  | [], _, _ => rfl
  | [_], h, _ => absurd h (by simp)
  | [_, _], h, _ => absurd h (by simp)
  | a :: b :: c :: rest, h, last => by
    have hrest : rest.length % 3 = 0 := by
      simp only [List.length_cons] at h
      omega
    simp only [List.cons_append, letters, letters_append rest hrest last]

/-- Some bytes are whole groups of three, and one to three bytes behind them. -/
theorem exists_last_bytes : ∀ {bytes : List UInt8}, bytes ≠ [] →
    ∃ front last, bytes = front ++ last ∧ front.length % 3 = 0 ∧ last ≠ [] ∧ last.length ≤ 3
  | [], h => absurd rfl h
  | [a], _ => ⟨[], [a], rfl, rfl, List.cons_ne_nil _ _, by simp⟩
  | [a, b], _ => ⟨[], [a, b], rfl, rfl, List.cons_ne_nil _ _, by simp⟩
  | [a, b, c], _ => ⟨[], [a, b, c], rfl, rfl, List.cons_ne_nil _ _, by simp⟩
  | a :: b :: c :: d :: rest, _ => by
    obtain ⟨front, last, heq, hfront, hne, hle⟩ := exists_last_bytes (List.cons_ne_nil d rest)
    refine ⟨a :: b :: c :: front, last, by rw [heq]; rfl, ?_, hne, hle⟩
    simp only [List.length_cons]
    omega

/-- Letters come in fours. -/
theorem length_letters_mod : ∀ bytes : List UInt8, (letters bytes).length % 4 = 0
  | [] => rfl
  | [_] => by simp [letters]
  | [_, _] => by simp [letters]
  | _ :: _ :: _ :: rest => by
    have := length_letters_mod rest
    simp only [letters, List.length_cons]
    omega

/-- Base64 is written in ASCII. -/
theorem letters_le : ∀ bytes : List UInt8, ∀ c ∈ letters bytes, c.toNat ≤ 127
  | [], c, hc => by simp [letters] at hc
  -- by groups of three bytes, the last one with one or two
  | [a], c, hc => by
    have hw := (sextets_lt a 0 0).1
    have hx : a.toNat % 4 * 16 < 64 := by omega
    simp only [letters, List.mem_cons, List.not_mem_nil, or_false] at hc
    obtain rfl | rfl | rfl | rfl := hc
    exacts [letter_le _ hw, letter_le _ hx, by decide, by decide]
  | [a, b], c, hc => by
    obtain ⟨hw, hx, -, -⟩ := sextets_lt a b 0
    have hy : b.toNat % 16 * 4 < 64 := by omega
    simp only [letters, List.mem_cons, List.not_mem_nil, or_false] at hc
    obtain rfl | rfl | rfl | rfl := hc
    exacts [letter_le _ hw, letter_le _ hx, letter_le _ hy, by decide]
  | a :: b :: d :: rest, c, hc => by
    obtain ⟨hw, hx, hy, hz⟩ := sextets_lt a b d
    simp only [letters, List.mem_cons] at hc
    obtain rfl | rfl | rfl | rfl | hrest := hc
    exacts [letter_le _ hw, letter_le _ hx, letter_le _ hy, letter_le _ hz, letters_le rest c hrest]

/-- What is read from whole groups and a last one. -/
theorem decodeBytes_append {input last front back : List UInt8} {ls : List (UInt8 × Nat)}
    {pads : Nat} (hinput : input.length % 4 = 0) (hlast : last.length = 4)
    (hfront : wholeGroups 0 input = .ok front)
    (hgroup : lastGroup input.length 0 [] 0 last = .ok (ls, pads)) (htwo : 2 ≤ ls.length)
    (hfour : (pads + ls.length) % 4 = 0) (hback : lastBytes input.length ls = .ok back) :
    decodeBytes (input ++ last) = .ok (front ++ back) := by
  have hexcess : (input ++ last).length % 4 = 0 := by
    rw [List.length_append]
    omega
  have hstart : (input ++ last).length - 4 = input.length := by
    rw [List.length_append]
    omega
  -- two letters in the last group are enough
  have hlong : ¬ (input ++ last ≠ [] ∧ ls.length < 2) := fun h => by omega
  unfold decodeBytes
  simp only [hexcess, hstart, if_true, List.take_left', List.drop_left', hfront]
  change (lastGroup _ 0 [] 0 last >>= _) = _
  rw [hgroup]
  change (if input ++ last ≠ [] ∧ ls.length < 2 then _
    else if (pads + ls.length) % 4 ≠ 0 then _
    else lastBytes input.length ls >>= _) = _
  rw [if_neg hlong, if_neg (not_not.mpr hfour), hback]
  rfl

/-- The letters of bytes are decoded to these bytes. -/
theorem decodeBytes_letters (bytes : List UInt8) :
    decodeBytes ((letters bytes).map code) = .ok bytes := by
  by_cases hne : bytes = []
  · subst hne
    rfl
  -- the last group may be padded, and all in front of it are whole
  obtain ⟨front, last, rfl, hfront, hlast, hle⟩ := exists_last_bytes hne
  obtain ⟨hlength, ls, pads, hgroup, htwo, hfour, hback⟩ :=
    exists_lastGroup hlast hle ((letters front).map code).length
  rw [letters_append front hfront, List.map_append]
  refine decodeBytes_append ?_ ?_ (wholeGroups_letters front 0 hfront) hgroup htwo hfour hback
  · rw [List.length_map]
    exact length_letters_mod front
  · rw [List.length_map]
    exact hlength

/-- **Bytes come back from their text.** -/
theorem decode_encode (bytes : List UInt8) : decode (encode bytes) = .ok bytes := by
  unfold decode encode
  rw [bytes_ofList_of_ascii (letters_le bytes)]
  exact decodeBytes_letters bytes

end Playtest.Text.Base64
