import Signpost.Text.Utf8
import Mathlib.Data.List.Basic

namespace Signpost.Text

theorem toNat_toUInt8 {n : Nat} (h : n < 256) : n.toUInt8.toNat = n :=
  UInt8.toNat_ofNat_of_lt h

theorem le_toUInt8_iff {low : UInt8} {n : Nat} (h : n < 256) :
    low ≤ n.toUInt8 ↔ low.toNat ≤ n := by
  rw [UInt8.le_iff_toNat_le, toNat_toUInt8 h]

theorem toUInt8_le_iff {high : UInt8} {n : Nat} (h : n < 256) :
    n.toUInt8 ≤ high ↔ n ≤ high.toNat := by
  rw [UInt8.le_iff_toNat_le, toNat_toUInt8 h]

theorem toUInt8_lt_iff {bound : UInt8} {n : Nat} (h : n < 256) :
    n.toUInt8 < bound ↔ n < bound.toNat := by
  rw [UInt8.lt_iff_toNat_lt, toNat_toUInt8 h]

theorem toUInt8_eq_iff {b : UInt8} {n : Nat} (h : n < 256) :
    n.toUInt8 = b ↔ n = b.toNat := by
  rw [← UInt8.toNat_inj, toNat_toUInt8 h]

namespace Lead

theorem ofByte?_one {n : Nat} (h : n < 0x80) :
    ofByte? n.toUInt8 = some ⟨0, 0x80, 0xbf, n⟩ := by
  rw [ofByte?, if_pos ((toUInt8_lt_iff (by omega)).mpr h), toNat_toUInt8 (by omega)]

theorem ofByte?_two {high : Nat} (hleast : 2 ≤ high) (hmost : high < 32) :
    ofByte? (0xc0 + high).toUInt8 = some ⟨1, 0x80, 0xbf, high⟩ := by
  have hbyte : 0xc0 + high < 256 := by omega
  have hnumber : 0xc0 + high - 0xc0 = high := by omega
  simp only [ofByte?, toUInt8_lt_iff hbyte, toNat_toUInt8 hbyte, hnumber]
  rw [if_neg (by simp; omega), if_neg (by simp; omega), if_pos (by simp; omega)]

/-- Behind the least and the greatest first bytes not every second byte is allowed. -/
theorem ofByte?_three {high : Nat} (hmost : high < 16) :
    ofByte? (0xe0 + high).toUInt8 =
      some ⟨2, if high = 0 then 0xa0 else 0x80, if high = 13 then 0x9f else 0xbf,
        high⟩ := by
  have hbyte : 0xe0 + high < 256 := by omega
  have hnumber : 0xe0 + high - 0xe0 = high := by omega
  simp only [ofByte?, toUInt8_lt_iff hbyte, toUInt8_eq_iff hbyte, toNat_toUInt8 hbyte,
    hnumber]
  rw [if_neg (by simp; omega), if_neg (by simp; omega), if_neg (by simp)]
  by_cases hzero : high = 0
  · simp [hzero]
  · rw [if_neg (by simp; omega), if_neg hzero]
    by_cases hthirteen : high = 13
    · simp [hthirteen]
    · rw [if_neg (by simp; omega), if_pos (by simp; omega), if_neg hthirteen]

theorem ofByte?_four {high : Nat} (hmost : high < 5) :
    ofByte? (0xf0 + high).toUInt8 =
      some ⟨3, if high = 0 then 0x90 else 0x80, if high = 4 then 0x8f else 0xbf,
        high⟩ := by
  have hbyte : 0xf0 + high < 256 := by omega
  have hnumber : 0xf0 + high - 0xf0 = high := by omega
  simp only [ofByte?, toUInt8_lt_iff hbyte, toUInt8_eq_iff hbyte, toNat_toUInt8 hbyte,
    hnumber]
  rw [if_neg (by simp; omega), if_neg (by simp; omega), if_neg (by simp; omega),
    if_neg (by simp; omega), if_neg (by simp; omega), if_neg (by simp)]
  by_cases hzero : high = 0
  · simp [hzero]
  · rw [if_neg (by simp; omega), if_neg hzero]
    by_cases hfour : high = 4
    · simp [hfour]
    · rw [if_pos (by simp; omega), if_neg hfour]

end Lead

theorem continueChar_cons {low high : UInt8} {digit : Nat} (hdigit : digit < 64)
    (hlow : low.toNat ≤ 0x80 + digit) (hhigh : 0x80 + digit ≤ high.toNat)
    (following bits : Nat) (rest : List UInt8) :
    continueChar low high (following + 1) bits ((0x80 + digit).toUInt8 :: rest) =
      ((continueChar 0x80 0xbf following (bits * 64 + digit) rest).1,
        (continueChar 0x80 0xbf following (bits * 64 + digit) rest).2 + 1) := by
  have hbyte : 0x80 + digit < 256 := by omega
  rw [continueChar,
    if_pos ⟨(le_toUInt8_iff hbyte).mpr hlow, (toUInt8_le_iff hbyte).mpr hhigh⟩,
    toNat_toUInt8 hbyte, Nat.add_sub_cancel_left]

theorem continueChar_one {digit : Nat} (hdigit : digit < 64) (bits : Nat)
    (rest : List UInt8) :
    continueChar 0x80 0xbf 1 bits ((0x80 + digit).toUInt8 :: rest) =
      (some (bits * 64 + digit), 1) :=
  continueChar_cons hdigit (Nat.le_add_right _ _) (by simp; omega) 0 bits rest

theorem continueChar_two {second third : Nat} (hsecond : second < 64) (hthird : third < 64)
    (bits : Nat) (rest : List UInt8) :
    continueChar 0x80 0xbf 2 bits
        ((0x80 + second).toUInt8 :: (0x80 + third).toUInt8 :: rest) =
      (some ((bits * 64 + second) * 64 + third), 2) := by
  rw [continueChar_cons hsecond (Nat.le_add_right _ _) (by simp; omega),
    continueChar_one hthird]

theorem decodeChar_encodeChar (c : Char) :
    ∃ first more, encodeChar c = first :: more ∧
      ∀ rest, decodeChar first (more ++ rest) = (some c, more.length) := by
  have hvalid : c.toNat < 0xd800 ∨ (0xdfff < c.toNat ∧ c.toNat < 0x110000) := c.valid
  have hchar : Char.ofNat c.toNat = c := Char.ofNat_toNat c
  generalize hcode : c.toNat = n at hvalid hchar
  simp only [encodeChar, hcode]
  by_cases hone : n < 0x80
  · refine ⟨n.toUInt8, [], by simp [hone], fun rest => ?_⟩
    rw [decodeChar, Lead.ofByte?_one hone]
    simp [continueChar, hchar]
  by_cases htwo : n < 0x800
  · rw [if_neg hone, if_pos htwo]
    refine ⟨_, _, rfl, fun rest => ?_⟩
    rw [decodeChar, Lead.ofByte?_two (by omega) (by omega)]
    have hnumber : n / 64 * 64 + n % 64 = n := by omega
    simp only [List.cons_append, List.nil_append,
      continueChar_one (Nat.mod_lt n (by omega)), hnumber, Option.map_some, hchar,
      List.length_singleton]
  rw [if_neg hone, if_neg htwo]
  by_cases hthree : n < 0x10000
  · rw [if_pos hthree]
    refine ⟨_, _, rfl, fun rest => ?_⟩
    rw [decodeChar, Lead.ofByte?_three (by omega)]
    have hnumber : (n / 4096 * 64 + n / 64 % 64) * 64 + n % 64 = n := by omega
    -- The bounds on the second byte leave out short characters and surrogates.
    have hleast : n / 4096 = 0 → 0x20 ≤ n / 64 % 64 := by omega
    have hmost : n / 4096 = 13 → n / 64 % 64 ≤ 0x1f := by omega
    simp only [List.cons_append, List.nil_append]
    rw [continueChar_cons (by omega) (by split <;> simp; omega)
        (by split <;> simp <;> omega),
      continueChar_one (by omega), hnumber, Option.map_some, hchar]
    rfl
  · rw [if_neg hthree]
    refine ⟨_, _, rfl, fun rest => ?_⟩
    rw [decodeChar, Lead.ofByte?_four (by omega)]
    have hnumber :
        ((n / 262144 * 64 + n / 4096 % 64) * 64 + n / 64 % 64) * 64 + n % 64 = n := by
      omega
    have hleast : n / 262144 = 0 → 0x10 ≤ n / 4096 % 64 := by omega
    have hmost : n / 262144 = 4 → n / 4096 % 64 ≤ 0xf := by omega
    simp only [List.cons_append, List.nil_append]
    rw [continueChar_cons (by omega) (by split <;> simp; omega)
        (by split <;> simp <;> omega),
      continueChar_two (by omega) (by omega), hnumber, Option.map_some, hchar]
    rfl

theorem decodeFrom_length (bytes rest : List UInt8) :
    decodeFrom bytes.length (bytes ++ rest) = decodeFrom 0 rest := by
  induction bytes with
  | nil => rfl
  | cons b bytes ih => exact ih

theorem decodeFrom_encodeUtf8 (text : List Char) (rest : List UInt8) :
    decodeFrom 0 (encodeUtf8 text ++ rest) = text.map some ++ decodeFrom 0 rest := by
  induction text with
  | nil => rfl
  | cons c text ih =>
      obtain ⟨first, more, hencode, hdecode⟩ := decodeChar_encodeChar c
      rw [encodeUtf8, List.flatMap_cons, ← encodeUtf8, hencode, List.append_assoc,
        List.cons_append, decodeFrom, hdecode]
      exact congrArg (some c :: ·) ((decodeFrom_length more _).trans ih)

theorem decodeUtf8Lossy_encodeUtf8 (text : List Char) :
    decodeUtf8Lossy (encodeUtf8 text) = text := by
  have hdecode := decodeFrom_encodeUtf8 text []
  rw [List.append_nil, decodeFrom, List.append_nil] at hdecode
  rw [decodeUtf8Lossy, hdecode, List.map_map]
  exact List.map_id' text

theorem encodeUtf8_ascii {text : List Char} (h : ∀ c ∈ text, c.toNat < 0x80) :
    encodeUtf8 text = text.map fun c => c.toNat.toUInt8 := by
  induction text with
  | nil => rfl
  | cons c text ih =>
      rw [encodeUtf8, List.flatMap_cons, ← encodeUtf8,
        ih fun c hc => h c (List.mem_cons_of_mem _ hc), encodeChar,
        if_pos (h c List.mem_cons_self)]
      rfl

/-- Outside of ASCII every byte is in the upper half. -/
theorem le_of_mem_encodeChar {c : Char} (hc : 0x80 ≤ c.toNat) :
    ∀ b ∈ encodeChar c, 0x80 ≤ b.toNat := by
  have hvalid : c.toNat < 0xd800 ∨ (0xdfff < c.toNat ∧ c.toNat < 0x110000) := c.valid
  simp only [encodeChar]
  generalize c.toNat = n at hc hvalid
  split_ifs
  · omega
  all_goals
    simp (disch := omega) only [List.mem_cons, List.not_mem_nil, or_false,
      forall_eq_or_imp, forall_eq, toNat_toUInt8]
    omega

theorem encodeChar_eq_utf8EncodeChar (c : Char) :
    encodeChar c = String.utf8EncodeChar c := by
  have hvalid : c.toNat < 0xd800 ∨ (0xdfff < c.toNat ∧ c.toNat < 0x110000) := c.valid
  have hval : c.val.toNat = c.toNat := rfl
  simp only [encodeChar, String.utf8EncodeChar, hval, Nat.le_iff_lt_add_one, Nat.reduceAdd]
  generalize c.toNat = n at hvalid
  -- The code point is too small for a remainder to take anything away from a first byte.
  split_ifs
  · rfl
  all_goals simp (disch := omega) only [Nat.toUInt8, Nat.mod_eq_of_lt, Nat.add_comm]

theorem encodeUtf8_toList (text : String) :
    encodeUtf8 text.toList = text.toUTF8.data.toList := by
  have hchars : encodeChar = String.utf8EncodeChar := funext encodeChar_eq_utf8EncodeChar
  have hbytes : text.toUTF8 = text.toList.utf8Encode := by
    rw [String.toUTF8_eq_toByteArray, ← String.toByteArray_ofList, String.ofList_toList]
  rw [encodeUtf8, hchars, hbytes, List.utf8Encode, List.data_toByteArray]

end Signpost.Text
