import Signpost.Form
import Signpost.Proofs.OrderedMap
import Signpost.Proofs.Text.Splitting
import Signpost.Proofs.Text.Utf8

namespace Signpost.Form

open Signpost.Text

/-! The characters that bytes are encoded by.  Neither separator is among them. -/

structure Safe (c : Char) : Prop where
  ascii : c.toNat < 0x80
  notAmpersand : c ≠ '&'
  notEquals : c ≠ '='

theorem hexDigit_safe {n : Nat} (h : n < 16) : Safe (hexDigit n) := by
  have hdigits :
      ∀ n < 16, (hexDigit n).toNat < 0x80 ∧ hexDigit n ≠ '&' ∧ hexDigit n ≠ '=' := by
    decide
  obtain ⟨hascii, hampersand, hequals⟩ := hdigits n h
  exact ⟨hascii, hampersand, hequals⟩

theorem toNat_ofNat_ascii {n : Nat} (h : n < 0x80) : (Char.ofNat n).toNat = n := by
  rw [Char.ofNat, dif_pos (.inl (by omega))]
  rfl

theorem isPlainByte_lt {b : UInt8} (h : isPlainByte b = true) : b.toNat < 0x80 := by
  rw [isPlainByte, Bool.and_eq_true, decide_eq_true_eq] at h
  exact UInt8.lt_iff_toNat_lt.mp h.1

theorem isPlainByte_ne {b other : UInt8} (h : isPlainByte b = true)
    (hother : isPlainByte other = false) : b ≠ other := by
  rintro rfl
  rw [h] at hother
  cases hother

theorem plain_safe {b : UInt8} (h : isPlainByte b = true) : Safe (Char.ofNat b.toNat) := by
  have hascii := isPlainByte_lt h
  have hne : ∀ other : UInt8, isPlainByte other = false → other.toNat < 0x80 →
      Char.ofNat b.toNat ≠ Char.ofNat other.toNat := by
    intro other hplain hother heq
    have hnumbers := congrArg Char.toNat heq
    rw [toNat_ofNat_ascii hascii, toNat_ofNat_ascii hother] at hnumbers
    exact isPlainByte_ne h hplain (UInt8.toNat_inj.mp hnumbers)
  refine ⟨?_, hne 38 (by decide) (by decide), hne 61 (by decide) (by decide)⟩
  rwa [toNat_ofNat_ascii hascii]

/-- A byte is encoded by its character, a plus sign, or a percent sign and two digits. -/
theorem encodeByte_cases {b : UInt8} {c : Char} (h : c ∈ encodeByte b) :
    (isPlainByte b = true ∧ c = Char.ofNat b.toNat) ∨ c = '+' ∨ c = '%' ∨
      ∃ n < 16, c = hexDigit n := by
  rw [encodeByte] at h
  split at h
  · rename_i hplain
    exact .inl ⟨hplain, List.mem_singleton.mp h⟩
  split at h
  · exact .inr (.inl (List.mem_singleton.mp h))
  · have hbyte := b.toNat_lt
    simp only [List.mem_cons, List.not_mem_nil, or_false] at h
    rcases h with rfl | rfl | rfl
    · exact .inr (.inr (.inl rfl))
    · exact .inr (.inr (.inr ⟨_, by omega, rfl⟩))
    · exact .inr (.inr (.inr ⟨_, by omega, rfl⟩))

theorem encodeByte_safe {b : UInt8} {c : Char} (h : c ∈ encodeByte b) : Safe c := by
  obtain ⟨hplain, rfl⟩ | rfl | rfl | ⟨n, hn, rfl⟩ := encodeByte_cases h
  · exact plain_safe hplain
  · exact ⟨by decide, by decide, by decide⟩
  · exact ⟨by decide, by decide, by decide⟩
  · exact hexDigit_safe hn

theorem encodeText_safe {text : String} {c : Char} (h : c ∈ encodeText text) : Safe c := by
  obtain ⟨b, -, hb⟩ := List.mem_flatMap.mp h
  exact encodeByte_safe hb

theorem hexValue?_hexDigit {n : Nat} (h : n < 16) :
    hexValue? (hexDigit n).toNat.toUInt8 = some n.toUInt8 := by
  have hdigits :
      ∀ n < 16, hexValue? (hexDigit n).toNat.toUInt8 = some n.toUInt8 := by decide
  exact hdigits n h

theorem halves_toUInt8 (b : UInt8) :
    (b.toNat / 16).toUInt8 * 16 + (b.toNat % 16).toUInt8 = b := by
  have hbyte := b.toNat_lt
  rw [← UInt8.toNat_inj, UInt8.toNat_add, UInt8.toNat_mul, toNat_toUInt8 (by omega),
    toNat_toUInt8 (by omega)]
  have hsixteen : (16 : UInt8).toNat = 16 := rfl
  rw [hsixteen]
  omega

theorem decodeBytes_cons {b : UInt8} (hpercent : b ≠ 37) (hplus : b ≠ 43)
    (rest : List UInt8) :
    decodeBytes (b :: rest) = b :: decodeBytes rest := by
  rw [decodeBytes]
  · exact fun _ _ _ h => absurd h hpercent
  · exact hplus

theorem decodeBytes_encodeByte (b : UInt8) (rest : List UInt8) :
    decodeBytes (encodeUtf8 (encodeByte b) ++ rest) = b :: decodeBytes rest := by
  rw [encodeUtf8_ascii fun c hc => (encodeByte_safe hc).ascii, encodeByte]
  have hbyte := b.toNat_lt
  split
  · rename_i hplain
    have hsame : (Char.ofNat b.toNat).toNat.toUInt8 = b := by
      rw [toNat_ofNat_ascii (isPlainByte_lt hplain)]
      exact UInt8.ofNat_toNat
    simp only [List.map_cons, List.map_nil, hsame, List.cons_append, List.nil_append]
    exact decodeBytes_cons (isPlainByte_ne hplain rfl) (isPlainByte_ne hplain rfl) rest
  split
  · rename_i hspace
    rw [hspace]
    rfl
  · have hpercent : '%'.toNat.toUInt8 = 37 := rfl
    simp only [List.map_cons, List.map_nil, List.cons_append, List.nil_append, hpercent]
    rw [decodeBytes, hexValue?_hexDigit (by omega), hexValue?_hexDigit (by omega)]
    exact congrArg (· :: decodeBytes rest) (halves_toUInt8 b)

@[simp] theorem encodeUtf8_append (first second : List Char) :
    encodeUtf8 (first ++ second) = encodeUtf8 first ++ encodeUtf8 second :=
  List.flatMap_append

theorem decodeBytes_flatMap (bytes : List UInt8) :
    decodeBytes (encodeUtf8 (bytes.flatMap encodeByte)) = bytes := by
  induction bytes with
  | nil => rfl
  | cons b bytes ih =>
      rw [List.flatMap_cons, encodeUtf8_append, decodeBytes_encodeByte, ih]

theorem decodeText_encodeText (text : String) :
    decodeText (encodeUtf8 (encodeText text)) = text := by
  rw [decodeText, encodeText, decodeBytes_flatMap, decodeUtf8Lossy_encodeUtf8,
    String.ofList_toList]

/-! Pairs are read back from between the separators. -/

theorem notMem_encodeUtf8 {text : List Char} (hascii : ∀ c ∈ text, c.toNat < 0x80)
    (separator : Char) (hseparator : separator.toNat < 0x80) (h : separator ∉ text) :
    separator.toNat.toUInt8 ∉ encodeUtf8 text := by
  rw [encodeUtf8_ascii hascii]
  intro hmem
  obtain ⟨c, hc, heq⟩ := List.mem_map.mp hmem
  have hchar := hascii c hc
  have hnumbers := congrArg UInt8.toNat heq
  rw [toNat_toUInt8 (by omega), toNat_toUInt8 (by omega)] at hnumbers
  exact h (Char.toNat_inj.mp hnumbers ▸ hc)

theorem encodeUtf8_cons_ascii {c : Char} (h : c.toNat < 0x80) (text : List Char) :
    encodeUtf8 (c :: text) = c.toNat.toUInt8 :: encodeUtf8 text := by
  rw [encodeUtf8, List.flatMap_cons, ← encodeUtf8, encodeChar, if_pos h]
  rfl

theorem splitPair_append {key : List UInt8} (hkey : 61 ∉ key) (value : List UInt8) :
    splitPair (key ++ 61 :: value) = (key, value) := by
  rw [splitPair, takeWhile_ne_append hkey, dropWhile_ne_append hkey]
  simp

theorem decodePair_encodePair (pair : String × String) :
    decodePair (encodeUtf8 (encodePair pair)) = pair := by
  have hkey : (61 : UInt8) ∉ encodeUtf8 (encodeText pair.1) :=
    notMem_encodeUtf8 (fun c hc => (encodeText_safe hc).ascii) '=' (by decide)
      fun hmem => (encodeText_safe hmem).notEquals rfl
  have hbytes : encodeUtf8 (encodePair pair) =
      encodeUtf8 (encodeText pair.1) ++ 61 :: encodeUtf8 (encodeText pair.2) := by
    rw [encodePair, encodeUtf8_append, encodeUtf8_cons_ascii (by decide)]
    rfl
  rw [decodePair, hbytes, splitPair_append hkey]
  simp only [decodeText_encodeText]

theorem splitFields_append {field : List UInt8} (hfield : 38 ∉ field) (rest : List UInt8) :
    splitFields (field ++ 38 :: rest) = field :: splitFields rest := by
  induction field with
  | nil => rfl
  | cons b field ih =>
      rw [List.cons_append, splitFields, if_neg (List.ne_of_not_mem_cons hfield).symm,
        ih (List.not_mem_of_not_mem_cons hfield)]

theorem splitFields_single {field : List UInt8} (hfield : 38 ∉ field) :
    splitFields field = [field] := by
  induction field with
  | nil => rfl
  | cons b field ih =>
      rw [splitFields, if_neg (List.ne_of_not_mem_cons hfield).symm,
        ih (List.not_mem_of_not_mem_cons hfield)]

theorem ampersand_notMem_encodePair (pair : String × String) :
    (38 : UInt8) ∉ encodeUtf8 (encodePair pair) := by
  have hcases : ∀ c ∈ encodePair pair, c = '=' ∨ Safe c := by
    intro c hc
    rw [encodePair, List.mem_append, List.mem_cons] at hc
    rcases hc with hkey | rfl | hvalue
    · exact .inr (encodeText_safe hkey)
    · exact .inl rfl
    · exact .inr (encodeText_safe hvalue)
  refine notMem_encodeUtf8 (fun c hc => ?_) '&' (by decide) fun hmem => ?_
  · rcases hcases c hc with rfl | hsafe
    · decide
    · exact hsafe.ascii
  · rcases hcases _ hmem with heq | hsafe
    · cases heq
    · exact hsafe.notAmpersand rfl

@[simp] theorem encodePairs_single (pair : String × String) :
    encodePairs [pair] = encodePair pair := by
  simp [encodePairs]

@[simp] theorem encodePairs_cons_cons (first second : String × String)
    (rest : List (String × String)) :
    encodePairs (first :: second :: rest) =
      encodePair first ++ '&' :: encodePairs (second :: rest) := by
  simp [encodePairs, List.intercalate]

theorem splitFields_encodePairs (pair : String × String) (rest : List (String × String)) :
    splitFields (encodeUtf8 (encodePairs (pair :: rest))) =
      (pair :: rest).map fun pair => encodeUtf8 (encodePair pair) := by
  induction rest generalizing pair with
  | nil =>
      rw [encodePairs_single, splitFields_single (ampersand_notMem_encodePair pair)]
      rfl
  | cons second rest ih =>
      have hampersand : '&'.toNat.toUInt8 = 38 := rfl
      rw [encodePairs_cons_cons, encodeUtf8_append, encodeUtf8_cons_ascii (by decide),
        hampersand, splitFields_append (ampersand_notMem_encodePair pair), ih]
      rfl

theorem decodePairs_encodePairs (pairs : List (String × String)) :
    decodePairs (String.ofList (encodePairs pairs)) = pairs := by
  rw [decodePairs, String.toList_ofList]
  cases pairs with
  | nil => rfl
  | cons pair rest =>
      -- A field has at least its equals sign, so that none is dropped as empty.
      have hfull : ∀ field ∈ (pair :: rest).map fun pair => encodeUtf8 (encodePair pair),
          (!field.isEmpty) = true := by
        intro field hfield
        obtain ⟨pair, -, rfl⟩ := List.mem_map.mp hfield
        rw [encodePair, encodeUtf8_append, encodeUtf8_cons_ascii (by decide)]
        simp
      rw [splitFields_encodePairs, List.filter_eq_self.mpr hfull, List.map_map]
      exact (List.map_congr_left fun pair _ => decodePair_encodePair pair).trans
        (List.map_id _)

/-- The parameters behind a question mark are the parameters that were put there. -/
theorem decode_encodePairs (params : Params) :
    decode (String.ofList (encodePairs params.toList)) = params := by
  rw [decode, decodePairs_encodePairs]
  exact OrderedMap.ext (OrderedMap.toList_ofList params.nodup)

def IsQueryChar (c : Char) : Prop :=
  c.isAlphanum = true ∨ c ∈ ['*', '-', '.', '_', '+', '%', '&', '=']

theorem isQueryChar_hexDigit {n : Nat} (h : n < 16) : IsQueryChar (hexDigit n) := by
  have hdigits : ∀ n < 16, (hexDigit n).isAlphanum = true := by decide
  exact .inl (hdigits n h)

theorem isQueryChar_plain {b : UInt8} (h : isPlainByte b = true) :
    IsQueryChar (Char.ofNat b.toNat) := by
  simp only [isPlainByte, Bool.and_eq_true, Bool.or_eq_true, decide_eq_true_eq] at h
  obtain ⟨-, (((halphanum | hsign) | hsign) | hsign) | hsign⟩ := h
  · exact .inl halphanum
  all_goals
    rw [hsign]
    exact .inr (by decide)

theorem isQueryChar_encodeByte {b : UInt8} {c : Char} (h : c ∈ encodeByte b) :
    IsQueryChar c := by
  obtain ⟨hplain, rfl⟩ | rfl | rfl | ⟨n, hn, rfl⟩ := encodeByte_cases h
  · exact isQueryChar_plain hplain
  · exact .inr (by decide)
  · exact .inr (by decide)
  · exact isQueryChar_hexDigit hn

theorem isQueryChar_encodePair {pair : String × String} {c : Char}
    (h : c ∈ encodePair pair) :
    IsQueryChar c := by
  have htext : ∀ text, c ∈ encodeText text → IsQueryChar c := by
    intro text hc
    obtain ⟨b, -, hb⟩ := List.mem_flatMap.mp hc
    exact isQueryChar_encodeByte hb
  rw [encodePair, List.mem_append, List.mem_cons] at h
  rcases h with hkey | rfl | hvalue
  · exact htext _ hkey
  · exact .inr (by decide)
  · exact htext _ hvalue

theorem isQueryChar_encodePairs {pairs : List (String × String)} {c : Char}
    (h : c ∈ encodePairs pairs) : IsQueryChar c := by
  induction pairs with
  | nil => cases h
  | cons first rest ih =>
      cases rest with
      | nil =>
          rw [encodePairs_single] at h
          exact isQueryChar_encodePair h
      | cons second rest =>
          rw [encodePairs_cons_cons, List.mem_append, List.mem_cons] at h
          rcases h with hfirst | rfl | hrest
          · exact isQueryChar_encodePair hfirst
          · exact .inr (by decide)
          · exact ih hrest

end Signpost.Form
