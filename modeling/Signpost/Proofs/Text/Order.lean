import Signpost.Proofs.Text.Utf8
import Mathlib.Data.String.Basic

namespace Signpost.Text

theorem toUInt8_lt_toUInt8_iff {m n : Nat} (hm : m < 256) (hn : n < 256) :
    m.toUInt8 < n.toUInt8 ↔ m < n := by
  rw [toUInt8_lt_iff hm, toNat_toUInt8 hn]

theorem toUInt8_eq_toUInt8_iff {m n : Nat} (hm : m < 256) (hn : n < 256) :
    m.toUInt8 = n.toUInt8 ↔ m = n := by
  rw [toUInt8_eq_iff hm, toNat_toUInt8 hn]

/-- The bytes of two characters differ before either ends, so what follows does not
matter. -/
theorem encodeChar_lt {c d : Char} (h : c < d) (rest others : List UInt8) :
    encodeChar c ++ rest < encodeChar d ++ others := by
  have hlt : c.toNat < d.toNat := h
  have hvalid : d.toNat < 0x110000 := by
    have hd : d.toNat < 0xd800 ∨ (0xdfff < d.toNat ∧ d.toNat < 0x110000) := d.valid
    omega
  simp only [encodeChar]
  generalize c.toNat = m at hlt
  generalize d.toNat = n at hlt hvalid
  -- Of two lengths the longer has the greater first byte; of one length, the first byte
  -- that differs holds the first digits that differ.
  split_ifs
  all_goals
    simp (disch := omega) only [List.cons_append, List.nil_append, List.cons_lt_cons_iff,
      toUInt8_lt_toUInt8_iff, toUInt8_eq_toUInt8_iff]
    omega

/-- The order of characters one after another is that of the bytes one after another. -/
theorem encodeUtf8_lt {first second : List Char} (h : first < second) :
    encodeUtf8 first < encodeUtf8 second := by
  induction h with
  | @nil c second =>
      obtain ⟨first, more, hencode, -⟩ := decodeChar_encodeChar c
      rw [encodeUtf8, encodeUtf8, List.flatMap_cons, hencode]
      exact List.Lex.nil
  | rel h => exact encodeChar_lt h _ _
  | @cons c first second h ih =>
      rw [encodeUtf8, encodeUtf8, List.flatMap_cons, List.flatMap_cons]
      exact List.append_left_lt ih

end Signpost.Text
