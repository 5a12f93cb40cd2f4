import Signpost.Json.Text
import Mathlib.Tactic.SplitIfs

namespace Signpost.Json

variable {c letter : Char}

theorem hexValue?_hexDigit : ∀ n < 16, hexValue? (hexDigit n) = some n := by decide

/-- A character that stands for itself, one that a letter escapes, or a code unit of four
digits. -/
inductive SpellsPiece : Piece → List Char → Prop
  | plain {c : Char} (hquote : c ≠ '"') (hslash : c ≠ '\\') (hcode : ¬ c.toNat < 32) :
      SpellsPiece (.char c) [c]
  | letter {c letter : Char} (h : escaped? letter = some c) :
      SpellsPiece (.char c) ['\\', letter]
  | unit {first second third fourth : Char} {value : Nat}
      (h : unitOf? first second third fourth = some value) :
      SpellsPiece (.unit value) ['\\', 'u', first, second, third, fourth]

inductive SpellsPieces : List Piece → List Char → Prop
  | nil : SpellsPieces [] []
  | cons {piece : Piece} {pieces : List Piece} {text others : List Char}
      (hpiece : SpellsPiece piece text) (hothers : SpellsPieces pieces others) :
      SpellsPieces (piece :: pieces) (text ++ others)

/-- A text between its quotation marks, which is absent if half of a surrogate pair is. -/
inductive SpellsText : Option String → List Char → Prop
  | quoted {pieces : List Piece} {text : List Char} (h : SpellsPieces pieces text) :
      SpellsText ((join? pieces).map String.ofList) ('"' :: (text ++ ['"']))

variable {piece : Piece} {pieces : List Piece} {text : List Char}

theorem readPieces?_piece (h : SpellsPiece piece text) (rest : List Char) :
    readPieces? (text ++ rest) =
      (readPieces? rest).map fun read => (piece :: read.1, read.2) := by
  cases h with
  | plain hquote hslash hcode =>
      rw [List.singleton_append, readPieces?, if_neg (not_or.mpr ⟨hcode, hslash⟩)]
      · cases readPieces? rest <;> rfl
      · exact hquote
      · intro first second third fourth others heq
        exact absurd heq hslash
      · intro letter others heq
        exact absurd heq hslash
  | @letter c letter hescaped =>
      have hletter : letter ≠ 'u' := by
        intro heq
        rw [heq] at hescaped
        cases hescaped
      simp only [List.cons_append, List.nil_append]
      rw [readPieces?, hescaped]
      · cases readPieces? rest <;> rfl
      · intro first second third fourth others heq
        exact absurd heq hletter
  | unit hvalue =>
      simp only [List.cons_append, List.nil_append]
      rw [readPieces?, hvalue]
      cases readPieces? rest <;> rfl

theorem readPieces?_spelled (h : SpellsPieces pieces text) (rest : List Char) :
    readPieces? (text ++ '"' :: rest) = some (pieces, rest) := by
  induction h with
  | nil => rfl
  | cons hpiece hothers ih =>
      rw [List.append_assoc, readPieces?_piece hpiece, ih]
      rfl

theorem readText?_spelled (h : SpellsPieces pieces text) (rest : List Char) :
    readText? (text ++ '"' :: rest) = some ((join? pieces).map String.ofList, rest) := by
  rw [readText?, readPieces?_spelled h]
  rfl

def pieceOf (c : Char) : Piece :=
  if (letterEscape? c).isNone && c.toNat < 32 then .unit c.toNat else .char c

theorem eq_ofNat_of_toNat {code : Nat} (h : c.toNat = code) : c = Char.ofNat code := by
  rw [← h, Char.ofNat_toNat]

theorem escaped?_of_letterEscape? (h : letterEscape? c = some letter) :
    escaped? letter = some c := by
  rw [letterEscape?] at h
  split_ifs at h with hquote hslash hback htab hline hfeed hreturn <;> cases h
  · subst hquote
    decide
  · subst hslash
    decide
  · rw [eq_ofNat_of_toNat hback]
    decide
  · rw [eq_ofNat_of_toNat htab]
    decide
  · rw [eq_ofNat_of_toNat hline]
    decide
  · rw [eq_ofNat_of_toNat hfeed]
    decide
  · rw [eq_ofNat_of_toNat hreturn]
    decide

theorem ne_of_letterEscape? (h : letterEscape? c = none) : c ≠ '"' ∧ c ≠ '\\' := by
  constructor
  · intro heq
    subst heq
    cases h
  · intro heq
    subst heq
    cases h

theorem unitOf?_control (h : c.toNat < 32) :
    unitOf? '0' '0' (hexDigit (c.toNat / 16)) (hexDigit (c.toNat % 16)) =
      some c.toNat := by
  have hhigh := hexValue?_hexDigit (c.toNat / 16) (by omega)
  have hlow := hexValue?_hexDigit (c.toNat % 16) (by omega)
  have hzero : hexValue? '0' = some 0 := by decide
  have hvalue : ((0 * 16 + 0) * 16 + c.toNat / 16) * 16 + c.toNat % 16 =
      c.toNat := by omega
  rw [unitOf?, hzero, hhigh, hlow]
  simp only [Option.pure_def, Option.bind_eq_bind, Option.bind_some, hvalue]

theorem spellsPiece_writeChar (c : Char) : SpellsPiece (pieceOf c) (writeChar c) := by
  cases hletter : letterEscape? c with
  | some letter =>
      simp only [writeChar, pieceOf, hletter]
      exact .letter (escaped?_of_letterEscape? hletter)
  | none =>
      by_cases hcode : c.toNat < 32
      · simp only [writeChar, pieceOf, hletter, hcode]
        exact .unit (unitOf?_control hcode)
      · obtain ⟨hquote, hslash⟩ := ne_of_letterEscape? hletter
        simp only [writeChar, pieceOf, hletter, hcode]
        exact .plain hquote hslash hcode

theorem spellsPieces_written (text : List Char) :
    SpellsPieces (text.map pieceOf) (text.flatMap writeChar) := by
  induction text with
  | nil => exact .nil
  | cons c text ih => exact .cons (spellsPiece_writeChar c) ih

/-- A unit below the surrogates stands for a character by itself, whatever follows. -/
theorem join?_unit {value : Nat} (h : value < 0xd800) (rest : List Piece) :
    join? (.unit value :: rest) = (join? rest).map (Char.ofNat value :: ·) := by
  have hleading : isLeading value = false := by
    simp only [isLeading, Bool.and_eq_false_iff, decide_eq_false_iff_not]
    omega
  have htrailing : isTrailing value = false := by
    simp only [isTrailing, Bool.and_eq_false_iff, decide_eq_false_iff_not]
    omega
  cases rest with
  | nil => simp [join?, hleading, htrailing]
  | cons piece others =>
      cases piece <;> simp [join?, hleading, htrailing]

theorem join?_pieceOf (c : Char) (rest : List Piece) :
    join? (pieceOf c :: rest) = (join? rest).map (c :: ·) := by
  rw [pieceOf]
  split
  · rename_i hunit
    have hcode : c.toNat < 32 := of_decide_eq_true (Bool.and_eq_true_iff.mp hunit).2
    rw [join?_unit (by omega), Char.ofNat_toNat]
  · rfl

theorem join?_map (text : List Char) : join? (text.map pieceOf) = some text := by
  induction text with
  | nil => rfl
  | cons c text ih =>
      rw [List.map_cons, join?_pieceOf, ih]
      rfl

theorem spellsText_written (text : String) :
    SpellsText (some text) (writeText text.toList) := by
  have hquoted := SpellsText.quoted (spellsPieces_written text.toList)
  rwa [join?_map, Option.map_some, String.ofList_toList] at hquoted

end Signpost.Json
