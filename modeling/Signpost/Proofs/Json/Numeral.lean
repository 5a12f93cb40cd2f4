import Signpost.Json.Numeral
import Signpost.Number.Notation
import Mathlib.Data.Nat.Digits.Defs
import Mathlib.Tactic.IntervalCases

namespace Signpost.Json

theorem valueOf_eq_ofDigitChars (run : List Char) :
    valueOf run = Nat.ofDigitChars 10 run 0 := by
  have hfold : ∀ (run : List Char) (start : Nat),
      run.foldl (fun value c => value * 10 + digitValue c) start =
        Nat.ofDigitChars 10 run start := by
    intro run
    induction run with
    | nil => exact fun _ => rfl
    | cons c run ih =>
        intro start
        rw [List.foldl_cons, Nat.ofDigitChars_cons, ih, Nat.mul_comm start]
        rfl
  exact hfold run 0

theorem head?_toDigits {n : Nat} (h : 0 < n) : (Nat.toDigits 10 n).head? ≠ some '0' := by
  induction n using Nat.strongRecOn with
  | ind n ih =>
      by_cases hsmall : n < 10
      · rw [Nat.toDigits_of_lt_base hsmall]
        interval_cases n <;> decide
      · -- The first digit is that of the number without its last one.
        rw [Nat.toDigits_of_base_le (by omega) (by omega), List.head?_append]
        have hfirst := ih (n / 10) (by omega) (by omega)
        cases hdigits : Nat.toDigits 10 (n / 10) with
        | nil => exact absurd hdigits Nat.toDigits_ne_nil
        | cons c run =>
            rw [hdigits] at hfirst
            exact hfirst

def continues (c : Char) : Bool := c.isDigit || c = '.' || c = 'e' || c = 'E'

/-- Text that does not go on with the number in front of it. -/
def EndsNumber (rest : List Char) : Prop := ∀ c ∈ rest.head?, continues c = false

theorem endsNumber_nil : EndsNumber [] := by
  intro c hc
  cases hc

theorem endsNumber_cons {c : Char} (h : continues c = false) {rest : List Char} :
    EndsNumber (c :: rest) := by
  intro d hd
  obtain rfl : c = d := Option.some.inj hd
  exact h

theorem EndsNumber.undigited {rest : List Char} (h : EndsNumber rest) :
    ∀ c ∈ rest.head?, c.isDigit = false := by
  intro c hc
  have hends := h c hc
  simp only [continues, Bool.or_eq_false_iff] at hends
  exact hends.1.1.1

structure Digits (run : List Char) : Prop where
  nonempty : run ≠ []
  digits : ∀ c ∈ run, c.isDigit = true

inductive SpellsFraction : Option (List Char) → List Char → Prop
  | absent : SpellsFraction none []
  | digits {run : List Char} (hrun : Digits run) : SpellsFraction (some run) ('.' :: run)

inductive SpellsSign : Bool → List Char → Prop
  | minus : SpellsSign true ['-']
  | plus : SpellsSign false ['+']
  | absent : SpellsSign false []

inductive SpellsExponent : Option (Bool × List Char) → List Char → Prop
  | absent : SpellsExponent none []
  | digits {mark : Char} {negative : Bool} {sign run : List Char}
      (hmark : mark = 'e' ∨ mark = 'E') (hsign : SpellsSign negative sign)
      (hrun : Digits run) :
      SpellsExponent (some (negative, run)) (mark :: (sign ++ run))

/-- What follows the minus sign of a number. -/
inductive SpellsMagnitude : Numeral → List Char → Prop
  | parts (negative : Bool) {whole point power : List Char} {fraction : Option (List Char)}
      {exponent : Option (Bool × List Char)} (hwhole : Digits whole)
      (hzero : whole = ['0'] ∨ whole.head? ≠ some '0')
      (hfraction : SpellsFraction fraction point)
      (hexponent : SpellsExponent exponent power) :
      SpellsMagnitude ⟨negative, whole, fraction, exponent⟩ (whole ++ (point ++ power))

inductive SpellsNumeral : Numeral → List Char → Prop
  | negative {numeral : Numeral} {text : List Char} (hsign : numeral.negative = true)
      (h : SpellsMagnitude numeral text) : SpellsNumeral numeral ('-' :: text)
  | natural {numeral : Numeral} {text : List Char} (hsign : numeral.negative = false)
      (h : SpellsMagnitude numeral text) : SpellsNumeral numeral text

variable {rest point power run whole : List Char} {fraction : Option (List Char)}
  {exponent : Option (Bool × List Char)}

theorem Digits.exists_cons (h : Digits run) :
    ∃ c others, run = c :: others ∧ c.isDigit = true := by
  cases run with
  | nil => exact absurd rfl h.nonempty
  | cons c others => exact ⟨c, others, rfl, h.digits c List.mem_cons_self⟩

theorem digits?_append (hrun : Digits run) (hrest : ∀ c ∈ rest.head?, c.isDigit = false) :
    digits? (run ++ rest) = some (run, rest) := by
  have hstop : rest.takeWhile Char.isDigit = [] ∧ rest.dropWhile Char.isDigit = rest := by
    cases rest with
    | nil => exact ⟨rfl, rfl⟩
    | cons c rest =>
        rw [List.takeWhile_cons, List.dropWhile_cons, hrest c rfl]
        exact ⟨rfl, rfl⟩
  simp only [digits?, digits, List.takeWhile_append_of_pos hrun.digits,
    List.dropWhile_append_of_pos hrun.digits, hstop, List.append_nil]
  rw [if_neg (by simpa using hrun.nonempty)]

theorem hasLeadingZero_of_digits (hzero : whole = ['0'] ∨ whole.head? ≠ some '0') :
    hasLeadingZero whole = false := by
  rw [hasLeadingZero.eq_def]
  split
  · rcases hzero with heq | hhead
    · cases heq
    · exact absurd rfl hhead
  · rfl

theorem SpellsExponent.undigited (h : SpellsExponent exponent power)
    (hrest : EndsNumber rest) :
    ∀ c ∈ (power ++ rest).head?, c.isDigit = false := by
  cases h with
  | absent => exact hrest.undigited
  | digits hmark hsign hrun =>
      intro c hc
      obtain rfl := Option.some.inj hc
      rcases hmark with rfl | rfl <;> rfl

theorem SpellsFraction.undigited (h : SpellsFraction fraction point)
    (hexponent : SpellsExponent exponent power) (hrest : EndsNumber rest) :
    ∀ c ∈ (point ++ (power ++ rest)).head?, c.isDigit = false := by
  cases h with
  | absent => exact hexponent.undigited hrest
  | digits hrun =>
      intro c hc
      obtain rfl := Option.some.inj hc
      rfl

theorem readFraction?_spelled (h : SpellsFraction fraction point)
    (hexponent : SpellsExponent exponent power) (hrest : EndsNumber rest) :
    readFraction? (point ++ (power ++ rest)) = some (fraction, power ++ rest) := by
  cases h with
  | absent =>
      rw [List.nil_append, readFraction?.eq_def]
      split
      · rename_i heq
        cases hexponent with
        | absent =>
            rw [List.nil_append] at heq
            exact absurd (hrest '.' (by rw [heq]; rfl)) (by decide)
        | digits hmark hsign hrun =>
            obtain ⟨rfl, -⟩ := List.cons.inj heq
            exact absurd hmark (by decide)
      · rfl
  | digits hrun =>
      rw [List.cons_append, readFraction?, digits?_append hrun (hexponent.undigited hrest)]
      rfl

theorem readSign_spelled {negative : Bool} {sign : List Char}
    (h : SpellsSign negative sign) (hrun : Digits run) (rest : List Char) :
    readSign (sign ++ (run ++ rest)) = (negative, run ++ rest) := by
  cases h with
  | minus => rfl
  | plus => rfl
  | absent =>
      obtain ⟨c, others, rfl, hc⟩ := hrun.exists_cons
      rw [List.nil_append, List.cons_append, readSign.eq_def]
      split
      · rename_i heq
        obtain ⟨rfl, -⟩ := List.cons.inj heq
        cases hc
      · rename_i heq
        obtain ⟨rfl, -⟩ := List.cons.inj heq
        cases hc
      · rfl

theorem readExponent?_spelled (h : SpellsExponent exponent power)
    (hrest : EndsNumber rest) :
    readExponent? (power ++ rest) = some (exponent, rest) := by
  cases h with
  | absent =>
      cases rest with
      | nil => rfl
      | cons c rest =>
          have hc := hrest c rfl
          simp only [continues, Bool.or_eq_false_iff, decide_eq_false_iff_not] at hc
          rw [List.nil_append, readExponent?, if_neg (not_or.mpr ⟨hc.1.2, hc.2⟩)]
  | digits hmark hsign hrun =>
      rw [List.cons_append, List.append_assoc, readExponent?, if_pos hmark]
      simp only [readSign_spelled hsign hrun, digits?_append hrun hrest.undigited]
      rfl

theorem readNumeral?_spelled {numeral : Numeral} {text : List Char}
    (h : SpellsMagnitude numeral text) (hrest : EndsNumber rest) :
    readNumeral? numeral.negative (text ++ rest) = some (numeral, rest) := by
  cases h with
  | parts negative hwhole hzero hfraction hexponent =>
      rw [List.append_assoc, List.append_assoc, readNumeral?,
        digits?_append hwhole (hfraction.undigited hexponent hrest)]
      simp only [Option.bind_eq_bind, Option.bind_some, hasLeadingZero_of_digits hzero,
        readFraction?_spelled hfraction hexponent hrest,
          readExponent?_spelled hexponent hrest]
      rfl

theorem digits_toDigits (n : Nat) : Digits (Nat.toDigits 10 n) where
  nonempty := Nat.toDigits_ne_nil
  digits := fun _ hc => Nat.isDigit_of_mem_toDigits (by omega) (Nat.le_refl 10) hc

theorem spellsMagnitude_toDigits (negative : Bool) (n : Nat) :
    SpellsMagnitude ⟨negative, Nat.toDigits 10 n, none, none⟩ (Nat.toDigits 10 n) := by
  have hzero : Nat.toDigits 10 n = ['0'] ∨ (Nat.toDigits 10 n).head? ≠ some '0' := by
    cases n with
    | zero => exact .inl rfl
    | succ n => exact .inr (head?_toDigits (Nat.succ_pos n))
  have hparts := SpellsMagnitude.parts negative (digits_toDigits n) hzero .absent .absent
  rwa [List.append_nil, List.append_nil] at hparts

/-- A literal without fraction and exponent for a whole number of 64 bits, with a sign bit
or without.  A zero has no sign. -/
structure Numeral.Denotes (numeral : Numeral) (n : Int) : Prop where
  fraction : numeral.fraction = none
  exponent : numeral.exponent = none
  value : n = if numeral.negative then -(Nat.ofDigitChars 10 numeral.whole 0 : Int)
    else Nat.ofDigitChars 10 numeral.whole 0
  nonzero : numeral.negative → n ≠ 0
  least : -2 ^ 63 ≤ n
  most : n < 2 ^ 64

theorem Numeral.Denotes.value? {numeral : Numeral} {n : Int} (h : numeral.Denotes n) :
    numeral.value? = some (.integer n) := by
  obtain ⟨negative, whole, fraction, exponent⟩ := numeral
  obtain ⟨rfl, rfl, hvalue, hnonzero, hleast, hmost⟩ := h
  have hhalf : halfLimit = 2 ^ 63 := rfl
  have hword : wordLimit = 2 ^ 64 := rfl
  simp only [← valueOf_eq_ofDigitChars] at hvalue
  cases negative with
  | false =>
      rw [if_neg (by decide)] at hvalue
      have hsmall : valueOf whole < wordLimit := by omega
      simp [Numeral.value?, hsmall, hvalue]
  | true =>
      rw [if_pos rfl] at hvalue
      have hne := hnonzero rfl
      have hpositive : 0 < valueOf whole := by omega
      have hlimit : valueOf whole ≤ halfLimit := by omega
      have hsmall : valueOf whole < wordLimit := by omega
      simp [Numeral.value?, hsmall, hpositive, hlimit, hvalue]

theorem denotes_natural {n : Nat} (h : n < wordLimit) :
    Numeral.Denotes ⟨false, Nat.toDigits 10 n, none, none⟩ n where
  fraction := rfl
  exponent := rfl
  value := congrArg Int.ofNat Nat.ofDigitChars_ten_toDigits.symm
  nonzero := nofun
  least := by omega
  most := Int.ofNat_lt.mpr h

theorem denotes_negative {n : Nat} (hpositive : 0 < n) (h : n ≤ halfLimit) :
    Numeral.Denotes ⟨true, Nat.toDigits 10 n, none, none⟩ (-(n : Int)) where
  fraction := rfl
  exponent := rfl
  value := congrArg (fun n : Nat => -(n : Int)) Nat.ofDigitChars_ten_toDigits.symm
  nonzero := by
    intro _
    omega
  least := Int.neg_le_neg (Int.ofNat_le.mpr h)
  most := by omega

end Signpost.Json
