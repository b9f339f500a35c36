import HttpServerDemo.Library.Decimal
import Mathlib.Algebra.Order.Ring.Rat
import Mathlib.Data.Rat.Cast.Order

/-!
# The number at the start of a string

An SQL server compares a number with a quoted string by the number its leading numeric part
denotes. `NumericPrefix` is such a conversion: it reads back decimal numerals and does not look
behind the first NUL, which belongs to no number. `NumericPrefix.standard` is the conversion by
white space, sign, digits, fraction and exponent.
-/

/-- A conversion of strings to numbers by their leading numeric part. -/
structure NumericPrefix where
  toNumber : Octets → ℚ
  toNumber_ofNat : ∀ n : Nat, toNumber (Decimal.ofNat n) = n
  toNumber_cStr : ∀ s, toNumber (Octets.cStr s) = toNumber s

namespace NumericPrefix

open Decimal Octets

/-- The sign in front of a number and what follows it. -/
def sign : Octets → ℤ × Octets
  | 45 :: rest => (-1, rest)
  | 43 :: rest => (1, rest)
  | s => (1, s)

/-- The digits behind a decimal point and what follows them. -/
def fraction : Octets → Octets × Octets
  | 46 :: rest => (rest.takeWhile isDigit, rest.dropWhile isDigit)
  | s => ([], s)

/-- The exponent at the start of a string, and 0 where there is none. -/
def exponent : Octets → ℤ
  | b :: rest =>
      if b = 101 ∨ b = 69 then
        (sign rest).1 * (read 0 ((sign rest).2.takeWhile isDigit) : ℤ)
      else 0
  | [] => 0

/-- The number that the leading numeric part of a string denotes. -/
def leadingNumber (s : Octets) : ℚ :=
  let signed := sign (s.dropWhile isSpace)
  let whole := signed.2.takeWhile isDigit
  let fraction := fraction (signed.2.dropWhile isDigit)
  let exponent := exponent fraction.2
  signed.1 * (read 0 (whole ++ fraction.1) : ℕ) * 10 ^ (exponent - fraction.1.length)

theorem nul_not_digit : isDigit 0 = false :=
  rfl

theorem nul_not_space : isSpace 0 = false :=
  rfl

/-- A test that rejects NUL reads the same before the first NUL as in the whole string. -/
theorem takeWhile_cStr {p : UInt8 → Bool} (hp : p 0 = false) (s : Octets) :
    (cStr s).takeWhile p = s.takeWhile p := by
  induction s with
  | nil => rfl
  | cons b s ih =>
      by_cases hb : b = 0
      · subst hb
        simp [cStr, hp]
      · simp only [cStr, List.takeWhile_cons, bne_iff_ne, ne_eq, hb, not_false_eq_true, if_true]
        split
        · exact congrArg (b :: ·) ih
        · rfl

theorem dropWhile_cStr {p : UInt8 → Bool} (hp : p 0 = false) (s : Octets) :
    (cStr s).dropWhile p = cStr (s.dropWhile p) := by
  induction s with
  | nil => rfl
  | cons b s ih =>
      by_cases hb : b = 0
      · subst hb
        simp [cStr, hp]
      · by_cases hpb : p b = true
        · simpa [cStr, hb, hpb] using ih
        · simp [cStr, hb, hpb]

theorem cStr_cons_ne {b : UInt8} (h : b ≠ 0) (s : Octets) : cStr (b :: s) = b :: cStr s := by
  simp [cStr, h]

theorem sign_cStr (s : Octets) : sign (cStr s) = ((sign s).1, cStr (sign s).2) := by
  cases s with
  | nil => rfl
  | cons b s =>
      by_cases h45 : b = 45
      · subst h45
        rfl
      · by_cases h43 : b = 43
        · subst h43
          rfl
        · have hsign : sign (b :: s) = (1, b :: s) := by
            unfold sign
            split <;> simp_all
          by_cases hb : b = 0
          · subst hb
            rfl
          · rw [hsign, cStr_cons_ne hb]
            unfold sign
            split <;> simp_all

theorem fraction_cStr (s : Octets) :
    fraction (cStr s) = ((fraction s).1, cStr (fraction s).2) := by
  cases s with
  | nil => rfl
  | cons b s =>
      by_cases h46 : b = 46
      · subst h46
        rw [cStr_cons_ne (by decide)]
        simp only [fraction, takeWhile_cStr nul_not_digit, dropWhile_cStr nul_not_digit]
      · have hfraction : fraction (b :: s) = ([], b :: s) := by
          unfold fraction
          split <;> simp_all
        by_cases hb : b = 0
        · subst hb
          rfl
        · rw [hfraction, cStr_cons_ne hb]
          unfold fraction
          split <;> simp_all

theorem exponent_cStr (s : Octets) : exponent (cStr s) = exponent s := by
  cases s with
  | nil => rfl
  | cons b s =>
      by_cases hb : b = 0
      · subst hb
        rfl
      · rw [cStr_cons_ne hb]
        simp only [exponent, sign_cStr, takeWhile_cStr nul_not_digit]

theorem leadingNumber_cStr (s : Octets) : leadingNumber (cStr s) = leadingNumber s := by
  simp only [leadingNumber, dropWhile_cStr nul_not_space, sign_cStr,
    takeWhile_cStr nul_not_digit, dropWhile_cStr nul_not_digit, fraction_cStr,
    exponent_cStr]

theorem leadingNumber_ofNat (n : Nat) : leadingNumber (ofNat n) = n := by
  obtain ⟨b, rest, hn, hb⟩ := ofNat_eq_cons n
  have hspace : (ofNat n).dropWhile isSpace = ofNat n := by
    rw [hn]
    simp [isDigit_not_isSpace hb]
  have hsign : sign (ofNat n) = (1, ofNat n) := by
    have h45 : b ≠ 45 := isDigit_ne hb rfl
    have h43 : b ≠ 43 := isDigit_ne hb rfl
    rw [hn]
    unfold sign
    split <;> simp_all
  have hrest : (ofNat n).dropWhile isDigit = [] :=
    List.dropWhile_eq_nil_iff.mpr fun _ h => isDigit_of_mem_ofNat h
  simp only [leadingNumber, hspace, hsign, takeWhile_isDigit_ofNat, hrest]
  simp [fraction, exponent]

/-- The conversion by white space, sign, digits, fraction and exponent. -/
def standard : NumericPrefix where
  toNumber := leadingNumber
  toNumber_ofNat := leadingNumber_ofNat
  toNumber_cStr := leadingNumber_cStr

end NumericPrefix
