/-
# Specimen.Json.Value — JSON values.

Objects keep their fields in order, a name may occur more than once, and a number is kept as it is
written rather than as a quantity: what a number means is decided by the one who asks.
-/

namespace Specimen.Json

/-- A number as it is written. -/
structure Numeral where
  negative : Bool
  /-- The digits in front of the point. -/
  whole : List Char
  /-- The digits behind the point, if there is one. -/
  fraction : Option (List Char)
  /-- The power of ten, if there is one. -/
  exponent : Option Int
  deriving DecidableEq, Repr

/-- A JSON value. -/
inductive Value where
  | null
  | bool (value : Bool)
  | number (numeral : Numeral)
  | string (text : String)
  | array (elements : List Value)
  | object (fields : List (String × Value))
  deriving Repr

namespace Numeral

/-- The number written with these digits and nothing else. -/
def ofNat (n : Nat) : Numeral := ⟨false, Nat.toDigits 10 n, none, none⟩

/-- One more than the greatest number of 64 bits. -/
def wordLimit : Nat := UInt64.size

/-- The natural number of 64 bits that is written, if there is neither sign nor point nor
exponent. -/
def natural? (numeral : Numeral) : Option Nat :=
  match numeral with
  | ⟨false, whole, none, none⟩ =>
    let n := Nat.ofDigitChars 10 whole 0
    if n < wordLimit then some n else none
  | _ => none

theorem natural?_ofNat {n : Nat} (h : n < wordLimit) : natural? (ofNat n) = some n := by
  simp [natural?, ofNat, h]

/-! ## Magnitude

A number is out of range if it is too large for double precision.  Its digits are taken in as one
integer as long as that integer has 64 bits; digits in front of the point that no longer fit count
as powers of ten, and digits behind the point that no longer fit are left out.  The integer and the
power of ten that belongs to it are each rounded to a double, and the product of the two must not
round to infinity. -/

/-- Takes in digits while the integer they make has 64 bits; gives it with the digits left. -/
def significand (n : Nat) : List Char → Nat × List Char
  | [] => (n, [])
  | digit :: digits =>
    let next := Nat.ofDigitChars 10 [digit] n
    if next < wordLimit then significand next digits else (n, digit :: digits)

/-- The number with at most 53 significant bits that is nearest.  Of two that are equally near, the
one that is an even multiple of its last bit is taken. -/
def nearestDouble (n : Nat) : Nat :=
  let unit := Nat.pow 2 (n.log2 + 1 - 53)
  let below := n / unit * unit
  let excess := n % unit
  if unit < 2 * excess ∨ (unit = 2 * excess ∧ n / unit % 2 = 1) then below + unit else below

/-- The least number that rounds to infinity: half a last bit above the greatest double. -/
def infinityBound : Nat := Nat.pow 2 1024 - Nat.pow 2 970

/-- Whether the number is too large for double precision. -/
def overflows (numeral : Numeral) : Bool :=
  let fraction := numeral.fraction.getD []
  let (whole, dropped) := significand 0 numeral.whole
  let (digits, unused) := significand whole fraction
  let scale := numeral.exponent.getD 0 + dropped.length - (fraction.length - unused.length : Nat)
  digits ≠ 0 && (308 < scale ||
    0 ≤ scale && infinityBound ≤ nearestDouble digits * nearestDouble (Nat.pow 10 scale.toNat))

/-- Reading on never makes an integer smaller. -/
theorem le_ofDigitChars (digits : List Char) (n : Nat) : n ≤ Nat.ofDigitChars 10 digits n := by
  induction digits generalizing n with
  | nil => simp
  | cons d ds ih =>
    rw [Nat.ofDigitChars_cons]
    exact Nat.le_trans (by omega) (ih _)

/-- Digits that make an integer of 64 bits are all taken in. -/
theorem significand_of_lt {digits : List Char} {n : Nat}
    (h : Nat.ofDigitChars 10 digits n < wordLimit) :
    significand n digits = (Nat.ofDigitChars 10 digits n, []) := by
  induction digits generalizing n with
  | nil => simp [significand]
  | cons d ds ih =>
    rw [Nat.ofDigitChars_cons] at h
    have fits := Nat.lt_of_le_of_lt (le_ofDigitChars ds _) h
    have one : Nat.ofDigitChars 10 [d] n = 10 * n + (d.toNat - '0'.toNat) := by
      simp [Nat.ofDigitChars_cons]
    simp only [significand, one, fits, if_true, Nat.ofDigitChars_cons]
    exact ih h

/-- Rounding at most doubles a number. -/
theorem nearestDouble_le (n : Nat) : nearestDouble n ≤ 2 * n := by
  by_cases zero : n = 0
  · subst zero; decide
  · have unit_le : Nat.pow 2 (n.log2 + 1 - 53) ≤ n :=
      Nat.le_trans (Nat.pow_le_pow_right (by decide) (by omega)) (Nat.log2_self_le zero)
    have below_le := Nat.div_mul_le_self n (Nat.pow 2 (n.log2 + 1 - 53))
    simp only [nearestDouble]
    split <;> omega

/-- A natural number of 64 bits is in range, whatever digits it is written with. -/
theorem overflows_of_lt {digits : List Char} (h : Nat.ofDigitChars 10 digits 0 < wordLimit) :
    overflows ⟨false, digits, none, none⟩ = false := by
  generalize same : Nat.ofDigitChars 10 digits 0 = n at h
  have whole : significand 0 digits = (n, []) := by
    rw [significand_of_lt] <;> simp [same, h]
  have bound : nearestDouble n * nearestDouble (Nat.pow 10 0) < infinityBound := by
    have one : nearestDouble (Nat.pow 10 0) = 1 := by decide
    have small : 2 * wordLimit ≤ infinityBound := by decide +kernel
    have := nearestDouble_le n
    rw [one]; omega
  simpa [overflows, whole, significand] using fun _ => bound

theorem overflows_ofNat {n : Nat} (h : n < wordLimit) : overflows (ofNat n) = false :=
  overflows_of_lt (by simpa using h)

end Numeral

namespace Value

/-- A natural number. -/
def natural (n : Nat) : Value := .number (.ofNat n)

end Value

end Specimen.Json
