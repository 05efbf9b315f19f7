/-!
Double-precision numbers as exact data. A finite number is a sign, a significand and a power of two;
every operation computes exactly and then rounds to the nearest number, ties to the even one.
-/

namespace LayeredConfig

namespace Binary64

/-- The exponent of the smallest numbers. -/
def leastExponent : Int := -1074

/-- The exponent of the largest numbers. -/
def greatestExponent : Int := 971

/-- A positive number as it is kept: its significand has 53 bits, or fewer at the least exponent. -/
structure Fitted (significand : Nat) (exponent : Int) : Prop where
  positive : 0 < significand
  lt : significand < Nat.pow 2 53
  least : leastExponent ≤ exponent
  greatest : exponent ≤ greatestExponent
  filled : Nat.pow 2 52 ≤ significand ∨ exponent = leastExponent

instance {significand : Nat} {exponent : Int} : Decidable (Fitted significand exponent) :=
  decidable_of_iff (0 < significand ∧ significand < Nat.pow 2 53 ∧ leastExponent ≤ exponent ∧
      exponent ≤ greatestExponent ∧ (Nat.pow 2 52 ≤ significand ∨ exponent = leastExponent))
    ⟨fun ⟨positive, lt, least, greatest, filled⟩ => ⟨positive, lt, least, greatest, filled⟩,
      fun fitted => ⟨fitted.positive, fitted.lt, fitted.least, fitted.greatest, fitted.filled⟩⟩

end Binary64

/-- A double-precision number. Each finite one has one significand and one exponent, and zero has the
exponent 0. The results that are not numbers carry an origin: each such result equals only itself,
and `0` is the one that all configuration texts share. -/
inductive Binary64
  | finite (negative : Bool) (significand : Nat) (exponent : Int)
    (kept : significand = 0 ∧ exponent = 0 ∨ Binary64.Fitted significand exponent)
  | infinite (negative : Bool)
  | notANumber (origin : Nat)
  deriving DecidableEq, Repr

namespace Binary64

def zero (negative : Bool) : Binary64 := .finite negative 0 0 (.inl ⟨rfl, rfl⟩)

/-- The number with a rounded significand. A number that is too large is infinite. -/
def ofRounded (negative : Bool) (significand : Nat) (exponent : Int) : Binary64 :=
  if significand == 0 then zero negative
  else if fitted : Fitted significand exponent then .finite negative significand exponent (.inr fitted)
  else .infinite negative

/-- The fraction `numerator / denominator / 2 ^ exponent`. -/
def scale (numerator denominator : Nat) (exponent : Int) : Nat × Nat :=
  if 0 ≤ exponent then (numerator, denominator * Nat.pow 2 exponent.toNat)
  else (numerator * Nat.pow 2 (-exponent).toNat, denominator)

/-- The quotient rounded to the nearest whole number, a tie to the even one. -/
def roundQuotient (numerator denominator : Nat) : Nat :=
  let quotient := numerator / denominator
  let rest := 2 * (numerator % denominator)
  if rest < denominator then quotient
  else if denominator < rest then quotient + 1
  else if quotient % 2 == 0 then quotient
  else quotient + 1

/-- The exponent that gives a positive fraction a significand of 53 bits. -/
def fittingExponent (numerator denominator : Nat) : Int :=
  let guess : Int := (numerator.log2 : Int) - denominator.log2 - 52
  let (top, bottom) := scale numerator denominator guess
  if Nat.pow 2 53 ≤ top / bottom then guess + 1
  else if top / bottom < Nat.pow 2 52 then guess - 1
  else guess

/-- The significand and the exponent of a positive fraction, rounded. -/
def rounded (numerator denominator : Nat) : Nat × Int :=
  let exponent := max (fittingExponent numerator denominator) leastExponent
  let (top, bottom) := scale numerator denominator exponent
  let significand := roundQuotient top bottom
  if significand == Nat.pow 2 53 then (Nat.pow 2 52, exponent + 1) else (significand, exponent)

/-- The nearest double-precision number to a fraction. -/
def ofRatio (negative : Bool) (numerator denominator : Nat) : Binary64 :=
  if numerator == 0 then zero negative
  else ofRounded negative (rounded numerator denominator).1 (rounded numerator denominator).2

/-- The nearest double-precision number to `± digits · 10 ^ exponent`. -/
def ofDecimal (negative : Bool) (digits : Nat) (exponent : Int) : Binary64 :=
  if digits == 0 then zero negative
  else
    let size : Int := (digits.log2 : Int) / 4 + exponent
    if 400 < size then .infinite negative
    else if exponent + digits.log2 < -400 then zero negative
    else if 0 ≤ exponent then ofRatio negative (digits * Nat.pow 10 exponent.toNat) 1
    else ofRatio negative digits (Nat.pow 10 (-exponent).toNat)

/-- The nearest double-precision number to a whole number, if it is in range. -/
def ofInt? (n : Int) : Option Binary64 :=
  match ofRatio (n < 0) n.natAbs 1 with
  | .infinite _ => none
  | x => some x

/-- Whether a number has a negative sign; zero may have one. -/
def isNegative : Binary64 → Bool
  | .finite negative _ _ _ => negative
  | .infinite negative => negative
  | .notANumber _ => false

def isNotANumber : Binary64 → Bool
  | .notANumber _ => true
  | _ => false

def negate : Binary64 → Binary64
  | .finite negative significand exponent kept => .finite (!negative) significand exponent kept
  | .infinite negative => .infinite (!negative)
  | .notANumber origin => .notANumber origin

/-- A finite number as a signed numerator over a power of two. -/
def toFraction (negative : Bool) (significand : Nat) (exponent : Int) : Int × Nat :=
  let signed : Int := if negative then -significand else significand
  if 0 ≤ exponent then (signed * Int.pow 2 exponent.toNat, 0) else (signed, (-exponent).toNat)

/-- Halves a numerator and its power of two as long as both allow it. -/
def halve (numerator : Int) : Nat → Int × Nat
  | 0 => (numerator, 0)
  | power + 1 => if numerator % 2 == 0 then halve (numerator / 2) power else (numerator, power + 1)

/-- The value of a finite number as a fraction in lowest terms, `numerator / 2 ^ power`. -/
def dyadic (negative : Bool) (significand : Nat) (exponent : Int) : Int × Nat :=
  let (numerator, power) := toFraction negative significand exponent
  halve numerator power

/-- The exact sum of two finite numbers, rounded; a zero sum is negative only if both are. -/
def add : Binary64 → Binary64 → Binary64
  | .finite n₁ s₁ e₁ _, .finite n₂ s₂ e₂ _ =>
    let (a, i) := toFraction n₁ s₁ e₁
    let (b, j) := toFraction n₂ s₂ e₂
    let sum : Int := a * Int.pow 2 j + b * Int.pow 2 i
    if sum == 0 then zero (n₁ && n₂)
    else ofRatio (sum < 0) sum.natAbs (Nat.pow 2 (i + j))
  | .notANumber origin, _ => .notANumber origin
  | _, .notANumber origin => .notANumber origin
  | .infinite a, .infinite b => if a == b then .infinite a else .notANumber 0
  | .infinite a, _ => .infinite a
  | _, .infinite b => .infinite b

/-- The exact product, rounded. -/
def mul : Binary64 → Binary64 → Binary64
  | .finite n₁ s₁ e₁ _, .finite n₂ s₂ e₂ _ =>
    let (a, i) := toFraction n₁ s₁ e₁
    let (b, j) := toFraction n₂ s₂ e₂
    ofRatio (n₁ != n₂) (a * b).natAbs (Nat.pow 2 (i + j))
  | .notANumber origin, _ => .notANumber origin
  | _, .notANumber origin => .notANumber origin
  | x, y =>
    match x, y with
    | .finite _ 0 _ _, _ => .notANumber 0
    | _, .finite _ 0 _ _ => .notANumber 0
    | _, _ => .infinite (x.isNegative != y.isNegative)

end Binary64

end LayeredConfig
