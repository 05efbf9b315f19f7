import LayeredConfig.Binary64.Basic

/-!
The decimal text of a number: the fewest digits that read back as the number, and of those the
nearest to it. The layout is positional for exponents from -4 to 15 and scientific outside.
-/

namespace LayeredConfig.Binary64

/-- A significand and its exponent seen as an interval: every fraction between `low` and `high`
over `unit` rounds to the number, which is `middle / unit`; `closed` says whether the ends do too. -/
structure Neighbourhood where
  low : Nat
  middle : Nat
  high : Nat
  unit : Nat
  closed : Bool

/-- The fractions that round to `significand · 2 ^ exponent`. Below a power of two the next number
is only half as far away. -/
def neighbourhood (significand : Nat) (exponent : Int) : Neighbourhood :=
  let below := if significand == Nat.pow 2 52 && leastExponent < exponent then 1 else 2
  let factor := Nat.pow 2 (exponent - 2).toNat
  { low := (4 * significand - below) * factor
    middle := 4 * significand * factor
    high := (4 * significand + 2) * factor
    unit := Nat.pow 2 (2 - exponent).toNat
    closed := significand % 2 == 0 }

/-- The power of ten just below or at a positive fraction. -/
def decimalExponent (numerator denominator : Nat) : Int :=
  if denominator ≤ numerator then ((toString (numerator / denominator)).length : Int) - 1
  else
    let inverse := denominator / numerator
    let places := (toString inverse).length
    if inverse == Nat.pow 10 (places - 1) && denominator % numerator == 0 then 1 - (places : Int)
    else -(places : Int)

/-- The multiple of `10 ^ grid` nearest to the middle that reads back, if there is one. -/
def onGrid? (n : Neighbourhood) (grid : Int) : Option Nat :=
  let step := Nat.pow 10 grid.toNat * n.unit
  let shift := Nat.pow 10 (-grid).toNat
  let middle := n.middle * shift
  let inside (digits : Nat) : Bool :=
    let point := digits * step
    if n.closed then n.low * shift ≤ point && point ≤ n.high * shift
    else n.low * shift < point && point < n.high * shift
  let lower := middle / step
  let upper := lower + 1
  let toLower := middle - lower * step
  let toUpper := upper * step - middle
  if inside lower && inside upper then
    if toLower < toUpper || (toLower == toUpper && lower % 2 == 0) then some lower else some upper
  else if inside lower then some lower
  else if inside upper then some upper
  else none

/-- Moves trailing zeros of the digits into the exponent. -/
def dropZeros (digits : Nat) (grid : Int) : Nat → Nat × Int
  | 0 => (digits, grid)
  | rounds + 1 =>
    if digits % 10 == 0 then dropZeros (digits / 10) (grid + 1) rounds else (digits, grid)

/-- The shortest digits of a positive finite number, with the power of ten of the last digit. -/
def shortest (significand : Nat) (exponent : Int) : Nat × Int :=
  let n := neighbourhood significand exponent
  let top := decimalExponent n.middle n.unit
  let found := (List.range 17).findSome? fun (place : Nat) =>
    let grid := top - (place : Nat)
    (onGrid? n grid).map (·, grid)
  match found with
  | some (digits, grid) => dropZeros digits grid 20
  | none => (n.middle / n.unit, 0)

/-- The text of a positive number from its digits. -/
def layout (digits : Nat) (grid : Int) : String :=
  let figures := (toString digits).toList
  let exponent : Int := figures.length - 1 + grid
  let text : List Char :=
    if -4 ≤ exponent && exponent < 0 then
      '0' :: '.' :: (List.replicate (-exponent - 1).toNat '0' ++ figures)
    else if 0 ≤ exponent && exponent < 16 then
      let whole := exponent.toNat + 1
      if figures.length ≤ whole then
        figures ++ List.replicate (whole - figures.length) '0' ++ ['.', '0']
      else figures.take whole ++ '.' :: figures.drop whole
    else
      let size := (toString exponent.natAbs).toList
      let point := if figures.length == 1 then figures else figures.take 1 ++ '.' :: figures.drop 1
      point ++ 'e' :: (if exponent < 0 then '-' else '+') ::
        (if size.length == 1 then '0' :: size else size)
  String.ofList text

/-- The text of a number. -/
def text : Binary64 → String
  | .finite negative significand exponent _ =>
    let size :=
      if significand == 0 then "0.0"
      else
        let (digits, grid) := shortest significand exponent
        layout digits grid
    if negative then "-" ++ size else size
  | .infinite negative => if negative then "-inf" else "inf"
  | .notANumber _ => "nan"

end LayeredConfig.Binary64
