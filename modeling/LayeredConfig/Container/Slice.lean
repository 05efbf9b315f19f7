import LayeredConfig.Fault

/-!
Slices of sequences. Bounds may be negative, left out, or beyond the ends; a step selects positions
forwards or backwards. A slice with step one stands for a block, any other for its positions.
-/

namespace LayeredConfig

/-- The bounds and the step of a slice, as they are given. -/
structure Slice where
  start : Option Int
  stop : Option Int
  step : Option Int
  deriving DecidableEq, Repr

/-- A slice fitted to a length: `count` positions from `start` on, `step` apart. -/
structure FittedSlice where
  start : Int
  stop : Int
  step : Int
  count : Nat
  deriving DecidableEq, Repr

namespace Slice

/-- A bound counted from the front and kept between two limits. -/
def clip (length : Nat) (low high : Int) (bound : Int) : Int :=
  let bound := if bound < 0 then bound + length else bound
  max low (min high bound)

/-- How many positions lie between two bounds. -/
def count (start stop step : Int) : Nat :=
  if step < 0 then
    if stop < start then ((start - stop - 1) / (-step) + 1).toNat else 0
  else if start < stop then ((stop - start - 1) / step + 1).toNat else 0

/-- Fits a slice to a length; a step of zero fits nothing. -/
def fit? (slice : Slice) (length : Nat) : Option FittedSlice :=
  let step := slice.step.getD 1
  if step == 0 then none
  else
    let low : Int := if step < 0 then -1 else 0
    let high : Int := if step < 0 then length - 1 else length
    let start := (slice.start.map (clip length low high)).getD (if step < 0 then high else low)
    let stop := (slice.stop.map (clip length low high)).getD (if step < 0 then low else high)
    some ⟨start, stop, step, count start stop step⟩

end Slice

namespace FittedSlice

/-- The selected positions, in order. -/
def positions (slice : FittedSlice) : List Nat :=
  (List.range slice.count).map fun (place : Nat) => (slice.start + place * slice.step).toNat

/-- The items at the selected positions. -/
def read (slice : FittedSlice) (items : List α) : List α :=
  slice.positions.filterMap (items[·]?)

/-- The items at all other positions. -/
def delete (slice : FittedSlice) (items : List α) : List α :=
  let positions := slice.positions
  (items.zipIdx.filter (fun (_, place) => !positions.contains place)).map (·.1)

/-- Replaces items one by one. -/
def replaceAt (items : List α) (placed : List (Nat × α)) : List α :=
  placed.foldl (fun items (place, item) => items.set place item) items

/-- Gives the selected positions new items. A block may change its length; otherwise there have to be
as many items as positions. -/
def assign? (slice : FittedSlice) (items new : List α) : Option (List α) :=
  if slice.step == 1 then
    let start := slice.start.toNat
    let stop := (max slice.start slice.stop).toNat
    some (items.take start ++ new ++ items.drop stop)
  else if new.length == slice.count then some (replaceAt items (slice.positions.zip new))
  else none

end FittedSlice

end LayeredConfig
