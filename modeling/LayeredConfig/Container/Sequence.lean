import LayeredConfig.Container.Slice

namespace LayeredConfig.Sequence

/-- A position counted from the front, if the sequence has it. -/
def position? (index : Int) (items : List α) : Option Nat :=
  let index := if index < 0 then index + items.length else index
  if 0 ≤ index && index < items.length then some index.toNat else none

theorem lt_of_position? {index : Int} {items : List α} {place : Nat}
    (found : position? index items = some place) : place < items.length := by
  simp only [position?, Option.ite_none_right_eq_some, Option.some.injEq, Bool.and_eq_true,
    decide_eq_true_eq] at found
  omega

/-- Inserts an item before a position; positions beyond the ends count as the ends. -/
def insert (index : Int) (item : α) (items : List α) : List α :=
  let place := (Slice.clip items.length 0 items.length index).toNat
  items.take place ++ item :: items.drop place

theorem length_insert (index : Int) (item : α) (items : List α) :
    (insert index item items).length = items.length + 1 := by
  simp only [insert, List.length_append, List.length_cons, List.length_take, List.length_drop]
  omega

/-- Removes the item at a position. -/
def removeAt (place : Nat) (items : List α) : List α :=
  items.take place ++ items.drop (place + 1)

/-- The first position from `start` on, and before `stop`, whose item passes a test. -/
def findFrom (test : α → Bool) (start : Nat) (stop : Option Int) (items : List α) : Option Nat :=
  let within (place : Nat) : Bool := stop.all (fun bound => (place : Int) < bound)
  (items.zipIdx.find? (fun (item, place) => start ≤ place && within place && test item)).map (·.2)

end LayeredConfig.Sequence
