import LayeredConfig.Value.Basic

/-!
Equality of values. Numbers compare by their value, sequences item by item, sets and dictionaries
without regard to order; a container never differs from another for being concurrent.
-/

namespace LayeredConfig

/-- Tuples and lists differ; the concurrent kind equals either. -/
def SeqKind.comparable : SeqKind → SeqKind → Bool
  | .tuple, .list => false
  | .list, .tuple => false
  | _, _ => true

namespace Scalar

/-- Equality of scalars; a result that is not a number equals itself only as the same object. -/
def alike (asObject : Bool) (a b : Scalar) : Bool :=
  a.key == b.key && (asObject || !a.isNotANumber)

end Scalar

namespace Value

mutual

/-- Equality of values. Parts of containers are compared as objects, settings of documents are not;
the two differ only for results that are not numbers. -/
def alike (asObject : Bool) : Value → Value → Bool
  | .scalar a, .scalar b => a.alike asObject b
  | .member e name _, .member e' name' _ => e == e' && name == name'
  | .seq kind xs, .seq kind' ys => kind.comparable kind' && itemsAlike xs ys
  | .set _ xs, .set _ ys => xs.length == ys.length && membersWithin xs ys
  | .dict _ es, .dict _ es' => es.length == es'.length && entriesWithin es es'
  | .document type slots, .document type' slots' => type == type' && slotsAlike slots slots'
  | _, _ => false

def itemsAlike : List Value → List Value → Bool
  | [], [] => true
  | x :: xs, y :: ys => x.alike true y && itemsAlike xs ys
  | _, _ => false

/-- Whether each of some members has an equal one among others. -/
def membersWithin : List Value → List Value → Bool
  | [], _ => true
  | x :: xs, ys => ys.any (fun y => x.alike true y) && membersWithin xs ys

/-- Whether each of some entries has an equal one among others. -/
def entriesWithin : List (Value × Value) → List (Value × Value) → Bool
  | [], _ => true
  | (key, value) :: es, es' =>
    es'.any (fun entry => key.alike true entry.1 && value.alike true entry.2) &&
      entriesWithin es es'

def slotsAlike : List (Slot Value) → List (Slot Value) → Bool
  | [], [] => true
  | ⟨_, _, value⟩ :: slots, ⟨_, _, value'⟩ :: slots' =>
    value.alike false value' && slotsAlike slots slots'
  | _, _ => false

end

/-- Equality of two values. -/
def eqv (a b : Value) : Bool :=
  a.alike false b

/-- Equality of two values as parts of containers. -/
def same (a b : Value) : Bool :=
  a.alike true b

end Value

end LayeredConfig
