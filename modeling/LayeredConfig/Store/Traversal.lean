import LayeredConfig.Container.Entries
import LayeredConfig.Store.Method
import LayeredConfig.Value.Equality

/-!
Iterations that have been started. Plain ones go over a snapshot of the object; the reversed ones and
the views of values and entries look into the object again at each step.
-/

namespace LayeredConfig

/-- What is left of an iteration. -/
inductive Traversal
  | snapshot (rest : List Item)
  /-- The positions below `left`, from the last one down. -/
  | backwards (identity : Identity) (left : Nat)
  | values (identity : Identity) (keys : List Value)
  | entries (identity : Identity) (keys : List Value)
  deriving Repr

namespace Traversal

/-- The value that a dictionary has now for a key. -/
def lookup (identity : Identity) (key : Value) : Step Item := do
  match ← Step.cell identity with
  | .dict _ content =>
    match Entries.find? Value.same key content with
    | some item => return item
    | none => Step.fail .absent
  | _ => Step.fail .kind

/-- One step of an iteration; nothing when it is over. -/
def next : Traversal → Step (Option (Item × Traversal))
  | .snapshot [] => return none
  | .snapshot (item :: rest) => return some (item, .snapshot rest)
  | .backwards _ 0 => return none
  | .backwards identity (left + 1) => do
    match ← Step.cell identity with
    | .seq _ items =>
      match items[left]? with
      | some item => return some (item, .backwards identity left)
      | none => Step.fail .position
    | _ => Step.fail .kind
  | .values _ [] => return none
  | .values identity (key :: keys) => do
    return some (← lookup identity key, .values identity keys)
  | .entries _ [] => return none
  | .entries identity (key :: keys) => do
    let pair ← Step.tuple [.value key, ← lookup identity key]
    return some (pair, .entries identity keys)

/-- How many steps are left. -/
def size : Traversal → Nat
  | .snapshot rest => rest.length
  | .backwards _ left => left
  | .values _ keys => keys.length
  | .entries _ keys => keys.length

/-- The items of at most `count` steps. -/
def take : Nat → Traversal → Step (List Item)
  | 0, _ => return []
  | count + 1, traversal => do
    match ← traversal.next with
    | none => return []
    | some (item, rest) => return item :: (← take count rest)

/-- All items of an iteration. -/
def toItems (traversal : Traversal) : Step (List Item) :=
  traversal.take traversal.size

/-- An iteration over an object, started now. One over an object itself starts when it is asked for, and one
over the keys of a dictionary at its first step. -/
def ofObject (identity : Identity) : Step Traversal := do
  return .snapshot (← Step.elements (.object identity))

/-- An iteration from the last item of a sequence to the first, started now, which is at its first step. -/
def reversed (identity : Identity) : Step Traversal := do
  match ← Step.cell identity with
  | .seq _ items => return .backwards identity items.length
  | .dict _ _ => Step.fail .kind
  | _ => Step.fail .method

/-- An iteration over the values of a dictionary, started now, which is at its first step. -/
def overValues (identity : Identity) : Step Traversal := do
  match ← Step.cell identity with
  | .dict _ content => return .values identity (content.map (·.1))
  | _ => Step.fail .method

/-- An iteration over the entries of a dictionary, started now, which is at its first step. -/
def overEntries (identity : Identity) : Step Traversal := do
  match ← Step.cell identity with
  | .dict _ content => return .entries identity (content.map (·.1))
  | _ => Step.fail .method

end Traversal

end LayeredConfig
