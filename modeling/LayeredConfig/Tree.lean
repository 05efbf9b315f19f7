import LayeredConfig.Value.Display

/-!
The data of a source as a tree, before any schema. Keys and members of sets are scalars. Sequences and
mappings may carry a mark, so that one that lies inside itself is recognised when it is displayed. A tree
may have any depth.
-/

namespace LayeredConfig

inductive Tree
  | scalar (value : Scalar)
  | seq (mark : Option Nat) (items : List Tree)
  | map (mark : Option Nat) (entries : List (Scalar × Tree))
  | set (members : List Scalar)
  | tuple (items : List Tree)
  deriving Repr, Inhabited

namespace Tree

def isNull : Tree → Bool
  | .scalar value => value.isNull
  | _ => false

def typeName : Tree → String
  | .scalar value => value.typeName
  | .seq _ _ => "list"
  | .map _ _ => "dict"
  | .set _ => "set"
  | .tuple _ => "tuple"

/-- Whether a mark is that of an enclosing collection. -/
def encloses (enclosing : List Nat) (mark : Option Nat) : Bool :=
  mark.any enclosing.contains

mutual

/-- The displayed form of a tree inside collections with some marks; one of these is shown as dots. Members
of sets are shown in the order of the source; elsewhere they stand in an order that differs from run to run. -/
def displayIn (enclosing : List Nat) : Tree → List Char
  | .scalar value => value.display
  | .seq mark items =>
    if encloses enclosing mark then "[...]".toList
    else Value.enclose ['['] [']'] (displayItems (mark.toList ++ enclosing) items)
  | .map mark entries =>
    if encloses enclosing mark then "\x7b...\x7d".toList
    else Value.enclose ['\x7b'] ['\x7d'] (displayPairs (mark.toList ++ enclosing) entries)
  | .set members => Value.displaySet (members.map Scalar.display)
  | .tuple items => Value.displayTuple (displayItems enclosing items)

def displayItems (enclosing : List Nat) : List Tree → List (List Char)
  | [] => []
  | item :: items => item.displayIn enclosing :: displayItems enclosing items

def displayPairs (enclosing : List Nat) : List (Scalar × Tree) → List (List Char)
  | [] => []
  | (key, value) :: entries =>
    (key.display ++ ':' :: ' ' :: value.displayIn enclosing) :: displayPairs enclosing entries

end

/-- The displayed form of a tree. -/
def display (tree : Tree) : List Char :=
  tree.displayIn []

mutual

/-- Whether all scalars in a tree can be written. -/
def writable : Tree → Bool
  | .scalar value => value.writable
  | .seq _ items => allWritable items
  | .map _ entries => entriesWritable entries
  | .set members => members.all Scalar.writable
  | .tuple items => allWritable items

def allWritable : List Tree → Bool
  | [] => true
  | item :: items => item.writable && allWritable items

def entriesWritable : List (Scalar × Tree) → Bool
  | [] => true
  | (key, value) :: entries => key.writable && value.writable && entriesWritable entries

end

mutual

/-- A tree as a value of native containers. -/
def toValue : Tree → Value
  | .scalar value => .scalar value
  | .seq _ items => .seq .list (valuesOf items)
  | .map _ entries => .dict .plain (entriesOf entries)
  | .set members => .set .plain (members.map .scalar)
  | .tuple items => .seq .tuple (valuesOf items)

def valuesOf : List Tree → List Value
  | [] => []
  | item :: items => item.toValue :: valuesOf items

def entriesOf : List (Scalar × Tree) → List (Value × Value)
  | [] => []
  | (key, value) :: entries => (.scalar key, value.toValue) :: entriesOf entries

end

end Tree

end LayeredConfig
