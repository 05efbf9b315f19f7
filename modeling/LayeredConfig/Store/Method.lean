import LayeredConfig.Container.Slice
import LayeredConfig.Store.Basic

namespace LayeredConfig

inductive SetOperator
  | union
  | inter
  | diff
  | symmDiff
  deriving DecidableEq, Repr

inductive Method
  | append
  | extend
  | insert
  | pop
  | remove
  | reverse
  | clear
  | index
  | count
  | snapshot
  | get
  | setDefault
  | popItem
  | update
  | keys
  | values
  | items
  | add
  | discard
  | isDisjoint
  | getItem
  | setItem
  | deleteItem
  | contains
  | length
  | display
  | iterate
  | reversed
  | equal
  | less
  | lessEqual
  | greater
  | greaterEqual
  | operator (operator : SetOperator)
  | reflected (operator : SetOperator)
  | inPlace (operator : SetOperator)
  | concatenateInPlace
  | toDict
  | explicitSettings
  | isExplicit
  | setExplicit
  deriving DecidableEq, Repr

/-- What a method is given: an item, or the bounds and step of a slice. -/
inductive Argument
  | item (item : Item)
  | slice (start stop step : Item)
  deriving Repr

/-- What a method answers. -/
inductive Outcome
  | nothing
  | item (item : Item)
  | items (items : List Item)
  /-- The object itself. -/
  | self
  /-- The method leaves the question to the other operand. -/
  | notImplemented
  deriving Repr

namespace Outcome

def flag (value : Bool) : Outcome :=
  .item (.value (.bool value))

def number (value : Nat) : Outcome :=
  .item (.value (.int value))

end Outcome

namespace Step

/-- No arguments. -/
def withNone (arguments : List Argument) (act : Step α) : Step α :=
  match arguments with
  | [] => act
  | _ => fail .kind

/-- One argument, which is an item. -/
def withOne (arguments : List Argument) (act : Item → Step α) : Step α :=
  match arguments with
  | [.item a] => act a
  | _ => fail .kind

/-- Two arguments, which are items. -/
def withTwo (arguments : List Argument) (act : Item → Item → Step α) : Step α :=
  match arguments with
  | [.item a, .item b] => act a b
  | _ => fail .kind

/-- A whole number; truth values count as numbers. -/
def whole : Item → Step Int
  | .value (.scalar (.int n)) => return n
  | .value (.scalar (.bool b)) => return if b then 1 else 0
  | _ => fail .kind

/-- A whole number that counts places: it fits a word of 64 bits with a sign. -/
def placeNumber (item : Item) : Step Int := do
  let number ← whole item
  if -Int.pow 2 63 ≤ number && number < Int.pow 2 63 then return number else fail .magnitude

/-- A whole number or null. -/
def wholeOrNull : Item → Step (Option Int)
  | .value (.scalar .null) => return none
  | item => some <$> whole item

/-- A slice from its parts. -/
def slice (start stop step : Item) : Step Slice := do
  return ⟨← wholeOrNull start, ← wholeOrNull stop, ← wholeOrNull step⟩

/-- A key of a dictionary or a member of a set: a value that cannot change. -/
def hashable : Item → Step Value
  | .value value => if value.hashable then return value else fail .kind
  | .object _ => fail .kind

/-- What a set looks for: a native set stands for the frozen one with its members. -/
def soughtMember : Item → Step Value
  | .object identity => do
    match ← cell identity with
    | .set .plain members => return .set .frozen members
    | _ => fail .kind
  | item => hashable item

/-- The parts of an item, in the order of iteration: characters, bytes, items, members or keys. -/
def elements : Item → Step (List Item)
  | .value (.scalar (.str text)) =>
    return text.letters.map fun letter => .value (.str (.ofLetters [letter]))
  | .value (.scalar (.bytes bytes)) => return bytes.map fun byte => .value (.int byte.toNat)
  | .value (.seq _ items) => return items.map .value
  | .value (.set _ members) => return members.map .value
  | .object identity => do
    match ← cell identity with
    | .seq _ items => return items
    | .set _ members => return members.map .value
    | .dict _ entries => return entries.map fun entry => .value entry.1
    | .document _ _ => fail .kind
  | _ => fail .kind

/-- Whether an item is a set, of any kind. -/
def isSet : Item → Step Bool
  | .value (.set _ _) => return true
  | .value _ => return false
  | .object identity => do
    match ← cell identity with
    | .set _ _ => return true
    | _ => return false

end Step

end LayeredConfig
