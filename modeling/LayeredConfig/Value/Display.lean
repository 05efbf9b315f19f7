import LayeredConfig.Value.Basic

namespace LayeredConfig.Value

/-- The items between brackets, with commas between them. -/
def enclose (first last : List Char) (items : List (List Char)) : List Char :=
  first ++ (", ".toList.intercalate items ++ last)

/-- A tuple of one item keeps a comma. -/
def displayTuple : List (List Char) → List Char
  | [item] => '(' :: (item ++ [',', ')'])
  | items => enclose ['('] [')'] items

/-- A set without members has no brackets. -/
def displaySet : List (List Char) → List Char
  | [] => "set()".toList
  | members => enclose ['\x7b'] ['\x7d'] members

/-- A form between parentheses after a name. -/
def named (name : String) (inner : List Char) : List Char :=
  name.toList ++ '(' :: (inner ++ [')'])

mutual

/-- The displayed form of a value. -/
def display : Value → List Char
  | .scalar value => value.display
  | .member enumeration name value =>
    '<' :: (enumeration.toList ++ '.' :: (name.toList ++ ':' :: ' ' :: (value.display ++ ['>'])))
  | .seq .tuple items => displayTuple (displayAll items)
  | .seq .list items => enclose ['['] [']'] (displayAll items)
  | .seq .concurrent items => named "ConcurrentList" (enclose ['['] [']'] (displayAll items))
  | .set .plain members => displaySet (displayAll members)
  | .set .frozen [] => "frozenset()".toList
  | .set .frozen members => named "frozenset" (displaySet (displayAll members))
  | .set .concurrent members => named "ConcurrentSet" (displaySet (displayAll members))
  | .dict .plain entries => enclose ['\x7b'] ['\x7d'] (displayEntries entries)
  | .dict .concurrent entries =>
    named "ConcurrentDict" (enclose ['\x7b'] ['\x7d'] (displayEntries entries))
  | .document type slots => named type (enclose [] [] (displaySlots slots))

def displayAll : List Value → List (List Char)
  | [] => []
  | value :: values => value.display :: displayAll values

def displayEntries : List (Value × Value) → List (List Char)
  | [] => []
  | (key, value) :: entries =>
    (key.display ++ ':' :: ' ' :: value.display) :: displayEntries entries

def displaySlots : List (Slot Value) → List (List Char)
  | [] => []
  | ⟨name, _, value⟩ :: slots => (name.shown.toList ++ '=' :: value.display) :: displaySlots slots

end

mutual

/-- Whether a value can be displayed: all whole numbers in it keep to the limit on their length. -/
def writable : Value → Bool
  | .scalar value => value.writable
  | .member _ _ value => value.writable
  | .seq _ items => allWritable items
  | .set _ members => allWritable members
  | .dict _ entries => entriesWritable entries
  | .document _ slots => slotsWritable slots

def allWritable : List Value → Bool
  | [] => true
  | value :: values => value.writable && allWritable values

def entriesWritable : List (Value × Value) → Bool
  | [] => true
  | (key, value) :: entries => key.writable && value.writable && entriesWritable entries

def slotsWritable : List (Slot Value) → Bool
  | [] => true
  | ⟨_, _, value⟩ :: slots => value.writable && slotsWritable slots

end

end LayeredConfig.Value
