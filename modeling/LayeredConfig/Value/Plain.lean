import LayeredConfig.Fault

/-!
The plain form of values: documents become dictionaries, members of enumerations their names,
sequences lists, and sets lists sorted by their displayed forms. A set with a member that cannot be
displayed has no plain form.
-/

namespace LayeredConfig.Value

/-- Values in the order of their displayed forms. -/
def sortByDisplay (values : List Value) : List Value :=
  (sortBy (fun a b => precedes a.1 b.1) (values.map fun value => (value.display, value))).map (·.2)

mutual

/-- The plain form of a value. Keys of dictionaries stay as they are. -/
def toPlain : Value → Value
  | .scalar value => .scalar value
  | .member _ name _ => .str name
  | .seq _ items => .seq .list (plainAll items)
  | .set _ members => .seq .list (sortByDisplay (plainAll members))
  | .dict _ entries => .dict .plain (plainEntries entries)
  | .document _ slots => .dict .plain (plainSlots slots)

def plainAll : List Value → List Value
  | [] => []
  | value :: values => value.toPlain :: plainAll values

def plainEntries : List (Value × Value) → List (Value × Value)
  | [] => []
  | (key, value) :: entries => (key, value.toPlain) :: plainEntries entries

def plainSlots : List (Slot Value) → List (Value × Value)
  | [] => []
  | ⟨name, _, value⟩ :: slots => (.str name, value.toPlain) :: plainSlots slots

end

mutual

/-- Whether all sets in a value can be sorted: the plain forms of their members are displayed for it. -/
def sortable : Value → Bool
  | .scalar _ => true
  | .member _ _ _ => true
  | .seq _ items => allSortable items
  | .set _ members => allSortable members && allWritable (plainAll members)
  | .dict _ entries => entriesSortable entries
  | .document _ slots => slotsSortable slots

def allSortable : List Value → Bool
  | [] => true
  | value :: values => value.sortable && allSortable values

def entriesSortable : List (Value × Value) → Bool
  | [] => true
  | (_, value) :: entries => value.sortable && entriesSortable entries

def slotsSortable : List (Slot Value) → Bool
  | [] => true
  | ⟨_, _, value⟩ :: slots => value.sortable && slotsSortable slots

end

/-- The plain form of a value, if its sets can be sorted. -/
def plain? (value : Value) : Except Fault Value :=
  if value.sortable then .ok value.toPlain else .error .content

end LayeredConfig.Value
