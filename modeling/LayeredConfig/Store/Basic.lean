import LayeredConfig.Schema
import LayeredConfig.Value.Plain

/-!
Containers and documents as objects. A store holds their contents under identities, so one object can
be part of several others; a value is the tree that an object shows at one moment.
-/

namespace LayeredConfig

/-- The identity of an object. -/
abbrev Identity := Nat

/-- A part of an object: a value that cannot change, or another object. -/
inductive Item
  | value (value : Value)
  | object (identity : Identity)
  deriving Repr, Inhabited

/-- The content of an object. Members and keys are always values that cannot change. -/
inductive Cell
  | seq (kind : SeqKind) (items : List Item)
  | set (kind : SetKind) (members : List Value)
  | dict (kind : DictKind) (entries : List (Value × Item))
  | document (type : String) (slots : List (Slot Item))
  deriving Repr, Inhabited

/-- The contents of all objects, by identity. -/
structure Store where
  cells : List Cell
  deriving Repr

/-- A step on a store. A fault leaves what was done before it. -/
abbrev Step := ExceptT Fault (StateM Store)

namespace Store

def empty : Store :=
  ⟨[]⟩

def read? (store : Store) (identity : Identity) : Option Cell :=
  store.cells[identity]?

/-- The store with a new content for one object. -/
def write (store : Store) (identity : Identity) (cell : Cell) : Store :=
  ⟨store.cells.set identity cell⟩

/-- The store with one more object, whose identity is the number of objects before. -/
def alloc (store : Store) (cell : Cell) : Store :=
  ⟨store.cells ++ [cell]⟩

theorem read?_write (store : Store) (identity other : Identity) (cell : Cell)
    (different : identity ≠ other) :
    (store.write identity cell).read? other = store.read? other :=
  List.getElem?_set_ne different

theorem read?_alloc (store : Store) (cell : Cell) {identity : Identity}
    (existing : identity < store.cells.length) :
    (store.alloc cell).read? identity = store.read? identity :=
  List.getElem?_append_left existing

/-- A slot with another value. -/
def withValue (slot : Slot α) (value : β) : Slot β :=
  ⟨slot.name, slot.explicit, value⟩

/-- The value of an item, going down at most `depth` objects; an object inside itself has none. -/
def view (store : Store) : Nat → Item → Option Value
  | _, .value value => some value
  | 0, .object _ => none
  | depth + 1, .object identity =>
    match store.read? identity with
    | none => none
    | some (.seq kind items) => (items.mapM (view store depth)).map (.seq kind)
    | some (.set kind members) => some (.set kind members)
    | some (.dict kind entries) =>
      (entries.mapM fun (entry : Value × Item) =>
        (view store depth entry.2).map (entry.1, ·)).map (.dict kind)
    | some (.document type slots) =>
      (slots.mapM fun slot => (view store depth slot.value).map (withValue slot)).map
        (.document type)

/-- The value of an item; no chain of objects is longer than their number. -/
def value? (store : Store) (item : Item) : Option Value :=
  store.view store.cells.length item

/-- Whether two items are one object or have equal values. -/
def same (store : Store) : Item → Item → Bool
  | .object a, .object b =>
    a == b || (match store.value? (.object a), store.value? (.object b) with
      | some x, some y => x.same y
      | _, _ => false)
  | a, b =>
    match store.value? a, store.value? b with
    | some x, some y => x.same y
    | _, _ => false

end Store

namespace Step

def fail (fault : Fault) : Step α :=
  throw fault

def cell (identity : Identity) : Step Cell := do
  match (← get).read? identity with
  | some cell => return cell
  | none => fail .absent

def write (identity : Identity) (cell : Cell) : Step Unit :=
  modify (·.write identity cell)

/-- Makes an object. -/
def alloc (cell : Cell) : Step Item := do
  let store ← get
  set (store.alloc cell)
  return .object store.cells.length

/-- The value that an item shows now. -/
def valueOf (item : Item) : Step Value := do
  match (← get).value? item with
  | some value => return value
  | none => fail .nesting

/-- The value of an item that cannot change. -/
def value? : Item → Option Value
  | .value value => some value
  | .object _ => none

/-- A tuple of items; one without objects is a value. -/
def tuple (items : List Item) : Step Item :=
  match items.mapM value? with
  | some values => return .value (.seq .tuple values)
  | none => alloc (.seq .tuple items)

mutual

/-- Makes objects that show a value. -/
def place : Value → Step Item
  | .scalar value => return .value (.scalar value)
  | .member type name value => return .value (.member type name value)
  | .seq .tuple items => do tuple (← placeAll items)
  | .seq kind items => do alloc (.seq kind (← placeAll items))
  | .set .frozen members => return .value (.set .frozen members)
  | .set kind members => alloc (.set kind members)
  | .dict kind entries => do alloc (.dict kind (← placeEntries entries))
  | .document type slots => do alloc (.document type (← placeSlots slots))

def placeAll : List Value → Step (List Item)
  | [] => return []
  | value :: values => do
    let item ← place value
    return item :: (← placeAll values)

def placeEntries : List (Value × Value) → Step (List (Value × Item))
  | [] => return []
  | (key, value) :: entries => do
    let item ← place value
    return (key, item) :: (← placeEntries entries)

def placeSlots : List (Slot Value) → Step (List (Slot Item))
  | [] => return []
  | ⟨name, explicit, value⟩ :: slots => do
    let item ← place value
    return ⟨name, explicit, item⟩ :: (← placeSlots slots)

end

/-- The copies made so far, under the identities of the objects that they were made of. -/
abbrev Copies := List (Identity × Item)

/-- A way to copy an item, given the copies made so far. -/
abbrev Copier := Copies → Item → Step (Item × Copies)

def copyAll (copy : Copier) (copies : Copies) : List Item → Step (List Item × Copies)
  | [] => return ([], copies)
  | item :: items => do
    let (item, copies) ← copy copies item
    let (items, copies) ← copyAll copy copies items
    return (item :: items, copies)

/-- A content with copies of all its parts. -/
def copyCell (copy : Copier) (copies : Copies) : Cell → Step (Cell × Copies)
  | .seq kind items => do
    let (items, copies) ← copyAll copy copies items
    return (.seq kind items, copies)
  | .set kind members => return (.set kind members, copies)
  | .dict kind entries => do
    let (items, copies) ← copyAll copy copies (entries.map (·.2))
    return (.dict kind ((entries.map (·.1)).zip items), copies)
  | .document type slots => do
    let (items, copies) ← copyAll copy copies (slots.map (·.value))
    let slots := slots.zipWith (fun slot item => ⟨slot.name, slot.explicit, item⟩) items
    return (.document type slots, copies)

/-- A copy of an item with copies of all objects in it, going down at most `depth` objects. An object
that occurs twice has one copy. -/
def copyItem : Nat → Copier
  | _, copies, .value value => return (.value value, copies)
  | 0, _, .object _ => fail .nesting
  | depth + 1, copies, .object identity => do
    match copies.lookup identity with
    | some item => return (item, copies)
    | none =>
      let (content, copies) ← copyCell (copyItem depth) copies (← cell identity)
      let item ← alloc content
      return (item, (identity, item) :: copies)

/-- A copy that shares no object with the item it is made of. -/
def deepCopy (item : Item) : Step Item := do
  let (copy, _) ← copyItem (← get).cells.length [] item
  return copy

end Step

end LayeredConfig
