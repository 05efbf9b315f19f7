import LayeredConfig.Store.Traversal

/-!
Calls on sets. The operators answer new sets and take any iterable operand; the comparisons take sets
only. Of equal members the one first inserted stays.
-/

namespace LayeredConfig.SetCall

open Step

/-- Whether an item is a concurrent set. -/
def isConcurrent : Item → Step Bool
  | .value _ => return false
  | .object identity => do
    match ← cell identity with
    | .set .concurrent _ => return true
    | _ => return false

/-- Whether an item can be iterated over. -/
def isIterable (item : Item) : Step Bool := do
  match item with
  | .value (.scalar (.str _)) => return true
  | .value (.scalar (.bytes _)) => return true
  | .value (.seq _ _) => return true
  | .value (.set _ _) => return true
  | .value _ => return false
  | .object identity =>
    match ← cell identity with
    | .document _ _ => return false
    | _ => return true

/-- The members of a set made of some elements. -/
def ofItems (items : List Item) : Step (List Value) := do
  return Members.ofList Value.same (← items.mapM hashable)

/-- The members of an operand: of a set its own, of anything else those of a set made of it. -/
def operandMembers (operand : Item) : Step (List Value) := do
  ofItems (← elements operand)

/-- The elements of an operand that are members of a set. Only these have to be able to be members. -/
def common (members : List Value) : List Item → Step (List Value)
  | [] => return []
  | item :: items => do
    if Members.contains Value.same (← soughtMember item) members then
      let member ← hashable item
      return member :: (← common members items)
    else common members items

/-- The members of an operator applied to a set and an operand. -/
def combine (members : List Value) (operand : Item) : SetOperator → Step (List Value)
  | .union => do
    return Members.insertAll Value.same (← (← elements operand).mapM hashable) members
  | .inter => do return Members.ofList Value.same (← common members (← elements operand))
  | .diff => do return Members.diff Value.same members (← operandMembers operand)
  | .symmDiff => do return Members.symmDiff Value.same members (← operandMembers operand)

/-- The members of an operator whose second operand is the set. All but the difference are the same
from both sides. -/
def combineReflected (members : List Value) (operand : Item) :
    SetOperator → Step (List Value)
  | .diff => do return Members.diff Value.same (← operandMembers operand) members
  | operator => combine members operand operator

/-- The kind and the members of an operator applied to the keys of a dictionary, as a view of them, and a
set. The view is a set itself and answers with a native one; but of a concurrent dictionary it leaves the
symmetric difference to the set in the end. -/
def combineKeys (kind : DictKind) (keys members : List Value) : SetOperator → SetKind × List Value
  | .union => (.plain, Members.insertAll Value.same members keys)
  | .inter => (.plain, Members.inter Value.same keys members)
  | .diff => (.plain, Members.diff Value.same keys members)
  | .symmDiff =>
    match kind with
    | .plain => (.plain, Members.symmDiff Value.same keys members)
    | .concurrent => (.concurrent, Members.symmDiff Value.same members keys)

/-- Adds elements one after the other; a faulty one ends this, and those before it stay. -/
def addAll (identity : Identity) (kind : SetKind) (members : List Value) :
    List Item → Step (List Value)
  | [] => return members
  | item :: items => do
    let members := Members.insert Value.same (← hashable item) members
    write identity (.set kind members)
    addAll identity kind members items

/-- Removes elements one after the other; a faulty one ends this, and those before it stay away. -/
def discardAll (identity : Identity) (kind : SetKind) (members : List Value) :
    List Item → Step (List Value)
  | [] => return members
  | item :: items => do
    let members := Members.erase Value.same (← soughtMember item) members
    write identity (.set kind members)
    discardAll identity kind members items

/-- Applies an operator to the set itself. Null stands for a set without members in the symmetric
difference. -/
def changeInPlace (identity : Identity) (kind : SetKind) (members : List Value) (operand : Item) :
    SetOperator → Step Unit
  | .union => do
    let _ ← addAll identity kind members (← elements operand)
  | .inter => do
    let others ← operandMembers operand
    let lost := Members.diff Value.same members others
    write identity (.set kind (Members.diff Value.same members lost))
  | .diff => do
    match operand with
    | .object other =>
      if other == identity then write identity (.set kind [])
      else
        let _ ← discardAll identity kind members (← elements operand)
    | .value _ =>
      let _ ← discardAll identity kind members (← elements operand)
  | .symmDiff => do
    let others ←
      match operand with
      | .value (.scalar .null) => pure []
      | operand => operandMembers operand
    write identity (.set kind (others.foldl (Members.toggle Value.same) members))

/-- Whether a set has no element in common with an iterable. Elements after a common one do not
matter. -/
def disjoint (members : List Value) : List Item → Step Bool
  | [] => return true
  | item :: items => do
    if Members.contains Value.same (← soughtMember item) members then return false
    else disjoint members items

/-- The comparisons of sets, by their members. -/
def compare (members others : List Value) : Method → Bool
  | .lessEqual => members.length ≤ others.length && Members.subset Value.same members others
  | .less => members.length < others.length && Members.subset Value.same members others
  | .greaterEqual => others.length ≤ members.length && Members.subset Value.same others members
  | .greater => others.length < members.length && Members.subset Value.same others members
  | _ => members.length == others.length && Members.subset Value.same members others

/-- A call on a set that can change. -/
def run (identity : Identity) (kind : SetKind) (members : List Value) (method : Method)
    (arguments : List Argument) : Step Outcome :=
  let replace (members : List Value) : Step Outcome := do
    write identity (.set kind members)
    return .nothing
  let comparison (method : Method) : Step Outcome :=
    withOne arguments fun operand => do
      if ← isSet operand then
        return .flag (compare members (← operandMembers operand) method)
      else return .notImplemented
  match method with
  | .add => withOne arguments fun item => do
    replace (Members.insert Value.same (← hashable item) members)
  | .discard => withOne arguments fun item => do
    replace (Members.erase Value.same (← soughtMember item) members)
  | .remove => withOne arguments fun item => do
    let member ← soughtMember item
    if Members.contains Value.same member members then
      replace (Members.erase Value.same member members)
    else fail .absent
  | .pop => withNone arguments do
    match members with
    | member :: rest =>
      let _ ← replace rest
      return .item (.value member)
    | [] => fail .absent
  | .clear => withNone arguments (replace [])
  | .contains => withOne arguments fun item => do
    return .flag (Members.contains Value.same (← soughtMember item) members)
  | .length => withNone arguments (return .number members.length)
  | .iterate => withNone arguments do return .items (← (← Traversal.ofObject identity).toItems)
  | .isDisjoint => withOne arguments fun operand => do
    return .flag (← disjoint members (← elements operand))
  | .snapshot => do
    if kind == .concurrent then withNone arguments (Outcome.item <$> alloc (.set .plain members))
    else fail .method
  | .operator operator => withOne arguments fun operand => do
    if ← isIterable operand then
      return .item (← alloc (.set kind (← combine members operand operator)))
    else return .notImplemented
  | .reflected operator => withOne arguments fun operand => do
    if ← isIterable operand then
      return .item (← alloc (.set kind (← combineReflected members operand operator)))
    else return .notImplemented
  | .inPlace operator => withOne arguments fun operand => do
    changeInPlace identity kind members operand operator
    return .self
  | .less | .lessEqual | .greater | .greaterEqual | .equal => comparison method
  | _ => fail .method

end LayeredConfig.SetCall
