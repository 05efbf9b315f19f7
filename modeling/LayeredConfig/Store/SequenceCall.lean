import LayeredConfig.Container.Sequence
import LayeredConfig.Store.Traversal

/-!
Calls on sequences. Each reads the items, works on them and writes them back whole, so a call that is
not possible leaves the sequence as it was.
-/

namespace LayeredConfig.SequenceCall

open Step

/-- Puts a value at a position, or several in place of a slice. -/
def setItem (items : List Item) : List Argument → Step (List Item)
  | [.item index, .item value] => do
    match Sequence.position? (← whole index) items with
    | some place => return items.set place value
    | none => fail .position
  | [.slice start stop step, .item value] => do
    let slice ← slice start stop step
    match slice.fit? items.length with
    | none => fail .content
    | some fitted =>
      match fitted.assign? items (← elements value) with
      | some items => return items
      | none => fail .content
  | _ => fail .kind

/-- Removes the item at a position, or those of a slice. -/
def deleteItem (items : List Item) : List Argument → Step (List Item)
  | [.item index] => do
    match Sequence.position? (← whole index) items with
    | some place => return Sequence.removeAt place items
    | none => fail .position
  | [.slice start stop step] => do
    let slice ← slice start stop step
    match slice.fit? items.length with
    | some fitted => return fitted.delete items
    | none => fail .content
  | _ => fail .kind

/-- The item at a position, or a new sequence of those of a slice. -/
def getItem (kind : SeqKind) (items : List Item) : List Argument → Step Outcome
  | [.item index] => do
    match Sequence.position? (← whole index) items with
    | some place => return (items[place]?.map Outcome.item).getD .nothing
    | none => fail .position
  | [.slice start stop step] => do
    let slice ← slice start stop step
    match slice.fit? items.length with
    | some fitted => return .item (← alloc (.seq kind (fitted.read items)))
    | none => fail .content
  | _ => fail .kind

/-- The items without the first equal to a value. -/
def remove (items : List Item) (value : Item) : Step (List Item) := do
  let store ← get
  match items.findIdx? (store.same · value) with
  | some place => return Sequence.removeAt place items
  | none => fail .content

/-- The items without one of them, and that one. -/
def pop (items : List Item) (index : Int) : Step (List Item × Item) := do
  match Sequence.position? index items with
  | some place =>
    match items[place]? with
    | some item => return (Sequence.removeAt place items, item)
    | none => fail .position
  | none => fail .position

/-- The position of a value between two bounds. A lower bound below the front counts as the front; a
value that is found at the lower bound has it for an answer. -/
def index (items : List Item) (value : Item) (lower : Item) (stop : Option Item) :
    Step Outcome := do
  let start ← whole lower
  let stop ←
    match stop with
    | some stop => wholeOrNull stop
    | none => pure none
  let length : Int := items.length
  let first := if start < 0 then max (start + length) 0 else start
  let last := stop.map fun stop => if stop < 0 then stop + length else stop
  let store ← get
  match Sequence.findFrom (store.same · value) first.toNat last items with
  | some place => return if (place : Int) == start then .item lower else .number place
  | none => fail .content

/-- Whether an item is a sequence, and of what kind. -/
def kindOf : Item → Step (Option SeqKind)
  | .value (.seq kind _) => return some kind
  | .value _ => return none
  | .object identity => do
    match ← cell identity with
    | .seq kind _ => return some kind
    | _ => return none

/-- Equality with another sequence; what is none leaves the question open. -/
def equal (kind : SeqKind) (identity : Identity) (other : Item) : Step Outcome := do
  match ← kindOf other with
  | some kind' =>
    if kind.comparable kind' then
      return .flag ((← valueOf (.object identity)).eqv (← valueOf other))
    else return .notImplemented
  | none => return .notImplemented

/-- A call on a sequence that can change. -/
def run (identity : Identity) (kind : SeqKind) (items : List Item) (method : Method)
    (arguments : List Argument) : Step Outcome :=
  let replace (items : List Item) : Step Outcome := do
    Step.write identity (.seq kind items)
    return .nothing
  match method with
  | .append => withOne arguments fun item => replace (items ++ [item])
  | .extend => withOne arguments fun values => do replace (items ++ (← elements values))
  | .concatenateInPlace => withOne arguments fun values => do
    let _ ← replace (items ++ (← elements values))
    return .self
  | .insert => withTwo arguments fun index item => do
    replace (Sequence.insert (← placeNumber index) item items)
  | .pop => do
    let index ←
      match arguments with
      | [] => pure (-1)
      | [.item index] => placeNumber index
      | _ => fail .kind
    let (items, item) ← pop items index
    let _ ← replace items
    return .item item
  | .remove => withOne arguments fun value => do replace (← remove items value)
  | .reverse => withNone arguments (replace items.reverse)
  | .clear => withNone arguments (replace [])
  | .index => do
    match arguments with
    | [.item value] => index items value (.value (.int 0)) none
    | [.item value, .item start] => index items value start none
    | [.item value, .item start, .item stop] => index items value start stop
    | _ => fail .kind
  | .count => withOne arguments fun value => do
    let store ← get
    return .number (items.countP (store.same · value))
  | .snapshot => do
    if kind == .concurrent then withNone arguments (Outcome.item <$> alloc (.seq .list items))
    else fail .method
  | .getItem => getItem kind items arguments
  | .setItem => do replace (← setItem items arguments)
  | .deleteItem => do replace (← deleteItem items arguments)
  | .contains => withOne arguments fun value => do
    let store ← get
    return .flag (items.any (store.same · value))
  | .length => withNone arguments (return .number items.length)
  | .iterate => withNone arguments do return .items (← (← Traversal.ofObject identity).toItems)
  | .reversed => withNone arguments do return .items (← (← Traversal.reversed identity).toItems)
  | .equal => withOne arguments (equal kind identity)
  | .less | .lessEqual | .greater | .greaterEqual => withOne arguments fun _ => return .notImplemented
  | _ => fail .method

end LayeredConfig.SequenceCall
