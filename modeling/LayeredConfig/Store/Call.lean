import LayeredConfig.Store.DictCall
import LayeredConfig.Store.Document
import LayeredConfig.Store.SequenceCall
import LayeredConfig.Store.SetCall

namespace LayeredConfig.Step

/-- A call on an object. Values that cannot change have no methods here. -/
def call (object : Item) (method : Method) (arguments : List Argument) : Step Outcome := do
  match object with
  | .value _ => fail .method
  | .object identity =>
    let content ← cell identity
    if method == .display then
      withNone arguments do
        return .item (.value (.str (String.ofList (← valueOf object).display)))
    else
      match content with
      | .seq .tuple _ => fail .method
      | .seq kind items => SequenceCall.run identity kind items method arguments
      | .set kind members => SetCall.run identity kind members method arguments
      | .dict kind entries => DictCall.run identity kind entries method arguments
      | .document type slots => Document.run identity type slots method arguments

/-- What can stand to the left of an operator of sets: an item, or a view of the keys of a dictionary. -/
inductive Operand
  | item (item : Item)
  | keys (dictionary : Identity)
  deriving Repr

/-- An operator of sets between two operands, one of which is a concurrent set. The left one answers if it is
a concurrent set or a view of keys; all others leave the answer to the right one. -/
def operate (operator : SetOperator) (left : Operand) (right : Item) : Step Outcome := do
  match left with
  | .keys dictionary =>
    match ← cell dictionary with
    | .dict kind entries =>
      let members ← SetCall.operandMembers right
      let made := SetCall.combineKeys kind (entries.map (·.1)) members operator
      return .item (← alloc (.set made.1 made.2))
    | _ => fail .method
  | .item left =>
    let answer ←
      if ← SetCall.isConcurrent left then call left (.operator operator) [.item right]
      else call right (.reflected operator) [.item left]
    match answer with
    | .notImplemented => fail .kind
    | answer => return answer

/-- An update of a dictionary with named entries after the others. -/
def updateNamed (object : Item) (arguments : List Argument) (named : List (Str × Item)) :
    Step Outcome := do
  match object with
  | .value _ => fail .method
  | .object identity =>
    match ← cell identity with
    | .dict kind entries => DictCall.update identity kind entries arguments named
    | _ => fail .method

/-- The part that a key leads to: a setting of a document, or an element of a container. -/
def part (object key : Item) : Step Item := do
  match object with
  | .value (.seq kind items) => element (← SequenceCall.getItem kind (items.map .value) [.item key])
  | .value _ => fail .kind
  | .object identity =>
    match ← cell identity with
    | .seq kind items => element (← SequenceCall.getItem kind items [.item key])
    | .dict kind entries => element (← DictCall.run identity kind entries .getItem [.item key])
    | .set _ _ => fail .kind
    | .document _ _ =>
      match key with
      | .value (.scalar (.str name)) => Document.get identity name
      | _ => fail .kind
where
  element : Outcome → Step Item
    | .item item => return item
    | _ => fail .kind

/-- The part that several keys lead to, one after the other. -/
def follow (object : Item) (path : List Item) : Step Item :=
  path.foldlM part object

/-- Gives a setting of a document a value. A concurrent container and a member of an enumeration take
any such assignment without a trace. -/
def assign (object : Item) (name : Str) (item : Item) : Step Unit := do
  match object with
  | .value (.member _ _ _) => return
  | .value _ => fail .method
  | .object identity =>
    match ← cell identity with
    | .document _ _ => Document.set identity name item
    | .seq .concurrent _ | .set .concurrent _ | .dict .concurrent _ => return
    | _ => fail .method

/-- The steps that are left of an iteration, with a call after each. -/
def callAfterEach (act : Item → Step Unit) : Nat → Traversal → Step (List Item)
  | 0, _ => return []
  | count + 1, traversal => do
    match ← traversal.next with
    | none => return []
    | some (item, rest) =>
      act item
      return item :: (← callAfterEach act count rest)

/-- Iterates over an object and makes a call for each element, which may change the object. Answers the
elements seen. -/
def forEach (object : Item) (act : Item → Step Unit) : Step (List Item) := do
  match object with
  | .value _ => do
    let traversal := Traversal.snapshot (← elements object)
    callAfterEach act traversal.size traversal
  | .object identity => do
    let traversal ← Traversal.ofObject identity
    callAfterEach act traversal.size traversal

/-- Whether two items are equal. -/
def equal (a b : Item) : Step Bool := do
  return (← valueOf a).eqv (← valueOf b)

end LayeredConfig.Step
