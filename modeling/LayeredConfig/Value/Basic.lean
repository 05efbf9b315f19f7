import LayeredConfig.Scalar

namespace LayeredConfig

inductive SeqKind
  | tuple
  | list
  | concurrent
  deriving DecidableEq, Repr

inductive SetKind
  | plain
  | frozen
  | concurrent
  deriving DecidableEq, Repr

inductive DictKind
  | plain
  | concurrent
  deriving DecidableEq, Repr

/-- One setting of a document: its name, whether it was given explicitly, and its value. -/
structure Slot (α : Type) where
  name : Str
  explicit : Bool
  value : α
  deriving Repr

/-- A value as a tree. A document holds one slot for each setting of its type, in their order. -/
inductive Value
  | scalar (value : Scalar)
  | member (enumeration : String) (name : String) (value : Value)
  | seq (kind : SeqKind) (items : List Value)
  | set (kind : SetKind) (members : List Value)
  | dict (kind : DictKind) (entries : List (Value × Value))
  | document (type : String) (slots : List (Slot Value))
  deriving Repr, Inhabited

namespace Value

abbrev null : Value := .scalar .null

abbrev bool (value : Bool) : Value := .scalar (.bool value)

abbrev int (value : Int) : Value := .scalar (.int value)

abbrev str (value : Str) : Value := .scalar (.str value)

def isNull : Value → Bool
  | .scalar value => value.isNull
  | _ => false

def isTorn : Value → Bool
  | .scalar value => value.isTorn
  | _ => false

/-- The name of the type of a value. -/
def typeName : Value → String
  | .scalar value => value.typeName
  | .member enumeration _ _ => enumeration
  | .seq .tuple _ => "tuple"
  | .seq .list _ => "list"
  | .seq .concurrent _ => "ConcurrentList"
  | .set .plain _ => "set"
  | .set .frozen _ => "frozenset"
  | .set .concurrent _ => "ConcurrentSet"
  | .dict .plain _ => "dict"
  | .dict .concurrent _ => "ConcurrentDict"
  | .document type _ => type

mutual

/-- Whether a value may be a member of a set or a key: it has no part that can change. -/
def hashable : Value → Bool
  | .scalar _ => true
  | .member _ _ _ => true
  | .seq .tuple items => allHashable items
  | .seq _ _ => false
  | .set kind _ => kind == .frozen
  | .dict _ _ => false
  | .document _ _ => false

def allHashable : List Value → Bool
  | [] => true
  | item :: items => item.hashable && allHashable items

end

mutual

/-- Whether all that occurs in a value passes a test. -/
def everywhere (test : Value → Bool) : Value → Bool
  | .scalar value => test (.scalar value)
  | .member enumeration name value => test (.member enumeration name value)
  | .seq kind items => test (.seq kind items) && allEverywhere test items
  | .set kind members => test (.set kind members) && allEverywhere test members
  | .dict kind entries => test (.dict kind entries) && entriesEverywhere test entries
  | .document type slots => test (.document type slots) && slotsEverywhere test slots

def allEverywhere (test : Value → Bool) : List Value → Bool
  | [] => true
  | value :: values => value.everywhere test && allEverywhere test values

def entriesEverywhere (test : Value → Bool) : List (Value × Value) → Bool
  | [] => true
  | (key, value) :: entries =>
    key.everywhere test && value.everywhere test && entriesEverywhere test entries

def slotsEverywhere (test : Value → Bool) : List (Slot Value) → Bool
  | [] => true
  | ⟨_, _, value⟩ :: slots => value.everywhere test && slotsEverywhere test slots

end

/-- Whether no text in a value is torn. -/
def isWhole (value : Value) : Bool :=
  value.everywhere (!·.isTorn)

end Value

end LayeredConfig
