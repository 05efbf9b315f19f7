import LayeredConfig.Container.Entries
import LayeredConfig.Fault
import LayeredConfig.Text.Casing
import LayeredConfig.Value.Equality

/-!
Schemas: the settings of a type of document, the shape of the value of each, and its default. A setting
with a default other than null is required: it may be left out but not be null.
-/

namespace LayeredConfig

/-- An enumeration with its members in order. A member whose value equals that of an earlier one is
another name for it. No value is a combination of members. -/
structure Enumeration where
  name : String
  members : List (String × Value)
  deriving Repr

namespace Enumeration

/-- The members that are not other names for earlier ones. -/
def canonical (e : Enumeration) : List (String × Value) :=
  Members.ofList (fun known member => known.2.eqv member.2) e.members

/-- The first of the members that pass a test. -/
def first? (e : Enumeration) (test : String × Value → Bool) : Option Value :=
  (e.canonical.find? test).map fun (name, value) => .member e.name name value

/-- The member with a value. -/
def withValue? (e : Enumeration) (value : Value) : Option Value :=
  e.first? (·.2.eqv value)

/-- The member with a name, or that the name stands for. -/
def named? (e : Enumeration) (name : String) : Option Value :=
  (e.first? (·.1 == name)).or ((e.members.lookup name).bind e.withValue?)

/-- The member that a text names, as it is written or in upper case. -/
def written? (e : Enumeration) (text : String) : Option Value :=
  match e.named? text with
  | some member => some member
  | none => e.named? (Text.upper text)

end Enumeration

/-- Types whose values are taken as they are. -/
inductive NativeType
  | object
  | bytes
  | date
  | moment
  | tuple
  | frozenset
  deriving DecidableEq, Repr

def NativeType.name : NativeType → String
  | .object => "object"
  | .bytes => "bytes"
  | .date => "date"
  | .moment => "datetime"
  | .tuple => "tuple"
  | .frozenset => "frozenset"

/-- An entry of a schema. -/
structure Setting (α : Type) where
  name : Str
  shape : α
  default : Value
  deriving Repr

/-- Whether a setting may be null. -/
def Setting.nullable (setting : Setting α) : Bool :=
  setting.default.isNull

/-- The shape of a value. -/
inductive Shape
  | str
  | int
  | float
  | bool
  | native (type : NativeType)
  | enumeration (type : Enumeration)
  | document (name : String) (settings : List (Setting Shape))
  | list (element : Shape)
  | set (element : Shape)
  | map (key value : Shape)
  deriving Repr

/-- The name of a shape in messages. -/
def Shape.typeName : Shape → String
  | .str => "str"
  | .int => "int"
  | .float => "float"
  | .bool => "bool"
  | .native type => type.name
  | .enumeration type => type.name
  | .document name _ => name
  | .list element => "list of " ++ element.typeName
  | .set element => "set of " ++ element.typeName
  | .map key value => "map of " ++ key.typeName ++ " to " ++ value.typeName

mutual

/-- How many collections and documents a shape holds one inside the other. -/
def Shape.depth : Shape → Nat
  | .document _ settings => settingsDepth settings + 1
  | .list element => element.depth + 1
  | .set element => element.depth + 1
  | .map _ value => value.depth + 1
  | _ => 0

def settingsDepth : List (Setting Shape) → Nat
  | [] => 0
  | ⟨_, shape, _⟩ :: settings => max shape.depth (settingsDepth settings)

end

/-- The type of a document: its name and its settings. A name stands for one type, and the names of
settings are identifiers that no attribute of all documents has, such as `to_dict` or `is_explicit`. -/
structure Schema where
  name : String
  settings : List (Setting Shape)
  deriving Repr

namespace Schema

/-- A schema, unless two settings have one name. -/
def of? (name : String) (settings : List (Setting Shape)) : Except Fault Schema :=
  if (dedupe (settings.map (·.name))).length == settings.length then .ok ⟨name, settings⟩
  else .error .duplicateSetting

def shape (schema : Schema) : Shape :=
  .document schema.name schema.settings

def names (schema : Schema) : List Str :=
  schema.settings.map (·.name)

def find? (schema : Schema) (name : Str) : Option (Setting Shape) :=
  schema.settings.find? (·.name == name)

/-- The slots of a new document: every setting has its default, and none is explicit. -/
def newSlots (settings : List (Setting Shape)) : List (Slot Value) :=
  settings.map fun setting => ⟨setting.name, false, setting.default⟩

/-- A new document with all defaults. -/
def newDocument (schema : Schema) : Value :=
  .document schema.name (newSlots schema.settings)

end Schema

/-- The value of a type without arguments, as a default that the type itself makes. -/
def Shape.emptyValue? : Shape → Except Fault Value
  | .str => .ok (.str "")
  | .int => .ok (.int 0)
  | .float => .ok (.scalar (.float (.zero false)))
  | .bool => .ok (.bool false)
  | .native .bytes => .ok (.scalar (.bytes []))
  | .native .tuple => .ok (.seq .tuple [])
  | .native .frozenset => .ok (.set .frozen [])
  | .document name settings => .ok (.document name (Schema.newSlots settings))
  | _ => .error .kind

namespace Slot

/-- Gives the slot with a name a value and marks it explicit. -/
def assign (name : Str) (value : α) : List (Slot α) → List (Slot α)
  | [] => []
  | slot :: slots =>
    if slot.name == name then ⟨slot.name, true, value⟩ :: slots else slot :: assign name value slots

/-- Gives the slot with a name a value and leaves its mark. -/
def store (name : Str) (value : α) : List (Slot α) → List (Slot α)
  | [] => []
  | slot :: slots =>
    if slot.name == name then { slot with value := value } :: slots
    else slot :: store name value slots

def find? (name : Str) (slots : List (Slot α)) : Option (Slot α) :=
  List.find? (·.name == name) slots

theorem names_assign (name : Str) (value : α) (slots : List (Slot α)) :
    (assign name value slots).map (·.name) = slots.map (·.name) := by
  induction slots with
  | nil => rfl
  | cons slot slots ih =>
    rw [assign]
    split
    · next equal => simp [eq_of_beq equal]
    · simp [ih]

theorem names_store (name : Str) (value : α) (slots : List (Slot α)) :
    (store name value slots).map (·.name) = slots.map (·.name) := by
  induction slots with
  | nil => rfl
  | cons slot slots ih =>
    rw [store]
    split
    · rfl
    · simp [ih]

/-- A plain assignment leaves all marks as they are. -/
theorem explicit_store (name : Str) (value : α) (slots : List (Slot α)) :
    (store name value slots).map (·.explicit) = slots.map (·.explicit) := by
  induction slots with
  | nil => rfl
  | cons slot slots ih =>
    rw [store]
    split
    · rfl
    · simp [ih]

/-- The names of the explicit settings. -/
def explicitNames (slots : List (Slot α)) : List Str :=
  (slots.filter (·.explicit)).map (·.name)

end Slot

end LayeredConfig
