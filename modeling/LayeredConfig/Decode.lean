import LayeredConfig.Container.Entries
import LayeredConfig.Report
import LayeredConfig.Schema
import LayeredConfig.Tree
import LayeredConfig.Yaml.Data

/-!
Building a document from a tree under a schema. The walk goes through the whole tree in its order; it
stops at the first node without the declared shape, and only notes unknown and nullified settings.
-/

namespace LayeredConfig

/-- A node that does not have the shape declared at its path. -/
structure Misfit where
  path : Str
  expected : String
  node : Tree
  deriving Repr

/-- Why a walk stops. -/
inductive WalkFailure
  | misfit (misfit : Misfit)
  | fault (fault : Fault)
  deriving Repr

/-- A walk that was stopped, or what it built with the findings on the way, in their order. -/
inductive Walk (α : Type)
  | stopped (failure : WalkFailure)
  | built (value : α) (findings : List Finding)
  deriving Repr

namespace Walk

/-- A step without findings. -/
def accept (value : α) : Walk α :=
  .built value []

/-- One step after the other; the first failure stops the walk. -/
def andThen : Walk α → (α → Walk β) → Walk β
  | .stopped failure, _ => .stopped failure
  | .built value findings, next =>
    match next value with
    | .stopped failure => .stopped failure
    | .built result later => .built result (findings ++ later)

theorem andThen_accept (walk : Walk α) : walk.andThen accept = walk := by
  cases walk <;> simp [andThen, accept]

theorem accept_andThen (value : α) (next : α → Walk β) :
    (accept value).andThen next = next value := by
  cases step : next value <;> simp [andThen, accept, step]

theorem andThen_assoc (walk : Walk α) (next : α → Walk β) (last : β → Walk γ) :
    (walk.andThen next).andThen last = walk.andThen fun value => (next value).andThen last := by
  cases walk with
  | stopped failure => rfl
  | built value findings =>
    cases step : next value with
    | stopped failure => simp [andThen, step]
    | built result later => cases final : last result <;> simp [andThen, step, final]

instance : Monad Walk where
  pure := accept
  bind := andThen

instance : LawfulMonad Walk :=
  .mk' Walk andThen_accept accept_andThen andThen_assoc

def note (finding : Finding) : Walk Unit :=
  .built () [finding]

def refuse (expected : String) (node : Tree) (path : Str) : Walk α :=
  .stopped (.misfit ⟨path, expected, node⟩)

def fail (fault : Fault) : Walk α :=
  .stopped (.fault fault)

end Walk

/-- A way to build a value from a node at a path. -/
abbrev Reader := Tree → Str → Walk Value

namespace Decode

open Walk (accept note refuse fail)

/-- The path of a named part. -/
def join (path name : Str) : Str :=
  if path.isEmpty then name else path ++ "." ++ name

/-- The path of a part in a sequence. -/
def element (path : Str) (index : Nat) : Str :=
  path ++ "[" ++ toString index ++ "]"

/-- The name that a key stands for. -/
def nameOf (key : Scalar) : Walk Str :=
  if key.writable then accept key.text else fail .content

/-- The text of a node other than a list or a dictionary: booleans as words in lower case, dates and
moments in their standard form, all else as it is displayed. -/
def textOf : Tree → Str
  | .scalar (.bool value) => if value then "true" else "false"
  | .scalar (.moment value) => String.ofList (value.iso 'T')
  | .scalar value => value.text
  | node => String.ofList node.display

/-- Texts: every node other than a list or a dictionary has one. -/
def readStr : Reader
  | .seq mark items, path => refuse "str" (.seq mark items) path
  | .map mark entries, path => refuse "str" (.map mark entries) path
  | node, _ => if node.writable then accept (.str (textOf node)) else fail .content

def readInt : Reader
  | .scalar (.int value), _ => accept (.int value)
  | node, path => refuse "int" node path

/-- Fractions: whole numbers are converted if they are in range. -/
def readFloat : Reader
  | .scalar (.float value), _ => accept (.scalar (.float value))
  | .scalar (.int value), _ =>
    match Binary64.ofInt? value with
    | some x => accept (.scalar (.float x))
    | none => fail .magnitude
  | node, path => refuse "float" node path

def readBool : Reader
  | .scalar (.bool value), _ => accept (.bool value)
  | node, path => refuse "bool" node path

/-- Whether a node is a value of a native type. Lists and dictionaries are of none. -/
def isOfType : NativeType → Tree → Bool
  | _, .seq _ _ => false
  | _, .map _ _ => false
  | .object, _ => true
  | .bytes, .scalar (.bytes _) => true
  | .date, .scalar (.date _) => true
  | .date, .scalar (.moment _) => true
  | .moment, .scalar (.moment _) => true
  | .tuple, .tuple _ => true
  | _, _ => false

def readNative (type : NativeType) : Reader := fun node path =>
  if isOfType type node then accept node.toValue else refuse type.name node path

/-- Members of enumerations, by name if there is one and otherwise by value. -/
def readMember (type : Enumeration) : Reader := fun node path =>
  let byName :=
    match node with
    | .scalar (.str (.whole text)) => type.written? text
    | _ => none
  match byName with
  | some member => accept member
  | none =>
    match type.withValue? node.toValue with
    | some member => accept member
    | none => refuse type.name node path

/-- Null stands for itself whatever the shape. -/
def orNull (read : Reader) : Reader := fun node path =>
  if node.isNull then accept .null else read node path

/-- The parts of a sequence, each at its own path. -/
def readItems (read : Reader) (path : Str) (index : Nat) : List Tree → Walk (List Value)
  | [] => accept []
  | item :: items => do
    let value ← read item (element path index)
    let values ← readItems read path (index + 1) items
    return value :: values

/-- The members of a set; they have to be values that cannot change. -/
def readMembers (read : Reader) (path : Str) (index : Nat) (members : List Value) :
    List Tree → Walk (List Value)
  | [] => accept members
  | item :: items => do
    let value ← read item (element path index)
    if !value.hashable then fail .kind
    readMembers read path (index + 1) (Members.insert Value.same value members) items

/-- The entries of a dictionary, the key before the value. -/
def readEntries (readKey readValue : Reader) (path : Str) (read : List (Value × Value)) :
    List (Scalar × Tree) → Walk (List (Value × Value))
  | [] => accept read
  | (key, node) :: entries => do
    let newKey ← readKey (.scalar key) path
    let value ← readValue node (join path (← nameOf key))
    if !newKey.hashable then fail .kind
    readEntries readKey readValue path (Entries.put Value.same newKey value read) entries

/-- The settings of a document, each with the way to read it. -/
abbrev Readers := List (Setting Shape × Reader)

/-- The value of a known setting; null is noted where it may not stand. -/
def readSetting (setting : Setting Shape) (read : Reader) (node : Tree) (path : Str) :
    Walk Value := do
  if node.isNull then
    if !setting.nullable then note (.nullified path)
    return .null
  else read node path

/-- The entries of a document, put into its slots one after the other. -/
def readSettings (readers : Readers) (path : Str) (slots : List (Slot Value)) :
    List (Scalar × Tree) → Walk (List (Slot Value))
  | [] => accept slots
  | (key, node) :: entries => do
    let name ← nameOf key
    match readers.find? (·.1.name == name) with
    | none =>
      note (.unknown (join path name))
      readSettings readers path slots entries
    | some (setting, read) =>
      let value ← readSetting setting read node (join path name)
      readSettings readers path (Slot.assign name value slots) entries

/-- The parts of a sequence or of a set, in their order. -/
def parts? : Tree → Option (List Tree)
  | .seq _ items => some items
  | .set members => some (members.map .scalar)
  | _ => none

mutual

/-- The way to read a value of a shape. -/
def reader : Shape → Reader
  | .str => orNull readStr
  | .int => orNull readInt
  | .float => orNull readFloat
  | .bool => orNull readBool
  | .native type => orNull (readNative type)
  | .enumeration type => orNull (readMember type)
  | .list element => orNull fun node path =>
    match node with
    | .seq _ items => do return .seq .concurrent (← readItems (reader element) path 0 items)
    | node => refuse ("list of " ++ element.typeName) node path
  | .set element => orNull fun node path =>
    match parts? node with
    | some items => do return .set .concurrent (← readMembers (reader element) path 0 [] items)
    | none => refuse ("set of " ++ element.typeName) node path
  | .map key value => orNull fun node path =>
    match node with
    | .map _ entries => do
      return .dict .concurrent (← readEntries (reader key) (reader value) path [] entries)
    | node => refuse ("map of " ++ key.typeName ++ " to " ++ value.typeName) node path
  | .document name settings => orNull fun node path =>
    match node with
    | .map _ entries => do
      let slots ← readSettings (readers settings) path (Schema.newSlots settings) entries
      return .document name slots
    | node => refuse name node path

def readers : List (Setting Shape) → Readers
  | [] => []
  | ⟨name, shape, default⟩ :: settings =>
    (⟨name, shape, default⟩, reader shape) :: readers settings

end

/-- What is said about a misfit. -/
def Misfit.problem (misfit : Misfit) : String :=
  let path := if misfit.path.isEmpty then "<root>" else misfit.path.shown
  "Cannot create property=" ++ path ++ ": expected " ++ misfit.expected ++ ", got " ++
    misfit.node.typeName ++ " " ++ String.ofList misfit.node.display

/-- The failure of a walk over a source. -/
def WalkFailure.toFailure (source : String) : WalkFailure → Failure
  | .misfit misfit =>
    if misfit.node.writable then .configuration (.malformed source (Misfit.problem misfit))
    else .fault .content
  | .fault fault => .fault fault

/-- A document with the report on its source. -/
structure Result where
  document : Value
  report : Report
  deriving Repr

/-- The document that a tree stands for. Its root has to be a dictionary. -/
def ofTree (schema : Schema) (source : String) (tree : Tree) : Except Failure Result :=
  let walk : Walk Value :=
    if tree.isNull then accept schema.newDocument
    else reader schema.shape tree ""
  match walk with
  | .built document findings => .ok ⟨document, .ofFindings findings⟩
  | .stopped failure => .error (WalkFailure.toFailure source failure)

/-- The failure to read a source as YAML. -/
def ofYamlFailure (source : String) : Yaml.Failure → Failure
  | .refused refusal => .configuration (.malformed source refusal.text)
  | .fault fault => .fault fault

/-- The document that a source stands for. An empty source is a document with all defaults. -/
def decode (schema : Schema) (source : String) (bytes : List UInt8) : Except Failure Result :=
  match Yaml.read? schema.shape.depth bytes with
  | .error failure => .error (ofYamlFailure source failure)
  | .ok none => .ok ⟨schema.newDocument, .empty⟩
  | .ok (some tree) => ofTree schema source tree

end Decode

end LayeredConfig
