import LayeredConfig.Overlay
import LayeredConfig.Store.Method

namespace LayeredConfig.Document

open Step

/-- The type and the slots of a document. -/
def read (identity : Identity) : Step (String × List (Slot Item)) := do
  match ← cell identity with
  | .document type slots => return (type, slots)
  | _ => fail .method

/-- The value of a setting. -/
def get (identity : Identity) (name : Str) : Step Item := do
  let (_, slots) ← read identity
  match Slot.find? name slots with
  | some slot => return slot.value
  | none => fail .method

/-- Gives a setting a value, with a rule for its mark. -/
def change (identity : Identity) (name : Str)
    (rule : List (Slot Item) → List (Slot Item)) : Step Unit := do
  let (type, slots) ← read identity
  if (Slot.find? name slots).isNone then fail (.unknownSetting type name)
  write identity (.document type (rule slots))

/-- Gives a setting a value. -/
def set (identity : Identity) (name : Str) (item : Item) : Step Unit :=
  change identity name (Slot.store name item)

/-- Gives a setting a value and marks it explicit. -/
def setExplicit (identity : Identity) (name : Str) (item : Item) : Step Unit :=
  change identity name (Slot.assign name item)

/-- The names of the explicit settings. -/
def explicitSettings (identity : Identity) : Step (List Str) := do
  return Slot.explicitNames (← read identity).2

/-- A new document of a schema in which the given settings are explicit. The document itself is given
under a name of its own, which no setting can be given under. -/
def construct (schema : Schema) (values : List (Str × Item)) : Step Identity :=
  if values.any (·.1 == "self") then fail .kind
  else do
    let identity ←
      match ← place schema.newDocument with
      | .object identity => pure identity
      | .value _ => fail .kind
    values.forM fun (name, item) => setExplicit identity name item
    return identity

/-- Lays a document over another of the same type, which takes over the values of the explicit settings
themselves. Types are told apart by their names. -/
def overlay (base upper : Identity) : Step Unit := do
  let (type, slots) ← read base
  let (type', slots') ← read upper
  if type == type' then write base (.document type (Slot.overlay slots slots'))
  else fail (.overlayOfOtherType type type')

/-- A call on a document. -/
def run (identity : Identity) (type : String) (slots : List (Slot Item)) (method : Method)
    (arguments : List Argument) : Step Outcome :=
  match method with
  | .toDict => withNone arguments do
    match (← valueOf (.object identity)).plain? with
    | .ok plain => return .item (← place plain)
    | .error fault => fail fault
  | .explicitSettings => withNone arguments do
    return .item (← alloc (.set .plain ((Slot.explicitNames slots).map .str)))
  | .isExplicit => withOne arguments fun name => do
    let name ← soughtMember name
    return .flag ((Slot.explicitNames slots).any fun explicit => (Value.str explicit).same name)
  | .setExplicit => withTwo arguments fun name item => do
    match name with
    | .value (.scalar (.str name)) =>
      setExplicit identity name item
      return .nothing
    | _ => fail .kind
  | .equal => withOne arguments fun other => do
    match ← valueOf other with
    | .document type' slots' =>
      if type == type' then
        return .flag ((← valueOf (.object identity)).eqv (.document type' slots'))
      else return .notImplemented
    | _ => return .notImplemented
  | _ => fail .method

end LayeredConfig.Document
