import LayeredConfig.Fingerprint
import LayeredConfig.Schema

namespace LayeredConfig

structure Summary where
  explicit : List Str
  values : List (Str × Value)
  fingerprint : Except Fault String

/-- The summary of a document that has a plain form, with the names sorted and the values in the order
of the schema. -/
def Summary.ofSlots (type : String) (slots : List (Slot Value)) : Except Fault Summary := do
  let _ ← (Value.document type slots).plain?
  return {
    explicit := sortTexts (Slot.explicitNames slots)
    values := (slots.filter (·.explicit)).map fun slot => (slot.name, slot.value.toPlain)
    fingerprint := (Value.document type slots).fingerprint }

/-- The summary of a value that is a document. -/
def Value.summary? : Value → Option (Except Fault Summary)
  | .document type slots => some (Summary.ofSlots type slots)
  | _ => none

end LayeredConfig
