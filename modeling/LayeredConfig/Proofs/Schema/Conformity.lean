import LayeredConfig.NodeSchema
import LayeredConfig.Proofs.Schema.Slots

namespace LayeredConfig

/-- A value other than null has the shape that is declared for it. Parts of collections may be null;
a document has one slot for each setting, and null only where the setting may be null. -/
inductive Conforms : Shape → Value → Prop
  | str (text : Str) : Conforms .str (.str text)
  | int (value : Int) : Conforms .int (.int value)
  | float (value : Binary64) : Conforms .float (.scalar (.float value))
  | bool (value : Bool) : Conforms .bool (.bool value)
  | member {type : Enumeration} (listed : (name, value) ∈ type.members) :
      Conforms (.enumeration type) (.member type.name name value)
  | list (parts : ∀ item ∈ items, item.isNull = false → Conforms element item) :
      Conforms (.list element) (.seq .concurrent items)
  | set (parts : ∀ member ∈ members, member.isNull = false → Conforms element member) :
      Conforms (.set element) (.set .concurrent members)
  | map {entries : List (Value × Value)}
      (keys : ∀ entry ∈ entries, entry.1.isNull = false → Conforms key entry.1)
      (values : ∀ entry ∈ entries, entry.2.isNull = false → Conforms value entry.2) :
      Conforms (.map key value) (.dict .concurrent entries)
  | document {slots : List (Slot Value)} {settings : List (Setting Shape)}
      (names : slots.map (·.name) = settings.map (·.name))
      (explicit : ∀ name ∈ Slot.explicitNames slots, name ∈ settings.map (·.name))
      (required : ∀ pair ∈ settings.zip slots, pair.2.value.isNull = true → pair.1.nullable = true)
      (parts : ∀ pair ∈ settings.zip slots, pair.2.value.isNull = false →
        Conforms pair.1.shape pair.2.value) :
      Conforms (.document name settings) (.document name slots)

theorem Conforms.present (conforms : Conforms shape value) : value.isNull = false := by
  cases conforms <;> rfl

/-- Slots that a document with some settings may have. -/
structure Filled (settings : List (Setting Shape)) (slots : List (Slot Value)) : Prop where
  names : slots.map (·.name) = settings.map (·.name)
  required : ∀ pair ∈ settings.zip slots, pair.2.value.isNull = true → pair.1.nullable = true
  parts : ∀ pair ∈ settings.zip slots, pair.2.value.isNull = false →
    Conforms pair.1.shape pair.2.value

namespace Filled

variable {settings : List (Setting Shape)} {slots : List (Slot Value)}

/-- The explicit settings of a document are among its slots, so only these need to agree. -/
theorem conforms (filled : Filled settings slots) :
    Conforms (.document name settings) (.document name slots) :=
  .document filled.names
    (fun title explicit => filled.names ▸ Slot.explicitNames_subset slots title explicit)
    filled.required filled.parts

theorem overlay {upper : List (Slot Value)} (below : Filled settings slots)
    (above : Filled settings upper) : Filled settings (Slot.overlay slots upper) where
  names := (Slot.names_overlay slots upper).trans below.names
  required := by
    rintro ⟨setting, slot⟩ beside null
    obtain ⟨origin, same, here | there⟩ := Slot.of_mem_zip_overlay beside
    · exact below.required (setting, origin) here (same.symm ▸ null)
    · exact above.required (setting, origin) there (same.symm ▸ null)
  parts := by
    rintro ⟨setting, slot⟩ beside present
    obtain ⟨origin, same, here | there⟩ := Slot.of_mem_zip_overlay beside
    · exact same ▸ below.parts (setting, origin) here (same.symm ▸ present)
    · exact same ▸ above.parts (setting, origin) there (same.symm ▸ present)

theorem newSlots (defaults : ∀ setting ∈ settings, setting.nullable = false →
      Conforms setting.shape setting.default) :
    Filled settings (Schema.newSlots settings) where
  names := by simp [Schema.newSlots]
  required := Slot.forall_zip_newSlots
    (fun setting value => value.isNull = true → setting.nullable = true) fun _ _ null => null
  parts := Slot.forall_zip_newSlots
    (fun setting value => value.isNull = false → Conforms setting.shape value) defaults

end Filled

/-- A document with another one over it keeps its shape. -/
theorem Conforms.overlay (below : Conforms shape base) (above : Conforms shape upper)
    (laid : base.overlay? upper = .ok result) : Conforms shape result := by
  cases below with
  | document names _ required parts =>
    cases above with
    | document names' _ required' parts' =>
      simp only [Value.overlay?, beq_self_eq_true, if_true] at laid
      obtain rfl := Except.ok.inj laid
      exact (Filled.overlay ⟨names, required, parts⟩ ⟨names', required', parts'⟩).conforms
  | _ => cases laid

/-- A value that occurs in another one, at any depth. -/
inductive Occurs (part : Value) : Value → Prop
  | here : Occurs part part
  | item (member : item ∈ items) (deeper : Occurs part item) : Occurs part (.seq kind items)
  | member (member : value ∈ members) (deeper : Occurs part value) : Occurs part (.set kind members)
  | key {entries : List (Value × Value)} (member : entry ∈ entries) (deeper : Occurs part entry.1) :
      Occurs part (.dict kind entries)
  | entry {entries : List (Value × Value)} (member : entry ∈ entries) (deeper : Occurs part entry.2) :
      Occurs part (.dict kind entries)
  | slot {slots : List (Slot Value)} (member : slot ∈ slots) (deeper : Occurs part slot.value) :
      Occurs part (.document type slots)

/-- Whether a value is a list, a tuple, a set or a dictionary of a native kind. -/
def Value.isNative : Value → Bool
  | .seq kind _ => kind != .concurrent
  | .set kind _ => kind != .concurrent
  | .dict kind _ => kind != .concurrent
  | _ => false

theorem Value.isNative_of_isNull {value : Value} (null : value.isNull = true) :
    value.isNative = false := by
  cases value <;> first | rfl | cases null

theorem Value.eq_null_of_isNull {value : Value} (null : value.isNull = true) : value = .null := by
  cases value with
  | scalar scalar => cases scalar <;> first | rfl | cases null
  | _ => cases null

theorem occurs_in_null (occurs : Occurs part whole) (null : whole.isNull = true) : part = whole := by
  cases occurs with
  | here => rfl
  | _ => cases null

/-- Every container in a value that has its declared shape is concurrent. -/
theorem Conforms.no_native (conforms : Conforms shape whole) (occurs : Occurs part whole) :
    part.isNative = false := by
  have inside {value : Value} (occurs : Occurs part value)
      (ih : value.isNull = false → Occurs part value → part.isNative = false) :
      part.isNative = false := by
    cases null : value.isNull with
    | false => exact ih null occurs
    | true => exact occurs_in_null occurs null ▸ Value.isNative_of_isNull null
  induction conforms with
  | str | int | float | bool | member => cases occurs; rfl
  | list parts ih =>
    cases occurs with
    | here => rfl
    | item member deeper => exact inside deeper fun present => ih _ member present
  | set parts ih =>
    cases occurs with
    | here => rfl
    | member member deeper => exact inside deeper fun present => ih _ member present
  | map keys values ihKeys ihValues =>
    cases occurs with
    | here => rfl
    | key member deeper => exact inside deeper fun present => ihKeys _ member present
    | entry member deeper => exact inside deeper fun present => ihValues _ member present
  | document names explicit required parts ih =>
    cases occurs with
    | here => rfl
    | slot member deeper =>
      obtain ⟨setting, beside⟩ := Slot.exists_mem_zip names member
      exact inside deeper fun present => ih _ beside present

/-- Shapes of the documented types in which every default is null or has its own shape. -/
inductive Shape.Regular : Shape → Prop
  | str : Regular .str
  | int : Regular .int
  | float : Regular .float
  | bool : Regular .bool
  | enumeration (type : Enumeration) : Regular (.enumeration type)
  | list (element : Regular shape) : Regular (.list shape)
  | set (element : Regular shape) : Regular (.set shape)
  | map (key : Regular keyShape) (value : Regular valueShape) : Regular (.map keyShape valueShape)
  | document {settings : List (Setting Shape)} (shapes : ∀ setting ∈ settings, Regular setting.shape)
      (defaults : ∀ setting ∈ settings, setting.nullable = false →
        Conforms setting.shape setting.default) :
      Regular (.document name settings)

theorem Shape.Regular.newSlots {settings : List (Setting Shape)}
    (regular : Regular (.document name settings)) : Filled settings (Schema.newSlots settings) := by
  cases regular with
  | document shapes defaults => exact .newSlots defaults

end LayeredConfig
