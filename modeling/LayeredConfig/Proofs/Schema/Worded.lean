import LayeredConfig.Proofs.Schema.Node
import LayeredConfig.Value.Canonical

namespace LayeredConfig

/-- The members of sets, the keys of dictionaries and the values of enumerations are texts. -/
inductive Shape.Worded : Shape → Prop
  | str : Worded .str
  | int : Worded .int
  | float : Worded .float
  | bool : Worded .bool
  | enumeration {type : Enumeration} (texts : ∀ member ∈ type.members, member.2.isTextKey = true) :
      Worded (.enumeration type)
  | list (element : Worded shape) : Worded (.list shape)
  | set : Worded (.set .str)
  | map (value : Worded shape) : Worded (.map .str shape)
  | document {settings : List (Setting Shape)} (shapes : ∀ setting ∈ settings, Worded setting.shape) :
      Worded (.document name settings)

namespace Value

/-- A set whose members, or a dictionary whose keys, are all texts or null. -/
def NamesParts : Value → Prop
  | .set _ members => ∀ member ∈ members, member.isNull = true ∨ member.isTextKey = true
  | .dict _ entries => ∀ entry ∈ entries, entry.1.isNull = true ∨ entry.1.isTextKey = true
  | _ => True

theorem exists_text_of_isTextKey {value : Value} (key : value.isTextKey = true) :
    ∃ text, value = .str text := by
  cases value with
  | scalar scalar => cases scalar <;> first | exact ⟨_, rfl⟩ | cases key
  | _ => cases key

theorem eq_of_named {value : Value} (named : value.isNull = true ∨ value.isTextKey = true) :
    value = .null ∨ ∃ text, value = .str text :=
  named.imp eq_null_of_isNull exists_text_of_isTextKey

theorem occurs_in_named {part value : Value} (occurs : Occurs part value)
    (named : value.isNull = true ∨ value.isTextKey = true) : part = value := by
  rcases eq_of_named named with rfl | ⟨text, rfl⟩
  · exact occurs_in_null occurs rfl
  · cases occurs
    rfl

end Value

/-- What occurs in a value of a worded shape is null or has a worded shape itself. -/
theorem Conforms.exists_worded (conforms : Conforms shape whole) (worded : shape.Worded)
    (occurs : Occurs part whole) :
    part.isNull = true ∨ ∃ inner : Shape, inner.Worded ∧ Conforms inner part := by
  have deeper {shape : Shape} {value : Value} (occurs : Occurs part value) (worded : shape.Worded)
      (conforms : value.isNull = false → Conforms shape value)
      (ih : ∀ {shape : Shape}, Conforms shape value → shape.Worded →
        part.isNull = true ∨ ∃ inner : Shape, inner.Worded ∧ Conforms inner part) :
      part.isNull = true ∨ ∃ inner : Shape, inner.Worded ∧ Conforms inner part := by
    cases null : value.isNull with
    | false => exact ih (conforms null) worded
    | true => exact .inl (occurs_in_null occurs null ▸ null)
  induction occurs generalizing shape with
  | here => exact .inr ⟨shape, worded, conforms⟩
  | item member inside ih =>
    cases conforms with
    | list parts =>
      cases worded with
      | list element => exact deeper inside element (parts _ member) ih
  | member member inside ih =>
    cases conforms with
    | set parts =>
      cases worded with
      | set => exact deeper inside .str (parts _ member) ih
  | key member inside ih =>
    cases conforms with
    | map keys values =>
      cases worded with
      | map value => exact deeper inside .str (keys _ member) ih
  | entry member inside ih =>
    cases conforms with
    | map keys values =>
      cases worded with
      | map value => exact deeper inside value (values _ member) ih
  | slot member inside ih =>
    cases conforms with
    | document names explicit required parts =>
      cases worded with
      | document shapes =>
        obtain ⟨setting, beside⟩ := Slot.exists_mem_zip names member
        exact deeper inside (shapes setting (List.of_mem_zip beside).1) (parts _ beside) ih

theorem Conforms.isTextKey (conforms : Conforms .str value) : value.isTextKey = true := by
  cases conforms
  rfl

theorem named_of_conforms {value : Value} (text : value.isNull = false → Conforms .str value) :
    value.isNull = true ∨ value.isTextKey = true := by
  cases null : value.isNull with
  | true => exact .inl rfl
  | false => exact .inr (text null).isTextKey

theorem Conforms.namesParts (conforms : Conforms shape value) (worded : shape.Worded) :
    value.NamesParts := by
  cases conforms with
  | set parts =>
    cases worded with
    | set => exact fun member listed => named_of_conforms (parts member listed)
  | map keys values =>
    cases worded with
    | map value => exact fun entry listed => named_of_conforms (keys entry listed)
  | _ => trivial

/-- All sets and dictionaries in a value of a worded shape have texts and null for members and keys. -/
theorem Conforms.all_named (conforms : Conforms shape whole) (worded : shape.Worded) :
    ∀ part, Occurs part whole → part.NamesParts := by
  intro part occurs
  rcases conforms.exists_worded worded occurs with null | ⟨inner, worded, conforms⟩
  · rw [Value.eq_null_of_isNull null]
    trivial
  · exact conforms.namesParts worded

namespace NodeSchema

theorem worded_parameterizedClass : parameterizedClass.shape.Worded := by
  apply Shape.Worded.document
  simp only [parameterizedClass, List.forall_mem_cons]
  exact ⟨.str, .map .str, List.forall_mem_nil _⟩

theorem worded_encryptionOptions : encryptionOptions.shape.Worded := by
  apply Shape.Worded.document
  simp only [encryptionOptions, List.forall_mem_cons]
  exact ⟨.bool, .bool, .str, .str, .str, .str, .str, .list .str, .bool, List.forall_mem_nil _⟩

theorem worded_nodeConfig : nodeConfig.shape.Worded := by
  have texts {type : Enumeration} (listed : type ∈ enumerations) :
      (Shape.enumeration type).Worded := by
    have checked : ∀ type ∈ enumerations, ∀ member ∈ type.members, member.2.isTextKey = true := by
      decide
    exact .enumeration (checked type listed)
  apply Shape.Worded.document
  simp only [nodeConfig, List.forall_mem_cons]
  exact ⟨.str, .int, .str, worded_parameterizedClass, .str, .str, .str, .str, .int, .int, .int, .str,
    .list .str, .str, .str, .str, texts (by simp [enumerations]), .int,
    texts (by simp [enumerations]), texts (by simp [enumerations]), .int, .int, .float, .bool, .bool,
    .set, .str, .str, worded_parameterizedClass, worded_encryptionOptions, worded_encryptionOptions,
    .map .str, List.forall_mem_nil _⟩

end NodeSchema

end LayeredConfig
