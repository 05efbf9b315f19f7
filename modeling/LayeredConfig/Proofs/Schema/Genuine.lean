import LayeredConfig.Proofs.Schema.Conformity

namespace LayeredConfig

/-- No member of a set, or key of a dictionary, equals a later one or has a part that can change. -/
structure Value.Apart (values : List Value) : Prop where
  differ : values.Pairwise fun a b => a.same b = false
  frozen : ∀ value ∈ values, value.hashable = true

/-- A value other than null as a walk builds it under a shape. -/
inductive Genuine : Shape → Value → Prop
  | str (text : Str) : Genuine .str (.str text)
  | int (value : Int) : Genuine .int (.int value)
  | float (value : Binary64) : Genuine .float (.scalar (.float value))
  | bool (value : Bool) : Genuine .bool (.bool value)
  | member {type : Enumeration} (own : (name, value) ∈ type.canonical) :
      Genuine (.enumeration type) (.member type.name name value)
  | list (parts : ∀ item ∈ items, item.isNull = false → Genuine element item) :
      Genuine (.list element) (.seq .concurrent items)
  | set (parts : ∀ member ∈ members, member.isNull = false → Genuine element member)
      (apart : Value.Apart members) : Genuine (.set element) (.set .concurrent members)
  | map {entries : List (Value × Value)}
      (keys : ∀ entry ∈ entries, entry.1.isNull = false → Genuine key entry.1)
      (values : ∀ entry ∈ entries, entry.2.isNull = false → Genuine value entry.2)
      (apart : Value.Apart (entries.map (·.1))) : Genuine (.map key value) (.dict .concurrent entries)
  | document {slots : List (Slot Value)} {settings : List (Setting Shape)}
      (names : slots.map (·.name) = settings.map (·.name))
      (required : ∀ pair ∈ settings.zip slots, pair.2.value.isNull = true → pair.1.nullable = true)
      (parts : ∀ pair ∈ settings.zip slots, pair.2.value.isNull = false →
        Genuine pair.1.shape pair.2.value) :
      Genuine (.document name settings) (.document name slots)

theorem Genuine.present (genuine : Genuine shape value) : value.isNull = false := by
  cases genuine <;> rfl

/-- Shapes of the documented types. Setting names and names of members are not used twice, keys are not
members of enumerations, and every default is null or one that a walk might build. -/
inductive Shape.Documented : Shape → Prop
  | str : Documented .str
  | int : Documented .int
  | float : Documented .float
  | bool : Documented .bool
  | enumeration {type : Enumeration} (names : (type.members.map (·.1)).Nodup) :
      Documented (.enumeration type)
  | list (element : Documented shape) : Documented (.list shape)
  | set (element : Documented shape) : Documented (.set shape)
  | map (key : Documented keyShape) (unlisted : ∀ type, keyShape ≠ .enumeration type)
      (value : Documented valueShape) : Documented (.map keyShape valueShape)
  | document {settings : List (Setting Shape)} (names : (settings.map (·.name)).Nodup)
      (shapes : ∀ setting ∈ settings, Documented setting.shape)
      (defaults : ∀ setting ∈ settings, setting.nullable = false →
        Genuine setting.shape setting.default) : Documented (.document name settings)

theorem Shape.Documented.newSlots {settings : List (Setting Shape)}
    (documented : Documented (.document name settings)) :
    Genuine (.document name settings) (.document name (Schema.newSlots settings)) := by
  cases documented with
  | document names shapes defaults =>
    exact .document (by simp [Schema.newSlots])
      (Slot.forall_zip_newSlots
        (fun setting value => value.isNull = true → setting.nullable = true) fun _ _ null => null)
      (Slot.forall_zip_newSlots
        (fun setting value => value.isNull = false → Genuine setting.shape value) defaults)

/-- A setting of a documented shape whose default is null or one that a walk might build. -/
structure Setting.Faithful (setting : Setting Shape) : Prop where
  shape : setting.shape.Documented
  default : setting.nullable = false → Genuine setting.shape setting.default

theorem Schema.documented {schema : Schema} (names : schema.names.Nodup)
    (faithful : ∀ setting ∈ schema.settings, setting.Faithful) : schema.shape.Documented :=
  .document names (fun setting member => (faithful setting member).shape)
    fun setting member => (faithful setting member).default

namespace NodeSchema

theorem faithful_optional (title : String) (documented : Shape.Documented shape) :
    (optional title shape).Faithful :=
  ⟨documented, nofun⟩

theorem faithful_text (title initial : String) : (text title initial).Faithful :=
  ⟨.str, fun _ => .str initial⟩

theorem faithful_whole (title : String) (initial : Int) : (whole title initial).Faithful :=
  ⟨.int, fun _ => .int initial⟩

theorem faithful_flag (title : String) (initial : Bool) : (flag title initial).Faithful :=
  ⟨.bool, fun _ => .bool initial⟩

/-- No member of an enumeration of the schema is another name. -/
theorem canonical_of_mem_enumerations {type : Enumeration} (listed : type ∈ enumerations) :
    type.canonical = type.members := by
  simp only [enumerations, List.mem_cons, List.not_mem_nil, or_false] at listed
  rcases listed with rfl | rfl | rfl
  all_goals simp [diskAccessMode, commitLogSync, memtableAllocationType, Enumeration.canonical,
    Members.ofList, Members.insertAll, Members.insert, Members.contains, Value.eqv, Value.alike,
    Scalar.alike, Scalar.key]

theorem faithful_choice (title : String) {type : Enumeration} (listed : type ∈ enumerations)
    (own : (member, .str value) ∈ type.members) : (choice title type member value).Faithful := by
  have names : ∀ type ∈ enumerations, (type.members.map (·.1)).Nodup := by decide
  exact ⟨.enumeration (names type listed), fun _ =>
    .member (canonical_of_mem_enumerations listed ▸ own)⟩

theorem documented_parameterizedClass : parameterizedClass.shape.Documented := by
  refine Schema.documented (by decide) ?_
  simp only [parameterizedClass, List.forall_mem_cons]
  exact ⟨faithful_optional _ .str, faithful_optional _ (.map .str nofun .str), nofun⟩

theorem documented_encryptionOptions : encryptionOptions.shape.Documented := by
  refine Schema.documented (by decide) ?_
  simp only [encryptionOptions, List.forall_mem_cons]
  exact ⟨faithful_flag .., faithful_flag .., faithful_text .., faithful_optional _ .str, faithful_text ..,
    faithful_optional _ .str, faithful_text .., faithful_optional _ (.list .str), faithful_flag .., nofun⟩

theorem genuine_defaultSeedProvider : Genuine parameterizedClass.shape defaultSeedProvider := by
  refine .document rfl ?_ ?_
  · simp [parameterizedClass, optional, Setting.nullable, Value.isNull, Scalar.isNull]
  · simp only [parameterizedClass, List.zip_cons_cons, List.zip_nil_right, List.forall_mem_cons]
    refine ⟨fun _ => .str _, fun _ => .map ?_ ?_ ⟨List.pairwise_singleton _ _, ?_⟩, nofun⟩
    · exact List.forall_mem_singleton.mpr fun _ => .str _
    · exact List.forall_mem_singleton.mpr fun _ => .str _
    · exact List.forall_mem_singleton.mpr rfl

theorem documented_nodeConfig : nodeConfig.shape.Documented := by
  have empty : Value.Apart [] := ⟨.nil, nofun⟩
  refine Schema.documented (by decide) ?_
  simp only [nodeConfig, List.forall_mem_cons]
  exact ⟨faithful_text .., faithful_whole .., faithful_optional _ .str,
    ⟨documented_parameterizedClass, fun _ => genuine_defaultSeedProvider⟩, faithful_optional _ .str,
    faithful_optional _ .str, faithful_optional _ .str, faithful_optional _ .str, faithful_whole ..,
    faithful_whole .., faithful_whole .., faithful_text .., ⟨.list .str, fun _ => .list nofun⟩,
    faithful_optional _ .str, faithful_optional _ .str, faithful_optional _ .str,
    faithful_choice _ (by simp [enumerations]) List.mem_cons_self, faithful_whole ..,
    faithful_choice _ (by simp [enumerations]) List.mem_cons_self,
    faithful_choice _ (by simp [enumerations]) List.mem_cons_self, faithful_whole .., faithful_whole ..,
    ⟨.float, fun _ => .float _⟩, faithful_flag .., faithful_flag ..,
    ⟨.set .str, fun _ => .set nofun empty⟩, faithful_text .., faithful_text ..,
    faithful_optional _ documented_parameterizedClass,
    ⟨documented_encryptionOptions, fun _ => documented_encryptionOptions.newSlots⟩,
    ⟨documented_encryptionOptions, fun _ => documented_encryptionOptions.newSlots⟩,
    ⟨.map .str nofun .str, fun _ => .map nofun nofun empty⟩, nofun⟩

end NodeSchema

end LayeredConfig
