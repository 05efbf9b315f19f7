import LayeredConfig.Proofs.Schema.Conformity

namespace LayeredConfig

/-- A setting whose shape is regular and whose default is null or has that shape. -/
structure Setting.Sound (setting : Setting Shape) : Prop where
  shape : setting.shape.Regular
  default : setting.nullable = false → Conforms setting.shape setting.default

theorem Schema.regular {schema : Schema} (sound : ∀ setting ∈ schema.settings, setting.Sound) :
    schema.shape.Regular :=
  .document (fun setting member => (sound setting member).shape)
    fun setting member => (sound setting member).default

/-- A new document of a regular schema has the shape of the schema. -/
theorem Schema.newDocument_conforms {schema : Schema} (regular : schema.shape.Regular) :
    Conforms schema.shape schema.newDocument :=
  regular.newSlots.conforms

namespace NodeSchema

theorem sound_optional (title : String) (regular : Shape.Regular shape) :
    (optional title shape).Sound :=
  ⟨regular, nofun⟩

theorem sound_text (title initial : String) : (text title initial).Sound :=
  ⟨.str, fun _ => .str initial⟩

theorem sound_whole (title : String) (initial : Int) : (whole title initial).Sound :=
  ⟨.int, fun _ => .int initial⟩

theorem sound_flag (title : String) (initial : Bool) : (flag title initial).Sound :=
  ⟨.bool, fun _ => .bool initial⟩

theorem sound_choice (title : String) {type : Enumeration}
    (listed : (member, .str value) ∈ type.members) : (choice title type member value).Sound :=
  ⟨.enumeration type, fun _ => .member listed⟩

theorem regular_parameterizedClass : parameterizedClass.shape.Regular := by
  apply Schema.regular
  simp only [parameterizedClass, List.forall_mem_cons]
  exact ⟨sound_optional _ .str, sound_optional _ (.map .str .str), nofun⟩

theorem regular_encryptionOptions : encryptionOptions.shape.Regular := by
  apply Schema.regular
  simp only [encryptionOptions, List.forall_mem_cons]
  exact ⟨sound_flag .., sound_flag .., sound_text .., sound_optional _ .str, sound_text ..,
    sound_optional _ .str, sound_text .., sound_optional _ (.list .str), sound_flag .., nofun⟩

theorem conforms_defaultSeedProvider : Conforms parameterizedClass.shape defaultSeedProvider := by
  refine Filled.conforms ⟨rfl, ?_, ?_⟩
  · simp [parameterizedClass, optional, Setting.nullable, Value.isNull, Scalar.isNull]
  · simp only [parameterizedClass, List.zip_cons_cons, List.zip_nil_right, List.forall_mem_cons]
    exact ⟨fun _ => .str _,
      fun _ => .map (by simpa using fun _ => .str _) (by simpa using fun _ => .str _), nofun⟩

theorem regular_nodeConfig : nodeConfig.shape.Regular := by
  apply Schema.regular
  simp only [nodeConfig, List.forall_mem_cons]
  exact ⟨sound_text .., sound_whole .., sound_optional _ .str,
    ⟨regular_parameterizedClass, fun _ => conforms_defaultSeedProvider⟩, sound_optional _ .str,
    sound_optional _ .str, sound_optional _ .str, sound_optional _ .str, sound_whole ..,
    sound_whole .., sound_whole .., sound_text .., ⟨.list .str, fun _ => .list nofun⟩,
    sound_optional _ .str, sound_optional _ .str, sound_optional _ .str,
    sound_choice _ List.mem_cons_self, sound_whole .., sound_choice _ List.mem_cons_self,
    sound_choice _ List.mem_cons_self, sound_whole .., sound_whole .., ⟨.float, fun _ => .float _⟩,
    sound_flag .., sound_flag .., ⟨.set .str, fun _ => .set nofun⟩, sound_text .., sound_text ..,
    sound_optional _ regular_parameterizedClass,
    ⟨regular_encryptionOptions, fun _ => Schema.newDocument_conforms regular_encryptionOptions⟩,
    ⟨regular_encryptionOptions, fun _ => Schema.newDocument_conforms regular_encryptionOptions⟩,
    ⟨.map .str .str, fun _ => .map nofun nofun⟩, nofun⟩

theorem named_nodeConfig : ∀ setting ∈ nodeConfig.settings, setting.name ≠ "" := by
  simp [nodeConfig, optional, text, whole, flag, choice]

end NodeSchema

end LayeredConfig
