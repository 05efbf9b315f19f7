import LayeredConfig.Proofs.Decode.Genuine
import LayeredConfig.Proofs.Value.Telling

/-!
The canonical text of a decoded document tells all of it but the order of its maps and sets. Numbers in
double precision are the exception, so these are to be the same for a reason of their own.
-/

namespace LayeredConfig

open Text

namespace Value

/-- A dictionary all of whose keys are texts. -/
def TextKeyed : Value → Prop
  | .dict _ entries => ∀ entry ∈ entries, entry.1.isTextKey = true
  | _ => True

instance : DecidablePred TextKeyed
  | .dict _ entries => inferInstanceAs (Decidable (∀ entry ∈ entries, entry.1.isTextKey = true))
  | .scalar _ => isTrue trivial
  | .member _ _ _ => isTrue trivial
  | .seq _ _ => isTrue trivial
  | .set _ _ => isTrue trivial
  | .document _ _ => isTrue trivial

/-- The value of a setting of a document. -/
def setting? (name : Str) : Value → Option Value
  | .document _ slots => (Slot.find? name slots).map (·.value)
  | _ => none

end Value

mutual

/-- Whether no value of a shape has a number in double precision in it. -/
def Shape.floatless : Shape → Bool
  | .float => false
  | .document _ settings => settingsFloatless settings
  | .list element => element.floatless
  | .set element => element.floatless
  | .map key value => key.floatless && value.floatless
  | _ => true

def settingsFloatless : List (Setting Shape) → Bool
  | [] => true
  | ⟨_, shape, _⟩ :: settings => shape.floatless && settingsFloatless settings

end

theorem settingsFloatless_iff {settings : List (Setting Shape)} :
    settingsFloatless settings = true ↔ ∀ setting ∈ settings, setting.shape.floatless = true := by
  induction settings with
  | nil => simp [settingsFloatless]
  | cons setting settings ih => simp only [settingsFloatless, Bool.and_eq_true, ih, List.forall_mem_cons]

variable {shape : Shape} {value other : Value}

/-- The canonical text of null begins like that of nothing else. -/
theorem Genuine.head_canonical (genuine : Genuine shape value) (exact : shape.floatless = true)
    {text : List Char} (written : value.toPlain.canonical = .ok text) :
    ∃ c rest, text = c :: rest ∧ ¬ c = 'n' := by
  cases genuine with
  | str | member => exact ⟨_, _, (Except.ok.inj written).symm, by decide⟩
  | int n =>
    obtain rfl := Value.canonical_int written
    cases figures : (toString n).toList with
    | nil => exact absurd figures (toString_int_ne_nil n)
    | cons c rest =>
      refine ⟨c, rest, rfl, ?_⟩
      rintro rfl
      rcases mem_toString_int (figures ▸ List.mem_cons_self) with sign | digit
      · cases sign
      · cases digit
  | bool value => cases value <;> exact ⟨_, _, (Except.ok.inj written).symm, by decide⟩
  | float => cases exact
  | list | set =>
    obtain ⟨parts, -, rfl⟩ := Value.canonical_seq_eq_ok_iff.mp written
    exact ⟨_, _, rfl, by decide⟩
  | map | document =>
    obtain ⟨parts, -, rfl⟩ := Value.parts_of_canonical_dict written
    exact ⟨_, _, rfl, by decide⟩

/-- Parts that may be null are told from each other if those that are not null are. -/
theorem tells_of_present (exact : shape.floatless = true)
    (genuine : value.isNull = false → Genuine shape value)
    (genuine' : other.isNull = false → Genuine shape other)
    (tells : Genuine shape value → Genuine shape other → value.Tells other) : value.Tells other := by
  have begins {value : Value} (null : value.isNull = true) (text : List Char)
      (written : value.toPlain.canonical = .ok text) : ∃ c rest, text = c :: rest ∧ c = 'n' := by
    rw [Value.eq_null_of_isNull null] at written
    exact ⟨_, _, (Except.ok.inj written).symm, rfl⟩
  cases null : value.isNull with
  | true =>
    cases null' : other.isNull with
    | true => rw [Value.eq_null_of_isNull null, Value.eq_null_of_isNull null']; exact Value.tells_self _
    | false =>
      exact Value.tells_of_head (begins null) fun text => (genuine' null').head_canonical exact
  | false =>
    cases null' : other.isNull with
    | true =>
      refine Value.tells_of_head (fun text => (genuine null).head_canonical exact) fun text written => ?_
      obtain ⟨c, rest, same, starts⟩ := begins null' text written
      exact ⟨c, rest, same, not_not.mpr starts⟩
    | false => exact tells (genuine null) (genuine' null')

theorem named_of_genuine (genuine : value.isNull = false → Genuine .str value) :
    value.isNull = true ∨ value.isTextKey = true := by
  cases null : value.isNull with
  | true => exact .inl rfl
  | false =>
    cases genuine null
    exact .inr rfl

theorem setting?_of_mem_zip {settings : List (Setting Shape)} {setting : Setting Shape}
    {slots : List (Slot Value)} {slot : Slot Value} (distinct : (settings.map (·.name)).Nodup)
    (names : slots.map (·.name) = settings.map (·.name)) (beside : (setting, slot) ∈ settings.zip slots) :
    (Value.document type slots).setting? setting.name = some slot.value := by
  rw [Value.setting?, ← Slot.name_of_mem_zip names beside,
    Slot.find?_of_mem (names ▸ distinct) (List.of_mem_zip beside).2, Option.map_some]

/-- Documents of one schema whose settings are told from each other are told from each other. -/
theorem tells_of_slots {settings : List (Setting Shape)} {slots others : List (Slot Value)}
    (distinct : (settings.map (·.name)).Nodup) (names : slots.map (·.name) = settings.map (·.name))
    (names' : others.map (·.name) = settings.map (·.name))
    (tells : ∀ setting ∈ settings, ∀ slot, (setting, slot) ∈ settings.zip slots →
      ∀ slot', (setting, slot') ∈ settings.zip others → slot.value.Tells slot'.value) :
    (Value.document type slots).Tells (.document type others) := by
  refine Value.tells_document (names.trans names'.symm) (names ▸ distinct)
    fun slot member slot' member' same => ?_
  obtain ⟨setting, beside⟩ := Slot.exists_mem_zip names member
  obtain ⟨setting', beside'⟩ := Slot.exists_mem_zip names' member'
  have title := Slot.name_of_mem_zip names beside
  have title' := Slot.name_of_mem_zip names' beside'
  obtain rfl : setting = setting' := List.inj_on_of_nodup_map distinct (List.of_mem_zip beside).1
    (List.of_mem_zip beside').1 (by rw [← title, ← title', same])
  exact tells setting (List.of_mem_zip beside).1 slot beside slot' beside'

/-- Values of one worded shape are told from each other by their canonical texts, if the shape has no numbers
in double precision and the keys of their dictionaries are texts. -/
theorem tells_of_worded (worded : shape.Worded) (documented : shape.Documented)
    (exact : shape.floatless = true) (genuine : Genuine shape value) (genuine' : Genuine shape other)
    (keyed : ∀ part, Occurs part value → part.TextKeyed)
    (keyed' : ∀ part, Occurs part other → part.TextKeyed) : value.Tells other := by
  induction worded generalizing value other with
  | str =>
    cases genuine
    cases genuine'
    exact Value.tells_str _ _
  | int =>
    cases genuine
    cases genuine'
    exact Value.tells_int _ _
  | float => cases exact
  | bool =>
    cases genuine
    cases genuine'
    exact Value.tells_bool _ _
  | @enumeration type texts =>
    cases documented with
    | enumeration names =>
      cases genuine with
      | member own =>
        cases genuine' with
        | member own' =>
          refine Value.tells_member fun same => ?_
          have listed := type.canonical_subset own
          have listed' := type.canonical_subset own'
          exact (Prod.mk.inj (List.inj_on_of_nodup_map names listed listed' same)).2
  | list element ih =>
    cases documented with
    | list documented =>
      cases genuine with
      | list parts =>
        cases genuine' with
        | list parts' =>
          rw [Value.forall_occurs_seq] at keyed keyed'
          rw [Shape.floatless] at exact
          refine Value.tells_seq fun item member item' member' => ?_
          exact tells_of_present exact (parts item member) (parts' item' member') fun genuine genuine' =>
            ih documented exact genuine genuine' (keyed.2 item member) (keyed'.2 item' member')
  | set =>
    cases genuine with
    | set parts =>
      cases genuine' with
      | set parts' =>
        exact Value.tells_set (fun member listed => named_of_genuine (parts member listed))
          fun member listed => named_of_genuine (parts' member listed)
  | map element ih =>
    cases documented with
    | map _ _ documented =>
      cases genuine with
      | map keys values apart =>
        cases genuine' with
        | map keys' values' apart' =>
          rw [Value.forall_occurs_dict] at keyed keyed'
          rw [Shape.floatless, Bool.and_eq_true] at exact
          refine Value.tells_dict keyed.1 keyed'.1 (Value.nodup_of_apart (List.forall_mem_map.mpr keyed.1) apart)
            fun entry member entry' member' _ => ?_
          exact tells_of_present exact.2 (values entry member) (values' entry' member')
            fun genuine genuine' => ih documented exact.2 genuine genuine' (keyed.2.2 entry member)
              (keyed'.2.2 entry' member')
  | document shapes ih =>
    cases documented with
    | document distinct documented defaults =>
      cases genuine with
      | document names required parts =>
        cases genuine' with
        | document names' required' parts' =>
          rw [Value.forall_occurs_document] at keyed keyed'
          rw [Shape.floatless, settingsFloatless_iff] at exact
          refine tells_of_slots distinct names names' fun setting member slot beside slot' beside' => ?_
          exact tells_of_present (exact setting member) (parts _ beside) (parts' _ beside')
            fun genuine genuine' => ih setting member (documented setting member) (exact setting member)
              genuine genuine' (keyed.2 slot (List.of_mem_zip beside).2)
              (keyed'.2 slot' (List.of_mem_zip beside').2)

namespace Decode

/-- Two decoded documents of a worded schema that pass their checks have the same settings, up to the order of
maps and sets, if they have one canonical text. The keys of their maps are texts, and the settings with
numbers in double precision are the same on both sides. -/
theorem decode_told {schema : Schema} {first second : Result} {text : List Char}
    (worded : schema.shape.Worded) (documented : schema.shape.Documented)
    (decoded : decode schema source bytes = .ok first) (passed : first.report = .empty)
    (decoded' : decode schema source' bytes' = .ok second) (passed' : second.report = .empty)
    (keyed : ∀ part, Occurs part first.document → part.TextKeyed)
    (keyed' : ∀ part, Occurs part second.document → part.TextKeyed)
    (floats : ∀ setting ∈ schema.settings, setting.shape.floatless = false →
      first.document.setting? setting.name = second.document.setting? setting.name)
    (written : first.document.fingerprintText = .ok text)
    (written' : second.document.fingerprintText = .ok text) :
    first.document.unmarked.Shuffled second.document.unmarked := by
  have genuine := decode_genuine documented decoded passed
  have genuine' := decode_genuine documented decoded' passed'
  generalize first.document = document at *
  generalize second.document = document' at *
  cases documented with
  | document distinct documented defaults =>
    cases genuine with
    | @document _ slots _ names required parts =>
      cases genuine' with
      | @document _ slots' _ names' required' parts' =>
        cases worded with
        | document worded =>
          rw [Value.forall_occurs_document] at keyed keyed'
          have tells : (Value.document schema.name slots).Tells (.document schema.name slots') := by
            refine tells_of_slots distinct names names' fun setting member slot beside slot' beside' => ?_
            have listed := (List.of_mem_zip beside).2
            have listed' := (List.of_mem_zip beside').2
            cases exact : setting.shape.floatless with
            | true =>
              exact tells_of_present exact (parts _ beside) (parts' _ beside') fun genuine genuine' =>
                tells_of_worded (worded setting member) (documented setting member) exact genuine genuine'
                  (keyed.2 slot listed) (keyed'.2 slot' listed')
            | false =>
              have same := floats setting member exact
              rw [setting?_of_mem_zip distinct names beside, setting?_of_mem_zip distinct names' beside'] at same
              rw [Option.some.inj same]
              exact Value.tells_self _
          exact tells.shuffled ⟨text, (Value.fingerprintText_eq_ok_iff.mp written).2,
            (Value.fingerprintText_eq_ok_iff.mp written').2⟩

/-- Two decoded configurations of a node that pass their checks have the same settings, up to the order of maps
and sets, if they have one canonical text. The keys of their maps are texts, and their thresholds are one
number. -/
theorem decode_node_told {first second : Result} {text : List Char}
    (decoded : decode NodeSchema.nodeConfig source bytes = .ok first) (passed : first.report = .empty)
    (decoded' : decode NodeSchema.nodeConfig source' bytes' = .ok second) (passed' : second.report = .empty)
    (keyed : ∀ part, Occurs part first.document → part.TextKeyed)
    (keyed' : ∀ part, Occurs part second.document → part.TextKeyed)
    (threshold : first.document.setting? "phi_convict_threshold" =
      second.document.setting? "phi_convict_threshold")
    (written : first.document.fingerprintText = .ok text)
    (written' : second.document.fingerprintText = .ok text) :
    first.document.unmarked.Shuffled second.document.unmarked := by
  have others : ∀ setting ∈ NodeSchema.nodeConfig.settings, setting.shape.floatless = false →
      setting.name = "phi_convict_threshold" := by decide
  refine decode_told NodeSchema.worded_nodeConfig NodeSchema.documented_nodeConfig decoded passed decoded' passed'
    keyed keyed' (fun setting member floating => ?_) written written'
  rw [others setting member floating]
  exact threshold

/-- Whether a value is a given scalar. -/
def isScalar (scalar : Scalar) : Value → Bool
  | .scalar own => own == scalar
  | _ => false

theorem eq_of_isScalar {scalar : Scalar} {value : Option Value}
    (same : value.any (isScalar scalar) = true) : value = some (.scalar scalar) := by
  obtain ⟨found, rfl, own⟩ := (Option.any_eq_true ..).mp same
  cases found with
  | scalar found => rw [eq_of_beq own]
  | _ => cases own

/-- Two sources with the same settings in another order. -/
def plainSource : List UInt8 :=
  "table_properties: \x7ba: '1', b: '2'\x7d\nhinted_handoff_disabled_datacenters: [east, ~]\n".toUTF8.toList

def reorderedSource : List UInt8 :=
  "hinted_handoff_disabled_datacenters: [~, east]\ntable_properties: \x7bb: '2', a: '1'\x7d\n".toUTF8.toList

theorem decode_node_told_reorderedSource :
    ∃ first second text, decode NodeSchema.nodeConfig "plain.yaml" plainSource = .ok first ∧
      decode NodeSchema.nodeConfig "reordered.yaml" reorderedSource = .ok second ∧
      first.document.fingerprintText = .ok text ∧ second.document.fingerprintText = .ok text ∧
      first.document.unmarked.Shuffled second.document.unmarked := by
  have checked : (decode NodeSchema.nodeConfig "plain.yaml" plainSource).toOption.any (fun first =>
      (decode NodeSchema.nodeConfig "reordered.yaml" reorderedSource).toOption.any fun second =>
        decide (first.report = .empty ∧ second.report = .empty ∧
          (∀ part, Occurs part first.document → part.TextKeyed) ∧
          (∀ part, Occurs part second.document → part.TextKeyed) ∧
          (first.document.setting? "phi_convict_threshold").any (isScalar NodeSchema.defaultThreshold) = true ∧
          (second.document.setting? "phi_convict_threshold").any (isScalar NodeSchema.defaultThreshold) = true ∧
          first.document.fingerprintText.toOption.any (fun text =>
            decide (second.document.fingerprintText.toOption = some text)) = true)) = true := by
    decide +kernel
  obtain ⟨first, found, checked⟩ := (Option.any_eq_true ..).mp checked
  obtain ⟨second, found', fit⟩ := (Option.any_eq_true ..).mp checked
  obtain ⟨passed, passed', keyed, keyed', threshold, threshold', texts⟩ := of_decide_eq_true fit
  obtain ⟨text, some, same⟩ := (Option.any_eq_true ..).mp texts
  have decoded := toOption_eq_some_iff.mp found
  have decoded' := toOption_eq_some_iff.mp found'
  have written := toOption_eq_some_iff.mp some
  have written' := toOption_eq_some_iff.mp (of_decide_eq_true same)
  exact ⟨first, second, text, decoded, decoded', written, written',
    decode_node_told decoded passed decoded' passed' keyed keyed'
      ((eq_of_isScalar threshold).trans (eq_of_isScalar threshold').symm) written written'⟩

end Decode

end LayeredConfig
