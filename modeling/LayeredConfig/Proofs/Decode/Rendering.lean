import LayeredConfig.Proofs.Decode.Steps
import LayeredConfig.Proofs.Decode.Typing
import LayeredConfig.Proofs.Value.Rendering

namespace LayeredConfig

/-- Shapes of the documented types, with defaults that turn into native values. Keys may be members of
enumerations only if this is allowed. -/
inductive Shape.Renderable (enumerated : Bool) : Shape → Prop
  | str : Renderable enumerated .str
  | int : Renderable enumerated .int
  | float : Renderable enumerated .float
  | bool : Renderable enumerated .bool
  | enumeration (type : Enumeration) : Renderable enumerated (.enumeration type)
  | list (element : Renderable enumerated shape) : Renderable enumerated (.list shape)
  | set (element : Renderable enumerated shape) : Renderable enumerated (.set shape)
  | map (key : Renderable enumerated keyShape)
      (unlisted : enumerated = false → ∀ type, keyShape ≠ .enumeration type)
      (value : Renderable enumerated valueShape) : Renderable enumerated (.map keyShape valueShape)
  | document {settings : List (Setting Shape)}
      (shapes : ∀ setting ∈ settings, Renderable enumerated setting.shape)
      (defaults : ∀ setting ∈ settings, ∀ part, Occurs part setting.default →
        part.Renderable enumerated) : Renderable enumerated (.document name settings)

namespace Decode

variable {enumerated : Bool}

/-- Everything that is read under a shape turns into native values. -/
def Fills (enumerated : Bool) (shape : Shape) : Prop :=
  ∀ node path value findings, reader shape node path = .built value findings →
    ∀ part, Occurs part value → part.Renderable enumerated

theorem fills_of_present {shape : Shape} {read : Reader} (same : reader shape = orNull read)
    (fills : ∀ {node path value findings}, read node path = .built value findings →
      ∀ part, Occurs part value → part.Renderable enumerated) : Fills enumerated shape := by
  intro node path value findings built
  cases null : node.isNull with
  | true =>
    rw [reader_of_isNull shape path null] at built
    obtain ⟨rfl, -⟩ := Walk.built.inj built
    exact Value.forall_occurs_scalar.mpr rfl
  | false =>
    rw [same, orNull_of_present null] at built
    exact fills built

section parts

variable {shape : Shape} {path : Str} {findings : List Finding}

theorem mem_readMembers {read : Reader} {items : List Tree} {members values : List Value} {value : Value}
    (built : readMembers read path index members items = .built values findings)
    (listed : value ∈ values) :
    value ∈ members ∨ ∃ item ∈ items, ∃ path findings, read item path = .built value findings := by
  induction items generalizing index members findings with
  | nil =>
    obtain ⟨rfl, -⟩ := Walk.pure_eq_built_iff.mp built
    exact .inl listed
  | cons item items ih =>
    rw [readMembers_cons, Walk.bind_eq_built_iff] at built
    obtain ⟨first, own, later, here, rest, rfl⟩ := built
    split at rest
    · rcases ih rest with there | ⟨other, among, read⟩
      · rcases Members.mem_insert there with rfl | old
        · exact .inr ⟨item, List.mem_cons_self, _, _, here⟩
        · exact .inl old
      · exact .inr ⟨other, List.mem_cons_of_mem _ among, read⟩
    · cases rest

theorem mem_readEntries {readKey readValue : Reader} {entries : List (Scalar × Tree)}
    {taken values : List (Value × Value)} {entry : Value × Value}
    (built : readEntries readKey readValue path taken entries = .built values findings)
    (listed : entry ∈ values) :
    ((∃ old ∈ taken, old.1 = entry.1) ∨
        ∃ key path findings, readKey (.scalar key) path = .built entry.1 findings) ∧
      ((∃ old ∈ taken, old.2 = entry.2) ∨
        ∃ node path findings, readValue node path = .built entry.2 findings) := by
  induction entries generalizing taken findings with
  | nil =>
    obtain ⟨rfl, -⟩ := Walk.pure_eq_built_iff.mp built
    exact ⟨.inl ⟨entry, listed, rfl⟩, .inl ⟨entry, listed, rfl⟩⟩
  | cons first entries ih =>
    obtain ⟨key, node⟩ := first
    simp only [readEntries_cons, Walk.bind_eq_built_iff] at built
    obtain ⟨newKey, _, _, keyBuilt, ⟨_, _, _, _, ⟨value, _, _, valueBuilt, rest, rfl⟩, rfl⟩, rfl⟩ := built
    split at rest
    · obtain ⟨fromKey, fromValue⟩ := ih rest
      constructor
      · rcases fromKey with ⟨old, put, same⟩ | read
        · rcases (Entries.mem_put put).1 with new | ⟨older, there, again⟩
          · exact .inr ⟨key, _, _, same ▸ new ▸ keyBuilt⟩
          · exact .inl ⟨older, there, again.symm.trans same⟩
        · exact .inr read
      · rcases fromValue with ⟨old, put, same⟩ | read
        · rcases (Entries.mem_put put).2 with new | there
          · exact .inr ⟨node, _, _, same ▸ new ▸ valueBuilt⟩
          · exact .inl ⟨old, there, same⟩
        · exact .inr read
    · cases rest

theorem isBasic_of_reader {key : Scalar} {value : Value} (renderable : shape.Renderable enumerated)
    (unlisted : enumerated = false → ∀ type, shape ≠ .enumeration type)
    (built : reader shape (.scalar key) path = .built value findings) :
    value.isBasic enumerated = true := by
  cases null : (Tree.scalar key).isNull with
  | true =>
    rw [reader_of_isNull shape path null] at built
    obtain ⟨rfl, -⟩ := Walk.built.inj built
    rfl
  | false =>
    cases renderable with
    | str =>
      rw [reader, orNull_of_present null] at built
      cases readStr_conforms built
      rfl
    | int =>
      rw [reader, orNull_of_present null] at built
      cases readInt_conforms built
      rfl
    | float =>
      rw [reader, orNull_of_present null] at built
      cases readFloat_conforms built
      rfl
    | bool =>
      rw [reader, orNull_of_present null] at built
      cases readBool_conforms built
      rfl
    | enumeration type =>
      rw [reader, orNull_of_present null] at built
      obtain ⟨name, own, -, rfl⟩ := exists_of_readMember built
      cases enumerated with
      | true => rfl
      | false => exact absurd rfl (unlisted rfl type)
    | list | set | map | document =>
      rw [reader, orNull_of_present null] at built
      cases built

end parts

section containers

variable {shape : Shape}

theorem fills_list (fills : Fills enumerated shape) : Fills enumerated (.list shape) := by
  refine fills_of_present (by rw [reader]) fun {node path value findings} built => ?_
  split at built
  · obtain ⟨values, read, rfl⟩ := Walk.map_eq_built_iff.mp built
    rw [readItems_eq] at read
    refine Value.forall_occurs_seq.mpr ⟨trivial, fun value listed => ?_⟩
    obtain ⟨_, _, _, own⟩ := Walk.exists_of_mem_mapM read value listed
    exact fills _ _ value _ own
  · cases built

theorem fills_set (fills : Fills enumerated shape) : Fills enumerated (.set shape) := by
  refine fills_of_present (by rw [reader]) fun {node path value findings} built => ?_
  split at built
  · obtain ⟨members, read, rfl⟩ := Walk.map_eq_built_iff.mp built
    refine Value.forall_occurs_set.mpr ⟨trivial, fun member listed => ?_⟩
    rcases mem_readMembers read listed with none | ⟨item, _, _, _, own⟩
    · cases none
    · exact fills item _ member _ own
  · cases built

theorem fills_map {keyShape : Shape} (renderable : keyShape.Renderable enumerated)
    (unlisted : enumerated = false → ∀ type, keyShape ≠ .enumeration type)
    (fillsKey : Fills enumerated keyShape) (fills : Fills enumerated shape) :
    Fills enumerated (.map keyShape shape) := by
  refine fills_of_present (by rw [reader]) fun {node path value findings} built => ?_
  split at built
  · obtain ⟨entries, read, rfl⟩ := Walk.map_eq_built_iff.mp built
    have origin (entry : Value × Value) (listed : entry ∈ entries) :
        (∃ key path findings, reader keyShape (.scalar key) path = .built entry.1 findings) ∧
          ∃ node path findings, reader shape node path = .built entry.2 findings := by
      obtain ⟨ofKey, ofValue⟩ := mem_readEntries read listed
      exact ⟨ofKey.resolve_left (by simp), ofValue.resolve_left (by simp)⟩
    refine Value.forall_occurs_dict.mpr ⟨fun entry listed => ?_, fun entry listed => ?_,
      fun entry listed => ?_⟩
    · obtain ⟨⟨key, _, _, own⟩, -⟩ := origin entry listed
      exact isBasic_of_reader renderable unlisted own
    · obtain ⟨⟨key, _, _, own⟩, -⟩ := origin entry listed
      exact fillsKey _ _ entry.1 _ own
    · obtain ⟨-, node, _, _, own⟩ := origin entry listed
      exact fills node _ entry.2 _ own
  · cases built

theorem fills_readEntry {settings : List (Setting Shape)} {entry : Scalar × Tree} {pair : Str × Value}
    (fills : ∀ setting ∈ settings, Fills enumerated setting.shape)
    (built : readEntry settings path entry = .built (some pair) findings) :
    ∀ part, Occurs part pair.2 → part.Renderable enumerated := by
  obtain ⟨-, gives⟩ := readEntry_eq_built_iff.mp built
  split at gives
  · cases gives.1
  · next setting found =>
    obtain ⟨value, known, own⟩ := gives
    obtain rfl := Option.some.inj known
    rw [readSetting_eq] at own
    split at own
    · obtain ⟨rfl, -⟩ := Walk.built.inj own
      exact Value.forall_occurs_scalar.mpr rfl
    · exact fills setting (List.mem_of_find?_eq_some found) _ _ value _ own

theorem renderable_newSlots {settings : List (Setting Shape)}
    (defaults : ∀ setting ∈ settings, ∀ part, Occurs part setting.default → part.Renderable enumerated) :
    ∀ slot ∈ Schema.newSlots settings, ∀ part, Occurs part slot.value → part.Renderable enumerated := by
  intro slot fresh
  obtain ⟨setting, known, rfl⟩ := List.mem_map.mp fresh
  exact defaults setting known

theorem fills_document {settings : List (Setting Shape)}
    (defaults : ∀ setting ∈ settings, ∀ part, Occurs part setting.default → part.Renderable enumerated)
    (fills : ∀ setting ∈ settings, Fills enumerated setting.shape) :
    Fills enumerated (.document name settings) := by
  refine fills_of_present (by rw [reader]) fun {node path value findings} built => ?_
  split at built
  · obtain ⟨slots, read, rfl⟩ := Walk.map_eq_built_iff.mp built
    obtain ⟨given, each, rfl⟩ := readSettings_eq_built_iff.mp read
    refine Value.forall_occurs_document.mpr ⟨trivial, fun slot listed => ?_⟩
    rcases Slot.mem_giveAll listed with fresh | ⟨pair, member, same⟩
    · exact renderable_newSlots defaults slot fresh
    · obtain ⟨entry, _, _, own⟩ := Walk.exists_of_mem_mapM each (some pair) member
      rw [same]
      exact fills_readEntry fills own
  · cases built

end containers

/-- Whatever is read under a shape of the documented types turns into native values, keys aside. -/
theorem fills_of_renderable {shape : Shape} (renderable : shape.Renderable enumerated) :
    Fills enumerated shape := by
  induction renderable with
  | str =>
    refine fills_of_present (by rw [reader]) fun built => ?_
    cases readStr_conforms built
    exact Value.forall_occurs_scalar.mpr rfl
  | int =>
    refine fills_of_present (by rw [reader]) fun built => ?_
    cases readInt_conforms built
    exact Value.forall_occurs_scalar.mpr rfl
  | float =>
    refine fills_of_present (by rw [reader]) fun built => ?_
    cases readFloat_conforms built
    exact Value.forall_occurs_scalar.mpr rfl
  | bool =>
    refine fills_of_present (by rw [reader]) fun built => ?_
    cases readBool_conforms built
    exact Value.forall_occurs_scalar.mpr rfl
  | enumeration type =>
    refine fills_of_present (by rw [reader]) fun built => ?_
    obtain ⟨name, own, -, rfl⟩ := exists_of_readMember built
    exact Value.forall_occurs_member.mpr trivial
  | list element ih => exact fills_list ih
  | set element ih => exact fills_set ih
  | map key unlisted value ihKey ih => exact fills_map key unlisted ihKey ih
  | document shapes defaults ih => exact fills_document defaults ih

theorem renderable_of_decode {schema : Schema} {result : Result}
    (renderable : schema.shape.Renderable enumerated)
    (decoded : decode schema source bytes = .ok result) :
    ∀ part, Occurs part result.document → part.Renderable enumerated := by
  have fresh : ∀ part, Occurs part schema.newDocument → part.Renderable enumerated := by
    cases renderable with
    | document shapes defaults =>
      exact Value.forall_occurs_document.mpr ⟨trivial, renderable_newSlots defaults⟩
  unfold decode at decoded
  split at decoded
  · cases decoded
  · obtain rfl := Except.ok.inj decoded
    exact fresh
  · next tree _ =>
    obtain ⟨findings, walk, -⟩ := ofTree_eq_ok_iff.mp decoded
    unfold rootWalk at walk
    split at walk
    · rw [← (Walk.built.inj walk).1]
      exact fresh
    · exact fills_of_renderable renderable tree "" _ findings walk

/-- What the plain form of a decoded document is, whatever was found in the source. There is one unless a
set has a member that cannot be written. It stands for the document, each member of an enumeration as its
name; and it is native throughout if and only if no dictionary in the document has a member of an
enumeration as a key, as is always so where the schema has no such keys. -/
theorem plain_native_iff {schema : Schema} {result : Result}
    (renderable : schema.shape.Renderable enumerated)
    (decoded : decode schema source bytes = .ok result) :
    ((∃ plain, result.document.plain? = .ok plain) ↔
      ∀ part, Occurs part result.document → part.Listable) ∧
    ∀ plain, result.document.plain? = .ok plain →
      Value.Renders result.document plain ∧
      ((∀ part, Occurs part plain → part.IsPlain) ↔
        ∀ part, Occurs part result.document → ¬ part.HasMemberKey) ∧
      (enumerated = false → ∀ part, Occurs part plain → part.IsPlain) := by
  have parts := renderable_of_decode renderable decoded
  rw [← Value.sortable_iff parts]
  refine ⟨?_, fun plain same => ?_⟩
  · unfold Value.plain?
    split
    · next sortable => exact iff_of_true ⟨_, rfl⟩ sortable
    · next unsortable => exact iff_of_false (fun ⟨_, same⟩ => by cases same) unsortable
  · obtain rfl : result.document.toPlain = plain := by
      unfold Value.plain? at same
      split at same
      · exact Except.ok.inj same
      · cases same
    refine ⟨Value.renders_toPlain _, ?_, ?_⟩
    · rw [Value.forall_isPlain_toPlain_iff]
      exact forall₂_congr fun part occurs => Value.renderable_false_iff (parts part occurs).allowed
    · rintro rfl
      exact Value.forall_isPlain_toPlain_iff.mpr parts

/-- An enumeration, and settings with its members at different places. -/
def gauge : Enumeration :=
  ⟨"Gauge", [("LOW", .str "low"), ("HIGH", .str "high")]⟩

def gauges : Schema :=
  ⟨"Gauges", [⟨"levels", .list (.set (.enumeration gauge)), .null⟩,
    ⟨"labels", .map (.enumeration gauge) .str, .null⟩]⟩

theorem renderable_gauges : gauges.shape.Renderable true := by
  refine .document ?_ ?_
  · simp only [gauges, List.forall_mem_cons]
    exact ⟨.list (.set (.enumeration gauge)), .map (.enumeration gauge) nofun .str, nofun⟩
  · simp only [gauges, List.forall_mem_cons]
    exact ⟨Value.forall_occurs_scalar.mpr rfl, Value.forall_occurs_scalar.mpr rfl, nofun⟩

/-- Members inside of sets are in the plain form under their names. -/
theorem plain_native_iff_gauges :
    ∃ result plain, decode gauges "gauges.yaml" "levels: [[low, HIGH]]\n".toUTF8.toList = .ok result ∧
      result.document.plain? = .ok plain ∧ Value.Renders result.document plain ∧
      ∀ part, Occurs part plain → part.IsPlain := by
  have checked : (decode gauges "gauges.yaml" "levels: [[low, HIGH]]\n".toUTF8.toList).toOption.any
      (fun result : Result => decide ((∀ part, Occurs part result.document → part.Listable) ∧
        ∀ part, Occurs part result.document → ¬ part.HasMemberKey)) = true := by decide +kernel
  obtain ⟨result, found, fit⟩ := (Option.any_eq_true ..).mp checked
  have decoded := toOption_eq_some_iff.mp found
  obtain ⟨listable, unlisted⟩ := of_decide_eq_true fit
  obtain ⟨exists_iff, forms⟩ := plain_native_iff renderable_gauges decoded
  obtain ⟨plain, same⟩ := exists_iff.mpr listable
  obtain ⟨renders, native, -⟩ := forms plain same
  exact ⟨result, plain, decoded, same, renders, native.mpr unlisted⟩

/-- A key that is a member of an enumeration stays one in the plain form. -/
theorem gauges_not_native :
    ¬ ∀ (schema : Schema) (source : String) (bytes : List UInt8) (result : Result) (plain : Value),
      schema.shape.Renderable true → decode schema source bytes = .ok result →
        result.document.plain? = .ok plain → ∀ part, Occurs part plain → part.IsPlain := by
  intro native
  have checked : (decode gauges "gauges.yaml" "labels: \x7bLOW: a\x7d\n".toUTF8.toList).toOption.any
      (fun result => result.document.plain?.toOption.any fun plain =>
        decide (¬ ∀ part, Occurs part plain → part.IsPlain)) = true := by decide +kernel
  obtain ⟨result, found, fit⟩ := (Option.any_eq_true ..).mp checked
  obtain ⟨plain, same, foreign⟩ := (Option.any_eq_true ..).mp fit
  exact of_decide_eq_true foreign (native gauges _ _ result plain renderable_gauges
    (toOption_eq_some_iff.mp found) (toOption_eq_some_iff.mp same))

end Decode

end LayeredConfig
