import LayeredConfig.Proofs.Container.Entries
import LayeredConfig.Proofs.Decode.Reports
import LayeredConfig.Proofs.Decode.Walks
import LayeredConfig.Proofs.Schema.Conformity

namespace LayeredConfig

namespace Enumeration

variable {type : Enumeration} {text : String} {value member : Value}

theorem exists_of_first? {test : String × Value → Bool} (found : type.first? test = some member) :
    ∃ name own, (name, own) ∈ type.canonical ∧ member = .member type.name name own := by
  obtain ⟨⟨name, own⟩, here, rfl⟩ := Option.map_eq_some_iff.mp found
  exact ⟨name, own, List.mem_of_find?_eq_some here, rfl⟩

theorem exists_of_named? (found : type.named? text = some member) :
    ∃ name own, (name, own) ∈ type.canonical ∧ member = .member type.name name own := by
  rcases Option.or_eq_some_iff.mp found with own | ⟨-, other⟩
  · exact exists_of_first? own
  · obtain ⟨value, -, here⟩ := Option.bind_eq_some_iff.mp other
    exact exists_of_first? here

theorem exists_of_written? (found : type.written? text = some member) :
    ∃ name own, (name, own) ∈ type.canonical ∧ member = .member type.name name own := by
  rw [written?] at found
  split at found
  · next same => exact exists_of_named? (same.trans found)
  · exact exists_of_named? found

theorem canonical_subset (type : Enumeration) : type.canonical ⊆ type.members := by
  intro member canonical
  rcases Members.mem_insertAll canonical with listed | absent
  · exact listed
  · cases absent

end Enumeration

namespace Decode

/-- Findings among which no setting is null against its schema. -/
def NoneNullified (findings : List Finding) : Prop :=
  ∀ path, .nullified path ∉ findings

theorem noneNullified_append {before later : List Finding} :
    NoneNullified (before ++ later) ↔ NoneNullified before ∧ NoneNullified later := by
  simp [NoneNullified, forall_and]

/-- Whatever a reader builds without nullified settings is good. -/
def Yields (read : Reader) (good : Value → Prop) : Prop :=
  ∀ node path value findings, read node path = .built value findings → NoneNullified findings →
    good value

theorem readItems_forall {read : Reader} (yields : Yields read good) {items : List Tree}
    {values : List Value} (built : readItems read path index items = .built values findings)
    (whole : NoneNullified findings) : ∀ value ∈ values, good value := by
  induction items generalizing index values findings with
  | nil =>
    obtain ⟨rfl, -⟩ := Walk.pure_eq_built_iff.mp built
    simp
  | cons item items ih =>
    obtain ⟨value, before, later, first, tail, rfl⟩ := Walk.bind_eq_built_iff.mp built
    obtain ⟨others, rest, rfl⟩ := Walk.map_eq_built_iff.mp tail
    rw [noneNullified_append] at whole
    intro value member
    rcases List.mem_cons.mp member with rfl | tail
    · exact yields _ _ _ _ first whole.1
    · exact ih rest whole.2 value tail

theorem readMembers_forall {read : Reader} (yields : Yields read good) {items : List Tree}
    {members values : List Value} (sound : ∀ member ∈ members, good member)
    (built : readMembers read path index members items = .built values findings)
    (whole : NoneNullified findings) : ∀ value ∈ values, good value := by
  induction items generalizing index members values findings with
  | nil =>
    obtain ⟨rfl, -⟩ := Walk.pure_eq_built_iff.mp built
    exact sound
  | cons item items ih =>
    rw [readMembers_cons, Walk.bind_eq_built_iff] at built
    obtain ⟨value, before, later, first, rest, rfl⟩ := built
    rw [noneNullified_append] at whole
    split at rest
    · refine ih (fun member inserted => ?_) rest whole.2
      rcases Members.mem_insert inserted with rfl | old
      · exact yields _ _ _ _ first whole.1
      · exact sound member old
    · cases rest

theorem readEntries_forall {readKey readValue : Reader} (yieldsKey : Yields readKey goodKey)
    (yields : Yields readValue good) {entries : List (Scalar × Tree)} {taken values : List (Value × Value)}
    (sound : ∀ entry ∈ taken, goodKey entry.1 ∧ good entry.2)
    (built : readEntries readKey readValue path taken entries = .built values findings)
    (whole : NoneNullified findings) : ∀ entry ∈ values, goodKey entry.1 ∧ good entry.2 := by
  induction entries generalizing taken values findings with
  | nil =>
    obtain ⟨rfl, -⟩ := Walk.pure_eq_built_iff.mp built
    exact sound
  | cons entry entries ih =>
    obtain ⟨key, node⟩ := entry
    simp only [readEntries_cons, Walk.bind_eq_built_iff] at built
    obtain ⟨newKey, ofKey, _, keyBuilt, ⟨title, _, _, _, ⟨value, ofValue, later, valueBuilt, rest,
      rfl⟩, rfl⟩, rfl⟩ := built
    simp only [noneNullified_append] at whole
    split at rest
    · refine ih (fun entry member => ?_) rest whole.2.2.2
      obtain ⟨fromKey, fromValue⟩ := Entries.mem_put member
      constructor
      · rcases fromKey with same | ⟨old, here, same⟩
        · exact same ▸ yieldsKey _ _ _ _ keyBuilt whole.1
        · exact same ▸ (sound old here).1
      · rcases fromValue with same | here
        · exact same ▸ yields _ _ _ _ valueBuilt whole.2.2.1
        · exact (sound entry here).2
    · cases rest

/-- Whatever is read from a node other than null under a shape is good. -/
def Makes (shape : Shape) (good : Value → Prop) : Prop :=
  ∀ node path value findings, node.isNull = false → reader shape node path = .built value findings →
    NoneNullified findings → good value

theorem Makes.yields (makes : Makes shape good) :
    Yields (reader shape) fun value => value.isNull = false → good value := by
  intro node path value findings built whole present
  cases null : node.isNull with
  | false => exact makes node path value findings null built whole
  | true =>
    rw [reader_of_isNull shape path null] at built
    obtain ⟨rfl, -⟩ := Walk.built.inj built
    cases present

/-- What a setting is given is null only where null may stand, and good otherwise. -/
theorem Makes.setting {setting : Setting Shape} (makes : Makes setting.shape good)
    (present : ∀ value, good value → value.isNull = false)
    (built : readSetting setting (reader setting.shape) node path = .built value findings)
    (whole : NoneNullified findings) :
    (value.isNull = true → setting.nullable = true) ∧ (value.isNull = false → good value) := by
  rw [readSetting_eq] at built
  split at built
  · obtain ⟨rfl, rfl⟩ := Walk.built.inj built
    exact absurd List.mem_cons_self (whole _)
  · next allowed =>
    refine ⟨fun null => ?_, makes.yields node path value findings built whole⟩
    cases given : node.isNull with
    | false => simp [present value (makes node path value findings given built whole)] at null
    | true => simpa [given] using allowed

theorem readSettings_forall {settings : List (Setting Shape)} {good : Setting Shape → Value → Prop}
    (yields : ∀ setting ∈ settings, ∀ node path value findings,
      readSetting setting (reader setting.shape) node path = .built value findings →
        NoneNullified findings → good setting value)
    {entries : List (Scalar × Tree)} {slots result : List (Slot Value)}
    (aligned : slots.map (·.name) = settings.map (·.name))
    (sound : ∀ pair ∈ settings.zip slots, good pair.1 pair.2.value)
    (built : readSettings (readers settings) path slots entries = .built result findings)
    (whole : NoneNullified findings) : ∀ pair ∈ settings.zip result, good pair.1 pair.2.value := by
  induction entries generalizing slots findings with
  | nil =>
    obtain ⟨rfl, -⟩ := Walk.pure_eq_built_iff.mp built
    exact sound
  | cons entry entries ih =>
    obtain ⟨key, node⟩ := entry
    rw [readSettings_cons, Walk.bind_eq_built_iff] at built
    obtain ⟨title, _, later, -, step, rfl⟩ := built
    replace whole := (noneNullified_append.mp whole).2
    split at step
    · obtain ⟨_, _, _, -, rest, rfl⟩ := Walk.bind_eq_built_iff.mp step
      exact ih aligned sound rest (noneNullified_append.mp whole).2
    · next setting found =>
      obtain ⟨value, own, others, ofSetting, rest, rfl⟩ := Walk.bind_eq_built_iff.mp step
      obtain ⟨ownWhole, othersWhole⟩ := noneNullified_append.mp whole
      have given := yields setting (List.mem_of_find?_eq_some found) _ _ _ _ ofSetting ownWhole
      refine ih ((Slot.names_assign title value slots).trans aligned) ?_ rest othersWhole
      rintro ⟨known, slot⟩ beside
      rcases Slot.of_mem_zip_assign aligned found beside with old | ⟨rfl, same⟩
      · exact sound (known, slot) old
      · exact same ▸ given

/-- What is read from a node under a shape has that shape. -/
def Typed (shape : Shape) : Prop :=
  Makes shape (Conforms shape)

theorem readSettings_filled {settings : List (Setting Shape)}
    (typed : ∀ setting ∈ settings, Typed setting.shape)
    {entries : List (Scalar × Tree)} {slots result : List (Slot Value)}
    (filled : Filled settings slots)
    (built : readSettings (readers settings) path slots entries = .built result findings)
    (whole : NoneNullified findings) : Filled settings result := by
  have good := readSettings_forall
    (fun setting member _ _ _ _ ofSetting whole =>
      (typed setting member).setting (fun _ => Conforms.present) ofSetting whole)
    filled.names (fun pair beside => ⟨filled.required pair beside, filled.parts pair beside⟩) built whole
  exact ⟨(names_readSettings built).trans filled.names, fun pair beside => (good pair beside).1,
    fun pair beside => (good pair beside).2⟩

section scalars

variable {node : Tree} {path : Str} {value : Value} {findings : List Finding}

theorem readStr_conforms (built : readStr node path = .built value findings) :
    Conforms .str value := by
  unfold readStr at built
  split at built
  · cases built
  · cases built
  · split at built <;> cases built
    exact .str _

theorem readInt_conforms (built : readInt node path = .built value findings) :
    Conforms .int value := by
  unfold readInt at built
  split at built <;> cases built
  exact .int _

theorem readFloat_conforms (built : readFloat node path = .built value findings) :
    Conforms .float value := by
  unfold readFloat at built
  split at built
  · cases built
    exact .float _
  · split at built <;> cases built
    exact .float _
  · cases built

theorem readBool_conforms (built : readBool node path = .built value findings) :
    Conforms .bool value := by
  unfold readBool at built
  split at built <;> cases built
  exact .bool _

/-- A walk takes a node for one of the members of an enumeration that are no other names. -/
theorem exists_of_readMember {type : Enumeration}
    (built : readMember type node path = .built value findings) :
    ∃ name own, (name, own) ∈ type.canonical ∧ value = .member type.name name own := by
  simp only [readMember] at built
  split at built
  · next byName =>
    cases built
    split at byName
    · exact Enumeration.exists_of_written? byName
    · cases byName
  · split at built
    · next byValue =>
      cases built
      exact Enumeration.exists_of_first? byValue
    · cases built

theorem readMember_conforms {type : Enumeration}
    (built : readMember type node path = .built value findings) :
    Conforms (.enumeration type) value := by
  obtain ⟨name, own, canonical, rfl⟩ := exists_of_readMember built
  exact .member (type.canonical_subset canonical)

end scalars

theorem makes_scalar {read : Reader} (same : reader shape = orNull read)
    (yields : ∀ {node path value findings}, read node path = .built value findings → good value) :
    Makes shape good := by
  intro node path value findings present built _
  rw [same, orNull_of_present present] at built
  exact yields built

theorem typed_list (typed : Typed shape) : Typed (.list shape) := by
  intro node path value findings present built whole
  rw [reader, orNull_of_present present] at built
  split at built
  · obtain ⟨values, items, rfl⟩ := Walk.map_eq_built_iff.mp built
    exact .list (readItems_forall typed.yields items whole)
  · cases built

theorem typed_set (typed : Typed shape) : Typed (.set shape) := by
  intro node path value findings present built whole
  rw [reader, orNull_of_present present] at built
  split at built
  · obtain ⟨values, members, rfl⟩ := Walk.map_eq_built_iff.mp built
    exact .set (readMembers_forall typed.yields (by simp) members whole)
  · cases built

theorem typed_map (typedKey : Typed key) (typed : Typed shape) : Typed (.map key shape) := by
  intro node path value findings present built whole
  rw [reader, orNull_of_present present] at built
  split at built
  · obtain ⟨pairs, entries, rfl⟩ := Walk.map_eq_built_iff.mp built
    have sound := readEntries_forall typedKey.yields typed.yields (by simp) entries whole
    exact .map (fun entry member => (sound entry member).1) fun entry member => (sound entry member).2
  · cases built

theorem typed_document {settings : List (Setting Shape)}
    (fresh : Filled settings (Schema.newSlots settings))
    (typed : ∀ setting ∈ settings, Typed setting.shape) : Typed (.document name settings) := by
  intro node path value findings present built whole
  rw [reader, orNull_of_present present] at built
  split at built
  · obtain ⟨slots, entries, rfl⟩ := Walk.map_eq_built_iff.mp built
    exact (readSettings_filled typed fresh entries whole).conforms
  · cases built

/-- Under a regular shape every walk without nullified settings builds a value of that shape. -/
theorem typed_of_regular (regular : Shape.Regular shape) : Typed shape := by
  induction regular with
  | str => exact makes_scalar (by rw [reader]) readStr_conforms
  | int => exact makes_scalar (by rw [reader]) readInt_conforms
  | float => exact makes_scalar (by rw [reader]) readFloat_conforms
  | bool => exact makes_scalar (by rw [reader]) readBool_conforms
  | enumeration type => exact makes_scalar (by rw [reader]) readMember_conforms
  | list element ih => exact typed_list ih
  | set element ih => exact typed_set ih
  | map key value ihKey ihValue => exact typed_map ihKey ihValue
  | document shapes defaults ih => exact typed_document (.newSlots defaults) ih

theorem noneNullified_of_empty (passed : Report.ofFindings findings = .empty) :
    NoneNullified findings := fun path nullified => by
  have found := Report.mem_nullified.mpr nullified
  rw [passed] at found
  cases found

/-- The document that a tree stands for is good if it passes its check, be it a new one or not. -/
theorem Makes.ofTree {schema : Schema} {result : Result} (makes : Makes schema.shape good)
    (fresh : good schema.newDocument) (decoded : ofTree schema source tree = .ok result)
    (passed : result.report = .empty) : good result.document := by
  obtain ⟨findings, walk, listed⟩ := ofTree_eq_ok_iff.mp decoded
  have whole := noneNullified_of_empty (listed.symm.trans passed)
  cases present : tree.isNull with
  | true =>
    rw [rootWalk, present, if_pos rfl] at walk
    exact (Walk.built.inj walk).1 ▸ fresh
  | false =>
    rw [rootWalk, present, if_neg Bool.false_ne_true] at walk
    exact makes tree "" result.document findings present walk whole

theorem Makes.decode {schema : Schema} {result : Result} (makes : Makes schema.shape good)
    (fresh : good schema.newDocument) (decoded : decode schema source bytes = .ok result)
    (passed : result.report = .empty) : good result.document := by
  unfold Decode.decode at decoded
  split at decoded
  · cases decoded
  · obtain rfl := Except.ok.inj decoded
    exact fresh
  · exact makes.ofTree fresh decoded passed

/-- A document that passes its check has the shape of its schema. -/
theorem decode_conforms {schema : Schema} {result : Result} (regular : Shape.Regular schema.shape)
    (decoded : decode schema source bytes = .ok result)
    (passed : result.report.check source = none) : Conforms schema.shape result.document :=
  (typed_of_regular regular).decode regular.newSlots.conforms decoded
    (Report.check_eq_none_iff.mp passed)

end Decode

end LayeredConfig
