import LayeredConfig.Proofs.Decode.Words
import LayeredConfig.Proofs.Schema.Defaults

namespace LayeredConfig

theorem Binary64.isNotANumber_of_ofInt? {n : Int} {x : Binary64} (converted : ofInt? n = some x) :
    x.isNotANumber = false := by
  have ratio (negative : Bool) (numerator denominator : Nat) :
      (ofRatio negative numerator denominator).isNotANumber = false := by
    unfold ofRatio ofRounded
    split_ifs <;> rfl
  unfold ofInt? at converted
  split at converted
  · cases converted
  · rw [← Option.some.inj converted]
    exact ratio _ _ _

namespace Decode

/-- A part of a value is settled, or it is a scalar of the tree that the value is read from. -/
def Drawn (tree : Tree) (part : Value) : Prop :=
  part.Settled ∨ (∃ value, part = .scalar value) ∧ Occurs part tree.toValue

theorem Drawn.item {item : Tree} {items : List Tree} {part : Value} (member : item ∈ items)
    (drawn : Drawn item part) : Drawn (.seq mark items) part :=
  drawn.imp_right fun there =>
    ⟨there.1, .item (Tree.valuesOf_eq items ▸ List.mem_map_of_mem member) there.2⟩

theorem Drawn.entry {entry : Scalar × Tree} {entries : List (Scalar × Tree)} {part : Value}
    (member : entry ∈ entries) (drawn : Drawn entry.2 part) : Drawn (.map mark entries) part :=
  drawn.imp_right fun there =>
    ⟨there.1, .entry (Tree.entriesOf_eq entries ▸ List.mem_map_of_mem member) there.2⟩

theorem Drawn.key {entry : Scalar × Tree} {entries : List (Scalar × Tree)} (member : entry ∈ entries) :
    Drawn (.map mark entries) (.scalar entry.1) :=
  .inr ⟨⟨_, rfl⟩, .key (Tree.entriesOf_eq entries ▸ List.mem_map_of_mem member) .here⟩

theorem Drawn.part {tree item : Tree} {items : List Tree} {part : Value} (parts : parts? tree = some items)
    (member : item ∈ items) (drawn : Drawn item part) : Drawn tree part := by
  cases tree with
  | seq mark own =>
    cases parts
    exact drawn.item member
  | set members =>
    cases parts
    obtain ⟨scalar, own, rfl⟩ := List.mem_map.mp member
    exact drawn.imp_right fun there => ⟨there.1, .member (List.mem_map_of_mem own) there.2⟩
  | _ => cases parts

/-- All parts of what is read from a tree under a shape are drawn from it. -/
def Draws (shape : Shape) : Prop :=
  ∀ tree path value findings, tree.Keyed → reader shape tree path = .built value findings →
    ∀ part, Occurs part value → Drawn tree part

section scalars

variable {shape : Shape} {read : Reader}

theorem draws_of_present (same : reader shape = orNull read)
    (draws : ∀ {tree path value findings}, tree.Keyed → read tree path = .built value findings →
      ∀ part, Occurs part value → Drawn tree part) : Draws shape := by
  intro tree path value findings keyed built
  cases null : tree.isNull with
  | true =>
    rw [reader_of_isNull shape path null] at built
    obtain ⟨rfl, -⟩ := Walk.built.inj built
    exact Value.forall_occurs_scalar.mpr (.inl (Value.settled_of_named (.inl rfl) rfl))
  | false =>
    rw [same, orNull_of_present null] at built
    exact draws keyed built

theorem settled_of_occurs_null {part : Value} (occurs : Occurs part .null) : part.Settled := by
  cases occurs
  exact Value.settled_of_named (.inl rfl) rfl

/-- The text of a node is whole unless the node is a torn text itself. -/
theorem textOf_whole_or_same (node : Tree) :
    (textOf node).isTorn = false ∨ node.toValue = .str (textOf node) := by
  cases node with
  | scalar value =>
    cases value with
    | str text => exact .inr rfl
    | bool value => cases value <;> exact .inl rfl
    | _ => exact .inl rfl
  | _ => exact .inl rfl

theorem drawn_word {value : Value} (read : word? tree = some value) :
    ∀ part, Occurs part value → Drawn tree part := by
  intro part occurs
  rw [Value.occurs_in_named occurs (named_of_word? read)]
  rcases word?_cases read with rfl | rfl
  · exact .inl (Value.settled_of_named (.inl rfl) rfl)
  · rcases textOf_whole_or_same tree with whole | same
    · exact .inl (Value.settled_of_named (.inr rfl) whole)
    · exact .inr ⟨⟨_, rfl⟩, same ▸ .here⟩

theorem draws_str : Draws .str := by
  intro tree path value findings _ built
  exact drawn_word (reader_str_eq_built_iff.mp built).1

theorem draws_int : Draws .int := by
  refine draws_of_present (by rw [reader]) fun {tree path value findings} _ built => ?_
  unfold readInt at built
  split at built <;> cases built
  exact Value.forall_occurs_scalar.mpr (.inr ⟨⟨_, rfl⟩, .here⟩)

theorem draws_float : Draws .float := by
  refine draws_of_present (by rw [reader]) fun {tree path value findings} _ built => ?_
  unfold readFloat at built
  split at built
  · cases built
    exact Value.forall_occurs_scalar.mpr (.inr ⟨⟨_, rfl⟩, .here⟩)
  · split at built
    · next converted =>
      cases built
      exact Value.forall_occurs_scalar.mpr
        (.inl ⟨trivial, Binary64.isNotANumber_of_ofInt? converted, Value.not_obstructs Bool.noConfusion rfl⟩)
    · cases built
  · cases built

theorem draws_bool : Draws .bool := by
  refine draws_of_present (by rw [reader]) fun {tree path value findings} _ built => ?_
  unfold readBool at built
  split at built <;> cases built
  exact Value.forall_occurs_scalar.mpr (.inl ⟨trivial, rfl, Value.not_obstructs Bool.noConfusion rfl⟩)

theorem draws_enumeration (type : Enumeration) : Draws (.enumeration type) := by
  refine draws_of_present (by rw [reader]) fun {tree path value findings} _ built => ?_
  obtain ⟨name, own, -, rfl⟩ := exists_of_readMember built
  exact Value.forall_occurs_member.mpr (.inl ⟨trivial, rfl, Value.not_obstructs id rfl⟩)

end scalars

section containers

variable {shape : Shape}

theorem draws_list (draws : Draws shape) : Draws (.list shape) := by
  refine draws_of_present (by rw [reader]) fun {tree path value findings} keyed built => ?_
  split at built
  · cases keyed with
    | seq keyed =>
      obtain ⟨values, read, rfl⟩ := Walk.map_eq_built_iff.mp built
      rw [readItems_eq] at read
      refine Value.forall_occurs_seq.mpr ⟨.inl (Value.settled_seq _ _), fun value listed part occurs => ?_⟩
      obtain ⟨⟨item, index⟩, beside, _, own⟩ := Walk.exists_of_mem_mapM read value listed
      have member := List.fst_mem_of_mem_zipIdx beside
      exact (draws item _ value _ (keyed item member) own part occurs).item member
  · cases built

theorem draws_set : Draws (.set .str) := by
  refine draws_of_present (by rw [reader]) fun {tree path value findings} _ built => ?_
  split at built
  · obtain ⟨members, read, rfl⟩ := Walk.map_eq_built_iff.mp built
    refine Value.forall_occurs_set.mpr ⟨.inl ⟨named_of_readMembers read, rfl, Value.not_obstructs id rfl⟩,
      fun member listed part occurs => ?_⟩
    obtain ⟨-, rfl, -⟩ := readMembers_str_eq_built_iff.mp read
    obtain ⟨item, own, word⟩ := List.mem_filterMap.mp
      ((Members.mem_insertAll listed).resolve_right List.not_mem_nil)
    exact Drawn.part ‹_› own (drawn_word word part occurs)
  · cases built

theorem draws_map (draws : Draws shape) : Draws (.map .str shape) := by
  refine draws_of_present (by rw [reader]) fun {tree path value findings} keyed built => ?_
  split at built
  · cases keyed with
    | map titled keyed =>
      obtain ⟨values, read, rfl⟩ := Walk.map_eq_built_iff.mp built
      rw [readEntries_titled titled] at read
      have texts := (keys_of_mapM titled read).1
      have named : ∀ entry ∈ values, entry.1.isNull = true ∨ entry.1.isTextKey = true :=
        fun entry listed => .inr (texts entry listed)
      refine Value.forall_occurs_dict.mpr ⟨.inl ⟨named, rfl, Value.not_obstructs (fun stuck => ?_) rfl⟩,
        fun entry listed part occurs => ?_, fun entry listed part occurs => ?_⟩
      · obtain ⟨-, entry, listed, null⟩ := stuck
        obtain ⟨text, same⟩ := Value.exists_text_of_isTextKey (texts entry listed)
        rw [same] at null
        cases null
      · obtain ⟨origin, member, _, step⟩ := Walk.exists_of_mem_mapM read entry listed
        obtain ⟨value, -, rfl⟩ := Walk.map_eq_built_iff.mp step
        rw [Value.occurs_in_named occurs (named _ listed)]
        exact .key member
      · obtain ⟨origin, member, _, step⟩ := Walk.exists_of_mem_mapM read entry listed
        obtain ⟨value, own, rfl⟩ := Walk.map_eq_built_iff.mp step
        exact (draws origin.2 _ value _ (keyed origin member) own part occurs).entry member
  · cases built

theorem draws_readEntry {settings : List (Setting Shape)}
    (draws : ∀ setting ∈ settings, Draws setting.shape)
    {entry : Scalar × Tree} {pair : Str × Value} (keyed : entry.2.Keyed)
    (built : readEntry settings path entry = .built (some pair) findings) :
    ∀ part, Occurs part pair.2 → Drawn entry.2 part := by
  intro part occurs
  obtain ⟨-, gives⟩ := readEntry_eq_built_iff.mp built
  split at gives
  · cases gives.1
  · next setting found =>
    obtain ⟨value, known, own⟩ := gives
    obtain rfl := Option.some.inj known
    rw [readSetting_eq] at own
    split at own
    · obtain ⟨rfl, -⟩ := Walk.built.inj own
      exact .inl (settled_of_occurs_null occurs)
    · exact draws setting (List.mem_of_find?_eq_some found) _ _ value _ keyed own part occurs

/-- A new document has settled defaults. -/
theorem settled_of_newSlots {settings : List (Setting Shape)} {slot : Slot Value} {part : Value}
    (settled : Shape.Settled (.document name settings)) (fresh : slot ∈ Schema.newSlots settings)
    (occurs : Occurs part slot.value) : part.Settled := by
  obtain ⟨setting, known, rfl⟩ := List.mem_map.mp fresh
  exact (Shape.settled_document.mp settled setting known).2 part occurs

theorem draws_document {settings : List (Setting Shape)} (settled : Shape.Settled (.document name settings))
    (draws : ∀ setting ∈ settings, Draws setting.shape) : Draws (.document name settings) := by
  refine draws_of_present (by rw [reader]) fun {tree path value findings} keyed built => ?_
  split at built
  · cases keyed with
    | map titled keyed =>
      obtain ⟨slots, read, rfl⟩ := Walk.map_eq_built_iff.mp built
      obtain ⟨given, each, rfl⟩ := readSettings_eq_built_iff.mp read
      refine Value.forall_occurs_document.mpr ⟨.inl (Value.settled_document _ _), fun slot listed part occurs => ?_⟩
      rcases Slot.mem_giveAll listed with fresh | ⟨pair, member, same⟩
      · exact .inl (settled_of_newSlots settled fresh occurs)
      · obtain ⟨entry, there, _, own⟩ := Walk.exists_of_mem_mapM each (some pair) member
        rw [same] at occurs
        exact (draws_readEntry draws (keyed entry there) own part occurs).entry there
  · cases built

end containers

/-- Under a worded shape with settled defaults all that is read is drawn from the source. -/
theorem draws_of_worded (worded : Shape.Worded shape) (settled : shape.Settled) : Draws shape := by
  induction worded with
  | str => exact draws_str
  | int => exact draws_int
  | float => exact draws_float
  | bool => exact draws_bool
  | enumeration => exact draws_enumeration _
  | list element ih => exact draws_list (ih settled)
  | set => exact draws_set
  | map value ih => exact draws_map (ih (Bool.and_eq_true_iff.mp settled).2)
  | document shapes ih =>
    exact draws_document settled fun setting member =>
      ih setting member (Shape.settled_document.mp settled setting member).1

/-- A document has nothing that its source and the defaults do not have. -/
theorem drawn_of_ofTree {schema : Schema} {result : Result} (worded : schema.shape.Worded)
    (settled : schema.shape.Settled) (keyed : tree.Keyed)
    (read : ofTree schema source tree = .ok result) :
    ∀ part, Occurs part result.document → Drawn tree part := by
  obtain ⟨findings, walk, -⟩ := ofTree_eq_ok_iff.mp read
  unfold rootWalk at walk
  split at walk
  · rw [← (Walk.built.inj walk).1]
    exact Value.forall_occurs_document.mpr ⟨.inl (Value.settled_document _ _), fun slot fresh part occurs =>
      .inl (settled_of_newSlots settled fresh occurs)⟩
  · exact draws_of_worded worded settled tree "" _ findings keyed walk

section drawn

variable {tree : Tree} {value : Value} (drawn : ∀ part, Occurs part value → Drawn tree part)
include drawn

theorem named_of_drawn : value.Named := by
  intro part occurs
  rcases drawn part occurs with settled | ⟨⟨scalar, rfl⟩, -⟩
  · exact settled.named
  · trivial

theorem definite_of_drawn (definite : tree.toValue.Definite) : value.Definite := by
  intro part occurs
  rcases drawn part occurs with settled | ⟨-, there⟩
  · exact settled.definite
  · exact definite part there

theorem unobstructed_of_drawn (free : tree.toValue.Unobstructed) : value.Unobstructed := by
  intro part occurs
  rcases drawn part occurs with settled | ⟨-, there⟩
  · exact settled.free
  · exact free part there

end drawn

end Decode

end LayeredConfig
