import LayeredConfig.Tree

namespace LayeredConfig

/-- Entries whose keys are texts, none of them twice. -/
structure Titled (entries : List (Scalar × Tree)) : Prop where
  texts : ∀ entry ∈ entries, ∃ text, entry.1 = .str text
  distinct : (entries.map (·.1)).Nodup

theorem Titled.of_perm {entries entries' : List (Scalar × Tree)} (titled : Titled entries)
    (perm : (entries.map (·.1)).Perm (entries'.map (·.1))) : Titled entries' where
  texts := by
    intro entry member
    obtain ⟨old, listed, same⟩ := List.mem_map.mp (perm.mem_iff.mpr (List.mem_map_of_mem member))
    exact same ▸ titled.texts old listed
  distinct := perm.nodup_iff.mp titled.distinct

namespace Tree

/-- The keys of all mappings in a tree are different texts. -/
inductive Keyed : Tree → Prop
  | scalar (value : Scalar) : Keyed (.scalar value)
  | set (members : List Scalar) : Keyed (.set members)
  | seq {items : List Tree} (parts : ∀ item ∈ items, Keyed item) : Keyed (.seq mark items)
  | tuple {items : List Tree} (parts : ∀ item ∈ items, Keyed item) : Keyed (.tuple items)
  | map {entries : List (Scalar × Tree)} (titled : Titled entries)
      (parts : ∀ entry ∈ entries, Keyed entry.2) : Keyed (.map mark entries)

theorem eq_scalar_of_toValue {tree : Tree} {value : Scalar} (same : tree.toValue = .scalar value) :
    tree = .scalar value := by
  cases tree with
  | scalar own => exact congrArg Tree.scalar (Value.scalar.inj same)
  | _ => cases same

theorem exists_seq_of_toValue {tree : Tree} {values : List Value}
    (same : tree.toValue = .seq .list values) :
    ∃ mark items, tree = .seq mark items ∧ valuesOf items = values := by
  cases tree with
  | seq mark items => exact ⟨mark, items, rfl, (Value.seq.inj same).2⟩
  | _ => cases same

theorem exists_map_of_toValue {tree : Tree} {entries : List (Value × Value)}
    (same : tree.toValue = .dict .plain entries) :
    ∃ mark nodes, tree = .map mark nodes ∧ entriesOf nodes = entries := by
  cases tree with
  | map mark nodes => exact ⟨mark, nodes, rfl, (Value.dict.inj same).2⟩
  | _ => cases same

theorem valuesOf_eq (items : List Tree) : valuesOf items = items.map toValue := by
  induction items with
  | nil => rfl
  | cons item items ih => rw [valuesOf, ih, List.map_cons]

theorem entriesOf_eq (entries : List (Scalar × Tree)) :
    entriesOf entries = entries.map fun entry => (.scalar entry.1, entry.2.toValue) := by
  induction entries with
  | nil => rfl
  | cons entry entries ih => rw [entriesOf, ih, List.map_cons]

theorem isNull_toValue (tree : Tree) : tree.toValue.isNull = tree.isNull := by
  cases tree <;> rfl

/-- Values that trees stand for are the items of one sequence. -/
theorem exists_valuesOf {values : List Value} (each : ∀ value ∈ values, ∃ tree, toValue tree = value) :
    ∃ items, valuesOf items = values := by
  induction values with
  | nil => exact ⟨[], rfl⟩
  | cons value values ih =>
    obtain ⟨⟨item, rfl⟩, others⟩ := List.forall_mem_cons.mp each
    obtain ⟨items, rfl⟩ := ih others
    exact ⟨item :: items, rfl⟩

theorem exists_entriesOf {entries : List (Value × Value)}
    (keys : ∀ entry ∈ entries, ∃ key, entry.1 = .scalar key)
    (each : ∀ entry ∈ entries, ∃ tree, toValue tree = entry.2) :
    ∃ nodes, entriesOf nodes = entries := by
  induction entries with
  | nil => exact ⟨[], rfl⟩
  | cons entry entries ih =>
    obtain ⟨first, value⟩ := entry
    obtain ⟨⟨key, rfl⟩, otherKeys⟩ := List.forall_mem_cons.mp keys
    obtain ⟨⟨node, rfl⟩, others⟩ := List.forall_mem_cons.mp each
    obtain ⟨nodes, rfl⟩ := ih otherKeys others
    exact ⟨(key, node) :: nodes, rfl⟩

end Tree

end LayeredConfig
