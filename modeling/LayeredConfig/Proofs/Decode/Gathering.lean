import LayeredConfig.Proofs.Decode.Settings
import LayeredConfig.Proofs.Decode.Words

namespace LayeredConfig.Decode

/-- An entry after which no other key is read as the same. -/
def Counts (entries : List (Scalar × Tree)) (entry : Scalar × Tree) : Prop :=
  ∃ before after, entries = before ++ entry :: after ∧
    ∀ later ∈ after, word? (.scalar later.1) ≠ word? (.scalar entry.1)

theorem Counts.mem {entries : List (Scalar × Tree)} {entry : Scalar × Tree}
    (counts : Counts entries entry) : entry ∈ entries := by
  obtain ⟨before, after, rfl, -⟩ := counts
  simp

/-- What a dictionary of texts holds of the entries of a node: every key as it is read, once, with the value
of the last entry whose key is read so. There are as many as the node has keys if no two become the same. -/
structure Gathers (entries : List (Scalar × Tree)) (pairs : List (Value × Value)) : Prop where
  keys : ∀ key, key ∈ pairs.map (·.1) ↔ ∃ entry ∈ entries, word? (.scalar entry.1) = some key
  distinct : (pairs.map (·.1)).Nodup
  found : ∀ entry, Counts entries entry → ∃ key value, word? (.scalar entry.1) = some key ∧
    word? entry.2 = some value ∧ Entries.find? Value.same key pairs = some value
  only : ∀ pair ∈ pairs, ∃ entry, Counts entries entry ∧ word? (.scalar entry.1) = some pair.1 ∧
    word? entry.2 = some pair.2
  whole : pairs.length = entries.length ↔
    (entries.map fun entry => word? (.scalar entry.1)).Nodup

section entries

variable {entries : List (Scalar × Tree)} {added pairs : List (Value × Value)}

/-- What is read from an entry with a text for its value. -/
def words? (entry : Scalar × Tree) : Option (Value × Value) :=
  (word? (.scalar entry.1)).bind fun key => (word? entry.2).map (key, ·)

theorem words?_eq_some_iff {entry : Scalar × Tree} {pair : Value × Value} :
    words? entry = some pair ↔ word? (.scalar entry.1) = some pair.1 ∧ word? entry.2 = some pair.2 := by
  obtain ⟨key, value⟩ := pair
  simp only [words?, Option.bind_eq_some_iff, Option.map_eq_some_iff, Prod.mk.injEq]
  constructor
  · rintro ⟨_, ofKey, _, ofValue, rfl, rfl⟩
    exact ⟨ofKey, ofValue⟩
  · rintro ⟨ofKey, ofValue⟩
    exact ⟨key, ofKey, value, ofValue, rfl, rfl⟩

theorem writable_of_word? {key : Scalar} {value : Value} (read : word? (.scalar key) = some value) :
    key.writable = true := by
  cases writable : key.writable with
  | true => rfl
  | false =>
    cases key with
    | int n => simp [word?, Tree.isNull, Scalar.isNull, Tree.writable, writable] at read
    | _ => cases writable

theorem readEntries_str_eq_built_iff {taken : List (Value × Value)} :
    readEntries (reader .str) (reader .str) path taken entries = .built pairs findings ↔
      (∀ entry ∈ entries, (words? entry).isSome = true) ∧
        Entries.putAll Value.same (entries.filterMap words?) taken = pairs ∧ findings = [] := by
  induction entries generalizing taken findings with
  | nil => exact Walk.pure_eq_built_iff.trans (by simp [Entries.putAll])
  | cons entry entries ih =>
    obtain ⟨key, node⟩ := entry
    rw [readEntries_cons, List.forall_mem_cons]
    cases ofKey : word? (.scalar key) with
    | none => simp [Walk.bind_eq_built_iff, reader_str_eq_built_iff, ofKey, words?]
    | some newKey =>
      have newTitle : reader .str (.scalar key) path = pure newKey :=
        reader_str_eq_built_iff.mpr ⟨ofKey, rfl⟩
      rw [newTitle, pure_bind, nameOf_writable (writable_of_word? ofKey), pure_bind]
      cases ofValue : word? node with
      | none => simp [Walk.bind_eq_built_iff, reader_str_eq_built_iff, ofKey, ofValue, words?]
      | some value =>
        have newValue : reader .str node (join path key.text) = pure value :=
          reader_str_eq_built_iff.mpr ⟨ofValue, rfl⟩
        have both : words? (key, node) = some (newKey, value) :=
          words?_eq_some_iff.mpr ⟨ofKey, ofValue⟩
        rw [newValue, pure_bind, if_pos (hashable_of_named (named_of_word? ofKey)), ih,
          List.filterMap_cons_some both, both]
        exact and_congr_left fun _ => (and_iff_right rfl).symm

theorem named_of_words? : ∀ pair ∈ entries.filterMap words?,
    pair.1.isNull = true ∨ pair.1.isTextKey = true := by
  intro pair listed
  obtain ⟨entry, -, read⟩ := List.mem_filterMap.mp listed
  exact named_of_word? (words?_eq_some_iff.mp read).1

theorem map_key_of_words? (read : ∀ entry ∈ entries, (words? entry).isSome = true) :
    (entries.map fun entry => word? (.scalar entry.1)) =
      ((entries.filterMap words?).map (·.1)).map some := by
  induction entries with
  | nil => rfl
  | cons entry entries ih =>
    obtain ⟨first, rest⟩ := List.forall_mem_cons.mp read
    obtain ⟨pair, here⟩ := Option.isSome_iff_exists.mp first
    rw [List.filterMap_cons_some here, List.map_cons, List.map_cons, List.map_cons, ih rest,
      (words?_eq_some_iff.mp here).1]

/-- The last of the pairs with a key is that of the entry after which no other key is read as the same. -/
theorem find?_reverse_words? {pair : Value × Value}
    (read : ∀ entry ∈ entries, (words? entry).isSome = true)
    (named : pair.1.isNull = true ∨ pair.1.isTextKey = true) :
    (entries.filterMap words?).reverse.find? (Value.same ·.1 pair.1) = some pair ↔
      ∃ entry, Counts entries entry ∧ words? entry = some pair := by
  have same_iff {other : Value × Value} (listed : other ∈ entries.filterMap words?) :
      other.1.same pair.1 = true ↔ other.1 = pair.1 :=
    Value.same_iff_of_named (named_of_words? other listed) named
  constructor
  · intro last
    obtain ⟨-, after, before, split, others⟩ := List.find?_eq_some_iff_append.mp last
    have order : entries.filterMap words? = before.reverse ++ pair :: after.reverse := by
      simpa using congrArg List.reverse split
    obtain ⟨first, rest, rfl, -, tail⟩ := List.filterMap_eq_append_iff.mp order
    obtain ⟨skipped, entry, later, rfl, -, own, follow⟩ := List.filterMap_eq_cons_iff.mp tail
    refine ⟨entry, ⟨first ++ skipped, later, by simp, fun other listed equal => ?_⟩, own⟩
    obtain ⟨there, ofOther⟩ := Option.isSome_iff_exists.mp (read other (by simp [listed]))
    have member : there ∈ after :=
      List.mem_reverse.mp (follow ▸ List.mem_filterMap.mpr ⟨other, listed, ofOther⟩)
    have title : there.1 = pair.1 := by
      rw [(words?_eq_some_iff.mp ofOther).1, (words?_eq_some_iff.mp own).1] at equal
      exact Option.some.inj equal
    have apart := others there member
    rw [(same_iff (List.mem_filterMap.mpr ⟨other, by simp [listed], ofOther⟩)).mpr title] at apart
    cases apart
  · rintro ⟨entry, ⟨before, after, rfl, others⟩, own⟩
    have apart : (after.filterMap words?).reverse.find? (Value.same ·.1 pair.1) = none := by
      refine List.find?_eq_none.mpr fun there member equal => ?_
      obtain ⟨later, listed, ofLater⟩ := List.mem_filterMap.mp (List.mem_reverse.mp member)
      refine others later listed ?_
      rw [(words?_eq_some_iff.mp ofLater).1, (words?_eq_some_iff.mp own).1,
        (same_iff (List.mem_filterMap.mpr ⟨later, by simp [listed], ofLater⟩)).mp equal]
    have itself : pair.1.same pair.1 = true := (Value.same_iff_of_named named named).mpr rfl
    rw [List.filterMap_append, List.filterMap_cons_some own, List.reverse_append, List.reverse_cons,
      List.append_assoc, List.find?_append, apart]
    simp [itself]

/-- What the entries of a dictionary of texts are put together to. -/
def gathered (entries : List (Scalar × Tree)) : List (Value × Value) :=
  Entries.putAll Value.same (entries.filterMap words?) []

theorem keys_gathered : (gathered entries).map (·.1) =
    Members.ofList Value.same ((entries.filterMap words?).map (·.1)) :=
  Entries.keys_putAll Value.same _ []

theorem named_keys_of_words? : ∀ key ∈ (entries.filterMap words?).map (·.1),
    key.isNull = true ∨ key.isTextKey = true :=
  List.forall_mem_map.mpr named_of_words?

theorem mem_keys_gathered {key : Value} :
    key ∈ (gathered entries).map (·.1) ↔ key ∈ (entries.filterMap words?).map (·.1) := by
  rw [keys_gathered, Value.mem_ofList_of_named named_keys_of_words?]

theorem nodup_keys_gathered : ((gathered entries).map (·.1)).Nodup :=
  keys_gathered ▸ Members.nodup_ofList (Value.lawful_of_named named_keys_of_words?)

/-- A key has the value of the entry after which no other key is read as the same. -/
theorem find?_gathered_iff {pair : Value × Value}
    (read : ∀ entry ∈ entries, (words? entry).isSome = true)
    (named : pair.1.isNull = true ∨ pair.1.isTextKey = true) :
    Entries.find? Value.same pair.1 (gathered entries) = some pair.2 ↔
      ∃ entry, Counts entries entry ∧ words? entry = some pair := by
  rw [gathered, Entries.find?_putAll (fun _ _ => Value.same_iff_of_named) (by simp) named_of_words? named,
    ← find?_reverse_words? read named, Entries.find?, Option.or_none, Option.map_eq_some_iff]
  constructor
  · rintro ⟨last, found, same⟩
    have listed := List.mem_reverse.mp (List.mem_of_find?_eq_some found)
    have equal := List.find?_some found
    have title : last.1 = pair.1 :=
      (Value.same_iff_of_named (named_of_words? last listed) named).mp equal
    rwa [Prod.ext title same] at found
  · exact fun found => ⟨pair, found, rfl⟩

theorem gathers_gathered (read : ∀ entry ∈ entries, (words? entry).isSome = true) :
    Gathers entries (gathered entries) where
  keys key := by
    rw [mem_keys_gathered, ← List.mem_map_of_injective fun _ _ => Option.some.inj, ← map_key_of_words? read]
    exact List.mem_map
  distinct := nodup_keys_gathered
  found entry counts := by
    obtain ⟨pair, own⟩ := Option.isSome_iff_exists.mp (read entry counts.mem)
    obtain ⟨ofKey, ofValue⟩ := words?_eq_some_iff.mp own
    exact ⟨pair.1, pair.2, ofKey, ofValue,
      (find?_gathered_iff read (named_of_word? ofKey)).mpr ⟨entry, counts, own⟩⟩
  only pair member := by
    have named : ∀ key ∈ (gathered entries).map (·.1), key.isNull = true ∨ key.isTextKey = true :=
      fun key listed => named_keys_of_words? key (mem_keys_gathered.mp listed)
    have found := Entries.find?_of_mem (Value.lawful_of_named named) nodup_keys_gathered member
    obtain ⟨entry, counts, own⟩ :=
      (find?_gathered_iff read (named pair.1 (List.mem_map_of_mem member))).mp found
    exact ⟨entry, counts, words?_eq_some_iff.mp own⟩
  whole := by
    have all := congrArg List.length (map_key_of_words? read)
    rw [map_key_of_words? read, List.nodup_map_iff fun _ _ => Option.some.inj,
      ← Members.length_ofList_iff (Value.lawful_of_named named_keys_of_words?), ← keys_gathered,
      List.length_map]
    simp only [List.length_map] at all ⊢
    rw [all]

end entries

/-- A dictionary of texts is read from a dictionary, whose entries it gathers. -/
theorem gathers_of_reader {node : Tree} {value : Value} (present : node.isNull = false)
    (built : reader (.map .str .str) node path = .built value findings) :
    ∃ mark entries pairs, node = .map mark entries ∧ value = .dict .concurrent pairs ∧
      Gathers entries pairs := by
  rw [reader, orNull_of_present present] at built
  split at built
  · next mark entries =>
    obtain ⟨pairs, read, rfl⟩ := Walk.map_eq_built_iff.mp built
    obtain ⟨all, rfl, -⟩ := readEntries_str_eq_built_iff.mp read
    exact ⟨mark, entries, _, rfl, rfl, gathers_gathered all⟩
  · cases built

/-- Where a source has a dictionary under a setting, or a setting of a document in one, that is a dictionary of texts,
the document has one that holds its entries: each key that one of them is read as, once, with the value of the last
entry whose key is read so. Entries are lost exactly where two keys become the same text. -/
theorem ofTree_gathers {schema : Schema} {result : Result} {titles : List Str}
    (decoded : ofTree schema source tree = .ok result)
    (typed : descend Shape.setting? titles schema.shape = some (.map .str .str))
    (given : descend Tree.setting? titles tree = some (.map mark entries)) :
    ∃ pairs, descend Value.setting? titles result.document = some (.dict .concurrent pairs) ∧
      Gathers entries pairs := by
  have below : titles ≠ [] := by
    rintro rfl
    cases typed
  rcases stems_of_ofTree decoded below typed with ⟨child, inner, place, noted, here, held, read⟩ | ⟨absent, -⟩
  · obtain rfl := Option.some.inj (here.symm.trans given)
    obtain ⟨_, _, pairs, same, rfl, gathers⟩ := gathers_of_reader rfl read
    cases same
    exact ⟨pairs, held, gathers⟩
  · cases absent.symm.trans given

/-- Two keys of one dictionary that become the same text. -/
def clashingTree : Tree :=
  .map none [(.str "table_properties", .map none [(.bool true, .scalar (.str "a")),
    (.str "comment", .scalar (.str "c")), (.str "true", .scalar (.str "b"))])]

/-- Of the two the later one is kept, in the place of the earlier. -/
theorem ofTree_gathers_clashingTree :
    ∃ result entries pairs, ofTree NodeSchema.nodeConfig "node.yaml" clashingTree = .ok result ∧
      descend Tree.setting? ["table_properties"] clashingTree = some (.map none entries) ∧
      descend Value.setting? ["table_properties"] result.document = some (.dict .concurrent pairs) ∧
      Gathers entries pairs ∧ pairs = [(.str "true", .str "b"), (.str "comment", .str "c")] := by
  have typed : descend Shape.setting? ["table_properties"] NodeSchema.nodeConfig.shape =
      some (.map .str .str) := rfl
  have decoded : ofTree NodeSchema.nodeConfig "node.yaml" clashingTree = .ok _ := rfl
  have given : descend Tree.setting? ["table_properties"] clashingTree = some (.map none _) := rfl
  obtain ⟨pairs, held, gathers⟩ := ofTree_gathers decoded typed given
  refine ⟨_, _, pairs, decoded, given, held, gathers, ?_⟩
  rw [← (Value.dict.inj (Option.some.inj held)).2]
  simp [Entries.put, Value.same, Value.alike, Scalar.alike, Scalar.key, textOf, Scalar.text]

/-- Not every entry of a source comes into its document, although nothing is reported. -/
theorem not_every_entry_kept :
    ¬ ∀ (tree : Tree) (result : Result) (titles : List Str) (mark : Option Nat)
      (entries : List (Scalar × Tree)), ofTree NodeSchema.nodeConfig "node.yaml" tree = .ok result →
        result.report = .empty →
        descend Shape.setting? titles NodeSchema.nodeConfig.shape = some (.map .str .str) →
        descend Tree.setting? titles tree = some (.map mark entries) →
          ∃ pairs, descend Value.setting? titles result.document = some (.dict .concurrent pairs) ∧
            pairs.length = entries.length ∧ ∀ entry ∈ entries, ∃ key value,
              word? (.scalar entry.1) = some key ∧ word? entry.2 = some value ∧
                Entries.find? Value.same key pairs = some value := by
  intro kept
  obtain ⟨pairs, held, count, -⟩ := kept clashingTree _ ["table_properties"] _ _ rfl rfl rfl rfl
  rw [← (Value.dict.inj (Option.some.inj held)).2] at count
  simp [Entries.put, Value.same, Value.alike, Scalar.alike, Scalar.key, textOf, Scalar.text] at count

end LayeredConfig.Decode
