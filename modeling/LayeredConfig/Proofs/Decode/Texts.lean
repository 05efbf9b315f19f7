import LayeredConfig.Proofs.Decode.Gathering

namespace LayeredConfig

/-- The collections of texts. -/
inductive Shape.OfTexts : Shape → Prop
  | list : OfTexts (.list .str)
  | set : OfTexts (.set .str)
  | map : OfTexts (.map .str .str)

/-- The items, the members, or the keys and the values. -/
def Value.contents : Value → List Value
  | .seq _ items => items
  | .set _ members => members
  | .dict _ entries => entries.map (·.1) ++ entries.map (·.2)
  | _ => []

namespace Decode

section collections

variable {node : Tree} {value : Value} {part : Shape}

/-- A node with null in a collection of texts, other than in an entry that a later one replaces. -/
inductive KeepsNull : Shape → Tree → Prop
  | item {items : List Tree} (listed : item ∈ items) (null : item.isNull = true) :
      KeepsNull (.list .str) (.seq mark items)
  | member {items : List Tree} (parts : parts? whole = some items) (listed : item ∈ items)
      (null : item.isNull = true) : KeepsNull (.set .str) whole
  | key {entries : List (Scalar × Tree)} (listed : entry ∈ entries) (null : entry.1.isNull = true) :
      KeepsNull (.map .str .str) (.map mark entries)
  | value {entries : List (Scalar × Tree)} (counts : Counts entries entry)
      (null : entry.2.isNull = true) : KeepsNull (.map .str .str) (.map mark entries)

theorem word?_of_isNull (null : node.isNull = true) : word? node = some .null := by
  cases node with
  | scalar => exact if_pos null
  | _ => cases null

theorem isTextKey_iff_of_word? (read : word? node = some value) :
    value.isTextKey = true ↔ node.isNull = false := by
  cases null : node.isNull with
  | true =>
    obtain rfl := Option.some.inj ((word?_of_isNull null).symm.trans read)
    exact ⟨nofun, nofun⟩
  | false =>
    refine iff_of_true ?_ rfl
    obtain ⟨text, rfl⟩ : ∃ text, value = .str text := by
      unfold word? at read
      split at read
      · cases read
      · cases read
      · rw [null] at read
        simp only [Bool.false_eq_true, if_false, Option.ite_none_right_eq_some, Option.some.injEq] at read
        exact ⟨_, read.2.symm⟩
    rfl

theorem readItems_str_eq_built_iff {values : List Value} {items : List Tree} :
    readItems (reader .str) path index items = .built values findings ↔
      (∀ item ∈ items, (word? item).isSome = true) ∧ items.filterMap word? = values ∧
        findings = [] := by
  induction items generalizing index values findings with
  | nil => exact Walk.pure_eq_built_iff.trans (by simp)
  | cons item items ih =>
    rw [readItems, List.forall_mem_cons]
    cases read : word? item with
    | none => simp [Walk.bind_eq_built_iff, reader_str_eq_built_iff, read]
    | some word =>
      have here : reader .str item (element path index) = pure word :=
        reader_str_eq_built_iff.mpr ⟨read, rfl⟩
      rw [here, pure_bind, Walk.map_eq_built_iff, List.filterMap_cons_some read]
      constructor
      · rintro ⟨others, rest, rfl⟩
        obtain ⟨all, rfl, rfl⟩ := ih.mp rest
        exact ⟨⟨rfl, all⟩, rfl, rfl⟩
      · rintro ⟨⟨-, all⟩, rfl, rfl⟩
        exact ⟨_, ih.mpr ⟨all, rfl, rfl⟩, rfl⟩

theorem forall_words_iff {items : List Tree} (read : ∀ item ∈ items, (word? item).isSome = true) :
    (∀ word ∈ items.filterMap word?, word.isTextKey = true) ↔ ∀ item ∈ items, item.isNull = false := by
  constructor
  · intro texts item listed
    obtain ⟨word, here⟩ := Option.isSome_iff_exists.mp (read item listed)
    exact (isTextKey_iff_of_word? here).mp (texts word (List.mem_filterMap.mpr ⟨item, listed, here⟩))
  · intro present word listed
    obtain ⟨item, member, here⟩ := List.mem_filterMap.mp listed
    exact (isTextKey_iff_of_word? here).mpr (present item member)

theorem conforms_of_named (named : value.isNull = true ∨ value.isTextKey = true)
    (present : value.isNull = false) : Conforms .str value := by
  rcases Value.eq_of_named named with rfl | ⟨text, rfl⟩
  · cases present
  · exact .str text

theorem Gathers.named {entries : List (Scalar × Tree)} {pairs : List (Value × Value)}
    (gathers : Gathers entries pairs) : ∀ pair ∈ pairs,
      (pair.1.isNull = true ∨ pair.1.isTextKey = true) ∧
        (pair.2.isNull = true ∨ pair.2.isTextKey = true) := by
  intro pair member
  obtain ⟨entry, -, ofKey, ofValue⟩ := gathers.only pair member
  exact ⟨named_of_word? ofKey, named_of_word? ofValue⟩

/-- A dictionary that gathers entries is one of texts alone if none of their keys is null, nor the value of
an entry that counts. -/
theorem Gathers.texts_iff {entries : List (Scalar × Tree)} {pairs : List (Value × Value)}
    (gathers : Gathers entries pairs) :
    (∀ content ∈ (Value.dict .concurrent pairs).contents, content.isTextKey = true) ↔
      ¬ KeepsNull (.map .str .str) (.map mark entries) := by
  simp only [Value.contents, List.forall_mem_append, List.forall_mem_map]
  constructor
  · rintro ⟨keys, values⟩ keeps
    cases keeps with
    | key listed null =>
      have known := (gathers.keys .null).mpr ⟨_, listed, word?_of_isNull null⟩
      obtain ⟨pair, member, same⟩ := List.mem_map.mp known
      cases same ▸ keys pair member
    | value counts null =>
      obtain ⟨key, value, -, read, found⟩ := gathers.found _ counts
      obtain rfl := Option.some.inj ((word?_of_isNull null).symm.trans read)
      obtain ⟨pair, member, same⟩ := Entries.mem_of_find? found
      cases same ▸ values pair member
  · intro clean
    constructor
    · intro pair member
      obtain ⟨entry, counts, ofKey, -⟩ := gathers.only pair member
      exact (isTextKey_iff_of_word? ofKey).mpr
        (Bool.eq_false_iff.mpr fun null => clean (.key counts.mem null))
    · intro pair member
      obtain ⟨entry, counts, -, ofValue⟩ := gathers.only pair member
      exact (isTextKey_iff_of_word? ofValue).mpr
        (Bool.eq_false_iff.mpr fun null => clean (.value counts null))

/-- A collection of texts that is read holds null if it is read from null, and otherwise texts alone. -/
theorem texts_of_reader (collection : part.OfTexts) (present : node.isNull = false)
    (built : reader part node path = .built value findings) :
    Conforms part value ∧
      ((∀ content ∈ value.contents, content.isTextKey = true) ↔ ¬ KeepsNull part node) := by
  cases collection with
  | list =>
    rw [reader, orNull_of_present present] at built
    split at built
    · next mark items =>
      obtain ⟨values, read, rfl⟩ := Walk.map_eq_built_iff.mp built
      obtain ⟨all, rfl, -⟩ := readItems_str_eq_built_iff.mp read
      refine ⟨.list fun word listed => conforms_of_named (named_of_words word listed),
        (forall_words_iff all).trans ⟨fun clean keeps => ?_, fun clean item listed => ?_⟩⟩
      · cases keeps with
        | item listed null => simp [clean _ listed] at null
      · exact Bool.eq_false_iff.mpr fun null => clean (.item listed null)
    · cases built
  | set =>
    rw [reader, orNull_of_present present] at built
    split at built
    · next items parts =>
      obtain ⟨members, read, rfl⟩ := Walk.map_eq_built_iff.mp built
      obtain ⟨all, rfl, -⟩ := readMembers_str_eq_built_iff.mp read
      have origin (word : Value) : word ∈ Members.insertAll Value.same (items.filterMap word?) [] ↔
          word ∈ items.filterMap word? := Value.mem_ofList_of_named named_of_words
      refine ⟨.set fun word listed =>
        conforms_of_named (named_of_words word ((origin word).mp listed)), ?_⟩
      simp only [Value.contents, origin]
      refine (forall_words_iff all).trans ⟨fun clean keeps => ?_, fun clean item listed => ?_⟩
      · cases keeps with
        | member own listed null =>
          obtain rfl := Option.some.inj (parts.symm.trans own)
          simp [clean _ listed] at null
      · exact Bool.eq_false_iff.mpr fun null => clean (.member parts listed null)
    · cases built
  | map =>
    obtain ⟨mark, entries, pairs, rfl, rfl, gathers⟩ := gathers_of_reader present built
    exact ⟨.map (fun pair member => conforms_of_named (gathers.named pair member).1)
      fun pair member => conforms_of_named (gathers.named pair member).2, gathers.texts_iff⟩

end collections

/-- The contents of a collection of texts are texts and null. -/
theorem contents_named {part : Shape} {value : Value} (collection : part.OfTexts)
    (conforms : Conforms part value) :
    ∀ content ∈ value.contents, content.isNull = true ∨ content.isTextKey = true := by
  cases collection with
  | list =>
    cases conforms with
    | list parts => exact fun content listed => named_of_conforms (parts content listed)
  | set =>
    cases conforms with
    | set parts => exact fun content listed => named_of_conforms (parts content listed)
  | map =>
    cases conforms with
    | map keys values =>
      simp only [Value.contents, List.forall_mem_append, List.forall_mem_map]
      exact ⟨fun pair member => named_of_conforms (keys pair member),
        fun pair member => named_of_conforms (values pair member)⟩

/-- No default of a node has null among texts. -/
theorem defaults_texts : NodeSchema.nodeConfig.shape.defaultsPass
    (fun part => part.contents.all Value.isTextKey) = true := by
  decide +kernel

/-- Where a decoded document has a collection of texts, all that is in it is a text or null. It is texts alone
exactly if the source has no null there: null is neither converted nor reported. -/
theorem ofTree_texts {result : Result} {titles : List Str} {part : Shape} {value : Value}
    (decoded : ofTree NodeSchema.nodeConfig source tree = .ok result)
    (typed : descend Shape.setting? titles NodeSchema.nodeConfig.shape = some part)
    (collection : part.OfTexts)
    (held : descend Value.setting? titles result.document = some value)
    (present : value.isNull = false) :
    Conforms part value ∧
      (∀ content ∈ value.contents, content.isNull = true ∨ content.isTextKey = true) ∧
      ((∀ content ∈ value.contents, content.isTextKey = true) ↔
        ∀ node, descend Tree.setting? titles tree = some node → ¬ KeepsNull part node) := by
  have below : titles ≠ [] := by
    rintro rfl
    obtain rfl := Option.some.inj typed
    cases collection
  have whole : Conforms part value ∧ ((∀ content ∈ value.contents, content.isTextKey = true) ↔
      ∀ node, descend Tree.setting? titles tree = some node → ¬ KeepsNull part node) := by
    rcases stems_of_ofTree decoded below typed with ⟨child, inner, place, noted, given, own, read⟩ |
      ⟨absent, defaults⟩
    · obtain rfl := Option.some.inj (held.symm.trans own)
      have given' : child.isNull = false := by
        refine Bool.eq_false_iff.mpr fun null => ?_
        rw [reader_of_isNull part place null] at read
        obtain ⟨rfl, -⟩ := Walk.built.inj read
        cases present
      obtain ⟨conforms, texts⟩ := texts_of_reader collection given' read
      exact ⟨conforms, texts.trans (by simp [given])⟩
    · have stems := defaults value held
      refine ⟨stems.conforms NodeSchema.regular_nodeConfig typed present, iff_of_true ?_ ?_⟩
      · exact List.all_eq_true.mp (stems.passes defaults_texts)
      · rw [absent]
        exact nofun
  exact ⟨whole.1, contents_named collection whole.1, whole.2⟩

example : descend Shape.setting? ["server_encryption_options", "cipher_suites"]
    NodeSchema.nodeConfig.shape = some (.list .str) :=
  rfl

/-- Parameters without a value, beside others. -/
def bareTree : Tree :=
  .map none [(.str "back_pressure_strategy", .map none [(.str "parameters",
    .map none [(.str "high_ratio", .scalar .null), (.bool true, .scalar (.str "flow"))])])]

/-- The parameter without a value is null in the document, and the report is empty. -/
theorem ofTree_texts_bareTree :
    ∃ result value, ofTree NodeSchema.nodeConfig "node.yaml" bareTree = .ok result ∧
      result.report = .empty ∧
      descend Value.setting? ["back_pressure_strategy", "parameters"] result.document = some value ∧
      (∀ content ∈ value.contents, content.isNull = true ∨ content.isTextKey = true) ∧
      ¬ ∀ content ∈ value.contents, content.isTextKey = true := by
  have typed : descend Shape.setting? ["back_pressure_strategy", "parameters"]
      NodeSchema.nodeConfig.shape = some (.map .str .str) := rfl
  have decoded : ofTree NodeSchema.nodeConfig "node.yaml" bareTree = .ok _ := rfl
  obtain ⟨-, named, texts⟩ := ofTree_texts decoded typed .map rfl rfl
  refine ⟨_, _, decoded, rfl, rfl, named, fun all => texts.mp all _ rfl (.value ⟨[], _, rfl, ?_⟩ rfl)⟩
  exact List.forall_mem_singleton.mpr (by
    simp [word?, Tree.isNull, Scalar.isNull, Tree.writable, Scalar.writable, textOf, Scalar.text])

end Decode

end LayeredConfig
