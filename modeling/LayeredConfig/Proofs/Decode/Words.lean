import LayeredConfig.Proofs.Decode.Steps
import LayeredConfig.Proofs.Decode.Typing
import LayeredConfig.Proofs.Schema.Worded
import LayeredConfig.Proofs.Value.Trees
import Mathlib.Data.List.Nodup

namespace LayeredConfig.Decode

variable {tree : Tree} {path : Str} {value : Value} {findings : List Finding}

/-- What is read as a text from a node, at whatever path, if anything is. -/
def word? : Tree → Option Value
  | .seq _ _ => none
  | .map _ _ => none
  | node =>
    if node.isNull then some .null else if node.writable then some (.str (textOf node)) else none

theorem reader_str_eq_built_iff :
    reader .str tree path = .built value findings ↔ word? tree = some value ∧ findings = [] := by
  have spoken (node : Tree) :
      (if node.isNull then Walk.accept .null
        else if node.writable then .accept (.str (textOf node)) else .fail .content) =
          .built value findings ↔
        (if node.isNull then some .null
          else if node.writable then some (.str (textOf node)) else none) = some value ∧
            findings = [] := by
    split
    · simp [Walk.accept, eq_comm]
    · split <;> simp [Walk.accept, Walk.fail, eq_comm]
  cases tree with
  | seq mark items =>
    constructor
    · intro built
      cases built
    · intro read
      cases read.1
  | map mark entries =>
    constructor
    · intro built
      cases built
    · intro read
      cases read.1
  | scalar own => exact spoken (.scalar own)
  | set members => exact spoken (.set members)
  | tuple items => exact spoken (.tuple items)

theorem word?_cases (read : word? tree = some value) : value = .null ∨ value = .str (textOf tree) := by
  unfold word? at read
  split at read
  · cases read
  · cases read
  · split_ifs at read
    · exact .inl (Option.some.inj read).symm
    · exact .inr (Option.some.inj read).symm

theorem named_of_word? (read : word? tree = some value) :
    value.isNull = true ∨ value.isTextKey = true := by
  rcases word?_cases read with rfl | rfl
  · exact .inl rfl
  · exact .inr rfl

theorem named_of_words {items : List Tree} :
    ∀ word ∈ items.filterMap word?, word.isNull = true ∨ word.isTextKey = true := by
  intro word listed
  obtain ⟨item, -, read⟩ := List.mem_filterMap.mp listed
  exact named_of_word? read

theorem hashable_of_named {value : Value} (named : value.isNull = true ∨ value.isTextKey = true) :
    value.hashable = true := by
  rcases Value.eq_of_named named with rfl | ⟨text, rfl⟩
  · rfl
  · rfl

theorem readMembers_str_eq_built_iff {taken members : List Value} {items : List Tree} :
    readMembers (reader .str) path index taken items = .built members findings ↔
      (∀ item ∈ items, (word? item).isSome = true) ∧
        Members.insertAll Value.same (items.filterMap word?) taken = members ∧ findings = [] := by
  induction items generalizing index taken findings with
  | nil => exact Walk.pure_eq_built_iff.trans (by simp [Members.insertAll])
  | cons item items ih =>
    rw [readMembers_cons, List.forall_mem_cons]
    cases read : word? item with
    | none => simp [Walk.bind_eq_built_iff, reader_str_eq_built_iff, read]
    | some word =>
      have here : reader .str item (element path index) = pure word :=
        reader_str_eq_built_iff.mpr ⟨read, rfl⟩
      rw [here, pure_bind, if_pos (hashable_of_named (named_of_word? read)), ih,
        List.filterMap_cons_some read]
      exact and_congr_left fun _ => (and_iff_right rfl).symm

theorem named_of_readMembers {members : List Value} {items : List Tree}
    (built : readMembers (reader .str) path index [] items = .built members findings) :
    ∀ member ∈ members, member.isNull = true ∨ member.isTextKey = true := by
  obtain ⟨-, rfl, -⟩ := readMembers_str_eq_built_iff.mp built
  exact fun member listed =>
    named_of_words member ((Members.mem_insertAll listed).resolve_right List.not_mem_nil)

theorem reader_str_text (text path : Str) :
    reader .str (.scalar (.str text)) path = pure (.str text) :=
  rfl

/-- The entries of a dictionary with different texts for keys are read one by one. -/
theorem readEntries_titled {entries : List (Scalar × Tree)} (titled : Titled entries) (read : Reader)
    (path : Str) :
    readEntries (reader .str) read path [] entries = entries.mapM fun entry =>
      read entry.2 (join path entry.1.text) >>= fun value => pure (Value.scalar entry.1, value) := by
  have after (taken : List (Value × Value)) (fresh : ∀ entry ∈ entries, ∀ old ∈ taken,
      old.1.same (.scalar entry.1) = false) :
      readEntries (reader .str) read path taken entries =
        (entries.mapM fun entry =>
          read entry.2 (join path entry.1.text) >>= fun value => pure (Value.scalar entry.1, value))
          >>= fun values => pure (taken ++ values) := by
    induction entries generalizing taken with
    | nil => simp only [List.mapM_nil, pure_bind, List.append_nil]; rfl
    | cons entry entries ih =>
      obtain ⟨key, node⟩ := entry
      obtain ⟨⟨text, rfl⟩, texts⟩ := List.forall_mem_cons.mp titled.texts
      obtain ⟨absent, distinct⟩ := List.nodup_cons.mp titled.distinct
      obtain ⟨new, others⟩ := List.forall_mem_cons.mp fresh
      have apart (value : Value) : ∀ entry ∈ entries, ∀ old ∈ taken ++ [(Value.str text, value)],
          old.1.same (.scalar entry.1) = false := by
        intro entry listed old member
        rcases List.mem_append.mp member with before | last
        · exact others entry listed old before
        · obtain ⟨title, same⟩ := texts entry listed
          rw [List.mem_singleton.mp last, same]
          have differ : text ≠ title := fun equal =>
            absent (List.mem_map.mpr ⟨entry, listed, same.trans (congrArg Scalar.str equal.symm)⟩)
          simp [Value.same, Value.alike, Scalar.alike, Scalar.key, differ]
      simp only [readEntries_cons, reader_str_text, pure_bind, List.mapM_cons, bind_assoc,
        nameOf_writable (show (Scalar.str text).writable = true from rfl)]
      refine congrArg _ (funext fun value => ?_)
      rw [if_pos (by rfl), Entries.put_of_apart new, ih ⟨texts, distinct⟩ _ (apart value)]
      simp
  simpa using after [] (by simp)

/-- A dictionary that is read from entries with different texts for keys has these texts for keys. -/
theorem keys_of_mapM {entries : List (Scalar × Tree)} (titled : Titled entries)
    {read : Scalar × Tree → Walk Value} {values : List (Value × Value)}
    (built : (entries.mapM fun entry => read entry >>= fun value => pure (Value.scalar entry.1, value)) =
      .built values findings) :
    (∀ entry ∈ values, entry.1.isTextKey = true) ∧ (values.map (·.1)).Nodup := by
  have same : values.map (·.1) = (entries.map (·.1)).map Value.scalar := by
    obtain ⟨completes, rfl, -⟩ := Walk.mapM_eq_built_iff.mp built
    rw [List.map_map, List.map_map]
    refine List.map_congr_left fun entry listed => ?_
    obtain ⟨_, _, step⟩ := completes entry listed
    obtain ⟨_, -, rfl⟩ := Walk.map_eq_built_iff.mp step
    exact congrArg (fun walk : Walk (Value × Value) => walk.made.1) step
  constructor
  · intro entry listed
    have key : entry.1 ∈ (entries.map (·.1)).map Value.scalar := same ▸ List.mem_map_of_mem listed
    obtain ⟨scalar, known, title⟩ := List.mem_map.mp key
    obtain ⟨origin, member, rfl⟩ := List.mem_map.mp known
    obtain ⟨text, textual⟩ := titled.texts origin member
    rw [← title, textual]
    rfl
  · rw [same]
    exact titled.distinct.map fun _ _ => Value.scalar.inj

end LayeredConfig.Decode
