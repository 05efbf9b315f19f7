import LayeredConfig.Proofs.Decode.Mirroring
import LayeredConfig.Proofs.Decode.Origins
import LayeredConfig.Proofs.Value.Shuffling

namespace LayeredConfig

/-- The shape of the items of a sequence. -/
def Shape.item? : Shape → Option Shape
  | .list element => some element
  | .set element => some element
  | _ => none

/-- The shape of the value of an entry with a name. -/
def Shape.entry? (name : Str) : Shape → Option Shape
  | .map _ value => some value
  | .document _ settings => (settings.find? (·.name == name)).map (·.shape)
  | _ => none

namespace Tree

/-- Two trees that are read under one shape, or not at all, and differ in the order of the entries of
mappings and of the items of sets only. Tuples that are read as texts are the same. -/
inductive Shuffled : Option Shape → Tree → Tree → Prop
  | same (tree : Tree) : Shuffled shape tree tree
  | tuple {items items' : List Tree} (unwritten : shape ≠ some .str)
      (length : items.length = items'.length)
      (parts : ∀ pair ∈ items.zip items', Shuffled none pair.1 pair.2) :
      Shuffled shape (.tuple items) (.tuple items')
  | seq {items items' : List Tree} (length : items.length = items'.length)
      (parts : ∀ pair ∈ items.zip items', Shuffled (shape.bind Shape.item?) pair.1 pair.2) :
      Shuffled shape (.seq mark items) (.seq mark' items')
  | gathered {items middle items' : List Tree} (perm : items.Perm middle)
      (length : middle.length = items'.length)
      (parts : ∀ pair ∈ middle.zip items', Shuffled (some element) pair.1 pair.2) :
      Shuffled (some (.set element)) (.seq mark items) (.seq mark' items')
  | members (perm : members.Perm members') :
      Shuffled (some (.set element)) (.set members) (.set members')
  | map {entries middle entries' : List (Scalar × Tree)} (perm : entries.Perm middle)
      (length : middle.length = entries'.length) (keys : ∀ pair ∈ middle.zip entries', pair.1.1 = pair.2.1)
      (parts : ∀ pair ∈ middle.zip entries',
        Shuffled (shape.bind (Shape.entry? pair.1.1.text)) pair.1.2 pair.2.2) :
      Shuffled shape (.map mark entries) (.map mark' entries')

theorem Shuffled.of_perm {entries entries' : List (Scalar × Tree)} (perm : entries.Perm entries') :
    Shuffled shape (.map mark entries) (.map mark' entries') :=
  .map perm rfl (fun pair beside => congrArg Prod.fst (eq_of_mem_zip_self pair beside))
    fun pair beside => eq_of_mem_zip_self pair beside ▸ .same _

theorem Shuffled.eq_of_scalar {value : Scalar} (shuffled : Shuffled shape (.scalar value) tree') :
    tree' = .scalar value := by
  cases shuffled
  rfl

theorem Shuffled.isNull {tree tree' : Tree} (shuffled : tree.Shuffled shape tree') :
    tree'.isNull = tree.isNull := by
  cases shuffled <;> rfl

end Tree

namespace Decode

open Walk (Mirrors)

/-- The order of a tree matters for the order of what is read from it only. -/
def Orderless (shape : Shape) : Prop :=
  ∀ tree tree' path, tree.Keyed → tree.Shuffled (some shape) tree' →
    Mirrors Value.Shuffled (reader shape tree path) (reader shape tree' path)

section scalars

/-- A shape is orderless if it is read from nothing that has an order. -/
theorem orderless_of_same {shape : Shape}
    (same : ∀ tree tree' path, tree.Shuffled (some shape) tree' → (reader shape tree path).Completes →
      tree' = tree) : Orderless shape := by
  intro tree tree' path _ shuffled value findings built
  rw [same tree tree' path shuffled ⟨value, findings, built⟩]
  exact ⟨value, findings, built, .same value, .refl findings⟩

theorem orderless_of_scalar {shape : Shape}
    (scalar : ∀ tree path, (reader shape tree path).Completes → ∃ value, tree = .scalar value) :
    Orderless shape := by
  refine orderless_of_same fun tree tree' path shuffled completes => ?_
  obtain ⟨value, rfl⟩ := scalar tree path completes
  exact shuffled.eq_of_scalar

theorem orderless_number {shape : Shape} (plain : shape = .int ∨ shape = .float ∨ shape = .bool) :
    Orderless shape := by
  refine orderless_of_scalar fun tree path completes => ?_
  obtain ⟨value, findings, built⟩ := completes
  cases tree with
  | scalar value => exact ⟨value, rfl⟩
  | _ => rcases plain with rfl | rfl | rfl <;> cases built

/-- No collection has the value of a member that is a text. -/
theorem orderless_enumeration {type : Enumeration}
    (texts : ∀ member ∈ type.members, member.2.isTextKey = true) : Orderless (.enumeration type) := by
  have absent {value : Value} (other : ∀ text, (Value.str text).eqv value = false) :
      type.withValue? value = none := by
    refine Option.map_eq_none_iff.mpr (List.find?_eq_none.mpr fun member canonical => ?_)
    obtain ⟨text, same⟩ := Value.exists_text_of_isTextKey (texts member (type.canonical_subset canonical))
    simp [same, other]
  refine orderless_of_scalar fun tree path completes => ?_
  obtain ⟨value, findings, built⟩ := completes
  cases tree with
  | scalar value => exact ⟨value, rfl⟩
  | _ =>
    rw [reader, orNull_of_present rfl] at built
    simp only [readMember] at built
    rw [absent (by simp [Tree.toValue, Value.eqv, Value.alike])] at built
    cases built

end scalars

section texts

variable {tree tree' : Tree} {path : Str} {value : Value} {findings : List Finding}

/-- Of what is read as a text nothing can be shuffled. -/
theorem eq_of_word? (shuffled : tree.Shuffled (some .str) tree') (read : (word? tree).isSome = true) :
    tree' = tree := by
  cases shuffled with
  | same => rfl
  | tuple unwritten => exact absurd rfl unwritten
  | seq => cases read
  | map => cases read

theorem orderless_str : Orderless .str := by
  refine orderless_of_same fun tree tree' path shuffled completes => ?_
  obtain ⟨value, findings, built⟩ := completes
  obtain ⟨read, -⟩ := reader_str_eq_built_iff.mp built
  exact eq_of_word? shuffled (Option.isSome_iff_exists.mpr ⟨value, read⟩)

end texts

section containers

variable {shape : Shape}

theorem mirrors_items (orderless : Orderless shape) {items items' : List Tree}
    (keyed : ∀ item ∈ items, item.Keyed) (length : items.length = items'.length)
    (parts : ∀ pair ∈ items.zip items', pair.1.Shuffled (some shape) pair.2) (path : Str) :
    Mirrors (List.Forall₂ Value.Shuffled) (readItems (reader shape) path 0 items)
      (readItems (reader shape) path 0 items') := by
  rw [readItems_eq, readItems_eq]
  have beside : List.Forall₂ (fun item item' => item.Keyed ∧ item.Shuffled (some shape) item') items
      items' :=
    forall₂_of_zip length fun pair listed => ⟨keyed pair.1 (List.of_mem_zip listed).1, parts pair listed⟩
  refine Walk.mirrors_mapM ((forall₂_zipIdx beside 0).imp fun item item' both => ?_)
  obtain ⟨⟨keyed, shuffled⟩, index⟩ := both
  rw [index]
  exact orderless item.1 item'.1 _ keyed shuffled

theorem orderless_list (orderless : Orderless shape) : Orderless (.list shape) := by
  intro tree tree' path keyed shuffled
  cases shuffled with
  | same => exact Walk.mirrors_self .same _
  | tuple => exact Walk.mirrors_stopped _ _
  | map => exact Walk.mirrors_stopped _ _
  | seq length parts =>
    cases keyed with
    | seq items =>
      rw [reader, orNull_of_present rfl, orNull_of_present rfl]
      exact (mirrors_items orderless items length parts path).map fun values values' similar =>
        .seq similar.length_eq (forall_zip_of_forall₂ similar)

theorem mirrors_members {items items' : List Tree} (perm : items.Perm items') (path : Str) :
    Mirrors Value.Shuffled
      (readMembers (reader .str) path 0 [] items >>= fun members => pure (.set .concurrent members))
      (readMembers (reader .str) path 0 [] items' >>= fun members => pure (.set .concurrent members)) := by
  intro value findings built
  obtain ⟨members, all, rfl⟩ := Walk.map_eq_built_iff.mp built
  obtain ⟨words, rfl, rfl⟩ := readMembers_str_eq_built_iff.mp all
  have words' : ∀ item ∈ items', (word? item).isSome = true := fun item listed =>
    words item (perm.mem_iff.mpr listed)
  have lawful : ∀ a ∈ items.filterMap word?, ∀ b ∈ items.filterMap word?, a.same b = true ↔ a = b :=
    Value.lawful_of_named named_of_words
  exact ⟨_, [], Walk.map_eq_built_iff.mpr ⟨_, readMembers_str_eq_built_iff.mpr ⟨words', rfl, rfl⟩, rfl⟩,
    .set (named_of_readMembers all) (Members.ofList_perm lawful (perm.filterMap word?)), .refl []⟩

theorem orderless_set : Orderless (.set .str) := by
  intro tree tree' path keyed shuffled
  have follows {items middle items' : List Tree} (perm : items.Perm middle)
      (length : middle.length = items'.length)
      (parts : ∀ pair ∈ middle.zip items', pair.1.Shuffled (some .str) pair.2) :
      Mirrors Value.Shuffled
        (readMembers (reader .str) path 0 [] items >>= fun members => pure (.set .concurrent members))
        (readMembers (reader .str) path 0 [] items' >>= fun members =>
          pure (.set .concurrent members)) := by
    -- Items that are read as texts are the same nodes afterwards, so they only change places.
    intro value findings built
    obtain ⟨members, all, -⟩ := Walk.map_eq_built_iff.mp built
    have words := (readMembers_str_eq_built_iff.mp all).1
    have same : middle.map id = items'.map id := map_eq_of_forall₂ <| forall₂_of_zip length
      fun pair beside => (eq_of_word? (parts pair beside)
        (words pair.1 (perm.mem_iff.mpr (List.of_mem_zip beside).1))).symm
    rw [List.map_id, List.map_id] at same
    exact mirrors_members (same ▸ perm) path value findings built
  cases shuffled with
  | same => exact Walk.mirrors_self .same _
  | tuple => exact Walk.mirrors_stopped _ _
  | map => exact Walk.mirrors_stopped _ _
  | seq length parts =>
    rw [reader, orNull_of_present rfl, orNull_of_present rfl]
    exact follows (.refl _) length parts
  | gathered perm length parts =>
    rw [reader, orNull_of_present rfl, orNull_of_present rfl]
    exact follows perm length parts
  | members perm =>
    rw [reader, orNull_of_present rfl, orNull_of_present rfl]
    exact mirrors_members (perm.map .scalar) path

theorem orderless_map (orderless : Orderless shape) : Orderless (.map .str shape) := by
  intro tree tree' path keyed shuffled
  cases shuffled with
  | same => exact Walk.mirrors_self .same _
  | tuple => exact Walk.mirrors_stopped _ _
  | seq => exact Walk.mirrors_stopped _ _
  | @map _ _ _ entries middle entries' perm length keys parts =>
    cases keyed with
    | map titled nodes =>
      have titles : middle.map (·.1) = entries'.map (·.1) := map_eq_of_forall₂ (forall₂_of_zip length keys)
      have titled' : Titled entries' := titled.of_perm (titles ▸ perm.map (·.1))
      rw [reader, orNull_of_present rfl, orNull_of_present rfl]
      simp only [readEntries_titled titled, readEntries_titled titled']
      -- First the entries change places, then the node of each one is shuffled where it stands.
      have renewed : List.Forall₂ (fun entry entry' : Scalar × Tree =>
          Mirrors (fun a b : Value × Value => a.1 = b.1 ∧ a.2.Shuffled b.2)
            (reader shape entry.2 (join path entry.1.text) >>= fun value =>
              pure (Value.scalar entry.1, value))
            (reader shape entry'.2 (join path entry'.1.text) >>= fun value =>
              pure (Value.scalar entry'.1, value))) middle entries' := by
        refine forall₂_of_zip length fun pair beside => ?_
        have own := nodes pair.1 (perm.mem_iff.mpr (List.of_mem_zip beside).1)
        rw [← keys pair beside]
        exact (orderless _ _ _ own (parts pair beside)).map fun value value' similar => ⟨rfl, similar⟩
      refine (((Walk.mirrors_mapM_perm perm).trans (Walk.mirrors_mapM renewed)).knowing
        fun values findings built => keys_of_mapM titled built).map fun values values' both => ?_
      obtain ⟨⟨texts, distinct⟩, ordered, reordered, similar⟩ := both
      have beside := forall_zip_of_forall₂ similar
      exact .dict texts distinct reordered similar.length_eq (fun pair listed => (beside pair listed).1)
        fun pair listed => (beside pair listed).2

end containers

section documents

variable {settings : List (Setting Shape)}

theorem mirrors_readSetting {setting : Setting Shape} (orderless : Orderless setting.shape)
    {node node' : Tree} (keyed : node.Keyed) (shuffled : node.Shuffled (some setting.shape) node')
    (path : Str) : Mirrors Value.Shuffled (readSetting setting (reader setting.shape) node path)
      (readSetting setting (reader setting.shape) node' path) := by
  rw [readSetting_eq, readSetting_eq, shuffled.isNull]
  split
  · exact Walk.mirrors_self .same _
  · exact orderless node node' path keyed shuffled

theorem mirrors_readEntry (orderless : ∀ setting ∈ settings, Orderless setting.shape) {key : Scalar}
    {node node' : Tree} (keyed : node.Keyed)
    (shuffled : node.Shuffled ((settings.find? (·.name == key.text)).map (·.shape)) node')
    (path : Str) :
    Mirrors (Option.Rel fun a b : Str × Value => a.1 = b.1 ∧ a.2.Shuffled b.2)
      (readEntry settings path (key, node)) (readEntry settings path (key, node')) := by
  cases writable : key.writable with
  | false =>
    rw [readEntry, nameOf_unwritable writable]
    exact Walk.mirrors_stopped _ _
  | true =>
    rw [readEntry, readEntry, nameOf_writable writable, pure_bind, pure_bind]
    cases found : settings.find? (·.name == key.text) with
    | none =>
      have noted : Mirrors Eq (Walk.note (.unknown (join path key.text))) _ :=
        Walk.mirrors_self (fun _ => rfl) _
      exact noted.map fun _ _ _ => .none
    | some setting =>
      rw [found] at shuffled
      have member := List.mem_of_find?_eq_some found
      exact (mirrors_readSetting (orderless setting member) keyed shuffled _).map
        fun value value' similar => .some ⟨rfl, similar⟩

/-- Entries with different keys give values to different settings. -/
theorem apart_of_mapM {entries : List (Scalar × Tree)} (titled : Titled entries)
    {given : List (Option (Str × Value))}
    (built : entries.mapM (readEntry settings path) = .built given findings) :
    ∀ first ∈ given, ∀ second ∈ given, first ≠ second → ∀ a ∈ first, ∀ b ∈ second, a.1 ≠ b.1 := by
  intro first listed second listed' different a ours b theirs same
  obtain ⟨entry, member, _, here⟩ := Walk.exists_of_mem_mapM built first listed
  obtain ⟨entry', member', _, there⟩ := Walk.exists_of_mem_mapM built second listed'
  obtain ⟨text, textual⟩ := titled.texts entry member
  obtain ⟨text', textual'⟩ := titled.texts entry' member'
  have titles : entry.1.text = entry'.1.text :=
    (name_of_readEntry here a ours).symm.trans (same.trans (name_of_readEntry there b theirs))
  have keys : entry.1 = entry'.1 := by
    rw [textual, textual'] at titles ⊢
    exact congrArg Scalar.str titles
  obtain rfl := List.inj_on_of_nodup_map titled.distinct member member' keys
  exact different (Walk.built.inj (here.symm.trans there)).1

theorem orderless_document (orderless : ∀ setting ∈ settings, Orderless setting.shape) :
    Orderless (.document name settings) := by
  intro tree tree' path keyed shuffled
  cases shuffled with
  | same => exact Walk.mirrors_self .same _
  | tuple => exact Walk.mirrors_stopped _ _
  | seq => exact Walk.mirrors_stopped _ _
  | @map _ _ _ entries middle entries' perm length keys parts =>
    cases keyed with
    | map titled nodes =>
      rw [reader, orNull_of_present rfl, orNull_of_present rfl]
      simp only [readSettings_eq, bind_assoc, pure_bind]
      have renewed : List.Forall₂ (fun entry entry' : Scalar × Tree =>
          Mirrors (Option.Rel fun a b : Str × Value => a.1 = b.1 ∧ a.2.Shuffled b.2)
            (readEntry settings path entry) (readEntry settings path entry')) middle entries' := by
        refine forall₂_of_zip length fun pair beside => ?_
        have own := nodes pair.1 (perm.mem_iff.mpr (List.of_mem_zip beside).1)
        have same : pair.2 = (pair.1.1, pair.2.2) := Prod.ext (keys pair beside).symm rfl
        rw [same]
        exact mirrors_readEntry orderless own (parts pair beside) path
      refine (((Walk.mirrors_mapM_perm perm).trans (Walk.mirrors_mapM renewed)).knowing
        fun given findings built => apart_of_mapM titled built).map fun given given' both => ?_
      obtain ⟨apart, ordered, reordered, each⟩ := both
      -- Entries give values to different slots, so their order does not show in the slots.
      have fresh : List.Forall₂ (Slot.Matches Value.Shuffled) (Schema.newSlots settings)
          (Schema.newSlots settings) := List.forall₂_same.mpr fun slot _ => ⟨rfl, rfl, .same _⟩
      have similar := Slot.forall₂_giveAll each fresh
      rw [Slot.giveAll_eq_of_perm reordered apart]
      have beside := forall_zip_of_forall₂ similar
      exact .document similar.length_eq
        (fun pair listed => ⟨(beside pair listed).name, (beside pair listed).explicit⟩)
        fun pair listed => (beside pair listed).value

end documents

/-- Under a worded shape the order of a tree matters for the order of what is read only. -/
theorem orderless_of_worded (worded : Shape.Worded shape) : Orderless shape := by
  induction worded with
  | str => exact orderless_str
  | int => exact orderless_number (.inl rfl)
  | float => exact orderless_number (.inr (.inl rfl))
  | bool => exact orderless_number (.inr (.inr rfl))
  | enumeration texts => exact orderless_enumeration texts
  | list element ih => exact orderless_list ih
  | set => exact orderless_set
  | map value ih => exact orderless_map ih
  | document shapes ih => exact orderless_document ih

theorem mirrors_rootWalk {schema : Schema} (worded : schema.shape.Worded) {tree tree' : Tree}
    (keyed : tree.Keyed) (shuffled : tree.Shuffled (some schema.shape) tree') :
    Mirrors Value.Shuffled (rootWalk schema tree) (rootWalk schema tree') := by
  rw [rootWalk, rootWalk, shuffled.isNull]
  split
  · exact Walk.mirrors_self .same _
  · exact orderless_of_worded worded tree tree' "" keyed shuffled

/-- Trees that are shuffled under the shape of a node stand for documents that are shuffled. The findings
are the same. The documents are equal if nothing in the source fails to be a number, and they have one
fingerprint if nothing in it is in the way of one. -/
theorem ofTree_shuffled {tree tree' : Tree} {result : Result} (keyed : tree.Keyed)
    (shuffled : tree.Shuffled (some NodeSchema.nodeConfig.shape) tree')
    (read : ofTree NodeSchema.nodeConfig source tree = .ok result) (source' : String) :
    ∃ result', ofTree NodeSchema.nodeConfig source' tree' = .ok result' ∧
      result.report.unknown.Perm result'.report.unknown ∧
      result.report.nullified.Perm result'.report.nullified ∧
      result.document.Shuffled result'.document ∧
      (tree.toValue.Definite → result.document.eqv result'.document = true) ∧
      result.document.fingerprint = result'.document.fingerprint ∧
      (tree.toValue.Unobstructed → ∃ print, result.document.fingerprint = .ok print) := by
  have drawn := drawn_of_ofTree NodeSchema.worded_nodeConfig NodeSchema.settled_nodeConfig keyed read
  obtain ⟨findings, walk, listed⟩ := ofTree_eq_ok_iff.mp read
  obtain ⟨document', findings', walk', similar, perm⟩ :=
    mirrors_rootWalk NodeSchema.worded_nodeConfig keyed shuffled _ _ walk
  have read' : ofTree NodeSchema.nodeConfig source' tree' = .ok ⟨document', .ofFindings findings'⟩ :=
    ofTree_eq_ok_iff.mpr ⟨findings', walk', rfl⟩
  obtain ⟨unknown, nullified⟩ := Report.ofFindings_perm perm
  obtain ⟨slots, ofTree, -⟩ := ofTree_document read
  obtain ⟨slots', ofTree', -⟩ := ofTree_document read'
  have named := named_of_drawn drawn
  refine ⟨_, read', listed ▸ unknown, listed ▸ nullified, similar,
    fun definite => similar.alike (definite_of_drawn drawn definite) false, ?_, fun free => ?_⟩
  · rw [ofTree] at similar ⊢
    obtain rfl : document' = _ := ofTree'
    exact similar.fingerprint
  · have free := unobstructed_of_drawn drawn free
    rw [ofTree] at named free ⊢
    exact (Value.exists_fingerprint_iff named).mpr free

/-- Entries at all depths and the items of a set in one order and in another one, with a setting too many
and one that is null. -/
def orderedTree : Tree :=
  .map none [(.str "rack", .map none [(.str "row", .scalar (.int 1)), (.str "slot", .scalar (.int 2))]),
    (.str "hinted_handoff_disabled_datacenters", .seq none [.scalar (.str "east"), .scalar (.int 7)]),
    (.str "seed_provider", .map none [(.str "parameters",
      .map none [(.str "seeds", .scalar (.str "10.0.0.1")), (.str "zone", .scalar (.int 1))])]),
    (.str "num_tokens", .scalar .null)]

def reorderedTree : Tree :=
  .map none [(.str "num_tokens", .scalar .null),
    (.str "seed_provider", .map none [(.str "parameters",
      .map none [(.str "zone", .scalar (.int 1)), (.str "seeds", .scalar (.str "10.0.0.1"))])]),
    (.str "hinted_handoff_disabled_datacenters", .seq none [.scalar (.int 7), .scalar (.str "east")]),
    (.str "rack", .map none [(.str "slot", .scalar (.int 2)), (.str "row", .scalar (.int 1))])]

theorem ofTree_shuffled_orderedTree :
    ∃ result result', ofTree NodeSchema.nodeConfig "node.yaml" orderedTree = .ok result ∧
      ofTree NodeSchema.nodeConfig "node.yaml" reorderedTree = .ok result' ∧
      result.document.eqv result'.document = true ∧
      ∃ print, result.document.fingerprint = .ok print ∧ result'.document.fingerprint = .ok print := by
  have keyed : orderedTree.Keyed := by
    refine .map ⟨by simp, by decide⟩ ?_
    simp only [List.forall_mem_cons]
    refine ⟨.map ⟨by simp, by decide⟩ ?_, .seq ?_, .map ⟨by simp, by decide⟩ ?_, .scalar _, List.forall_mem_nil _⟩
    · simp only [List.forall_mem_cons]
      exact ⟨.scalar _, .scalar _, List.forall_mem_nil _⟩
    · simp only [List.forall_mem_cons]
      exact ⟨.scalar _, .scalar _, List.forall_mem_nil _⟩
    · refine List.forall_mem_singleton.mpr (.map ⟨by simp, by decide⟩ ?_)
      simp only [List.forall_mem_cons]
      exact ⟨.scalar _, .scalar _, List.forall_mem_nil _⟩
  have shuffled : orderedTree.Shuffled (some NodeSchema.nodeConfig.shape) reorderedTree := by
    have datacenters : (some NodeSchema.nodeConfig.shape).bind
        (Shape.entry? "hinted_handoff_disabled_datacenters") = some (.set .str) := by rfl
    refine .map (List.reverse_perm _).symm rfl (by simp) ?_
    simp only [List.reverse_cons, List.reverse_nil, List.nil_append, List.cons_append,
      List.zip_cons_cons, List.zip_nil_right, List.forall_mem_cons]
    refine ⟨.same _, .map (.refl _) rfl (by simp) (List.forall_mem_singleton.mpr (.of_perm (.swap ..))),
      ?_, .of_perm (.swap ..), List.forall_mem_nil _⟩
    rw [show (Scalar.str "hinted_handoff_disabled_datacenters").text =
      "hinted_handoff_disabled_datacenters" from rfl, datacenters]
    exact .gathered (.swap ..) rfl fun pair beside => eq_of_mem_zip_self pair beside ▸ .same _
  have definite : orderedTree.toValue.Definite := by decide +kernel
  have free : orderedTree.toValue.Unobstructed := by
    unfold Value.Unobstructed
    decide +kernel
  have reads : (ofTree NodeSchema.nodeConfig "node.yaml" orderedTree).toOption.isSome = true := by
    decide +kernel
  obtain ⟨result, read⟩ := exists_ok_of_isSome reads
  obtain ⟨result', read', -, -, -, equal, print, written⟩ := ofTree_shuffled keyed shuffled read "node.yaml"
  obtain ⟨own, same⟩ := written free
  exact ⟨result, result', read, read', equal definite, own, same, print.symm.trans same⟩

/-- A text that shows a dictionary inside a tuple. -/
def revealingTree (entries : List (Scalar × Tree)) : Tree :=
  .map none [(.str "data_file_directories",
    .seq none [.tuple [.scalar (.str "a"), .map none entries]])]

def shownEntries : List (Scalar × Tree) :=
  [(.str "x", .scalar (.str "1")), (.str "y", .scalar (.str "2"))]

/-- A tuple that is read as a text shows the order of its mappings, which no shape of theirs forgets. -/
theorem revealingTree_shows_order :
    (revealingTree shownEntries).Keyed ∧
      (revealingTree shownEntries).Shuffled none (revealingTree shownEntries.reverse) ∧
      ∃ result result', ofTree NodeSchema.nodeConfig "node.yaml" (revealingTree shownEntries) = .ok result ∧
        ofTree NodeSchema.nodeConfig "node.yaml" (revealingTree shownEntries.reverse) = .ok result' ∧
        result.document.eqv result'.document = false ∧
        result.document.fingerprintText ≠ result'.document.fingerprintText := by
  have checked : (ofTree NodeSchema.nodeConfig "node.yaml" (revealingTree shownEntries)).toOption.any
      (fun result => (ofTree NodeSchema.nodeConfig "node.yaml"
        (revealingTree shownEntries.reverse)).toOption.any fun result' =>
          decide (result.document.eqv result'.document = false ∧
            result.document.fingerprintText.toOption ≠ result'.document.fingerprintText.toOption)) =
        true := by
    decide +kernel
  have keyed : (revealingTree shownEntries).Keyed := by
    refine .map ⟨by simp, by decide⟩ (List.forall_mem_singleton.mpr (.seq
      (List.forall_mem_singleton.mpr (.tuple ?_))))
    simp only [List.forall_mem_cons]
    refine ⟨.scalar _, .map ⟨by simp [shownEntries], by decide⟩ ?_, List.forall_mem_nil _⟩
    simp only [shownEntries, List.forall_mem_cons]
    exact ⟨.scalar _, .scalar _, List.forall_mem_nil _⟩
  have shuffled : (revealingTree shownEntries).Shuffled none (revealingTree shownEntries.reverse) := by
    refine .map (.refl _) rfl (by simp) (List.forall_mem_singleton.mpr (.seq rfl
      (List.forall_mem_singleton.mpr (.tuple nofun rfl ?_))))
    simp only [List.zip_cons_cons, List.zip_nil_right, List.forall_mem_cons]
    exact ⟨.same _, .of_perm (List.reverse_perm _).symm, List.forall_mem_nil _⟩
  obtain ⟨result, found, checked⟩ := (Option.any_eq_true ..).mp checked
  obtain ⟨result', found', fit⟩ := (Option.any_eq_true ..).mp checked
  obtain ⟨different, texts⟩ := of_decide_eq_true fit
  exact ⟨keyed, shuffled, result, result', toOption_eq_some_iff.mp found, toOption_eq_some_iff.mp found',
    different, fun same => texts (congrArg _ same)⟩

end Decode

end LayeredConfig
