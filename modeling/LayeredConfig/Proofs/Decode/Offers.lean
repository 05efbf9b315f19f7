import LayeredConfig.Proofs.Decode.Trails

/-!
The nodes that a walk holds against a shape, each with its path: the root, the values of known settings,
the parts of sequences and sets, and the keys and values of dictionaries. Nothing below an unknown
setting is offered to any shape.
-/

namespace LayeredConfig

/-- The walk over a node at a path, under a shape, offers a node at another path to another shape. -/
inductive Offers : Shape → Tree → Str → Shape → Tree → Str → Prop
  | here : Offers shape node path shape node path
  | setting {settings : List (Setting Shape)} {entries : List (Scalar × Tree)} {known : Setting Shape}
      (entry : (key, child) ∈ entries) (found : settings.find? (·.name == key.text) = some known)
      (deeper : Offers known.shape child (Decode.join path key.text) shape node place) :
      Offers (.document type settings) (.map mark entries) path shape node place
  | item {items : List Tree} (found : items[index]? = some child)
      (deeper : Offers element child (Decode.element path index) shape node place) :
      Offers (.list element) (.seq mark items) path shape node place
  | member {items : List Tree} (parts : Decode.parts? whole = some items)
      (found : items[index]? = some child)
      (deeper : Offers element child (Decode.element path index) shape node place) :
      Offers (.set element) whole path shape node place
  | key {entries : List (Scalar × Tree)} (entry : (key, child) ∈ entries)
      (deeper : Offers keyShape (.scalar key) path shape node place) :
      Offers (.map keyShape valueShape) (.map mark entries) path shape node place
  | value {entries : List (Scalar × Tree)} (entry : (key, child) ∈ entries)
      (deeper : Offers valueShape child (Decode.join path key.text) shape node place) :
      Offers (.map keyShape valueShape) (.map mark entries) path shape node place

namespace Tree

theorem allWritable_iff {items : List Tree} :
    allWritable items = true ↔ ∀ item ∈ items, item.writable = true := by
  induction items with
  | nil => simp [allWritable]
  | cons item items ih => simp [allWritable, ih]

theorem entriesWritable_iff {entries : List (Scalar × Tree)} :
    entriesWritable entries = true ↔
      ∀ entry ∈ entries, entry.1.writable = true ∧ entry.2.writable = true := by
  induction entries with
  | nil => simp [entriesWritable]
  | cons entry entries ih => simp [entriesWritable, ih, and_assoc]

/-- The parts of a sequence or of a set can be written if the whole can. -/
theorem writable_of_parts? {whole item : Tree} {items : List Tree} (parts : Decode.parts? whole = some items)
    (member : item ∈ items) (writable : whole.writable = true) : item.writable = true := by
  cases whole with
  | seq mark parts' =>
    obtain rfl := Option.some.inj parts
    exact allWritable_iff.mp writable item member
  | set members =>
    obtain rfl := Option.some.inj parts
    obtain ⟨value, listed, rfl⟩ := List.mem_map.mp member
    exact List.all_eq_true.mp writable value listed
  | _ => cases parts

end Tree

theorem Offers.writable (offers : Offers whole root start shape node path)
    (writable : root.writable = true) : node.writable = true := by
  induction offers with
  | here => exact writable
  | setting entry found deeper ih => exact ih (Tree.entriesWritable_iff.mp writable _ entry).2
  | item found deeper ih => exact ih (Tree.allWritable_iff.mp writable _ (List.mem_of_getElem? found))
  | member parts found deeper ih =>
    exact ih (Tree.writable_of_parts? parts (List.mem_of_getElem? found) writable)
  | key entry deeper ih => exact ih (Tree.entriesWritable_iff.mp writable _ entry).1
  | value entry deeper ih => exact ih (Tree.entriesWritable_iff.mp writable _ entry).2

namespace Decode

theorem form_mem_leaf {whole : Shape} (leaf : visits whole = visiting whole fun _ _ => [])
    (bare : ∀ node path, Offers whole root start shape node path →
      shape = whole ∧ node = root ∧ path = start) :
    .form shape path node ∈ visits whole root start ↔
      Offers whole root start shape node path ∧ node.isNull = false := by
  rw [leaf, mem_visiting_iff]
  constructor
  · intro visited
    obtain ⟨present, same | absent⟩ := visited
    · cases same
      exact ⟨.here, present⟩
    · cases absent
  · intro offered
    obtain ⟨offers, present⟩ := offered
    obtain ⟨rfl, rfl, rfl⟩ := bare _ _ offers
    exact ⟨present, .inl rfl⟩

/-- A walk looks at the form of exactly the nodes that are offered to a shape, null aside. -/
theorem form_mem_visits {whole : Shape} {root : Tree} {start : Str} :
    .form shape path node ∈ visits whole root start ↔
      Offers whole root start shape node path ∧ node.isNull = false := by
  induction whole generalizing root start with
  | str => exact form_mem_leaf rfl fun _ _ offers => by cases offers; simp
  | int => exact form_mem_leaf rfl fun _ _ offers => by cases offers; simp
  | float => exact form_mem_leaf rfl fun _ _ offers => by cases offers; simp
  | bool => exact form_mem_leaf rfl fun _ _ offers => by cases offers; simp
  | native type => exact form_mem_leaf rfl fun _ _ offers => by cases offers; simp
  | enumeration type => exact form_mem_leaf rfl fun _ _ offers => by cases offers; simp
  | list element ih =>
    rw [visits, mem_visiting_iff]
    constructor
    · intro visited
      obtain ⟨present, same | below⟩ := visited
      · cases same
        exact ⟨.here, present⟩
      · split at below
        · obtain ⟨index, item, found, visited⟩ := mem_itemVisits.mp below
          rw [Nat.zero_add] at visited
          exact (ih.mp visited).imp_left (.item found)
        · cases below
    · intro offered
      obtain ⟨offers, present⟩ := offered
      cases offers with
      | here => exact ⟨present, .inl rfl⟩
      | item found deeper =>
        refine ⟨rfl, .inr (mem_itemVisits.mpr ⟨_, _, found, ?_⟩)⟩
        rw [Nat.zero_add]
        exact ih.mpr ⟨deeper, present⟩
  | set element ih =>
    rw [visits, mem_visiting_iff]
    constructor
    · intro visited
      obtain ⟨present, same | below⟩ := visited
      · cases same
        exact ⟨.here, present⟩
      · split at below
        · next items parts =>
          rcases mem_memberVisits_iff.mp below with item | ⟨_, _, impossible⟩
          · obtain ⟨index, item, found, visited⟩ := mem_itemVisits.mp item
            rw [Nat.zero_add] at visited
            exact (ih.mp visited).imp_left (.member parts found)
          · cases impossible
        · cases below
    · intro offered
      obtain ⟨offers, present⟩ := offered
      cases offers with
      | here => exact ⟨present, .inl rfl⟩
      | member parts found deeper =>
        simp only [parts]
        refine ⟨isNull_of_parts? parts, .inr (mem_memberVisits found ?_)⟩
        rw [Nat.zero_add]
        exact ih.mpr ⟨deeper, present⟩
  | map keyShape valueShape ihKey ih =>
    rw [visits, mem_visiting_iff]
    constructor
    · intro visited
      obtain ⟨present, same | below⟩ := visited
      · cases same
        exact ⟨.here, present⟩
      · split at below
        · obtain ⟨label, child, member, ofKey | impossible | ofValue | impossible⟩ :=
            mem_pairVisits_iff.mp below
          · exact (ihKey.mp ofKey).imp_left (.key member)
          · cases impossible
          · exact (ih.mp ofValue).imp_left (.value member)
          · cases impossible
        · cases below
    · intro offered
      obtain ⟨offers, present⟩ := offered
      cases offers with
      | here => exact ⟨present, .inl rfl⟩
      | key entry deeper =>
        exact ⟨rfl, .inr (mem_pairVisits_iff.mpr ⟨_, _, entry, .inl (ihKey.mpr ⟨deeper, present⟩)⟩)⟩
      | value entry deeper =>
        exact ⟨rfl, .inr (mem_pairVisits entry (ih.mpr ⟨deeper, present⟩))⟩
  | document type settings ih =>
    rw [visits, mem_visiting_iff]
    constructor
    · intro visited
      obtain ⟨present, same | below⟩ := visited
      · cases same
        exact ⟨.here, present⟩
      · split at below
        · obtain ⟨key, child, member, impossible | ⟨known, found, visited⟩⟩ := mem_entryVisits.mp below
          · cases impossible
          · exact ((ih known (List.mem_of_find?_eq_some found)).mp visited).imp_left
              (.setting member found)
        · cases below
    · intro offered
      obtain ⟨offers, present⟩ := offered
      cases offers with
      | here => exact ⟨present, .inl rfl⟩
      | setting entry found deeper =>
        refine ⟨rfl, .inr (mem_entryVisits.mpr ⟨_, _, entry, .inr ⟨_, found, ?_⟩⟩)⟩
        exact (ih _ (List.mem_of_find?_eq_some found)).mpr ⟨deeper, present⟩

end Decode

end LayeredConfig
