import LayeredConfig.Fingerprint
import LayeredConfig.Proofs.Container.Pairing
import LayeredConfig.Proofs.Results
import LayeredConfig.Proofs.Schema.Conformity

namespace LayeredConfig

theorem Occurs.trans {part between whole : Value} (inner : Occurs part between)
    (outer : Occurs between whole) : Occurs part whole := by
  induction outer with
  | here => exact inner
  | item member _ ih => exact .item member ih
  | member member _ ih => exact .member member ih
  | key member _ ih => exact .key member ih
  | entry member _ ih => exact .entry member ih
  | slot member _ ih => exact .slot member ih

namespace Value

/-- Induction on values; a collection needs its parts, and a document the values of its slots. -/
@[elab_as_elim, induction_eliminator]
theorem induction {motive : Value → Prop} (scalar : ∀ value, motive (.scalar value))
    (member : ∀ enumeration name value, motive value → motive (.member enumeration name value))
    (seq : ∀ kind items, (∀ item ∈ items, motive item) → motive (.seq kind items))
    (set : ∀ kind members, (∀ member ∈ members, motive member) → motive (.set kind members))
    (dict : ∀ kind entries, (∀ entry ∈ entries, motive entry.1) →
      (∀ entry ∈ entries, motive entry.2) → motive (.dict kind entries))
    (document : ∀ type slots, (∀ slot ∈ slots, motive slot.value) → motive (.document type slots))
    (value : Value) : motive value :=
  @Value.rec motive (fun values => ∀ value ∈ values, motive value)
    (fun entries => (∀ entry ∈ entries, motive entry.1) ∧ ∀ entry ∈ entries, motive entry.2)
    (fun slots => ∀ slot ∈ slots, motive slot.value)
    (fun entry => motive entry.1 ∧ motive entry.2) (fun slot => motive slot.value)
    scalar member seq set (fun kind entries parts => dict kind entries parts.1 parts.2) document
    nofun (fun _ _ head tail => List.forall_mem_cons.mpr ⟨head, tail⟩)
    ⟨nofun, nofun⟩ (fun _ _ head tail => ⟨List.forall_mem_cons.mpr ⟨head.1, tail.1⟩,
      List.forall_mem_cons.mpr ⟨head.2, tail.2⟩⟩)
    nofun (fun _ _ head tail => List.forall_mem_cons.mpr ⟨head, tail⟩)
    (fun _ _ key value => ⟨key, value⟩) (fun _ _ _ value => value) value

section parts

variable {kind : SeqKind} {items : List Value} {set : SetKind} {members : List Value}
  {dict : DictKind} {entries : List (Value × Value)} {slots : List (Slot Value)}

theorem forall_occurs_seq {property : Value → Prop} :
    (∀ part, Occurs part (.seq kind items) → property part) ↔
      property (.seq kind items) ∧ ∀ item ∈ items, ∀ part, Occurs part item → property part := by
  constructor
  · exact fun all => ⟨all _ .here, fun item member part occurs => all part (.item member occurs)⟩
  · rintro ⟨here, inside⟩ part occurs
    cases occurs with
    | here => exact here
    | item member deeper => exact inside _ member part deeper

theorem forall_occurs_set {property : Value → Prop} :
    (∀ part, Occurs part (.set set members) → property part) ↔
      property (.set set members) ∧
        ∀ member ∈ members, ∀ part, Occurs part member → property part := by
  constructor
  · exact fun all => ⟨all _ .here, fun item member part occurs => all part (.member member occurs)⟩
  · rintro ⟨here, inside⟩ part occurs
    cases occurs with
    | here => exact here
    | member member deeper => exact inside _ member part deeper

theorem forall_occurs_dict {property : Value → Prop} :
    (∀ part, Occurs part (.dict dict entries) → property part) ↔
      property (.dict dict entries) ∧
        (∀ entry ∈ entries, ∀ part, Occurs part entry.1 → property part) ∧
          ∀ entry ∈ entries, ∀ part, Occurs part entry.2 → property part := by
  constructor
  · exact fun all => ⟨all _ .here, fun entry member part occurs => all part (.key member occurs),
      fun entry member part occurs => all part (.entry member occurs)⟩
  · rintro ⟨here, keys, values⟩ part occurs
    cases occurs with
    | here => exact here
    | key member deeper => exact keys _ member part deeper
    | entry member deeper => exact values _ member part deeper

theorem forall_occurs_document {property : Value → Prop} :
    (∀ part, Occurs part (.document type slots) → property part) ↔
      property (.document type slots) ∧
        ∀ slot ∈ slots, ∀ part, Occurs part slot.value → property part := by
  constructor
  · exact fun all => ⟨all _ .here, fun slot member part occurs => all part (.slot member occurs)⟩
  · rintro ⟨here, inside⟩ part occurs
    cases occurs with
    | here => exact here
    | slot member deeper => exact inside _ member part deeper

end parts

theorem forall_occurs_scalar {property : Value → Prop} {value : Scalar} :
    (∀ part, Occurs part (.scalar value) → property part) ↔ property (.scalar value) := by
  constructor
  · exact fun all => all _ .here
  · intro here part occurs
    cases occurs
    exact here

theorem forall_occurs_member {property : Value → Prop} :
    (∀ part, Occurs part (.member type name value) → property part) ↔
      property (.member type name value) := by
  constructor
  · exact fun all => all _ .here
  · intro here part occurs
    cases occurs
    exact here

theorem allEverywhere_iff {test : Value → Bool} {values : List Value} :
    allEverywhere test values = true ↔ ∀ value ∈ values, value.everywhere test = true := by
  induction values with
  | nil => simp [allEverywhere]
  | cons value values ih => simp [allEverywhere, ih]

theorem entriesEverywhere_iff {test : Value → Bool} {entries : List (Value × Value)} :
    entriesEverywhere test entries = true ↔ (∀ entry ∈ entries, entry.1.everywhere test = true) ∧
      ∀ entry ∈ entries, entry.2.everywhere test = true := by
  induction entries with
  | nil => simp [entriesEverywhere]
  | cons entry entries ih =>
    simp only [entriesEverywhere, Bool.and_eq_true, ih, List.forall_mem_cons]
    exact and_and_and_comm

theorem slotsEverywhere_iff {test : Value → Bool} {slots : List (Slot Value)} :
    slotsEverywhere test slots = true ↔ ∀ slot ∈ slots, slot.value.everywhere test = true := by
  induction slots with
  | nil => simp [slotsEverywhere]
  | cons slot slots ih => simp [slotsEverywhere, ih]

theorem everywhere_iff {test : Value → Bool} {value : Value} :
    value.everywhere test = true ↔ ∀ part, Occurs part value → test part = true := by
  induction value with
  | scalar value => rw [forall_occurs_scalar, everywhere]
  | member enumeration name value => rw [forall_occurs_member, everywhere]
  | seq kind items ih =>
    rw [forall_occurs_seq, everywhere, Bool.and_eq_true, allEverywhere_iff]
    exact and_congr_right fun _ => forall₂_congr ih
  | set kind members ih =>
    rw [forall_occurs_set, everywhere, Bool.and_eq_true, allEverywhere_iff]
    exact and_congr_right fun _ => forall₂_congr ih
  | dict kind entries ihKeys ihValues =>
    rw [forall_occurs_dict, everywhere, Bool.and_eq_true, entriesEverywhere_iff]
    exact and_congr_right fun _ => and_congr (forall₂_congr ihKeys) (forall₂_congr ihValues)
  | document type slots ih =>
    rw [forall_occurs_document, everywhere, Bool.and_eq_true, slotsEverywhere_iff]
    exact and_congr_right fun _ => forall₂_congr ih

section whole

theorem isWhole_seq (kind : SeqKind) (items : List Value) :
    (seq kind items).isWhole = (items.map isWhole).all id := by
  rw [Bool.eq_iff_iff, isWhole, everywhere, Bool.and_eq_true, allEverywhere_iff]
  simp [isTorn, isWhole]

theorem isWhole_set (kind : SetKind) (members : List Value) :
    (set kind members).isWhole = (members.map isWhole).all id := by
  rw [Bool.eq_iff_iff, isWhole, everywhere, Bool.and_eq_true, allEverywhere_iff]
  simp [isTorn, isWhole]

theorem isWhole_dict (kind : DictKind) (entries : List (Value × Value)) :
    (dict kind entries).isWhole = (entries.map fun entry => entry.1.isWhole && entry.2.isWhole).all id := by
  rw [Bool.eq_iff_iff, isWhole, everywhere, Bool.and_eq_true, entriesEverywhere_iff, ← forall₂_and]
  simp [isTorn, isWhole]

theorem isWhole_document (type : String) (slots : List (Slot Value)) :
    (document type slots).isWhole = (slots.map fun slot => slot.value.isWhole).all id := by
  rw [Bool.eq_iff_iff, isWhole, everywhere, Bool.and_eq_true, slotsEverywhere_iff]
  simp [isTorn, isWhole]

variable {entries middle entries' : List (Value × Value)} {slots slots' : List (Slot Value)}

theorem isWhole_dict_congr (kind kind' : DictKind) (perm : entries.Perm middle)
    (length : middle.length = entries'.length)
    (keys : ∀ pair ∈ middle.zip entries', pair.1.1.isWhole = pair.2.1.isWhole)
    (values : ∀ pair ∈ middle.zip entries', pair.1.2.isWhole = pair.2.2.isWhole) :
    (dict kind entries).isWhole = (dict kind' entries').isWhole := by
  have same : (middle.map fun entry => entry.1.isWhole && entry.2.isWhole) =
      entries'.map fun entry => entry.1.isWhole && entry.2.isWhole :=
    map_eq_of_forall₂ (forall₂_of_zip length fun pair beside => by rw [keys pair beside, values pair beside])
  rw [isWhole_dict, isWhole_dict, ← same, (perm.map _).all_eq]

theorem isWhole_document_congr (type type' : String) (length : slots.length = slots'.length)
    (values : ∀ pair ∈ slots.zip slots', pair.1.value.isWhole = pair.2.value.isWhole) :
    (document type slots).isWhole = (document type' slots').isWhole := by
  have same : (slots.map fun slot => slot.value.isWhole) = slots'.map fun slot => slot.value.isWhole :=
    map_eq_of_forall₂ (forall₂_of_zip length values)
  rw [isWhole_document, isWhole_document, same]

end whole

instance {property : Value → Prop} [DecidablePred property] {value : Value} :
    Decidable (∀ part, Occurs part value → property part) :=
  decidable_of_iff (value.everywhere (fun part => decide (property part)) = true)
    (by simp only [everywhere_iff, decide_eq_true_eq])

theorem allHashable_iff {values : List Value} :
    allHashable values = true ↔ ∀ value ∈ values, value.hashable = true := by
  induction values with
  | nil => simp [allHashable]
  | cons value values ih => simp [allHashable, ih]

theorem plainAll_eq (values : List Value) : plainAll values = values.map toPlain := by
  induction values with
  | nil => rfl
  | cons value values ih => rw [plainAll, ih, List.map_cons]

theorem plainEntries_eq (entries : List (Value × Value)) :
    plainEntries entries = entries.map fun entry => (entry.1, entry.2.toPlain) := by
  induction entries with
  | nil => rfl
  | cons entry entries ih => rw [plainEntries, ih, List.map_cons]

theorem plainSlots_eq (slots : List (Slot Value)) :
    plainSlots slots = slots.map fun slot => (.str slot.name, slot.value.toPlain) := by
  induction slots with
  | nil => rfl
  | cons slot slots ih => rw [plainSlots, ih, List.map_cons]

theorem canonicalAll_eq (values : List Value) : canonicalAll values = values.mapM canonical := by
  induction values with
  | nil => rfl
  | cons value values ih => rw [canonicalAll, ih, List.mapM_cons]

/-- Of the items of a list its canonical text takes the canonical texts. -/
theorem canonical_seq_congr {kind kind' : SeqKind} {items others : List Value}
    (texts : items.map canonical = others.map canonical) :
    canonical (.seq kind items) = canonical (.seq kind' others) := by
  have form (items : List Value) : canonicalAll items = (items.map canonical).mapM id := by
    rw [canonicalAll_eq, List.mapM_map]
    rfl
  simp only [canonical, form, texts]

theorem canonicalEntries_eq (entries : List (Value × Value)) :
    canonicalEntries entries = entries.map fun entry => (entry.1, entry.2.canonical) := by
  induction entries with
  | nil => rfl
  | cons entry entries ih => rw [canonicalEntries, ih, List.map_cons]

/-- Neither plain forms nor canonical texts change keys. -/
theorem keys_plainEntries (entries : List (Value × Value)) :
    (plainEntries entries).map (·.1) = entries.map (·.1) := by
  rw [plainEntries_eq, List.map_map]
  rfl

theorem keys_canonicalEntries (entries : List (Value × Value)) :
    (canonicalEntries entries).map (·.1) = entries.map (·.1) := by
  rw [canonicalEntries_eq, List.map_map]
  rfl

theorem canonicalEntries_plainEntries (entries : List (Value × Value)) :
    canonicalEntries (plainEntries entries) =
      entries.map fun entry => (entry.1, entry.2.toPlain.canonical) := by
  rw [plainEntries_eq, canonicalEntries_eq, List.map_map]
  rfl

theorem canonicalEntries_plainSlots (slots : List (Slot Value)) :
    canonicalEntries (plainSlots slots) =
      slots.map fun slot => (.str slot.name, slot.value.toPlain.canonical) := by
  rw [plainSlots_eq, canonicalEntries_eq, List.map_map]
  rfl

theorem allWritable_eq (values : List Value) : allWritable values = (values.map writable).all id := by
  induction values with
  | nil => rfl
  | cons value values ih => rw [allWritable, ih, List.map_cons, List.all_cons, id]

theorem entriesWritable_eq (entries : List (Value × Value)) :
    entriesWritable entries = (entries.map fun entry => entry.1.writable && entry.2.writable).all id := by
  induction entries with
  | nil => rfl
  | cons entry entries ih => rw [entriesWritable, ih, List.map_cons, List.all_cons, id]

theorem slotsWritable_eq (slots : List (Slot Value)) :
    slotsWritable slots = (slots.map fun slot => slot.value.writable).all id := by
  induction slots with
  | nil => rfl
  | cons slot slots ih => rw [slotsWritable, ih, List.map_cons, List.all_cons, id]

theorem allSortable_eq (values : List Value) :
    allSortable values = (values.map sortable).all id := by
  induction values with
  | nil => rfl
  | cons value values ih => rw [allSortable, ih, List.map_cons, List.all_cons, id]

theorem entriesSortable_eq (entries : List (Value × Value)) :
    entriesSortable entries = (entries.map fun entry => entry.2.sortable).all id := by
  induction entries with
  | nil => rfl
  | cons entry entries ih => rw [entriesSortable, ih, List.map_cons, List.all_cons, id]

theorem slotsSortable_eq (slots : List (Slot Value)) :
    slotsSortable slots = (slots.map fun slot => slot.value.sortable).all id := by
  induction slots with
  | nil => rfl
  | cons slot slots ih => rw [slotsSortable, ih, List.map_cons, List.all_cons, id]

theorem allWritable_iff {values : List Value} :
    allWritable values = true ↔ ∀ value ∈ values, value.writable = true := by
  simp [allWritable_eq]

theorem allSortable_iff {values : List Value} :
    allSortable values = true ↔ ∀ value ∈ values, value.sortable = true := by
  simp [allSortable_eq]

theorem entriesSortable_iff {entries : List (Value × Value)} :
    entriesSortable entries = true ↔ ∀ entry ∈ entries, entry.2.sortable = true := by
  simp only [entriesSortable_eq, List.all_eq_true, List.forall_mem_map, id]

theorem slotsSortable_iff {slots : List (Slot Value)} :
    slotsSortable slots = true ↔ ∀ slot ∈ slots, slot.value.sortable = true := by
  simp only [slotsSortable_eq, List.all_eq_true, List.forall_mem_map, id]

theorem perm_sortByDisplay (values : List Value) : (sortByDisplay values).Perm values := by
  have sorted := (perm_sortBy (fun a b => precedes a.1 b.1)
    (values.map fun value => (value.display, value))).map (·.2)
  rwa [List.map_map, Function.comp_def, List.map_id'] at sorted

end Value

end LayeredConfig
