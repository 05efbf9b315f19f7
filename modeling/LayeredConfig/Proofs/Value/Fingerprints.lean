import LayeredConfig.Proofs.Schema.Worded
import LayeredConfig.Proofs.Value.Parts

namespace LayeredConfig.Value

/-- A number that is too long to be written, or a dictionary with null and another key. -/
def Unwritten : Value → Prop
  | .scalar value => value.writable = false
  | .dict _ entries => 2 ≤ entries.length ∧ ∃ entry ∈ entries, entry.1.isNull = true
  | _ => False

@[simp] theorem not_unwritten_seq : ¬ (seq kind items).Unwritten := id

@[simp] theorem not_unwritten_set : ¬ (set kind members).Unwritten := id

@[simp] theorem not_unwritten_member : ¬ (member type name value).Unwritten := id

@[simp] theorem not_unwritten_document : ¬ (document type slots).Unwritten := id

theorem unwritten_dict {entries : List (Value × Value)} :
    (dict kind entries).Unwritten ↔
      2 ≤ entries.length ∧ ∃ entry ∈ entries, entry.1.isNull = true :=
  Iff.rfl

/-- What stands in the way of a fingerprint: of the canonical text, or of its encoding. -/
def Obstructs (value : Value) : Prop :=
  value.Unwritten ∨ value.isTorn = true

/-- Nothing in a value stands in the way of a fingerprint. -/
def Unobstructed (value : Value) : Prop :=
  ∀ part, Occurs part value → ¬ part.Obstructs

/-- All sets and dictionaries in a value have texts and null for members and keys. -/
def Named (value : Value) : Prop :=
  ∀ part, Occurs part value → part.NamesParts

theorem writable_of_named {value : Value} (named : value.isNull = true ∨ value.isTextKey = true) :
    value.toPlain = value ∧ value.writable = true ∧ value.sortable = true ∧
      ∃ text, canonicalKey value = .ok text := by
  rcases eq_of_named named with rfl | ⟨text, rfl⟩
  · exact ⟨rfl, rfl, rfl, _, rfl⟩
  · exact ⟨rfl, rfl, rfl, _, rfl⟩

theorem sortable_set_of_named {members : List Value}
    (named : ∀ member ∈ members, member.isNull = true ∨ member.isTextKey = true) (kind : SetKind) :
    (set kind members).sortable = true := by
  rw [sortable, Bool.and_eq_true, allSortable_iff, plainAll_eq, allWritable_iff]
  refine ⟨fun member listed => (writable_of_named (named member listed)).2.2.1, ?_⟩
  intro plain form
  obtain ⟨member, listed, rfl⟩ := List.mem_map.mp form
  obtain ⟨same, writable, -⟩ := writable_of_named (named member listed)
  rwa [same]

theorem sortable_of_named {value : Value} (named : value.Named) : value.sortable = true := by
  unfold Named at named
  induction value with
  | scalar value => rfl
  | member enumeration name value => rfl
  | seq kind items ih =>
    rw [forall_occurs_seq] at named
    exact allSortable_iff.mpr fun item member => ih item member (named.2 item member)
  | set kind members ih =>
    rw [forall_occurs_set] at named
    exact sortable_set_of_named named.1 kind
  | dict kind entries ihKeys ihValues =>
    rw [forall_occurs_dict] at named
    exact entriesSortable_iff.mpr fun entry member => ihValues entry member (named.2.2 entry member)
  | document type slots ih =>
    rw [forall_occurs_document] at named
    exact slotsSortable_iff.mpr fun slot member => ih slot member (named.2 slot member)

theorem canonicalScalar_ok_iff {value : Scalar} :
    (∃ text, canonicalScalar value = .ok text) ↔ value.writable = true := by
  cases value with
  | int value =>
    cases limit : Text.withinDecimalLimit value <;>
      simp [canonicalScalar, canonicalInt, Scalar.writable, limit]
  | _ => exact ⟨fun _ => rfl, fun _ => ⟨_, rfl⟩⟩

/-- Keys that are texts or null have an order unless there are several and null is one of them. -/
theorem haveOrder_iff {keys : List Value}
    (named : ∀ key ∈ keys, key.isNull = true ∨ key.isTextKey = true) :
    haveOrder keys = true ↔ ¬ (2 ≤ keys.length ∧ ∃ key ∈ keys, key.isNull = true) := by
  have number {key : Value} (listed : key ∈ keys) : key.isNumberKey = false := by
    rcases eq_of_named (named key listed) with rfl | ⟨text, rfl⟩
    · rfl
    · rfl
  have text {key : Value} (listed : key ∈ keys) : key.isTextKey = true ↔ ¬ key.isNull = true := by
    rcases eq_of_named (named key listed) with rfl | ⟨text, rfl⟩
    · exact ⟨Bool.noConfusion, fun present => absurd rfl present⟩
    · exact ⟨fun _ => Bool.false_ne_true, fun _ => rfl⟩
  have numbers : keys.all isNumberKey = true ↔ keys = [] := by
    cases keys with
    | nil => simp
    | cons key keys => simp [number List.mem_cons_self]
  have texts : keys.all isTextKey = true ↔ ¬ ∃ key ∈ keys, key.isNull = true := by
    simp only [List.all_eq_true, not_exists, not_and]
    exact forall₂_congr fun key listed => text listed
  simp only [haveOrder, Bool.or_eq_true, decide_eq_true_eq, numbers, texts]
  constructor
  · rintro ((short | texts) | rfl) <;> grind
  · grind

theorem exists_canonical_seq {items : List Value} :
    (∃ text, canonical (.seq .list items) = .ok text) ↔
      ∀ item ∈ items, ∃ text, item.canonical = .ok text := by
  rw [← exists_mapM_eq_ok_iff, ← canonicalAll_eq]
  simp only [canonical, bind_eq_ok_iff]
  constructor
  · intro some
    obtain ⟨_, parts, found, -⟩ := some
    exact ⟨parts, found⟩
  · intro some
    obtain ⟨parts, found⟩ := some
    exact ⟨_, parts, found, rfl⟩

theorem exists_canonicalEntry {entry : Value × Except Fault (List Char)} :
    (∃ text, canonicalEntry entry = .ok text) ↔
      (∃ key, canonicalKey entry.1 = .ok key) ∧ ∃ value, entry.2 = .ok value := by
  simp only [canonicalEntry, bind_eq_ok_iff]
  constructor
  · intro some
    obtain ⟨_, key, written, value, here, -⟩ := some
    exact ⟨⟨key, written⟩, value, here⟩
  · intro some
    obtain ⟨⟨key, written⟩, value, here⟩ := some
    exact ⟨_, key, written, value, here, rfl⟩

theorem exists_canonical_dict {entries : List (Value × Value)} :
    (∃ text, canonical (.dict .plain entries) = .ok text) ↔
      haveOrder (entries.map (·.1)) = true ∧
        ∀ entry ∈ entries, (∃ key, canonicalKey entry.1 = .ok key) ∧
          ∃ text, entry.2.canonical = .ok text := by
  rw [canonical, keys_canonicalEntries]
  cases ordered : haveOrder (entries.map (·.1)) with
  | false => simp [bind_eq_ok_iff, throw, throwThe, MonadExceptOf.throw]
  | true =>
    have parts : (∃ parts, (sortBy (fun a b => keyPrecedes a.1 b.1)
        (canonicalEntries entries)).mapM canonicalEntry = .ok parts) ↔
          ∀ entry ∈ entries, (∃ key, canonicalKey entry.1 = .ok key) ∧
            ∃ text, entry.2.canonical = .ok text := by
      simp only [exists_mapM_eq_ok_iff, mem_sortBy, exists_canonicalEntry, canonicalEntries_eq,
        List.forall_mem_map]
    simp only [true_and, ← parts]
    constructor
    · intro some
      obtain ⟨_, written⟩ := some
      obtain ⟨parts, found, -⟩ := bind_eq_ok_iff.mp written
      exact ⟨parts, found⟩
    · intro some
      obtain ⟨parts, found⟩ := some
      exact ⟨_, bind_eq_ok_iff.mpr ⟨parts, found, rfl⟩⟩

/-- The canonical text of a plain form is there unless something in the value stands in the way. -/
theorem exists_canonical_iff {value : Value} (named : value.Named) :
    (∃ text, value.toPlain.canonical = .ok text) ↔ ∀ part, Occurs part value → ¬ part.Unwritten := by
  unfold Named at named
  induction value with
  | scalar value =>
    rw [forall_occurs_scalar, toPlain, canonical, canonicalScalar_ok_iff]
    simp [Unwritten]
  | member enumeration name value =>
    rw [forall_occurs_member]
    simp [toPlain, canonical, canonicalScalar]
  | seq kind items ih =>
    rw [forall_occurs_seq] at named ⊢
    rw [toPlain, plainAll_eq, exists_canonical_seq, List.forall_mem_map]
    simp only [not_unwritten_seq, not_false_eq_true, true_and]
    exact forall₂_congr fun item member => ih item member (named.2 item member)
  | set kind members ih =>
    rw [forall_occurs_set] at named ⊢
    rw [toPlain, plainAll_eq, exists_canonical_seq]
    simp only [(perm_sortByDisplay _).mem_iff, List.forall_mem_map, not_unwritten_set,
      not_false_eq_true, true_and]
    exact forall₂_congr fun member listed => ih member listed (named.2 member listed)
  | dict kind entries ihKeys ihValues =>
    rw [forall_occurs_dict] at named ⊢
    have keys : ∀ entry ∈ entries, ∀ part, Occurs part entry.1 → ¬ part.Unwritten := by
      intro entry member part occurs
      rw [occurs_in_named occurs (named.1 entry member)]
      rcases eq_of_named (named.1 entry member) with null | ⟨text, same⟩
      · rw [null]
        exact Bool.noConfusion
      · rw [same]
        exact Bool.noConfusion
    have order : haveOrder (entries.map (·.1)) = true ↔ ¬ (dict kind entries).Unwritten := by
      rw [haveOrder_iff (List.forall_mem_map.mpr named.1), unwritten_dict]
      simp
    rw [toPlain, exists_canonical_dict, keys_plainEntries, order, plainEntries_eq, List.forall_mem_map]
    refine and_congr_right fun _ => ⟨fun values => ⟨keys, fun entry member => ?_⟩,
      fun parts entry member => ⟨(writable_of_named (named.1 entry member)).2.2.2, ?_⟩⟩
    · exact (ihValues entry member (named.2.2 entry member)).mp (values entry member).2
    · exact (ihValues entry member (named.2.2 entry member)).mpr (parts.2 entry member)
  | document type slots ih =>
    rw [forall_occurs_document] at named ⊢
    have titles : haveOrder ((plainSlots slots).map (·.1)) = true := by
      rw [plainSlots_eq, List.map_map, haveOrder]
      simp [isTextKey]
    rw [toPlain, exists_canonical_dict, plainSlots_eq, List.forall_mem_map]
    rw [plainSlots_eq] at titles
    simp only [titles, not_unwritten_document, not_false_eq_true, true_and]
    refine forall₂_congr fun slot member => ?_
    rw [← ih slot member (named.2 slot member)]
    exact ⟨fun both => both.2, fun value => ⟨⟨_, rfl⟩, value⟩⟩

/-- The text of a fingerprint is the canonical text of the plain form, if sets can be sorted. -/
theorem fingerprintText_eq_ok_iff {type : String} {slots : List (Slot Value)} {text : List Char} :
    (document type slots).fingerprintText = .ok text ↔
      (document type slots).sortable = true ∧ (document type slots).toPlain.canonical = .ok text := by
  have form : (document type slots).fingerprintText =
      (document type slots).plain? >>= Value.canonical := rfl
  rw [form, plain?]
  split
  · next sortable => exact (and_iff_right sortable).symm
  · next unsortable => exact ⟨nofun, fun both => absurd both.1 unsortable⟩

theorem unobstructed_iff {value : Value} :
    value.Unobstructed ↔
      (∀ part, Occurs part value → ¬ part.Unwritten) ∧ value.isWhole = true := by
  simp only [Unobstructed, Obstructs, not_or, isWhole, everywhere_iff, Bool.not_eq_true', Bool.not_eq_true,
    ← forall₂_and]

/-- A document has a fingerprint unless something in it stands in the way. -/
theorem exists_fingerprint_iff {type : String} {slots : List (Slot Value)}
    (named : (document type slots).Named) :
    (∃ print, (document type slots).fingerprint = .ok print) ↔ (document type slots).Unobstructed := by
  rw [unobstructed_iff, ← exists_canonical_iff named, fingerprint]
  simp only [bind_eq_ok_iff, fingerprintText_eq_ok_iff, sortable_of_named named, true_and]
  constructor
  · intro some
    obtain ⟨_, text, written, encoded⟩ := some
    split at encoded
    · next whole => exact ⟨⟨text, written⟩, whole⟩
    · cases encoded
  · intro some
    obtain ⟨⟨text, written⟩, whole⟩ := some
    exact ⟨_, text, written, if_pos whole⟩

end LayeredConfig.Value
