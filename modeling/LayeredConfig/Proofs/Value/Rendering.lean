import LayeredConfig.Proofs.Value.Plainness

namespace LayeredConfig

/-- Whether a scalar is null, a truth value, a number or a text. -/
def Scalar.isNative : Scalar → Bool
  | .bytes _ => false
  | .date _ => false
  | .moment _ => false
  | _ => true

namespace Value

/-- Whether a value is a native scalar or, where this is allowed, a member of an enumeration. -/
def isBasic (enumerated : Bool) : Value → Bool
  | .scalar value => value.isNative
  | .member _ _ _ => enumerated
  | _ => false

/-- A native scalar, a list or a dictionary of the native kind whose keys are native scalars. -/
def IsPlain : Value → Prop
  | .scalar value => value.isNative = true
  | .seq .list _ => True
  | .dict .plain entries => ∀ entry ∈ entries, entry.1.isBasic false = true
  | _ => False

instance : DecidablePred IsPlain
  | .scalar value => inferInstanceAs (Decidable (value.isNative = true))
  | .seq .list _ => .isTrue trivial
  | .dict .plain entries => inferInstanceAs (Decidable (∀ entry ∈ entries, entry.1.isBasic false = true))
  | .member _ _ _ => .isFalse id
  | .seq .tuple _ => .isFalse id
  | .seq .concurrent _ => .isFalse id
  | .set _ _ => .isFalse id
  | .dict .concurrent _ => .isFalse id
  | .document _ _ => .isFalse id

/-- Anything but a scalar that is not native, or a dictionary with a key that does not become native. -/
def Renderable (enumerated : Bool) : Value → Prop
  | .scalar value => value.isNative = true
  | .dict _ entries => ∀ entry ∈ entries, entry.1.isBasic enumerated = true
  | _ => True

/-- A dictionary with a member of an enumeration among its keys. -/
def HasMemberKey : Value → Prop
  | .dict _ entries => ∃ entry ∈ entries, ∃ type name value, entry.1 = .member type name value
  | _ => False

instance : DecidablePred HasMemberKey
  | .dict _ entries => decidable_of_iff (entries.any fun entry => entry.1 matches .member _ _ _) (by
      rw [List.any_eq_true]
      refine exists_congr fun entry => and_congr_right fun _ => ?_
      cases entry.1 <;> simp)
  | .scalar _ => .isFalse id
  | .member _ _ _ => .isFalse id
  | .seq _ _ => .isFalse id
  | .set _ _ => .isFalse id
  | .document _ _ => .isFalse id

/-- Anything but a set with a member whose plain form cannot be written, and so cannot be sorted. -/
def Listable : Value → Prop
  | .set _ members => ∀ member ∈ members, member.toPlain.writable = true
  | _ => True

instance : DecidablePred Listable
  | .set _ members => inferInstanceAs (Decidable (∀ member ∈ members, member.toPlain.writable = true))
  | .scalar _ => .isTrue trivial
  | .member _ _ _ => .isTrue trivial
  | .seq _ _ => .isTrue trivial
  | .dict _ _ => .isTrue trivial
  | .document _ _ => .isTrue trivial

/-- One value stands for another without members of enumerations, documents, sets and concurrent
containers. Keys stay as they are. -/
inductive Renders : Value → Value → Prop
  | scalar (value : Scalar) : Renders (.scalar value) (.scalar value)
  | member (type name : String) (value : Value) : Renders (.member type name value) (.str name)
  | seq {items items' : List Value} (parts : List.Forall₂ Renders items items') :
      Renders (.seq kind items) (.seq .list items')
  | set {members middle items : List Value} (perm : middle.Perm members)
      (parts : List.Forall₂ Renders middle items) : Renders (.set kind members) (.seq .list items)
  | dict {entries entries' : List (Value × Value)} (keys : entries'.map (·.1) = entries.map (·.1))
      (values : List.Forall₂ Renders (entries.map (·.2)) (entries'.map (·.2))) :
      Renders (.dict kind entries) (.dict .plain entries')
  | document {slots : List (Slot Value)} {entries : List (Value × Value)}
      (keys : entries.map (·.1) = slots.map fun slot => .str slot.name)
      (values : List.Forall₂ Renders (slots.map (·.value)) (entries.map (·.2))) :
      Renders (.document type slots) (.dict .plain entries)

theorem renders_toPlain (value : Value) : Renders value value.toPlain := by
  have parts {α : Type} {whole : List α} (part : α → Value)
      (each : ∀ element ∈ whole, Renders (part element) (part element).toPlain) :
      List.Forall₂ Renders (whole.map part) (whole.map fun element => (part element).toPlain) := by
    rw [List.forall₂_map_left_iff, List.forall₂_map_right_iff, List.forall₂_same]
    exact each
  induction value with
  | scalar value => exact .scalar value
  | member type name value _ => exact .member type name value
  | seq kind items ih =>
    rw [toPlain, plainAll_eq]
    exact .seq (by simpa using parts id ih)
  | set kind members ih =>
    obtain ⟨middle, perm, same⟩ := exists_perm_of_sortByDisplay members
    rw [toPlain, same]
    have each := parts id fun member listed => ih member (perm.mem_iff.mp listed)
    exact .set perm (by simpa using each)
  | dict kind entries ihKeys ih =>
    refine .dict (keys_plainEntries entries) ?_
    rw [plainEntries_eq, List.map_map]
    exact parts _ ih
  | document type slots ih =>
    refine .document ?_ ?_
    · rw [plainSlots_eq, List.map_map]
      rfl
    · rw [plainSlots_eq, List.map_map]
      exact parts _ ih

theorem exists_scalar_of_isBasic {value : Value} (basic : value.isBasic false = true) :
    ∃ scalar : Scalar, value = .scalar scalar ∧ scalar.isNative = true := by
  cases value with
  | scalar value => exact ⟨value, rfl, basic⟩
  | _ => cases basic

theorem forall_occurs_of_isBasic (property : Value → Prop) {value : Value}
    (basic : value.isBasic false = true)
    (holds : ∀ scalar : Scalar, scalar.isNative = true → property (.scalar scalar)) :
    ∀ part, Occurs part value → property part := by
  obtain ⟨scalar, rfl, native⟩ := exists_scalar_of_isBasic basic
  exact forall_occurs_scalar.mpr (holds scalar native)

/-- A plain form is native throughout if and only if the scalars and the keys of the value are. -/
theorem forall_isPlain_toPlain_iff {value : Value} :
    (∀ part, Occurs part value.toPlain → part.IsPlain) ↔
      ∀ part, Occurs part value → part.Renderable false := by
  induction value with
  | scalar value =>
    rw [toPlain, forall_occurs_scalar, forall_occurs_scalar]
    exact Iff.rfl
  | member type name value _ =>
    rw [toPlain, forall_occurs_scalar, forall_occurs_member]
    exact iff_of_true rfl trivial
  | seq kind items ih =>
    rw [toPlain, plainAll_eq, forall_occurs_seq, forall_occurs_seq, List.forall_mem_map]
    exact and_congr (iff_of_true trivial trivial) (forall₂_congr ih)
  | set kind members ih =>
    obtain ⟨middle, perm, same⟩ := exists_perm_of_sortByDisplay members
    rw [toPlain, same, forall_occurs_seq, forall_occurs_set, List.forall_mem_map]
    simp only [perm.mem_iff]
    exact and_congr (iff_of_true trivial trivial) (forall₂_congr ih)
  | dict kind entries _ ih =>
    rw [toPlain, plainEntries_eq, forall_occurs_dict, forall_occurs_dict]
    simp only [IsPlain, Renderable, List.forall_mem_map]
    refine and_congr_right fun basic => and_congr (iff_of_true ?_ ?_) (forall₂_congr ih)
    · exact fun entry listed => forall_occurs_of_isBasic IsPlain (basic entry listed) fun _ native => native
    · exact fun entry listed =>
        forall_occurs_of_isBasic (Renderable false) (basic entry listed) fun _ native => native
  | document type slots ih =>
    rw [toPlain, plainSlots_eq, forall_occurs_dict, forall_occurs_document, List.forall_mem_map,
      List.forall_mem_map]
    refine and_congr (iff_of_true (List.forall_mem_map.mpr fun _ _ => rfl) trivial) ?_
    refine Iff.trans (and_iff_right fun slot _ => ?_) (forall₂_congr ih)
    exact forall_occurs_of_isBasic IsPlain rfl fun _ native => native

theorem Renderable.allowed {value : Value} {enumerated : Bool} (renderable : value.Renderable enumerated) :
    value.Renderable true := by
  cases value with
  | dict kind entries =>
    intro entry listed
    have basic := renderable entry listed
    cases key : entry.1 with
    | member type name value => rfl
    | _ => rw [key] at basic; exact basic
  | _ => exact renderable

/-- What is renderable with members of enumerations as keys is so without them, if there are none. -/
theorem renderable_false_iff {value : Value} (renderable : value.Renderable true) :
    value.Renderable false ↔ ¬ value.HasMemberKey := by
  cases value with
  | dict kind entries =>
    constructor
    · rintro basic ⟨entry, listed, type, name, value, same⟩
      obtain ⟨scalar, other, -⟩ := exists_scalar_of_isBasic (basic entry listed)
      cases same.symm.trans other
    · intro none entry listed
      have basic := renderable entry listed
      cases key : entry.1 with
      | member type name value => exact absurd ⟨entry, listed, type, name, value, key⟩ none
      | _ => rw [key] at basic; exact basic
  | scalar value => exact iff_of_true renderable id
  | _ => exact iff_of_true trivial id

/-- The sets in a value can all be sorted if and only if each of them can. -/
theorem sortable_iff {value : Value} {enumerated : Bool}
    (renderable : ∀ part, Occurs part value → part.Renderable enumerated) :
    value.sortable = true ↔ ∀ part, Occurs part value → part.Listable := by
  induction value with
  | scalar value => exact iff_of_true rfl (forall_occurs_scalar.mpr trivial)
  | member type name value _ => exact iff_of_true rfl (forall_occurs_member.mpr trivial)
  | seq kind items ih =>
    rw [forall_occurs_seq] at renderable ⊢
    rw [sortable, allSortable_iff, and_iff_right (show (seq kind items).Listable from trivial)]
    exact forall₂_congr fun item listed => ih item listed (renderable.2 item listed)
  | set kind members ih =>
    rw [forall_occurs_set] at renderable ⊢
    rw [sortable, Bool.and_eq_true, allSortable_iff, plainAll_eq, allWritable_iff, List.forall_mem_map,
      and_comm]
    refine and_congr Iff.rfl (forall₂_congr fun member listed => ?_)
    exact ih member listed (renderable.2 member listed)
  | dict kind entries _ ih =>
    rw [forall_occurs_dict] at renderable ⊢
    obtain ⟨basic, -, values⟩ := renderable
    have keys : ∀ entry ∈ entries, ∀ part, Occurs part entry.1 → part.Listable := by
      intro entry listed
      have here := basic entry listed
      cases key : entry.1 with
      | scalar value => exact forall_occurs_scalar.mpr trivial
      | member type name value => exact forall_occurs_member.mpr trivial
      | _ => rw [key] at here; cases here
    rw [sortable, entriesSortable_iff, and_iff_right (show (dict kind entries).Listable from trivial),
      and_iff_right keys]
    exact forall₂_congr fun entry listed => ih entry listed (values entry listed)
  | document type slots ih =>
    rw [forall_occurs_document] at renderable ⊢
    rw [sortable, slotsSortable_iff, and_iff_right (show (document type slots).Listable from trivial)]
    exact forall₂_congr fun slot listed => ih slot listed (renderable.2 slot listed)

end Value

end LayeredConfig
