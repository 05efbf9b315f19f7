import LayeredConfig.Proofs.Container.Matching
import LayeredConfig.Proofs.Container.Membership
import LayeredConfig.Proofs.Value.Matching

/-!
Equality of values that can be keys of dictionaries and members of sets. Among these it is an equivalence,
across all types, though it is none among the values that can change: a concurrent list equals lists and
tuples, which differ.
-/

namespace LayeredConfig.Value

/-- No two members of a set are equal. -/
def IsToldApart : Value → Prop
  | .set _ members => Apart members
  | _ => True

instance : DecidablePred IsToldApart
  | .set _ members => inferInstanceAs (Decidable (Apart members))
  | .scalar _ => isTrue trivial
  | .member _ _ _ => isTrue trivial
  | .seq _ _ => isTrue trivial
  | .dict _ _ => isTrue trivial
  | .document _ _ => isTrue trivial

/-- A key of a dictionary or a member of a set: nothing in it can change, and the sets in it are sets. -/
structure IsKey (value : Value) : Prop where
  hashable : value.hashable = true
  sets : ∀ part, Occurs part value → part.IsToldApart

instance {value : Value} : Decidable value.IsKey :=
  decidable_of_iff (value.hashable = true ∧ ∀ part, Occurs part value → part.IsToldApart)
    ⟨fun ⟨hashable, sets⟩ => ⟨hashable, sets⟩, fun key => ⟨key.hashable, key.sets⟩⟩

theorem IsKey.item {items : List Value} (key : (Value.seq .tuple items).IsKey) :
    ∀ item ∈ items, item.IsKey := by
  intro item member
  have hashable : allHashable items = true := key.hashable
  exact ⟨allHashable_iff.mp hashable item member, (forall_occurs_seq.mp key.sets).2 item member⟩

theorem IsKey.member {kind : SetKind} {members : List Value} (key : (Value.set kind members).IsKey) :
    ∀ member ∈ members, member.IsKey := by
  intro member listed
  obtain ⟨apart, parts⟩ := forall_occurs_set.mp key.sets
  exact ⟨apart.frozen member listed, parts member listed⟩

theorem same_trans {a b c : Value} (key : b.IsKey) (first : a.same b = true) (second : b.same c = true) :
    a.same c = true := by
  unfold same at first second ⊢
  induction b generalizing a c with
  | scalar value => cases a <;> cases c <;> simp_all [alike, Scalar.alike]
  | member enumeration name value => cases a <;> cases c <;> simp_all [alike]
  | seq kind items ih =>
    obtain rfl : kind = .tuple := by
      cases kind with
      | tuple => rfl
      | _ => cases key.hashable
    cases a with
    | seq left xs =>
      cases c with
      | seq right zs =>
        rw [alike, Bool.and_eq_true, itemsAlike_iff] at first second ⊢
        constructor
        · -- with a tuple in the middle neither of the other two is a list
          cases left <;> cases right <;> first | rfl | exact first.1 | exact second.1
        · have listed := (List.forall₂_and_left (p := (· ∈ items)) ..).mpr ⟨fun _ here => here, second.2⟩
          exact forall₂_trans first.2 listed fun x y z same next =>
            ih y next.1 (key.item y next.1) same next.2
      | _ => simp [alike] at second
    | _ => simp [alike] at first
  | set kind members ih =>
    cases a with
    | set left xs =>
      cases c with
      | set right zs =>
        rw [alike, Bool.and_eq_true, beq_iff_eq, membersWithin_iff] at first second ⊢
        refine ⟨first.1.trans second.1, fun x listed => ?_⟩
        obtain ⟨y, here, same⟩ := first.2 x listed
        obtain ⟨z, there, same'⟩ := second.2 y here
        exact ⟨z, there, ih y here (key.member y here) same same'⟩
      | _ => simp [alike] at second
    | _ => simp [alike] at first
  | dict kind entries _ _ => cases key.hashable
  | document type slots _ => cases key.hashable

theorem same_self {value : Value} (key : value.IsKey) : value.same value = true := by
  unfold same
  induction value with
  | scalar value => exact same_self_of_isAtom rfl
  | member enumeration name value => exact same_self_of_isAtom rfl
  | seq kind items ih =>
    obtain rfl : kind = .tuple := by
      cases kind with
      | tuple => rfl
      | _ => cases key.hashable
    rw [alike, Bool.and_eq_true, itemsAlike_iff, List.forall₂_same]
    exact ⟨rfl, fun item member => ih item member (key.item item member)⟩
  | set kind members ih =>
    rw [alike, beq_self_eq_true, Bool.true_and, membersWithin_iff]
    exact fun member listed => ⟨member, listed, ih member listed (key.member member listed)⟩
  | dict kind entries _ _ => cases key.hashable
  | document type slots _ => cases key.hashable

/-- Equality of keys does not depend on the order of the two. Sets need this: as many members within
others are all of them only where no two are equal. -/
theorem same_symm {a b : Value} (key : a.IsKey) (key' : b.IsKey) (equal : a.same b = true) :
    b.same a = true := by
  unfold same at equal ⊢
  induction a generalizing b with
  | scalar value => cases b <;> simp_all [alike, Scalar.alike]
  | member enumeration name value => cases b <;> simp_all [alike]
  | seq kind items ih =>
    cases b with
    | seq kind' others =>
      have tuples : kind = .tuple ∧ kind' = .tuple := by
        constructor
        · cases kind <;> first | rfl | cases key.hashable
        · cases kind' <;> first | rfl | cases key'.hashable
      obtain ⟨rfl, rfl⟩ := tuples
      rw [alike, Bool.and_eq_true, itemsAlike_iff] at equal ⊢
      refine ⟨rfl, (forall₂_imp_of_mem equal.2 fun x here y there same => ?_).flip⟩
      exact ih x here (key.item x here) (key'.item y there) same
    | _ => simp [alike] at equal
  | set kind members ih =>
    cases b with
    | set kind' others =>
      rw [alike, Bool.and_eq_true, beq_iff_eq, membersWithin_iff] at equal ⊢
      have apart : members.Pairwise fun x x' => ∀ y ∈ others, x.alike true y = true →
          ¬ x'.alike true y = true := by
        refine (forall_occurs_set.mp key.sets).1.differ.imp_of_mem ?_
        intro x x' listed listed' differ y here same same'
        have back := ih x' listed' (key.member x' listed') (key'.member y here) same'
        have equal : x.same x' = true := same_trans (key'.member y here) same back
        rw [differ] at equal
        cases equal
      obtain ⟨middle, perm, beside⟩ := Rearranged.of_injective equal.1 equal.2 apart
      refine ⟨equal.1.symm, fun y here => ?_⟩
      obtain ⟨x, there, same⟩ := exists_mem_of_forall₂ beside.flip y here
      have listed := perm.mem_iff.mpr there
      exact ⟨x, listed, ih x listed (key.member x listed) (key'.member y here) same⟩
    | _ => simp [alike] at equal
  | dict kind entries _ _ => cases key.hashable
  | document type slots _ => cases key.hashable

theorem equality_same : Equality same IsKey :=
  ⟨same_self, same_symm, same_trans⟩

end LayeredConfig.Value
