import LayeredConfig.Proofs.Container.Pairing
import LayeredConfig.Proofs.Value.Parts

namespace LayeredConfig.Value

def isNotANumber : Value → Bool
  | .scalar value => value.isNotANumber
  | _ => false

/-- Nothing in a value is a result that is not a number. -/
def Definite (value : Value) : Prop :=
  ∀ part, Occurs part value → part.isNotANumber = false

instance {value : Value} : Decidable value.Definite :=
  inferInstanceAs (Decidable (∀ part, Occurs part value → part.isNotANumber = false))

/-- Whether a value has no parts. -/
def isAtom : Value → Bool
  | .scalar _ => true
  | .member _ _ _ => true
  | _ => false

theorem itemsAlike_iff {xs ys : List Value} :
    itemsAlike xs ys = true ↔ List.Forall₂ (fun x y => x.alike true y = true) xs ys := by
  induction xs generalizing ys with
  | nil => cases ys <;> simp [itemsAlike]
  | cons x xs ih => cases ys <;> simp [itemsAlike, ih]

theorem membersWithin_iff {xs ys : List Value} :
    membersWithin xs ys = true ↔ ∀ x ∈ xs, ∃ y ∈ ys, x.alike true y = true := by
  induction xs with
  | nil => simp [membersWithin]
  | cons x xs ih => simp [membersWithin, ih]

theorem entriesWithin_iff {es es' : List (Value × Value)} :
    entriesWithin es es' = true ↔
      ∀ e ∈ es, ∃ e' ∈ es', e.1.alike true e'.1 = true ∧ e.2.alike true e'.2 = true := by
  induction es with
  | nil => simp [entriesWithin]
  | cons e es ih =>
    obtain ⟨key, value⟩ := e
    simp only [entriesWithin, Bool.and_eq_true, List.any_eq_true, ih, List.forall_mem_cons]

theorem slotsAlike_iff {slots slots' : List (Slot Value)} :
    slotsAlike slots slots' = true ↔
      List.Forall₂ (fun slot slot' => slot.value.alike false slot'.value = true) slots slots' := by
  induction slots generalizing slots' with
  | nil => cases slots' <;> simp [slotsAlike]
  | cons slot slots ih =>
    obtain ⟨_, _, _⟩ := slot
    rcases slots' with _ | ⟨⟨_, _, _⟩, slots'⟩ <;> simp [slotsAlike, ih]

theorem alike_scalar_self (asObject : Bool) {value : Scalar} (definite : value.isNotANumber = false) :
    (scalar value).alike asObject (scalar value) = true := by
  simp [alike, Scalar.alike, definite]

theorem alike_self {value : Value} (definite : value.Definite) (asObject : Bool) :
    value.alike asObject value = true := by
  unfold Definite at definite
  induction value generalizing asObject with
  | scalar value =>
    rw [forall_occurs_scalar] at definite
    exact alike_scalar_self asObject definite
  | member enumeration name value => simp [alike]
  | seq kind items ih =>
    rw [forall_occurs_seq] at definite
    have comparable : kind.comparable kind = true := by cases kind <;> rfl
    rw [alike, comparable, Bool.true_and, itemsAlike_iff, List.forall₂_same]
    exact fun item member => ih item member (definite.2 item member) true
  | set kind members ih =>
    rw [forall_occurs_set] at definite
    rw [alike, beq_self_eq_true, Bool.true_and, membersWithin_iff]
    exact fun member listed => ⟨member, listed, ih member listed (definite.2 member listed) true⟩
  | dict kind entries ihKeys ihValues =>
    rw [forall_occurs_dict] at definite
    rw [alike, beq_self_eq_true, Bool.true_and, entriesWithin_iff]
    exact fun entry member => ⟨entry, member, ihKeys entry member (definite.2.1 entry member) true,
      ihValues entry member (definite.2.2 entry member) true⟩
  | document type slots ih =>
    rw [forall_occurs_document] at definite
    rw [alike, beq_self_eq_true, Bool.true_and, slotsAlike_iff, List.forall₂_same]
    exact fun slot member => ih slot member (definite.2 slot member) false

theorem same_self_of_isAtom {value : Value} (atom : value.isAtom = true) : value.same value = true := by
  cases value with
  | scalar => simp [same, alike, Scalar.alike]
  | member => simp [same, alike]
  | _ => cases atom

theorem same_comm_of_isAtom {a b : Value} (first : a.isAtom = true) (second : b.isAtom = true) :
    a.same b = b.same a := by
  cases a with
  | scalar =>
    cases b with
    | scalar => simp [same, alike, Scalar.alike, BEq.comm]
    | member => simp [same, alike]
    | _ => cases second
  | member =>
    cases b with
    | scalar => simp [same, alike]
    | member => simp [same, alike, BEq.comm]
    | _ => cases second
  | _ => cases first

end LayeredConfig.Value
