import LayeredConfig.Proofs.Schema.Genuine
import LayeredConfig.Proofs.Value.Likeness
import Mathlib.Data.List.Perm.Basic

namespace LayeredConfig

namespace Value

theorem isNull_toPlain (value : Value) : value.toPlain.isNull = value.isNull := by
  cases value <;> rfl

/-- A set whose members, or a dictionary whose keys, can all be written. -/
def Legible : Value → Prop
  | .set _ members => ∀ member ∈ members, member.toPlain.writable = true
  | .dict _ entries => ∀ entry ∈ entries, entry.1.writable = true
  | _ => True

instance : DecidablePred Legible
  | .set _ members => inferInstanceAs (Decidable (∀ member ∈ members, member.toPlain.writable = true))
  | .dict _ entries => inferInstanceAs (Decidable (∀ entry ∈ entries, entry.1.writable = true))
  | .scalar _ => isTrue trivial
  | .member _ _ _ => isTrue trivial
  | .seq _ _ => isTrue trivial
  | .document _ _ => isTrue trivial

/-- A document with nothing but explicit settings. -/
def Marked : Value → Prop
  | .document _ slots => ∀ slot ∈ slots, slot.explicit = true
  | _ => True

/-- A value whose sets can be written has a plain form. -/
theorem sortable_of_legible {value : Value} (legible : ∀ part, Occurs part value → part.Legible) :
    value.sortable = true := by
  induction value with
  | scalar value => rfl
  | member enumeration name value => rfl
  | seq kind items ih =>
    rw [forall_occurs_seq] at legible
    exact allSortable_iff.mpr fun item member => ih item member (legible.2 item member)
  | set kind members ih =>
    rw [forall_occurs_set] at legible
    rw [sortable, Bool.and_eq_true, allSortable_iff, plainAll_eq, allWritable_iff, List.forall_mem_map]
    exact ⟨fun member listed => ih member listed (legible.2 member listed), legible.1⟩
  | dict kind entries ihKeys ihValues =>
    rw [forall_occurs_dict] at legible
    exact entriesSortable_iff.mpr fun entry member => ihValues entry member (legible.2.2 entry member)
  | document type slots ih =>
    rw [forall_occurs_document] at legible
    exact slotsSortable_iff.mpr fun slot member => ih slot member (legible.2 slot member)

/-- Sorting for display rearranges the members of a set. -/
theorem exists_perm_of_sortByDisplay (members : List Value) :
    ∃ middle : List Value, middle.Perm members ∧
      sortByDisplay (plainAll members) = middle.map toPlain := by
  have perm : (sortByDisplay (plainAll members)).Perm (members.map toPlain) :=
    plainAll_eq members ▸ perm_sortByDisplay _
  exact exists_perm_of_map_perm perm

theorem marked_of_isAtom {value : Value} (atom : value.isAtom = true) :
    ∀ part, Occurs part value → part.Marked := by
  intro part occurs
  cases value with
  | scalar => cases occurs; trivial
  | member => cases occurs; trivial
  | _ => cases atom

theorem Apart.perm {members middle : List Value} (apart : Apart members)
    (atoms : ∀ member ∈ members, member.isAtom = true) (perm : middle.Perm members) : Apart middle where
  differ := by
    have both : members.Pairwise fun a b => a.same b = false ∧ b.same a = false :=
      apart.differ.imp_of_mem fun {a b} first second differ =>
        ⟨differ, same_comm_of_isAtom (atoms a first) (atoms b second) ▸ differ⟩
    exact (both.perm perm.symm And.symm).imp And.left
  frozen := fun value member => apart.frozen value (perm.mem_iff.mp member)

end Value

end LayeredConfig
