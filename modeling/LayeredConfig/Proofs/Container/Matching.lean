import LayeredConfig.Proofs.Container.Pairing

namespace LayeredConfig

variable {α β γ : Type}

/-- The elements of the second list are related one by one to those of the first in some order. -/
def Rearranged (relation : α → β → Prop) (xs : List α) (ys : List β) : Prop :=
  ∃ middle, xs.Perm middle ∧ List.Forall₂ relation middle ys

namespace Rearranged

variable {relation : α → β → Prop} {xs : List α} {ys : List β}

theorem of_forall₂ (similar : List.Forall₂ relation xs ys) : Rearranged relation xs ys :=
  ⟨xs, .refl xs, similar⟩

theorem of_perm_right {others : List β} (similar : List.Forall₂ relation xs others)
    (perm : others.Perm ys) : Rearranged relation xs ys := by
  have both : Relation.Comp (List.Forall₂ relation) List.Perm xs ys := ⟨others, similar, perm⟩
  rw [List.forall₂_comp_perm_eq_perm_comp_forall₂] at both
  exact both

theorem imp_of_mem {relation' : α → β → Prop} (similar : Rearranged relation xs ys)
    (related : ∀ x ∈ xs, ∀ y ∈ ys, relation x y → relation' x y) : Rearranged relation' xs ys := by
  obtain ⟨middle, perm, beside⟩ := similar
  exact ⟨middle, perm, forall₂_imp_of_mem beside fun x here => related x (perm.mem_iff.mpr here)⟩

theorem map_perm {f : α → γ} {g : β → γ} (similar : Rearranged (fun x y => f x = g y) xs ys) :
    (xs.map f).Perm (ys.map g) := by
  obtain ⟨middle, perm, beside⟩ := similar
  exact map_eq_of_forall₂ beside ▸ perm.map f

theorem flip {reverse : β → α → Prop} (similar : Rearranged relation xs ys)
    (related : ∀ x y, relation x y → reverse y x) : Rearranged reverse ys xs := by
  obtain ⟨middle, perm, beside⟩ := similar
  exact of_perm_right (beside.flip.imp fun y x here => related x y here) perm.symm

theorem trans {relation' : β → γ → Prop} {result : α → γ → Prop} {zs : List γ}
    (first : Rearranged relation xs ys) (second : Rearranged relation' ys zs)
    (related : ∀ x y z, relation x y → relation' y z → result x z) : Rearranged result xs zs := by
  obtain ⟨middle, perm, beside⟩ := first
  obtain ⟨middle', perm', beside'⟩ := second
  obtain ⟨others, perm'', beside''⟩ := of_perm_right beside perm'
  exact ⟨others, perm.trans perm'', forall₂_trans beside'' beside' related⟩

/-- Elements are related one by one if each of the first list is related to one of the second, no two of
them to the same, and the lists are equally long. -/
theorem of_injective (length : xs.length = ys.length) (related : ∀ x ∈ xs, ∃ y ∈ ys, relation x y)
    (apart : xs.Pairwise fun x x' => ∀ y ∈ ys, relation x y → ¬ relation x' y) :
    Rearranged relation xs ys := by
  induction xs generalizing ys with
  | nil =>
    rw [List.eq_nil_of_length_eq_zero length.symm]
    exact of_forall₂ .nil
  | cons x xs ih =>
    obtain ⟨⟨y, listed, here⟩, others⟩ := List.forall_mem_cons.mp related
    obtain ⟨differ, apart⟩ := List.pairwise_cons.mp apart
    obtain ⟨before, behind, rfl⟩ := List.append_of_mem listed
    have rest : ∀ x' ∈ xs, ∃ y' ∈ before ++ behind, relation x' y' := by
      intro x' member
      obtain ⟨y', listed', there⟩ := others x' member
      rcases List.mem_append.mp listed' with front | tail
      · exact ⟨y', List.mem_append_left _ front, there⟩
      · rcases List.mem_cons.mp tail with rfl | back
        · exact absurd there (differ x' member y' listed here)
        · exact ⟨y', List.mem_append_right _ back, there⟩
    have length' : xs.length = (before ++ behind).length := by
      simp only [List.length_cons, List.length_append] at length ⊢
      omega
    have apart' : xs.Pairwise fun x x' => ∀ y ∈ before ++ behind, relation x y → ¬ relation x' y := by
      refine apart.imp fun unrelated y' member => unrelated y' ?_
      exact List.perm_middle.mem_iff.mpr (List.mem_cons_of_mem _ member)
    obtain ⟨middle, perm, beside⟩ := ih length' rest apart'
    obtain ⟨middle', perm', beside'⟩ := of_perm_right (.cons here beside) List.perm_middle.symm
    exact ⟨middle', (perm.cons x).trans perm', beside'⟩

end Rearranged

end LayeredConfig
