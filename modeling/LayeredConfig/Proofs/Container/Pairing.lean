import Mathlib.Data.List.Nodup
import Mathlib.Data.List.Perm.Basic

namespace LayeredConfig

variable {α β γ : Type} {relation : α → β → Prop} {xs : List α} {ys : List β}

theorem forall₂_of_zip (length : xs.length = ys.length)
    (related : ∀ pair ∈ xs.zip ys, relation pair.1 pair.2) : List.Forall₂ relation xs ys :=
  List.forall₂_iff_zip.mpr ⟨length, fun beside => related _ beside⟩

theorem forall_zip_of_forall₂ (similar : List.Forall₂ relation xs ys) :
    ∀ pair ∈ xs.zip ys, relation pair.1 pair.2 :=
  fun _ beside => List.forall₂_zip similar beside

theorem forall₂_imp_of_mem {relation' : α → β → Prop} (similar : List.Forall₂ relation xs ys)
    (related : ∀ x ∈ xs, ∀ y ∈ ys, relation x y → relation' x y) : List.Forall₂ relation' xs ys := by
  refine forall₂_of_zip similar.length_eq fun pair member => ?_
  obtain ⟨here, there⟩ := List.of_mem_zip member
  exact related pair.1 here pair.2 there (forall_zip_of_forall₂ similar pair member)

theorem exists_sublist_of_forall₂ {part : List α} (similar : List.Forall₂ relation xs ys)
    (sublist : part.Sublist xs) : ∃ other, other.Sublist ys ∧ List.Forall₂ relation part other := by
  induction sublist generalizing ys with
  | slnil => exact ⟨[], List.nil_sublist ys, .nil⟩
  | cons _ _ ih =>
    cases similar with
    | cons here later =>
      obtain ⟨other, sublist, beside⟩ := ih later
      exact ⟨other, sublist.cons _, beside⟩
  | cons_cons _ _ ih =>
    cases similar with
    | @cons _ y _ _ here later =>
      obtain ⟨other, sublist, beside⟩ := ih later
      exact ⟨y :: other, sublist.cons_cons y, .cons here beside⟩

theorem eq_of_mem_zip_self {xs : List α} : ∀ pair ∈ xs.zip xs, pair.1 = pair.2 :=
  forall_zip_of_forall₂ (List.forall₂_same.mpr fun _ _ => rfl)

theorem exists_mem_of_forall₂ (similar : List.Forall₂ relation xs ys) :
    ∀ x ∈ xs, ∃ y ∈ ys, relation x y := by
  induction similar with
  | nil => exact nofun
  | @cons x y xs ys related _ ih =>
    refine List.forall_mem_cons.mpr ⟨⟨y, List.mem_cons_self, related⟩, fun other member => ?_⟩
    obtain ⟨matching, here, related⟩ := ih other member
    exact ⟨matching, List.mem_cons_of_mem _ here, related⟩

theorem forall₂_trans {δ : Type} {relation' : β → δ → Prop} {result : α → δ → Prop} {zs : List δ}
    (first : List.Forall₂ relation xs ys) (second : List.Forall₂ relation' ys zs)
    (related : ∀ x y z, relation x y → relation' y z → result x z) : List.Forall₂ result xs zs := by
  induction first generalizing zs with
  | nil =>
    cases second
    exact .nil
  | cons here _ ih =>
    cases second with
    | cons there rest => exact .cons (related _ _ _ here there) (ih rest)

theorem map_eq_of_forall₂ {f : α → γ} {g : β → γ}
    (similar : List.Forall₂ (fun x y => f x = g y) xs ys) : xs.map f = ys.map g := by
  rw [← List.forall₂_eq_eq_eq, List.forall₂_map_left_iff, List.forall₂_map_right_iff]
  exact similar

theorem forall₂_of_map_eq {f : α → γ} {g : β → γ} (same : xs.map f = ys.map g) :
    List.Forall₂ (fun x y => f x = g y) xs ys := by
  rwa [← List.forall₂_eq_eq_eq, List.forall₂_map_left_iff, List.forall₂_map_right_iff] at same

/-- Lists are one if their images are and a function tells their elements from each other. -/
theorem eq_of_map_eq {f : α → γ} {xs ys : List α} (injective : ∀ x ∈ xs, ∀ y ∈ ys, f x = f y → x = y)
    (same : xs.map f = ys.map f) : xs = ys := by
  have beside := forall₂_of_map_eq same
  refine List.forall₂_eq_eq_eq ▸ forall₂_of_zip beside.length_eq fun pair member => ?_
  exact injective pair.1 (List.of_mem_zip member).1 pair.2 (List.of_mem_zip member).2
    (forall_zip_of_forall₂ beside pair member)

/-- Two arrangements of elements in which the same keys follow each other are one, if no key occurs twice. -/
theorem eq_of_perm_of_map_eq {key : α → γ} {xs ys : List α} (perm : xs.Perm ys)
    (same : xs.map key = ys.map key) (distinct : (xs.map key).Nodup) : xs = ys := by
  have beside := forall₂_of_map_eq same
  refine List.forall₂_eq_eq_eq ▸ forall₂_of_zip beside.length_eq fun pair member => ?_
  have listed : pair.2 ∈ xs := perm.mem_iff.mpr (List.of_mem_zip member).2
  exact List.inj_on_of_nodup_map distinct (List.of_mem_zip member).1 listed
    (forall_zip_of_forall₂ beside pair member)

/-- What the images of some elements are rearranged to are the images of rearranged elements. -/
theorem exists_perm_of_map_perm {f : α → β} (perm : ys.Perm (xs.map f)) :
    ∃ middle : List α, middle.Perm xs ∧ ys = middle.map f := by
  rw [← congrFun (congrFun (List.eq_map_comp_perm f) _) xs] at perm
  obtain ⟨middle, same, perm⟩ := perm
  exact ⟨middle, perm, same⟩

theorem forall₂_zipIdx (similar : List.Forall₂ relation xs ys) (index : Nat) :
    List.Forall₂ (fun x y => relation x.1 y.1 ∧ x.2 = y.2) (xs.zipIdx index) (ys.zipIdx index) := by
  induction similar generalizing index with
  | nil => exact .nil
  | cons here _ ih => exact .cons ⟨here, rfl⟩ (ih (index + 1))

end LayeredConfig
