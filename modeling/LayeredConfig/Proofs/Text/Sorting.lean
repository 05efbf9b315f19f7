import LayeredConfig.Sorting
import Mathlib.Data.List.Nodup
import Mathlib.Data.String.Basic

namespace LayeredConfig

theorem precedes_iff [LinearOrder α] [DecidableLT α] [BEq α] [LawfulBEq α] {xs ys : List α} :
    precedes xs ys = true ↔ xs < ys := by
  induction xs generalizing ys with
  | nil => cases ys <;> simp [precedes]
  | cons x xs ih =>
    cases ys with
    | nil => simp [precedes]
    | cons y ys => simp [precedes, ih, List.cons_lt_cons_iff]

theorem sortBy_map {before : β → β → Bool} {before' : α → α → Bool} (change : α → β)
    (kept : ∀ a b, before (change a) (change b) = before' a b) (xs : List α) :
    sortBy before (xs.map change) = (sortBy before' xs).map change := by
  have inserted (x : α) (ys : List α) :
      insertSorted before (change x) (ys.map change) = (insertSorted before' x ys).map change := by
    induction ys with
    | nil => rfl
    | cons y ys ih =>
      rw [List.map_cons, insertSorted, insertSorted, kept]
      split
      · rw [ih, List.map_cons]
      · rfl
  induction xs with
  | nil => rfl
  | cons x xs ih =>
    change insertSorted before (change x) (sortBy before (xs.map change)) = _
    rw [ih, inserted]
    rfl

section sortBy

variable {β : Type} [LinearOrder β] {before : α → α → Bool} (key : α → β) {x : α} {xs ys : List α}

theorem pairwise_insertSorted (ordered : ∀ y ∈ ys, before y x = true ↔ key y < key x)
    (sorted : ys.Pairwise fun a b => key a ≤ key b) :
    (insertSorted before x ys).Pairwise fun a b => key a ≤ key b := by
  induction ys with
  | nil => exact List.pairwise_singleton _ _
  | cons y ys ih =>
    obtain ⟨first, others⟩ := List.forall_mem_cons.mp ordered
    obtain ⟨least, sorted⟩ := List.pairwise_cons.mp sorted
    rw [insertSorted]
    split
    · next above =>
      refine List.pairwise_cons.mpr ⟨fun z member => ?_, ih others sorted⟩
      rcases List.mem_cons.mp ((perm_insertSorted before x ys).mem_iff.mp member) with rfl | later
      · exact (first.mp above).le
      · exact least z later
    · next below =>
      have under : key x ≤ key y := not_lt.mp (mt first.mpr below)
      refine List.pairwise_cons.mpr ⟨fun z member => ?_, List.pairwise_cons.mpr ⟨least, sorted⟩⟩
      rcases List.mem_cons.mp member with rfl | later
      · exact under
      · exact under.trans (least z later)

theorem pairwise_sortBy (ordered : ∀ a ∈ xs, ∀ b ∈ xs, before a b = true ↔ key a < key b) :
    (sortBy before xs).Pairwise fun a b => key a ≤ key b := by
  induction xs with
  | nil => exact .nil
  | cons x xs ih =>
    have inner := ih fun a first b second =>
      ordered a (List.mem_cons_of_mem _ first) b (List.mem_cons_of_mem _ second)
    exact pairwise_insertSorted key (fun y member =>
      ordered y (List.mem_cons_of_mem _ (mem_sortBy.mp member)) x List.mem_cons_self) inner

/-- Sorting forgets the order that there was before, if no two elements have one key. -/
theorem sortBy_eq_of_perm (ordered : ∀ a ∈ xs, ∀ b ∈ xs, before a b = true ↔ key a < key b)
    (distinct : ∀ a ∈ xs, ∀ b ∈ xs, key a = key b → a = b) (perm : xs.Perm ys) :
    sortBy before xs = sortBy before ys := by
  have known {y : α} (member : y ∈ ys) : y ∈ xs := perm.mem_iff.mpr member
  have other := pairwise_sortBy key fun a first b second => ordered a (known first) b (known second)
  refine List.Perm.eq_of_pairwise (fun a b first second below above => ?_) (pairwise_sortBy key ordered)
    other ((perm_sortBy before xs).trans (perm.trans (perm_sortBy before ys).symm))
  exact distinct a (mem_sortBy.mp first) b (known (mem_sortBy.mp second)) (le_antisymm below above)

end sortBy

/-- Distinct texts are in strict order once they are sorted. -/
theorem pairwise_sortTexts {texts : List Str} (distinct : texts.Nodup) :
    (sortTexts texts).Pairwise (· < ·) := by
  have unique : (sortTexts texts).Nodup := (perm_sortBy _ texts).nodup_iff.mpr distinct
  have sorted : (sortTexts texts).Pairwise fun a b => a.codes ≤ b.codes :=
    pairwise_sortBy Str.codes fun _ _ _ _ => precedes_iff
  exact sorted.imp₂ (fun _ _ least differ => lt_of_le_of_ne least (mt Str.codes_inj.mp differ)) unique

theorem eq_of_pairwise_lt {xs ys : List Str} (first : xs.Pairwise (· < ·))
    (second : ys.Pairwise (· < ·)) (same : ∀ x, x ∈ xs ↔ x ∈ ys) : xs = ys := by
  have differ {a b : Str} (below : a.codes < b.codes) : a ≠ b := fun equal => below.ne (congrArg _ equal)
  have asymm {a b : Str} (below : a.codes < b.codes) (above : b.codes < a.codes) : a = b :=
    absurd above below.not_gt
  exact ((List.perm_ext_iff_of_nodup (first.imp differ) (second.imp differ)).mpr same).eq_of_pairwise
    (fun _ _ _ _ => asymm) first second

theorem nodup_dedupe (texts : List Str) : (dedupe texts).Nodup := by
  have step (seen : List Str) (fresh : seen.Nodup) :
      (texts.foldl (fun seen text => if seen.contains text then seen else seen ++ [text])
        seen).Nodup := by
    induction texts generalizing seen with
    | nil => exact fresh
    | cons text texts ih =>
      rw [List.foldl_cons]
      split
      · exact ih seen fresh
      · next absent =>
        have absent : text ∉ seen := by simpa using absent
        have apart : ∀ other ∈ seen, ∀ new ∈ [text], other ≠ new := by
          rintro other member new last rfl
          exact absent (List.mem_singleton.mp last ▸ member)
        exact ih _ (List.nodup_append.mpr ⟨fresh, List.nodup_singleton text, apart⟩)
  exact step [] List.nodup_nil

end LayeredConfig
