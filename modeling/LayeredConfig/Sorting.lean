import LayeredConfig.Text.Str

namespace LayeredConfig

/-- Puts an element in front of a sorted list, after those that come before it. -/
def insertSorted (before : α → α → Bool) (x : α) : List α → List α
  | [] => [x]
  | y :: ys => if before y x then y :: insertSorted before x ys else x :: y :: ys

theorem perm_insertSorted (before : α → α → Bool) (x : α) (ys : List α) :
    (insertSorted before x ys).Perm (x :: ys) := by
  induction ys with
  | nil => exact .refl _
  | cons y ys ih =>
    rw [insertSorted]
    split
    · exact (ih.cons y).trans (.swap x y ys)
    · exact .refl _

/-- Sorts a list; elements neither of which comes before the other keep their order. -/
def sortBy (before : α → α → Bool) (xs : List α) : List α :=
  xs.foldr (insertSorted before) []

theorem perm_sortBy (before : α → α → Bool) (xs : List α) : (sortBy before xs).Perm xs := by
  induction xs with
  | nil => exact .refl _
  | cons x xs ih => exact (perm_insertSorted before x _).trans (ih.cons x)

theorem mem_sortBy {before : α → α → Bool} {xs : List α} {x : α} :
    x ∈ sortBy before xs ↔ x ∈ xs :=
  (perm_sortBy before xs).mem_iff

theorem length_sortBy (before : α → α → Bool) (xs : List α) :
    (sortBy before xs).length = xs.length :=
  (perm_sortBy before xs).length_eq

/-- Whether a sequence comes before another, by the first place where they differ. -/
def precedes [LT α] [DecidableLT α] [BEq α] : List α → List α → Bool
  | _, [] => false
  | [], _ :: _ => true
  | x :: xs, y :: ys => x < y || (x == y && precedes xs ys)

/-- Texts in the order of their code points. -/
def sortTexts (texts : List Str) : List Str :=
  sortBy (fun a b => precedes a.codes b.codes) texts

/-- Drops elements that occurred before. -/
def dedupe [BEq α] (xs : List α) : List α :=
  xs.foldl (fun seen x => if seen.contains x then seen else seen ++ [x]) []

theorem mem_foldl_dedupe [BEq α] [LawfulBEq α] {x : α} (xs seen : List α) :
    x ∈ xs.foldl (fun seen x => if seen.contains x then seen else seen ++ [x]) seen ↔
      x ∈ seen ∨ x ∈ xs := by
  induction xs generalizing seen with
  | nil => simp
  | cons y ys ih =>
    rw [List.foldl_cons, ih]
    by_cases known : y ∈ seen
    · have tail : x = y → x ∈ seen := fun equal => equal ▸ known
      simp only [List.contains_iff_mem, known, if_true, List.mem_cons]
      grind
    · simp only [List.contains_iff_mem, known, if_false, List.mem_append, List.mem_cons]
      grind

theorem mem_dedupe [BEq α] [LawfulBEq α] {x : α} {xs : List α} : x ∈ dedupe xs ↔ x ∈ xs := by
  rw [dedupe, mem_foldl_dedupe]
  simp

end LayeredConfig
