import LayeredConfig.Proofs.Value.Shuffling
import Mathlib.Algebra.Order.Field.Rat
import Mathlib.Order.WithBot
import Mathlib.Tactic.NormNum
import Mathlib.Tactic.Positivity
import Mathlib.Tactic.Ring

namespace LayeredConfig

namespace Scalar.Key

/-- A number in lowest terms: it is whole, or its numerator is odd. -/
def Lowest : Key → Prop
  | .number numerator power => power = 0 ∨ numerator % 2 = 1
  | _ => True

/-- A number, with or without bounds. -/
def IsNumber : Key → Prop
  | .number _ _ => True
  | .infinite _ => True
  | _ => False

/-- The value of a number; numbers without bounds are below or above all others. -/
def weight : Key → WithBot (WithTop ℚ)
  | .number numerator power => (((numerator : ℚ) / 2 ^ power : ℚ) : WithTop ℚ)
  | .infinite true => ⊥
  | _ => (⊤ : WithTop ℚ)

theorem lowest_halve (numerator : Int) (power : Nat) :
    (Binary64.halve numerator power).2 = 0 ∨ (Binary64.halve numerator power).1 % 2 = 1 := by
  induction power generalizing numerator with
  | zero => exact .inl rfl
  | succ power ih =>
    rw [Binary64.halve]
    split
    · exact ih _
    · next odd =>
      have odd : numerator % 2 ≠ 0 := by simpa using odd
      exact .inr (by omega)

theorem lowest_key (value : Scalar) : value.key.Lowest := by
  cases value with
  | float x =>
    cases x with
    | finite negative significand exponent => exact lowest_halve _ _
    | _ => trivial
  | bool value => exact .inl rfl
  | int value => exact .inl rfl
  | moment moment =>
    rw [Scalar.key]
    split <;> trivial
  | _ => trivial

/-- A fraction in lowest terms has no smaller power below than an equal one. -/
theorem power_le {a b : Int} {i j : Nat} (lowest : j = 0 ∨ b % 2 = 1) (cross : a * 2 ^ j = b * 2 ^ i) :
    j ≤ i := by
  by_contra above
  obtain ⟨more, rfl⟩ : ∃ more, j = i + (more + 1) := ⟨j - i - 1, by omega⟩
  have positive : (2 : Int) ^ i ≠ 0 := by positivity
  have even : b = 2 * (a * 2 ^ more) := by
    apply mul_right_cancel₀ positive
    rw [← cross, pow_add, pow_succ]
    ring
  rcases lowest with zero | odd
  · omega
  · omega

theorem number_injective {a b : Int} {i j : Nat} (lowest : i = 0 ∨ a % 2 = 1) (lowest' : j = 0 ∨ b % 2 = 1)
    (same : (a : ℚ) / 2 ^ i = (b : ℚ) / 2 ^ j) : a = b ∧ i = j := by
  have cross : a * 2 ^ j = b * 2 ^ i := by
    rw [div_eq_div_iff (by positivity) (by positivity)] at same
    exact_mod_cast same
  obtain rfl : i = j := le_antisymm (power_le lowest cross.symm) (power_le lowest' cross)
  exact ⟨mul_right_cancel₀ (by positivity) cross, rfl⟩

theorem weight_injective {k l : Key} (number : k.IsNumber) (number' : l.IsNumber) (lowest : k.Lowest)
    (lowest' : l.Lowest) (same : k.weight = l.weight) : k = l := by
  cases k with
  | number a i =>
    cases l with
    | number b j =>
      have values : (a : ℚ) / 2 ^ i = (b : ℚ) / 2 ^ j := by simpa [weight] using same
      obtain ⟨rfl, rfl⟩ := number_injective lowest lowest' values
      rfl
    | infinite negative => cases negative <;> simp [weight] at same
    | _ => cases number'
  | infinite negative =>
    cases l with
    | number b j => cases negative <;> simp [weight] at same
    | infinite negative' => cases negative <;> cases negative' <;> first | rfl | simp [weight] at same
    | _ => cases number'
  | _ => cases number

theorem numberPrecedes_iff {k l : Key} (number : k.IsNumber) (number' : l.IsNumber) :
    Value.numberPrecedes k l = true ↔ k.weight < l.weight := by
  have below (value : ℚ) : ((value : WithTop ℚ) : WithBot (WithTop ℚ)) < ⊤ :=
    WithBot.coe_lt_coe.mpr (WithTop.coe_lt_top value)
  cases k with
  | number a i =>
    cases l with
    | number b j =>
      have values : (a : ℚ) / 2 ^ i < (b : ℚ) / 2 ^ j ↔ a * 2 ^ j < b * 2 ^ i := by
        rw [div_lt_div_iff₀ (by positivity) (by positivity)]
        exact_mod_cast Iff.rfl
      simpa [weight, Value.numberPrecedes] using values.symm
    | infinite negative => cases negative <;> simp [weight, Value.numberPrecedes, below]
    | _ => cases number'
  | infinite negative =>
    cases l with
    | number b j => cases negative <;> simp [weight, Value.numberPrecedes]
    | infinite negative' => cases negative <;> cases negative' <;> simp [weight, Value.numberPrecedes]
    | _ => cases number'
  | _ => cases number

end Scalar.Key

namespace Value

/-- What a key is told from others by, if it is a scalar. -/
def scalarKey : Value → Scalar.Key
  | .scalar value => value.key
  | _ => .null

theorem lowest_scalarKey (key : Value) : key.scalarKey.Lowest := by
  cases key with
  | scalar value => exact Scalar.Key.lowest_key value
  | _ => trivial

theorem isNumber_scalarKey {key : Value} (number : key.isNumberKey = true)
    (definite : key.isNotANumber = false) : key.scalarKey.IsNumber := by
  cases key with
  | scalar value =>
    cases value with
    | bool value => trivial
    | int value => trivial
    | float x =>
      cases x with
      | finite negative significand exponent => trivial
      | infinite negative => trivial
      | notANumber origin => cases definite
    | _ => cases number
  | _ => cases number

theorem same_of_scalarKey {key key' : Value} (number : key.isNumberKey = true)
    (number' : key'.isNumberKey = true) (equal : key.scalarKey = key'.scalarKey) :
    key.same key' = true := by
  cases key with
  | scalar value =>
    cases key' with
    | scalar value' =>
      have equal : value.key = value'.key := equal
      simp [same, alike, Scalar.alike, equal]
    | _ => cases number'
  | _ => cases number

theorem keyPrecedes_iff {key key' : Value} (number : key.isNumberKey = true)
    (number' : key'.isNumberKey = true) (definite : key.isNotANumber = false)
    (definite' : key'.isNotANumber = false) :
    keyPrecedes key key' = true ↔ key.scalarKey.weight < key'.scalarKey.weight := by
  have order := Scalar.Key.numberPrecedes_iff (isNumber_scalarKey number definite)
    (isNumber_scalarKey number' definite')
  cases key with
  | scalar value =>
    cases key' with
    | scalar value' =>
      rw [← order]
      cases value with
      | str text => cases number
      | _ => rfl
    | _ => cases number'
  | _ => cases number

/-- Entries whose keys are different numbers have one order. -/
theorem sortBy_eq_of_apart {entries entries' : List (Value × Value)}
    (numbers : ∀ entry ∈ entries, entry.1.isNumberKey = true)
    (definite : ∀ entry ∈ entries, entry.1.isNotANumber = false) (apart : Apart (entries.map (·.1)))
    (perm : (canonicalEntries entries).Perm (canonicalEntries entries')) :
    sortBy (fun a b => keyPrecedes a.1 b.1) (canonicalEntries entries) =
      sortBy (fun a b => keyPrecedes a.1 b.1) (canonicalEntries entries') := by
  rw [canonicalEntries_eq entries] at perm ⊢
  have distinct : (entries.map fun entry => entry.1.scalarKey.weight).Nodup := by
    refine List.pairwise_map.mpr ((List.pairwise_map.mp apart.differ).imp_of_mem ?_)
    intro entry entry' member member' differ same
    have keys := Scalar.Key.weight_injective (isNumber_scalarKey (numbers _ member) (definite _ member))
      (isNumber_scalarKey (numbers _ member') (definite _ member')) (lowest_scalarKey _)
      (lowest_scalarKey _) same
    rw [same_of_scalarKey (numbers _ member) (numbers _ member') keys] at differ
    cases differ
  refine sortBy_eq_of_perm (fun entry => entry.1.scalarKey.weight) ?_ ?_ perm
  · simp only [List.forall_mem_map]
    exact fun entry member entry' member' => keyPrecedes_iff (numbers _ member) (numbers _ member')
      (definite _ member) (definite _ member')
  · simp only [List.forall_mem_map]
    exact fun entry member entry' member' same =>
      List.inj_on_of_nodup_map distinct member member' same ▸ rfl

/-- The canonical text of a dictionary does not depend on the order of its entries, if none of its keys is a
result that is not a number. -/
theorem canonical_dict_of_apart {entries entries' : List (Value × Value)}
    (apart : Apart (entries.map (·.1))) (definite : ∀ entry ∈ entries, entry.1.isNotANumber = false)
    (perm : (canonicalEntries entries).Perm (canonicalEntries entries')) (kind : DictKind) :
    canonical (.dict kind entries) = canonical (.dict kind entries') := by
  cases texts : (entries.map (·.1)).all isTextKey with
  | true =>
    rw [List.all_eq_true] at texts
    exact canonical_dict_of_perm (List.forall_mem_map.mp texts) (nodup_of_apart texts apart) perm kind
  | false =>
    refine canonical_dict_of_sorted perm (fun ordered => ?_) kind
    rw [keys_canonicalEntries, haveOrder, texts, Bool.or_false, Bool.or_eq_true, decide_eq_true_eq,
      List.length_map] at ordered
    rcases ordered with single | numbers
    · obtain _ | ⟨entry, _ | ⟨_, _⟩⟩ := entries
      · cases texts
      · rw [← perm.singleton_eq]
        rfl
      · simp at single
    · rw [List.all_eq_true, List.forall_mem_map] at numbers
      exact sortBy_eq_of_apart numbers definite apart perm

end Value

end LayeredConfig
