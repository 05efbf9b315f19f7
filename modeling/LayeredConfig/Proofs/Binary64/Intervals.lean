import LayeredConfig.Binary64.Shortest
import Mathlib.Algebra.Order.Field.Basic
import Mathlib.Algebra.Order.Field.Power
import Mathlib.Data.Rat.Cast.Order
import Mathlib.Tactic.FieldSimp
import Mathlib.Tactic.Linarith
import Mathlib.Tactic.Positivity
import Mathlib.Tactic.Ring

namespace LayeredConfig.Binary64

theorem natPow_div (base : Nat) (power : Int) :
    ((base ^ power.toNat : Nat) : ℚ) / (base ^ (-power).toNat : Nat) = (base : ℚ) ^ power := by
  obtain ⟨n, rfl | rfl⟩ := power.eq_nat_or_neg
  · simp
  · simp

namespace Neighbourhood

/-- A fraction is in a neighbourhood. -/
def Holds (n : Neighbourhood) (point : ℚ) : Prop :=
  if n.closed then (n.low : ℚ) / n.unit ≤ point ∧ point ≤ n.high / n.unit
  else (n.low : ℚ) / n.unit < point ∧ point < n.high / n.unit

variable {n : Neighbourhood} {point : ℚ}

theorem Holds.between (holds : n.Holds point) : (n.low : ℚ) / n.unit ≤ point ∧ point ≤ n.high / n.unit := by
  unfold Holds at holds
  split at holds
  · exact holds
  · exact ⟨holds.1.le, holds.2.le⟩

theorem Holds.inside (holds : n.Holds point) (opened : n.closed = false) :
    (n.low : ℚ) / n.unit < point ∧ point < n.high / n.unit := by
  rwa [Holds, opened, if_neg Bool.false_ne_true] at holds

theorem holds_of_inside (below : (n.low : ℚ) / n.unit < point) (above : point < n.high / n.unit) : n.Holds point := by
  unfold Holds
  split
  · exact ⟨below.le, above.le⟩
  · exact ⟨below, above⟩

end Neighbourhood

section ends

variable {significand significand' : Nat} {exponent exponent' : Int}

/-- How many quarters of the last place lie between a number and the lower end of its neighbourhood. -/
def below (significand : Nat) (exponent : Int) : Nat :=
  if significand == Nat.pow 2 52 && leastExponent < exponent then 1 else 2

theorem below_bounds (significand : Nat) (exponent : Int) :
    1 ≤ below significand exponent ∧ below significand exponent ≤ 2 := by
  unfold below
  split
  · exact ⟨le_rfl, one_le_two⟩
  · exact ⟨one_le_two, le_rfl⟩

theorem unit_pos (significand : Nat) (exponent : Int) : 0 < (neighbourhood significand exponent).unit :=
  Nat.pow_pos (by decide)

theorem quarters_div (count significand : Nat) (exponent : Int) :
    ((count * Nat.pow 2 (exponent - 2).toNat : Nat) : ℚ) / (neighbourhood significand exponent).unit =
      count * 2 ^ (exponent - 2) := by
  have power := natPow_div 2 (exponent - 2)
  rw [Int.neg_sub] at power
  rw [Nat.cast_mul, mul_div_assoc]
  exact congrArg _ power

theorem low_div (significand : Nat) (exponent : Int) :
    ((neighbourhood significand exponent).low : ℚ) / (neighbourhood significand exponent).unit =
      ((4 * significand - below significand exponent : Nat) : ℚ) * 2 ^ (exponent - 2) :=
  quarters_div _ _ _

theorem high_div (significand : Nat) (exponent : Int) :
    ((neighbourhood significand exponent).high : ℚ) / (neighbourhood significand exponent).unit =
      ((4 * significand + 2 : Nat) : ℚ) * 2 ^ (exponent - 2) :=
  quarters_div _ _ _

theorem middle_div (significand : Nat) (exponent : Int) :
    ((neighbourhood significand exponent).middle : ℚ) / (neighbourhood significand exponent).unit =
      ((4 * significand : Nat) : ℚ) * 2 ^ (exponent - 2) :=
  quarters_div _ _ _

/-- A number is between the ends of its neighbourhood. -/
theorem middle_between (positive : 0 < significand) :
    ((neighbourhood significand exponent).low : ℚ) / (neighbourhood significand exponent).unit <
      (neighbourhood significand exponent).middle / (neighbourhood significand exponent).unit ∧
    ((neighbourhood significand exponent).middle : ℚ) / (neighbourhood significand exponent).unit <
      (neighbourhood significand exponent).high / (neighbourhood significand exponent).unit := by
  have quarter : (0 : ℚ) < 2 ^ (exponent - 2) := by positivity
  have bounds := below_bounds significand exponent
  have less : 4 * significand - below significand exponent < 4 * significand := by omega
  have less' : 4 * significand < 4 * significand + 2 := by omega
  rw [low_div, middle_div, high_div]
  exact ⟨mul_lt_mul_of_pos_right (by exact_mod_cast less) quarter,
    mul_lt_mul_of_pos_right (by exact_mod_cast less') quarter⟩

/-- Between the neighbourhoods of two numbers there may be one end of both, but not if both significands are even. -/
theorem gap {steps : Nat} (lt : significand < 2 ^ 53)
    (order : 0 < steps ∧ 2 ^ 52 ≤ significand' ∧ leastExponent < exponent' ∨ steps = 0 ∧ significand < significand') :
    4 * significand + 2 ≤ (4 * significand' - below significand' exponent') * 2 ^ steps ∧
      (significand % 2 = 0 → significand' % 2 = 0 →
        4 * significand + 2 < (4 * significand' - below significand' exponent') * 2 ^ steps) := by
  rcases order with ⟨apart, filled, above⟩ | ⟨rfl, less⟩
  · have half : 2 ^ 54 - 1 ≤ 4 * significand' - below significand' exponent' := by
      unfold below
      by_cases least : significand' = 2 ^ 52
      · rw [if_pos (by simp [least, above])]
        omega
      · split <;> omega
    have twice : 2 ^ 1 ≤ 2 ^ steps := Nat.pow_le_pow_right (by decide) apart
    have far := Nat.mul_le_mul half twice
    omega
  · unfold below
    rw [pow_zero, Nat.mul_one]
    split <;> omega

/-- A fraction in the neighbourhood of a number is in none of a greater number. -/
theorem Fitted.not_holds (fitted : Fitted significand exponent) (fitted' : Fitted significand' exponent')
    (order : exponent < exponent' ∨ exponent = exponent' ∧ significand < significand') {point : ℚ}
    (holds : (neighbourhood significand exponent).Holds point) :
    ¬ (neighbourhood significand' exponent').Holds point := by
  intro holds'
  obtain ⟨steps, rfl⟩ : ∃ steps : Nat, exponent' = exponent + steps := Int.exists_add_of_le (by omega)
  have known : 0 < steps ∧ 2 ^ 52 ≤ significand' ∧ leastExponent < exponent + steps ∨
      steps = 0 ∧ significand < significand' := by
    have least := fitted.least
    have filled : 2 ^ 52 ≤ significand' ∨ exponent + steps = leastExponent := fitted'.filled
    omega
  obtain ⟨apart, strictly⟩ := gap fitted.lt known
  have quarter : (0 : ℚ) < 2 ^ (exponent - 2) := by positivity
  have lower : ((neighbourhood significand' (exponent + steps)).low : ℚ) /
      (neighbourhood significand' (exponent + steps)).unit =
        ((4 * significand' - below significand' (exponent + steps)) * 2 ^ steps : Nat) * 2 ^ (exponent - 2) := by
    rw [low_div, Nat.cast_mul, mul_assoc, Nat.cast_pow, Nat.cast_ofNat, ← zpow_natCast, ← zpow_add₀ two_ne_zero]
    congr 2
    omega
  have ends : ((neighbourhood significand exponent).high : ℚ) / (neighbourhood significand exponent).unit ≤
      (neighbourhood significand' (exponent + steps)).low / (neighbourhood significand' (exponent + steps)).unit := by
    rw [high_div, lower]
    exact mul_le_mul_of_nonneg_right (by exact_mod_cast apart) quarter.le
  have between := holds.between
  have between' := holds'.between
  cases closed : (neighbourhood significand exponent).closed with
  | false => linarith [holds.inside closed]
  | true =>
    cases closed' : (neighbourhood significand' (exponent + steps)).closed with
    | false => linarith [holds'.inside closed']
    | true =>
      have further := strictly (eq_of_beq closed) (eq_of_beq closed')
      have ends : ((neighbourhood significand exponent).high : ℚ) / (neighbourhood significand exponent).unit <
          (neighbourhood significand' (exponent + steps)).low /
            (neighbourhood significand' (exponent + steps)).unit := by
        rw [high_div, lower]
        exact mul_lt_mul_of_pos_right (by exact_mod_cast further) quarter
      linarith

theorem Fitted.unique (fitted : Fitted significand exponent) (fitted' : Fitted significand' exponent') {point : ℚ}
    (holds : (neighbourhood significand exponent).Holds point)
    (holds' : (neighbourhood significand' exponent').Holds point) :
    significand = significand' ∧ exponent = exponent' := by
  by_contra differ
  have order : (exponent < exponent' ∨ exponent = exponent' ∧ significand < significand') ∨
      (exponent' < exponent ∨ exponent' = exponent ∧ significand' < significand) := by omega
  rcases order with less | greater
  · exact fitted.not_holds fitted' less holds holds'
  · exact fitted'.not_holds fitted greater holds' holds

/-- The neighbourhood of a positive number is one of positive fractions. -/
theorem Fitted.point_pos (fitted : Fitted significand exponent) {point : ℚ}
    (holds : (neighbourhood significand exponent).Holds point) : 0 < point := by
  have positive := fitted.positive
  have bounds := below_bounds significand exponent
  have low : 0 < 4 * significand - below significand exponent := by omega
  have quarter : (0 : ℚ) < 2 ^ (exponent - 2) := by positivity
  have lower : 0 < ((neighbourhood significand exponent).low : ℚ) / (neighbourhood significand exponent).unit := by
    rw [low_div]
    exact mul_pos (by exact_mod_cast low) quarter
  exact lower.trans_le holds.between.1

end ends

end LayeredConfig.Binary64
