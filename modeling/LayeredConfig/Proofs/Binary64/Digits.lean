import LayeredConfig.Proofs.Binary64.Intervals
import Mathlib.Data.Nat.Cast.Order.Field

/-!
The shortest digits of a number. At the seventeenth place at the latest a multiple of a power of ten rounds to the
number, so the search for one ends, and what it finds stands for a fraction that rounds to the number.
-/

namespace LayeredConfig.Binary64

section grid

variable {n : Neighbourhood} {grid : Int} {digits : Nat}

theorem point_le_iff (unit : 0 < n.unit) (grid : Int) (a b : Nat) :
    a * (Nat.pow 10 grid.toNat * n.unit) ≤ b * Nat.pow 10 (-grid).toNat ↔ (a : ℚ) * 10 ^ grid ≤ b / n.unit := by
  have power : ((10 ^ grid.toNat : Nat) : ℚ) / (10 ^ (-grid).toNat : Nat) = 10 ^ grid := natPow_div 10 grid
  have shift : (0 : ℚ) < (10 ^ (-grid).toNat : Nat) := by positivity
  have filled : (0 : ℚ) < n.unit := by exact_mod_cast unit
  rw [← power, ← mul_div_assoc, div_le_div_iff₀ shift filled, mul_assoc]
  exact_mod_cast Iff.rfl

theorem le_point_iff (unit : 0 < n.unit) (grid : Int) (a b : Nat) :
    b * Nat.pow 10 (-grid).toNat ≤ a * (Nat.pow 10 grid.toNat * n.unit) ↔ (b : ℚ) / n.unit ≤ a * 10 ^ grid := by
  have power : ((10 ^ grid.toNat : Nat) : ℚ) / (10 ^ (-grid).toNat : Nat) = 10 ^ grid := natPow_div 10 grid
  have shift : (0 : ℚ) < (10 ^ (-grid).toNat : Nat) := by positivity
  have filled : (0 : ℚ) < n.unit := by exact_mod_cast unit
  rw [← power, ← mul_div_assoc, div_le_div_iff₀ filled shift, mul_assoc]
  exact_mod_cast Iff.rfl

/-- Whether a multiple of a power of ten is in a neighbourhood. -/
def Neighbourhood.includes (n : Neighbourhood) (grid : Int) (digits : Nat) : Bool :=
  let point := digits * (Nat.pow 10 grid.toNat * n.unit)
  let shift := Nat.pow 10 (-grid).toNat
  if n.closed then n.low * shift ≤ point && point ≤ n.high * shift
  else n.low * shift < point && point < n.high * shift

theorem includes_iff (unit : 0 < n.unit) : n.includes grid digits = true ↔ n.Holds (digits * 10 ^ grid) := by
  unfold Neighbourhood.includes Neighbourhood.Holds
  dsimp only
  split
  · rw [Bool.and_eq_true, decide_eq_true_iff, decide_eq_true_iff, le_point_iff unit, point_le_iff unit]
  · rw [Bool.and_eq_true, decide_eq_true_iff, decide_eq_true_iff, ← not_le, ← not_le, point_le_iff unit,
      le_point_iff unit, not_le, not_le]

/-- The multiple just below the middle. -/
def Neighbourhood.floor (n : Neighbourhood) (grid : Int) : Nat :=
  n.middle * Nat.pow 10 (-grid).toNat / (Nat.pow 10 grid.toNat * n.unit)

/-- One of the two multiples beside the middle is taken, if it is in the neighbourhood. -/
theorem onGrid?_cases (n : Neighbourhood) (grid : Int) :
    (∃ digits, onGrid? n grid = some digits ∧ n.includes grid digits = true) ∨
      onGrid? n grid = none ∧ n.includes grid (n.floor grid) = false ∧
        n.includes grid (n.floor grid + 1) = false := by
  obtain ⟨nearer, form⟩ : ∃ nearer : Bool, onGrid? n grid =
      if n.includes grid (n.floor grid) && n.includes grid (n.floor grid + 1) then
        if nearer then some (n.floor grid) else some (n.floor grid + 1)
      else if n.includes grid (n.floor grid) then some (n.floor grid)
      else if n.includes grid (n.floor grid + 1) then some (n.floor grid + 1)
      else none := ⟨_, rfl⟩
  rw [form]
  cases lower : n.includes grid (n.floor grid) with
  | true =>
    cases upper : n.includes grid (n.floor grid + 1) with
    | true =>
      cases nearer with
      | true => exact .inl ⟨_, rfl, lower⟩
      | false => exact .inl ⟨_, rfl, upper⟩
    | false => exact .inl ⟨_, rfl, lower⟩
  | false =>
    cases upper : n.includes grid (n.floor grid + 1) with
    | true => exact .inl ⟨_, rfl, upper⟩
    | false => exact .inr ⟨rfl, rfl, rfl⟩

theorem floor_le (unit : 0 < n.unit) : (n.floor grid : ℚ) * 10 ^ grid ≤ n.middle / n.unit :=
  (point_le_iff unit grid _ _).mp (Nat.div_mul_le_self _ _)

theorem lt_floor (unit : 0 < n.unit) : (n.middle : ℚ) / n.unit < ((n.floor grid + 1 : Nat) : ℚ) * 10 ^ grid := by
  rw [← not_le, ← point_le_iff unit, not_le, Nat.mul_comm (n.floor grid + 1)]
  have step : 0 < Nat.pow 10 grid.toNat := Nat.pow_pos (show 0 < 10 by decide)
  exact Nat.lt_mul_div_succ _ (Nat.mul_pos step unit)

/-- A neighbourhood that is wider than the distance between multiples includes one. -/
theorem exists_onGrid? (unit : 0 < n.unit) (low : (n.low : ℚ) / n.unit < n.middle / n.unit)
    (high : (n.middle : ℚ) / n.unit < n.high / n.unit)
    (wide : (10 : ℚ) ^ grid < n.high / n.unit - n.low / n.unit) : ∃ digits, onGrid? n grid = some digits := by
  rcases onGrid?_cases n grid with ⟨digits, found, -⟩ | ⟨-, lower, upper⟩
  · exact ⟨digits, found⟩
  · have floor : (n.floor grid : ℚ) * 10 ^ grid ≤ n.middle / n.unit := floor_le unit
    have ceiling : (n.middle : ℚ) / n.unit < (n.floor grid + 1 : Nat) * 10 ^ grid := lt_floor unit
    have outside : ¬ n.Holds (n.floor grid * 10 ^ grid) := by
      rw [← includes_iff unit, lower]
      exact Bool.false_ne_true
    have outside' : ¬ n.Holds ((n.floor grid + 1 : Nat) * 10 ^ grid) := by
      rw [← includes_iff unit, upper]
      exact Bool.false_ne_true
    have left : (n.floor grid : ℚ) * 10 ^ grid ≤ n.low / n.unit := by
      by_contra above
      exact outside (Neighbourhood.holds_of_inside (not_le.mp above) (floor.trans_lt high))
    have right : (n.high : ℚ) / n.unit ≤ (n.floor grid + 1 : Nat) * 10 ^ grid := by
      by_contra below
      exact outside' (Neighbourhood.holds_of_inside (low.trans ceiling) (not_le.mp below))
    rw [Nat.cast_add, Nat.cast_one, add_mul, one_mul] at right
    linarith

end grid

section places

variable {numerator denominator : Nat}

theorem lt_pow_length (n : Nat) : n < 10 ^ (toString n).length := by
  rw [Nat.toString_eq_repr, ← Nat.length_repr_le_iff Nat.length_repr_pos]

theorem pow_length_le {n : Nat} (positive : 0 < n) : 10 ^ ((toString n).length - 1) ≤ n := by
  rw [Nat.toString_eq_repr]
  rcases Nat.eq_zero_or_pos (n.repr.length - 1) with one | more
  · rw [one]
    exact positive
  · have short := Nat.length_repr_le_iff (n := n) more
    have filled : 0 < n.repr.length := Nat.length_repr_pos
    omega

theorem pow_decimalExponent_le (positive : 0 < numerator) (unit : 0 < denominator) :
    (10 : ℚ) ^ decimalExponent numerator denominator ≤ numerator / denominator := by
  have filled : (0 : ℚ) < denominator := by exact_mod_cast unit
  have top : (0 : ℚ) < numerator := by exact_mod_cast positive
  unfold decimalExponent
  split
  · next whole =>
    have quotient : 0 < numerator / denominator := Nat.div_pos whole unit
    have length : 0 < (toString (numerator / denominator)).length := Nat.length_repr_pos
    have power : ((toString (numerator / denominator)).length : Int) - 1 =
        ((toString (numerator / denominator)).length - 1 : Nat) := by omega
    rw [power, zpow_natCast]
    refine le_trans ?_ Nat.cast_div_le
    exact_mod_cast pow_length_le quotient
  · next part =>
    have inverse : 0 < denominator / numerator := Nat.div_pos (by omega) positive
    have length : 0 < (toString (denominator / numerator)).length := Nat.length_repr_pos
    dsimp only
    split
    · next exactly =>
      simp only [Bool.and_eq_true, beq_iff_eq] at exactly
      have power : (1 - (toString (denominator / numerator)).length : Int) =
          -((toString (denominator / numerator)).length - 1 : Nat) := by omega
      have product : denominator = numerator * 10 ^ ((toString (denominator / numerator)).length - 1) :=
        (Nat.mul_div_cancel' (Nat.dvd_of_mod_eq_zero exactly.2)).symm.trans (congrArg _ exactly.1)
      rw [power, zpow_neg, zpow_natCast, inv_eq_one_div, div_le_div_iff₀ (by positivity) filled, one_mul]
      exact_mod_cast product.le
    · have below := Nat.lt_mul_div_succ denominator positive
      have short : denominator / numerator + 1 ≤ 10 ^ (toString (denominator / numerator)).length :=
        lt_pow_length _
      have product : denominator ≤ numerator * 10 ^ (toString (denominator / numerator)).length :=
        below.le.trans (Nat.mul_le_mul_left _ short)
      rw [zpow_neg, zpow_natCast, inv_eq_one_div, div_le_div_iff₀ (by positivity) filled, one_mul]
      exact_mod_cast product

end places

section digits

variable {significand : Nat} {exponent : Int}

/-- Sixteen places below the first digit multiples are closer to each other than the ends of a neighbourhood. -/
theorem Fitted.spacing (fitted : Fitted significand exponent) :
    let n := neighbourhood significand exponent
    (10 : ℚ) ^ (decimalExponent n.middle n.unit - 16) < n.high / n.unit - n.low / n.unit := by
  intro n
  have unit : 0 < n.unit := unit_pos significand exponent
  have quarter : (0 : ℚ) < 2 ^ (exponent - 2) := by positivity
  have middle : 0 < n.middle := by
    have positive := fitted.positive
    exact Nat.mul_pos (by omega) (Nat.pow_pos (show 0 < 2 by decide))
  have bound : 4 * significand < (2 + below significand exponent) * 10 ^ 16 := by
    have lt : significand < 2 ^ 53 := fitted.lt
    unfold below
    split
    · next least =>
      simp only [Bool.and_eq_true, beq_iff_eq] at least
      rw [least.1]
      decide
    · omega
  have under : below significand exponent ≤ 4 * significand := by
    have positive := fitted.positive
    have bounds := below_bounds significand exponent
    omega
  have width : (n.high : ℚ) / n.unit - n.low / n.unit =
      (2 + below significand exponent : Nat) * 2 ^ (exponent - 2) := by
    rw [high_div, low_div, ← sub_mul, Nat.cast_sub under]
    push_cast
    ring
  rw [width, zpow_sub₀ (by norm_num), div_lt_iff₀ (by positivity)]
  calc (10 : ℚ) ^ decimalExponent n.middle n.unit
      ≤ n.middle / n.unit := pow_decimalExponent_le middle unit
    _ = (4 * significand : Nat) * 2 ^ (exponent - 2) := middle_div _ _
    _ < ((2 + below significand exponent) * 10 ^ 16 : Nat) * 2 ^ (exponent - 2) :=
      mul_lt_mul_of_pos_right (by exact_mod_cast bound) quarter
    _ = (2 + below significand exponent : Nat) * 2 ^ (exponent - 2) * 10 ^ (16 : Int) := by
      push_cast
      ring

theorem dropZeros_value (digits : Nat) (grid : Int) (rounds : Nat) :
    ((dropZeros digits grid rounds).1 : ℚ) * 10 ^ (dropZeros digits grid rounds).2 = digits * 10 ^ grid := by
  induction rounds generalizing digits grid with
  | zero => rfl
  | succ rounds ih =>
    rw [dropZeros]
    split
    · next zero =>
      have product : digits = digits / 10 * 10 := by
        have rest := eq_of_beq zero
        omega
      rw [ih, zpow_add₀ (by norm_num), zpow_one]
      nth_rewrite 2 [product]
      push_cast
      ring
    · rfl

/-- The shortest digits of a number stand for a fraction that rounds to it. -/
theorem Fitted.shortest_holds (fitted : Fitted significand exponent) :
    (neighbourhood significand exponent).Holds
      ((shortest significand exponent).1 * 10 ^ (shortest significand exponent).2) := by
  have unit := unit_pos significand exponent
  obtain ⟨low, high⟩ := middle_between fitted.positive
  obtain ⟨last, known⟩ := exists_onGrid? unit low high fitted.spacing
  unfold shortest
  dsimp only
  split
  · next digits grid found =>
    obtain ⟨place, -, here⟩ := List.exists_of_findSome?_eq_some found
    obtain ⟨digits', taken, same⟩ := Option.map_eq_some_iff.mp here
    obtain ⟨rfl, rfl⟩ := Prod.mk.inj same
    rw [dropZeros_value, ← includes_iff unit]
    rcases onGrid?_cases _ _ with ⟨digits, found, inside⟩ | ⟨absent, -⟩
    · rwa [Option.some.inj (taken.symm.trans found)]
    · cases taken.symm.trans absent
  · next missing =>
    have absent := List.findSome?_eq_none_iff.mp missing 16 (by decide)
    rw [Option.map_eq_none_iff] at absent
    cases known.symm.trans absent

end digits

end LayeredConfig.Binary64
