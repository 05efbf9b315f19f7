import LayeredConfig.Proofs.Binary64.Intervals

namespace LayeredConfig.Binary64

section scale

variable {numerator denominator : Nat} {exponent : Int}

theorem scale_pos (positive : 0 < denominator) : 0 < (scale numerator denominator exponent).2 := by
  unfold scale
  split
  · exact Nat.mul_pos positive (Nat.pow_pos (show 0 < 2 by decide))
  · exact positive

/-- Powers of two are compared with a fraction as with its scaled quotient. -/
theorem le_scaled_iff (positive : 0 < denominator) (bits : Nat) :
    Nat.pow 2 bits ≤ (scale numerator denominator exponent).1 / (scale numerator denominator exponent).2 ↔
      (2 : ℚ) ^ (bits + exponent) ≤ numerator / denominator := by
  have filled : (0 : ℚ) < denominator := by exact_mod_cast positive
  rw [Nat.le_div_iff_mul_le (scale_pos positive), le_div_iff₀ filled, zpow_add₀ two_ne_zero, zpow_natCast]
  unfold scale
  split
  · next whole =>
    obtain ⟨power, rfl⟩ := Int.eq_ofNat_of_zero_le whole
    rw [Int.toNat_natCast, zpow_natCast, mul_assoc, mul_comm ((2 : ℚ) ^ power)]
    exact_mod_cast Iff.rfl
  · next part =>
    obtain ⟨power, negative⟩ := Int.eq_ofNat_of_zero_le (show 0 ≤ -exponent by omega)
    have two : (0 : ℚ) < 2 ^ power := by positivity
    rw [negative, Int.toNat_natCast, ← neg_neg exponent, negative, zpow_neg, zpow_natCast, mul_right_comm,
      ← div_eq_mul_inv, div_le_iff₀ two]
    exact_mod_cast Iff.rfl

theorem scaled_lt_iff (positive : 0 < denominator) (bits : Nat) :
    (scale numerator denominator exponent).1 / (scale numerator denominator exponent).2 < Nat.pow 2 bits ↔
      (numerator : ℚ) / denominator < 2 ^ (bits + exponent) := by
  rw [← not_le, le_scaled_iff positive, not_le]

end scale

theorem roundQuotient_cases (numerator denominator : Nat) :
    roundQuotient numerator denominator = numerator / denominator ∨
      roundQuotient numerator denominator = numerator / denominator + 1 := by
  unfold roundQuotient
  dsimp only
  split_ifs <;> simp

section rounding

variable {numerator denominator : Nat}

/-- The sizes of two numbers tell the size of their quotient. -/
theorem div_between (filled : 0 < numerator) (positive : 0 < denominator) :
    (2 : ℚ) ^ ((numerator.log2 : Int) - denominator.log2 - 1) ≤ numerator / denominator ∧
      (numerator : ℚ) / denominator < 2 ^ ((numerator.log2 : Int) - denominator.log2 + 1) := by
  have divisor : (0 : ℚ) < denominator := by exact_mod_cast positive
  have top : (2 : ℚ) ^ numerator.log2 ≤ numerator := by exact_mod_cast Nat.log2_self_le filled.ne'
  have top' : (numerator : ℚ) < 2 ^ (numerator.log2 + 1) := by exact_mod_cast Nat.lt_log2_self
  have bottom : (2 : ℚ) ^ denominator.log2 ≤ denominator := by exact_mod_cast Nat.log2_self_le positive.ne'
  have bottom' : (denominator : ℚ) < 2 ^ (denominator.log2 + 1) := by exact_mod_cast Nat.lt_log2_self
  constructor
  · rw [Int.sub_sub, ← Int.natCast_succ, zpow_sub₀ two_ne_zero, zpow_natCast, zpow_natCast]
    exact div_le_div₀ (by positivity) top divisor bottom'.le
  · rw [sub_add_eq_add_sub, ← Int.natCast_succ, zpow_sub₀ two_ne_zero, zpow_natCast, zpow_natCast]
    exact div_lt_div₀ top' bottom (by positivity) (by positivity)

/-- The exponent that fits a fraction leaves 53 bits before the point. -/
theorem fittingExponent_bounds (filled : 0 < numerator) (positive : 0 < denominator) :
    (2 : ℚ) ^ (52 + fittingExponent numerator denominator) ≤ numerator / denominator ∧
      (numerator : ℚ) / denominator < 2 ^ (53 + fittingExponent numerator denominator) := by
  obtain ⟨low, high⟩ := div_between filled positive
  unfold fittingExponent
  dsimp only
  generalize guess : (numerator.log2 : Int) - denominator.log2 - 52 = exponent
  rw [show (numerator.log2 : Int) - denominator.log2 - 1 = 51 + exponent by omega] at low
  rw [show (numerator.log2 : Int) - denominator.log2 + 1 = 53 + exponent by omega] at high
  split
  · next large => exact absurd ((le_scaled_iff positive 53).mp large) high.not_ge
  split
  · next small =>
    rw [show 52 + (exponent - 1) = 51 + exponent by ring, show 53 + (exponent - 1) = 52 + exponent by ring]
    exact ⟨low, (scaled_lt_iff positive 52).mp small⟩
  · next fits => exact ⟨(le_scaled_iff positive 52).mp (not_lt.mp fits), high⟩

/-- A fraction is rounded to zero, or to 53 bits, or to fewer at the least exponent. -/
theorem rounded_cases (filled : 0 < numerator) (positive : 0 < denominator) :
    rounded numerator denominator = (0, leastExponent) ∨
      0 < (rounded numerator denominator).1 ∧ (rounded numerator denominator).1 < 2 ^ 53 ∧
        leastExponent ≤ (rounded numerator denominator).2 ∧
        (2 ^ 52 ≤ (rounded numerator denominator).1 ∨ (rounded numerator denominator).2 = leastExponent) := by
  obtain ⟨low, high⟩ := fittingExponent_bounds filled positive
  unfold rounded
  dsimp only
  generalize size : max (fittingExponent numerator denominator) leastExponent = exponent
  have least : leastExponent ≤ exponent := size ▸ le_max_right _ _
  have short : (scale numerator denominator exponent).1 / (scale numerator denominator exponent).2 < 2 ^ 53 := by
    have wider : 53 + fittingExponent numerator denominator ≤ 53 + exponent := by omega
    exact (scaled_lt_iff positive 53).mpr (high.trans_le (zpow_le_zpow_right₀ one_le_two wider))
  have long : 2 ^ 52 ≤ (scale numerator denominator exponent).1 / (scale numerator denominator exponent).2 ∨
      exponent = leastExponent := by
    rcases le_total (fittingExponent numerator denominator) leastExponent with small | large
    · exact .inr (size ▸ max_eq_right small)
    · rw [max_eq_left large] at size
      exact .inl ((le_scaled_iff positive 52).mpr (size ▸ low))
  have rounding := roundQuotient_cases (scale numerator denominator exponent).1 (scale numerator denominator exponent).2
  generalize roundQuotient _ _ = significand at rounding ⊢
  by_cases carried : significand = 2 ^ 53
  · have carry : (significand == Nat.pow 2 53) = true := beq_iff_eq.mpr carried
    rw [if_pos carry]
    exact .inr ⟨Nat.pow_pos two_pos, Nat.pow_lt_pow_right one_lt_two (by decide), by omega, .inl le_rfl⟩
  · have kept : ¬ (significand == Nat.pow 2 53) = true := mt beq_iff_eq.mp carried
    rw [if_neg kept]
    rcases significand.eq_zero_or_pos with rfl | some
    · exact .inl (Prod.ext rfl (by omega))
    · exact .inr ⟨some, by omega, least, by omega⟩

/-- Rounding leaves the finite numbers for the greatest exponents only. -/
theorem ofRatio_eq_infinite_iff {negative negative' : Bool} (filled : 0 < numerator) (positive : 0 < denominator) :
    ofRatio negative numerator denominator = infinite negative' ↔
      negative = negative' ∧ greatestExponent < (rounded numerator denominator).2 := by
  rw [ofRatio, if_neg (by simpa using filled.ne')]
  unfold ofRounded
  rcases rounded_cases filled positive with none | ⟨some, lt, least, bits⟩
  · rw [none, if_pos (beq_self_eq_true 0)]
    exact ⟨nofun, fun ⟨_, beyond⟩ => absurd beyond (by decide)⟩
  rw [if_neg (by simpa using some.ne')]
  split
  · next fitted => exact ⟨nofun, fun ⟨_, beyond⟩ => absurd fitted.greatest beyond.not_ge⟩
  · next unfitted =>
    have beyond : greatestExponent < (rounded numerator denominator).2 :=
      lt_of_not_ge fun inRange => unfitted ⟨some, lt, least, inRange, bits⟩
    rw [infinite.injEq, and_iff_left beyond]

end rounding

end LayeredConfig.Binary64
