import LayeredConfig.Proofs.Binary64.Digits
import LayeredConfig.Proofs.Text.Figures
import Mathlib.Data.List.TakeWhile

namespace LayeredConfig.Binary64

open Text

/-- The fraction that figures with a point stand for. -/
def mantissaValue (text : List Char) : ℚ :=
  Nat.ofDigitChars 10 (text.filter (· != '.')) 0 / 10 ^ ((text.dropWhile (· != '.')).length - 1)

/-- The power of ten that a text ends with, after its letter. -/
def powerValue (text : List Char) : Int :=
  let size := Nat.ofDigitChars 10 (text.drop 2) 0
  if text.contains '-' then -size else size

/-- The fraction that the text of a number stands for. -/
def decimalValue (text : List Char) : ℚ :=
  mantissaValue (text.takeWhile (· != 'e')) * 10 ^ powerValue (text.dropWhile (· != 'e'))

section figures

variable {whole part figures : List Char}

theorem ofDigitChars_toString (n : Nat) : Nat.ofDigitChars 10 (toString n).toList 0 = n := by
  rw [Nat.toString_eq_repr, Nat.toList_repr, Nat.ofDigitChars_ten_toDigits]

theorem ne_of_isDigit {c mark : Char} (digit : c.isDigit = true) (other : mark.isDigit = false) :
    (c != mark) = true := by
  rw [bne_iff_ne]
  rintro rfl
  rw [digit] at other
  cases other

theorem mantissaValue_whole (digits : ∀ c ∈ figures, c.isDigit = true) :
    mantissaValue figures = Nat.ofDigitChars 10 figures 0 := by
  have unmarked : ∀ c ∈ figures, (c != '.') = true := fun c member => ne_of_isDigit (digits c member) rfl
  rw [mantissaValue, List.filter_eq_self.mpr unmarked, List.dropWhile_eq_nil_iff.mpr unmarked, List.length_nil,
    Nat.zero_sub, pow_zero, div_one]

theorem mantissaValue_point (digits : ∀ c ∈ whole ++ part, c.isDigit = true) :
    mantissaValue (whole ++ '.' :: part) = Nat.ofDigitChars 10 (whole ++ part) 0 / 10 ^ part.length := by
  rw [List.forall_mem_append] at digits
  have unmarked : ∀ c ∈ whole, (c != '.') = true := fun c member => ne_of_isDigit (digits.1 c member) rfl
  have unmarked' : ∀ c ∈ part, (c != '.') = true := fun c member => ne_of_isDigit (digits.2 c member) rfl
  rw [mantissaValue, List.filter_append, List.filter_cons_of_neg (by decide), List.filter_eq_self.mpr unmarked,
    List.filter_eq_self.mpr unmarked', List.dropWhile_append_of_pos unmarked,
    List.dropWhile_cons_of_neg (by decide), List.length_cons, Nat.add_sub_cancel]

theorem ne_letter_of_point (digits : ∀ c ∈ whole ++ part, c.isDigit = true) :
    ∀ c ∈ whole ++ '.' :: part, (c != 'e') = true := by
  rw [List.forall_mem_append] at digits
  rw [List.forall_mem_append, List.forall_mem_cons]
  exact ⟨fun c member => ne_of_isDigit (digits.1 c member) rfl, by decide,
    fun c member => ne_of_isDigit (digits.2 c member) rfl⟩

theorem decimalValue_point (digits : ∀ c ∈ whole ++ part, c.isDigit = true) :
    decimalValue (whole ++ '.' :: part) = Nat.ofDigitChars 10 (whole ++ part) 0 / 10 ^ part.length := by
  have plain := ne_letter_of_point digits
  rw [decimalValue, List.takeWhile_eq_self_iff.mpr plain, List.dropWhile_eq_nil_iff.mpr plain,
    mantissaValue_point digits]
  exact mul_one _

theorem decimalValue_letter (plain : ∀ c ∈ figures, (c != 'e') = true) (rest : List Char) :
    decimalValue (figures ++ 'e' :: rest) = mantissaValue figures * 10 ^ powerValue ('e' :: rest) := by
  rw [decimalValue, List.takeWhile_append_of_pos plain, List.dropWhile_append_of_pos plain,
    List.takeWhile_cons_of_neg (by decide), List.dropWhile_cons_of_neg (by decide), List.append_nil]

end figures

/-- Zeros in front of a number do not count, and behind it each is a factor of ten. -/
theorem ofDigitChars_padded (zeros digits zeros' : Nat) :
    Nat.ofDigitChars 10 (List.replicate zeros '0' ++ (toString digits).toList ++ List.replicate zeros' '0') 0 =
      10 ^ zeros' * digits := by
  have front : Nat.ofDigitChars 10 (List.replicate zeros '0') 0 = 0 := by
    rw [Nat.ofDigitChars_replicate_zero, Nat.mul_zero]
  rw [Nat.ofDigitChars_append, Nat.ofDigitChars_append, front, ofDigitChars_toString,
    Nat.ofDigitChars_replicate_zero]

theorem isDigit_padded (zeros digits zeros' : Nat) : ∀ c ∈ List.replicate zeros '0' ++ (toString digits).toList ++
    List.replicate zeros' '0', c.isDigit = true := by
  have zero (count : Nat) : ∀ c ∈ List.replicate count '0', c.isDigit = true :=
    fun c member => List.eq_of_mem_replicate member ▸ rfl
  rw [List.forall_mem_append, List.forall_mem_append]
  exact ⟨⟨zero zeros, fun c => isDigit_of_mem_toString⟩, zero zeros'⟩

theorem powerValue_exponent (exponent : Int) :
    powerValue ('e' :: (if exponent < 0 then '-' else '+') ::
      (if (toString exponent.natAbs).toList.length == 1 then '0' :: (toString exponent.natAbs).toList
        else (toString exponent.natAbs).toList)) = exponent := by
  obtain ⟨zeros, padded⟩ : ∃ zeros,
      (if (toString exponent.natAbs).toList.length == 1 then '0' :: (toString exponent.natAbs).toList
        else (toString exponent.natAbs).toList) =
        List.replicate zeros '0' ++ (toString exponent.natAbs).toList ++ List.replicate 0 '0' := by
    split
    · exact ⟨1, (List.append_nil _).symm⟩
    · exact ⟨0, (List.append_nil _).symm⟩
  have unsigned : '-' ∉ List.replicate zeros '0' ++ (toString exponent.natAbs).toList ++ List.replicate 0 '0' :=
    fun member => Bool.false_ne_true (isDigit_padded zeros exponent.natAbs 0 _ member)
  rw [padded, powerValue, List.drop_succ_cons, List.drop_succ_cons, List.drop_zero, ofDigitChars_padded, pow_zero,
    one_mul, List.contains_cons, List.contains_cons, List.contains_eq_mem, decide_eq_false unsigned]
  by_cases negative : exponent < 0
  · rw [if_pos negative, if_pos (by decide)]
    omega
  · rw [if_neg negative, if_neg (by decide)]
    omega

theorem div_pow_eq {digits places : Nat} {grid : Int} (opposite : (places : Int) = -grid) :
    (digits : ℚ) / 10 ^ places = digits * 10 ^ grid := by
  rw [← neg_neg grid, ← opposite, zpow_neg, zpow_natCast, div_eq_mul_inv]

/-- The text of a positive number is read as what its digits stand for. -/
theorem decimalValue_layout (digits : Nat) (grid : Int) :
    decimalValue (layout digits grid).toList = digits * 10 ^ grid := by
  have filled : 0 < (toString digits).toList.length := by
    obtain ⟨c, rest, form, -⟩ := exists_digit digits
    rw [form]
    exact Nat.succ_pos _
  have parts (count : Nat) : ∀ c ∈ (toString digits).toList.take count ++ (toString digits).toList.drop count,
      c.isDigit = true := by
    rw [List.take_append_drop]
    exact fun c => isDigit_of_mem_toString
  unfold layout
  simp only [String.toList_ofList, Bool.and_eq_true, decide_eq_true_iff]
  split
  · next small =>
    generalize zeros : (-((toString digits).toList.length - 1 + grid) - 1).toNat = count
    have padded : ['0'] ++ (List.replicate count '0' ++ (toString digits).toList) =
        List.replicate (count + 1) '0' ++ (toString digits).toList ++ List.replicate 0 '0' := by
      rw [List.replicate_zero, List.append_nil]
      rfl
    have figures : ∀ c ∈ ['0'] ++ (List.replicate count '0' ++ (toString digits).toList), c.isDigit = true :=
      padded ▸ isDigit_padded (count + 1) digits 0
    have point := decimalValue_point figures
    rw [padded, ofDigitChars_padded, pow_zero, one_mul, List.length_append, List.length_replicate] at point
    exact point.trans (div_pow_eq (by omega))
  split
  · split
    · next short =>
      generalize zeros :
        ((toString digits).toList.length - 1 + grid).toNat + 1 - (toString digits).toList.length = count
      have padded : (toString digits).toList ++ List.replicate count '0' ++ ['0'] =
          List.replicate 0 '0' ++ (toString digits).toList ++ List.replicate (count + 1) '0' := by
        rw [List.replicate_zero, List.nil_append, List.replicate_succ', List.append_assoc]
      have figures : ∀ c ∈ (toString digits).toList ++ List.replicate count '0' ++ ['0'], c.isDigit = true :=
        padded ▸ isDigit_padded 0 digits (count + 1)
      have point := decimalValue_point figures
      rw [padded, ofDigitChars_padded] at point
      obtain rfl : grid = count := by omega
      refine point.trans ?_
      rw [List.length_singleton, zpow_natCast]
      push_cast
      ring
    · next long =>
      rw [decimalValue_point (parts _), List.take_append_drop, ofDigitChars_toString, List.length_drop]
      exact div_pow_eq (by omega)
  · have mantissa : ∀ point, point = (if (toString digits).toList.length == 1 then (toString digits).toList
        else (toString digits).toList.take 1 ++ '.' :: (toString digits).toList.drop 1) →
          (∀ c ∈ point, (c != 'e') = true) ∧
            mantissaValue point = digits / 10 ^ ((toString digits).toList.length - 1) := by
      rintro point rfl
      split
      · next one =>
        have figure : ∀ c ∈ (toString digits).toList, c.isDigit = true := fun c => isDigit_of_mem_toString
        rw [mantissaValue_whole figure, ofDigitChars_toString, eq_of_beq one, pow_zero, div_one]
        exact ⟨fun c member => ne_of_isDigit (figure c member) rfl, rfl⟩
      · rw [mantissaValue_point (parts 1), List.take_append_drop, ofDigitChars_toString, List.length_drop]
        exact ⟨ne_letter_of_point (parts 1), rfl⟩
    obtain ⟨plain, value⟩ := mantissa _ rfl
    rw [decimalValue_letter plain, value, powerValue_exponent, div_eq_mul_inv, ← zpow_natCast, ← zpow_neg, mul_assoc,
      ← zpow_add₀ (by norm_num)]
    congr 2
    omega

/-- The text of a finite number without its sign. -/
def sizeText (significand : Nat) (exponent : Int) : String :=
  if significand == 0 then "0.0" else layout (shortest significand exponent).1 (shortest significand exponent).2

theorem text_finite (negative : Bool) (significand : Nat) (exponent : Int)
    (kept : significand = 0 ∧ exponent = 0 ∨ Fitted significand exponent) :
    (finite negative significand exponent kept).text =
      if negative then "-" ++ sizeText significand exponent else sizeText significand exponent :=
  rfl

/-- What the text of a size is read as rounds to the size. -/
theorem decimalValue_sizeText {significand : Nat} {exponent : Int} (fitted : Fitted significand exponent) :
    (neighbourhood significand exponent).Holds (decimalValue (sizeText significand exponent).toList) := by
  have filled : (significand == 0) = false := beq_false_of_ne fitted.positive.ne'
  rw [sizeText, filled, if_neg Bool.false_ne_true, decimalValue_layout]
  exact fitted.shortest_holds

theorem decimalValue_zero (exponent : Int) : decimalValue (sizeText 0 exponent).toList = 0 := by
  have text : (sizeText 0 exponent).toList = ['0'] ++ '.' :: ['0'] :=
    show "0.0".toList = ['0'] ++ '.' :: ['0'] by decide
  have digit : ∀ c ∈ ['0'] ++ ['0'], c.isDigit = true := fun c member => by
    rw [show c = '0' by simpa using member]
    rfl
  rw [text, decimalValue_point digit]
  exact zero_div _

theorem head_sizeText (significand : Nat) (exponent : Int) :
    ∃ c rest, (sizeText significand exponent).toList = c :: rest ∧ c ≠ '-' := by
  have digit {c : Char} (figure : c.isDigit = true) : c ≠ '-' := bne_iff_ne.mp (ne_of_isDigit figure rfl)
  unfold sizeText
  split
  · exact ⟨_, _, rfl, by decide⟩
  obtain ⟨c, rest, figures, figure⟩ := exists_digit (shortest significand exponent).1
  unfold layout
  simp only [String.toList_ofList, figures]
  split
  · exact ⟨_, _, rfl, by decide⟩
  split
  · split
    · exact ⟨_, _, rfl, digit figure⟩
    · exact ⟨_, _, rfl, digit figure⟩
  · split
    · exact ⟨_, _, rfl, digit figure⟩
    · exact ⟨_, _, rfl, digit figure⟩

/-- Different finite numbers have different texts. -/
theorem eq_of_text_finite {negative negative' : Bool} {significand significand' : Nat} {exponent exponent' : Int}
    {kept : significand = 0 ∧ exponent = 0 ∨ Fitted significand exponent}
    {kept' : significand' = 0 ∧ exponent' = 0 ∨ Fitted significand' exponent'}
    (same : (finite negative significand exponent kept).text = (finite negative' significand' exponent' kept').text) :
    finite negative significand exponent kept = finite negative' significand' exponent' kept' := by
  have unsigned (significand significand' : Nat) (exponent exponent' : Int) :
      "-" ++ sizeText significand exponent ≠ sizeText significand' exponent' := by
    intro equal
    obtain ⟨c, rest, form, other⟩ := head_sizeText significand' exponent'
    have heads := congrArg String.toList equal
    rw [String.toList_append, form] at heads
    exact other (List.cons.inj heads).1.symm
  obtain ⟨rfl, sizes⟩ : negative = negative' ∧
      sizeText significand exponent = sizeText significand' exponent' := by
    rw [text_finite, text_finite] at same
    cases negative with
    | false =>
      cases negative' with
      | false => exact ⟨rfl, same⟩
      | true => exact absurd same.symm (unsigned _ _ _ _)
    | true =>
      cases negative' with
      | false => exact absurd same (unsigned _ _ _ _)
      | true =>
        have texts := congrArg String.toList same
        rw [if_pos rfl, if_pos rfl, String.toList_append, String.toList_append] at texts
        exact ⟨rfl, String.toList_inj.mp (List.append_cancel_left texts)⟩
  have values : decimalValue (sizeText significand exponent).toList =
      decimalValue (sizeText significand' exponent').toList := by rw [sizes]
  rcases kept with ⟨rfl, rfl⟩ | fitted
  · rcases kept' with ⟨rfl, rfl⟩ | fitted'
    · rfl
    · rw [decimalValue_zero] at values
      exact absurd (fitted'.point_pos (decimalValue_sizeText fitted')) (values ▸ lt_irrefl _)
  · rcases kept' with ⟨rfl, rfl⟩ | fitted'
    · rw [decimalValue_zero] at values
      exact absurd (fitted.point_pos (decimalValue_sizeText fitted)) (values ▸ lt_irrefl _)
    · obtain ⟨rfl, rfl⟩ := fitted.unique fitted' (decimalValue_sizeText fitted)
        (values ▸ decimalValue_sizeText fitted')
      rfl

end LayeredConfig.Binary64
