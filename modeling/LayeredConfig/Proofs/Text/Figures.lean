import LayeredConfig.Binary64.Shortest
import LayeredConfig.Proofs.Text.Reading

namespace LayeredConfig.Text

theorem isDigit_of_mem_toString {n : Nat} {c : Char} (member : c ∈ (toString n).toList) :
    c.isDigit = true := by
  rw [Nat.toString_eq_ofList_toDigits, String.toList_ofList] at member
  exact Nat.isDigit_of_mem_toDigits (by decide) (by decide) member

theorem exists_digit (n : Nat) : ∃ c rest, (toString n).toList = c :: rest ∧ c.isDigit = true := by
  cases figures : (toString n).toList with
  | nil =>
    rw [Nat.toString_eq_ofList_toDigits, String.toList_ofList] at figures
    exact absurd figures Nat.toDigits_ne_nil
  | cons c rest => exact ⟨c, rest, rfl, isDigit_of_mem_toString (figures ▸ List.mem_cons_self)⟩

theorem toString_nat_injective {m n : Nat} (same : (toString m).toList = (toString n).toList) : m = n := by
  simp only [Nat.toString_eq_ofList_toDigits, String.toList_ofList] at same
  rw [← Nat.ofDigitChars_ten_toDigits (n := m), same, Nat.ofDigitChars_ten_toDigits]

theorem toString_int (n : Int) :
    (toString n).toList = (if 0 ≤ n then [] else ['-']) ++ (toString n.natAbs).toList := by
  rw [Int.toString_eq_repr, Int.repr_eq_if, Nat.toString_eq_repr]
  split
  · next positive => rw [List.nil_append, show n.toNat = n.natAbs by omega]
  · next negative =>
    rw [String.toList_append, show (-n).toNat = n.natAbs by omega]
    rfl

theorem toString_int_injective {m n : Int} (same : (toString m).toList = (toString n).toList) :
    m = n := by
  obtain ⟨c, rest, figures, digit⟩ := exists_digit m.natAbs
  obtain ⟨d, rest', figures', digit'⟩ := exists_digit n.natAbs
  have sign {c : Char} (digit : c.isDigit = true) : c ≠ '-' := by
    rintro rfl
    cases digit
  rw [toString_int, toString_int] at same
  split at same
  · split at same
    · have sizes := toString_nat_injective same
      omega
    · rw [figures] at same
      exact absurd (List.cons.inj same).1 (sign digit)
  · split at same
    · rw [figures'] at same
      exact absurd (List.cons.inj same).1.symm (sign digit')
    · have sizes := toString_nat_injective (List.cons.inj same).2
      omega

theorem not_stop_of_isDigit {c : Char} (digit : c.isDigit = true) : c ∉ stops := by
  intro stop
  have known : ∀ c ∈ stops, c.isDigit = false := by simp [stops]
  rw [known c stop] at digit
  cases digit

/-- The characters of a whole number are digits and a sign. -/
theorem mem_toString_int {n : Int} {c : Char} (member : c ∈ (toString n).toList) :
    c = '-' ∨ c.isDigit = true := by
  rw [toString_int, List.mem_append] at member
  rcases member with sign | figure
  · split at sign
    · cases sign
    · exact .inl (List.mem_singleton.mp sign)
  · exact .inr (isDigit_of_mem_toString figure)

theorem plain_int (n : Int) : Plain (toString n).toList := by
  intro c member
  rcases mem_toString_int member with rfl | digit
  · decide
  · exact not_stop_of_isDigit digit

theorem toString_int_ne_nil (n : Int) : (toString n).toList ≠ [] := by
  obtain ⟨c, rest, figures, -⟩ := exists_digit n.natAbs
  rw [toString_int, figures]
  simp

end LayeredConfig.Text

namespace LayeredConfig.Binary64

open Text

/-- The characters of the texts of double-precision numbers. -/
def IsFigure (c : Char) : Prop :=
  c.isDigit = true ∨ c ∈ ['.', 'e', '+', '-', 'i', 'n', 'f', 'a']

theorem isFigure_layout (digits : Nat) (grid : Int) : ∀ c ∈ (layout digits grid).toList, IsFigure c := by
  have figures (n : Nat) : ∀ c ∈ (toString n).toList, IsFigure c :=
    fun c member => .inl (isDigit_of_mem_toString member)
  have front (n count : Nat) : ∀ c ∈ (toString n).toList.take count, IsFigure c :=
    fun c member => figures n c (List.mem_of_mem_take member)
  have back (n count : Nat) : ∀ c ∈ (toString n).toList.drop count, IsFigure c :=
    fun c member => figures n c (List.mem_of_mem_drop member)
  have zeros (count : Nat) : ∀ c ∈ List.replicate count '0', IsFigure c :=
    fun c member => .inl (List.eq_of_mem_replicate member ▸ rfl)
  have zero : IsFigure '0' := .inl rfl
  have point : IsFigure '.' := .inr (by decide)
  have letter : IsFigure 'e' := .inr (by decide)
  have sign (negative : Prop) [Decidable negative] : IsFigure (if negative then '-' else '+') := by
    split
    · exact .inr (by decide)
    · exact .inr (by decide)
  unfold layout
  simp only [String.toList_ofList]
  split
  · simp only [List.forall_mem_cons, List.forall_mem_append]
    exact ⟨zero, point, zeros _, figures _⟩
  split
  · split
    · simp only [List.forall_mem_cons, List.forall_mem_append]
      exact ⟨⟨figures _, zeros _⟩, point, zero, List.forall_mem_nil _⟩
    · simp only [List.forall_mem_cons, List.forall_mem_append]
      exact ⟨front _ _, point, back _ _⟩
  · simp only [List.forall_mem_cons, List.forall_mem_append]
    refine ⟨?_, letter, sign _, ?_⟩
    · split
      · exact figures _
      · simp only [List.forall_mem_cons, List.forall_mem_append]
        exact ⟨front _ _, point, back _ _⟩
    · split
      · exact List.forall_mem_cons.mpr ⟨zero, figures _⟩
      · exact figures _

/-- A positive number is written with a point or an exponent, unlike a whole number. -/
theorem exists_mark_layout (digits : Nat) (grid : Int) :
    '.' ∈ (layout digits grid).toList ∨ 'e' ∈ (layout digits grid).toList := by
  unfold layout
  simp only [String.toList_ofList]
  split
  · simp
  split
  · split
    · simp
    · simp
  · simp

/-- Texts of double-precision numbers: all their characters are figures, and one is in no whole number. -/
structure Numeral (text : List Char) : Prop where
  figures : ∀ c ∈ text, IsFigure c
  mark : ∃ c ∈ text, c ∈ ['.', 'e', 'n']

theorem numeral_layout (digits : Nat) (grid : Int) : Numeral (layout digits grid).toList where
  figures := isFigure_layout digits grid
  mark := by
    rcases exists_mark_layout digits grid with point | letter
    · exact ⟨'.', point, by decide⟩
    · exact ⟨'e', letter, by decide⟩

theorem numeral_word {word : String} (known : word ∈ ["0.0", "inf", "-inf", "nan"]) :
    Numeral word.toList where
  figures := by
    have all : ∀ word ∈ ["0.0", "inf", "-inf", "nan"], ∀ c ∈ word.toList, IsFigure c := by
      simp [IsFigure]
    exact all word known
  mark := by
    have all : ∀ word ∈ ["0.0", "inf", "-inf", "nan"], ∃ c ∈ word.toList, c ∈ ['.', 'e', 'n'] := by
      simp
    exact all word known

theorem Numeral.negative {text : List Char} (numeral : Numeral text) : Numeral ('-' :: text) where
  figures := List.forall_mem_cons.mpr ⟨.inr (by decide), numeral.figures⟩
  mark := by
    obtain ⟨c, member, mark⟩ := numeral.mark
    exact ⟨c, List.mem_cons_of_mem _ member, mark⟩

/-- The text of a finite number has a point or an exponent, unlike that of a number without bounds. -/
theorem exists_mark_finite (negative : Bool) (significand : Nat) (exponent : Int)
    (kept : significand = 0 ∧ exponent = 0 ∨ Fitted significand exponent) :
    ∃ c ∈ (finite negative significand exponent kept).text.toList, c = '.' ∨ c = 'e' := by
  have size : ∃ c ∈ (if significand == 0 then "0.0" else layout (shortest significand exponent).1
      (shortest significand exponent).2).toList, c = '.' ∨ c = 'e' := by
    split
    · exact ⟨'.', by decide, .inl rfl⟩
    · rcases exists_mark_layout (shortest significand exponent).1 (shortest significand exponent).2
        with point | letter
      · exact ⟨'.', point, .inl rfl⟩
      · exact ⟨'e', letter, .inr rfl⟩
  cases negative with
  | false => exact size
  | true =>
    obtain ⟨c, member, mark⟩ := size
    simp only [text, if_true, String.toList_append]
    exact ⟨c, List.mem_append_right _ member, mark⟩

theorem numeral_text (x : Binary64) : Numeral x.text.toList := by
  cases x with
  | finite negative significand exponent kept =>
    have size : Numeral (if significand == 0 then "0.0" else layout (shortest significand exponent).1
        (shortest significand exponent).2).toList := by
      split
      · exact numeral_word (by decide)
      · exact numeral_layout _ _
    cases negative with
    | false => exact size
    | true =>
      simp only [text, if_true, String.toList_append]
      exact size.negative
  | infinite negative =>
    cases negative with
    | false => exact numeral_word (by decide)
    | true => exact numeral_word (by decide)
  | notANumber origin => exact show Numeral "nan".toList from numeral_word (by decide)

/-- The text of a number tells numbers without bounds, results that are not numbers and finite numbers apart. -/
theorem kinds_of_text {x y : Binary64} (same : x.text = y.text) :
    (∃ negative, x = infinite negative ∧ y = infinite negative) ∨
      (∃ origin origin', x = notANumber origin ∧ y = notANumber origin') ∨
        ∃ negative significand exponent kept negative' significand' exponent' kept',
          x = finite negative significand exponent kept ∧ y = finite negative' significand' exponent' kept' := by
  have apart (negative : Bool) (significand : Nat) (exponent : Int)
      (kept : significand = 0 ∧ exponent = 0 ∨ Fitted significand exponent) :
      (finite negative significand exponent kept).text ∉ ["inf", "-inf", "nan"] := by
    intro word
    obtain ⟨c, member, mark⟩ := exists_mark_finite negative significand exponent kept
    have unmarked : ∀ word ∈ ["inf", "-inf", "nan"], ∀ c ∈ word.toList, c ≠ '.' ∧ c ≠ 'e' := by simp
    have other := unmarked _ word c member
    rcases mark with rfl | rfl
    · exact other.1 rfl
    · exact other.2 rfl
  have infinite_word (negative : Bool) : (infinite negative).text ∈ ["inf", "-inf", "nan"] := by
    cases negative <;> decide
  have nan_word (origin : Nat) : (notANumber origin).text ∈ ["inf", "-inf", "nan"] :=
    show "nan" ∈ ["inf", "-inf", "nan"] by decide
  have infinite_ne_nan (negative : Bool) (origin : Nat) : (infinite negative).text ≠ (notANumber origin).text :=
    show (infinite negative).text ≠ "nan" by cases negative <;> decide
  cases x with
  | finite negative significand exponent kept =>
    cases y with
    | finite negative' significand' exponent' kept' => exact .inr (.inr ⟨_, _, _, kept, _, _, _, kept', rfl, rfl⟩)
    | infinite negative' => exact absurd (same ▸ infinite_word negative') (apart negative significand exponent kept)
    | notANumber origin => exact absurd (same ▸ nan_word origin) (apart negative significand exponent kept)
  | infinite negative =>
    cases y with
    | finite negative' significand' exponent' kept' =>
      exact absurd (same ▸ infinite_word negative) (apart negative' significand' exponent' kept')
    | infinite negative' =>
      have decided : ∀ negative negative', (infinite negative).text = (infinite negative').text →
          negative = negative' := by decide
      exact .inl ⟨negative, rfl, congrArg infinite (decided negative negative' same).symm⟩
    | notANumber origin => exact absurd same (infinite_ne_nan negative origin)
  | notANumber origin =>
    cases y with
    | finite negative' significand' exponent' kept' =>
      exact absurd (same ▸ nan_word origin) (apart negative' significand' exponent' kept')
    | infinite negative' => exact absurd same.symm (infinite_ne_nan negative' origin)
    | notANumber origin' => exact .inr (.inl ⟨origin, origin', rfl, rfl⟩)

theorem Numeral.plain {text : List Char} (numeral : Numeral text) : Plain text := by
  intro c member stop
  rcases numeral.figures c member with digit | other
  · exact not_stop_of_isDigit digit stop
  · have apart : ∀ c ∈ stops, c ∉ ['.', 'e', '+', '-', 'i', 'n', 'f', 'a'] := by simp [stops]
    exact apart c stop other

theorem Numeral.ne_nil {text : List Char} (numeral : Numeral text) : text ≠ [] := by
  obtain ⟨c, member, -⟩ := numeral.mark
  exact List.ne_nil_of_mem member

/-- No whole number has the text of a double-precision number. -/
theorem Numeral.ne_toString {text : List Char} (numeral : Numeral text) (n : Int) :
    text ≠ (toString n).toList := by
  rintro rfl
  obtain ⟨c, member, mark⟩ := numeral.mark
  have other : ∀ c ∈ ['.', 'e', 'n'], c ≠ '-' ∧ c.isDigit = false := by simp
  rcases mem_toString_int member with sign | digit
  · exact (other c mark).1 sign
  · rw [(other c mark).2] at digit
    cases digit

end LayeredConfig.Binary64
