import LayeredConfig.Text.Percent
import LayeredConfig.Text.Quoted
import Mathlib.Algebra.Group.Nat.Defs
import Mathlib.Data.List.Basic

/-!
Quoted forms tell texts apart. The form of a character never begins that of another one, so a sequence of
forms is read back from its start.
-/

namespace LayeredConfig.Text

/-- No code word begins another one. -/
def PrefixFree (code : α → List β) : Prop :=
  ∀ a b rest rest', code a ++ rest = code b ++ rest' → a = b

/-- A sequence of code words is found again if it ends with something that begins none of them. -/
theorem PrefixFree.flatMap_stop {code : α → List β} (free : PrefixFree code) {stop : β}
    (apart : ∀ a rest rest', code a ++ rest ≠ stop :: rest') {xs ys : List α} {rest rest' : List β}
    (same : xs.flatMap code ++ stop :: rest = ys.flatMap code ++ stop :: rest') :
    xs = ys ∧ rest = rest' := by
  induction xs generalizing ys with
  | nil =>
    cases ys with
    | nil => exact ⟨rfl, (List.cons.inj same).2⟩
    | cons y ys =>
      rw [List.flatMap_cons, List.append_assoc] at same
      exact absurd same.symm (apart y _ _)
  | cons x xs ih =>
    cases ys with
    | nil =>
      rw [List.flatMap_cons, List.append_assoc] at same
      exact absurd same (apart x _ _)
    | cons y ys =>
      simp only [List.flatMap_cons, List.append_assoc] at same
      obtain rfl := free x y _ _ same
      obtain ⟨rfl, behind⟩ := ih (List.append_cancel_left same)
      exact ⟨rfl, behind⟩

/-- The number that hexadecimal digits stand for. -/
def hexNumber (digits : List Char) : Nat :=
  digits.foldl (fun number digit => 16 * number + (hexValue? digit).getD 0) 0

theorem hexNumber_hexPadded (width value : Nat) :
    hexNumber (hexPadded width value) = value % 16 ^ width := by
  have digit : ∀ value < 16, hexValue? (hexDigit value) = some value := by decide
  induction width generalizing value with
  | zero => simp [hexPadded, hexNumber, Nat.mod_one]
  | succ width ih =>
    rw [hexPadded, hexNumber, List.foldl_append, List.foldl_cons, List.foldl_nil,
      digit _ (Nat.mod_lt _ (by decide)), Option.getD_some, Nat.pow_succ', Nat.mod_mul, Nat.add_comm]
    exact congrArg (value % 16 + 16 * ·) (ih (value / 16))

/-- The code point whose form comes first. -/
def firstCode? : List Char → Option Nat
  | '\\' :: c :: rest =>
    if c == 't' then some '\t'.toNat
    else if c == 'n' then some '\n'.toNat
    else if c == 'r' then some '\r'.toNat
    else if c == 'x' then some (hexNumber (rest.take 2))
    else if c == 'u' then some (hexNumber (rest.take 4))
    else if c == 'U' then some (hexNumber (rest.take 8))
    else some c.toNat
  | c :: _ => some c.toNat
  | [] => none

theorem take_hexPadded (width value : Nat) (rest : List Char) :
    (hexPadded width value ++ rest).take width = hexPadded width value :=
  List.take_left' (length_hexPadded width value)

theorem hexNumber_of_lt {code width : Nat} (short : code < 16 ^ width) :
    hexNumber (hexPadded width code) = code := by
  rw [hexNumber_hexPadded, Nat.mod_eq_of_lt short]

theorem firstCode?_escapeCode {code : Nat} (short : code < 16 ^ 8) (rest : List Char) :
    firstCode? (escapeCode code ++ rest) = some code := by
  unfold escapeCode
  split
  · next narrow =>
    have narrow : code < 16 ^ 2 := narrow
    simp [firstCode?, take_hexPadded, hexNumber_of_lt narrow]
  split
  · next narrow =>
    have narrow : code < 16 ^ 4 := narrow
    simp [firstCode?, take_hexPadded, hexNumber_of_lt narrow]
  · simp [firstCode?, take_hexPadded, hexNumber_of_lt short]

theorem code_lt (letter : Letter) : letter.code < 16 ^ 8 := by
  cases letter with
  | char c =>
    have valid := c.valid
    simp only [Letter.code, Char.toNat, UInt32.isValidChar, Nat.isValidChar] at valid ⊢
    omega
  | half number =>
    simp only [Letter.code]
    omega

/-- A character is read back from its form between quotation marks. -/
theorem firstCode?_quoteChar {mark : Char} (isMark : mark = '\'' ∨ mark = '"') (c : Char)
    (rest : List Char) : firstCode? (quoteChar mark c ++ rest) = some c.toNat := by
  unfold quoteChar
  split
  · next marked =>
    have special : c = '\'' ∨ c = '"' ∨ c = '\\' := by
      rcases Bool.or_eq_true_iff.mp marked with same | same
      · rcases isMark with rfl | rfl <;> simp_all
      · simp_all
    rcases special with rfl | rfl | rfl <;> rfl
  · next plain =>
    split
    · next same => rw [eq_of_beq same]; rfl
    · split
      · next same => rw [eq_of_beq same]; rfl
      · split
        · next same => rw [eq_of_beq same]; rfl
        · split
          · have other : c ≠ '\\' := by
              rintro rfl
              simp at plain
            simp [firstCode?, other]
          · exact firstCode?_escapeCode (code_lt (.char c)) rest

theorem firstCode?_quoteLetter {mark : Char} (isMark : mark = '\'' ∨ mark = '"') (letter : Letter)
    (rest : List Char) : firstCode? (quoteLetter mark letter ++ rest) = some letter.code := by
  cases letter with
  | char c => exact firstCode?_quoteChar isMark c rest
  | half number => exact firstCode?_escapeCode (code_lt (.half number)) rest

theorem quoteMark_cases (text : List Char) : quoteMark text = '\'' ∨ quoteMark text = '"' := by
  unfold quoteMark
  split
  · exact .inr rfl
  · exact .inl rfl

/-- A mark inside a text is escaped, so the first one without an escape ends the text. -/
theorem firstCode?_mark {mark : Char} (isMark : mark = '\'' ∨ mark = '"') (rest : List Char) :
    firstCode? (mark :: rest) = some mark.toNat := by
  rcases isMark with rfl | rfl
  · rfl
  · rfl

theorem quoteChar_ne_mark {mark : Char} (isMark : mark = '\'' ∨ mark = '"') (c : Char)
    (rest rest' : List Char) : quoteChar mark c ++ rest ≠ mark :: rest' := by
  intro equal
  have read := congrArg firstCode? equal
  rw [firstCode?_quoteChar isMark, firstCode?_mark isMark] at read
  obtain rfl := Char.toNat_inj.mp (Option.some.inj read)
  rw [quoteChar, beq_self_eq_true, Bool.true_or, if_pos rfl] at equal
  rcases isMark with rfl | rfl
  · cases equal
  · cases equal

theorem escapeCode_ne_mark {mark : Char} (isMark : mark = '\'' ∨ mark = '"') (code : Nat)
    (rest rest' : List Char) : escapeCode code ++ rest ≠ mark :: rest' := by
  have slash : ∃ digits, escapeCode code = '\\' :: digits := by
    unfold escapeCode
    split
    · exact ⟨_, rfl⟩
    split
    · exact ⟨_, rfl⟩
    · exact ⟨_, rfl⟩
  obtain ⟨digits, escape⟩ := slash
  rw [escape]
  rintro ⟨⟩
  rcases isMark with mark | mark
  · cases mark
  · cases mark

theorem quoteLetter_ne_mark {mark : Char} (isMark : mark = '\'' ∨ mark = '"') (letter : Letter)
    (rest rest' : List Char) : quoteLetter mark letter ++ rest ≠ mark :: rest' := by
  cases letter with
  | char c => exact quoteChar_ne_mark isMark c rest rest'
  | half number => exact escapeCode_ne_mark isMark _ rest rest'

theorem prefixFree_quoteLetter {mark : Char} (isMark : mark = '\'' ∨ mark = '"') :
    PrefixFree (quoteLetter mark) := by
  intro a b rest rest' equal
  have read := congrArg firstCode? equal
  rw [firstCode?_quoteLetter isMark, firstCode?_quoteLetter isMark] at read
  exact Letter.code_injective (Option.some.inj read)

/-- A quoted text is found again where it stands. -/
theorem quote_front {first second : Str} {rest rest' : List Char}
    (same : quote first ++ rest = quote second ++ rest') : first = second := by
  simp only [quote, List.cons_append, List.append_assoc, List.nil_append] at same
  obtain ⟨mark, forms⟩ := List.cons.inj same
  rw [← mark] at forms
  have isMark := quoteMark_cases (first.letters.map Letter.shown)
  exact Str.letters_inj.mp
    ((prefixFree_quoteLetter isMark).flatMap_stop (quoteLetter_ne_mark isMark) forms).1

/-- Two texts with one quoted form are one text. -/
theorem quote_injective {first second : Str} (same : quote first = quote second) : first = second :=
  quote_front (congrArg (· ++ []) same)

section bytes

theorem toNat_ofNat_byte (byte : UInt8) : (Char.ofNat byte.toNat).toNat = byte.toNat := by
  have short := byte.toNat_lt
  have valid : byte.toNat.isValidChar := .inl (by omega)
  rw [Char.ofNat, dif_pos valid]
  rfl

theorem firstCode?_quoteByte {mark : Char} (isMark : mark = '\'' ∨ mark = '"') (byte : UInt8)
    (rest : List Char) : firstCode? (quoteByte mark byte ++ rest) = some byte.toNat := by
  rw [quoteByte]
  split
  · rw [firstCode?_quoteChar isMark, toNat_ofNat_byte]
  · exact firstCode?_escapeCode (Nat.lt_trans byte.toNat_lt (by decide)) rest

theorem prefixFree_quoteByte {mark : Char} (isMark : mark = '\'' ∨ mark = '"') :
    PrefixFree (quoteByte mark) := by
  intro a b rest rest' equal
  have read := congrArg firstCode? equal
  rw [firstCode?_quoteByte isMark, firstCode?_quoteByte isMark] at read
  exact UInt8.toNat_inj.mp (Option.some.inj read)

theorem quoteByte_ne_mark {mark : Char} (isMark : mark = '\'' ∨ mark = '"') (byte : UInt8)
    (rest rest' : List Char) : quoteByte mark byte ++ rest ≠ mark :: rest' := by
  rw [quoteByte]
  split
  · exact quoteChar_ne_mark isMark _ rest rest'
  · exact escapeCode_ne_mark isMark _ rest rest'

/-- A quoted byte string is found again where it stands. -/
theorem quoteBytes_front {first second : List UInt8} {rest rest' : List Char}
    (same : quoteBytes first ++ rest = quoteBytes second ++ rest') : first = second := by
  simp only [quoteBytes, List.cons_append, List.append_assoc, List.nil_append] at same
  obtain ⟨mark, forms⟩ := List.cons.inj (List.cons.inj same).2
  rw [← mark] at forms
  have isMark := quoteMark_cases (first.map fun byte => Char.ofNat byte.toNat)
  exact ((prefixFree_quoteByte isMark).flatMap_stop (quoteByte_ne_mark isMark) forms).1

end bytes

end LayeredConfig.Text
