/-!
Texts as values hold them. An escape can name one half of a pair that only together is a character, so a
text may hold halves alone. Such a text is torn: it is compared and displayed like any other, but no
encoding has it. Messages show a replacement character for each half.
-/

namespace LayeredConfig

/-- A character, or a half of a pair by its number among the halves. -/
inductive Letter
  | char (c : Char)
  | half (number : Fin 0x800)
  deriving DecidableEq, Repr

namespace Letter

def code : Letter → Nat
  | .char c => c.toNat
  | .half number => 0xd800 + number

/-- The letter with a code point. -/
def ofCode (code : Nat) : Letter :=
  if 0xd800 ≤ code && code < 0xe000 then .half (Fin.ofNat 0x800 (code - 0xd800))
  else .char (Char.ofNat code)

/-- A letter where only characters can stand: a half is replaced. -/
def shown : Letter → Char
  | .char c => c
  | .half _ => '\ufffd'

theorem code_injective {a b : Letter} (same : a.code = b.code) : a = b := by
  cases a with
  | char c =>
    cases b with
    | char d => exact congrArg char (Char.toNat_inj.mp same)
    | half n =>
      have valid := c.valid
      simp only [code, Char.toNat, UInt32.isValidChar, Nat.isValidChar] at same valid
      omega
  | half m =>
    cases b with
    | char d =>
      have valid := d.valid
      simp only [code, Char.toNat, UInt32.isValidChar, Nat.isValidChar] at same valid
      omega
    | half n =>
      simp only [code] at same
      exact congrArg half (Fin.ext (by omega))

end Letter

/-- A text that is whole, or one that is torn at the first of its halves. -/
inductive Str
  | whole (text : String)
  | torn (before : List Char) (half : Fin 0x800) (after : List Letter)
  deriving DecidableEq, Repr

instance : Inhabited Str := ⟨.whole ""⟩

instance : Coe String Str := ⟨.whole⟩

namespace Str

def isTorn : Str → Bool
  | .whole _ => false
  | .torn _ _ _ => true

def letters : Str → List Letter
  | .whole text => text.toList.map .char
  | .torn before half after => before.map .char ++ .half half :: after

/-- The code points of a text, by which texts are ordered. -/
def codes (text : Str) : List Nat :=
  text.letters.map Letter.code

/-- The characters before the first half, and that half with the letters after it. -/
def split : List Letter → List Char × Option (Fin 0x800 × List Letter)
  | [] => ([], none)
  | .half half :: after => ([], some (half, after))
  | .char c :: rest => (c :: (split rest).1, (split rest).2)

/-- The text with some letters. -/
def ofLetters (letters : List Letter) : Str :=
  match split letters with
  | (text, none) => .whole (String.ofList text)
  | (before, some (half, after)) => .torn before half after

/-- A text where only whole ones can stand. -/
def shown : Str → String
  | .whole text => text
  | text => String.ofList (text.letters.map Letter.shown)

def isEmpty : Str → Bool
  | .whole text => text.isEmpty
  | .torn _ _ _ => false

def append : Str → Str → Str
  | .whole front, .whole back => .whole (front ++ back)
  | front, back => .ofLetters (front.letters ++ back.letters)

instance : Append Str := ⟨append⟩

/-- The order of code points. -/
instance : LT Str := ⟨fun a b => a.codes < b.codes⟩

instance (a b : Str) : Decidable (a < b) :=
  inferInstanceAs (Decidable (a.codes < b.codes))

theorem split_whole (text : List Char) : split (text.map .char) = (text, none) := by
  induction text with
  | nil => rfl
  | cons c rest ih => simp [split, ih]

theorem split_torn (before : List Char) (half : Fin 0x800) (after : List Letter) :
    split (before.map .char ++ .half half :: after) = (before, some (half, after)) := by
  induction before with
  | nil => rfl
  | cons c rest ih => simp [split, ih]

theorem ofLetters_letters (text : Str) : ofLetters text.letters = text := by
  cases text with
  | whole text => simp [ofLetters, letters, split_whole]
  | torn before half after => simp [ofLetters, letters, split_torn]

theorem letters_ofLetters (letters : List Letter) : (ofLetters letters).letters = letters := by
  induction letters with
  | nil => rfl
  | cons letter rest ih =>
    cases letter with
    | half number => rfl
    | char c =>
      rcases parts : split rest with ⟨before, _ | ⟨half, after⟩⟩ <;>
        simp_all [ofLetters, Str.letters, split]

theorem letters_inj {a b : Str} : a.letters = b.letters ↔ a = b :=
  ⟨fun same => by rw [← ofLetters_letters a, same, ofLetters_letters], congrArg _⟩

theorem codes_inj {a b : Str} : a.codes = b.codes ↔ a = b :=
  ⟨fun same => letters_inj.mp ((List.map_inj_right fun _ _ => Letter.code_injective).mp same),
    congrArg _⟩

theorem letters_append (front back : Str) : (front ++ back).letters = front.letters ++ back.letters := by
  change (append front back).letters = _
  unfold append
  split
  · simp [letters]
  · exact letters_ofLetters _

theorem append_assoc (a b c : Str) : a ++ b ++ c = a ++ (b ++ c) := by
  rw [← letters_inj]
  simp [letters_append]

@[simp] theorem append_empty (text : Str) : text ++ ("" : Str) = text := by
  rw [← letters_inj, letters_append]
  exact List.append_nil _

@[simp] theorem empty_append (text : Str) : ("" : Str) ++ text = text := by
  rw [← letters_inj, letters_append]
  rfl

theorem letters_eq_nil_iff {text : Str} : text.letters = [] ↔ text = "" :=
  letters_inj (b := "")

theorem isEmpty_iff {text : Str} : text.isEmpty = true ↔ text = "" := by
  cases text with
  | whole text => simp [isEmpty]
  | torn before half after => simp [isEmpty]

@[simp] theorem append_eq_empty_iff {front back : Str} : front ++ back = "" ↔ front = "" ∧ back = "" := by
  simp only [← letters_eq_nil_iff, letters_append, List.append_eq_nil_iff]

end Str

end LayeredConfig
