/-!
Reading numerals. Digits of every script count as digits, blanks around a numeral are skipped, and a
decimal numeral has a bounded number of digits.
-/

namespace LayeredConfig.Text

/-- Code points of the digits zero; the nine code points after each are the other digits. -/
def zeroDigits : List Nat :=
  [0x30, 0x660, 0x6f0, 0x7c0, 0x966, 0x9e6, 0xa66, 0xae6, 0xb66, 0xbe6, 0xc66, 0xce6, 0xd66,
    0xde6, 0xe50, 0xed0, 0xf20, 0x1040, 0x1090, 0x17e0, 0x1810, 0x1946, 0x19d0, 0x1a80, 0x1a90,
    0x1b50, 0x1bb0, 0x1c40, 0x1c50, 0xa620, 0xa8d0, 0xa900, 0xa9d0, 0xa9f0, 0xaa50, 0xabf0,
    0xff10, 0x104a0, 0x10d30, 0x11066, 0x110f0, 0x11136, 0x111d0, 0x112f0, 0x11450, 0x114d0,
    0x11650, 0x116c0, 0x11730, 0x118e0, 0x11950, 0x11c50, 0x11d50, 0x11da0, 0x16a60, 0x16ac0,
    0x16b50, 0x1d7ce, 0x1d7d8, 0x1d7e2, 0x1d7ec, 0x1d7f6, 0x1e140, 0x1e2f0, 0x1e950, 0x1fbf0]

/-- Blanks outside ASCII. -/
def wideBlanks : List Nat :=
  [0x85, 0xa0, 0x1680, 0x2000, 0x2001, 0x2002, 0x2003, 0x2004, 0x2005, 0x2006, 0x2007, 0x2008,
    0x2009, 0x200a, 0x2028, 0x2029, 0x202f, 0x205f, 0x3000]

/-- A blank in running text: ASCII blanks, the four separators, and the wide ones. -/
def isBlank (c : Char) : Bool :=
  c == ' ' || (9 ≤ c.toNat && c.toNat ≤ 13) || (0x1c ≤ c.toNat && c.toNat ≤ 0x1f) ||
    wideBlanks.contains c.toNat

/-- A blank around a numeral; unlike in running text, the four separators are none. -/
def isNumeralBlank (c : Char) : Bool :=
  isBlank c && !(0x1c ≤ c.toNat && c.toNat ≤ 0x1f)

/-- Drops the characters of a class at both ends. -/
def trimBoth (skip : Char → Bool) (text : List Char) : List Char :=
  ((text.dropWhile skip).reverse.dropWhile skip).reverse

/-- The value of a decimal digit of any script. -/
def decimalDigit? (c : Char) : Option Nat :=
  if c.toNat < 0x80 then
    if '0' ≤ c && c ≤ '9' then some (c.toNat - '0'.toNat) else none
  else
    (zeroDigits.find? (fun first => first ≤ c.toNat && c.toNat < first + 10)).map (c.toNat - ·)

/-- The value of a digit below the base; letters continue the decimal digits. -/
def digit? (base : Nat) (c : Char) : Option Nat :=
  let value :=
    match decimalDigit? c with
    | some value => some value
    | none =>
      if 'a' ≤ c && c ≤ 'z' then some (c.toNat - 'a'.toNat + 10)
      else if 'A' ≤ c && c ≤ 'Z' then some (c.toNat - 'A'.toNat + 10)
      else none
  value.filter (· < base)

/-- The number that a list of digits denotes, the most significant digit first. -/
def ofDigits (base : Nat) (digits : List Nat) : Nat :=
  digits.foldl (fun sum digit => sum * base + digit) 0

/-- The longest decimal numeral that is read or written. -/
def decimalLimit : Nat := 4300

/-- Splits off a sign; `true` means negative. -/
def takeSign : List Char → Bool × List Char
  | '-' :: rest => (true, rest)
  | '+' :: rest => (false, rest)
  | text => (false, text)

/-- Drops the letter pair that announces the base, as in `0x1f`. -/
def dropBaseMark (base : Nat) : List Char → List Char
  | '0' :: mark :: rest =>
    if (base == 16 && (mark == 'x' || mark == 'X')) || (base == 8 && (mark == 'o' || mark == 'O')) ||
        (base == 2 && (mark == 'b' || mark == 'B'))
    then rest
    else '0' :: mark :: rest
  | text => text

/-- Reads a whole number in a base. Bases other than powers of two have the decimal limit. -/
def readInteger? (base : Nat) (text : List Char) : Option Int :=
  let (negative, unsigned) := takeSign (trimBoth isNumeralBlank text)
  let body := dropBaseMark base unsigned
  match body.mapM (digit? base) with
  | some (digit :: digits) =>
    if base == 10 && decimalLimit < digits.length + 1 then none
    else
      let size : Int := ofDigits base (digit :: digits)
      some (if negative then -size else size)
  | _ => none

/-- Whether the decimal text of a whole number stays within the limit. -/
def withinDecimalLimit (n : Int) : Bool :=
  n.natAbs < Nat.pow 10 decimalLimit

/-- The parts of a decimal fraction: `± digits · 10 ^ exponent`, or one of the named values. -/
inductive Fraction
  | decimal (negative : Bool) (digits : Nat) (exponent : Int)
  | infinite (negative : Bool)
  | notANumber
  deriving DecidableEq, Repr

/-- Reads the digits at the front of a text, giving their values and the rest. -/
def spanDigits : List Char → List Nat × List Char
  | [] => ([], [])
  | c :: rest =>
    match decimalDigit? c with
    | none => ([], c :: rest)
    | some digit =>
      let (digits, rest) := spanDigits rest
      (digit :: digits, rest)

/-- Reads an exponent such as `e-05`; an empty text is the exponent zero. -/
def readExponent? : List Char → Option Int
  | [] => some 0
  | mark :: rest =>
    if mark == 'e' || mark == 'E' then
      let (negative, rest) := takeSign rest
      match spanDigits rest with
      | (digit :: digits, []) =>
        let size : Int := ofDigits 10 (digit :: digits)
        some (if negative then -size else size)
      | _ => none
    else none

/-- Reads a decimal fraction; a point needs a digit on at least one side. -/
def readFraction? (text : List Char) : Option Fraction :=
  let (negative, body) := takeSign (trimBoth isNumeralBlank text)
  let word := String.ofList (body.map Char.toLower)
  if word == "inf" || word == "infinity" then some (.infinite negative)
  else if word == "nan" then some .notANumber
  else
    let (whole, rest) := spanDigits body
    let (part, rest) :=
      match rest with
      | '.' :: rest => spanDigits rest
      | rest => ([], rest)
    if whole.isEmpty && part.isEmpty then none
    else (readExponent? rest).map fun exponent =>
      .decimal negative (ofDigits 10 (whole ++ part)) (exponent - part.length)

end LayeredConfig.Text
