import LayeredConfig.Text.Printable
import LayeredConfig.Text.Str

namespace LayeredConfig.Text

/-- A hexadecimal digit in lower case. -/
def hexDigit (value : Nat) : Char :=
  if value < 10 then Char.ofNat ('0'.toNat + value) else Char.ofNat ('a'.toNat + value - 10)

/-- The last `width` hexadecimal digits of a number. -/
def hexPadded : Nat → Nat → List Char
  | 0, _ => []
  | width + 1, value => hexPadded width (value / 16) ++ [hexDigit (value % 16)]

theorem length_hexPadded (width value : Nat) : (hexPadded width value).length = width := by
  induction width generalizing value with
  | zero => rfl
  | succ width ih => simp [hexPadded, ih]

/-- The escape of a character by its code point, in the shortest of the three widths that fits. -/
def escapeCode (code : Nat) : List Char :=
  if code < 0x100 then '\\' :: 'x' :: hexPadded 2 code
  else if code < 0x10000 then '\\' :: 'u' :: hexPadded 4 code
  else '\\' :: 'U' :: hexPadded 8 code

/-- The quotation mark for a text. -/
def quoteMark (text : List Char) : Char :=
  if text.contains '\'' && !text.contains '"' then '"' else '\''

/-- One character as it stands between the marks. -/
def quoteChar (mark : Char) (c : Char) : List Char :=
  if c == mark || c == '\\' then ['\\', c]
  else if c == '\t' then ['\\', 't']
  else if c == '\n' then ['\\', 'n']
  else if c == '\r' then ['\\', 'r']
  else if isPrintable c then [c]
  else escapeCode c.toNat

/-- One letter as it stands between the marks; a half alone is escaped. -/
def quoteLetter (mark : Char) : Letter → List Char
  | .char c => quoteChar mark c
  | .half number => escapeCode (Letter.half number).code

/-- A text in quotation marks. -/
def quote (text : Str) : List Char :=
  let mark := quoteMark (text.letters.map Letter.shown)
  mark :: (text.letters.flatMap (quoteLetter mark) ++ [mark])

/-- One byte as it stands between the marks; bytes outside ASCII are always escaped. -/
def quoteByte (mark : Char) (byte : UInt8) : List Char :=
  if byte < 0x7f then quoteChar mark (Char.ofNat byte.toNat) else escapeCode byte.toNat

/-- A byte string in quotation marks, after the letter that tells it from a text. -/
def quoteBytes (bytes : List UInt8) : List Char :=
  let mark := quoteMark (bytes.map (fun byte => Char.ofNat byte.toNat))
  'b' :: mark :: (bytes.flatMap (quoteByte mark) ++ [mark])

end LayeredConfig.Text
