import LayeredConfig.Text.Encoding
import LayeredConfig.Yaml.Failure

namespace LayeredConfig.Yaml

/-- The characters that a source may contain. -/
def isAdmitted (c : Char) : Bool :=
  let code := c.toNat
  c == '\t' || c == '\n' || c == '\r' || (0x20 ≤ code && code ≤ 0x7e) || code == 0x85 ||
    (0xa0 ≤ code && code ≤ 0xfffd) || 0x10000 ≤ code

/-- The characters of a source. Two bytes in front announce UTF-16; all else is UTF-8. -/
def readCharacters (bytes : List UInt8) : Except Failure (List Char) :=
  let decoded :=
    match bytes with
    | 0xff :: 0xfe :: _ => Text.decodeUtf16? false bytes
    | 0xfe :: 0xff :: _ => Text.decodeUtf16? true bytes
    | _ => Text.decodeUtf8? bytes
  match decoded with
  | some characters =>
    if characters.all isAdmitted then .ok characters else .error (.refused .characters)
  | none => .error (.refused .characters)

def isBreak (c : Char) : Bool :=
  c == '\n' || c == '\r' || c == '\x85' || c == '\u2028' || c == '\u2029'

def endsLine (c : Char) : Bool :=
  c == '\x00' || isBreak c

def endsWord (c : Char) : Bool :=
  c == ' ' || endsLine c

def endsToken (c : Char) : Bool :=
  c == '\t' || endsWord c

/-- The rest of a source, and the place where it begins. -/
structure Cursor where
  rest : List Char
  index : Nat
  line : Nat
  column : Nat
  deriving Repr

namespace Cursor

def atStart (characters : List Char) : Cursor :=
  ⟨characters, 0, 0, 0⟩

def peek (c : Cursor) : Char :=
  c.rest.headD '\x00'

def peekAt (c : Cursor) (distance : Nat) : Char :=
  c.rest.getD distance '\x00'

/-- Moves past one character. A line ends after its break, of which a pair of carriage return and
line feed is one. -/
def advance (c : Cursor) : Cursor :=
  match c.rest with
  | [] => c
  | x :: rest =>
    if isBreak x && !(x == '\r' && rest.headD '\x00' == '\n') then ⟨rest, c.index + 1, c.line + 1, 0⟩
    else ⟨rest, c.index + 1, c.line, if x == '\ufeff' then c.column else c.column + 1⟩

def advanceBy (c : Cursor) : Nat → Cursor
  | 0 => c
  | count + 1 => c.advance.advanceBy count

/-- Whether a mark of three characters stands alone here, as those between documents do. -/
def atMark (c : Cursor) (mark : Char) : Bool :=
  c.rest.take 3 == [mark, mark, mark] && endsToken (c.peekAt 3)

def atDocumentMark (c : Cursor) : Bool :=
  c.atMark '-' || c.atMark '.'

end Cursor

/-- A step of reading that may move the cursor. -/
abbrev Scan := StateT Cursor (Except Failure)

namespace Scan

def refuse : Scan α :=
  throw (.refused .tokens)

def peek : Scan Char := do
  return (← get).peek

def advance : Scan Unit :=
  modify Cursor.advance

/-- Takes the characters of a class. -/
def takeWhile (takes : Char → Bool) : Scan (List Char) := do
  let front := (← get).rest.takeWhile takes
  modify (·.advanceBy front.length)
  return front

def skipSpaces : Scan Unit := do
  let _ ← takeWhile (· == ' ')

/-- Skips a comment up to the end of its line, if there is one. -/
def skipComment : Scan Unit := do
  if (← peek) == '#' then
    let _ ← takeWhile (!endsLine ·)

/-- Takes a line break, if there is one, in its normal form. -/
def lineBreak : Scan (List Char) := do
  let c ← peek
  if c == '\r' || c == '\n' || c == '\x85' then
    if c == '\r' && (← get).peekAt 1 == '\n' then modify (·.advanceBy 2) else advance
    return ['\n']
  else if c == '\u2028' || c == '\u2029' then
    advance
    return [c]
  else return []

/-- A bound on the number of steps that still move the cursor. -/
def bound : Scan Nat := do
  return (← get).rest.length + 1

end Scan

end LayeredConfig.Yaml
