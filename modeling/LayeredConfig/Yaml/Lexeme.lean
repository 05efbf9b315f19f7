import LayeredConfig.Text.Numeral
import LayeredConfig.Text.Percent
import LayeredConfig.Yaml.Token

namespace LayeredConfig.Yaml.Scan

/-- The characters of names, handles and anchors. -/
def isNameChar (c : Char) : Bool :=
  c.isAlphanum || c == '-' || c == '_'

def isAddressChar (c : Char) : Bool :=
  c.isAlphanum || "-;/?:@&=+$,_.!~*'()[]%".toList.contains c

/-- Requires a character of a class. -/
def require (holds : Char → Bool) : Scan Unit := do
  if !holds (← peek) then refuse

/-- Requires a word of at least one character. -/
def takeName : Scan (List Char) := do
  let name ← takeWhile isNameChar
  if name.isEmpty then refuse
  return name

/-- Skips what may follow on a line: spaces, a comment and the break. -/
def endLine : Scan Unit := do
  skipSpaces
  skipComment
  require endsLine
  let _ ← lineBreak

/-- Bytes given by escapes, as long as escapes follow each other. -/
def escapedBytes : Nat → Scan (List UInt8)
  | 0 => return []
  | fuel + 1 => do
    if (← peek) != '%' then return []
    advance
    let c ← get
    match Text.hexValue? (c.peekAt 0), Text.hexValue? (c.peekAt 1) with
    | some high, some low =>
      modify (·.advanceBy 2)
      return UInt8.ofNat (high * 16 + low) :: (← escapedBytes fuel)
    | _, _ => refuse

/-- The parts of an address: stretches of characters, and characters given by escaped bytes. -/
def addressParts : Nat → Scan (List Char)
  | 0 => return []
  | fuel + 1 => do
    let stretch ← takeWhile (fun c => isAddressChar c && c != '%')
    if (← peek) == '%' then
      let bytes ← escapedBytes (← bound)
      match Text.decodeUtf8? bytes with
      | some characters => return stretch ++ characters ++ (← addressParts fuel)
      | none => refuse
    else return stretch

/-- The address in a tag or a tag directive. -/
def address : Scan (List Char) := do
  if !isAddressChar (← peek) then refuse
  addressParts (← bound)

/-- A handle such as `!`, `!!` or `!name!`. -/
def handle : Scan (List Char) := do
  if (← peek) != '!' then refuse
  advance
  if (← peek) == ' ' then return ['!']
  let name ← takeWhile isNameChar
  if (← peek) != '!' then refuse
  advance
  return '!' :: (name ++ ['!'])

/-- A part of a version number. -/
def versionNumber : Scan Nat := do
  let digits ← takeWhile Char.isDigit
  if digits.isEmpty then refuse
  match Text.readInteger? 10 digits with
  | some number => return number.toNat
  | none => throw (.fault .content)

/-- A line that starts with `%`. -/
def directive : Scan Token := do
  advance
  let name ← takeName
  require endsWord
  let content ←
    if name == "YAML".toList then
      skipSpaces
      let major ← versionNumber
      if (← peek) != '.' then refuse
      advance
      let minor ← versionNumber
      require endsWord
      pure (Directive.version major minor)
    else if name == "TAG".toList then
      skipSpaces
      let handle ← handle
      require (· == ' ')
      skipSpaces
      let expansion ← address
      require endsWord
      pure (Directive.tag handle expansion)
    else
      let _ ← takeWhile (!endsLine ·)
      pure Directive.other
  endLine
  return .directive content

/-- The name after the sign of an anchor or an alias. -/
def anchorName : Scan (List Char) := do
  advance
  let name ← takeName
  require (fun c => endsToken c || "?:,]\x7d%@`".toList.contains c)
  return name

/-- Whether a tag has a handle of its own: a second `!` before the word ends. -/
def hasHandle (word : List Char) : Bool :=
  (word.takeWhile (!endsWord ·)).contains '!'

/-- A tag: an address in angle brackets, the bare sign, or a handle with a suffix. -/
def tag : Scan Token := do
  let c ← get
  let next := c.peekAt 1
  let token ←
    if next == '<' then
      modify (·.advanceBy 2)
      let suffix ← address
      if (← peek) != '>' then refuse
      advance
      pure (Token.tag none suffix)
    else if endsToken next then
      advance
      pure (Token.tag none ['!'])
    else if hasHandle (c.rest.drop 1) then
      let handle ← handle
      pure (Token.tag (some handle) (← address))
    else
      advance
      pure (Token.tag (some ['!']) (← address))
  require endsWord
  return token

/-- What happens to the breaks at the end of a block scalar. -/
inductive Chomping
  | clip
  | strip
  | keep
  deriving DecidableEq

/-- The sign of a chomping, if there is one. -/
def chomping? : Scan (Option Chomping) := do
  let c ← peek
  if c == '+' then advance; return some .keep
  else if c == '-' then advance; return some .strip
  else return none

/-- An indentation given as a digit other than zero. -/
def increment? : Scan (Option Nat) := do
  let c ← peek
  if c == '0' then refuse
  else if '1' ≤ c && c ≤ '9' then advance; return some (c.toNat - '0'.toNat)
  else return none

/-- The header of a block scalar: chomping and indentation in either order. -/
def blockHeader : Scan (Chomping × Option Nat) := do
  match ← chomping? with
  | some chomping =>
    let increment ← increment?
    require endsWord
    return (chomping, increment)
  | none =>
    match ← increment? with
    | some increment =>
      let chomping ← chomping?
      require endsWord
      return (chomping.getD .clip, some increment)
    | none =>
      require endsWord
      return (.clip, none)

/-- Blank lines in front of a block scalar; also gives the widest indentation among them. -/
def leadingBreaks (widest : Nat) : Nat → Scan (List Char × Nat)
  | 0 => return ([], widest)
  | fuel + 1 => do
    let c ← peek
    if c == ' ' then
      advance
      leadingBreaks (max widest (← get).column) fuel
    else if isBreak c then
      let chunk ← lineBreak
      let (breaks, widest) ← leadingBreaks widest fuel
      return (chunk ++ breaks, widest)
    else return ([], widest)

/-- Skips spaces up to an indentation. -/
def skipIndentation (indent : Nat) : Nat → Scan Unit
  | 0 => return
  | fuel + 1 => do
    let c ← get
    if c.column < indent && c.peek == ' ' then
      advance
      skipIndentation indent fuel

/-- Blank lines between the lines of a block scalar. -/
def innerBreaks (indent : Nat) : Nat → Scan (List Char)
  | 0 => return []
  | fuel + 1 => do
    skipIndentation indent indent
    if isBreak (← peek) then
      let chunk ← lineBreak
      return chunk ++ (← innerBreaks indent fuel)
    else return []

/-- The lines of a block scalar after some blank ones. Gives the text, the break after the last line
and the blank lines after that. -/
def blockLines (folded : Bool) (indent : Nat) (breaks : List Char) :
    Nat → Scan (List Char × List Char × List Char)
  | 0 => return ([], [], breaks)
  | fuel + 1 => do
    let c ← get
    if c.column != indent || c.peek == '\x00' then return ([], [], breaks)
    let startsWithBlank := c.peek == ' ' || c.peek == '\t'
    let line ← takeWhile (!endsLine ·)
    let newline ← lineBreak
    let following ← innerBreaks indent (← bound)
    let c ← get
    if c.column == indent && c.peek != '\x00' then
      let joint :=
        if folded && newline == ['\n'] && !startsWithBlank && c.peek != ' ' && c.peek != '\t' then
          if following.isEmpty then [' '] else []
        else newline
      let (text, last, trailing) ← blockLines folded indent following fuel
      return (breaks ++ line ++ joint ++ text, last, trailing)
    else return (breaks ++ line, newline, following)

/-- A literal or folded block scalar inside a block of a given indentation. -/
def blockScalar (folded : Bool) (indent : Int) : Scan Token := do
  advance
  let (chomping, increment) ← blockHeader
  endLine
  let least := (max (indent + 1) 1).toNat
  let (indent, breaks) ←
    match increment with
    | some increment =>
      let indent := least + increment - 1
      pure (indent, ← innerBreaks indent (← bound))
    | none =>
      let (breaks, widest) ← leadingBreaks 0 (← bound)
      pure (max least widest, breaks)
  let (text, last, trailing) ← blockLines folded indent breaks (← bound)
  let ending :=
    match chomping with
    | .strip => []
    | .clip => last
    | .keep => last ++ trailing
  return .scalar ((text ++ ending).map .char) false

/-- The character that a one-letter escape stands for. -/
def escapeChar? (c : Char) : Option Char :=
  [('0', '\x00'), ('a', '\x07'), ('b', '\x08'), ('t', '\t'), ('\t', '\t'), ('n', '\n'),
    ('v', '\x0b'), ('f', '\x0c'), ('r', '\r'), ('e', '\x1b'), (' ', ' '), ('"', '"'), ('\\', '\\'),
    ('/', '/'), ('N', '\x85'), ('_', '\xa0'), ('L', '\u2028'), ('P', '\u2029')].lookup c

/-- How many digits follow the letter of an escape by code point. -/
def escapeWidth? (c : Char) : Option Nat :=
  [('x', 2), ('u', 4), ('U', 8)].lookup c

/-- The letter with a code point. -/
def letterOfCode (code : Nat) : Scan Letter :=
  if 0x80000000 ≤ code then throw (.fault .magnitude)
  else if 0x110000 ≤ code then throw (.fault .content)
  else return .ofCode code

/-- Breaks and blanks inside a quoted scalar; a mark between documents may not stand there. -/
def quotedBreaks : Nat → Scan (List Char)
  | 0 => return []
  | fuel + 1 => do
    if (← get).atDocumentMark then refuse
    let _ ← takeWhile (fun c => c == ' ' || c == '\t')
    if isBreak (← peek) then
      let chunk ← lineBreak
      return chunk ++ (← quotedBreaks fuel)
    else return []

/-- An escape of a double-quoted scalar, after the backslash. -/
def escape : Scan (List Letter) := do
  let c ← peek
  match escapeChar? c with
  | some character =>
    advance
    return [.char character]
  | none =>
    match escapeWidth? c with
    | some width =>
      advance
      let digits := (← get).rest.take width
      match digits.mapM Text.hexValue? with
      | some values =>
        if values.length < width then refuse
        let letter ← letterOfCode (Text.ofDigits 16 values)
        modify (·.advanceBy width)
        return [letter]
      | none => refuse
    | none =>
      if isBreak c then
        let _ ← lineBreak
        return (← quotedBreaks (← bound)).map .char
      else refuse

/-- The letters of a quoted scalar up to a blank, a break or its end. -/
def quotedWord (double : Bool) : Nat → Scan (List Letter)
  | 0 => return []
  | fuel + 1 => do
    let stretch := (← takeWhile fun c => !(c == '\'' || c == '"' || c == '\\' || endsToken c)).map .char
    let c ← peek
    if !double && c == '\'' && (← get).peekAt 1 == '\'' then
      modify (·.advanceBy 2)
      return stretch ++ .char '\'' :: (← quotedWord double fuel)
    else if (double && c == '\'') || (!double && (c == '"' || c == '\\')) then
      advance
      return stretch ++ .char c :: (← quotedWord double fuel)
    else if double && c == '\\' then
      advance
      let chunk ← escape
      return stretch ++ chunk ++ (← quotedWord double fuel)
    else return stretch

/-- Blanks between the words of a quoted scalar; a single break becomes a space. -/
def quotedSpaces : Scan (List Char) := do
  let blanks ← takeWhile (fun c => c == ' ' || c == '\t')
  let c ← peek
  if c == '\x00' then refuse
  else if isBreak c then
    let newline ← lineBreak
    let breaks ← quotedBreaks (← bound)
    if newline != ['\n'] then return newline ++ breaks
    else if breaks.isEmpty then return [' ']
    else return breaks
  else return blanks

/-- The words and blanks of a quoted scalar up to its closing mark. -/
def quotedRest (double : Bool) : Nat → Scan (List Letter)
  | 0 => return []
  | fuel + 1 => do
    if (← peek) == (if double then '"' else '\'') then return []
    let blanks ← quotedSpaces
    let word ← quotedWord double (← bound)
    return blanks.map .char ++ word ++ (← quotedRest double fuel)

/-- A quoted scalar. -/
def quotedScalar (double : Bool) : Scan Token := do
  advance
  let word ← quotedWord double (← bound)
  let rest ← quotedRest double (← bound)
  advance
  return .scalar (word ++ rest) false

/-- The length of a word of a plain scalar. -/
def plainLength (inFlow : Bool) : List Char → Nat
  | [] => 0
  | c :: rest =>
    let next := rest.headD '\x00'
    if endsToken c || (c == ':' && (endsToken next || (inFlow && ",[]\x7b\x7d".toList.contains next)))
        || (inFlow && ",?[]\x7b\x7d".toList.contains c)
    then 0
    else plainLength inFlow rest + 1

/-- Breaks between the lines of a plain scalar; `none` at a mark between documents. -/
def plainBreaks : Nat → Scan (Option (List Char))
  | 0 => return some []
  | fuel + 1 => do
    if (← get).atDocumentMark then return none
    skipSpaces
    if isBreak (← peek) then
      let chunk ← lineBreak
      return (← plainBreaks fuel).map (chunk ++ ·)
    else return some []

/-- Blanks after a word of a plain scalar, and whether a line ended among them. Without blanks that
lead on, the first part is empty. -/
def plainSpaces : Scan (List Char × Bool) := do
  let blanks ← takeWhile (· == ' ')
  if isBreak (← peek) then
    let newline ← lineBreak
    match ← plainBreaks (← bound) with
    | none => return ([], true)
    | some breaks =>
      if newline != ['\n'] then return (newline ++ breaks, true)
      else if breaks.isEmpty then return ([' '], true)
      else return (breaks, true)
  else return (blanks, false)

/-- The words of a plain scalar, after some blanks. Also tells whether a line ended after the last
word. -/
def plainWords (inFlow : Bool) (indent : Int) (blanks : List Char) (ended : Bool) :
    Nat → Scan (List Char × Bool)
  | 0 => return ([], ended)
  | fuel + 1 => do
    let c ← get
    let length := plainLength inFlow c.rest
    if c.peek == '#' || length == 0 then return ([], ended)
    let word := blanks ++ c.rest.take length
    modify (·.advanceBy length)
    let (blanks, ended) ← plainSpaces
    let c ← get
    if blanks.isEmpty || c.peek == '#' || (!inFlow && (c.column : Int) < indent) then
      return (word, ended)
    let (words, ended) ← plainWords inFlow indent blanks ended fuel
    return (word ++ words, ended)

/-- A plain scalar inside a block of a given indentation. Also tells whether a line ended after it. -/
def plainScalar (inFlow : Bool) (indent : Int) : Scan (Token × Bool) := do
  let (text, ended) ← plainWords inFlow (indent + 1) [] false (← bound)
  return (.scalar (text.map .char) true, ended)

end LayeredConfig.Yaml.Scan
