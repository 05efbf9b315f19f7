import LayeredConfig.Yaml.Lexeme

/-!
The tokens of a source in order. Whether a scalar is a key shows only when its colon is met, so a
token that may start a key is given out only once that is decided; a fault met before then comes first.
-/

namespace LayeredConfig.Yaml

/-- A token that becomes a key if a colon follows in time. -/
structure Candidate where
  number : Nat
  required : Bool
  index : Nat
  line : Nat
  column : Nat
  deriving Repr

/-- The state between two tokens. Tokens are held with the last one first; candidates are held with
the flow level they belong to. -/
structure Tokenizer where
  cursor : Cursor
  tokens : List Token
  count : Nat
  flowLevel : Int
  indent : Int
  indents : List Int
  keyAllowed : Bool
  candidates : List (Int × Candidate)
  done : Bool

/-- The tokens that can be given out, and the fault that stopped the reading, if any. -/
structure TokenStream where
  tokens : List Token
  failure : Option Failure

namespace Tokenizer

def atStart (characters : List Char) : Tokenizer :=
  { cursor := .atStart characters, tokens := [.streamStart], count := 1, flowLevel := 0, indent := -1
    indents := [], keyAllowed := true, candidates := [], done := false }

def push (t : Tokenizer) (token : Token) : Tokenizer :=
  { t with tokens := token :: t.tokens, count := t.count + 1 }

/-- Puts a token in front of the last `depth` ones. -/
def insertBehind (token : Token) : Nat → List Token → List Token
  | depth + 1, last :: tokens => last :: insertBehind token depth tokens
  | _, tokens => token :: tokens

/-- Puts a token in the place of the one with a number. -/
def insertAt (t : Tokenizer) (number : Nat) (token : Token) : Tokenizer :=
  { t with tokens := insertBehind token (t.count - number) t.tokens, count := t.count + 1 }

/-- How many tokens can be given out: those before the first candidate. -/
def settled (t : Tokenizer) : Nat :=
  t.candidates.foldl (fun least candidate => min least candidate.2.number) t.count

def refuse : Except Failure α :=
  .error (.refused .tokens)

/-- Drops candidates that are too far behind: on another line, or over 1024 characters away. One that
has to be a key must not be dropped. -/
def dropStale (t : Tokenizer) : Except Failure Tokenizer :=
  let (stale, fresh) := t.candidates.partition fun (_, candidate) =>
    candidate.line != t.cursor.line || 1024 < t.cursor.index - candidate.index
  if stale.any (·.2.required) then refuse else .ok { t with candidates := fresh }

/-- Gives up the candidate of the current flow level. -/
def dropCandidate (t : Tokenizer) : Except Failure Tokenizer :=
  match t.candidates.lookup t.flowLevel with
  | some candidate =>
    if candidate.required then refuse
    else .ok { t with candidates := t.candidates.filter (·.1 != t.flowLevel) }
  | none => .ok t

/-- Makes the token that comes next a candidate, where a key is allowed. -/
def saveCandidate (t : Tokenizer) : Except Failure Tokenizer := do
  if !t.keyAllowed then return t
  let t ← t.dropCandidate
  let candidate : Candidate :=
    { number := t.count, required := t.flowLevel == 0 && t.indent == t.cursor.column
      index := t.cursor.index, line := t.cursor.line, column := t.cursor.column }
  return { t with candidates := (t.flowLevel, candidate) :: t.candidates }

/-- Closes the blocks that are indented further than a column. -/
def closeBlocks (column : Int) : List Int → Tokenizer → Tokenizer
  | [], t => t
  | outer :: indents, t =>
    if column < t.indent then
      closeBlocks column indents { t.push .blockEnd with indent := outer, indents := indents }
    else t

def unwind (t : Tokenizer) (column : Int) : Tokenizer :=
  if t.flowLevel != 0 then t else closeBlocks column t.indents t

/-- Opens a block at a column, if none is open there. -/
def openBlock (t : Tokenizer) (column : Int) : Tokenizer × Bool :=
  if t.indent < column then ({ t with indents := t.indent :: t.indents, indent := column }, true)
  else (t, false)

/-- Opens a block at the cursor and announces it. -/
def openHere (t : Tokenizer) (token : Token) : Tokenizer :=
  let (t, opened) := t.openBlock t.cursor.column
  if opened then t.push token else t

/-- Skips blanks, comments and breaks. Outside flow collections a new line allows a key again. -/
def skipToToken : Nat → Tokenizer → Tokenizer
  | 0, t => t
  | fuel + 1, t =>
    let skip : Scan (List Char) := do
      Scan.skipSpaces
      Scan.skipComment
      Scan.lineBreak
    match skip.run t.cursor with
    | .ok (newline, cursor) =>
      if newline.isEmpty then { t with cursor := cursor }
      else skipToToken fuel
        { t with cursor := cursor, keyAllowed := t.keyAllowed || t.flowLevel == 0 }
    | .error _ => t

/-- Reads a token with a text of its own. -/
def lexeme (t : Tokenizer) (read : Scan Token) : Except Failure Tokenizer := do
  let (token, cursor) ← read.run t.cursor
  return { t.push token with cursor := cursor }

def skip (t : Tokenizer) (count : Nat) : Tokenizer :=
  { t with cursor := t.cursor.advanceBy count }

def finish (t : Tokenizer) : Except Failure Tokenizer := do
  let t ← (t.unwind (-1)).dropCandidate
  return { t.push .streamEnd with keyAllowed := false, candidates := [], done := true }

def readDirective (t : Tokenizer) : Except Failure Tokenizer := do
  let t ← (t.unwind (-1)).dropCandidate
  { t with keyAllowed := false }.lexeme Scan.directive

def documentMark (t : Tokenizer) (token : Token) : Except Failure Tokenizer := do
  let t ← (t.unwind (-1)).dropCandidate
  return ({ t with keyAllowed := false }.push token).skip 3

def flowStart (t : Tokenizer) (token : Token) : Except Failure Tokenizer := do
  let t ← t.saveCandidate
  return ({ t with flowLevel := t.flowLevel + 1, keyAllowed := true }.push token).skip 1

def flowEnd (t : Tokenizer) (token : Token) : Except Failure Tokenizer := do
  let t ← t.dropCandidate
  return ({ t with flowLevel := t.flowLevel - 1, keyAllowed := false }.push token).skip 1

def flowEntry (t : Tokenizer) : Except Failure Tokenizer := do
  let t ← { t with keyAllowed := true }.dropCandidate
  return (t.push .flowEntry).skip 1

def blockEntry (t : Tokenizer) : Except Failure Tokenizer := do
  if t.flowLevel == 0 && !t.keyAllowed then refuse
  let t := if t.flowLevel == 0 then t.openHere .blockSequenceStart else t
  let t ← { t with keyAllowed := true }.dropCandidate
  return (t.push .blockEntry).skip 1

def key (t : Tokenizer) : Except Failure Tokenizer := do
  if t.flowLevel == 0 && !t.keyAllowed then refuse
  let t := if t.flowLevel == 0 then t.openHere .blockMappingStart else t
  let t ← { t with keyAllowed := t.flowLevel == 0 }.dropCandidate
  return (t.push .key).skip 1

/-- A colon. It turns the candidate of its level into a key, which may open a block. -/
def value (t : Tokenizer) : Except Failure Tokenizer := do
  match t.candidates.lookup t.flowLevel with
  | some candidate =>
    let t := { t with candidates := t.candidates.filter (·.1 != t.flowLevel) }
    let t := t.insertAt candidate.number .key
    let (t, opened) := if t.flowLevel == 0 then t.openBlock candidate.column else (t, false)
    let t := if opened then t.insertAt candidate.number .blockMappingStart else t
    return ({ t with keyAllowed := false }.push .value).skip 1
  | none =>
    if t.flowLevel == 0 && !t.keyAllowed then refuse
    let t := if t.flowLevel == 0 then t.openHere .blockMappingStart else t
    let t ← { t with keyAllowed := t.flowLevel == 0 }.dropCandidate
    return (t.push .value).skip 1

def named (t : Tokenizer) (make : List Char → Token) : Except Failure Tokenizer := do
  let t ← t.saveCandidate
  { t with keyAllowed := false }.lexeme (make <$> Scan.anchorName)

def tag (t : Tokenizer) : Except Failure Tokenizer := do
  let t ← t.saveCandidate
  { t with keyAllowed := false }.lexeme Scan.tag

def block (t : Tokenizer) (folded : Bool) : Except Failure Tokenizer := do
  let t ← { t with keyAllowed := true }.dropCandidate
  t.lexeme (Scan.blockScalar folded t.indent)

def quoted (t : Tokenizer) (double : Bool) : Except Failure Tokenizer := do
  let t ← t.saveCandidate
  { t with keyAllowed := false }.lexeme (Scan.quotedScalar double)

def plain (t : Tokenizer) : Except Failure Tokenizer := do
  let t ← t.saveCandidate
  let ((token, ended), cursor) ← (Scan.plainScalar (t.flowLevel != 0) t.indent).run t.cursor
  return { t.push token with cursor := cursor, keyAllowed := ended }

/-- Whether a plain scalar can start at the cursor. -/
def startsPlain (t : Tokenizer) : Bool :=
  let c := t.cursor.peek
  let indicators := "-?:,[]\x7b\x7d#&*!|>'\"%@`".toList
  !(endsToken c || indicators.contains c) ||
    (!endsToken (t.cursor.peekAt 1) && (c == '-' || (t.flowLevel == 0 && (c == '?' || c == ':'))))

/-- Reads the token at the cursor, which may bring others with it. -/
def readToken (t : Tokenizer) : Except Failure Tokenizer :=
  let c := t.cursor.peek
  let next := t.cursor.peekAt 1
  let inFlow := t.flowLevel != 0
  let atMargin := t.cursor.column == 0
  if c == '\x00' then t.finish
  else if c == '%' && atMargin then t.readDirective
  else if c == '-' && atMargin && t.cursor.atMark '-' then t.documentMark .documentStart
  else if c == '.' && atMargin && t.cursor.atMark '.' then t.documentMark .documentEnd
  else if c == '[' then t.flowStart .flowSequenceStart
  else if c == '\x7b' then t.flowStart .flowMappingStart
  else if c == ']' then t.flowEnd .flowSequenceEnd
  else if c == '\x7d' then t.flowEnd .flowMappingEnd
  else if c == ',' then t.flowEntry
  else if c == '-' && endsToken next then t.blockEntry
  else if c == '?' && (inFlow || endsToken next) then t.key
  else if c == ':' && (inFlow || endsToken next) then t.value
  else if c == '*' then t.named .alias
  else if c == '&' then t.named .anchor
  else if c == '!' then t.tag
  else if c == '|' && !inFlow then t.block false
  else if c == '>' && !inFlow then t.block true
  else if c == '\'' then t.quoted false
  else if c == '"' then t.quoted true
  else if t.startsPlain then t.plain
  else refuse

/-- Moves on by one token and drops the candidates that it leaves behind. -/
def step (t : Tokenizer) : Except Failure Tokenizer := do
  let t :=
    if t.cursor.index == 0 && t.cursor.peek == '\ufeff' then { t with cursor := t.cursor.advance }
    else t
  let t ← (skipToToken (t.cursor.rest.length + 1) t).dropStale
  let t ← (t.unwind t.cursor.column).readToken
  t.dropStale

/-- Reads on to the end or to a fault. -/
def run : Nat → Tokenizer → TokenStream
  | 0, t => ⟨t.tokens.reverse, none⟩
  | fuel + 1, t =>
    if t.done then ⟨t.tokens.reverse, none⟩
    else match t.step with
      | .ok t => run fuel t
      | .error failure => ⟨t.tokens.reverse.take t.settled, some failure⟩

end Tokenizer

/-- The tokens of some characters. -/
def TokenStream.ofCharacters (characters : List Char) : TokenStream :=
  Tokenizer.run (characters.length + 2) (.atStart characters)

end LayeredConfig.Yaml
