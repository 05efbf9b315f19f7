import LayeredConfig.Text.Numeral

/-!
Tags, and the tag that a plain scalar has by its form. Each form is a test on the characters; the forms
are those of YAML 1.1: base-60 numbers, octal numbers with a leading zero, and words such as yes.
-/

namespace LayeredConfig.Yaml

/-- What a node is meant to be. -/
inductive Tag
  | null
  | bool
  | int
  | float
  | binary
  | timestamp
  | omap
  | pairs
  | set
  | str
  | seq
  | map
  | merge
  | value
  | unknown
  deriving DecidableEq, Repr

namespace Tag

/-- The tags that have names in the common name space. -/
def names : List (String × Tag) :=
  [("null", .null), ("bool", .bool), ("int", .int), ("float", .float), ("binary", .binary),
    ("timestamp", .timestamp), ("omap", .omap), ("pairs", .pairs), ("set", .set), ("str", .str),
    ("seq", .seq), ("map", .map), ("merge", .merge), ("value", .value)]

/-- What the handle `!!` stands for. -/
def commonSpace : List Char :=
  "tag:yaml.org,2002:".toList

/-- The tag with a full name. -/
def ofName (name : List Char) : Tag :=
  if commonSpace.isPrefixOf name then
    let short := name.drop commonSpace.length
    ((names.find? (fun (known, _) => known.toList == short)).map (·.2)).getD .unknown
  else .unknown

end Tag

namespace Form

def isDigitOrLine (c : Char) : Bool :=
  c.isDigit || c == '_'

/-- Drops a sign. -/
def unsigned : List Char → List Char
  | '+' :: rest => rest
  | '-' :: rest => rest
  | text => text

def isOneOf (words : List String) (text : List Char) : Bool :=
  words.any (fun word => word.toList == text)

def isBool : List Char → Bool :=
  isOneOf ["yes", "Yes", "YES", "no", "No", "NO", "true", "True", "TRUE", "false", "False", "FALSE",
    "on", "On", "ON", "off", "Off", "OFF"]

def isNull : List Char → Bool :=
  isOneOf ["~", "null", "Null", "NULL", ""]

/-- Base-60 places after the first: a colon and a number below 60 each, at least one of them. Gives
what follows them. -/
def sexagesimalPlaces? : List Char → Option (List Char)
  | ':' :: a :: b :: rest =>
    if a.isDigit && b.isDigit then
      if a ≤ '5' then
        match sexagesimalPlaces? rest with
        | some following => some following
        | none => some rest
      else none
    else if a.isDigit then
      match sexagesimalPlaces? (b :: rest) with
      | some following => some following
      | none => some (b :: rest)
    else none
  | [':', a] => if a.isDigit then some [] else none
  | _ => none

/-- Digits and underscores after a first digit, then base-60 places up to the end. -/
def isSexagesimal (text : List Char) : Bool :=
  sexagesimalPlaces? (text.dropWhile isDigitOrLine) == some []

def isInt (text : List Char) : Bool :=
  match unsigned text with
  | ['0'] => true
  | '0' :: 'b' :: digits => !digits.isEmpty && digits.all (fun c => c == '0' || c == '1' || c == '_')
  | '0' :: 'x' :: digits =>
    !digits.isEmpty && digits.all fun c =>
      isDigitOrLine c || ('a' ≤ c && c ≤ 'f') || ('A' ≤ c && c ≤ 'F')
  | '0' :: digits => digits.all (fun c => ('0' ≤ c && c ≤ '7') || c == '_')
  | c :: rest =>
    '1' ≤ c && c ≤ '9' && (rest.all isDigitOrLine || isSexagesimal (c :: rest))
  | [] => false

/-- An exponent with its sign, or nothing. -/
def isExponent : List Char → Bool
  | [] => true
  | mark :: sign :: digits =>
    (mark == 'e' || mark == 'E') && (sign == '+' || sign == '-') && !digits.isEmpty &&
      digits.all Char.isDigit
  | _ => false

/-- Digits and underscores, then an exponent. -/
def isFractionPart (text : List Char) : Bool :=
  isExponent (text.dropWhile isDigitOrLine)

/-- A point after base-60 places, then digits and underscores. -/
def isSexagesimalFraction (text : List Char) : Bool :=
  match sexagesimalPlaces? (text.dropWhile isDigitOrLine) with
  | some ('.' :: rest) => rest.all isDigitOrLine
  | _ => false

def isFloat (text : List Char) : Bool :=
  let body := unsigned text
  let signless := body.length == text.length
  match body with
  | '.' :: rest =>
    isOneOf ["inf", "Inf", "INF"] rest ||
      (signless && (isOneOf ["nan", "NaN", "NAN"] rest ||
        ((rest.headD 'x').isDigit && isFractionPart rest)))
  | c :: rest =>
    c.isDigit &&
      (match rest.dropWhile isDigitOrLine with
        | '.' :: fraction => isFractionPart fraction
        | _ => isSexagesimalFraction (c :: rest))
  | [] => false

/-- Takes up to `most` digits, at least `least`. -/
def digits? (least most : Nat) (text : List Char) : Option (List Char × List Char) :=
  let digits := (text.takeWhile Char.isDigit).take most
  if least ≤ digits.length then some (digits, text.drop digits.length) else none

/-- The parts of a timestamp, as their digits. -/
structure Stamp where
  year : List Char
  month : List Char
  day : List Char
  time : Option (List Char × List Char × List Char × List Char)
  zone : Option (Option (Bool × List Char × List Char))

def expect (c : Char) : List Char → Option (List Char)
  | d :: rest => if c == d then some rest else none
  | [] => none

/-- The distance from universal time at the end of a timestamp: `Z`, or a signed time. -/
def zone? (text : List Char) : Option (Option (Option (Bool × List Char × List Char))) :=
  match text.dropWhile (fun c => c == ' ' || c == '\t') with
  | [] => if text.isEmpty then some none else none
  | ['Z'] => some (some none)
  | sign :: rest =>
    if sign == '+' || sign == '-' then do
      let (hour, rest) ← digits? 1 2 rest
      match rest with
      | [] => some (some (some (sign == '-', hour, [])))
      | _ =>
        let (minute, rest) ← digits? 2 2 (← expect ':' rest)
        if rest.isEmpty then some (some (some (sign == '-', hour, minute))) else none
    else none

/-- Splits a timestamp into its parts. -/
def stamp? (text : List Char) : Option Stamp := do
  let (year, rest) ← digits? 4 4 text
  let (month, rest) ← digits? 1 2 (← expect '-' rest)
  let (day, rest) ← digits? 1 2 (← expect '-' rest)
  match rest with
  | [] => return ⟨year, month, day, none, none⟩
  | c :: after =>
    let rest ←
      if c == 'T' || c == 't' then some after
      else if c == ' ' || c == '\t' then some (after.dropWhile (fun c => c == ' ' || c == '\t'))
      else none
    let (hour, rest) ← digits? 1 2 rest
    let (minute, rest) ← digits? 2 2 (← expect ':' rest)
    let (second, rest) ← digits? 2 2 (← expect ':' rest)
    let (fraction, rest) :=
      match rest with
      | '.' :: rest => (rest.takeWhile Char.isDigit, rest.dropWhile Char.isDigit)
      | rest => ([], rest)
    let zone ← zone? rest
    return ⟨year, month, day, some (hour, minute, second, fraction), zone⟩

/-- A plain timestamp; a date alone needs two digits for month and day. -/
def isTimestamp (text : List Char) : Bool :=
  match stamp? text with
  | some stamp => stamp.time.isSome || (stamp.month.length == 2 && stamp.day.length == 2)
  | none => false

/-- A word that stands for a special character and has no type. -/
def isReserved : List Char → Bool :=
  isOneOf ["!", "&", "*"]

/-- A text without one break at its end, if anything is left. -/
def withoutLastBreak (text : List Char) : List Char :=
  if text.length != 1 && text.getLast? == some '\n' then text.dropLast else text

end Form

/-- The tag of a scalar that has none of its own, by its form. -/
def Tag.ofPlain (text : List Char) : Tag :=
  let text := Form.withoutLastBreak text
  if Form.isBool text then .bool
  else if Form.isFloat text then .float
  else if Form.isInt text then .int
  else if Form.isOneOf ["<<"] text then .merge
  else if Form.isNull text then .null
  else if Form.isTimestamp text then .timestamp
  else if Form.isOneOf ["="] text then .value
  else if Form.isReserved text then .unknown
  else .str

end LayeredConfig.Yaml
