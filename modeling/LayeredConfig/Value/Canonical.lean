import LayeredConfig.Value.Plain

/-!
The canonical text of plain values: JSON without blanks, with the entries of every dictionary in the
order of their keys. A dictionary whose keys have no common order has no such text.
-/

namespace LayeredConfig.Value

/-- The escape of a character inside a canonical text. -/
def canonicalChar (c : Char) : List Char :=
  if c == '"' || c == '\\' then ['\\', c]
  else if c == '\n' then ['\\', 'n']
  else if c == '\r' then ['\\', 'r']
  else if c == '\t' then ['\\', 't']
  else if c == '\x08' then ['\\', 'b']
  else if c == '\x0c' then ['\\', 'f']
  else if c.toNat < 0x20 then '\\' :: 'u' :: Text.hexPadded 4 c.toNat
  else [c]

/-- A letter inside a canonical text. A half alone has no encoding; here its escape stands for it. -/
def canonicalLetter : Letter → List Char
  | .char c => canonicalChar c
  | .half number => '\\' :: 'u' :: Text.hexPadded 4 (Letter.half number).code

def canonicalText (text : Str) : List Char :=
  '"' :: (text.letters.flatMap canonicalLetter ++ ['"'])

def canonicalFloat : Binary64 → List Char
  | .notANumber _ => "NaN".toList
  | .infinite negative => if negative then "-Infinity".toList else "Infinity".toList
  | x => x.text.toList

/-- A whole number in decimal, within the limit on its length. -/
def canonicalInt (n : Int) : Except Fault (List Char) :=
  if Text.withinDecimalLimit n then .ok (toString n).toList else .error .content

/-- Scalars without a form of their own are written as texts. -/
def canonicalScalar : Scalar → Except Fault (List Char)
  | .null => .ok "null".toList
  | .bool value => .ok (if value then "true".toList else "false".toList)
  | .int value => canonicalInt value
  | .float value => .ok (canonicalFloat value)
  | .str value => .ok (canonicalText value)
  | other => .ok (canonicalText other.text)

/-- The text of a key, which null, booleans, numbers and texts have. -/
def canonicalKey : Value → Except Fault Str
  | .scalar .null => .ok "null"
  | .scalar (.bool value) => .ok (if value then "true" else "false")
  | .scalar (.int value) => do return String.ofList (← canonicalInt value)
  | .scalar (.float value) => .ok (String.ofList (canonicalFloat value))
  | .scalar (.str value) => .ok value
  | _ => .error .kind

def isTextKey : Value → Bool
  | .scalar (.str _) => true
  | _ => false

def isNumberKey : Value → Bool
  | .scalar (.bool _) => true
  | .scalar (.int _) => true
  | .scalar (.float _) => true
  | _ => false

/-- The order of numbers, by value; a result that is not a number comes before and after none. -/
def numberPrecedes : Scalar.Key → Scalar.Key → Bool
  | .number a i, .number b j => a * Int.pow 2 j < b * Int.pow 2 i
  | .infinite true, .infinite false => true
  | .infinite true, .number _ _ => true
  | .number _ _, .infinite false => true
  | _, _ => false

/-- The order of keys: texts by code points, numbers by value. -/
def keyPrecedes : Value → Value → Bool
  | .scalar (.str a), .scalar (.str b) => precedes a.codes b.codes
  | .scalar a, .scalar b => numberPrecedes a.key b.key
  | _, _ => false

/-- Whether keys have a common order; a single key always has. -/
def haveOrder (keys : List Value) : Bool :=
  keys.length ≤ 1 || keys.all isTextKey || keys.all isNumberKey

/-- An entry with the text of its key in quotation marks. -/
def canonicalEntry (entry : Value × Except Fault (List Char)) : Except Fault (List Char) := do
  let key ← canonicalKey entry.1
  let value ← entry.2
  return canonicalText key ++ ':' :: value

/-- Parts between brackets, with commas between them. -/
def canonicalGroup (first last : Char) (parts : List (List Char)) : List Char :=
  first :: ([','].intercalate parts ++ [last])

mutual

/-- The canonical text of a value in plain form. -/
def canonical : Value → Except Fault (List Char)
  | .scalar value => canonicalScalar value
  | .seq _ items => do
    let parts ← canonicalAll items
    return canonicalGroup '[' ']' parts
  | .dict _ entries => do
    let texts := canonicalEntries entries
    if !haveOrder (texts.map (·.1)) then throw .kind
    let parts ← (sortBy (fun a b => keyPrecedes a.1 b.1) texts).mapM canonicalEntry
    return canonicalGroup '\x7b' '\x7d' parts
  | other => .ok (canonicalText (String.ofList other.display))

def canonicalAll : List Value → Except Fault (List (List Char))
  | [] => .ok []
  | value :: values => do
    let part ← value.canonical
    let parts ← canonicalAll values
    return part :: parts

def canonicalEntries : List (Value × Value) → List (Value × Except Fault (List Char))
  | [] => []
  | (key, value) :: entries => (key, value.canonical) :: canonicalEntries entries

end

end LayeredConfig.Value
