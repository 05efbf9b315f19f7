import LayeredConfig.Binary64.Shortest
import LayeredConfig.Calendar
import LayeredConfig.Text.Numeral
import LayeredConfig.Text.Quoted

/-!
Values without parts: null, booleans, numbers, texts, bytes, dates and moments. Two scalars take the
same place in a set or dictionary when they have the same key, which is numeric across types.
-/

namespace LayeredConfig

inductive Scalar
  | null
  | bool (value : Bool)
  | int (value : Int)
  | float (value : Binary64)
  | str (value : Str)
  | bytes (value : List UInt8)
  | date (value : Date)
  | moment (value : Moment)
  deriving DecidableEq, Repr, Inhabited

namespace Scalar

/-- What a scalar is told from others by. A number is a fraction in lowest terms, whatever its type;
moments with a known distance from universal time are instants. -/
inductive Key
  | null
  | number (numerator : Int) (power : Nat)
  | infinite (negative : Bool)
  | notANumber (origin : Nat)
  | str (value : Str)
  | bytes (value : List UInt8)
  | date (value : Date)
  | civil (instant : Int)
  | absolute (instant : Int)
  deriving DecidableEq, Repr

def key : Scalar → Key
  | .null => .null
  | .bool value => .number (if value then 1 else 0) 0
  | .int value => .number value 0
  | .float (.finite negative significand exponent _) =>
    let (numerator, power) := Binary64.dyadic negative significand exponent
    .number numerator power
  | .float (.infinite negative) => .infinite negative
  | .float (.notANumber origin) => .notANumber origin
  | .str value => .str value
  | .bytes value => .bytes value
  | .date value => .date value
  | .moment value =>
    if value.offset.isSome then .absolute value.instant else .civil value.instant

def isNull : Scalar → Bool
  | .null => true
  | _ => false

def isNotANumber : Scalar → Bool
  | .float value => value.isNotANumber
  | _ => false

/-- Whether a scalar can be written: whole numbers have a limit on their length. -/
def writable : Scalar → Bool
  | .int value => Text.withinDecimalLimit value
  | _ => true

/-- Whether a scalar is a text that no encoding has. -/
def isTorn : Scalar → Bool
  | .str value => value.isTorn
  | _ => false

/-- The name of the type of a scalar. -/
def typeName : Scalar → String
  | .null => "NoneType"
  | .bool _ => "bool"
  | .int _ => "int"
  | .float _ => "float"
  | .str _ => "str"
  | .bytes _ => "bytes"
  | .date _ => "date"
  | .moment _ => "datetime"

/-- The parts of a call, with commas between them. -/
def callText (name : String) (parts : List String) : List Char :=
  name.toList ++ '(' :: ((", ".intercalate parts).toList ++ [')'])

/-- A distance from universal time as it is displayed; a negative one counts from the day before. -/
def displayOffset (distance : Int) : String :=
  if distance == 0 then "datetime.timezone.utc"
  else
    let duration :=
      if distance < 0 then s!"datetime.timedelta(days=-1, seconds={86400 + distance})"
      else s!"datetime.timedelta(seconds={distance})"
    s!"datetime.timezone({duration})"

/-- The parts of a displayed moment; seconds and microseconds appear when they are needed. -/
def momentParts (m : Moment) : List String :=
  let seconds :=
    if m.microsecond != 0 then [toString m.second, toString m.microsecond]
    else if m.second != 0 then [toString m.second] else []
  let zone := m.offset.map fun distance => "tzinfo=" ++ displayOffset distance
  [toString m.date.year, toString m.date.month, toString m.date.day, toString m.hour,
    toString m.minute] ++ seconds ++ zone.toList

/-- The displayed form of a scalar, as it appears in messages. -/
def display : Scalar → List Char
  | .null => "None".toList
  | .bool value => if value then "True".toList else "False".toList
  | .int value => (toString value).toList
  | .float value => value.text.toList
  | .str value => Text.quote value
  | .bytes value => Text.quoteBytes value
  | .date value => callText "datetime.date" [toString value.year, toString value.month,
      toString value.day]
  | .moment value => callText "datetime.datetime" (momentParts value)

/-- The plain text of a scalar: a text stands for itself, dates are written in parts. -/
def text : Scalar → Str
  | .str value => value
  | .date value => String.ofList value.iso
  | .moment value => String.ofList (value.iso ' ')
  | other => String.ofList other.display

end Scalar

end LayeredConfig
