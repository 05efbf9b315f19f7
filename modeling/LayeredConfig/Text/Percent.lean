import LayeredConfig.Text.Encoding
import LayeredConfig.Text.Quoted

/-!
Percent encoding of paths. Letters, digits, `_ . - ~` and the slash stand for themselves; every other
byte of the UTF-8 form is written as `%` and two digits. A faulty escape stands for itself.
-/

namespace LayeredConfig.Text

/-- The bytes that an encoded path shows as themselves. -/
def isUnreserved (byte : UInt8) : Bool :=
  let c := Char.ofNat byte.toNat
  byte < 0x80 && (c.isAlphanum || c == '_' || c == '.' || c == '-' || c == '~' || c == '/')

/-- The encoded form of a byte; the digits are in upper case. -/
def percentByte (byte : UInt8) : List Char :=
  if isUnreserved byte then [Char.ofNat byte.toNat]
  else '%' :: (hexPadded 2 byte.toNat).map Char.toUpper

/-- The encoded form of a path. -/
def percentEncode (path : String) : String :=
  String.ofList ((encodeUtf8 path.toList).flatMap percentByte)

/-- The value of a hexadecimal digit in either case. -/
def hexValue? (c : Char) : Option Nat :=
  if '0' ≤ c && c ≤ '9' then some (c.toNat - '0'.toNat)
  else if 'a' ≤ c && c ≤ 'f' then some (c.toNat - 'a'.toNat + 10)
  else if 'A' ≤ c && c ≤ 'F' then some (c.toNat - 'A'.toNat + 10)
  else none

/-- The bytes of a text in which well-formed escapes stand for their bytes. -/
def percentDecodeBytes : List Char → List UInt8
  | [] => []
  | '%' :: a :: b :: rest =>
    match hexValue? a, hexValue? b with
    | some high, some low => UInt8.ofNat (high * 16 + low) :: percentDecodeBytes rest
    | _, _ => 0x25 :: percentDecodeBytes (a :: b :: rest)
  | c :: rest => String.utf8EncodeChar c ++ percentDecodeBytes rest
termination_by text => text.length

/-- Decodes stretch by stretch: escapes never join with a character outside ASCII. -/
def decodeStretches (stretch : List Char) : List Char → List Char
  | [] => decodeUtf8Leniently (percentDecodeBytes stretch.reverse)
  | c :: rest =>
    if c.toNat < 0x80 then decodeStretches (c :: stretch) rest
    else decodeUtf8Leniently (percentDecodeBytes stretch.reverse) ++ c :: decodeStretches [] rest

/-- The path that an encoded form stands for. -/
def percentDecode (text : String) : String :=
  String.ofList (decodeStretches [] text.toList)

end LayeredConfig.Text
