/-!
Characters and bytes. Reading a sequence of bytes as UTF-8 stops at the first fault; the lenient
reading puts a replacement character for each faulty stretch. Characters are those that UTF-8 has, so the
names of files and the values of variables are taken to be texts of such characters.
-/

namespace LayeredConfig.Text

/-- What a sequence of bytes starts with: a character with its length, or a faulty stretch. -/
inductive Utf8Front
  | char (c : Char) (length : Nat)
  | fault (length : Nat)
  deriving DecidableEq, Repr

/-- The bounds of the second byte after a first byte; they exclude overlong forms, surrogates and
code points past the last. -/
def secondBounds (first : Nat) : Nat × Nat :=
  if first == 0xe0 then (0xa0, 0xbf)
  else if first == 0xed then (0x80, 0x9f)
  else if first == 0xf0 then (0x90, 0xbf)
  else if first == 0xf4 then (0x80, 0x8f)
  else (0x80, 0xbf)

/-- How many bytes follow a first byte; `none` where no character starts with it. -/
def followers? (first : Nat) : Option Nat :=
  if first < 0x80 then some 0
  else if 0xc2 ≤ first && first ≤ 0xdf then some 1
  else if 0xe0 ≤ first && first ≤ 0xef then some 2
  else if 0xf0 ≤ first && first ≤ 0xf4 then some 3
  else none

/-- Reads following bytes; the result is the code point, or the number of bytes that were fine. -/
def readFollowers (code : Nat) (seen : Nat) (bounds : Nat × Nat) :
    Nat → List UInt8 → Nat ⊕ Nat
  | 0, _ => .inr code
  | _ + 1, [] => .inl seen
  | count + 1, byte :: rest =>
    if bounds.1 ≤ byte.toNat && byte.toNat ≤ bounds.2 then
      readFollowers (code * 64 + byte.toNat % 64) (seen + 1) (0x80, 0xbf) count rest
    else .inl seen

/-- The front of a nonempty sequence of bytes. -/
def utf8Front (first : UInt8) (rest : List UInt8) : Utf8Front :=
  match followers? first.toNat with
  | none => .fault 1
  | some 0 => .char (Char.ofNat first.toNat) 1
  | some count =>
    let lead := first.toNat % Nat.pow 2 (6 - count)
    match readFollowers lead 1 (secondBounds first.toNat) count rest with
    | .inr code => .char (Char.ofNat code) (count + 1)
    | .inl seen => .fault seen

/-- The characters of a sequence of bytes, if it is faultless. -/
def decodeUtf8? : List UInt8 → Option (List Char)
  | [] => some []
  | first :: rest =>
    match utf8Front first rest with
    | .char c length => (decodeUtf8? (rest.drop (length - 1))).map (c :: ·)
    | .fault _ => none
termination_by bytes => bytes.length

/-- The characters of a sequence of bytes, with a replacement for each faulty stretch. -/
def decodeUtf8Leniently : List UInt8 → List Char
  | [] => []
  | first :: rest =>
    match utf8Front first rest with
    | .char c length => c :: decodeUtf8Leniently (rest.drop (length - 1))
    | .fault length => '\ufffd' :: decodeUtf8Leniently (rest.drop (length - 1))
termination_by bytes => bytes.length

/-- The bytes of a text. -/
def encodeUtf8 (text : List Char) : List UInt8 :=
  text.flatMap String.utf8EncodeChar

/-- Pairs of bytes as 16-bit units; a byte left over is a fault. -/
def units? (bigEndian : Bool) : List UInt8 → Option (List Nat)
  | [] => some []
  | [_] => none
  | a :: b :: rest =>
    let unit := if bigEndian then a.toNat * 256 + b.toNat else b.toNat * 256 + a.toNat
    (units? bigEndian rest).map (unit :: ·)

/-- Units as characters; a half of a pair on its own is a fault. -/
def ofUnits? : List Nat → Option (List Char)
  | [] => some []
  | unit :: rest =>
    if unit < 0xd800 || 0xe000 ≤ unit then (ofUnits? rest).map (Char.ofNat unit :: ·)
    else match rest with
      | low :: rest =>
        if unit < 0xdc00 && 0xdc00 ≤ low && low < 0xe000 then
          (ofUnits? rest).map (Char.ofNat (0x10000 + (unit - 0xd800) * 0x400 + (low - 0xdc00)) :: ·)
        else none
      | [] => none

/-- The characters of a sequence of bytes in UTF-16, if it is faultless. -/
def decodeUtf16? (bigEndian : Bool) (bytes : List UInt8) : Option (List Char) :=
  (units? bigEndian bytes).bind ofUnits?

end LayeredConfig.Text
