/-!
Reading Base64. Characters outside the alphabet are skipped, reading ends at the padding of a group,
and a group that is neither complete nor padded is a fault.
-/

namespace LayeredConfig.Text

/-- The six bits of a character of the alphabet. -/
def sextet? (c : Char) : Option Nat :=
  if 'A' ≤ c && c ≤ 'Z' then some (c.toNat - 'A'.toNat)
  else if 'a' ≤ c && c ≤ 'z' then some (c.toNat - 'a'.toNat + 26)
  else if '0' ≤ c && c ≤ '9' then some (c.toNat - '0'.toNat + 52)
  else if c == '+' then some 62
  else if c == '/' then some 63
  else none

/-- Reads on with `place` characters of the current group read, `carry` the bits not yet given out
and `pads` the padding seen since the last character of the alphabet. -/
def readGroup (place carry pads : Nat) : List Char → Option (List UInt8)
  | [] => if place == 0 then some [] else none
  | c :: rest =>
    if c == '=' then
      if 2 ≤ place && 4 ≤ place + pads + 1 then some []
      else readGroup place carry (if 2 ≤ place then pads + 1 else pads) rest
    else match sextet? c with
      | none => readGroup place carry pads rest
      | some bits =>
        match place with
        | 0 => readGroup 1 bits 0 rest
        | 1 => (readGroup 2 (bits % 16) 0 rest).map (UInt8.ofNat (carry * 4 + bits / 16) :: ·)
        | 2 => (readGroup 3 (bits % 4) 0 rest).map (UInt8.ofNat (carry * 16 + bits / 4) :: ·)
        | _ => (readGroup 0 0 0 rest).map (UInt8.ofNat (carry * 64 + bits) :: ·)

/-- The bytes that a text in Base64 stands for. -/
def decodeBase64? (text : List Char) : Option (List UInt8) :=
  readGroup 0 0 0 text

end LayeredConfig.Text
