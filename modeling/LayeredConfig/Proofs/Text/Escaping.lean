import Mathlib.Tactic.SplitIfs
import LayeredConfig.Text.Numeral
import LayeredConfig.Text.Percent

namespace LayeredConfig.Text

theorem readFollowers_cons {code seen count point : Nat} {bounds : Nat × Nat} {rest : List UInt8}
    (low : bounds.1 ≤ point % 64 + 128) (high : point % 64 + 128 ≤ bounds.2) :
    readFollowers code seen bounds (count + 1) (UInt8.ofNat (point % 64 + 128) :: rest) =
      readFollowers (code * 64 + point % 64) (seen + 1) (0x80, 0xbf) count rest := by
  have byte : (UInt8.ofNat (point % 64 + 128)).toNat = point % 64 + 128 :=
    Nat.mod_eq_of_lt (by omega)
  have bits : (point % 64 + 128) % 64 = point % 64 := by omega
  simp only [readFollowers, byte, bits, low, high, decide_true, Bool.and_self, if_true]

/-- The second byte after a first byte is in its bounds, since code points are no surrogates. -/
theorem secondBounds_three {point : Nat} (wide : 0x800 ≤ point) (narrow : point ≤ 0xffff)
    (valid : point < 0xd800 ∨ 0xdfff < point) :
    (secondBounds (point / 4096 % 16 + 224)).1 ≤ point / 64 % 64 + 128 ∧
      point / 64 % 64 + 128 ≤ (secondBounds (point / 4096 % 16 + 224)).2 := by
  simp only [secondBounds, beq_iff_eq]
  split_ifs <;> dsimp only <;> omega

theorem secondBounds_four {point : Nat} (wide : 0x10000 ≤ point) (valid : point < 0x110000) :
    (secondBounds (point / 262144 % 8 + 240)).1 ≤ point / 4096 % 64 + 128 ∧
      point / 4096 % 64 + 128 ≤ (secondBounds (point / 262144 % 8 + 240)).2 := by
  simp only [secondBounds, beq_iff_eq]
  split_ifs <;> dsimp only <;> omega

/-- The front is a character if the bytes that have to follow do. -/
theorem utf8Front_of_followers {lead count code : Nat} {rest : List UInt8} (short : lead < 256)
    (leads : followers? lead = some (count + 1))
    (reads : readFollowers (lead % Nat.pow 2 (6 - (count + 1))) 1 (secondBounds lead) (count + 1) rest =
      .inr code) :
    utf8Front (UInt8.ofNat lead) rest = .char (Char.ofNat code) (count + 2) := by
  have byte : (UInt8.ofNat lead).toNat = lead := Nat.mod_eq_of_lt short
  simp only [utf8Front, byte, leads, reads]

/-- What starts with the bytes of a character has it in front. -/
theorem utf8Front_encodeChar (c : Char) (rest : List UInt8) :
    ∃ first tail, String.utf8EncodeChar c = first :: tail ∧
      utf8Front first (tail ++ rest) = .char c (tail.length + 1) := by
  have back : Char.ofNat c.val.toNat = c := Char.ofNat_toNat c
  have valid : c.val.toNat < 0xd800 ∨ 0xdfff < c.val.toNat ∧ c.val.toNat < 0x110000 := c.valid
  rw [String.utf8EncodeChar]
  generalize c.val.toNat = point at back valid
  -- one case for each number of bytes
  split_ifs with one two three
  · refine ⟨_, [], rfl, ?_⟩
    have byte : (UInt8.ofNat point).toNat = point := Nat.mod_eq_of_lt (by omega)
    have alone : followers? point = some 0 := if_pos (by omega)
    simp only [utf8Front, byte, alone, back, List.length_nil]
  · have leads : followers? (point / 64 % 32 + 192) = some 1 := by
      simp only [followers?, Bool.and_eq_true, decide_eq_true_eq]
      rw [if_neg (by omega), if_pos (by omega)]
    have bounds : secondBounds (point / 64 % 32 + 192) = (0x80, 0xbf) := by
      simp only [secondBounds, beq_iff_eq]
      split_ifs <;> first | omega | rfl
    have code : (point / 64 % 32 + 192) % 32 * 64 + point % 64 = point := by omega
    refine ⟨_, _, rfl, (utf8Front_of_followers (by omega) leads ?_).trans (by rw [back]; rfl)⟩
    rw [bounds, List.cons_append, readFollowers_cons (by dsimp only; omega) (by dsimp only; omega)]
    exact congrArg Sum.inr code
  · have leads : followers? (point / 4096 % 16 + 224) = some 2 := by
      simp only [followers?, Bool.and_eq_true, decide_eq_true_eq]
      rw [if_neg (by omega), if_neg (by omega), if_pos (by omega)]
    have bounds := secondBounds_three (show 0x800 ≤ point by omega) (by omega) (by omega)
    have code : ((point / 4096 % 16 + 224) % 16 * 64 + point / 64 % 64) * 64 + point % 64 = point := by
      omega
    refine ⟨_, _, rfl, (utf8Front_of_followers (by omega) leads ?_).trans (by rw [back]; rfl)⟩
    rw [List.cons_append, List.cons_append, readFollowers_cons bounds.1 bounds.2,
      readFollowers_cons (by dsimp only; omega) (by dsimp only; omega)]
    exact congrArg Sum.inr code
  · have leads : followers? (point / 262144 % 8 + 240) = some 3 := by
      simp only [followers?, Bool.and_eq_true, decide_eq_true_eq]
      rw [if_neg (by omega), if_neg (by omega), if_neg (by omega), if_pos (by omega)]
    have bounds := secondBounds_four (show 0x10000 ≤ point by omega) (by omega)
    have code : (((point / 262144 % 8 + 240) % 8 * 64 + point / 4096 % 64) * 64 + point / 64 % 64) * 64 +
        point % 64 = point := by omega
    refine ⟨_, _, rfl, (utf8Front_of_followers (by omega) leads ?_).trans (by rw [back]; rfl)⟩
    rw [List.cons_append, List.cons_append, List.cons_append, readFollowers_cons bounds.1 bounds.2,
      readFollowers_cons (by dsimp only; omega) (by dsimp only; omega),
      readFollowers_cons (by dsimp only; omega) (by dsimp only; omega)]
    exact congrArg Sum.inr code

theorem decodeUtf8Leniently_encodeUtf8 (text : List Char) :
    decodeUtf8Leniently (encodeUtf8 text) = text := by
  induction text with
  | nil => rw [encodeUtf8, List.flatMap_nil, decodeUtf8Leniently]
  | cons c text ih =>
    obtain ⟨first, tail, bytes, front⟩ := utf8Front_encodeChar c (encodeUtf8 text)
    have whole : encodeUtf8 (c :: text) = first :: (tail ++ encodeUtf8 text) := by
      rw [encodeUtf8, List.flatMap_cons, bytes]
      rfl
    rw [whole, decodeUtf8Leniently]
    simp only [front, Nat.add_sub_cancel, List.drop_left, ih]

/-- Whether a character can stand in an encoded path: it is in ASCII, no blank and no number sign. -/
def isPathChar (c : Char) : Bool :=
  decide (c.toNat < 0x80) && !isBlank c && c != '#'

theorem percentByte_isPathChar (byte : UInt8) : ∀ c ∈ percentByte byte, isPathChar c = true := by
  have all : ∀ code < 256, (percentByte (UInt8.ofNat code)).all isPathChar = true := by decide +kernel
  have chars := all byte.toNat byte.toNat_lt
  rw [UInt8.ofNat_toNat] at chars
  exact List.all_eq_true.mp chars

theorem percentEncode_isPathChar {path : String} {c : Char} (member : c ∈ (percentEncode path).toList) :
    isPathChar c = true := by
  rw [percentEncode, String.toList_ofList] at member
  obtain ⟨byte, -, member⟩ := List.mem_flatMap.mp member
  exact percentByte_isPathChar byte c member

/-- A byte that shows as itself is the only one of its character, which does not start an escape. -/
theorem encodeChar_of_isUnreserved {byte : UInt8} (plain : isUnreserved byte = true) :
    Char.ofNat byte.toNat ≠ '%' ∧ String.utf8EncodeChar (Char.ofNat byte.toNat) = [byte] := by
  have all : ∀ code < 256, isUnreserved (UInt8.ofNat code) = true → Char.ofNat code ≠ '%' ∧
      String.utf8EncodeChar (Char.ofNat code) = [UInt8.ofNat code] := by decide +kernel
  have here := all byte.toNat byte.toNat_lt
  rw [UInt8.ofNat_toNat] at here
  exact here plain

theorem percentDecodeBytes_percentByte (byte : UInt8) (rest : List Char) :
    percentDecodeBytes (percentByte byte ++ rest) = byte :: percentDecodeBytes rest := by
  have digit : ∀ value < 16, hexValue? (hexDigit value).toUpper = some value := by decide
  have small : byte.toNat < 256 := byte.toNat_lt
  unfold percentByte
  split_ifs with plain
  · obtain ⟨unmarked, alone⟩ := encodeChar_of_isUnreserved plain
    rw [List.cons_append, List.nil_append, percentDecodeBytes, alone]
    · rfl
    · rintro a b rest' same -
      exact unmarked same
  · have high := digit (byte.toNat / 16 % 16) (by omega)
    have low := digit (byte.toNat % 16) (by omega)
    have value : byte.toNat / 16 % 16 * 16 + byte.toNat % 16 = byte.toNat := by omega
    simp only [hexPadded, List.nil_append, List.map_cons, List.cons_append, List.map_nil]
    rw [percentDecodeBytes]
    simp only [high, low, value, UInt8.ofNat_toNat]

theorem percentDecodeBytes_flatMap (bytes : List UInt8) :
    percentDecodeBytes (bytes.flatMap percentByte) = bytes := by
  induction bytes with
  | nil => rw [List.flatMap_nil, percentDecodeBytes]
  | cons byte bytes ih => rw [List.flatMap_cons, percentDecodeBytes_percentByte, ih]

theorem decodeStretches_of_ascii {text : List Char} (ascii : ∀ c ∈ text, c.toNat < 0x80)
    (stretch : List Char) : decodeStretches stretch text =
      decodeUtf8Leniently (percentDecodeBytes (stretch.reverse ++ text)) := by
  induction text generalizing stretch with
  | nil => rw [decodeStretches, List.append_nil]
  | cons c text ih =>
    rw [decodeStretches, if_pos (ascii c List.mem_cons_self),
      ih (fun c later => ascii c (List.mem_cons_of_mem _ later)), List.reverse_cons, List.append_assoc]
    rfl

/-- A path comes back from its encoded form. -/
theorem percentDecode_percentEncode (path : String) : percentDecode (percentEncode path) = path := by
  have ascii : ∀ c ∈ (percentEncode path).toList, c.toNat < 0x80 := by
    intro c member
    have chars := percentEncode_isPathChar member
    simp only [isPathChar, Bool.and_eq_true, decide_eq_true_eq] at chars
    exact chars.1.1
  rw [percentDecode, decodeStretches_of_ascii ascii, percentEncode, String.toList_ofList]
  rw [List.reverse_nil, List.nil_append, percentDecodeBytes_flatMap, decodeUtf8Leniently_encodeUtf8,
    String.ofList_toList]

end LayeredConfig.Text
