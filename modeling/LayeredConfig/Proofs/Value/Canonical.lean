import LayeredConfig.Proofs.Text.Figures
import LayeredConfig.Proofs.Value.Shuffling

namespace LayeredConfig.Value

open Text

/-- The code point whose canonical form comes first. -/
def canonicalFirst? : List Char → Option Nat
  | '\\' :: c :: rest =>
    if c == 'n' then some '\n'.toNat
    else if c == 'r' then some '\r'.toNat
    else if c == 't' then some '\t'.toNat
    else if c == 'b' then some '\x08'.toNat
    else if c == 'f' then some '\x0c'.toNat
    else if c == 'u' then some (hexNumber (rest.take 4))
    else some c.toNat
  | c :: _ => some c.toNat
  | [] => none

theorem canonicalFirst?_hexPadded {code : Nat} (short : code < 16 ^ 4) (rest : List Char) :
    canonicalFirst? ('\\' :: 'u' :: hexPadded 4 code ++ rest) = some code := by
  simp [canonicalFirst?, take_hexPadded, hexNumber_of_lt short]

theorem canonicalFirst?_canonicalChar (c : Char) (rest : List Char) :
    canonicalFirst? (canonicalChar c ++ rest) = some c.toNat := by
  unfold canonicalChar
  split
  · next marked =>
    rcases Bool.or_eq_true_iff.mp marked with same | same
    · rw [eq_of_beq same]; rfl
    · rw [eq_of_beq same]; rfl
  · next plain =>
    split
    · next same => rw [eq_of_beq same]; rfl
    split
    · next same => rw [eq_of_beq same]; rfl
    split
    · next same => rw [eq_of_beq same]; rfl
    split
    · next same => rw [eq_of_beq same]; rfl
    split
    · next same => rw [eq_of_beq same]; rfl
    split
    · exact canonicalFirst?_hexPadded (by omega) rest
    · have other : c ≠ '\\' := by
        rintro rfl
        simp at plain
      simp [canonicalFirst?, other]

theorem canonicalFirst?_canonicalLetter (letter : Letter) (rest : List Char) :
    canonicalFirst? (canonicalLetter letter ++ rest) = some letter.code := by
  cases letter with
  | char c => exact canonicalFirst?_canonicalChar c rest
  | half number => exact canonicalFirst?_hexPadded (by simp only [Letter.code]; omega) rest

theorem prefixFree_canonicalLetter : PrefixFree canonicalLetter := by
  intro a b rest rest' equal
  have read := congrArg canonicalFirst? equal
  rw [canonicalFirst?_canonicalLetter, canonicalFirst?_canonicalLetter] at read
  exact Letter.code_injective (Option.some.inj read)

/-- No letter begins with a quotation mark that has nothing before it. -/
theorem canonicalLetter_ne_mark (letter : Letter) (rest rest' : List Char) :
    canonicalLetter letter ++ rest ≠ '"' :: rest' := by
  intro equal
  have read := congrArg canonicalFirst? equal
  rw [canonicalFirst?_canonicalLetter] at read
  obtain rfl : letter = .char '"' := Letter.code_injective (Option.some.inj read)
  cases equal

theorem canonicalText_front {text text' : Str} {rest rest' : List Char}
    (same : canonicalText text ++ rest = canonicalText text' ++ rest') : text = text' ∧ rest = rest' := by
  simp only [canonicalText, List.cons_append, List.append_assoc, List.nil_append] at same
  exact (prefixFree_canonicalLetter.flatMap_stop canonicalLetter_ne_mark (List.cons.inj same).2).imp_left
    Str.letters_inj.mp

theorem opens_canonicalText (text : Str) : Opens (canonicalText text) :=
  ⟨'"', _, rfl, by decide⟩

theorem canonicalText_injective {text text' : Str} (same : canonicalText text = canonicalText text') :
    text = text' :=
  (canonicalText_front (congrArg (· ++ []) same)).1

theorem parts_of_canonical_dict {kind : DictKind} {entries : List (Value × Value)} {text : List Char}
    (written : canonical (.dict kind entries) = .ok text) :
    ∃ parts : List (List Char),
      (sortBy (fun a b => keyPrecedes a.1 b.1) (canonicalEntries entries)).map canonicalEntry =
        parts.map .ok ∧ canonicalGroup '\x7b' '\x7d' parts = text := by
  simp only [canonical] at written
  split at written
  · cases written
  · obtain ⟨parts, each, group⟩ := bind_eq_ok_iff.mp written
    exact ⟨parts, mapM_eq_ok_iff.mp each, Except.ok.inj group⟩

theorem opens_canonical {value : Value} {text : List Char} (written : value.canonical = .ok text) :
    Opens text := by
  have bracket (part : List Char) {c : Char} (other : c ∉ stops) : Opens (c :: part) := ⟨c, part, rfl, other⟩
  cases value with
  | scalar value =>
    cases value with
    | null => exact Except.ok.inj written ▸ bracket _ (by decide)
    | bool value => cases value <;> exact Except.ok.inj written ▸ bracket _ (by decide)
    | int value =>
      simp only [canonical, canonicalScalar, canonicalInt] at written
      split at written
      · exact Except.ok.inj written ▸ (plain_int value).opens (toString_int_ne_nil value)
      · cases written
    | float value =>
      obtain rfl := Except.ok.inj written
      cases value with
      | finite negative significand exponent kept =>
        have numeral := Binary64.numeral_text (.finite negative significand exponent kept)
        exact numeral.plain.opens numeral.ne_nil
      | infinite negative => cases negative <;> exact bracket _ (by decide)
      | notANumber origin => exact bracket _ (by decide)
    | _ => exact Except.ok.inj written ▸ opens_canonicalText _
  | seq kind items =>
    obtain ⟨parts, -, group⟩ := bind_eq_ok_iff.mp written
    exact Except.ok.inj group ▸ bracket _ (by decide)
  | dict kind entries =>
    obtain ⟨parts, -, rfl⟩ := parts_of_canonical_dict written
    exact bracket _ (by decide)
  | _ => exact Except.ok.inj written ▸ opens_canonicalText _

/-- Two plain values whose canonical texts can be told from each other. -/
def Separate (value other : Value) : Prop :=
  ∀ text text', value.canonical = .ok text → other.canonical = .ok text' → Told text text'

/-- Two plain values with one canonical text. -/
def SameText (value other : Value) : Prop :=
  ∃ text, value.canonical = .ok text ∧ other.canonical = .ok text

section groups

variable {parts others : List (List Char)} {first last : Char}

theorem canonicalGroup_front (stop : last ∈ stops) (apart : last ≠ ',')
    (told : ∀ part ∈ parts, ∀ other ∈ others, Told part other)
    (opens : ∀ part ∈ parts, Opens part) (opens' : ∀ other ∈ others, Opens other) {rest rest' : List Char}
    (same : canonicalGroup first last parts ++ rest = canonicalGroup first last others ++ rest') :
    parts = others := by
  simp only [canonicalGroup, List.cons_append, List.append_assoc, List.nil_append] at same
  exact (group_injective stop apart told opens opens' (List.cons.inj same).2).1

end groups

section sequences

variable {kind kind' : SeqKind} {items others : List Value}

theorem canonical_seq_eq_ok_iff {text : List Char} :
    canonical (.seq kind items) = .ok text ↔
      ∃ parts : List (List Char), items.map canonical = parts.map .ok ∧ canonicalGroup '[' ']' parts = text := by
  simp only [canonical, bind_eq_ok_iff, canonicalAll_eq, mapM_eq_ok_iff, pure, Except.pure,
    Except.ok.injEq]

theorem seq_front (separate : ∀ item ∈ items, ∀ other ∈ others, Separate item other)
    {text text' rest rest' : List Char} (written : canonical (.seq kind items) = .ok text)
    (written' : canonical (.seq kind' others) = .ok text') (same : text ++ rest = text' ++ rest') :
    text = text' ∧ items.map canonical = others.map canonical := by
  obtain ⟨parts, each, rfl⟩ := canonical_seq_eq_ok_iff.mp written
  obtain ⟨parts', each', rfl⟩ := canonical_seq_eq_ok_iff.mp written'
  have found : parts = parts' := by
    refine canonicalGroup_front (by decide) (by decide) (fun part member other member' => ?_)
      (fun part member => ?_) (fun part member => ?_) same
    · obtain ⟨item, listed, here⟩ := exists_of_map_eq_ok each member
      obtain ⟨item', listed', there⟩ := exists_of_map_eq_ok each' member'
      exact separate item listed item' listed' part other here there
    · obtain ⟨item, -, here⟩ := exists_of_map_eq_ok each member
      exact opens_canonical here
    · obtain ⟨item, -, here⟩ := exists_of_map_eq_ok each' member
      exact opens_canonical here
  exact ⟨congrArg _ found, by rw [each, each', found]⟩

end sequences

section dictionaries

variable {kind kind' : DictKind} {entries others : List (Value × Value)}

theorem canonicalEntry_eq_ok_iff {entry : Value × Except Fault (List Char)} {part : List Char}
    (textual : entry.1.isTextKey = true) :
    canonicalEntry entry = .ok part ↔
      ∃ text, entry.2 = .ok text ∧ canonicalText entry.1.keyText ++ ':' :: text = part := by
  obtain ⟨key, title⟩ := exists_text_of_isTextKey textual
  simp only [canonicalEntry, title, canonicalKey, keyText, bind_eq_ok_iff, Except.ok.injEq, exists_eq_left',
    pure, Except.pure]

theorem keyText_injective {key key' : Value} (textual : key.isTextKey = true)
    (textual' : key'.isTextKey = true) (same : key.keyText = key'.keyText) : key = key' := by
  obtain ⟨text, rfl⟩ := exists_text_of_isTextKey textual
  obtain ⟨text', rfl⟩ := exists_text_of_isTextKey textual'
  exact congrArg Value.str same

/-- The text of an entry is found again; of what stands behind the key only that matters which stands behind
the same key. -/
theorem told_entry {entry other : Value × Value} (textual : entry.1.isTextKey = true)
    (textual' : other.1.isTextKey = true) (separate : entry.1 = other.1 → Separate entry.2 other.2)
    {part part' : List Char} (written : canonicalEntry (entry.1, entry.2.canonical) = .ok part)
    (written' : canonicalEntry (other.1, other.2.canonical) = .ok part') : Told part part' := by
  obtain ⟨text, here, rfl⟩ := (canonicalEntry_eq_ok_iff textual).mp written
  obtain ⟨text', there, rfl⟩ := (canonicalEntry_eq_ok_iff textual').mp written'
  intro rest rest' bounded bounded' same
  simp only [List.append_assoc, List.cons_append] at same
  obtain ⟨keys, values⟩ := canonicalText_front same
  have told := separate (keyText_injective textual textual' keys) text text' here there
  rw [keys, told rest rest' bounded bounded' (List.cons.inj values).2]

theorem opens_entry {entry : Value × Except Fault (List Char)} (textual : entry.1.isTextKey = true)
    {part : List Char} (written : canonicalEntry entry = .ok part) : Opens part := by
  obtain ⟨text, -, rfl⟩ := (canonicalEntry_eq_ok_iff textual).mp written
  exact ⟨'"', _, rfl, by decide⟩

theorem canonicalEntry_injective {entry other : Value × Except Fault (List Char)}
    (textual : entry.1.isTextKey = true) (textual' : other.1.isTextKey = true) {part : List Char}
    (written : canonicalEntry entry = .ok part) (written' : canonicalEntry other = .ok part) :
    entry = other := by
  obtain ⟨text, here, rfl⟩ := (canonicalEntry_eq_ok_iff textual).mp written
  obtain ⟨text', there, same⟩ := (canonicalEntry_eq_ok_iff textual').mp written'
  obtain ⟨keys, values⟩ := canonicalText_front same
  refine Prod.ext (keyText_injective textual textual' keys.symm) ?_
  rw [here, there, (List.cons.inj values).2]

theorem exists_of_mem_dictParts {parts : List (List Char)}
    (each : (sortBy (fun a b => keyPrecedes a.1 b.1) (canonicalEntries entries)).map canonicalEntry =
      parts.map .ok) {part : List Char} (member : part ∈ parts) :
    ∃ entry ∈ entries, canonicalEntry (entry.1, entry.2.canonical) = .ok part := by
  obtain ⟨_, sorted, here⟩ := exists_of_map_eq_ok each member
  rw [mem_sortBy, canonicalEntries_eq] at sorted
  obtain ⟨entry, listed, rfl⟩ := List.mem_map.mp sorted
  exact ⟨entry, listed, here⟩

/-- A dictionary with texts for keys is found again, in any order of its entries. -/
theorem dict_front (texts : ∀ entry ∈ entries, entry.1.isTextKey = true)
    (texts' : ∀ entry ∈ others, entry.1.isTextKey = true)
    (separate : ∀ entry ∈ entries, ∀ other ∈ others, entry.1 = other.1 → Separate entry.2 other.2)
    {text text' rest rest' : List Char} (written : canonical (.dict kind entries) = .ok text)
    (written' : canonical (.dict kind' others) = .ok text') (same : text ++ rest = text' ++ rest') :
    text = text' ∧ (canonicalEntries entries).Perm (canonicalEntries others) := by
  obtain ⟨parts, each, rfl⟩ := parts_of_canonical_dict written
  obtain ⟨parts', each', rfl⟩ := parts_of_canonical_dict written'
  have found : parts = parts' := by
    refine canonicalGroup_front (by decide) (by decide) (fun part member part' member' => ?_)
      (fun part member => ?_) (fun part member => ?_) same
    · obtain ⟨entry, listed, here⟩ := exists_of_mem_dictParts each member
      obtain ⟨other, listed', there⟩ := exists_of_mem_dictParts each' member'
      exact told_entry (texts entry listed) (texts' other listed') (separate entry listed other listed')
        here there
    · obtain ⟨entry, listed, here⟩ := exists_of_mem_dictParts each member
      exact opens_entry (texts entry listed) here
    · obtain ⟨entry, listed, here⟩ := exists_of_mem_dictParts each' member
      exact opens_entry (texts' entry listed) here
  have textual {entries : List (Value × Value)} (texts : ∀ entry ∈ entries, entry.1.isTextKey = true) :
      ∀ entry ∈ sortBy (fun a b => keyPrecedes a.1 b.1) (canonicalEntries entries),
        entry.1.isTextKey = true := by
    intro entry sorted
    rw [mem_sortBy, canonicalEntries_eq] at sorted
    obtain ⟨origin, listed, rfl⟩ := List.mem_map.mp sorted
    exact texts origin listed
  have sorted : sortBy (fun a b => keyPrecedes a.1 b.1) (canonicalEntries entries) =
      sortBy (fun a b => keyPrecedes a.1 b.1) (canonicalEntries others) := by
    refine eq_of_map_eq (fun entry member other member' same => ?_) (each.trans (found ▸ each'.symm))
    obtain ⟨part, -, here⟩ := List.mem_map.mp (each ▸ List.mem_map_of_mem member)
    exact canonicalEntry_injective (textual texts entry member) (textual texts' other member') here.symm
      (same.symm.trans here.symm)
  exact ⟨congrArg _ found, (perm_sortBy _ _).symm.trans (sorted.symm ▸ perm_sortBy _ _)⟩

end dictionaries

end LayeredConfig.Value
