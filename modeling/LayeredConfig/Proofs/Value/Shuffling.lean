import LayeredConfig.Proofs.Container.Entries
import LayeredConfig.Proofs.Schema.Genuine
import LayeredConfig.Proofs.Text.Quoting
import LayeredConfig.Proofs.Text.Sorting
import LayeredConfig.Proofs.Value.Fingerprints
import LayeredConfig.Proofs.Value.Likeness
import Mathlib.Data.List.Nodup

namespace LayeredConfig.Value

/-- Two values that differ in the order of the members of sets and of the entries of dictionaries, where
the members are texts or null and the keys different texts. Marks are the same. -/
inductive Shuffled : Value → Value → Prop
  | same (value : Value) : Shuffled value value
  | seq {kind : SeqKind} {items items' : List Value} (length : items.length = items'.length)
      (parts : ∀ pair ∈ items.zip items', Shuffled pair.1 pair.2) :
      Shuffled (.seq kind items) (.seq kind items')
  | set {kind : SetKind} {members members' : List Value}
      (named : ∀ member ∈ members, member.isNull = true ∨ member.isTextKey = true)
      (perm : members.Perm members') : Shuffled (.set kind members) (.set kind members')
  | dict {kind : DictKind} {entries middle entries' : List (Value × Value)}
      (texts : ∀ entry ∈ entries, entry.1.isTextKey = true) (distinct : (entries.map (·.1)).Nodup)
      (perm : entries.Perm middle) (length : middle.length = entries'.length)
      (keys : ∀ pair ∈ middle.zip entries', pair.1.1 = pair.2.1)
      (parts : ∀ pair ∈ middle.zip entries', Shuffled pair.1.2 pair.2.2) :
      Shuffled (.dict kind entries) (.dict kind entries')
  | document {type : String} {slots slots' : List (Slot Value)} (length : slots.length = slots'.length)
      (marks : ∀ pair ∈ slots.zip slots', pair.1.name = pair.2.name ∧ pair.1.explicit = pair.2.explicit)
      (parts : ∀ pair ∈ slots.zip slots', Shuffled pair.1.value pair.2.value) :
      Shuffled (.document type slots) (.document type slots')

/-- Shuffled values are equal if nothing in them is a result that is not a number. -/
theorem Shuffled.alike {value other : Value} (shuffled : value.Shuffled other)
    (definite : value.Definite) (asObject : Bool) : value.alike asObject other = true := by
  unfold Definite at definite
  induction shuffled generalizing asObject with
  | same value => exact alike_self definite asObject
  | @seq kind items items' length parts ih =>
    rw [forall_occurs_seq] at definite
    have comparable : kind.comparable kind = true := by cases kind <;> rfl
    rw [Value.alike, comparable, Bool.true_and, itemsAlike_iff]
    exact forall₂_of_zip length fun pair beside =>
      ih pair beside (definite.2 pair.1 (List.of_mem_zip beside).1) true
  | @set kind members members' named perm =>
    rw [forall_occurs_set] at definite
    rw [Value.alike, perm.length_eq, beq_self_eq_true, Bool.true_and, membersWithin_iff]
    exact fun member listed =>
      ⟨member, perm.mem_iff.mp listed, alike_self (definite.2 member listed) true⟩
  | @dict kind entries middle entries' texts distinct perm length keys parts ih =>
    rw [forall_occurs_dict] at definite
    have matched : List.Forall₂ (fun entry entry' => entry.1 = entry'.1 ∧
        entry.2.alike true entry'.2 = true) middle entries' :=
      forall₂_of_zip length fun pair beside => ⟨keys pair beside, ih pair beside
        (definite.2.2 pair.1 (perm.mem_iff.mpr (List.of_mem_zip beside).1)) true⟩
    rw [Value.alike, perm.length_eq, length, beq_self_eq_true, Bool.true_and, entriesWithin_iff]
    intro entry member
    obtain ⟨entry', listed, key, alike⟩ := exists_mem_of_forall₂ matched entry (perm.mem_iff.mp member)
    exact ⟨entry', listed, key ▸ alike_self (definite.2.1 entry member) true, alike⟩
  | @document type slots slots' length marks parts ih =>
    rw [forall_occurs_document] at definite
    rw [Value.alike, beq_self_eq_true, Bool.true_and, slotsAlike_iff]
    exact forall₂_of_zip length fun pair beside =>
      ih pair beside (definite.2 pair.1 (List.of_mem_zip beside).1) false

/-- As parts of containers texts and null are equal to themselves only. -/
theorem same_iff_of_named {value other : Value} (named : value.isNull = true ∨ value.isTextKey = true)
    (named' : other.isNull = true ∨ other.isTextKey = true) : value.same other = true ↔ value = other := by
  rcases eq_of_named named with rfl | ⟨text, rfl⟩
  · rcases eq_of_named named' with rfl | ⟨text', rfl⟩
    · simp [same, alike, Scalar.alike]
    · simp [same, alike, Scalar.alike, Scalar.key]
  · rcases eq_of_named named' with rfl | ⟨text', rfl⟩
    · simp [same, alike, Scalar.alike, Scalar.key]
    · simp [same, alike, Scalar.alike, Scalar.key]

/-- On texts and null the equality of parts of containers is that of values. -/
theorem lawful_of_named {values : List Value}
    (named : ∀ value ∈ values, value.isNull = true ∨ value.isTextKey = true) :
    ∀ a ∈ values, ∀ b ∈ values, a.same b = true ↔ a = b :=
  fun a first b second => same_iff_of_named (named a first) (named b second)

theorem mem_ofList_of_named {values : List Value} {member : Value}
    (named : ∀ value ∈ values, value.isNull = true ∨ value.isTextKey = true) :
    member ∈ Members.ofList same values ↔ member ∈ values := by
  rw [Members.ofList, Members.mem_insertAll_iff (by simpa using lawful_of_named named)]
  simp

theorem nodup_of_apart {keys : List Value} (texts : ∀ key ∈ keys, key.isTextKey = true)
    (apart : Apart keys) : keys.Nodup := by
  refine apart.differ.imp_of_mem fun {a b} first _ differ => ?_
  rintro rfl
  rw [(same_iff_of_named (.inr (texts a first)) (.inr (texts a first))).mpr rfl] at differ
  cases differ

/-- The displayed forms of texts and null tell them apart. -/
theorem display_injective {value other : Value}
    (named : value.isNull = true ∨ value.isTextKey = true)
    (named' : other.isNull = true ∨ other.isTextKey = true) (same : value.display = other.display) :
    value = other := by
  have apart (text : Str) : Text.quote text ≠ "None".toList := by
    intro equal
    have mark : Text.quoteMark (text.letters.map Letter.shown) = 'N' := (List.cons.inj equal).1
    rcases Text.quoteMark_cases (text.letters.map Letter.shown) with single | double
    · rw [single] at mark
      cases mark
    · rw [double] at mark
      cases mark
  rcases eq_of_named named with rfl | ⟨text, rfl⟩
  · rcases eq_of_named named' with rfl | ⟨text', rfl⟩
    · rfl
    · exact absurd same.symm (apart text')
  · rcases eq_of_named named' with rfl | ⟨text', rfl⟩
    · exact absurd same (apart text)
    · exact congrArg Value.str (Text.quote_injective same)

/-- Sorting by displayed forms forgets the order that there was before, if they tell the values apart. -/
theorem sortByDisplay_eq_of_told {values others : List Value}
    (told : ∀ a ∈ values, ∀ b ∈ values, a.display = b.display → a = b) (perm : values.Perm others) :
    sortByDisplay values = sortByDisplay others := by
  have distinct : ∀ pair ∈ values.map fun value => (value.display, value),
      ∀ pair' ∈ values.map fun value => (value.display, value), pair.1 = pair'.1 → pair = pair' := by
    simp only [List.forall_mem_map]
    intro a listed b listed' same
    rw [told a listed b listed' same]
  unfold sortByDisplay
  rw [sortBy_eq_of_perm Prod.fst (fun _ _ _ _ => precedes_iff) distinct (perm.map _)]

theorem sortByDisplay_eq_of_perm {members members' : List Value}
    (named : ∀ member ∈ members, member.isNull = true ∨ member.isTextKey = true)
    (perm : members.Perm members') : sortByDisplay members = sortByDisplay members' :=
  sortByDisplay_eq_of_told (fun a listed b listed' => display_injective (named a listed) (named b listed')) perm

theorem plainAll_of_named {members : List Value}
    (named : ∀ member ∈ members, member.isNull = true ∨ member.isTextKey = true) :
    plainAll members = members := by
  rw [plainAll_eq]
  exact List.map_congr_left (fun member listed => (writable_of_named (named member listed)).1)
    |>.trans (List.map_id' members)

theorem Shuffled.sortable {value other : Value} (shuffled : value.Shuffled other) :
    value.sortable = other.sortable := by
  induction shuffled with
  | same value => rfl
  | @seq kind items items' length parts ih =>
    have same : items.map Value.sortable = items'.map Value.sortable :=
      map_eq_of_forall₂ (forall₂_of_zip length ih)
    rw [Value.sortable, Value.sortable, allSortable_eq, allSortable_eq, same]
  | @set kind members members' named perm =>
    have named' : ∀ member ∈ members', member.isNull = true ∨ member.isTextKey = true :=
      fun member listed => named member (perm.mem_iff.mpr listed)
    rw [sortable_set_of_named named, sortable_set_of_named named']
  | @dict kind entries middle entries' texts distinct perm length keys parts ih =>
    have same : (middle.map fun entry => entry.2.sortable) = entries'.map fun entry => entry.2.sortable :=
      map_eq_of_forall₂ (forall₂_of_zip length ih)
    rw [Value.sortable, Value.sortable, entriesSortable_eq, entriesSortable_eq, ← same,
      (perm.map _).all_eq]
  | @document type slots slots' length marks parts ih =>
    have same : (slots.map fun slot => slot.value.sortable) = slots'.map fun slot => slot.value.sortable :=
      map_eq_of_forall₂ (forall₂_of_zip length ih)
    rw [Value.sortable, Value.sortable, slotsSortable_eq, slotsSortable_eq, same]

/-- The text that a key is, if it is one. -/
def keyText : Value → Str
  | .scalar (.str text) => text
  | _ => ""

/-- The canonical text of a dictionary does not depend on the order of its entries if sorting forgets it. -/
theorem canonical_dict_of_sorted {entries entries' : List (Value × Value)}
    (perm : (canonicalEntries entries).Perm (canonicalEntries entries'))
    (sorted : haveOrder ((canonicalEntries entries).map (·.1)) = true →
      sortBy (fun a b => keyPrecedes a.1 b.1) (canonicalEntries entries) =
        sortBy (fun a b => keyPrecedes a.1 b.1) (canonicalEntries entries')) (kind : DictKind) :
    canonical (.dict kind entries) = canonical (.dict kind entries') := by
  have order : haveOrder ((canonicalEntries entries).map (·.1)) =
      haveOrder ((canonicalEntries entries').map (·.1)) := by
    simp only [haveOrder, (perm.map (·.1)).length_eq, (perm.map (·.1)).all_eq]
  cases ordered : haveOrder ((canonicalEntries entries).map (·.1)) with
  | true => simp only [canonical, ← order, sorted ordered]
  | false =>
    simp only [canonical, ← order, ordered]
    rfl

/-- The canonical text of a dictionary with different texts for keys does not depend on the order of its
entries. -/
theorem canonical_dict_of_perm {entries entries' : List (Value × Value)}
    (texts : ∀ entry ∈ entries, entry.1.isTextKey = true) (distinct : (entries.map (·.1)).Nodup)
    (perm : (canonicalEntries entries).Perm (canonicalEntries entries')) (kind : DictKind) :
    canonical (.dict kind entries) = canonical (.dict kind entries') := by
  have textual : ∀ entry ∈ canonicalEntries entries, entry.1.isTextKey = true := by
    rw [canonicalEntries_eq]
    exact List.forall_mem_map.mpr texts
  refine canonical_dict_of_sorted perm (fun _ => sortBy_eq_of_perm (fun entry => entry.1.keyText.codes)
    (fun a first b second => ?_) (fun a first b second same => ?_) perm) kind
  · obtain ⟨text, ofFirst⟩ := exists_text_of_isTextKey (textual a first)
    obtain ⟨text', ofSecond⟩ := exists_text_of_isTextKey (textual b second)
    rw [ofFirst, ofSecond]
    exact precedes_iff
  · obtain ⟨text, ofFirst⟩ := exists_text_of_isTextKey (textual a first)
    obtain ⟨text', ofSecond⟩ := exists_text_of_isTextKey (textual b second)
    rw [ofFirst, ofSecond] at same
    have equal : a.1 = b.1 := by rw [ofFirst, ofSecond, show text = text' from Str.codes_inj.mp same]
    exact List.inj_on_of_nodup_map (keys_canonicalEntries entries ▸ distinct) first second equal

theorem perm_canonicalEntries {entries middle entries' : List (Value × Value)} (perm : entries.Perm middle)
    (similar : List.Forall₂ (fun entry entry' => entry.1 = entry'.1 ∧
      entry.2.toPlain.canonical = entry'.2.toPlain.canonical) middle entries') :
    (canonicalEntries (plainEntries entries)).Perm (canonicalEntries (plainEntries entries')) := by
  have same : (middle.map fun entry => (entry.1, entry.2.toPlain.canonical)) =
      entries'.map fun entry => (entry.1, entry.2.toPlain.canonical) :=
    map_eq_of_forall₂ (similar.imp fun _ _ both => Prod.ext both.1 both.2)
  rw [canonicalEntries_plainEntries, canonicalEntries_plainEntries, ← same]
  exact perm.map _

theorem canonical_document_congr {type type' : String} {slots slots' : List (Slot Value)}
    (similar : List.Forall₂ (fun slot slot' => slot.name = slot'.name ∧
      slot.value.toPlain.canonical = slot'.value.toPlain.canonical) slots slots') :
    (document type slots).toPlain.canonical = (document type' slots').toPlain.canonical := by
  have same : (slots.map fun slot => (Value.str slot.name, slot.value.toPlain.canonical)) =
      slots'.map fun slot => (Value.str slot.name, slot.value.toPlain.canonical) :=
    map_eq_of_forall₂ (similar.imp fun _ _ both => by rw [both.1, both.2])
  simp only [toPlain, canonical, canonicalEntries_plainSlots, same]

/-- Shuffled values have one canonical text. -/
theorem Shuffled.canonical {value other : Value} (shuffled : value.Shuffled other) :
    value.toPlain.canonical = other.toPlain.canonical := by
  induction shuffled with
  | same value => rfl
  | @seq kind items items' length parts ih =>
    have same : (items.map fun item => item.toPlain.canonical) =
        items'.map fun item => item.toPlain.canonical :=
      map_eq_of_forall₂ (forall₂_of_zip length ih)
    rw [toPlain, toPlain, plainAll_eq, plainAll_eq]
    exact canonical_seq_congr (by rw [List.map_map, List.map_map]; exact same)
  | @set kind members members' named perm =>
    have named' : ∀ member ∈ members', member.isNull = true ∨ member.isTextKey = true :=
      fun member listed => named member (perm.mem_iff.mpr listed)
    simp only [toPlain, plainAll_of_named named, plainAll_of_named named',
      sortByDisplay_eq_of_perm named perm]
  | @dict kind entries middle entries' texts distinct perm length keys parts ih =>
    have entriesPerm := perm_canonicalEntries perm (forall₂_of_zip length fun pair beside =>
      ⟨keys pair beside, ih pair beside⟩)
    refine canonical_dict_of_perm ?_ (keys_plainEntries entries ▸ distinct) entriesPerm .plain
    rw [plainEntries_eq]
    exact List.forall_mem_map.mpr texts
  | @document type slots slots' length marks parts ih =>
    exact canonical_document_congr (forall₂_of_zip length fun pair beside =>
      ⟨(marks pair beside).1, ih pair beside⟩)

/-- Shuffled values have the same texts. -/
theorem Shuffled.isWhole {value other : Value} (shuffled : value.Shuffled other) :
    value.isWhole = other.isWhole := by
  induction shuffled with
  | same value => rfl
  | @seq kind items items' length parts ih =>
    rw [isWhole_seq, isWhole_seq, map_eq_of_forall₂ (forall₂_of_zip length ih)]
  | @set kind members members' named perm =>
    rw [isWhole_set, isWhole_set, (perm.map _).all_eq]
  | @dict kind entries middle entries' texts distinct perm length keys parts ih =>
    exact isWhole_dict_congr kind kind perm length (fun pair beside => congrArg Value.isWhole (keys pair beside)) ih
  | @document type slots slots' length marks parts ih => exact isWhole_document_congr type type length ih

/-- Shuffled documents have one fingerprint, or none for one reason. -/
theorem Shuffled.fingerprint {type type' : String} {slots slots' : List (Slot Value)}
    (shuffled : Shuffled (.document type slots) (.document type' slots')) :
    Value.fingerprint (.document type slots) = Value.fingerprint (.document type' slots') := by
  have text (type : String) (slots : List (Slot Value)) :
      fingerprintText (.document type slots) = (plain? (.document type slots)) >>= Value.canonical := rfl
  rw [Value.fingerprint, Value.fingerprint, text, text, plain?, plain?, shuffled.sortable, shuffled.isWhole]
  split
  · exact congrArg (· >>= _) shuffled.canonical
  · rfl

end LayeredConfig.Value
