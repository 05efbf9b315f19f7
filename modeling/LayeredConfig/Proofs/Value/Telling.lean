import LayeredConfig.Proofs.Value.Canonical

/-!
What a canonical text tells of a value: everything but the marks of documents and the order of members and
entries, where the kind of each part is known.
-/

namespace LayeredConfig.Value

open Text

mutual

/-- A value without the marks of its documents. Members of sets and keys hold no documents. -/
def unmarked : Value → Value
  | .scalar value => .scalar value
  | .member enumeration name value => .member enumeration name value
  | .seq kind items => .seq kind (allUnmarked items)
  | .set kind members => .set kind members
  | .dict kind entries => .dict kind (entriesUnmarked entries)
  | .document type slots => .document type (slotsUnmarked slots)

def allUnmarked : List Value → List Value
  | [] => []
  | value :: values => value.unmarked :: allUnmarked values

def entriesUnmarked : List (Value × Value) → List (Value × Value)
  | [] => []
  | (key, value) :: entries => (key, value.unmarked) :: entriesUnmarked entries

def slotsUnmarked : List (Slot Value) → List (Slot Value)
  | [] => []
  | ⟨name, _, value⟩ :: slots => ⟨name, false, value.unmarked⟩ :: slotsUnmarked slots

end

theorem allUnmarked_eq (values : List Value) : allUnmarked values = values.map unmarked := by
  induction values with
  | nil => rfl
  | cons value values ih => rw [allUnmarked, ih, List.map_cons]

theorem entriesUnmarked_eq (entries : List (Value × Value)) :
    entriesUnmarked entries = entries.map fun entry => (entry.1, entry.2.unmarked) := by
  induction entries with
  | nil => rfl
  | cons entry entries ih => rw [entriesUnmarked, ih, List.map_cons]

theorem slotsUnmarked_eq (slots : List (Slot Value)) :
    slotsUnmarked slots = slots.map fun slot => ⟨slot.name, false, slot.value.unmarked⟩ := by
  induction slots with
  | nil => rfl
  | cons slot slots ih => rw [slotsUnmarked, ih, List.map_cons]

/-- The canonical texts of two values can be told from each other, and if they are one text the values
differ in their marks, and in the order of members and entries, only. -/
def Tells (value other : Value) : Prop :=
  ∀ text text' rest rest', value.toPlain.canonical = .ok text → other.toPlain.canonical = .ok text' →
    Bounded rest → Bounded rest' → text ++ rest = text' ++ rest' →
      text = text' ∧ value.unmarked.Shuffled other.unmarked

section tells

variable {value other : Value}

theorem Tells.separate (tells : value.Tells other) : Separate value.toPlain other.toPlain :=
  fun text text' written written' rest rest' bounded bounded' same =>
    (tells text text' rest rest' written written' bounded bounded' same).1

theorem Tells.shuffled (tells : value.Tells other)
    (same : SameText value.toPlain other.toPlain) : value.unmarked.Shuffled other.unmarked := by
  obtain ⟨text, written, written'⟩ := same
  exact (tells text text [] [] written written' bounded_nil bounded_nil rfl).2

theorem tells_self (value : Value) : value.Tells value := by
  intro text text' rest rest' written written' _ _ _
  exact ⟨Except.ok.inj (written.symm.trans written'), .same _⟩

theorem tells_of_head {test : Char → Prop}
    (first : ∀ text, value.toPlain.canonical = .ok text → ∃ c rest, text = c :: rest ∧ test c)
    (second : ∀ text, other.toPlain.canonical = .ok text → ∃ c rest, text = c :: rest ∧ ¬ test c) :
    value.Tells other := by
  intro text text' rest rest' written written' _ _ same
  obtain ⟨c, tail, rfl, passes⟩ := first text written
  obtain ⟨d, tail', rfl, fails⟩ := second text' written'
  exact absurd ((List.cons.inj same).1 ▸ passes) fails

theorem tells_str (text text' : Str) : (Value.str text).Tells (.str text') := by
  rintro _ _ rest rest' ⟨⟩ ⟨⟩ _ _ same
  obtain rfl := (canonicalText_front same).1
  exact ⟨rfl, .same _⟩

theorem canonical_int {n : Int} {text : List Char} (written : (Value.int n).toPlain.canonical = .ok text) :
    text = (toString n).toList := by
  simp only [toPlain, canonical, canonicalScalar, canonicalInt] at written
  split at written
  · exact (Except.ok.inj written).symm
  · cases written

theorem tells_int (m n : Int) : (Value.int m).Tells (.int n) := by
  intro text text' rest rest' written written' bounded bounded' same
  obtain rfl := canonical_int written
  obtain rfl := canonical_int written'
  have equal := (plain_int m).told (plain_int n) rest rest' bounded bounded' same
  exact ⟨equal, toString_int_injective equal ▸ .same _⟩

theorem tells_bool (first second : Bool) : (Value.bool first).Tells (.bool second) := by
  cases first with
  | false =>
    cases second with
    | false => exact tells_self _
    | true => rintro _ _ rest rest' ⟨⟩ ⟨⟩ _ _ ⟨⟩
  | true =>
    cases second with
    | false => rintro _ _ rest rest' ⟨⟩ ⟨⟩ _ _ ⟨⟩
    | true => exact tells_self _

theorem tells_member {enumeration name name' : String} {value value' : Value}
    (named : name = name' → value = value') :
    (Value.member enumeration name value).Tells (.member enumeration name' value') := by
  rintro _ _ rest rest' ⟨⟩ ⟨⟩ _ _ same
  obtain rfl := Str.whole.inj (canonicalText_front same).1
  obtain rfl := named rfl
  exact ⟨rfl, .same _⟩

/-- Values that are told from each other are shuffled where their texts are the same. -/
theorem shuffled_of_texts {α β : Type} {xs : List α} {ys : List β} {ofFirst : α → Value} {ofSecond : β → Value}
    (tells : ∀ pair ∈ xs.zip ys, (ofFirst pair.1).Tells (ofSecond pair.2))
    (written : ∀ x ∈ xs, ∃ text, (ofFirst x).toPlain.canonical = .ok text)
    (same : (xs.map fun x => (ofFirst x).toPlain.canonical) = ys.map fun y => (ofSecond y).toPlain.canonical) :
    List.Forall₂ (fun x y => (ofFirst x).unmarked.Shuffled (ofSecond y).unmarked) xs ys := by
  have texts := forall₂_of_map_eq same
  refine forall₂_of_zip texts.length_eq fun pair beside => ?_
  obtain ⟨text, here⟩ := written pair.1 (List.of_mem_zip beside).1
  exact (tells pair beside).shuffled ⟨text, here, forall_zip_of_forall₂ texts pair beside ▸ here⟩

theorem tells_seq {kind : SeqKind} {items others : List Value}
    (tells : ∀ item ∈ items, ∀ other ∈ others, item.Tells other) :
    (Value.seq kind items).Tells (.seq kind others) := by
  intro text text' rest rest' written written' bounded bounded' same
  simp only [toPlain, plainAll_eq] at written written'
  have separate : ∀ item ∈ items.map toPlain, ∀ other ∈ others.map toPlain, Separate item other := by
    simp only [List.forall_mem_map]
    exact fun item member other member' => (tells item member other member').separate
  obtain ⟨equal, texts⟩ := seq_front separate written written' same
  have each := exists_canonical_seq.mp ⟨text, written⟩
  rw [List.forall_mem_map] at each
  rw [List.map_map, List.map_map] at texts
  have similar := shuffled_of_texts (fun pair beside => tells pair.1 (List.of_mem_zip beside).1 pair.2
    (List.of_mem_zip beside).2) each texts
  rw [unmarked, unmarked, allUnmarked_eq, allUnmarked_eq]
  have shuffled := List.forall₂_map_left_iff.mpr (List.forall₂_map_right_iff.mpr similar)
  exact ⟨equal, .seq shuffled.length_eq (forall_zip_of_forall₂ shuffled)⟩

theorem tells_of_named (named : value.isNull = true ∨ value.isTextKey = true)
    (named' : other.isNull = true ∨ other.isTextKey = true) : value.Tells other := by
  rcases eq_of_named named with rfl | ⟨text, rfl⟩
  · rcases eq_of_named named' with rfl | ⟨text', rfl⟩
    · exact tells_self _
    · rintro _ _ rest rest' ⟨⟩ ⟨⟩ _ _ ⟨⟩
  · rcases eq_of_named named' with rfl | ⟨text', rfl⟩
    · rintro _ _ rest rest' ⟨⟩ ⟨⟩ _ _ ⟨⟩
    · exact tells_str text text'

theorem canonical_injective_of_named (named : value.isNull = true ∨ value.isTextKey = true)
    (named' : other.isNull = true ∨ other.isTextKey = true) (same : value.canonical = other.canonical) :
    value = other := by
  rcases eq_of_named named with rfl | ⟨text, rfl⟩
  · rcases eq_of_named named' with rfl | ⟨text', rfl⟩
    · rfl
    · cases Except.ok.inj same
  · rcases eq_of_named named' with rfl | ⟨text', rfl⟩
    · cases Except.ok.inj same
    · exact congrArg Value.str (canonicalText_injective (Except.ok.inj same))

/-- The plain form of a dictionary with texts for keys is found again, in any order of its entries. -/
theorem plainEntries_front {entries others : List (Value × Value)}
    (texts : ∀ entry ∈ entries, entry.1.isTextKey = true)
    (texts' : ∀ entry ∈ others, entry.1.isTextKey = true)
    (separate : ∀ entry ∈ entries, ∀ other ∈ others, entry.1 = other.1 →
      Separate entry.2.toPlain other.2.toPlain) {text text' rest rest' : List Char}
    (written : canonical (.dict .plain (plainEntries entries)) = .ok text)
    (written' : canonical (.dict .plain (plainEntries others)) = .ok text')
    (same : text ++ rest = text' ++ rest') :
    text = text' ∧ (entries.map fun entry => (entry.1, entry.2.toPlain.canonical)).Perm
      (others.map fun entry => (entry.1, entry.2.toPlain.canonical)) := by
  rw [plainEntries_eq] at written written'
  have titled {entries : List (Value × Value)} (texts : ∀ entry ∈ entries, entry.1.isTextKey = true) :
      ∀ entry ∈ entries.map fun entry => (entry.1, entry.2.toPlain), entry.1.isTextKey = true :=
    List.forall_mem_map.mpr texts
  have parts : ∀ entry ∈ entries.map fun entry => (entry.1, entry.2.toPlain),
      ∀ other ∈ others.map fun entry => (entry.1, entry.2.toPlain),
        entry.1 = other.1 → Separate entry.2 other.2 := by
    simp only [List.forall_mem_map]
    exact separate
  have front := dict_front (titled texts) (titled texts') parts written written' same
  rwa [canonicalEntries_eq, canonicalEntries_eq, List.map_map, List.map_map] at front

/-- The members of sets are found in the order of their displayed forms. -/
theorem tells_set {kind : SetKind} {members others : List Value}
    (named : ∀ member ∈ members, member.isNull = true ∨ member.isTextKey = true)
    (named' : ∀ member ∈ others, member.isNull = true ∨ member.isTextKey = true) :
    (Value.set kind members).Tells (.set kind others) := by
  intro text text' rest rest' written written' bounded bounded' same
  rw [toPlain, plainAll_of_named named] at written
  rw [toPlain, plainAll_of_named named'] at written'
  have known : ∀ member ∈ sortByDisplay members, member.isNull = true ∨ member.isTextKey = true :=
    fun member listed => named member ((perm_sortByDisplay members).mem_iff.mp listed)
  have known' : ∀ member ∈ sortByDisplay others, member.isNull = true ∨ member.isTextKey = true :=
    fun member listed => named' member ((perm_sortByDisplay others).mem_iff.mp listed)
  have separate : ∀ member ∈ sortByDisplay members, ∀ other ∈ sortByDisplay others,
      Separate member other := by
    intro member listed other listed'
    have tells := tells_of_named (known member listed) (known' other listed')
    rw [← (writable_of_named (known member listed)).1, ← (writable_of_named (known' other listed')).1]
    exact tells.separate
  obtain ⟨equal, texts⟩ := seq_front separate written written' same
  have sorted := eq_of_map_eq (fun member listed other listed' =>
    canonical_injective_of_named (known member listed) (known' other listed')) texts
  have perm := (perm_sortByDisplay members).symm.trans (sorted ▸ perm_sortByDisplay others)
  exact ⟨equal, .set named perm⟩

theorem tells_dict {kind : DictKind} {entries others : List (Value × Value)}
    (texts : ∀ entry ∈ entries, entry.1.isTextKey = true)
    (texts' : ∀ entry ∈ others, entry.1.isTextKey = true) (distinct : (entries.map (·.1)).Nodup)
    (tells : ∀ entry ∈ entries, ∀ other ∈ others, entry.1 = other.1 → entry.2.Tells other.2) :
    (Value.dict kind entries).Tells (.dict kind others) := by
  intro text text' rest rest' written written' bounded bounded' same
  obtain ⟨equal, perm⟩ := plainEntries_front texts texts' (fun entry member other member' key =>
    (tells entry member other member' key).separate) written written' same
  have each := (exists_canonical_dict.mp ⟨text, written⟩).2
  rw [plainEntries_eq, List.forall_mem_map] at each
  obtain ⟨middle, rearranged, aligned⟩ := exists_perm_of_map_perm perm.symm
  have keys : ∀ pair ∈ middle.zip others, pair.1.1 = pair.2.1 := fun pair beside =>
    (Prod.mk.inj (forall_zip_of_forall₂ (forall₂_of_map_eq aligned.symm) pair beside)).1
  have similar := shuffled_of_texts (fun pair beside => tells pair.1
    (rearranged.mem_iff.mp (List.of_mem_zip beside).1) pair.2 (List.of_mem_zip beside).2 (keys pair beside))
    (fun entry member => (each entry (rearranged.mem_iff.mp member)).2)
    (by simpa only [List.map_map, Function.comp_def] using (congrArg (List.map Prod.snd) aligned).symm)
  have matched : List.Forall₂ (fun entry other : Value × Value => entry.1 = other.1 ∧
      entry.2.Shuffled other.2) (middle.map fun entry => (entry.1, entry.2.unmarked))
        (others.map fun entry => (entry.1, entry.2.unmarked)) := by
    rw [List.forall₂_map_left_iff, List.forall₂_map_right_iff]
    exact forall₂_of_zip similar.length_eq fun pair beside =>
      ⟨keys pair beside, forall_zip_of_forall₂ similar pair beside⟩
  have parts := forall_zip_of_forall₂ matched
  rw [unmarked, unmarked, entriesUnmarked_eq, entriesUnmarked_eq]
  refine ⟨equal, .dict (List.forall_mem_map.mpr texts) ?_ (rearranged.symm.map _) matched.length_eq
    (fun pair beside => (parts pair beside).1) fun pair beside => (parts pair beside).2⟩
  rw [List.map_map]
  exact distinct

theorem plainSlots_eq_plainEntries (slots : List (Slot Value)) :
    plainSlots slots = plainEntries (slots.map fun slot => (.str slot.name, slot.value)) := by
  rw [plainSlots_eq, plainEntries_eq, List.map_map]
  rfl

theorem tells_document {type : String} {slots others : List (Slot Value)}
    (names : slots.map (·.name) = others.map (·.name)) (distinct : (slots.map (·.name)).Nodup)
    (tells : ∀ slot ∈ slots, ∀ other ∈ others, slot.name = other.name → slot.value.Tells other.value) :
    (Value.document type slots).Tells (.document type others) := by
  intro text text' rest rest' written written' bounded bounded' same
  simp only [toPlain, plainSlots_eq_plainEntries] at written written'
  have titled (slots : List (Slot Value)) : ∀ entry ∈ slots.map fun slot => (Value.str slot.name, slot.value),
      entry.1.isTextKey = true := List.forall_mem_map.mpr fun _ _ => rfl
  have separate : ∀ entry ∈ slots.map fun slot => (Value.str slot.name, slot.value),
      ∀ other ∈ others.map fun slot => (Value.str slot.name, slot.value),
        entry.1 = other.1 → Separate entry.2.toPlain other.2.toPlain := by
    simp only [List.forall_mem_map]
    intro slot member other member' key
    exact (tells slot member other member' (Scalar.str.inj (Value.scalar.inj key))).separate
  obtain ⟨equal, perm⟩ := plainEntries_front (titled slots) (titled others) separate written written' same
  have each := (exists_canonical_dict.mp ⟨text, written⟩).2
  rw [plainEntries_eq, List.map_map, List.forall_mem_map] at each
  rw [List.map_map, List.map_map] at perm
  -- The settings follow each other as they did, so the entries do too.
  have keys (slots : List (Slot Value)) :
      (slots.map fun slot => (Value.str slot.name, slot.value.toPlain.canonical)).map Prod.fst =
        (slots.map (·.name)).map Value.str := by
    rw [List.map_map, List.map_map]
    rfl
  have aligned : (slots.map fun slot => (Value.str slot.name, slot.value.toPlain.canonical)) =
      others.map fun slot => (Value.str slot.name, slot.value.toPlain.canonical) := by
    refine eq_of_perm_of_map_eq perm ((keys slots).trans ((congrArg _ names).trans (keys others).symm)) ?_
    rw [keys]
    exact distinct.map fun _ _ key => Scalar.str.inj (Value.scalar.inj key)
  have similar := shuffled_of_texts (fun pair beside => tells pair.1 (List.of_mem_zip beside).1 pair.2
    (List.of_mem_zip beside).2 (forall_zip_of_forall₂ (forall₂_of_map_eq names) pair beside))
    (fun slot member => (each slot member).2)
    (by simpa only [List.map_map, Function.comp_def] using congrArg (List.map Prod.snd) aligned)
  have matched : List.Forall₂ (fun slot other : Slot Value => (slot.name = other.name ∧
      slot.explicit = other.explicit) ∧ slot.value.Shuffled other.value)
      (slots.map fun slot => ⟨slot.name, false, slot.value.unmarked⟩)
      (others.map fun slot => ⟨slot.name, false, slot.value.unmarked⟩) := by
    rw [List.forall₂_map_left_iff, List.forall₂_map_right_iff]
    exact forall₂_of_zip similar.length_eq fun pair beside =>
      ⟨⟨forall_zip_of_forall₂ (forall₂_of_map_eq names) pair beside, rfl⟩,
        forall_zip_of_forall₂ similar pair beside⟩
  have parts := forall_zip_of_forall₂ matched
  rw [unmarked, unmarked, slotsUnmarked_eq, slotsUnmarked_eq]
  exact ⟨equal, .document matched.length_eq (fun pair beside => (parts pair beside).1)
    fun pair beside => (parts pair beside).2⟩

end tells

end LayeredConfig.Value
