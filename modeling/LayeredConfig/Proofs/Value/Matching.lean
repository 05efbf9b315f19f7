import LayeredConfig.Proofs.Container.Matching
import LayeredConfig.Proofs.Schema.Genuine
import LayeredConfig.Proofs.Value.Likeness

/-!
Equal values part by part. Where the numbers and moments that stand in the same places are the same, equal
values match: they differ in the kinds of containers and in the order of members and entries only.
-/

namespace LayeredConfig

/-- Whether a scalar is compared by a quantity that other scalars may have too, as numbers and moments are. -/
def Scalar.isMeasured : Scalar → Bool
  | .bool _ => true
  | .int _ => true
  | .float _ => true
  | .moment _ => true
  | _ => false

/-- The scalar that has a key, if no others may have it too. -/
def Scalar.Key.owner? : Key → Option Scalar
  | .null => some .null
  | .str value => some (.str value)
  | .bytes value => some (.bytes value)
  | .date value => some (.date value)
  | _ => none

theorem Scalar.owner?_key (value : Scalar) :
    value.key.owner? = if value.isMeasured then none else some value := by
  cases value with
  | float x => cases x <;> rfl
  | moment m =>
    rw [Scalar.key]
    split <;> rfl
  | _ => rfl

theorem Scalar.eq_of_alike {a b : Scalar} (unmeasured : a.isMeasured = false)
    (equal : a.alike asObject b = true) : a = b := by
  have keys : a.key = b.key := eq_of_beq (Bool.and_eq_true_iff.mp equal).1
  have owners := congrArg Key.owner? keys
  rw [owner?_key, owner?_key, unmeasured, if_neg Bool.false_ne_true] at owners
  split at owners
  · cases owners
  · exact Option.some.inj owners

namespace Value

def isMeasured : Value → Bool
  | .scalar value => value.isMeasured
  | _ => false

/-- Two parts that stand in the same place of two values: at one position of sequences, in equal members of
sets, under equal keys, as these keys, or in one slot. -/
inductive Beside (part part' : Value) : Value → Value → Prop
  | here : Beside part part' part part'
  | item {kind kind' : SeqKind} {items items' : List Value} {pair : Value × Value}
      (beside : pair ∈ items.zip items') (deeper : Beside part part' pair.1 pair.2) :
      Beside part part' (.seq kind items) (.seq kind' items')
  | member {kind kind' : SetKind} {members members' : List Value} {member member' : Value}
      (listed : member ∈ members) (listed' : member' ∈ members') (same : member.same member' = true)
      (deeper : Beside part part' member member') :
      Beside part part' (.set kind members) (.set kind' members')
  | key {kind kind' : DictKind} {entries entries' : List (Value × Value)} {entry entry' : Value × Value}
      (listed : entry ∈ entries) (listed' : entry' ∈ entries') (same : entry.1.same entry'.1 = true)
      (deeper : Beside part part' entry.1 entry'.1) :
      Beside part part' (.dict kind entries) (.dict kind' entries')
  | entry {kind kind' : DictKind} {entries entries' : List (Value × Value)} {entry entry' : Value × Value}
      (listed : entry ∈ entries) (listed' : entry' ∈ entries') (same : entry.1.same entry'.1 = true)
      (deeper : Beside part part' entry.2 entry'.2) :
      Beside part part' (.dict kind entries) (.dict kind' entries')
  | slot {type type' : String} {slots slots' : List (Slot Value)} {pair : Slot Value × Slot Value}
      (beside : pair ∈ slots.zip slots') (deeper : Beside part part' pair.1.value pair.2.value) :
      Beside part part' (.document type slots) (.document type' slots')

theorem Beside.occurs {part part' value other : Value} (beside : Beside part part' value other) :
    Occurs part value := by
  induction beside with
  | here => exact .here
  | item beside _ ih => exact .item (List.of_mem_zip beside).1 ih
  | member listed _ _ _ ih => exact .member listed ih
  | key listed _ _ _ ih => exact .key listed ih
  | entry listed _ _ _ ih => exact .entry listed ih
  | slot beside _ ih => exact .slot (List.of_mem_zip beside).1 ih

/-- The members of a set and the keys of a dictionary are apart, and the settings of a document are those that
go with its type. -/
def Made (settings : String → List Str) : Value → Prop
  | .set _ members => Apart members
  | .dict _ entries => Apart (entries.map (·.1))
  | .document type slots => slots.map (·.name) = settings type
  | _ => True

instance {values : List Value} : Decidable (Apart values) :=
  decidable_of_iff (values.Pairwise (fun a b => a.same b = false) ∧ ∀ value ∈ values, value.hashable = true)
    ⟨fun both => ⟨both.1, both.2⟩, fun apart => ⟨apart.differ, apart.frozen⟩⟩

instance {settings : String → List Str} : DecidablePred (Made settings)
  | .set _ members => inferInstanceAs (Decidable (Apart members))
  | .dict _ entries => inferInstanceAs (Decidable (Apart (entries.map (·.1))))
  | .document type slots => inferInstanceAs (Decidable (slots.map (·.name) = settings type))
  | .scalar _ => .isTrue trivial
  | .member _ _ _ => .isTrue trivial
  | .seq _ _ => .isTrue trivial

/-- Two values with the same scalars in the same places. Kinds of containers, marks, and the order of members
and entries may differ. -/
inductive Matched : Value → Value → Prop
  | scalar (value : Scalar) : Matched (.scalar value) (.scalar value)
  | member (enumeration name : String) (value value' : Value) :
      Matched (.member enumeration name value) (.member enumeration name value')
  | seq {kind kind' : SeqKind} {items items' : List Value} (length : items.length = items'.length)
      (parts : ∀ pair ∈ items.zip items', Matched pair.1 pair.2) :
      Matched (.seq kind items) (.seq kind' items')
  | set {kind kind' : SetKind} {members middle members' : List Value} (perm : members.Perm middle)
      (length : middle.length = members'.length)
      (parts : ∀ pair ∈ middle.zip members', Matched pair.1 pair.2) :
      Matched (.set kind members) (.set kind' members')
  | dict {kind kind' : DictKind} {entries middle entries' : List (Value × Value)} (perm : entries.Perm middle)
      (length : middle.length = entries'.length)
      (keys : ∀ pair ∈ middle.zip entries', Matched pair.1.1 pair.2.1)
      (values : ∀ pair ∈ middle.zip entries', Matched pair.1.2 pair.2.2) :
      Matched (.dict kind entries) (.dict kind' entries')
  | document {type : String} {slots slots' : List (Slot Value)} (names : slots.map (·.name) = slots'.map (·.name))
      (parts : ∀ pair ∈ slots.zip slots', Matched pair.1.value pair.2.value) :
      Matched (.document type slots) (.document type slots')

namespace Matched

theorem of_forall₂ {items items' : List Value} (parts : List.Forall₂ Matched items items')
    (kind kind' : SeqKind) : Matched (.seq kind items) (.seq kind' items') :=
  .seq parts.length_eq (forall_zip_of_forall₂ parts)

theorem of_members {members members' : List Value} (parts : Rearranged Matched members members')
    (kind kind' : SetKind) : Matched (.set kind members) (.set kind' members') := by
  obtain ⟨middle, perm, beside⟩ := parts
  exact .set perm beside.length_eq (forall_zip_of_forall₂ beside)

/-- Entries whose keys and values match. -/
def Entry (entry entry' : Value × Value) : Prop :=
  Matched entry.1 entry'.1 ∧ Matched entry.2 entry'.2

theorem of_entries {entries entries' : List (Value × Value)} (parts : Rearranged Entry entries entries')
    (kind kind' : DictKind) : Matched (.dict kind entries) (.dict kind' entries') := by
  obtain ⟨middle, perm, beside⟩ := parts
  have both := forall_zip_of_forall₂ beside
  exact .dict perm beside.length_eq (fun pair listed => (both pair listed).1)
    fun pair listed => (both pair listed).2

theorem symm {value other : Value} (matched : Matched value other) : Matched other value := by
  induction matched with
  | scalar value => exact .scalar value
  | member enumeration name value value' => exact .member enumeration name value' value
  | seq length parts ih =>
    have turned : List.Forall₂ (fun item item' => Matched item' item) _ _ := forall₂_of_zip length ih
    exact .of_forall₂ turned.flip _ _
  | set perm length parts ih =>
    have turned : Rearranged (fun member member' => Matched member' member) _ _ :=
      ⟨_, perm, forall₂_of_zip length ih⟩
    exact .of_members (turned.flip fun _ _ here => here) _ _
  | dict perm length keys values ihKeys ihValues =>
    have turned : Rearranged (fun entry entry' => Entry entry' entry) _ _ :=
      ⟨_, perm, forall₂_of_zip length fun pair beside => ⟨ihKeys pair beside, ihValues pair beside⟩⟩
    exact .of_entries (turned.flip fun _ _ here => here) _ _
  | document names parts ih =>
    have length := by simpa using congrArg List.length names
    have turned : List.Forall₂ (fun slot slot' : Slot Value => Matched slot'.value slot.value) _ _ :=
      forall₂_of_zip length ih
    exact .document names.symm (forall_zip_of_forall₂ turned.flip)

theorem trans {first second third : Value} (matched : Matched first second)
    (matched' : Matched second third) : Matched first third := by
  induction matched generalizing third with
  | scalar value => exact matched'
  | member enumeration name value value' =>
    cases matched'
    exact .member ..
  | seq length parts ih =>
    cases matched' with
    | seq length' parts' =>
      have along : List.Forall₂ (fun item item' => ∀ {third}, Matched item' third → Matched item third) _ _ :=
        forall₂_of_zip length ih
      exact .of_forall₂ (forall₂_trans along (forall₂_of_zip length' parts') fun _ _ _ step => step) _ _
  | set perm length parts ih =>
    cases matched' with
    | set perm' length' parts' =>
      have along : Rearranged (fun member member' => ∀ {third}, Matched member' third → Matched member third)
          _ _ := ⟨_, perm, forall₂_of_zip length ih⟩
      exact .of_members (along.trans ⟨_, perm', forall₂_of_zip length' parts'⟩ fun _ _ _ step => step) _ _
  | dict perm length keys values ihKeys ihValues =>
    cases matched' with
    | dict perm' length' keys' values' =>
      have along : Rearranged (fun entry entry' : Value × Value =>
          (∀ {third}, Matched entry'.1 third → Matched entry.1 third) ∧
            ∀ {third}, Matched entry'.2 third → Matched entry.2 third) _ _ :=
        ⟨_, perm, forall₂_of_zip length fun pair beside => ⟨ihKeys pair beside, ihValues pair beside⟩⟩
      have there : Rearranged Entry _ _ := ⟨_, perm', forall₂_of_zip length' fun pair beside =>
        ⟨keys' pair beside, values' pair beside⟩⟩
      exact .of_entries (along.trans there fun _ _ _ step here => ⟨step.1 here.1, step.2 here.2⟩) _ _
  | document names parts ih =>
    cases matched' with
    | document names' parts' =>
      have length := by simpa using congrArg List.length names
      have length' := by simpa using congrArg List.length names'
      have along : List.Forall₂ (fun slot slot' : Slot Value =>
          ∀ {third}, Matched slot'.value third → Matched slot.value third) _ _ := forall₂_of_zip length ih
      have there : List.Forall₂ (fun slot slot' : Slot Value => Matched slot.value slot'.value) _ _ :=
        forall₂_of_zip length' parts'
      exact .document (names.trans names') (forall_zip_of_forall₂
        (forall₂_trans along there fun _ _ _ step here => step here))

end Matched

section made

variable {settings : String → List Str}

/-- Values that match are one member of a set, or one key, as far as they may be any. -/
theorem Matched.same {value other : Value} (matched : Matched value other)
    (frozen : value.hashable = true) (frozen' : other.hashable = true)
    (made : ∀ part, Occurs part value → part.Made settings)
    (made' : ∀ part, Occurs part other → part.Made settings) : value.same other = true := by
  induction matched with
  | scalar value => exact same_self_of_isAtom rfl
  | member enumeration name value value' => simp [Value.same, alike]
  | @seq kind kind' items items' length parts ih =>
    cases kind with
    | tuple =>
      cases kind' with
      | tuple =>
        rw [forall_occurs_seq] at made made'
        rw [hashable, allHashable_iff] at frozen frozen'
        rw [Value.same, alike, show SeqKind.comparable .tuple .tuple = true from rfl, Bool.true_and,
          itemsAlike_iff]
        exact forall₂_of_zip length fun pair beside =>
          have first := (List.of_mem_zip beside).1
          have second := (List.of_mem_zip beside).2
          ih pair beside (frozen _ first) (frozen' _ second) (made.2 _ first) (made'.2 _ second)
      | _ => cases frozen'
    | _ => cases frozen
  | @set kind kind' members middle members' perm length parts ih =>
    rw [forall_occurs_set] at made made'
    rw [Value.same, alike, perm.length_eq, length, beq_self_eq_true, Bool.true_and, membersWithin_iff]
    have beside : List.Forall₂ (fun member member' => member.same member' = true) middle members' :=
      forall₂_of_zip length fun pair beside =>
        have first := perm.mem_iff.mpr (List.of_mem_zip beside).1
        have second := (List.of_mem_zip beside).2
        ih pair beside (made.1.frozen _ first) (made'.1.frozen _ second) (made.2 _ first)
          (made'.2 _ second)
    exact fun member listed => exists_mem_of_forall₂ beside member (perm.mem_iff.mp listed)
  | dict => cases frozen
  | document => cases frozen

/-- Sets whose members match where they are equal match as a whole: no two members equal the same one. -/
theorem rearranged_of_within {α : Type} {own : α → Value} {relation : α → α → Prop} {xs ys : List α}
    (length : xs.length = ys.length)
    (within : ∀ x ∈ xs, ∃ y ∈ ys, (own x).same (own y) = true ∧ relation x y) (apart : Apart (xs.map own))
    (made : ∀ x ∈ xs, ∀ part, Occurs part (own x) → part.Made settings)
    (matched : ∀ x ∈ xs, ∀ y ∈ ys, (own x).same (own y) = true → Matched (own x) (own y)) :
    Rearranged (fun x y => (own x).same (own y) = true ∧ relation x y) xs ys := by
  refine .of_injective length within ?_
  refine (List.pairwise_map.mp apart.differ).imp_of_mem fun {x x'} member member' differ y listed here there => ?_
  have first := matched x member y listed here.1
  have second := matched x' member' y listed there.1
  have same := (first.trans second.symm).same (apart.frozen _ (List.mem_map_of_mem member))
    (apart.frozen _ (List.mem_map_of_mem member')) (made x member) (made x' member')
  rw [differ] at same
  cases same

/-- Equal values match if the numbers and moments that stand beside each other are the same. -/
theorem matched_of_alike {value other : Value} {asObject : Bool} (equal : value.alike asObject other = true)
    (made : ∀ part, Occurs part value → part.Made settings)
    (made' : ∀ part, Occurs part other → part.Made settings)
    (identical : ∀ part part', Beside part part' value other → part.isMeasured = true → part = part') :
    Matched value other := by
  induction value generalizing other asObject with
  | scalar value =>
    cases other with
    | scalar value' =>
      cases measured : value.isMeasured with
      | true => exact identical _ _ .here measured ▸ .scalar value
      | false =>
        rw [alike] at equal
        exact Scalar.eq_of_alike measured equal ▸ .scalar value
    | _ => simp [alike] at equal
  | member enumeration name value =>
    cases other with
    | member enumeration' name' value' =>
      simp only [alike, Bool.and_eq_true, beq_iff_eq] at equal
      obtain ⟨rfl, rfl⟩ := equal
      exact .member ..
    | _ => simp [alike] at equal
  | seq kind items ih =>
    cases other with
    | seq kind' items' =>
      rw [forall_occurs_seq] at made made'
      rw [alike, Bool.and_eq_true, itemsAlike_iff] at equal
      exact .seq equal.2.length_eq fun pair beside =>
        ih pair.1 (List.of_mem_zip beside).1 (forall_zip_of_forall₂ equal.2 pair beside)
          (made.2 _ (List.of_mem_zip beside).1) (made'.2 _ (List.of_mem_zip beside).2)
          fun part part' deeper => identical part part' (.item beside deeper)
    | _ => simp [alike] at equal
  | set kind members ih =>
    cases other with
    | set kind' members' =>
      rw [forall_occurs_set] at made made'
      rw [alike, Bool.and_eq_true, beq_iff_eq, membersWithin_iff] at equal
      obtain ⟨length, within⟩ := equal
      have matched : ∀ member ∈ members, ∀ member' ∈ members', member.same member' = true →
          Matched member member' := fun member listed member' listed' same =>
        ih member listed same (made.2 member listed) (made'.2 member' listed') fun part part' deeper =>
          identical part part' (.member listed listed' same deeper)
      have apart : Apart (members.map fun member => member) := (List.map_id' members).symm ▸ made.1
      have arranged : Rearranged (fun member member' => member.same member' = true ∧ True) members members' :=
        rearranged_of_within length (by simpa only [and_true, Value.same] using within) apart made.2 matched
      exact .of_members (arranged.imp_of_mem fun member listed member' listed' both =>
        matched member listed member' listed' both.1) _ _
    | _ => simp [alike] at equal
  | dict kind entries ihKeys ihValues =>
    cases other with
    | dict kind' entries' =>
      rw [forall_occurs_dict] at made made'
      rw [alike, Bool.and_eq_true, beq_iff_eq, entriesWithin_iff] at equal
      obtain ⟨length, within⟩ := equal
      have matched : ∀ entry ∈ entries, ∀ entry' ∈ entries', entry.1.same entry'.1 = true →
          Matched entry.1 entry'.1 := fun entry listed entry' listed' same =>
        ihKeys entry listed same (made.2.1 entry listed) (made'.2.1 entry' listed') fun part part' deeper =>
          identical part part' (.key listed listed' same deeper)
      have arranged := rearranged_of_within length within made.1 made.2.1 matched
      refine .of_entries (arranged.imp_of_mem fun entry listed entry' listed' both => ?_) _ _
      refine ⟨matched entry listed entry' listed' both.1, ?_⟩
      exact ihValues entry listed both.2 (made.2.2 entry listed) (made'.2.2 entry' listed')
        fun part part' deeper => identical part part' (.entry listed listed' both.1 deeper)
    | _ => simp [alike] at equal
  | document type slots ih =>
    cases other with
    | document type' slots' =>
      rw [forall_occurs_document] at made made'
      rw [alike, Bool.and_eq_true, beq_iff_eq, slotsAlike_iff] at equal
      obtain ⟨rfl, slotsEqual⟩ := equal
      refine .document (made.1.trans made'.1.symm) fun pair beside => ?_
      exact ih pair.1 (List.of_mem_zip beside).1 (forall_zip_of_forall₂ slotsEqual pair beside)
        (made.2 _ (List.of_mem_zip beside).1) (made'.2 _ (List.of_mem_zip beside).2)
        fun part part' deeper => identical part part' (.slot beside deeper)
    | _ => simp [alike] at equal

end made

end Value

end LayeredConfig
