import LayeredConfig.Proofs.Value.Sameness

/-!
Equality as it is decided between two operands: the class of the left one is asked, and where it leaves the
question open that of the right one. Native classes know each other only, the concurrent ones know the native
ones too. On values without tuples this comes to the equality of values, at any mixture of the classes.
-/

namespace LayeredConfig

/-- Whether the class of a sequence compares itself with that of another one. -/
def SeqKind.answers : SeqKind → SeqKind → Bool
  | .concurrent, _ => true
  | kind, kind' => kind == kind'

def SetKind.answers : SetKind → SetKind → Bool
  | .concurrent, _ => true
  | _, kind => kind != .concurrent

def DictKind.answers : DictKind → DictKind → Bool
  | .concurrent, _ => true
  | .plain, kind => kind == .plain

/-- The native class that stands for a concurrent one. -/
def SeqKind.native : SeqKind → SeqKind
  | .concurrent => .list
  | kind => kind

def SetKind.native : SetKind → SetKind
  | .concurrent => .plain
  | kind => kind

theorem SeqKind.comparable_comm (kind kind' : SeqKind) : kind.comparable kind' = kind'.comparable kind := by
  cases kind <;> cases kind' <;> rfl

theorem SeqKind.comparable_of_not_tuple {kind kind' : SeqKind} (list : kind ≠ .tuple) (list' : kind' ≠ .tuple) :
    kind.comparable kind' = true := by
  cases kind <;> cases kind' <;> simp_all [SeqKind.comparable]

/-- The question stays open between a list and a tuple only. -/
theorem SeqKind.answers_or (kind kind' : SeqKind) :
    (kind.answers kind' || kind'.answers kind) = kind.comparable kind' := by
  cases kind <;> cases kind' <;> rfl

theorem SetKind.answers_or (kind kind' : SetKind) : (kind.answers kind' || kind'.answers kind) = true := by
  cases kind <;> cases kind' <;> rfl

theorem DictKind.answers_or (kind kind' : DictKind) : (kind.answers kind' || kind'.answers kind) = true := by
  cases kind <;> cases kind' <;> rfl

namespace Value

mutual

/-- Equality as it is decided: the left value is asked, then the right one. If neither answers, they differ. -/
def equals (a b : Value) : Bool :=
  ((answer a b).or (answer b a)).getD false
termination_by (sizeOf a + sizeOf b, 1)
decreasing_by all_goals omega

/-- What the class of a value answers about another one. A set or a dictionary is searched for what the other
one has; what is found is then the left operand. -/
def answer : Value → Value → Option Bool
  | .scalar a, .scalar b => some (a.alike false b)
  | .member e name _, .member e' name' _ => if e == e' && name == name' then some true else none
  | .seq kind items, .seq kind' others =>
    if kind.answers kind' then some (itemsEqual items others) else none
  | .set kind members, .set kind' others =>
    if kind.answers kind' then some (members.length == others.length && membersFound members others) else none
  | .dict kind entries, .dict kind' others =>
    if kind.answers kind' then some (entries.length == others.length && entriesFound entries others) else none
  | _, _ => none
termination_by a b => (sizeOf a + sizeOf b, 0)

def itemsEqual : List Value → List Value → Bool
  | [], [] => true
  | item :: items, other :: others => equals item other && itemsEqual items others
  | _, _ => false
termination_by items others => (sizeOf items + sizeOf others, 0)

def membersFound : List Value → List Value → Bool
  | [], _ => true
  | value :: members, others => memberFound value others && membersFound members others
termination_by members others => (sizeOf members + sizeOf others, 1)

def memberFound (value : Value) : List Value → Bool
  | [] => false
  | other :: others => equals other value || memberFound value others
termination_by others => (sizeOf value + sizeOf others, 0)

def entriesFound : List (Value × Value) → List (Value × Value) → Bool
  | [], _ => true
  | (key, value) :: entries, others => entryFound key value others && entriesFound entries others
termination_by entries others => (sizeOf entries + sizeOf others, 1)

/-- The value of the first equal key counts. -/
def entryFound (key value : Value) : List (Value × Value) → Bool
  | [] => false
  | (key', value') :: others =>
    if equals key' key then equals value' value else entryFound key value others
termination_by others => (sizeOf key + sizeOf value + sizeOf others, 0)

end

/-- What is decided when the operands are asked whether they differ: the classes answer the opposite. -/
def differs (a b : Value) : Bool :=
  (((answer a b).map not).or ((answer b a).map not)).getD true

theorem differs_eq (a b : Value) : a.differs b = !a.equals b := by
  rw [differs, equals]
  cases answer a b with
  | some answer => rfl
  | none => cases answer b a <;> rfl

mutual

/-- A value with the native class in place of each concurrent one. -/
def strip : Value → Value
  | .scalar value => .scalar value
  | .member enumeration name value => .member enumeration name value
  | .seq kind items => .seq kind.native (stripAll items)
  | .set kind members => .set kind.native (stripAll members)
  | .dict _ entries => .dict .plain (stripEntries entries)
  | .document type slots => .document type (stripSlots slots)

def stripAll : List Value → List Value
  | [] => []
  | value :: values => value.strip :: stripAll values

def stripEntries : List (Value × Value) → List (Value × Value)
  | [] => []
  | (key, value) :: entries => (key.strip, value.strip) :: stripEntries entries

def stripSlots : List (Slot Value) → List (Slot Value)
  | [] => []
  | ⟨name, explicit, value⟩ :: slots => ⟨name, explicit, value.strip⟩ :: stripSlots slots

end

theorem stripAll_eq (values : List Value) : stripAll values = values.map strip := by
  induction values with
  | nil => rfl
  | cons value values ih => rw [stripAll, ih, List.map_cons]

theorem stripEntries_eq (entries : List (Value × Value)) :
    stripEntries entries = entries.map fun entry => (entry.1.strip, entry.2.strip) := by
  induction entries with
  | nil => rfl
  | cons entry entries ih => rw [stripEntries, ih, List.map_cons]

theorem IsKey.strip_eq {value : Value} (key : value.IsKey) : value.strip = value := by
  induction value with
  | scalar value => rw [strip]
  | member enumeration name value => rw [strip]
  | seq kind items ih =>
    obtain rfl : kind = .tuple := by
      cases kind with
      | tuple => rfl
      | _ => cases key.hashable
    rw [strip, stripAll_eq, List.map_congr_left fun item listed => ih item listed (key.item item listed),
      List.map_id']
    rfl
  | set kind members ih =>
    obtain rfl : kind = .frozen := eq_of_beq key.hashable
    rw [strip, stripAll_eq, List.map_congr_left fun member listed => ih member listed (key.member member listed),
      List.map_id']
    rfl
  | dict kind entries _ _ => cases key.hashable
  | document type slots _ => cases key.hashable

/-- A part of what is compared: a number is one, sequences are lists, members and keys are such. -/
def IsComparable : Value → Prop
  | .scalar value => value.isNotANumber = false
  | .member _ _ _ => True
  | .seq kind _ => kind ≠ .tuple
  | .set _ members => Apart members
  | .dict _ entries => Apart (entries.map (·.1))
  | .document _ _ => False

instance : DecidablePred IsComparable
  | .scalar value => inferInstanceAs (Decidable (value.isNotANumber = false))
  | .member _ _ _ => isTrue trivial
  | .seq kind _ => inferInstanceAs (Decidable (kind ≠ .tuple))
  | .set _ members => inferInstanceAs (Decidable (Apart members))
  | .dict _ entries => inferInstanceAs (Decidable (Apart (entries.map (·.1))))
  | .document _ _ => isFalse id

/-- All parts of a value are comparable: there is no tuple in it, no document and nothing that is not a number. -/
def Comparable (value : Value) : Prop :=
  ∀ part, Occurs part value → part.IsComparable

instance {value : Value} : Decidable value.Comparable :=
  inferInstanceAs (Decidable (∀ part, Occurs part value → part.IsComparable))

theorem IsComparable.toldApart {value : Value} (comparable : value.IsComparable) : value.IsToldApart := by
  cases value with
  | set kind members => exact comparable
  | _ => trivial

namespace Comparable

variable {seq : SeqKind} {items : List Value} {set : SetKind} {members : List Value} {dict : DictKind}
  {entries : List (Value × Value)}

theorem isKey {value : Value} (comparable : value.Comparable) (frozen : value.hashable = true) : value.IsKey :=
  ⟨frozen, fun part occurs => (comparable part occurs).toldApart⟩

theorem item (comparable : (Value.seq seq items).Comparable) : ∀ item ∈ items, item.Comparable :=
  (forall_occurs_seq.mp comparable).2

theorem member (comparable : (Value.set set members).Comparable) : ∀ member ∈ members, member.Comparable :=
  (forall_occurs_set.mp comparable).2

theorem isKey_member (comparable : (Value.set set members).Comparable) : ∀ member ∈ members, member.IsKey :=
  fun member listed => (comparable.member member listed).isKey
    ((forall_occurs_set.mp comparable).1.frozen member listed)

theorem frozen (comparable : (Value.set set members).Comparable) : (Value.set .frozen members).IsKey :=
  ⟨rfl, forall_occurs_set.mpr ⟨(forall_occurs_set.mp comparable).1,
    fun member listed => (comparable.isKey_member member listed).sets⟩⟩

theorem key (comparable : (Value.dict dict entries).Comparable) : ∀ entry ∈ entries, entry.1.Comparable :=
  (forall_occurs_dict.mp comparable).2.1

theorem value (comparable : (Value.dict dict entries).Comparable) : ∀ entry ∈ entries, entry.2.Comparable :=
  (forall_occurs_dict.mp comparable).2.2

theorem isKey_key (comparable : (Value.dict dict entries).Comparable) : ∀ entry ∈ entries, entry.1.IsKey :=
  fun entry listed => (comparable.key entry listed).isKey
    ((forall_occurs_dict.mp comparable).1.frozen _ (List.mem_map_of_mem listed))

theorem distinct (comparable : (Value.dict dict entries).Comparable) :
    Members.Distinct same IsKey (entries.map (·.1)) :=
  ⟨List.forall_mem_map.mpr comparable.isKey_key, (forall_occurs_dict.mp comparable).1.differ⟩

/-- As parts of containers such values compare as they do by themselves. -/
theorem eqv_eq {a : Value} (comparable : a.Comparable) (b : Value) : a.eqv b = a.same b := by
  unfold eqv same
  cases a with
  | scalar value =>
    have number : value.isNotANumber = false := comparable _ .here
    cases b with
    | scalar value' => simp [alike, Scalar.alike, number]
    | _ => simp [alike]
  | document type slots => exact (comparable _ .here).elim
  | _ => cases b <;> simp [alike]

end Comparable

/-- Sets compare by their members, whatever their kinds. -/
theorem alike_set_frozen (asObject : Bool) (kind kind' : SetKind) (members others : List Value) :
    alike asObject (.set kind members) (.set kind' others) =
      alike asObject (.set .frozen members) (.set .frozen others) := by
  rw [alike, alike]

/-- Equality of comparable values does not depend on the order of the two. -/
theorem Comparable.same_symm {a b : Value} (first : a.Comparable) (second : b.Comparable)
    (equal : a.same b = true) : b.same a = true := by
  unfold same at equal ⊢
  induction a generalizing b with
  | scalar value => cases b <;> simp_all [alike, Scalar.alike]
  | member enumeration name value => cases b <;> simp_all [alike]
  | seq kind items ih =>
    cases b with
    | seq kind' others =>
      rw [alike, Bool.and_eq_true, itemsAlike_iff] at equal ⊢
      refine ⟨kind'.comparable_comm kind ▸ equal.1, (forall₂_imp_of_mem equal.2 fun x here y there => ?_).flip⟩
      exact ih x here (first.item x here) (second.item y there)
    | _ => simp [alike] at equal
  | set kind members ih =>
    cases b with
    | set kind' others =>
      rw [alike_set_frozen] at equal ⊢
      exact Value.same_symm first.frozen second.frozen equal
    | _ => simp [alike] at equal
  | dict kind entries _ ih =>
    cases b with
    | dict kind' others =>
      rw [alike, Bool.and_eq_true, beq_iff_eq, entriesWithin_iff] at equal ⊢
      -- no two keys are found under the same one, so the entries of the two correspond
      have apart : entries.Pairwise fun e e' => ∀ o ∈ others,
          e.1.alike true o.1 = true ∧ e.2.alike true o.2 = true →
          ¬ (e'.1.alike true o.1 = true ∧ e'.2.alike true o.2 = true) := by
        refine (List.pairwise_map.mp (forall_occurs_dict.mp first).1.differ).imp_of_mem ?_
        intro e e' listed listed' differ o here same same'
        have known := second.isKey_key o here
        have back := Value.same_symm (first.isKey_key e' listed') known same'.1
        rw [same_trans known same.1 back] at differ
        cases differ
      obtain ⟨middle, perm, beside⟩ := Rearranged.of_injective equal.1 equal.2 apart
      refine ⟨equal.1.symm, fun o here => ?_⟩
      obtain ⟨e, there, same⟩ := exists_mem_of_forall₂ beside.flip o here
      have listed := perm.mem_iff.mpr there
      exact ⟨e, listed, Value.same_symm (first.isKey_key e listed) (second.isKey_key o here) same.1,
        ih e listed (first.value e listed) (second.value o here) same.2⟩
    | _ => simp [alike] at equal
  | document type slots ih => exact (first _ .here).elim

theorem Comparable.same_comm {a b : Value} (first : a.Comparable) (second : b.Comparable) :
    a.same b = b.same a :=
  Bool.eq_iff_iff.mpr ⟨first.same_symm second, second.same_symm first⟩

/-- Whatever equals the same comparable value is equal. -/
theorem Comparable.same_trans {a b c : Value} (first : a.Comparable) (second : b.Comparable) (third : c.Comparable)
    (equal : a.same b = true) (equal' : b.same c = true) : a.same c = true := by
  unfold same at equal equal' ⊢
  induction b generalizing a c with
  | scalar value => cases a <;> cases c <;> simp_all [alike, Scalar.alike]
  | member enumeration name value => cases a <;> cases c <;> simp_all [alike]
  | seq kind items ih =>
    cases a with
    | seq left xs =>
      cases c with
      | seq right zs =>
        rw [alike, Bool.and_eq_true, itemsAlike_iff] at equal equal' ⊢
        refine ⟨SeqKind.comparable_of_not_tuple (first _ .here) (third _ .here), ?_⟩
        have known := forall₂_imp_of_mem equal.2 fun x here y middle same =>
          And.intro (first.item x here) (And.intro middle same)
        have known' := forall₂_imp_of_mem equal'.2 fun y _ z here same => And.intro (third.item z here) same
        refine forall₂_trans known known' ?_
        rintro x y z ⟨own, middle, same⟩ ⟨own', same'⟩
        exact ih y middle own (second.item y middle) own' same same'
      | _ => simp [alike] at equal'
    | _ => simp [alike] at equal
  | set kind members ih =>
    cases a with
    | set left xs =>
      cases c with
      | set right zs =>
        rw [alike_set_frozen] at equal equal' ⊢
        exact Value.same_trans second.frozen equal equal'
      | _ => simp [alike] at equal'
    | _ => simp [alike] at equal
  | dict kind entries _ ih =>
    cases a with
    | dict left es =>
      cases c with
      | dict right es' =>
        rw [alike, Bool.and_eq_true, beq_iff_eq, entriesWithin_iff] at equal equal' ⊢
        refine ⟨equal.1.trans equal'.1, fun e listed => ?_⟩
        obtain ⟨o, here, same⟩ := equal.2 e listed
        obtain ⟨e', there, same'⟩ := equal'.2 o here
        exact ⟨e', there, Value.same_trans (second.isKey_key o here) same.1 same'.1,
          ih o here (first.value e listed) (second.value o here) (third.value e' there) same.2 same'.2⟩
      | _ => simp [alike] at equal'
    | _ => simp [alike] at equal
  | document type slots ih => exact (second _ .here).elim

theorem Comparable.strip_members {kind : SetKind} {members : List Value}
    (comparable : (Value.set kind members).Comparable) : stripAll members = members := by
  rw [stripAll_eq, List.map_congr_left fun member listed => (comparable.isKey_member member listed).strip_eq,
    List.map_id']

theorem Comparable.strip_entries {kind : DictKind} {entries : List (Value × Value)}
    (comparable : (Value.dict kind entries).Comparable) :
    stripEntries entries = entries.map fun entry => (entry.1, entry.2.strip) := by
  rw [stripEntries_eq]
  refine List.map_congr_left fun entry listed => ?_
  rw [(comparable.isKey_key entry listed).strip_eq]

theorem Comparable.strip {value : Value} (comparable : value.Comparable) : value.strip.Comparable := by
  induction value with
  | scalar value => rwa [Value.strip]
  | member enumeration name value => rwa [Value.strip]
  | seq kind items ih =>
    rw [Value.strip, stripAll_eq]
    refine forall_occurs_seq.mpr ⟨?_, List.forall_mem_map.mpr fun item listed => ?_⟩
    · have list : kind ≠ .tuple := comparable _ .here
      cases kind <;> simp_all [IsComparable, SeqKind.native]
    · exact ih item listed (comparable.item item listed)
  | set kind members ih =>
    rw [Value.strip, comparable.strip_members]
    obtain ⟨apart, parts⟩ := forall_occurs_set.mp comparable
    exact forall_occurs_set.mpr ⟨apart, parts⟩
  | dict kind entries _ ih =>
    rw [Value.strip, comparable.strip_entries]
    refine forall_occurs_dict.mpr ⟨?_, List.forall_mem_map.mpr comparable.key, List.forall_mem_map.mpr ?_⟩
    · have apart : Apart (entries.map (·.1)) := comparable _ .here
      rwa [IsComparable, List.map_map]
    · exact fun entry listed => ih entry listed (comparable.value entry listed)
  | document type slots ih => exact (comparable _ .here).elim

/-- The classes of containers do not matter to equality where there are no tuples. -/
theorem Comparable.same_strip {a b : Value} (first : a.Comparable) (second : b.Comparable) :
    a.strip.same b.strip = a.same b := by
  unfold same
  induction a generalizing b with
  | scalar value => cases b <;> simp [Value.strip, alike]
  | member enumeration name value => cases b <;> simp [Value.strip, alike]
  | seq kind items ih =>
    cases b with
    | seq kind' others =>
      have list : kind ≠ .tuple := first _ .here
      have list' : kind' ≠ .tuple := second _ .here
      have native : kind.native.comparable kind'.native = kind.comparable kind' := by
        cases kind <;> cases kind' <;> first | rfl | exact absurd rfl list | exact absurd rfl list'
      rw [Value.strip, Value.strip, alike, alike, native, stripAll_eq, stripAll_eq]
      refine congrArg _ (Bool.eq_iff_iff.mpr ?_)
      rw [itemsAlike_iff, itemsAlike_iff, List.forall₂_map_left_iff, List.forall₂_map_right_iff]
      constructor
      · exact fun equal => forall₂_imp_of_mem equal fun x here y there same =>
          (ih x here (first.item x here) (second.item y there)).symm.trans same
      · exact fun equal => forall₂_imp_of_mem equal fun x here y there same =>
          (ih x here (first.item x here) (second.item y there)).trans same
    | _ => simp [Value.strip, alike]
  | set kind members ih =>
    cases b with
    | set kind' others =>
      rw [Value.strip, Value.strip, first.strip_members, second.strip_members, alike, alike]
    | _ => simp [Value.strip, alike]
  | dict kind entries _ ih =>
    cases b with
    | dict kind' others =>
      rw [Value.strip, Value.strip, first.strip_entries, second.strip_entries, alike, alike, List.length_map,
        List.length_map]
      refine congrArg _ (Bool.eq_iff_iff.mpr ?_)
      rw [entriesWithin_iff, entriesWithin_iff, List.forall_mem_map]
      refine forall₂_congr fun entry listed => ?_
      simp only [List.mem_map, exists_exists_and_eq_and]
      refine exists_congr fun other => and_congr_right fun there => ?_
      rw [ih entry listed (first.value entry listed) (second.value other there)]
    | _ => simp [Value.strip, alike]
  | document type slots ih => exact (first _ .here).elim

theorem itemsEqual_iff {items others : List Value} :
    itemsEqual items others = true ↔ List.Forall₂ (fun x y => x.equals y = true) items others := by
  induction items generalizing others with
  | nil => cases others <;> simp [itemsEqual]
  | cons item items ih => cases others <;> simp [itemsEqual, ih]

theorem memberFound_iff {value : Value} {others : List Value} :
    memberFound value others = true ↔ ∃ other ∈ others, other.equals value = true := by
  induction others with
  | nil => simp [memberFound]
  | cons other others ih => simp [memberFound, ih]

theorem membersFound_iff {members others : List Value} :
    membersFound members others = true ↔ ∀ x ∈ members, ∃ y ∈ others, y.equals x = true := by
  induction members with
  | nil => simp [membersFound]
  | cons value members ih => simp [membersFound, memberFound_iff, ih]

theorem find?_congr {eq eq' : Value → Value → Bool} {key : Value} {entries : List (Value × α)}
    (agree : ∀ entry ∈ entries, eq entry.1 key = eq' entry.1 key) :
    Entries.find? eq key entries = Entries.find? eq' key entries := by
  induction entries with
  | nil => rfl
  | cons entry entries ih =>
    obtain ⟨here, later⟩ := List.forall_mem_cons.mp agree
    rw [Entries.find?, Entries.find?, here, ih later]

theorem entryFound_iff {key value : Value} {others : List (Value × Value)} :
    entryFound key value others = true ↔
      ∃ found, Entries.find? equals key others = some found ∧ found.equals value = true := by
  induction others with
  | nil => simp [entryFound, Entries.find?]
  | cons other others ih =>
    rw [entryFound, Entries.find?]
    split
    · simp
    · exact ih

theorem entriesFound_iff {entries others : List (Value × Value)} :
    entriesFound entries others = true ↔ ∀ entry ∈ entries, entryFound entry.1 entry.2 others = true := by
  induction entries with
  | nil => simp [entriesFound]
  | cons entry entries ih =>
    obtain ⟨key, value⟩ := entry
    rw [entriesFound, Bool.and_eq_true, ih, List.forall_mem_cons]

/-- The equality of two values is decided as that of parts, from both sides. -/
structure Agree (a b : Value) : Prop where
  left : a.equals b = a.same b
  right : b.equals a = b.same a

/-- It is if every answer is that equality and where there is none the values differ. -/
theorem Agree.of_answers {a b : Value} (comm : a.same b = b.same a)
    (left : ∀ result, answer a b = some result → result = a.same b)
    (right : ∀ result, answer b a = some result → result = b.same a)
    (silent : answer a b = none → answer b a = none → a.same b = false) : Agree a b := by
  suffices decided : a.equals b = a.same b ∧ b.equals a = b.same a from ⟨decided.1, decided.2⟩
  unfold equals
  cases here : answer a b with
  | some result =>
    cases there : answer b a with
    | some result' => exact ⟨left _ here, right _ there⟩
    | none => exact ⟨left _ here, (left _ here).trans comm⟩
  | none =>
    cases there : answer b a with
    | some result' => exact ⟨(right _ there).trans comm.symm, right _ there⟩
    | none => exact ⟨(silent here there).symm, (comm.symm.trans (silent here there)).symm⟩

/-- Where one of two classes compares itself with the other, what it answers counts. -/
theorem Agree.of_asked {a b : Value} {asked asked' result result' : Bool}
    (answered : answer a b = if asked then some result else none)
    (answered' : answer b a = if asked' then some result' else none)
    (either : (asked || asked') = true) (comm : a.same b = b.same a)
    (left : result = a.same b) (right : result' = b.same a) : Agree a b := by
  refine .of_answers comm ?_ ?_ ?_
  · intro given own
    rw [answered] at own
    split at own
    · exact Option.some.inj own ▸ left
    · cases own
  · intro given own
    rw [answered'] at own
    split at own
    · exact Option.some.inj own ▸ right
    · cases own
  · intro silent silent'
    rw [answered] at silent
    rw [answered'] at silent'
    cases asked <;> cases asked' <;> simp_all

theorem same_of_sorts {a b : Value} (differ : a.ctorIdx ≠ b.ctorIdx) : a.same b = false := by
  cases a <;> cases b <;> first | exact absurd rfl differ | simp [same, alike]

theorem answer_of_sorts {a b : Value} (differ : a.ctorIdx ≠ b.ctorIdx) : answer a b = none := by
  cases a <;> cases b <;> first | exact absurd rfl differ | simp [answer]

theorem Agree.of_sorts {a b : Value} (differ : a.ctorIdx ≠ b.ctorIdx) : Agree a b := by
  have unlike := same_of_sorts differ
  refine .of_answers (unlike.trans (same_of_sorts differ.symm).symm) ?_ ?_ fun _ _ => unlike
  · intro result own
    rw [answer_of_sorts differ] at own
    cases own
  · intro result own
    rw [answer_of_sorts differ.symm] at own
    cases own

theorem itemsEqual_eq {items others : List Value}
    (agree : ∀ x ∈ items, ∀ y ∈ others, x.equals y = x.same y) : itemsEqual items others = itemsAlike items others := by
  rw [Bool.eq_iff_iff, itemsEqual_iff, itemsAlike_iff]
  constructor
  · exact fun equal => forall₂_imp_of_mem equal fun x here y there same => (agree x here y there).symm.trans same
  · exact fun equal => forall₂_imp_of_mem equal fun x here y there same => (agree x here y there).trans same

theorem membersFound_eq {members others : List Value}
    (agree : ∀ x ∈ members, ∀ y ∈ others, y.equals x = x.same y) :
    membersFound members others = membersWithin members others := by
  rw [Bool.eq_iff_iff, membersFound_iff, membersWithin_iff]
  refine forall₂_congr fun x here => exists_congr fun y => and_congr_right fun there => ?_
  rw [agree x here y there, same]

/-- Where no two keys are equal, an entry has an equal one if and only if one is found under its key. -/
theorem exists_entry_iff {entry : Value × Value} {others : List (Value × Value)} (key : entry.1.IsKey)
    (distinct : Members.Distinct same IsKey (others.map (·.1))) :
    (∃ other ∈ others, entry.1.same other.1 = true ∧ entry.2.same other.2 = true) ↔
      ∃ found, Entries.find? same entry.1 others = some found ∧ entry.2.same found = true := by
  constructor
  · rintro ⟨other, there, sameKey, sameValue⟩
    have back := Value.same_symm key (distinct.each _ (List.mem_map_of_mem there)) sameKey
    exact ⟨other.2, Entries.find?_of_same equality_same distinct there key back, sameValue⟩
  · rintro ⟨found, sought, sameValue⟩
    have among : Members.Among same (others.map (·.1)) entry.1 := by
      by_contra absent
      rw [Entries.find?_eq_none_iff.mpr absent] at sought
      cases sought
    obtain ⟨_, listed, back⟩ := among
    obtain ⟨other, there, rfl⟩ := List.mem_map.mp listed
    rw [Entries.find?_of_same equality_same distinct there key back] at sought
    exact ⟨other, there, Value.same_symm (distinct.each _ listed) key back, Option.some.inj sought ▸ sameValue⟩

theorem entriesFound_eq {entries others : List (Value × Value)}
    (keys : ∀ entry ∈ entries, entry.1.IsKey) (distinct : Members.Distinct same IsKey (others.map (·.1)))
    (agreeKeys : ∀ e ∈ entries, ∀ o ∈ others, o.1.equals e.1 = o.1.same e.1)
    (agree : ∀ e ∈ entries, ∀ o ∈ others, o.2.equals e.2 = e.2.same o.2) :
    entriesFound entries others = entriesWithin entries others := by
  rw [Bool.eq_iff_iff, entriesFound_iff, entriesWithin_iff]
  refine forall₂_congr fun e here => ?_
  rw [entryFound_iff, find?_congr (agreeKeys e here)]
  refine Iff.trans (exists_congr fun found => and_congr_right fun sought => ?_)
    (exists_entry_iff (keys e here) distinct).symm
  obtain ⟨o, there, rfl⟩ := Entries.mem_of_find? sought
  rw [agree e here o there]

/-- Equality is decided as that of parts: what is asked of a part of one value is asked of one of the other. -/
theorem Comparable.agree {a b : Value} (first : a.Comparable) (second : b.Comparable) : Agree a b := by
  have comm := first.same_comm second
  induction a generalizing b with
  | scalar value =>
    cases b with
    | scalar value' =>
      have number : value.alike false value' = (Value.scalar value).same (.scalar value') := by
        rw [← first.eqv_eq, eqv, alike]
      have number' : value'.alike false value = (Value.scalar value').same (.scalar value) := by
        rw [← second.eqv_eq, eqv, alike]
      refine .of_answers comm ?_ ?_ ?_
      · intro result own
        rw [answer] at own
        exact (Option.some.inj own).symm.trans number
      · intro result own
        rw [answer] at own
        exact (Option.some.inj own).symm.trans number'
      · intro silent _
        rw [answer] at silent
        cases silent
    | _ => exact .of_sorts (by simp [Value.ctorIdx])
  | member enumeration name value =>
    cases b with
    | member enumeration' name' value' =>
      refine .of_answers comm ?_ ?_ ?_ <;> simp_all [answer, same, alike]
    | _ => exact .of_sorts (by simp [Value.ctorIdx])
  | seq kind items ih =>
    cases b with
    | seq kind' others =>
      have agree (x) (here : x ∈ items) (y) (there : y ∈ others) : Agree x y :=
        have own := first.item x here
        have own' := second.item y there
        ih x here own own' (own.same_comm own')
      have lists := SeqKind.comparable_of_not_tuple (first _ .here) (second _ .here)
      have lists' := SeqKind.comparable_of_not_tuple (second _ .here) (first _ .here)
      refine .of_asked (by rw [answer]) (by rw [answer]) ((kind.answers_or kind').trans lists) comm ?_ ?_
      · rw [same, alike, lists, Bool.true_and, itemsEqual_eq fun x here y there => (agree x here y there).left]
      · rw [same, alike, lists', Bool.true_and, itemsEqual_eq fun y there x here => (agree x here y there).right]
    | _ => exact .of_sorts (by simp [Value.ctorIdx])
  | set kind members ih =>
    cases b with
    | set kind' others =>
      have agree (x) (here : x ∈ members) (y) (there : y ∈ others) : Agree x y ∧ x.same y = y.same x :=
        have own := first.member x here
        have own' := second.member y there
        ⟨ih x here own own' (own.same_comm own'), own.same_comm own'⟩
      refine .of_asked (by rw [answer]) (by rw [answer]) (kind.answers_or kind') comm ?_ ?_
      · rw [same, alike, membersFound_eq fun x here y there =>
          (agree x here y there).1.right.trans (agree x here y there).2.symm]
      · rw [same, alike, membersFound_eq fun y there x here =>
          (agree x here y there).1.left.trans (agree x here y there).2]
    | _ => exact .of_sorts (by simp [Value.ctorIdx])
  | dict kind entries ihKeys ihValues =>
    cases b with
    | dict kind' others =>
      have agreeKeys (e) (here : e ∈ entries) (o) (there : o ∈ others) : Agree e.1 o.1 :=
        have own := first.key e here
        have own' := second.key o there
        ihKeys e here own own' (own.same_comm own')
      have agreeValues (e) (here : e ∈ entries) (o) (there : o ∈ others) :
          Agree e.2 o.2 ∧ e.2.same o.2 = o.2.same e.2 :=
        have own := first.value e here
        have own' := second.value o there
        ⟨ihValues e here own own' (own.same_comm own'), own.same_comm own'⟩
      refine .of_asked (by rw [answer]) (by rw [answer]) (kind.answers_or kind') comm ?_ ?_
      · rw [same, alike, entriesFound_eq first.isKey_key second.distinct
          (fun e here o there => (agreeKeys e here o there).right)
          fun e here o there => (agreeValues e here o there).1.right.trans (agreeValues e here o there).2.symm]
      · rw [same, alike, entriesFound_eq second.isKey_key first.distinct
          (fun o there e here => (agreeKeys e here o there).left)
          fun o there e here => (agreeValues e here o there).1.left.trans (agreeValues e here o there).2]
    | _ => exact .of_sorts (by simp [Value.ctorIdx])
  | document type slots ih => exact (first _ .here).elim

theorem Comparable.equals_eq {a b : Value} (first : a.Comparable) (second : b.Comparable) :
    a.equals b = a.same b :=
  (first.agree second).left

theorem Comparable.of_answer {a b : Value} {result : Bool} (first : a.Comparable) (second : b.Comparable)
    (answered : a.answer b = some result) : result = a.same b := by
  rw [← first.equals_eq second, equals, answered, Option.some_or, Option.getD_some]

theorem Comparable.same_self {a : Value} (comparable : a.Comparable) : a.same a = true := by
  refine alike_self (fun part occurs => ?_) true
  cases part with
  | scalar value => exact comparable _ occurs
  | _ => rfl

end Value

end LayeredConfig
