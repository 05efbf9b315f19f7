import LayeredConfig.Proofs.Decode.Genuine
import LayeredConfig.Proofs.Decode.Steps
import LayeredConfig.Proofs.Value.Plainness
import LayeredConfig.Proofs.Value.Trees
import Mathlib.Data.List.Nodup

namespace LayeredConfig

/-- What can be a member of a set or a key has no parts. -/
theorem Genuine.isAtom (genuine : value.isNull = false → Genuine shape value)
    (frozen : value.hashable = true) : value.isAtom = true := by
  cases null : value.isNull with
  | true => rw [Value.eq_null_of_isNull null]; rfl
  | false => cases genuine null <;> first | rfl | cases frozen

theorem Genuine.exists_scalar (genuine : value.isNull = false → Genuine shape value)
    (frozen : value.hashable = true) (unlisted : ∀ type, shape ≠ .enumeration type) :
    ∃ key, value = .scalar key := by
  cases null : value.isNull with
  | true => exact ⟨.null, Value.eq_null_of_isNull null⟩
  | false =>
    cases genuine null with
    | str | int | float | bool => exact ⟨_, rfl⟩
    | member => exact absurd rfl (unlisted _)
    | _ => cases frozen

namespace Decode

/-- Reading the plain form of a value under a shape gives the value back, and the very same one if it
cannot change. -/
def Restores (shape : Shape) (value : Value) : Prop :=
  ∀ tree path, tree.toValue = value.toPlain → ∃ again, reader shape tree path = .built again [] ∧
    (∀ asObject, again.alike asObject value = true) ∧ (∀ part, Occurs part again → part.Marked) ∧
      (value.hashable = true → again = value)

theorem restores_null (shape : Shape) : Restores shape .null := by
  intro tree path same
  obtain rfl := Tree.eq_scalar_of_toValue same
  refine ⟨.null, reader_of_isNull shape path rfl, fun asObject => ?_, ?_, fun _ => rfl⟩
  · exact Value.alike_scalar_self asObject rfl
  · exact Value.forall_occurs_scalar.mpr trivial

theorem restores_scalar {shape : Shape} {value : Scalar} (definite : value.isNotANumber = false)
    (reads : ∀ path, reader shape (.scalar value) path = .accept (.scalar value)) :
    Restores shape (.scalar value) := by
  intro tree path same
  obtain rfl := Tree.eq_scalar_of_toValue same
  exact ⟨.scalar value, reads path, fun asObject => Value.alike_scalar_self asObject definite,
    Value.forall_occurs_scalar.mpr trivial, fun _ => rfl⟩

section members

variable {type : Enumeration} {name : String} {own : Value}

theorem named?_of_canonical (names : (type.members.map (·.1)).Nodup)
    (canonical : (name, own) ∈ type.canonical) : type.named? name = some (.member type.name name own) := by
  obtain ⟨found, same⟩ : ∃ found, type.canonical.find? (·.1 == name) = some found :=
    Option.isSome_iff_exists.mp (List.find?_isSome.mpr ⟨(name, own), canonical, beq_self_eq_true name⟩)
  have title : found.1 = name := by simpa using List.find?_some same
  have listed := type.canonical_subset (List.mem_of_find?_eq_some same)
  obtain rfl : found = (name, own) :=
    List.inj_on_of_nodup_map names listed (type.canonical_subset canonical) title
  rw [Enumeration.named?, Enumeration.first?, same]
  rfl

theorem restores_member (names : (type.members.map (·.1)).Nodup)
    (canonical : (name, own) ∈ type.canonical) :
    Restores (.enumeration type) (.member type.name name own) := by
  intro tree path same
  obtain rfl := Tree.eq_scalar_of_toValue same
  have written : type.written? name = some (.member type.name name own) := by
    rw [Enumeration.written?, named?_of_canonical names canonical]
  refine ⟨.member type.name name own, ?_, fun asObject => by simp [Value.alike],
    Value.forall_occurs_member.mpr trivial, fun _ => rfl⟩
  rw [reader, orNull_of_present rfl]
  simp only [readMember, written]
  rfl

end members

section parts

variable {shape keyShape : Shape} {path : Str}

theorem readItems_restores {items : List Value} {nodes : List Tree}
    (each : ∀ item ∈ items, Restores shape item) (same : Tree.valuesOf nodes = Value.plainAll items)
    (index : Nat) :
    ∃ again, readItems (reader shape) path index nodes = .built again [] ∧
      List.Forall₂ (fun new item => new.alike true item = true) again items ∧
        ∀ new ∈ again, ∀ part, Occurs part new → part.Marked := by
  induction items generalizing nodes index with
  | nil =>
    cases nodes with
    | nil => exact ⟨[], rfl, .nil, nofun⟩
    | cons => cases same
  | cons item items ih =>
    cases nodes with
    | nil => cases same
    | cons node nodes =>
      obtain ⟨here, there⟩ := List.cons.inj same
      obtain ⟨first, others⟩ := List.forall_mem_cons.mp each
      obtain ⟨new, read, alike, marked, -⟩ := first node (element path index) here
      obtain ⟨again, rest, similar, all⟩ := ih others there (index + 1)
      exact ⟨new :: again, Walk.built_bind read (Walk.map_eq_built_iff.mpr ⟨again, rest, rfl⟩),
        .cons (alike true) similar, List.forall_mem_cons.mpr ⟨marked, all⟩⟩

/-- Members that are all different and read as they are make up the set that they were. -/
theorem readMembers_eq {read : Reader} {nodes : List Tree} {members taken : List Value}
    (reads : List.Forall₂ (fun node member => ∀ path, read node path = .built member []) nodes members)
    (apart : Value.Apart (taken ++ members)) (index : Nat) :
    readMembers read path index taken nodes = .built (taken ++ members) [] := by
  induction reads generalizing taken index with
  | nil => rw [List.append_nil]; rfl
  | @cons node member nodes members first _ ih =>
    have frozen : member.hashable = true := apart.frozen member (by simp)
    have fresh : ∀ old ∈ taken, old.same member = false := fun old listed =>
      (List.pairwise_append.mp apart.differ).2.2 old listed member List.mem_cons_self
    have split : taken ++ member :: members = taken ++ [member] ++ members := by simp
    rw [readMembers_cons]
    refine Walk.built_bind (first _) ?_
    rw [if_pos frozen, Members.insert_of_apart fresh, split]
    exact ih (split ▸ apart) (index + 1)

theorem readEntries_restores {entries taken : List (Value × Value)} {nodes : List (Scalar × Tree)}
    (eachKey : ∀ entry ∈ entries, Restores keyShape entry.1)
    (each : ∀ entry ∈ entries, Restores shape entry.2)
    (legible : ∀ entry ∈ entries, entry.1.writable = true)
    (apart : Value.Apart ((taken ++ entries).map (·.1)))
    (same : Tree.entriesOf nodes = Value.plainEntries entries) :
    ∃ again, readEntries (reader keyShape) (reader shape) path taken nodes =
        .built (taken ++ again) [] ∧
      List.Forall₂ (fun new entry => new.1 = entry.1 ∧ new.2.alike true entry.2 = true) again entries ∧
        ∀ new ∈ again, ∀ part, Occurs part new.2 → part.Marked := by
  induction entries generalizing taken nodes with
  | nil =>
    cases nodes with
    | nil => exact ⟨[], by rw [List.append_nil]; rfl, .nil, nofun⟩
    | cons => cases same
  | cons entry entries ih =>
    obtain ⟨key, value⟩ := entry
    cases nodes with
    | nil => cases same
    | cons node nodes =>
      obtain ⟨title, node⟩ := node
      obtain ⟨here, there⟩ := List.cons.inj same
      obtain ⟨rfl, plain⟩ := Prod.mk.inj here
      obtain ⟨firstKey, otherKeys⟩ := List.forall_mem_cons.mp eachKey
      obtain ⟨first, others⟩ := List.forall_mem_cons.mp each
      obtain ⟨written, legible⟩ := List.forall_mem_cons.mp legible
      have frozen : (Value.scalar title).hashable = true := rfl
      obtain ⟨newKey, readKey, -, -, exact⟩ := firstKey (.scalar title) path rfl
      obtain rfl := exact frozen
      obtain ⟨new, read, alike, marked, -⟩ := first node (join path title.text) plain
      have fresh : ∀ old ∈ taken, old.1.same (.scalar title) = false := by
        have differ := apart.differ
        rw [List.map_append, List.map_cons, List.pairwise_append] at differ
        exact fun old listed =>
          differ.2.2 old.1 (List.mem_map_of_mem listed) (.scalar title) List.mem_cons_self
      have keys : (taken ++ [(Value.scalar title, new)] ++ entries).map (·.1) =
          (taken ++ (.scalar title, value) :: entries).map (·.1) := by simp
      obtain ⟨again, rest, similar, all⟩ := ih otherKeys others legible (keys ▸ apart) there
      refine ⟨(.scalar title, new) :: again, ?_, .cons ⟨rfl, alike true⟩ similar,
        List.forall_mem_cons.mpr ⟨marked, all⟩⟩
      rw [readEntries_cons, nameOf_writable written]
      simp only [pure_bind]
      refine Walk.built_bind readKey (Walk.built_bind read ?_)
      rw [if_pos frozen, Entries.put_of_apart fresh, rest, List.append_assoc]
      rfl

end parts

theorem readEntry_restores {settings : List (Setting Shape)} {setting : Setting Shape} {value : Value}
    {node : Tree} (names : (settings.map (·.name)).Nodup) (listed : setting ∈ settings)
    (allowed : value.isNull = true → setting.nullable = true)
    (restores : Restores setting.shape value) (same : node.toValue = value.toPlain) (path : Str) :
    ∃ again, readEntry settings path (.str setting.name, node) =
        .built (some (setting.name, again)) [] ∧
      again.alike false value = true ∧ ∀ part, Occurs part again → part.Marked := by
  obtain ⟨known, found⟩ : ∃ known, settings.find? (·.name == setting.name) = some known :=
    Option.isSome_iff_exists.mp
      (List.find?_isSome.mpr ⟨setting, listed, beq_self_eq_true setting.name⟩)
  have title : known.name = setting.name := by simpa using List.find?_some found
  obtain rfl : known = setting :=
    List.inj_on_of_nodup_map names (List.mem_of_find?_eq_some found) listed title
  obtain ⟨again, read, alike, marked, -⟩ := restores node (join path known.name) same
  refine ⟨again, readEntry_eq_built_iff.mpr ⟨rfl, ?_⟩, alike false, marked⟩
  have null : node.isNull = value.isNull := by
    rw [← Tree.isNull_toValue, same, Value.isNull_toPlain]
  have whole : (node.isNull && !known.nullable) = false := by
    rw [null]
    cases empty : value.isNull with
    | false => rfl
    | true => rw [allowed empty]; rfl
  rw [show (Scalar.str known.name).text = known.name from rfl, found]
  exact ⟨again, rfl, by rw [readSetting_eq, whole, if_neg Bool.false_ne_true]; exact read⟩

theorem mapM_readEntry_restores {settings : List (Setting Shape)} {slots fresh : List (Slot Value)}
    {nodes : List (Scalar × Tree)} (distinct : (slots.map (·.name)).Nodup)
    (aligned : fresh.map (·.name) = slots.map (·.name))
    (each : ∀ slot ∈ slots, ∀ node, node.toValue = slot.value.toPlain → ∃ again,
      readEntry settings path (.str slot.name, node) = .built (some (slot.name, again)) [] ∧
        again.alike false slot.value = true ∧ ∀ part, Occurs part again → part.Marked)
    (same : Tree.entriesOf nodes = Value.plainSlots slots) :
    ∃ given, nodes.mapM (readEntry settings path) = .built given [] ∧
      (∀ value ∈ given, ∀ pair ∈ value, pair.1 ∈ slots.map (·.name)) ∧
        List.Forall₂ (fun new slot => new.value.alike false slot.value = true)
          (Slot.giveAll given fresh) slots ∧
            ∀ new ∈ Slot.giveAll given fresh, new.explicit = true ∧
              ∀ part, Occurs part new.value → part.Marked := by
  induction slots generalizing nodes fresh with
  | nil =>
    obtain rfl : fresh = [] := by simpa using aligned
    cases nodes with
    | nil => exact ⟨[], rfl, nofun, .nil, nofun⟩
    | cons => cases same
  | cons slot slots ih =>
    cases nodes with
    | nil => cases same
    | cons node nodes =>
      cases fresh with
      | nil => simp at aligned
      | cons first fresh =>
        obtain ⟨key, node⟩ := node
        obtain ⟨here, there⟩ := List.cons.inj same
        obtain ⟨title, plain⟩ := Prod.mk.inj here
        obtain rfl : key = .str slot.name := Value.scalar.inj title
        obtain ⟨name, rest⟩ : first.name = slot.name ∧ fresh.map (·.name) = slots.map (·.name) := by
          simpa using aligned
        obtain ⟨absent, distinct⟩ := List.nodup_cons.mp distinct
        obtain ⟨own, others⟩ := List.forall_mem_cons.mp each
        obtain ⟨again, read, alike, marked⟩ := own node plain
        obtain ⟨given, built, names, similar, all⟩ := ih distinct rest others there
        have placed : Slot.giveAll (some (slot.name, again) :: given) (first :: fresh) =
            ⟨slot.name, true, again⟩ :: Slot.giveAll given fresh := by
          rw [Slot.giveAll, List.foldl_cons, Slot.give, Slot.assign, name, beq_self_eq_true, if_pos rfl]
          refine Slot.giveAll_cons (fun value member pair here clash => absent ?_) fresh
          have listed := names value member pair here
          rwa [clash] at listed
        refine ⟨some (slot.name, again) :: given, ?_, ?_, ?_, ?_⟩
        · rw [List.mapM_cons]
          exact Walk.built_bind read (Walk.map_eq_built_iff.mpr ⟨given, built, rfl⟩)
        · refine List.forall_mem_cons.mpr ⟨?_, fun value member pair here =>
            List.mem_cons_of_mem _ (names value member pair here)⟩
          rintro _ ⟨⟩
          exact List.mem_cons_self
        · exact placed ▸ .cons alike similar
        · exact placed ▸ List.forall_mem_cons.mpr ⟨⟨rfl, marked⟩, all⟩

section containers

variable {shape keyShape : Shape}

theorem restores_list {items : List Value} (each : ∀ item ∈ items, Restores shape item) :
    Restores (.list shape) (.seq .concurrent items) := by
  intro tree path same
  obtain ⟨mark, nodes, rfl, plain⟩ := Tree.exists_seq_of_toValue same
  obtain ⟨again, read, similar, marked⟩ := readItems_restores each plain 0
  refine ⟨.seq .concurrent again, ?_, ?_, ?_, nofun⟩
  · rw [reader, orNull_of_present rfl]
    exact Walk.map_eq_built_iff.mpr ⟨again, read, rfl⟩
  · intro asObject
    rw [Value.alike, Value.itemsAlike_iff.mpr similar]
    rfl
  · exact Value.forall_occurs_seq.mpr ⟨trivial, marked⟩

/-- Members that cannot change are each restored as they are. -/
theorem forall₂_restores {members : List Value} {nodes : List Tree}
    (each : ∀ member ∈ members, Restores shape member)
    (frozen : ∀ member ∈ members, member.hashable = true)
    (same : Tree.valuesOf nodes = members.map Value.toPlain) :
    List.Forall₂ (fun node member => ∀ path, reader shape node path = .built member []) nodes
      members := by
  induction members generalizing nodes with
  | nil =>
    cases nodes with
    | nil => exact .nil
    | cons => cases same
  | cons member members ih =>
    cases nodes with
    | nil => cases same
    | cons node nodes =>
      obtain ⟨here, there⟩ := List.cons.inj same
      obtain ⟨first, others⟩ := List.forall_mem_cons.mp each
      obtain ⟨hashable, frozen⟩ := List.forall_mem_cons.mp frozen
      refine .cons (fun path => ?_) (ih others frozen there)
      obtain ⟨again, read, -, -, exact⟩ := first node path here
      exact exact hashable ▸ read

theorem restores_set {members : List Value} (each : ∀ member ∈ members, Restores shape member)
    (apart : Value.Apart members) (atoms : ∀ member ∈ members, member.isAtom = true) :
    Restores (.set shape) (.set .concurrent members) := by
  intro tree path same
  obtain ⟨mark, nodes, rfl, plain⟩ := Tree.exists_seq_of_toValue same
  obtain ⟨middle, perm, sorted⟩ := Value.exists_perm_of_sortByDisplay members
  have known : ∀ member ∈ middle, member ∈ members := fun member => perm.mem_iff.mp
  have reads := forall₂_restores (fun member listed => each member (known member listed))
    (fun member listed => apart.frozen member (known member listed)) (plain.trans sorted)
  have told : Value.Apart ([] ++ middle) := apart.perm atoms perm
  refine ⟨.set .concurrent middle, ?_, ?_, ?_, nofun⟩
  · rw [reader, orNull_of_present rfl]
    exact Walk.map_eq_built_iff.mpr ⟨middle, readMembers_eq reads told 0, rfl⟩
  · intro asObject
    rw [Value.alike, perm.length_eq, beq_self_eq_true, Bool.true_and, Value.membersWithin_iff]
    exact fun member listed => ⟨member, known member listed,
      Value.same_self_of_isAtom (atoms member (known member listed))⟩
  · exact Value.forall_occurs_set.mpr ⟨trivial, fun member listed =>
      Value.marked_of_isAtom (atoms member (known member listed))⟩

theorem restores_map {entries : List (Value × Value)}
    (eachKey : ∀ entry ∈ entries, Restores keyShape entry.1)
    (each : ∀ entry ∈ entries, Restores shape entry.2)
    (legible : ∀ entry ∈ entries, entry.1.writable = true) (apart : Value.Apart (entries.map (·.1)))
    (atoms : ∀ entry ∈ entries, entry.1.isAtom = true) :
    Restores (.map keyShape shape) (.dict .concurrent entries) := by
  intro tree path same
  obtain ⟨mark, nodes, rfl, plain⟩ := Tree.exists_map_of_toValue same
  have told : Value.Apart ((([] : List (Value × Value)) ++ entries).map (·.1)) := apart
  obtain ⟨again, read, similar, marked⟩ := readEntries_restores eachKey each legible told plain
  have found := exists_mem_of_forall₂ similar
  refine ⟨.dict .concurrent again, ?_, ?_, ?_, nofun⟩
  · rw [reader, orNull_of_present rfl]
    exact Walk.map_eq_built_iff.mpr ⟨again, read, rfl⟩
  · intro asObject
    rw [Value.alike, similar.length_eq, beq_self_eq_true, Bool.true_and, Value.entriesWithin_iff]
    intro entry member
    obtain ⟨old, listed, key, alike⟩ := found entry member
    exact ⟨old, listed, by rw [key]; exact Value.same_self_of_isAtom (atoms old listed), alike⟩
  · refine Value.forall_occurs_dict.mpr ⟨trivial, fun entry member => ?_, marked⟩
    obtain ⟨old, listed, key, -⟩ := found entry member
    exact key ▸ Value.marked_of_isAtom (atoms old listed)

theorem restores_document {settings : List (Setting Shape)} {slots : List (Slot Value)}
    (distinct : (settings.map (·.name)).Nodup) (names : slots.map (·.name) = settings.map (·.name))
    (required : ∀ pair ∈ settings.zip slots, pair.2.value.isNull = true → pair.1.nullable = true)
    (each : ∀ pair ∈ settings.zip slots, Restores pair.1.shape pair.2.value) :
    Restores (.document name settings) (.document name slots) := by
  intro tree path same
  obtain ⟨mark, nodes, rfl, plain⟩ := Tree.exists_map_of_toValue same
  have fresh : (Schema.newSlots settings).map (·.name) = slots.map (·.name) := by
    simp [Schema.newSlots, names]
  have each : ∀ slot ∈ slots, ∀ node : Tree, node.toValue = slot.value.toPlain → ∃ again,
      readEntry settings path (.str slot.name, node) = .built (some (slot.name, again)) [] ∧
        again.alike false slot.value = true ∧ ∀ part, Occurs part again → part.Marked := by
    intro slot member node same
    obtain ⟨setting, beside⟩ := Slot.exists_mem_zip names member
    rw [Slot.name_of_mem_zip names beside]
    exact readEntry_restores distinct (List.of_mem_zip beside).1 (required _ beside) (each _ beside)
      same path
  obtain ⟨given, built, -, similar, marked⟩ :=
    mapM_readEntry_restores (names ▸ distinct) fresh each plain
  refine ⟨.document name (Slot.giveAll given (Schema.newSlots settings)), ?_, ?_, ?_, fun frozen => ?_⟩
  · exact (reader_document_eq_built_iff rfl).mpr ⟨mark, nodes, _, rfl, rfl,
      readSettings_eq_built_iff.mpr ⟨given, built, rfl⟩⟩
  · intro asObject
    rw [Value.alike, beq_self_eq_true, Bool.true_and, Value.slotsAlike_iff]
    exact similar
  · exact Value.forall_occurs_document.mpr ⟨fun slot member => (marked slot member).1,
      fun slot member => (marked slot member).2⟩
  · cases frozen

end containers

/-- Whatever a walk builds under a documented shape is restored from its plain form. -/
theorem restores_of_genuine (documented : Shape.Documented shape) {value : Value}
    (genuine : Genuine shape value) (definite : value.Definite)
    (legible : ∀ part, Occurs part value → part.Legible) : Restores shape value := by
  have part {shape : Shape} {value : Value}
      (ih : ∀ {value : Value}, Genuine shape value → value.Definite →
        (∀ part, Occurs part value → part.Legible) → Restores shape value)
      (genuine : value.isNull = false → Genuine shape value) (definite : value.Definite)
      (legible : ∀ part, Occurs part value → part.Legible) : Restores shape value := by
    cases null : value.isNull with
    | true => exact Value.eq_null_of_isNull null ▸ restores_null shape
    | false => exact ih (genuine null) definite legible
  unfold Value.Definite at definite part
  induction documented generalizing value with
  | str =>
    cases genuine with
    | str text => exact restores_scalar rfl fun path => by rw [reader]; rfl
  | int =>
    cases genuine with
    | int value => exact restores_scalar rfl fun path => by rw [reader]; rfl
  | float =>
    cases genuine with
    | float value =>
      exact restores_scalar (definite _ .here) fun path => by rw [reader]; rfl
  | bool =>
    cases genuine with
    | bool value => exact restores_scalar rfl fun path => by rw [reader]; rfl
  | enumeration names =>
    cases genuine with
    | member canonical => exact restores_member names canonical
  | list element ih =>
    cases genuine with
    | list parts =>
      rw [Value.forall_occurs_seq] at definite legible
      exact restores_list fun item member =>
        part ih (parts item member) (definite.2 item member) (legible.2 item member)
  | set element ih =>
    cases genuine with
    | set parts apart =>
      rw [Value.forall_occurs_set] at definite legible
      exact restores_set (fun member listed =>
        part ih (parts member listed) (definite.2 member listed) (legible.2 member listed)) apart
          fun member listed => Genuine.isAtom (parts member listed) (apart.frozen member listed)
  | map key unlisted element ihKey ih =>
    cases genuine with
    | map keys values apart =>
      rw [Value.forall_occurs_dict] at definite legible
      exact restores_map
        (fun entry member => part ihKey (keys entry member) (definite.2.1 entry member)
          (legible.2.1 entry member))
        (fun entry member => part ih (values entry member) (definite.2.2 entry member)
          (legible.2.2 entry member))
        legible.1 apart fun entry member =>
          Genuine.isAtom (keys entry member) (apart.frozen _ (List.mem_map_of_mem member))
  | document names shapes defaults ih =>
    cases genuine with
    | document titles required parts =>
      rw [Value.forall_occurs_document] at definite legible
      exact restores_document names titles required fun pair beside =>
        have listed := List.of_mem_zip beside
        part (ih pair.1 listed.1) (parts pair beside) (definite.2 pair.2 listed.2)
          (legible.2 pair.2 listed.2)

/-- The plain form of what a walk builds under a documented shape is a tree. -/
theorem exists_tree_of_genuine (documented : Shape.Documented shape) {value : Value}
    (genuine : Genuine shape value) : ∃ tree, Tree.toValue tree = value.toPlain := by
  have part {shape : Shape} {value : Value}
      (ih : ∀ {value : Value}, Genuine shape value → ∃ tree, Tree.toValue tree = value.toPlain)
      (genuine : value.isNull = false → Genuine shape value) :
      ∃ tree, Tree.toValue tree = value.toPlain := by
    cases null : value.isNull with
    | true => exact Value.eq_null_of_isNull null ▸ ⟨.scalar .null, rfl⟩
    | false => exact ih (genuine null)
  induction documented generalizing value with
  | str => cases genuine; exact ⟨.scalar _, rfl⟩
  | int => cases genuine; exact ⟨.scalar _, rfl⟩
  | float => cases genuine; exact ⟨.scalar _, rfl⟩
  | bool => cases genuine; exact ⟨.scalar _, rfl⟩
  | enumeration names =>
    cases genuine with
    | @member name => exact ⟨.scalar (.str name), rfl⟩
  | list element ih =>
    cases genuine with
    | @list items _ parts =>
      have each : ∀ value ∈ Value.plainAll items, ∃ tree, Tree.toValue tree = value := by
        rw [Value.plainAll_eq, List.forall_mem_map]
        exact fun item member => part ih (parts item member)
      obtain ⟨nodes, same⟩ := Tree.exists_valuesOf each
      exact ⟨.seq none nodes, congrArg (Value.seq .list) same⟩
  | set element ih =>
    cases genuine with
    | @set members _ parts =>
      have each : ∀ value ∈ Value.sortByDisplay (Value.plainAll members),
          ∃ tree, Tree.toValue tree = value := by
        simp only [(Value.perm_sortByDisplay _).mem_iff, Value.plainAll_eq, List.forall_mem_map]
        exact fun member listed => part ih (parts member listed)
      obtain ⟨nodes, same⟩ := Tree.exists_valuesOf each
      exact ⟨.seq none nodes, congrArg (Value.seq .list) same⟩
  | map key unlisted element ihKey ih =>
    cases genuine with
    | @map _ _ entries keys values apart =>
      have scalars : ∀ entry ∈ Value.plainEntries entries, ∃ key, entry.1 = .scalar key := by
        rw [Value.plainEntries_eq, List.forall_mem_map]
        exact fun entry member => Genuine.exists_scalar (keys entry member)
          (apart.frozen entry.1 (List.mem_map_of_mem member)) unlisted
      have each : ∀ entry ∈ Value.plainEntries entries, ∃ tree, Tree.toValue tree = entry.2 := by
        rw [Value.plainEntries_eq, List.forall_mem_map]
        exact fun entry member => part ih (values entry member)
      obtain ⟨nodes, same⟩ := Tree.exists_entriesOf scalars each
      exact ⟨.map none nodes, congrArg (Value.dict .plain) same⟩
  | document names shapes defaults ih =>
    cases genuine with
    | @document _ slots _ titles required parts =>
      have scalars : ∀ entry ∈ Value.plainSlots slots, ∃ key, entry.1 = .scalar key := by
        rw [Value.plainSlots_eq, List.forall_mem_map]
        exact fun slot _ => ⟨.str slot.name, rfl⟩
      have each : ∀ entry ∈ Value.plainSlots slots, ∃ tree, Tree.toValue tree = entry.2 := by
        rw [Value.plainSlots_eq, List.forall_mem_map]
        intro slot member
        obtain ⟨setting, beside⟩ := Slot.exists_mem_zip titles member
        exact part (ih setting (List.of_mem_zip beside).1) (parts _ beside)
      obtain ⟨nodes, same⟩ := Tree.exists_entriesOf scalars each
      exact ⟨.map none nodes, congrArg (Value.dict .plain) same⟩

/-- A decoded document that passes its check comes back from its plain form, equal and with all settings
explicit, if the members of its sets and the keys of its dictionaries can be written. -/
theorem decode_restores {schema : Schema} {result : Result} (documented : schema.shape.Documented)
    (decoded : decode schema source bytes = .ok result) (passed : result.report = .empty)
    (definite : result.document.Definite)
    (legible : ∀ part, Occurs part result.document → part.Legible) :
    ∃ plain, result.document.plain? = .ok plain ∧ (∃ tree, Tree.toValue tree = plain) ∧
      ∀ tree origin, Tree.toValue tree = plain → ∃ again,
        ofTree schema origin tree = .ok ⟨again, .empty⟩ ∧
          (∀ part, Occurs part again → part.Marked) ∧ again.eqv result.document = true := by
  have genuine := decode_genuine documented decoded passed
  refine ⟨result.document.toPlain, if_pos (Value.sortable_of_legible legible),
    exists_tree_of_genuine documented genuine, fun tree origin same => ?_⟩
  obtain ⟨again, read, alike, marked, -⟩ :=
    restores_of_genuine documented genuine definite legible tree "" same
  have present : tree.isNull = false := by
    rw [← Tree.isNull_toValue, same, Value.isNull_toPlain, genuine.present]
  refine ⟨again, ofTree_eq_ok_iff.mpr ⟨[], ?_, rfl⟩, marked, alike false⟩
  rw [rootWalk, present, if_neg Bool.false_ne_true]
  exact read

/-- A set, a dictionary and a document inside, and a source that gives all three. -/
def shelf : Schema :=
  ⟨"Shelf", [⟨"codes", .set .int, .null⟩, ⟨"labels", .map .str .bool, .null⟩,
    ⟨"owner", .document "Owner" [⟨"name", .str, .str "nobody"⟩], .null⟩]⟩

def shelfSource : List UInt8 :=
  "codes: [10, 2]\nlabels: \x7bb: true, ~: ~\x7d\nowner: \x7b\x7d\n".toUTF8.toList

theorem documented_shelf : shelf.shape.Documented := by
  have owner : Shape.Documented (.document "Owner" [⟨"name", .str, .str "nobody"⟩]) := by
    refine .document (by decide) ?_ ?_
    · exact List.forall_mem_singleton.mpr .str
    · exact List.forall_mem_singleton.mpr fun _ => .str "nobody"
  refine .document (by decide) ?_ ?_
  · simp only [shelf, List.forall_mem_cons]
    exact ⟨.set .int, .map .str nofun .bool, owner, nofun⟩
  · simp [shelf, Setting.nullable, Value.isNull, Scalar.isNull]

theorem decode_restores_shelf :
    ∃ result, decode shelf "shelf.yaml" shelfSource = .ok result ∧ ∃ tree again,
      result.document.plain? = .ok (Tree.toValue tree) ∧
        ofTree shelf "again.yaml" tree = .ok ⟨again, .empty⟩ ∧
          (∀ part, Occurs part again → part.Marked) ∧ again.eqv result.document = true := by
  have checked : (decode shelf "shelf.yaml" shelfSource).toOption.any (fun result =>
      decide (result.report = .empty ∧ result.document.Definite ∧
        ∀ part, Occurs part result.document → part.Legible)) = true := by decide +kernel
  obtain ⟨result, found, fit⟩ := (Option.any_eq_true ..).mp checked
  have decoded := toOption_eq_some_iff.mp found
  obtain ⟨passed, definite, legible⟩ := of_decide_eq_true fit
  obtain ⟨plain, whole, ⟨tree, same⟩, restores⟩ :=
    decode_restores documented_shelf decoded passed definite legible
  obtain ⟨again, read, marked, equal⟩ := restores tree "again.yaml" same
  exact ⟨result, decoded, tree, again, same ▸ whole, read, marked, equal⟩

/-- A set that has a number of too many digits from the start. -/
def crowdedShelf : Schema :=
  ⟨"Shelf", [⟨"codes", .set .int, .set .concurrent [.int (.ofNat (10 ^ 4300))]⟩]⟩

theorem crowdedShelf_has_no_plain_form :
    ¬ ∀ (schema : Schema) (source : String) (bytes : List UInt8) (result : Result),
      schema.shape.Documented → decode schema source bytes = .ok result →
        result.report = .empty → result.document.Definite →
          ∃ plain, result.document.plain? = .ok plain := by
  intro restored
  have documented : crowdedShelf.shape.Documented := by
    refine .document (by decide) (List.forall_mem_singleton.mpr (.set .int)) ?_
    refine List.forall_mem_singleton.mpr fun _ => .set ?_ ⟨List.pairwise_singleton _ _, ?_⟩
    · exact List.forall_mem_singleton.mpr fun _ => .int _
    · exact List.forall_mem_singleton.mpr rfl
  have checked : (decode crowdedShelf "shelf.yaml" []).toOption.any (fun result =>
      decide (result.report = .empty ∧ result.document.Definite ∧
        result.document.plain?.toOption.isSome = false)) = true := by decide +kernel
  obtain ⟨result, found, fit⟩ := (Option.any_eq_true ..).mp checked
  obtain ⟨passed, definite, failed⟩ := of_decide_eq_true fit
  obtain ⟨plain, whole⟩ :=
    restored _ _ _ _ documented (toOption_eq_some_iff.mp found) passed definite
  rw [whole] at failed
  cases failed

end Decode

end LayeredConfig
