import LayeredConfig.Proofs.Store.DictChanges
import LayeredConfig.Proofs.Store.SetAlgebra
import LayeredConfig.Proofs.Value.Dispatch

namespace LayeredConfig

open Step

variable {store : Store} {identity : Identity} {content : Cell} {x y : Value} {item other : Item}

/-- What is answered to the question of equality: a truth value, or nothing, which leaves it open. -/
def Outcome.ofAnswer : Option Bool → Outcome
  | some result => .flag result
  | none => .notImplemented

namespace Store

theorem value?_content (found : store.read? identity = some content)
    (shown : store.value? (.object identity) = some x) : content.value? store.value? = some x := by
  obtain ⟨depth, length⟩ := Nat.exists_eq_add_of_lt (lt_of_read? found)
  have here : store.view (identity + depth + 1) (.object identity) = some x := length ▸ shown
  rw [view_object, found, Option.bind_some] at here
  have alike : Cell.Alike Eq content content := .self fun _ _ => rfl
  refine alike.value? ?_ here
  rintro item _ rfl value below
  exact view_of_holds (by omega) ((Extends.refl store).holds item) below

theorem exists_content (shown : store.value? (.object identity) = some x) :
    ∃ content, store.read? identity = some content ∧ content.value? store.value? = some x := by
  cases found : store.read? identity with
  | some content => exact ⟨content, rfl, value?_content found shown⟩
  | none =>
    unfold value? at shown
    cases length : store.cells.length with
    | zero =>
      rw [length] at shown
      cases shown
    | succ depth =>
      rw [length, view_object, found] at shown
      cases shown

/-- An entry of a dictionary shows another one. -/
def ShowsEntry (store : Store) (entry : Value × Item) (pair : Value × Value) : Prop :=
  entry.1 = pair.1 ∧ store.value? entry.2 = some pair.2

theorem exists_entries {kind : DictKind} {entries : List (Value × Item)}
    (shown : (Cell.dict kind entries).value? store.value? = some x) :
    ∃ pairs, x = .dict kind pairs ∧ List.Forall₂ store.ShowsEntry entries pairs := by
  obtain ⟨pairs, each, rfl⟩ := Option.map_eq_some_iff.mp shown
  refine ⟨pairs, rfl, (mapM_eq_some_iff.mp each).imp fun entry pair here => ?_⟩
  obtain ⟨value, own, rfl⟩ := Option.map_eq_some_iff.mp here
  exact ⟨rfl, own⟩

end Store

namespace Step

theorem run_bind_shown (shown : store.value? item = some x) (next : Value → Step α) :
    (valueOf item >>= next).run.run store = (next x).run.run store := by
  rw [run_bind_valueOf, shown, Option.elim_some]

theorem run_equal (shown : store.value? item = some x) (shown' : store.value? other = some y) :
    (Step.equal item other).run.run store = (.ok (x.eqv y), store) := by
  unfold Step.equal
  rw [run_bind_shown shown, run_bind_shown shown']
  rfl

theorem run_isSet (shown : store.value? item = some x) :
    (isSet item).run.run store = (.ok (x matches .set _ _), store) := by
  cases item with
  | value own =>
    obtain rfl := Option.some.inj ((store.view_value _ own).symm.trans shown)
    cases own <;> rfl
  | object identity =>
    obtain ⟨content, found, shown⟩ := Store.exists_content shown
    unfold isSet
    rw [run_bind_cell found]
    cases content with
    | set kind members =>
      cases shown
      rfl
    | _ =>
      obtain ⟨_, -, rfl⟩ := Option.map_eq_some_iff.mp shown
      rfl

end Step

namespace SequenceCall

theorem run_kindOf (shown : store.value? item = some x) :
    (kindOf item).run.run store = (.ok (match x with | .seq kind _ => some kind | _ => none), store) := by
  cases item with
  | value own =>
    obtain rfl := Option.some.inj ((store.view_value _ own).symm.trans shown)
    cases own <;> rfl
  | object identity =>
    obtain ⟨content, found, shown⟩ := Store.exists_content shown
    unfold kindOf
    rw [run_bind_cell found]
    cases content with
    | set kind members =>
      cases shown
      rfl
    | _ =>
      obtain ⟨_, -, rfl⟩ := Option.map_eq_some_iff.mp shown
      rfl

/-- A concurrent list has an answer for every sequence. -/
theorem run_equal {items : List Value} (first : (Value.seq .concurrent items).Comparable) (second : y.Comparable)
    (shown : store.value? (.object identity) = some (.seq .concurrent items))
    (shown' : store.value? other = some y) :
    (equal .concurrent identity other).run.run store =
      (.ok (.ofAnswer ((Value.seq .concurrent items).answer y)), store) := by
  unfold equal
  rw [run_bind_of_ok (run_kindOf shown')]
  cases y with
  | seq kind others =>
    dsimp only
    rw [if_pos (by rfl), run_bind_shown shown, run_bind_shown shown', first.eqv_eq]
    have answered : (Value.seq .concurrent items).answer (.seq kind others) = some (Value.itemsEqual items others) := by
      rw [Value.answer, if_pos (by rfl)]
    rw [answered, first.of_answer second answered]
    rfl
  | _ =>
    rw [Value.answer]
    · rfl
    all_goals simp

end SequenceCall

namespace SetCall

/-- The members of a set operand are its elements. -/
theorem run_elements {kind : SetKind} {members : List Value}
    (shown : store.value? item = some (.set kind members)) :
    (elements item).run.run store = (.ok (members.map .value), store) := by
  cases item with
  | value own =>
    obtain rfl := Option.some.inj ((store.view_value _ own).symm.trans shown)
    rfl
  | object identity =>
    obtain ⟨content, found, shown⟩ := Store.exists_content shown
    unfold elements
    rw [run_bind_cell found]
    cases content with
    | set kind members =>
      cases shown
      rfl
    | _ =>
      obtain ⟨_, -, same⟩ := Option.map_eq_some_iff.mp shown
      cases same

/-- Sets are equal if the members of the one are found in the other. -/
theorem compare_eq {kind kind' : SetKind} {members others : List Value}
    (first : (Value.set kind members).Comparable) (second : (Value.set kind' others).Comparable) :
    compare members others .equal = (Value.set kind members).same (.set kind' others) := by
  change (members.length == others.length && Members.subset Value.same members others) = _
  rw [Value.same, Value.alike]
  refine congrArg _ (Bool.eq_iff_iff.mpr ?_)
  rw [Members.subset, List.all_eq_true, Value.membersWithin_iff]
  refine forall₂_congr fun x here => ?_
  rw [Members.contains_iff]
  refine exists_congr fun y => and_congr_right fun there => ?_
  exact Bool.eq_iff_iff.mp ((second.member y there).same_comm (first.member x here))

/-- A concurrent set has an answer for every set. -/
theorem run_equal (identity : Identity) {members : List Value} (first : (Value.set .concurrent members).Comparable)
    (second : y.Comparable) (shown : store.value? other = some y) :
    (SetCall.run identity .concurrent members .equal [.item other]).run.run store =
      (.ok (.ofAnswer ((Value.set .concurrent members).answer y)), store) := by
  change (isSet other >>= fun set => if set = true then do
    return Outcome.flag (compare members (← operandMembers other) .equal) else return .notImplemented).run.run store = _
  rw [run_bind_of_ok (run_isSet shown)]
  cases y with
  | set kind others =>
    have keys := second.isKey_member
    have all : Members.ofList Value.same others = others :=
      Members.insertAll_of_pairwise (Value.forall_occurs_set.mp second).1.differ
    rw [if_pos rfl, run_bind_of_ok (run_operandMembers (run_elements shown) keys), all, compare_eq first second]
    have answered : (Value.set .concurrent members).answer (.set kind others) =
        some (members.length == others.length && Value.membersFound members others) := by
      rw [Value.answer, if_pos (by rfl)]
    rw [answered, first.of_answer second answered]
    rfl
  | _ =>
    rw [Value.answer]
    · rfl
    all_goals simp

end SetCall

namespace DictCall

/-- Values of dictionaries compare by what they show; one object shows the same. -/
theorem run_sameItem_shown (first : x.Comparable) (shown : store.value? item = some x)
    (shown' : store.value? other = some y) :
    (sameItem item other).run.run store = (.ok (x.same y), store) := by
  have values : (do return (← valueOf item).same (← valueOf other) : Step Bool).run.run store =
      (.ok (x.same y), store) := by
    rw [run_bind_shown shown, run_bind_shown shown']
    rfl
  unfold sameItem
  split
  · split
    · next same =>
      obtain rfl := eq_of_beq same
      obtain rfl := Option.some.inj (shown.symm.trans shown')
      rw [first.same_self]
      rfl
    · exact values
  · exact values

theorem find?_of_shows (key : Value) {others : Content} {pairs : List (Value × Value)}
    (shows : List.Forall₂ store.ShowsEntry others pairs) :
    Option.Rel (fun item value => store.value? item = some value) (Entries.find? Value.same key others)
      (Entries.find? Value.same key pairs) := by
  induction shows with
  | nil => exact .none
  | @cons other pair others pairs here _ ih =>
    obtain ⟨own, item⟩ := other
    obtain ⟨own', value⟩ := pair
    obtain ⟨rfl, shown⟩ : own = own' ∧ store.value? item = some value := here
    rw [Entries.find?, Entries.find?]
    split
    · exact .some shown
    · exact ih

theorem run_sameWithin_shown {entries others : Content} {shownEntries shownOthers : List (Value × Value)}
    (shows : List.Forall₂ store.ShowsEntry entries shownEntries)
    (shows' : List.Forall₂ store.ShowsEntry others shownOthers)
    (values : ∀ entry ∈ shownEntries, entry.2.Comparable) :
    ∃ result, (sameWithin others entries).run.run store = (.ok result, store) ∧
      (result = true ↔ ∀ entry ∈ shownEntries,
        ∃ found, Entries.find? Value.same entry.1 shownOthers = some found ∧ entry.2.same found = true) := by
  induction shows with
  | nil => exact ⟨true, rfl, iff_of_true rfl (by simp)⟩
  | @cons entry pair entries pairs here _ ih =>
    obtain ⟨own, later⟩ := List.forall_mem_cons.mp values
    obtain ⟨result, run, rest⟩ := ih later
    obtain ⟨key, item⟩ := entry
    obtain ⟨key', value⟩ := pair
    obtain ⟨rfl, shown⟩ : key = key' ∧ store.value? item = some value := here
    have found := find?_of_shows key shows'
    rw [sameWithin, List.forall_mem_cons]
    cases sought : Entries.find? Value.same key others with
    | none =>
      rw [sought] at found
      cases missing : Entries.find? Value.same key shownOthers with
      | none => exact ⟨false, rfl, iff_of_false (by simp) (by simp)⟩
      | some other => rw [missing] at found; cases found
    | some other =>
      rw [sought] at found
      cases there : Entries.find? Value.same key shownOthers with
      | none => rw [there] at found; cases found
      | some shownOther =>
        rw [there] at found
        obtain ⟨shown'⟩ := found
        dsimp only
        rw [run_bind_of_ok (run_sameItem_shown own shown shown')]
        cases equal : value.same shownOther with
        | false =>
          refine ⟨false, rfl, iff_of_false (by simp) ?_⟩
          rintro ⟨⟨other', same, equal'⟩, -⟩
          obtain rfl := Option.some.inj same
          rw [equal] at equal'
          cases equal'
        | true =>
          refine ⟨result, run, rest.trans ?_⟩
          exact ⟨fun all => ⟨⟨shownOther, rfl, equal⟩, all⟩, And.right⟩

/-- A concurrent dictionary has an answer for every dictionary, which is an object. -/
theorem run_equal {content : Content} {entries : List (Value × Value)}
    (first : (Value.dict .concurrent entries).Comparable) (second : y.Comparable) (proper : other.IsProper)
    (shows : List.Forall₂ store.ShowsEntry content entries) (shown' : store.value? other = some y) :
    (equal content other).run.run store = (.ok (.ofAnswer ((Value.dict .concurrent entries).answer y)), store) := by
  have silent (sort : ∀ kind others, y ≠ .dict kind others) : (Value.dict .concurrent entries).answer y = none := by
    cases y with
    | dict kind others => exact absurd rfl (sort kind others)
    | _ => rw [Value.answer]; all_goals simp
  cases other with
  | value own =>
    obtain rfl := Option.some.inj ((store.view_value _ own).symm.trans shown')
    have immutable : own.IsKey := proper
    rw [silent]
    · rfl
    · rintro kind others rfl
      cases immutable.hashable
  | object identity =>
    obtain ⟨cell, found, shown'⟩ := Store.exists_content shown'
    unfold equal
    dsimp only
    rw [run_bind_cell found]
    cases cell with
    | dict kind cells =>
      obtain ⟨others, rfl, shows'⟩ := Store.exists_entries shown'
      have answered : (Value.dict .concurrent entries).answer (.dict kind others) =
          some (entries.length == others.length && Value.entriesFound entries others) := by
        rw [Value.answer, if_pos (by rfl)]
      rw [answered, first.of_answer second answered, Value.same, Value.alike, ← shows.length_eq, ← shows'.length_eq]
      dsimp only
      cases length : content.length == cells.length with
      | false => rfl
      | true =>
        obtain ⟨result, run, within⟩ := run_sameWithin_shown shows shows' first.value
        rw [if_pos rfl, run_bind_of_ok run]
        have same : result = Value.entriesWithin entries others := by
          rw [Bool.eq_iff_iff, within, Value.entriesWithin_iff]
          exact forall₂_congr fun entry listed =>
            (Value.exists_entry_iff (first.isKey_key entry listed) second.distinct).symm
        rw [same]
        rfl
    | set kind members =>
      cases shown'
      rw [silent (by simp)]
      rfl
    | _ =>
      obtain ⟨_, -, rfl⟩ := Option.map_eq_some_iff.mp shown'
      rw [silent (by simp)]
      rfl

end DictCall

/-- A concurrent container that is asked whether it equals an item answers what its class decides. -/
theorem Step.run_call_equal (found : store.read? identity = some content) (concurrent : content.IsConcurrent)
    (shown : store.value? (.object identity) = some x) (shown' : store.value? other = some y)
    (first : x.Comparable) (second : y.Comparable) (proper : other.IsProper) :
    (call (.object identity) .equal [.item other]).run.run store = (.ok (.ofAnswer (x.answer y)), store) := by
  have within := Store.value?_content found shown
  rw [run_call .equal found (by simp)]
  cases content with
  | seq kind items =>
    obtain rfl : kind = .concurrent := concurrent
    obtain ⟨values, -, rfl⟩ := Option.map_eq_some_iff.mp within
    exact SequenceCall.run_equal first second shown shown'
  | set kind members =>
    obtain rfl : kind = .concurrent := concurrent
    cases within
    exact SetCall.run_equal identity first second shown'
  | dict kind entries =>
    obtain rfl : kind = .concurrent := concurrent
    obtain ⟨pairs, rfl, shows⟩ := Store.exists_entries within
    exact DictCall.run_equal first second proper shows shown'
  | document type slots => exact concurrent.elim

namespace Value

/-- Two values compare as their native equivalents do. -/
structure ComparesAsNative (x y : Value) : Prop where
  strip : x.equals y = x.strip.equals y.strip
  /-- Other classes for some of the containers do not matter. -/
  mixed : ∀ x' y' : Value, x'.Comparable → y'.Comparable → x'.strip = x.strip → y'.strip = y.strip →
    x'.equals y' = x.equals y
  /-- That one object is both operands does not matter either. -/
  refl : x.equals x = true
  symm : x.equals y = y.equals x
  trans : ∀ z : Value, z.Comparable → x.equals y = true → y.equals z = true → x.equals z = true
  differs : x.differs y = !x.equals y
  /-- Equality of items that show the values is what is decided. -/
  run : ∀ (store : Store) (item other : Item), store.value? item = some x → store.value? other = some y →
    (Step.equal item other).run.run store = (.ok (x.equals y), store)
  /-- A concurrent container that shows the first value answers for its class. -/
  asked : ∀ (store : Store) (identity : Identity) (content : Cell) (other : Item),
    store.read? identity = some content → content.IsConcurrent → store.value? (.object identity) = some x →
    store.value? other = some y → other.IsProper →
    (call (.object identity) .equal [.item other]).run.run store = (.ok (.ofAnswer (x.answer y)), store)

/-- Any mixture of native and concurrent lists, dictionaries and sets compares as the native ones do. -/
theorem compares_as_native {x y : Value} (first : x.Comparable) (second : y.Comparable) : ComparesAsNative x y where
  strip := by rw [first.equals_eq second, first.strip.equals_eq second.strip, first.same_strip second]
  mixed x' y' first' second' native native' := by
    rw [first'.equals_eq second', first.equals_eq second, ← first'.same_strip second', ← first.same_strip second,
      native, native']
  refl := (first.equals_eq first).trans first.same_self
  symm := by rw [first.equals_eq second, second.equals_eq first, first.same_comm second]
  trans z third equal equal' := by
    rw [first.equals_eq second] at equal
    rw [second.equals_eq third] at equal'
    rw [first.equals_eq third]
    exact first.same_trans second third equal equal'
  differs := differs_eq x y
  run store item other shown shown' := by
    rw [Step.run_equal shown shown', first.eqv_eq, first.equals_eq second]
  asked store identity content other found concurrent shown shown' proper :=
    Step.run_call_equal found concurrent shown shown' first second proper

/-- A list of a concurrent dictionary, and a concurrent list of a native one with a key that equals its key. -/
theorem compares_as_native_mixed :
    ComparesAsNative (.seq .list [.dict .concurrent [(.int 1, .set .concurrent [.str "a", .int 0])]])
      (.seq .concurrent [.dict .plain [(.bool true, .set .frozen [.bool false, .str "a"])]]) :=
  compares_as_native (by decide +kernel) (by decide +kernel)

end Value

end LayeredConfig
