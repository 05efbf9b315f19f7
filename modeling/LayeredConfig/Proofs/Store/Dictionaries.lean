import LayeredConfig.Proofs.Store.DictCopies

namespace LayeredConfig

open Step

namespace DictCall

/-- The changes that the construction of a dictionary makes in a new one without entries. -/
def constructing (before : Store) (source : Option Item) (named : List (Str × Item)) : Ledger Value Item :=
  updates before.cells.length .concurrent [] (before.alloc (.dict .concurrent [])) (sourceOf source named)
    (named.filter (·.1 != "items"))

/-- What happens to a dictionary from when it is made on. It is constructed, or is the deep copy of another
one, which counts as writes of the copied entries; then there are operations on it, which may fail, and
anything at all that leaves it as it is. -/
inductive Run : Identity → Store → Ledger Value Item → Prop
  | constructed {before later : Store} {identity : Identity} {source : Option Item}
      {named : List (Str × Item)}
      (made : (construct source named).run.run before = (.ok (.object identity), later))
      (proper : ∀ change ∈ constructing before source named, change.IsProper) :
      Run identity later (constructing before source named)
  | copied {original identity : Identity} {before later : Store} {ledger : Ledger Value Item} {entries : Content}
      (run : Run original before ledger)
      (made : (deepCopy (.object original)).run.run before = (.ok (.object identity), later))
      (found : later.read? identity = some (.dict .concurrent entries)) :
      Run identity later (puts entries)
  | operated {identity : Identity} {store : Store} {ledger : Ledger Value Item} {content : Content}
      (run : Run identity store ledger) (found : store.read? identity = some (.dict .concurrent content))
      (operation : Operation)
      (proper : ∀ change ∈ operation.changes identity content store, change.IsProper) :
      Run identity (operation.after store identity) (ledger ++ operation.changes identity content store)
  | elsewhere {identity : Identity} {store later : Store} {ledger : Ledger Value Item}
      (run : Run identity store ledger) (same : later.read? identity = store.read? identity) :
      Run identity later ledger

variable {identity : Identity} {store : Store} {ledger : Ledger Value Item}

theorem run_construct {before later : Store} {source : Option Item} {named : List (Str × Item)} {item : Item}
    (made : (construct source named).run.run before = (.ok item, later)) :
    item = .object before.cells.length ∧ later.read? before.cells.length = some (.dict .concurrent
      ((constructing before source named).foldl (Change.apply Value.same) [])) := by
  have fresh := before.read?_alloc_self (.dict .concurrent [])
  unfold construct at made
  dsimp only at made
  split at made
  · cases (Prod.mk.inj made).1
  · change (update before.cells.length .concurrent [] ((sourceOf source named).toList.map .item)
        (named.filter (·.1 != "items")) >>= fun _ => pure (Item.object before.cells.length)).run.run
          (before.alloc (.dict .concurrent [])) = _ at made
    obtain ⟨_, between, updated, answer⟩ := exists_of_run_bind made
    obtain ⟨rfl, rfl⟩ := of_run_pure answer
    have left := (congrArg Prod.snd updated).symm.trans (run_update fresh _ _)
    dsimp only at left
    rw [left]
    exact ⟨rfl, Store.read?_write_self fresh _⟩

/-- Writing entries with different keys into a dictionary without entries makes just these. -/
theorem putAll_of_distinct {entries before : Content}
    (distinct : Members.Distinct Value.same Value.IsKey ((before ++ entries).map (·.1))) :
    Entries.putAll Value.same entries before = before ++ entries := by
  induction entries generalizing before with
  | nil => exact (List.append_nil before).symm
  | cons entry entries ih =>
    have apart : ∀ old ∈ before, old.1.same entry.1 = false := by
      intro old listed
      rw [List.map_append] at distinct
      exact (List.pairwise_append.mp distinct.apart).2.2 old.1 (List.mem_map_of_mem listed) entry.1
        List.mem_cons_self
    rw [List.append_cons] at distinct ⊢
    rw [← ih distinct, ← Entries.put_of_apart apart]
    rfl

theorem proper_of_lastWritten {key : Value} {item : Item} (proper : ∀ change ∈ ledger, change.IsProper)
    (written : Ledger.LastWritten Value.same ledger key item) : item.IsProper := by
  obtain ⟨before, other, after, rfl, -⟩ := written
  exact (proper (.put other item) (List.mem_append_right _ List.mem_cons_self)).2

/-- Whatever has happened to a dictionary, its entries are those of the history. -/
theorem Run.records (run : Run identity store ledger) :
    ∃ entries, store.read? identity = some (.dict .concurrent entries) ∧
      Ledger.Records Value.same Value.IsKey ledger entries ∧ ∀ change ∈ ledger, change.IsProper := by
  have equality := Value.equality_same
  induction run with
  | constructed made proper =>
    obtain ⟨same, found⟩ := run_construct made
    obtain rfl := Item.object.inj same
    have records := (Ledger.records_nil Value.same Value.IsKey).applyAll equality fun change listed =>
      (proper change listed).known
    exact ⟨_, found, records, proper⟩
  | @copied _ _ _ _ _ entries run made found ih =>
    obtain ⟨content, there, records, proper⟩ := ih
    obtain ⟨⟨other, copies, same, -, here, keys, mirrors⟩, -⟩ := isCopy_deepCopy there made
    obtain rfl := Item.object.inj same
    obtain rfl := (Cell.dict.inj (Option.some.inj (found.symm.trans here))).2
    have distinct : Members.Distinct Value.same Value.IsKey (entries.map (·.1)) := keys ▸ records.distinct
    have fine : ∀ change ∈ puts entries, change.IsProper := by
      intro change listed
      obtain ⟨entry, member, rfl⟩ := List.mem_map.mp listed
      obtain ⟨old, present, mirrored⟩ := exists_mem_of_forall₂ mirrors.flip entry member
      exact ⟨distinct.each _ (List.mem_map_of_mem member),
        mirrored.proper (proper_of_lastWritten proper (records.written old present))⟩
    have written := (Ledger.records_nil Value.same Value.IsKey).applyAll equality fun change listed =>
      (fine change listed).known
    rw [foldl_puts, putAll_of_distinct (List.nil_append entries ▸ distinct)] at written
    exact ⟨entries, found, written, fine⟩
  | operated run found operation proper ih =>
    obtain ⟨content, there, records, before⟩ := ih
    obtain rfl := (Cell.dict.inj (Option.some.inj (found.symm.trans there))).2
    refine ⟨_, operation.leaves found records.distinct proper, ?_, ?_⟩
    · exact records.applyAll equality fun change listed => (proper change listed).known
    · exact List.forall_mem_append.mpr ⟨before, proper⟩
  | elsewhere run same ih =>
    obtain ⟨content, there, records⟩ := ih
    exact ⟨content, same.trans there, records⟩

/-- What is observed of a dictionary, in terms of its history and of its entries. -/
structure Observed (store : Store) (identity : Identity) (ledger : Ledger Value Item) (entries : Content) :
    Prop where
  length : (call (.object identity) .length []).run.run store = (.ok (.number entries.length), store)
  contains : ∀ key, key.IsKey → store.Decides (call (.object identity) .contains [.item (.value key)])
    (Ledger.Present Value.same ledger key)
  iterate : (call (.object identity) .iterate []).run.run store =
    (.ok (.items (entries.map fun entry => .value entry.1)), store)
  snapshot : (call (.object identity) .snapshot []).run.run store =
    (.ok (.item (.object store.cells.length)), store.alloc (.dict .plain entries))
  equal : ∀ other kind others, store.read? other = some (.dict kind others) → others.Perm entries →
    (call (.object identity) .equal [.item (.object other)]).run.run store = (.ok (.flag true), store)
  /-- What a present key has: its value was the last one written. -/
  present : ∀ key value, key.IsKey → Ledger.LastWritten Value.same ledger key value →
    (call (.object identity) .getItem [.item (.value key)]).run.run store = (.ok (.item value), store) ∧
    (∃ later, (call (.object identity) .deleteItem [.item (.value key)]).run.run store = (.ok .nothing, later)) ∧
    ∀ default, (call (.object identity) .get (Operation.keyed key default)).run.run store =
        (.ok (.item value), store) ∧
      (call (.object identity) .setDefault (Operation.keyed key default)).run.run store =
        (.ok (.item value), store) ∧
      ∃ later, (call (.object identity) .pop (Operation.keyed key default)).run.run store =
        (.ok (.item value), later)
  absent : ∀ key, key.IsKey → ¬ Ledger.Present Value.same ledger key →
    (call (.object identity) .getItem [.item (.value key)]).run.run store = (.error .absent, store) ∧
    (call (.object identity) .deleteItem [.item (.value key)]).run.run store = (.error .absent, store) ∧
    (call (.object identity) .pop (Operation.keyed key none)).run.run store = (.error .absent, store) ∧
    (∀ default, (call (.object identity) .pop (Operation.keyed key (some default))).run.run store =
      (.ok (.item default), store)) ∧
    ∀ default, (call (.object identity) .get (Operation.keyed key default)).run.run store =
        (.ok (.item (default.getD (.value .null))), store) ∧
      ∃ later, (call (.object identity) .setDefault (Operation.keyed key default)).run.run store =
        (.ok (.item (default.getD (.value .null))), later)
  /-- The last entry is taken and answered, and there is none exactly where the dictionary is empty. -/
  last : (entries = [] → (call (.object identity) .popItem []).run.run store = (.error .absent, store)) ∧
    ∀ rest entry, entries = rest ++ [entry] → ∃ answer later,
      (call (.object identity) .popItem []).run.run store = (.ok (.item answer), later) ∧
        later.IsPair answer entry.1 entry.2 ∧ later.read? identity = some (.dict .concurrent rest)
  /-- A deep copy that succeeds is a new dictionary. It does where the dictionary shows a value, and the copy
  shows the same. -/
  copied : (∀ copy later, (deepCopy (.object identity)).run.run store = (.ok copy, later) →
      IsCopy entries store copy later ∧ store.Extends later) ∧
    ∀ value, store.value? (.object identity) = some value → ∃ copy later,
      (deepCopy (.object identity)).run.run store = (.ok copy, later) ∧ later.value? copy = some value

theorem run_sameItem_self {item : Item} (proper : item.IsProper) :
    (sameItem item item).run.run store = (.ok true, store) := by
  cases item with
  | value own =>
    have itself : own.same own = true := Value.same_self proper
    change (valueOf (.value own) >>= fun first => valueOf (.value own) >>= fun second =>
      pure (first.same second)).run.run store = _
    rw [run_bind_valueOf, Store.value?, Store.view_value, Option.elim_some, run_bind_valueOf, Store.value?,
      Store.view_value, Option.elim_some, itself]
    rfl
  | object other => exact congrArg (fun step : Step Bool => step.run.run store) (if_pos (beq_self_eq_true other))

/-- Entries are equal to the same ones in any order. -/
theorem run_sameWithin {entries others : Content} (part : ∀ entry ∈ entries, entry ∈ others)
    (distinct : Members.Distinct Value.same Value.IsKey (others.map (·.1)))
    (proper : ∀ entry ∈ entries, entry.2.IsProper) :
    (sameWithin others entries).run.run store = (.ok true, store) := by
  induction entries with
  | nil => rfl
  | cons entry entries ih =>
    obtain ⟨here, later⟩ := List.forall_mem_cons.mp part
    obtain ⟨own, proper⟩ := List.forall_mem_cons.mp proper
    have key := distinct.each entry.1 (List.mem_map_of_mem here)
    have sought := Entries.find?_of_same Value.equality_same distinct here key (Value.same_self key)
    unfold sameWithin
    rw [sought]
    dsimp only
    rw [run_bind_of_ok (run_sameItem_self own), if_pos rfl]
    exact ih later proper

/-- A dictionary whose entries are those of a history is observed to be so. -/
theorem observed_of_records {entries : Content} (found : store.read? identity = some (.dict .concurrent entries))
    (records : Ledger.Records Value.same Value.IsKey ledger entries)
    (proper : ∀ change ∈ ledger, change.IsProper) : Observed store identity ledger entries where
  length := by
    rw [run_call .length found nofun]
    rfl
  contains := by
    intro key here
    refine ⟨_, run_contains found here.hashable, ?_⟩
    rw [Option.isSome_iff_ne_none, ne_eq, records.find?_eq_none_iff Value.equality_same here, not_not]
  iterate := by
    rw [run_call .iterate found nofun]
    have started := run_ofObject ((run_bind_cell found).trans rfl)
    change (Traversal.ofObject identity >>= fun traversal => traversal.toItems >>= fun items =>
      pure (Outcome.items items)).run.run store = _
    rw [run_bind_of_ok started, run_bind_of_ok (run_toItems_snapshot _ store)]
    rfl
  snapshot := by
    rw [run_call .snapshot found nofun]
    rfl
  equal := by
    intro other kind others there perm
    have distinct : Members.Distinct Value.same Value.IsKey (others.map (·.1)) :=
      records.distinct.perm Value.equality_same (perm.map (·.1))
    have items : ∀ entry ∈ entries, entry.2.IsProper := fun entry listed =>
      proper_of_lastWritten proper (records.written entry listed)
    rw [run_call .equal found nofun]
    change (equal entries (.object other)).run.run store = _
    unfold equal
    dsimp only
    rw [run_bind_cell there]
    dsimp only
    rw [if_pos (beq_iff_eq.mpr perm.length_eq.symm),
      run_bind_of_ok (run_sameWithin (fun entry listed => perm.mem_iff.mpr listed) distinct items)]
    rfl
  present := by
    intro key value here written
    have sought := (records.find?_eq_some_iff Value.equality_same here).mpr written
    let later := store.write identity (.dict .concurrent (Entries.erase Value.same key entries))
    refine ⟨?_, ⟨later, ?_⟩, fun default => ⟨?_, ?_, later, ?_⟩⟩
    · rw [run_getItem found here.hashable, sought]
      rfl
    · rw [run_deleteItem found here.hashable, sought]
      rfl
    · rw [run_get found here.hashable, sought]
      rfl
    · rw [run_setDefault found here.hashable, sought]
      rfl
    · rw [run_pop found here.hashable, sought]
      rfl
  absent := by
    intro key here missing
    have sought := (records.find?_eq_none_iff Value.equality_same here).mpr missing
    let later (default : Option Item) := store.write identity (.dict .concurrent
      (Entries.put Value.same key (default.getD (.value .null)) entries))
    refine ⟨?_, ?_, ?_, fun default => ?_, fun default => ⟨?_, later default, ?_⟩⟩
    · rw [run_getItem found here.hashable, sought]
      rfl
    · rw [run_deleteItem found here.hashable, sought]
      rfl
    · rw [run_pop found here.hashable, sought]
      rfl
    · rw [run_pop found here.hashable, sought]
      rfl
    · rw [run_get found here.hashable, sought]
      rfl
    · rw [run_setDefault found here.hashable, sought]
      rfl
  last := by
    refine ⟨run_popItem_nil found, fun rest entry split => ?_⟩
    obtain ⟨answer, later, run, pair, extend⟩ := run_tuple_pair entry.1 entry.2
      (store.write identity (.dict .concurrent rest))
    refine ⟨answer, later, ?_, pair, extend _ _ (Store.read?_write_self found _)⟩
    rw [run_popItem found split, run_bind_of_ok run]
    rfl
  copied := by
    refine ⟨fun copy later run => isCopy_deepCopy found run, fun value shown => ?_⟩
    obtain ⟨copy, later, run, -, same⟩ := adds_deepCopy shown
    exact ⟨copy, later, run, same⟩

/-- Runs of operations on a dictionary. No two of its keys are equal; each has the value last written and is the
one first inserted since it was last absent; the order is that of these insertions; and all that can be
observed agrees with this. -/
theorem dictionary_runs (run : Run identity store ledger) :
    ∃ entries, store.read? identity = some (.dict .concurrent entries) ∧
      Ledger.Records Value.same Value.IsKey ledger entries ∧ Observed store identity ledger entries := by
  obtain ⟨entries, found, records, proper⟩ := run.records
  exact ⟨entries, found, records, observed_of_records found records proper⟩

/-- A new dictionary after a write of the key one and a write of an equal key. -/
def overwritten : Store :=
  (Operation.assign (.bool true) (.value (.str "b"))).after
    ((Operation.assign (.int 1) (.value (.str "a"))).after ⟨[.dict .concurrent []]⟩ 0) 0

def overwrites : Ledger Value Item :=
  [.put (.int 1) (.value (.str "a")), .put (.bool true) (.value (.str "b"))]

theorem dictionary_runs_overwritten :
    ∃ entries, overwritten.read? 0 = some (.dict .concurrent entries) ∧
      Ledger.Records Value.same Value.IsKey overwrites entries ∧ Observed overwritten 0 overwrites entries := by
  have made : (construct none []).run.run .empty = (.ok (.object 0), ⟨[.dict .concurrent []]⟩) := rfl
  have first := (Run.constructed made nofun).operated rfl (.assign (.int 1) (.value (.str "a")))
    (List.forall_mem_singleton.mpr (by decide))
  have second := first.operated rfl (.assign (.bool true) (.value (.str "b")))
    (List.forall_mem_singleton.mpr (by decide))
  exact dictionary_runs second

end DictCall

end LayeredConfig
