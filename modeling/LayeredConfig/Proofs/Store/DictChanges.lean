import LayeredConfig.Proofs.Container.Ledgers
import LayeredConfig.Proofs.Store.Answers
import LayeredConfig.Proofs.Store.Copying
import LayeredConfig.Proofs.Value.Sameness

namespace LayeredConfig

open Step

/-- An item as it can be part of an object: another object, or a value that cannot change. -/
def Item.IsProper : Item → Prop
  | .value own => own.IsKey
  | .object _ => True

instance : DecidablePred Item.IsProper
  | .value own => inferInstanceAs (Decidable own.IsKey)
  | .object _ => isTrue trivial

/-- The keys and values of a change can be such. -/
def Change.IsProper : Change Value Item → Prop
  | .put key item => key.IsKey ∧ item.IsProper
  | .removed key => key.IsKey
  | .cleared => True

instance : DecidablePred Change.IsProper
  | .put key item => inferInstanceAs (Decidable (key.IsKey ∧ item.IsProper))
  | .removed key => inferInstanceAs (Decidable key.IsKey)
  | .cleared => isTrue trivial

theorem Change.IsProper.known {change : Change Value Item} (proper : change.IsProper) :
    change.Known Value.IsKey := by
  cases change with
  | put key item => exact proper.1
  | removed key => exact proper
  | cleared => trivial

namespace DictCall

/-- An operation on a dictionary. -/
inductive Operation
  | assign (key : Value) (item : Item)
  | delete (key : Value)
  | get (key : Value) (default : Option Item)
  | setDefault (key : Value) (default : Option Item)
  | pop (key : Value) (default : Option Item)
  | popItem
  | clear
  | update (source : Option Item) (named : List (Str × Item))
  | copy

namespace Operation

/-- The arguments of a call with a key and maybe a default. -/
def keyed (key : Value) (default : Option Item) : List Argument :=
  .item (.value key) :: default.toList.map .item

def step (identity : Identity) : Operation → Step Outcome
  | .assign key item => call (.object identity) .setItem [.item (.value key), .item item]
  | .delete key => call (.object identity) .deleteItem [.item (.value key)]
  | .get key default => call (.object identity) .get (keyed key default)
  | .setDefault key default => call (.object identity) .setDefault (keyed key default)
  | .pop key default => call (.object identity) .pop (keyed key default)
  | .popItem => call (.object identity) .popItem []
  | .clear => call (.object identity) .clear []
  | .update source named => updateNamed (.object identity) (source.toList.map .item) named
  | .copy => Outcome.item <$> deepCopy (.object identity)

/-- The store after an operation, which may have failed. -/
def after (operation : Operation) (store : Store) (identity : Identity) : Store :=
  ((operation.step identity).run.run store).2

end Operation

/-- The pairs that an update takes from some items, and whether it takes them all. Each is read when it is
reached, from the store in which those before it have been put. -/
def delivered (identity : Identity) (kind : DictKind) (content : Content) (store : Store) :
    List Item → Content × Bool
  | [] => ([], true)
  | item :: items =>
    match ((entryOf item).run.run store).1 with
    | .ok (key, value) =>
      let content := Entries.put Value.same key value content
      let rest := delivered identity kind content (store.write identity (.dict kind content)) items
      ((key, value) :: rest.1, rest.2)
    | .error _ => ([], false)

/-- The pairs that an update takes from the elements of a source, if it has any. -/
def deliveredBy (identity : Identity) (kind : DictKind) (content : Content) (store : Store) (source : Item) :
    Content × Bool :=
  match ((elements source).run.run store).1 with
  | .ok items => delivered identity kind content store items
  | .error _ => ([], false)

/-- The entries that an update takes from a source, and whether it takes them all: those of a dictionary at
once, and the pairs of anything else one after the other. -/
def suppliedBy (identity : Identity) (kind : DictKind) (content : Content) (store : Store) (source : Item) :
    Content × Bool :=
  match source with
  | .object other =>
    match store.read? other with
    | some (.dict _ entries) => (entries, true)
    | _ => deliveredBy identity kind content store source
  | .value _ => deliveredBy identity kind content store source

/-- The same with no source, which supplies nothing. -/
def supplied (identity : Identity) (kind : DictKind) (content : Content) (store : Store) :
    Option Item → Content × Bool
  | none => ([], true)
  | some source => suppliedBy identity kind content store source

/-- Writes of entries, one after the other. -/
def puts (entries : Content) : Ledger Value Item :=
  entries.map fun entry => .put entry.1 entry.2

def namedEntries (named : List (Str × Item)) : Content :=
  named.map fun (name, item) => (.str name, item)

/-- The changes that an update makes: none where an entry is named as the dictionary itself is in the call, and
the named entries last, if nothing before them was faulty. -/
def updates (identity : Identity) (kind : DictKind) (content : Content) (store : Store)
    (source : Option Item) (named : List (Str × Item)) : Ledger Value Item :=
  if (named.lookup (.whole "self")).isSome then []
  else
    let (entries, whole) := supplied identity kind content store source
    puts entries ++ if whole then puts (namedEntries named) else []

/-- The changes that an operation makes in a dictionary with some content. -/
def Operation.changes (identity : Identity) (content : Content) (store : Store) :
    Operation → Ledger Value Item
  | .assign key item => [.put key item]
  | .delete key => [.removed key]
  | .get _ _ => []
  | .setDefault key default =>
    if (Entries.find? Value.same key content).isSome then []
    else [.put key (default.getD (.value .null))]
  | .pop key _ => [.removed key]
  | .popItem => (content.getLast?.map fun entry => Change.removed entry.1).toList
  | .clear => [.cleared]
  | .update source named => updates identity .concurrent content store source named
  | .copy => []

variable {identity : Identity} {kind : DictKind} {content : Content} {store : Store}

theorem foldl_puts (entries content : Content) :
    (puts entries).foldl (Change.apply Value.same) content = Entries.putAll Value.same entries content :=
  List.foldl_map ..

/-- A step puts the entries that are taken into a dictionary, and succeeds if these are all. -/
def Puts (identity : Identity) (kind : DictKind) (content : Content) (store : Store) (step : Step Content)
    (taken : Content × Bool) : Prop :=
  ∃ result, step.run.run store =
      (result, store.write identity (.dict kind (Entries.putAll Value.same taken.1 content))) ∧
    if taken.2 then result = .ok (Entries.putAll Value.same taken.1 content) else ∃ fault, result = .error fault

theorem puts_none (found : store.read? identity = some (.dict kind content)) {step : Step Content} (fault : Fault)
    (failed : step.run.run store = (.error fault, store)) : Puts identity kind content store step ([], false) :=
  ⟨.error fault, failed.trans (congrArg (Prod.mk _) (Store.write_of_read? found).symm), fault, rfl⟩

theorem puts_putItems (found : store.read? identity = some (.dict kind content)) (items : List Item) :
    Puts identity kind content store (putItems identity kind content items)
      (delivered identity kind content store items) := by
  induction items generalizing content store with
  | nil => exact ⟨.ok content, congrArg (Prod.mk _) (Store.write_of_read? found).symm, rfl⟩
  | cons item items ih =>
    have read := (looks_entryOf item).run_eq store
    unfold delivered
    cases given : ((entryOf item).run.run store).1 with
    | error fault =>
      refine puts_none found fault ?_
      unfold putItems
      rw [ExceptT.run_bind, StateT.run_bind, read, given]
      rfl
    | ok entry =>
      obtain ⟨key, value⟩ := entry
      obtain ⟨result, run, answer⟩ :=
        ih (Store.read?_write_self found (.dict kind (Entries.put Value.same key value content)))
      rw [Store.write_write] at run
      refine ⟨result, ?_, answer⟩
      unfold putItems
      rw [ExceptT.run_bind, StateT.run_bind, read, given]
      exact run

theorem puts_elements (found : store.read? identity = some (.dict kind content)) (source : Item) :
    Puts identity kind content store (elements source >>= putItems identity kind content)
      (deliveredBy identity kind content store source) := by
  have read := (looks_elements source).run_eq store
  unfold deliveredBy
  cases given : ((elements source).run.run store).1 with
  | error fault =>
    refine puts_none found fault ?_
    rw [ExceptT.run_bind, StateT.run_bind, read, given]
    rfl
  | ok items =>
    obtain ⟨result, run, answer⟩ := puts_putItems found items
    refine ⟨result, ?_, answer⟩
    rw [ExceptT.run_bind, StateT.run_bind, read, given]
    exact run

theorem puts_updateFrom (found : store.read? identity = some (.dict kind content)) (source : Item) :
    Puts identity kind content store (updateFrom identity kind content source)
      (suppliedBy identity kind content store source) := by
  have pairs := puts_elements found source
  unfold suppliedBy updateFrom
  cases source with
  | value own => exact pairs
  | object other =>
    dsimp only
    cases there : store.read? other with
    | none =>
      have nothing : deliveredBy identity kind content store (.object other) = ([], false) := by
        unfold deliveredBy elements
        rw [run_bind_cell_none there]
      dsimp only
      rw [nothing]
      exact puts_none found .absent (run_bind_cell_none there _)
    | some cell =>
      cases cell with
      | dict kind' entries => exact ⟨_, (run_bind_cell there).trans rfl, rfl⟩
      | _ =>
        obtain ⟨result, run, answer⟩ := pairs
        exact ⟨result, (run_bind_cell there).trans run, answer⟩

theorem run_update (found : store.read? identity = some (.dict kind content)) (source : Option Item)
    (named : List (Str × Item)) :
    ((update identity kind content (source.toList.map .item) named).run.run store).2 =
      store.write identity (.dict kind
        ((updates identity kind content store source named).foldl (Change.apply Value.same) content)) := by
  unfold update updates
  dsimp only
  by_cases self : (named.lookup (.whole "self")).isSome = true
  · rw [if_pos self, if_pos self]
    exact (Store.write_of_read? found).symm
  · rw [if_neg self, if_neg self]
    cases source with
    | none => exact congrArg (fun entries => store.write identity (.dict kind entries)) (foldl_puts _ _).symm
    | some source =>
      obtain ⟨result, run, answer⟩ := puts_updateFrom found source
      change ((updateFrom identity kind content source >>= _).run.run store).2 = _
      rw [ExceptT.run_bind, StateT.run_bind, run, supplied, List.foldl_append, foldl_puts]
      split at answer
      · next whole =>
        subst answer
        rw [whole, if_pos rfl, foldl_puts]
        exact Store.write_write ..
      · next faulty =>
        obtain ⟨fault, rfl⟩ := answer
        rw [if_neg faulty]
        rfl

theorem run_bind_find {key : Value} (hashable : key.hashable = true) (content : Content)
    (next : Option Item → Step α) :
    ((do return Entries.find? Value.same (← Step.hashable (.value key)) content) >>= next).run.run store =
      (next (Entries.find? Value.same key content)).run.run store := by
  rw [bind_assoc]
  exact run_bind_hashable hashable _

theorem run_bind_find_of_not {key : Value} (loose : ¬ key.hashable = true) (content : Content)
    (next : Option Item → Step α) :
    ((do return Entries.find? Value.same (← Step.hashable (.value key)) content) >>= next).run.run store =
      (.error .kind, store) := by
  rw [bind_assoc]
  exact run_bind_hashable_of_not loose _

section calls

variable (found : store.read? identity = some (.dict .concurrent content)) {key : Value}
  (hashable : key.hashable = true)

include found

theorem run_clear :
    (call (.object identity) .clear []).run.run store =
      (.ok .nothing, store.write identity (.dict .concurrent [])) := by
  rw [run_call .clear found nofun]
  rfl

theorem run_popItem_nil (empty : content = []) :
    (call (.object identity) .popItem []).run.run store = (.error .absent, store) := by
  subst empty
  rw [run_call .popItem found nofun]
  rfl

theorem run_popItem {entry : Value × Item} {rest : Content} (last : content = rest ++ [entry]) :
    (call (.object identity) .popItem []).run.run store =
      (tuple [.value entry.1, entry.2] >>= fun pair => pure (.item pair)).run.run
        (store.write identity (.dict .concurrent rest)) := by
  subst last
  rw [run_call .popItem found nofun]
  unfold Cell.call run
  dsimp only [withNone]
  rw [List.getLast?_concat, List.dropLast_concat]
  rfl

include hashable

theorem run_setItem (item : Item) :
    (call (.object identity) .setItem [.item (.value key), .item item]).run.run store =
      (.ok .nothing, store.write identity (.dict .concurrent (Entries.put Value.same key item content))) := by
  rw [run_call .setItem found nofun]
  exact run_bind_hashable hashable _

theorem run_deleteItem :
    (call (.object identity) .deleteItem [.item (.value key)]).run.run store =
      (Entries.find? Value.same key content).elim (.error .absent, store) fun _ =>
        (.ok .nothing, store.write identity (.dict .concurrent (Entries.erase Value.same key content))) := by
  rw [run_call .deleteItem found nofun]
  refine (run_bind_find hashable content _).trans ?_
  cases Entries.find? Value.same key content with
  | none => rfl
  | some item => exact run_bind_hashable hashable _

theorem run_getItem :
    (call (.object identity) .getItem [.item (.value key)]).run.run store =
      ((Entries.find? Value.same key content).elim (.error .absent) fun item => .ok (.item item), store) := by
  rw [run_call .getItem found nofun]
  refine (run_bind_find hashable content _).trans ?_
  cases Entries.find? Value.same key content <;> rfl

theorem run_contains :
    (call (.object identity) .contains [.item (.value key)]).run.run store =
      (.ok (.flag (Entries.find? Value.same key content).isSome), store) := by
  rw [run_call .contains found nofun]
  exact run_bind_find hashable content _

theorem run_get (default : Option Item) :
    (call (.object identity) .get (Operation.keyed key default)).run.run store =
      (.ok (.item ((Entries.find? Value.same key content).getD (default.getD (.value .null)))), store) := by
  rw [run_call .get found nofun]
  cases default <;> exact run_bind_find hashable content _

theorem run_setDefault (default : Option Item) :
    (call (.object identity) .setDefault (Operation.keyed key default)).run.run store =
      (Entries.find? Value.same key content).elim
        (.ok (.item (default.getD (.value .null))), store.write identity (.dict .concurrent
          (Entries.put Value.same key (default.getD (.value .null)) content)))
        fun item => (.ok (.item item), store) := by
  rw [run_call .setDefault found nofun]
  cases default with
  | none =>
    refine (run_bind_find hashable content _).trans ?_
    cases Entries.find? Value.same key content with
    | none => exact run_bind_hashable hashable _
    | some item => rfl
  | some default =>
    refine (run_bind_find hashable content _).trans ?_
    cases Entries.find? Value.same key content with
    | none => exact run_bind_hashable hashable _
    | some item => rfl

/-- A key is taken away with its value, and a missing one answers the default if there is one. -/
theorem run_pop (default : Option Item) :
    (call (.object identity) .pop (Operation.keyed key default)).run.run store =
      (Entries.find? Value.same key content).elim
        (default.elim (.error .absent) fun item => .ok (.item item), store)
        fun item => (.ok (.item item),
          store.write identity (.dict .concurrent (Entries.erase Value.same key content))) := by
  have popped (default : Option Item) : (pop identity .concurrent content (.value key) default).run.run store =
      (Entries.find? Value.same key content).elim
        (default.elim (.error .absent) fun item => .ok (.item item), store)
        fun item => (.ok (.item item),
          store.write identity (.dict .concurrent (Entries.erase Value.same key content))) := by
    unfold pop
    cases content with
    | nil => cases default <;> rfl
    | cons entry content =>
      refine (run_bind_hashable hashable _).trans ?_
      cases Entries.find? Value.same key (entry :: content) with
      | none => cases default <;> rfl
      | some item => rfl
  rw [run_call .pop found nofun]
  cases default with
  | none => exact popped none
  | some default => exact popped (some default)

end calls

/-- After a step, which may have failed, the dictionary has some entries. -/
def Leaves (identity : Identity) (store : Store) (step : Step Outcome) (entries : Content) : Prop :=
  (step.run.run store).2.read? identity = some (.dict .concurrent entries)

section leaving

variable (found : store.read? identity = some (.dict .concurrent content)) {key : Value}

include found

theorem leaves_of_write {step : Step Outcome} {result : Except Fault Outcome} {entries : Content}
    (run : step.run.run store = (result, store.write identity (.dict .concurrent entries))) :
    Leaves identity store step entries := by
  rw [Leaves, run]
  exact Store.read?_write_self found _

theorem leaves_of_look {step : Step Outcome} {result : Except Fault Outcome}
    (run : step.run.run store = (result, store)) : Leaves identity store step content := by
  rw [Leaves, run]
  exact found

theorem leaves_of_erase {step : Step Outcome} {missing : Except Fault Outcome}
    {taken : Item → Except Fault Outcome}
    (run : step.run.run store = (Entries.find? Value.same key content).elim (missing, store) fun item =>
      (taken item, store.write identity (.dict .concurrent (Entries.erase Value.same key content)))) :
    Leaves identity store step (Entries.erase Value.same key content) := by
  cases sought : Entries.find? Value.same key content with
  | none =>
    rw [sought] at run
    rw [Entries.erase_of_not_among (Entries.find?_eq_none_iff.mp sought)]
    exact leaves_of_look found run
  | some item =>
    rw [sought] at run
    exact leaves_of_write found run

theorem leaves_get (key : Value) (default : Option Item) :
    Leaves identity store (call (.object identity) .get (Operation.keyed key default)) content := by
  by_cases hashable : key.hashable = true
  · exact leaves_of_look found (run_get found hashable default)
  · have failed : (call (.object identity) .get (Operation.keyed key default)).run.run store =
        (.error .kind, store) := by
      rw [run_call .get found nofun]
      cases default <;> exact run_bind_find_of_not hashable content _
    exact leaves_of_look found failed

theorem leaves_setDefault_of_present {item : Item} (sought : Entries.find? Value.same key content = some item)
    (default : Option Item) :
    Leaves identity store (call (.object identity) .setDefault (Operation.keyed key default)) content := by
  by_cases hashable : key.hashable = true
  · have run := run_setDefault found hashable default
    rw [sought] at run
    exact leaves_of_look found run
  · have failed : (call (.object identity) .setDefault (Operation.keyed key default)).run.run store =
        (.error .kind, store) := by
      rw [run_call .setDefault found nofun]
      cases default <;> exact run_bind_find_of_not hashable content _
    exact leaves_of_look found failed

theorem leaves_setDefault_of_absent (hashable : key.hashable = true)
    (sought : Entries.find? Value.same key content = none) (default : Option Item) :
    Leaves identity store (call (.object identity) .setDefault (Operation.keyed key default))
      (Entries.put Value.same key (default.getD (.value .null)) content) := by
  have run := run_setDefault found hashable default
  rw [sought] at run
  exact leaves_of_write found run

theorem leaves_popItem {entry : Value × Item} {rest : Content} (last : content = rest ++ [entry]) :
    Leaves identity store (call (.object identity) .popItem []) rest := by
  obtain ⟨pair, later, run, -, extend⟩ := run_tuple_pair entry.1 entry.2
    (store.write identity (.dict .concurrent rest))
  rw [Leaves, run_popItem found last, run_bind_of_ok run]
  exact extend _ _ (Store.read?_write_self found _)

theorem leaves_copy : Leaves identity store (Outcome.item <$> deepCopy (.object identity)) content := by
  cases run : (deepCopy (.object identity)).run.run store with
  | mk result later =>
    have kept := (Spares.extends (spares_deepCopy _ (.object identity)) run).1 identity _ found
    rw [Leaves, map_eq_pure_bind, ExceptT.run_bind, StateT.run_bind, run]
    cases result <;> exact kept

theorem leaves_update (source : Option Item) (named : List (Str × Item)) :
    Leaves identity store (updateNamed (.object identity) (source.toList.map .item) named)
      ((updates identity .concurrent content store source named).foldl (Change.apply Value.same) content) := by
  unfold Leaves updateNamed
  rw [run_bind_cell found]
  dsimp only
  rw [run_update found]
  exact Store.read?_write_self found _

end leaving

/-- After an operation the dictionary has the entries that its changes make of those before. -/
theorem Operation.leaves (operation : Operation)
    (found : store.read? identity = some (.dict .concurrent content))
    (distinct : Members.Distinct Value.same Value.IsKey (content.map (·.1)))
    (proper : ∀ change ∈ operation.changes identity content store, change.IsProper) :
    Leaves identity store (operation.step identity)
      ((operation.changes identity content store).foldl (Change.apply Value.same) content) := by
  have only {change : Change Value Item}
      (listed : operation.changes identity content store = [change]) : change.IsProper :=
    proper change (listed ▸ List.mem_singleton_self change)
  cases operation with
  | assign key item =>
    have own : key.IsKey := (only rfl).1
    exact leaves_of_write found (run_setItem found own.hashable item)
  | delete key =>
    have own : key.IsKey := only rfl
    exact leaves_of_erase found (run_deleteItem found own.hashable)
  | get key default => exact leaves_get found key default
  | setDefault key default =>
    dsimp only [changes] at only ⊢
    cases sought : Entries.find? Value.same key content with
    | none =>
      rw [sought] at only
      have own : key.IsKey := (only rfl).1
      exact leaves_setDefault_of_absent found own.hashable sought default
    | some item => exact leaves_setDefault_of_present found sought default
  | pop key default =>
    have own : key.IsKey := only rfl
    exact leaves_of_erase found (run_pop found own.hashable default)
  | popItem =>
    rcases List.eq_nil_or_concat content with rfl | ⟨rest, entry, last⟩
    · exact leaves_of_look found (run_popItem_nil found rfl)
    · rw [List.concat_eq_append] at last
      subst last
      have left := leaves_popItem found rfl
      rw [← Entries.erase_last Value.equality_same distinct] at left
      dsimp only [changes]
      rw [List.getLast?_concat]
      exact left
  | clear => exact leaves_of_write found (run_clear found)
  | update source named => exact leaves_update found source named
  | copy => exact leaves_copy found

end DictCall

end LayeredConfig
