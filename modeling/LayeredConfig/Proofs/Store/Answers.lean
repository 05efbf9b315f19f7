import LayeredConfig.Proofs.Store.Outlines
import LayeredConfig.Proofs.Store.PlainForms

namespace LayeredConfig

open Step

def Cell.IsConcurrent : Cell → Prop
  | .seq kind _ => kind = .concurrent
  | .set kind _ => kind = .concurrent
  | .dict kind _ => kind = .concurrent
  | .document _ _ => False

/-- A call on the content of an object. -/
def Cell.call (content : Cell) (identity : Identity) (method : Method) (arguments : List Argument) :
    Step Outcome :=
  match content with
  | .seq .tuple _ => fail .method
  | .seq kind items => SequenceCall.run identity kind items method arguments
  | .set kind members => SetCall.run identity kind members method arguments
  | .dict kind entries => DictCall.run identity kind entries method arguments
  | .document type slots => Document.run identity type slots method arguments

namespace Store

theorem write_write (store : Store) (identity : Identity) (first second : Cell) :
    (store.write identity first).write identity second = store.write identity second :=
  congrArg Store.mk (List.set_set ..)

/-- An answer is a pair: a tuple that is a value where both parts are, or a new object. -/
def IsPair (store : Store) (answer : Item) (key : Value) (item : Item) : Prop :=
  (∃ own, item = .value own ∧ answer = .value (.seq .tuple [key, own])) ∨
    ∃ pair, answer = .object pair ∧ store.read? pair = some (.seq .tuple [.value key, item])

/-- A call answers whether something is so, and changes nothing. -/
def Decides (store : Store) (step : Step Outcome) (property : Prop) : Prop :=
  ∃ flag, step.run.run store = (.ok (.flag flag), store) ∧ (flag = true ↔ property)

end Store

namespace Step

variable {store : Store} {identity : Identity} {arguments : List Argument}

theorem run_bind_write (identity : Identity) (cell : Cell) (store : Store) (next : Unit → Step α) :
    (write identity cell >>= next).run.run store = (next ()).run.run (store.write identity cell) :=
  rfl

theorem run_bind_cell_none (missing : store.read? identity = none) (next : Cell → Step α) :
    (cell identity >>= next).run.run store = (.error .absent, store) := by
  rw [ExceptT.run_bind, StateT.run_bind, run_cell, missing]
  rfl

theorem run_bind_hashable {value : Value} (frozen : value.hashable = true) (next : Value → Step α) :
    (hashable (.value value) >>= next).run.run store = (next value).run.run store := by
  rw [hashable, if_pos frozen]
  rfl

theorem run_bind_hashable_of_not {value : Value} (loose : ¬ value.hashable = true) (next : Value → Step α) :
    (hashable (.value value) >>= next).run.run store = (.error .kind, store) := by
  rw [hashable, if_neg loose]
  rfl

theorem run_bind_soughtMember {value : Value} (frozen : value.hashable = true) (next : Value → Step α) :
    (soughtMember (.value value) >>= next).run.run store = (next value).run.run store :=
  run_bind_hashable frozen next

theorem run_mapM_hashable {values : List Value} (frozen : ∀ value ∈ values, value.hashable = true) :
    ((values.map Item.value).mapM hashable).run.run store = (.ok values, store) := by
  induction values with
  | nil => rfl
  | cons value values ih =>
    obtain ⟨here, later⟩ := List.forall_mem_cons.mp frozen
    rw [List.map_cons, List.mapM_cons, run_bind_hashable here, run_bind_of_ok (ih later)]
    rfl

/-- A call on an object is one on its content; the display of an object is no such call. -/
theorem run_call {content : Cell} (method : Method) (found : store.read? identity = some content)
    (other : method ≠ .display) :
    (call (.object identity) method arguments).run.run store =
      (content.call identity method arguments).run.run store := by
  unfold call
  refine (run_bind_cell found).trans ?_
  rw [if_neg fun same => other (eq_of_beq same)]
  cases content with
  | seq kind items => cases kind <;> rfl
  | _ => rfl

theorem run_tuple_pair (key : Value) (item : Item) (store : Store) :
    ∃ answer later, (tuple [.value key, item]).run.run store = (.ok answer, later) ∧
      later.IsPair answer key item ∧ store.Extends later := by
  cases item with
  | value own => exact ⟨_, store, rfl, .inl ⟨own, rfl, rfl⟩, .refl store⟩
  | object other => exact ⟨_, _, rfl, .inr ⟨_, rfl, store.read?_alloc_self _⟩, store.extends_alloc _⟩

theorem run_ofObject {items : List Item}
    (run : (elements (.object identity)).run.run store = (.ok items, store)) :
    (Traversal.ofObject identity).run.run store = (.ok (.snapshot items), store) :=
  run_bind_of_ok run

theorem run_toItems_snapshot (items : List Item) (store : Store) :
    (Traversal.snapshot items).toItems.run.run store = (.ok items, store) := by
  change ((Traversal.snapshot items).take items.length).run.run store = _
  induction items with
  | nil => rfl
  | cons item items ih =>
    change (Traversal.take items.length (.snapshot items) >>= fun rest => pure (item :: rest)).run.run store = _
    rw [run_bind_of_ok ih]
    rfl

/-- A step that changes nothing, whether it succeeds or fails. -/
def Looks (step : Step α) : Prop :=
  ∀ store, (step.run.run store).2 = store

theorem looks_pure (value : α) : Looks (pure value) :=
  fun _ => rfl

theorem looks_fail (fault : Fault) : Looks (fail fault : Step α) :=
  fun _ => rfl

theorem Looks.bind {step : Step α} {next : α → Step β} (first : Looks step)
    (rest : ∀ value, Looks (next value)) : Looks (step >>= next) := by
  intro store
  cases run : step.run.run store with
  | mk result later =>
    obtain rfl : later = store := (congrArg Prod.snd run).symm.trans (first store)
    rw [ExceptT.run_bind, StateT.run_bind, run]
    cases result with
    | error fault => rfl
    | ok value => exact rest value later

theorem looks_cell (identity : Identity) : Looks (cell identity) := by
  intro store
  rw [run_cell]
  cases store.read? identity <;> rfl

theorem looks_hashable (item : Item) : Looks (hashable item) := by
  unfold hashable
  split
  · split
    · exact looks_pure _
    · exact looks_fail .kind
  · exact looks_fail .kind

theorem looks_elements (item : Item) : Looks (elements item) := by
  unfold elements
  split
  case h_5 =>
    refine (looks_cell _).bind fun content => ?_
    split
    case h_4 => exact looks_fail .kind
    all_goals exact looks_pure _
  case h_6 => exact looks_fail .kind
  all_goals exact looks_pure _

theorem looks_entryOf (item : Item) : Looks (DictCall.entryOf item) := by
  refine (looks_elements item).bind fun parts => ?_
  split
  · exact (looks_hashable _).bind fun _ => looks_pure _
  · exact looks_fail .content

theorem Looks.run_eq {step : Step α} (looks : Looks step) (store : Store) :
    step.run.run store = ((step.run.run store).1, store) :=
  Prod.ext rfl (looks store)

theorem of_run_elements {later : Store} {items : List Item}
    (run : (elements (.object identity)).run.run store = (.ok items, later)) :
    ∃ content, store.read? identity = some content ∧ ∀ type slots, content ≠ .document type slots := by
  obtain ⟨content, between, read, rest⟩ := exists_of_run_bind run
  obtain ⟨rfl, found⟩ := of_run_cell read
  refine ⟨content, found, ?_⟩
  rintro type slots rfl
  cases (Prod.mk.inj rest).1

end Step

end LayeredConfig
