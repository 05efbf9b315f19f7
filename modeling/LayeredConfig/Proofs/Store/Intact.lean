import LayeredConfig.Proofs.Store.Answers
import LayeredConfig.Proofs.Store.Copying
import LayeredConfig.Store.Call

namespace LayeredConfig

namespace Step

/-- A step that changes no object, whether it succeeds or fails, but may make new ones. -/
def Expands (step : Step α) : Prop :=
  ∀ store : Store, store.Extends (step.run.run store).2

/-- A step that never fails. -/
def Sure (step : Step α) : Prop :=
  ∀ store : Store, ∃ value later, step.run.run store = (.ok value, later)

/-- A step that never fails and answers the question itself. -/
def Settles (step : Step Outcome) : Prop :=
  ∀ store : Store, ∃ outcome later, step.run.run store = (.ok outcome, later) ∧ outcome ≠ .notImplemented

/-- A call is refused by a fault, or by leaving the question to the other operand. -/
def IsRefusal : Except Fault Outcome → Prop
  | .ok outcome => outcome = .notImplemented
  | .error _ => True

/-- A step that changes no object if it is refused. -/
def Intact (step : Step Outcome) : Prop :=
  ∀ (store : Store) result later, step.run.run store = (result, later) → IsRefusal result → store.Extends later

section combining

variable {step : Step α} {next : α → Step β}

theorem Looks.expands (looks : Looks step) : Expands step := by
  intro store
  rw [looks store]
  exact .refl store

theorem expands_alloc (cell : Cell) : Expands (alloc cell) :=
  fun store => store.extends_alloc cell

theorem Expands.bind (first : Expands step) (rest : ∀ value, Expands (next value)) :
    Expands (step >>= next) := by
  intro store
  cases run : (step >>= next).run.run store with
  | mk result later =>
    rcases run_bind run with ⟨fault, failed, -⟩ | ⟨value, between, done, run⟩
    · simpa [failed] using first store
    · have extend : store.Extends between := by simpa [done] using first store
      exact extend.trans (by simpa [run] using rest value between)

theorem Expands.map (expands : Expands step) (answer : α → β) : Expands (answer <$> step) := by
  rw [map_eq_pure_bind]
  exact expands.bind fun _ => (looks_pure _).expands

theorem Looks.mapM {act : α → Step β} (each : ∀ item, Looks (act item)) (items : List α) :
    Looks (items.mapM act) := by
  induction items with
  | nil => exact looks_pure []
  | cons item items ih =>
    rw [List.mapM_cons]
    exact (each item).bind fun _ => ih.bind fun _ => looks_pure _

theorem sure_pure (value : α) : Sure (pure value : Step α) :=
  fun store => ⟨value, store, rfl⟩

theorem sure_write (identity : Identity) (cell : Cell) : Sure (write identity cell) :=
  fun _ => ⟨(), _, rfl⟩

theorem sure_alloc (cell : Cell) : Sure (alloc cell) :=
  fun _ => ⟨_, _, rfl⟩

theorem Sure.bind (first : Sure step) (rest : ∀ value, Sure (next value)) : Sure (step >>= next) := by
  intro store
  obtain ⟨value, between, run⟩ := first store
  obtain ⟨result, later, runRest⟩ := rest value between
  exact ⟨result, later, (run_bind_of_ok run).trans runRest⟩

theorem sure_tuple (items : List Item) : Sure (tuple items) := by
  unfold tuple
  split
  · exact sure_pure _
  · exact sure_alloc _

theorem expands_tuple (items : List Item) : Expands (tuple items) := by
  unfold tuple
  split
  · exact (looks_pure _).expands
  · exact expands_alloc _

/-- A copy is made of new objects, also as far as one comes that fails. -/
theorem expands_deepCopy (item : Item) : Expands (deepCopy item) :=
  fun _ => (Spares.extends (spares_deepCopy _ item) rfl).1

end combining

section outcomes

variable {step : Step α} {next : α → Step Outcome}

theorem settles_pure {outcome : Outcome} (answered : outcome ≠ .notImplemented) :
    Settles (pure outcome : Step Outcome) :=
  fun store => ⟨outcome, store, rfl, answered⟩

theorem Sure.settles (first : Sure step) (rest : ∀ value, Settles (next value)) : Settles (step >>= next) := by
  intro store
  obtain ⟨value, between, run⟩ := first store
  obtain ⟨outcome, later, runRest, answered⟩ := rest value between
  exact ⟨outcome, later, (run_bind_of_ok run).trans runRest, answered⟩

theorem Settles.intact {step : Step Outcome} (settles : Settles step) : Intact step := by
  intro store result later run refusal
  obtain ⟨outcome, after, done, answered⟩ := settles store
  obtain rfl := (Prod.mk.inj (run.symm.trans done)).1
  exact absurd refusal answered

theorem Expands.intact {step : Step Outcome} (expands : Expands step) : Intact step := by
  intro store result later run _
  simpa [run] using expands store

theorem Looks.intact {step : Step Outcome} (looks : Looks step) : Intact step :=
  looks.expands.intact

/-- What changes no object may come before a step that changes none if it is refused. -/
theorem Expands.andThen (first : Expands step) (rest : ∀ value, Intact (next value)) :
    Intact (step >>= next) := by
  intro store result later run refusal
  rcases run_bind run with ⟨fault, failed, -⟩ | ⟨value, between, done, remaining⟩
  · simpa [failed] using first store
  · have extend : store.Extends between := by simpa [done] using first store
    exact extend.trans (rest value between result later remaining refusal)

theorem Looks.andThen (first : Looks step) (rest : ∀ value, Intact (next value)) : Intact (step >>= next) :=
  first.expands.andThen rest

end outcomes

section arguments

variable {arguments : List Argument}

theorem intact_withNone {act : Step Outcome} (intact : Intact act) : Intact (withNone arguments act) := by
  unfold withNone
  split
  · exact intact
  · exact (looks_fail .kind).intact

theorem intact_withOne {act : Item → Step Outcome} (intact : ∀ item, Intact (act item)) :
    Intact (withOne arguments act) := by
  unfold withOne
  split
  · exact intact _
  · exact (looks_fail .kind).intact

theorem intact_withTwo {act : Item → Item → Step Outcome} (intact : ∀ first second, Intact (act first second)) :
    Intact (withTwo arguments act) := by
  unfold withTwo
  split
  · exact intact _ _
  · exact (looks_fail .kind).intact

theorem looks_get : Looks (get : Step Store) :=
  fun _ => rfl

theorem looks_whole (item : Item) : Looks (whole item) := by
  unfold whole
  split
  · exact looks_pure _
  · exact looks_pure _
  · exact looks_fail .kind

theorem looks_placeNumber (item : Item) : Looks (placeNumber item) := by
  refine (looks_whole item).bind fun number => ?_
  split
  · exact looks_pure _
  · exact looks_fail .magnitude

theorem looks_wholeOrNull (item : Item) : Looks (wholeOrNull item) := by
  unfold wholeOrNull
  split
  · exact looks_pure _
  · rw [map_eq_pure_bind]
    exact (looks_whole item).bind fun _ => looks_pure _

theorem looks_slice (start stop step : Item) : Looks (slice start stop step) :=
  (looks_wholeOrNull start).bind fun _ => (looks_wholeOrNull stop).bind fun _ =>
    (looks_wholeOrNull step).bind fun _ => looks_pure _

theorem looks_soughtMember (item : Item) : Looks (soughtMember item) := by
  cases item with
  | value value => exact looks_hashable (.value value)
  | object identity =>
    refine (looks_cell identity).bind fun content => ?_
    split
    · exact looks_pure _
    · exact looks_fail .kind

theorem looks_isSet (item : Item) : Looks (isSet item) := by
  unfold isSet
  split
  · exact looks_pure _
  · exact looks_pure _
  · refine (looks_cell _).bind fun content => ?_
    split
    · exact looks_pure _
    · exact looks_pure _

theorem looks_valueOf (item : Item) : Looks (valueOf item) := by
  refine looks_get.bind fun store => ?_
  split
  · exact looks_pure _
  · exact looks_fail .nesting

end arguments

end Step

namespace Traversal

open Step

theorem looks_lookup (identity : Identity) (key : Value) : Looks (lookup identity key) := by
  refine (looks_cell identity).bind fun content => ?_
  split
  · split
    · exact looks_pure _
    · exact looks_fail .absent
  · exact looks_fail .kind

/-- A step of an iteration makes at most a pair. -/
theorem expands_next (traversal : Traversal) : Expands traversal.next := by
  unfold next
  split
  · exact (looks_pure _).expands
  · exact (looks_pure _).expands
  · exact (looks_pure _).expands
  · refine Looks.expands ((looks_cell _).bind fun content => ?_)
    split
    · split
      · exact looks_pure _
      · exact looks_fail .position
    · exact looks_fail .kind
  · exact (looks_pure _).expands
  · exact Looks.expands ((looks_lookup _ _).bind fun _ => looks_pure _)
  · exact (looks_pure _).expands
  · exact (looks_lookup _ _).expands.bind fun _ => (expands_tuple _).bind fun _ => (looks_pure _).expands

theorem expands_take (count : Nat) (traversal : Traversal) : Expands (traversal.take count) := by
  induction count generalizing traversal with
  | zero => exact (looks_pure _).expands
  | succ count ih =>
    refine (expands_next traversal).bind fun step => ?_
    split
    · exact (looks_pure _).expands
    · exact (ih _).bind fun _ => (looks_pure _).expands

theorem expands_items {start : Step Traversal} (looks : Looks start) :
    Expands (do return Outcome.items (← (← start).toItems)) :=
  looks.expands.bind fun traversal =>
    (expands_take traversal.size traversal).bind fun _ => (looks_pure _).expands

theorem looks_ofObject (identity : Identity) : Looks (ofObject identity) :=
  (looks_elements _).bind fun _ => looks_pure _

theorem looks_reversed (identity : Identity) : Looks (reversed identity) := by
  refine (looks_cell identity).bind fun content => ?_
  split
  · exact looks_pure _
  · exact looks_fail .kind
  · exact looks_fail .method

theorem looks_overValues (identity : Identity) : Looks (overValues identity) := by
  refine (looks_cell identity).bind fun content => ?_
  split
  · exact looks_pure _
  · exact looks_fail .method

theorem looks_overEntries (identity : Identity) : Looks (overEntries identity) := by
  refine (looks_cell identity).bind fun content => ?_
  split
  · exact looks_pure _
  · exact looks_fail .method

end Traversal

end LayeredConfig
