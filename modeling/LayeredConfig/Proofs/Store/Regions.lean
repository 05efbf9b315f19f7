import LayeredConfig.Store.Basic

/-!
Regions of a store. A step that works in a region reads and changes the objects there, adds new objects
to it, and leaves all others as they are. What it answers leads to no object outside the region.
-/

namespace LayeredConfig

/-- Some objects, by their identities. -/
abbrev Region := Identity → Prop

/-- The items in a content. -/
def Cell.items : Cell → List Item
  | .seq _ items => items
  | .set _ _ => []
  | .dict _ entries => entries.map (·.2)
  | .document _ slots => slots.map (·.value)

/-- An item is a value or an object of a region. -/
def Item.Within (region : Region) : Item → Prop
  | .value _ => True
  | .object identity => region identity

theorem Item.within_all (item : Item) : item.Within fun _ => True := by
  cases item <;> trivial

theorem Item.Within.imp {region wider : Region} (wide : ∀ identity, region identity → wider identity)
    {item : Item} (within : item.Within region) : item.Within wider := by
  cases item with
  | value value => trivial
  | object identity => exact wide identity within

def Cell.Within (region : Region) (cell : Cell) : Prop :=
  ∀ item ∈ cell.items, item.Within region

namespace Store

/-- No object of a region has an item outside it. -/
def Closed (store : Store) (region : Region) : Prop :=
  ∀ identity cell, region identity → store.read? identity = some cell → cell.Within region

/-- The objects that are new in a later store belong to a region. -/
def Claims (region : Region) (store later : Store) : Prop :=
  ∀ identity, store.cells.length ≤ identity → identity < later.cells.length → region identity

/-- A store has become another one by work in a region. -/
structure Worked (region : Region) (store later : Store) : Prop where
  closed : later.Closed region
  same : ∀ identity, ¬ region identity → later.read? identity = store.read? identity

theorem Worked.trans {region : Region} {store between later : Store} (first : Worked region store between)
    (second : Worked region between later) : Worked region store later :=
  ⟨second.closed, fun identity foreign =>
    (second.same identity foreign).trans (first.same identity foreign)⟩

theorem Closed.worked {region : Region} {store : Store} (closed : store.Closed region) :
    Worked region store store :=
  ⟨closed, fun _ _ => rfl⟩

theorem length_write (store : Store) (identity : Identity) (cell : Cell) :
    (store.write identity cell).cells.length = store.cells.length :=
  List.length_set

theorem length_alloc (store : Store) (cell : Cell) :
    (store.alloc cell).cells.length = store.cells.length + 1 := by
  simp [alloc]

theorem read?_eq_none_of_le {store : Store} {identity : Identity} (new : store.cells.length ≤ identity) :
    store.read? identity = none :=
  List.getElem?_eq_none new

theorem lt_of_read? {store : Store} {identity : Identity} {cell : Cell}
    (found : store.read? identity = some cell) : identity < store.cells.length :=
  (List.getElem?_eq_some_iff.mp found).1

theorem read?_write_cases {store : Store} {identity other : Identity} {cell content : Cell}
    (found : (store.write identity cell).read? other = some content) :
    content = cell ∨ store.read? other = some content := by
  by_cases same : identity = other
  · obtain ⟨_, here⟩ := List.getElem?_eq_some_iff.mp found
    simp only [write, same, List.getElem_set_self] at here
    exact .inl here.symm
  · exact .inr ((store.read?_write identity other cell same).symm.trans found)

theorem read?_alloc_self (store : Store) (cell : Cell) :
    (store.alloc cell).read? store.cells.length = some cell :=
  List.getElem?_concat_length

theorem read?_alloc_cases {store : Store} {identity : Identity} {cell content : Cell}
    (found : (store.alloc cell).read? identity = some content) :
    content = cell ∨ store.read? identity = some content := by
  by_cases new : identity < store.cells.length
  · exact .inr ((store.read?_alloc cell new).symm.trans found)
  · have bound := lt_of_read? found
    rw [length_alloc] at bound
    obtain rfl : identity = store.cells.length := Nat.le_antisymm (Nat.le_of_lt_succ bound) (Nat.le_of_not_lt new)
    rw [read?_alloc_self] at found
    exact .inl (Option.some.inj found).symm

end Store

namespace Step

variable {region : Region}

theorem run_bind {step : Step α} {next : α → Step β} {store after : Store} {result : Except Fault β}
    (run : (step >>= next).run.run store = (result, after)) :
    (∃ fault, step.run.run store = (.error fault, after) ∧ result = .error fault) ∨
      ∃ value between, step.run.run store = (.ok value, between) ∧
        (next value).run.run between = (result, after) := by
  rw [ExceptT.run_bind, StateT.run_bind] at run
  cases first : step.run.run store with
  | mk outcome between =>
    rw [first] at run
    cases outcome with
    | error fault =>
      obtain ⟨rfl, rfl⟩ := Prod.mk.inj run
      exact .inl ⟨fault, rfl, rfl⟩
    | ok value => exact .inr ⟨value, between, rfl, run⟩

/-- A step that works in a region without making objects. -/
def Quiet (region : Region) (step : Step α) (good : α → Prop) : Prop :=
  ∀ store result after, step.run.run store = (result, after) → store.Closed region →
    after.cells.length = store.cells.length ∧ store.Worked region after ∧
      ∀ value, result = .ok value → good value

/-- A step that works in a region, if this has room for the objects that it makes. -/
def Spares (region : Region) (step : Step α) (good : α → Prop) : Prop :=
  ∀ store result after, step.run.run store = (result, after) → store.Closed region →
    store.cells.length ≤ after.cells.length ∧ (store.Claims region after →
      store.Worked region after ∧ ∀ value, result = .ok value → good value)

/-- A step never takes an object away. -/
def Grows (step : Step α) : Prop :=
  ∀ store result after, step.run.run store = (result, after) → store.cells.length ≤ after.cells.length

theorem Quiet.spares {step : Step α} {good : α → Prop} (quiet : Quiet region step good) :
    Spares region step good := by
  intro store result after run closed
  obtain ⟨length, worked, answer⟩ := quiet store result after run closed
  exact ⟨Nat.le_of_eq length.symm, fun _ => ⟨worked, answer⟩⟩

theorem Spares.grows {step : Step α} {good : α → Prop} (spares : Spares (fun _ => True) step good) :
    Grows step := by
  intro store result after run
  exact (spares store result after run fun _ _ _ _ item _ => item.within_all).1

theorem Quiet.imp {step : Step α} {good fine : α → Prop} (quiet : Quiet region step good)
    (implied : ∀ value, good value → fine value) : Quiet region step fine := by
  intro store result after run closed
  obtain ⟨length, worked, answer⟩ := quiet store result after run closed
  exact ⟨length, worked, fun value same => implied value (answer value same)⟩

theorem Spares.imp {step : Step α} {good fine : α → Prop} (spares : Spares region step good)
    (implied : ∀ value, good value → fine value) : Spares region step fine := by
  intro store result after run closed
  obtain ⟨grown, rest⟩ := spares store result after run closed
  refine ⟨grown, fun claims => ?_⟩
  obtain ⟨worked, answer⟩ := rest claims
  exact ⟨worked, fun value same => implied value (answer value same)⟩

theorem quiet_pure {value : α} {good : α → Prop} (fine : good value) :
    Quiet region (pure value) good := by
  intro store result after run closed
  obtain ⟨rfl, rfl⟩ := Prod.mk.inj run
  refine ⟨rfl, closed.worked, fun other same => ?_⟩
  obtain rfl := Except.ok.inj same
  exact fine

theorem quiet_fail (fault : Fault) {good : α → Prop} : Quiet region (fail fault) good := by
  intro store result after run closed
  obtain ⟨rfl, rfl⟩ := Prod.mk.inj run
  exact ⟨rfl, closed.worked, fun other same => by cases same⟩

theorem quiet_get : Quiet region (get : Step Store) fun _ => True := by
  intro store result after run closed
  obtain ⟨rfl, rfl⟩ := Prod.mk.inj run
  exact ⟨rfl, closed.worked, fun _ _ => trivial⟩

theorem Quiet.bind {step : Step α} {next : α → Step β} {good : α → Prop} {fine : β → Prop}
    (first : Quiet region step good) (rest : ∀ value, good value → Quiet region (next value) fine) :
    Quiet region (step >>= next) fine := by
  intro store result after run closed
  rcases run_bind run with ⟨fault, failed, rfl⟩ | ⟨value, between, done, run⟩
  · obtain ⟨length, worked, -⟩ := first store _ after failed closed
    exact ⟨length, worked, fun value same => by cases same⟩
  · obtain ⟨length, worked, answer⟩ := first store _ between done closed
    obtain ⟨length', worked', answer'⟩ :=
      rest value (answer value rfl) between result after run worked.closed
    exact ⟨length'.trans length, worked.trans worked', answer'⟩

/-- After a quiet step any other may follow. -/
theorem Quiet.andThen {step : Step α} {next : α → Step β} {good : α → Prop} {fine : β → Prop}
    (first : Quiet region step good) (rest : ∀ value, good value → Spares region (next value) fine) :
    Spares region (step >>= next) fine := by
  intro store result after run closed
  rcases run_bind run with ⟨fault, failed, rfl⟩ | ⟨value, between, done, run⟩
  · obtain ⟨length, worked, -⟩ := first store _ after failed closed
    exact ⟨Nat.le_of_eq length.symm, fun _ => ⟨worked, fun value same => by cases same⟩⟩
  · obtain ⟨length, worked, answer⟩ := first store _ between done closed
    obtain ⟨grown, rest⟩ := rest value (answer value rfl) between result after run worked.closed
    refine ⟨length ▸ grown, fun claims => ?_⟩
    obtain ⟨worked', answer'⟩ := rest fun identity new bound => claims identity (length ▸ new) bound
    exact ⟨worked.trans worked', answer'⟩

/-- After a step that may make objects, one may follow that never takes any away: the room in the region
at the end was enough in between. -/
theorem Spares.bind {step : Step α} {next : α → Step β} {good : α → Prop} {fine : β → Prop}
    (first : Spares region step good) (grows : ∀ value, Grows (next value))
    (rest : ∀ value, good value → Spares region (next value) fine) :
    Spares region (step >>= next) fine := by
  intro store result after run closed
  rcases run_bind run with ⟨fault, failed, rfl⟩ | ⟨value, between, done, run⟩
  · obtain ⟨grown, answer⟩ := first store _ after failed closed
    exact ⟨grown, fun claims => ⟨(answer claims).1, fun value same => by cases same⟩⟩
  · obtain ⟨grown, answer⟩ := first store _ between done closed
    have later := grows value between result after run
    refine ⟨Nat.le_trans grown later, fun claims => ?_⟩
    have room : store.Claims region between := fun identity new bound =>
      claims identity new (Nat.lt_of_lt_of_le bound later)
    have roomLater : between.Claims region after := fun identity new bound =>
      claims identity (Nat.le_trans grown new) bound
    obtain ⟨worked, answer⟩ := answer room
    obtain ⟨-, rest⟩ := rest value (answer value rfl) between result after run worked.closed
    obtain ⟨worked', answer'⟩ := rest roomLater
    exact ⟨worked.trans worked', answer'⟩

theorem Grows.bind {step : Step α} {next : α → Step β} (first : Grows step)
    (rest : ∀ value, Grows (next value)) : Grows (step >>= next) := by
  intro store result after run
  rcases run_bind run with ⟨fault, failed, -⟩ | ⟨value, between, done, run⟩
  · exact first store _ after failed
  · exact Nat.le_trans (first store _ between done) (rest value between result after run)

theorem grows_pure (value : α) : Grows (pure value) :=
  (quiet_pure trivial : Quiet _ _ fun _ => True).spares.grows

theorem Grows.andPure {step : Step α} (grows : Grows step) (f : α → β) :
    Grows (step >>= fun value => pure (f value)) :=
  grows.bind fun _ => grows_pure _

/-- A step whose answer is only looked at from another side. -/
theorem Spares.andPure {step : Step α} {f : α → β} {good : α → Prop} {fine : β → Prop}
    (spares : Spares region step good) (implied : ∀ value, good value → fine (f value)) :
    Spares region (step >>= fun value => pure (f value)) fine :=
  spares.bind (fun _ => grows_pure _) fun value here => (quiet_pure (implied value here)).spares

theorem Grows.map {step : Step α} (f : α → β) (grows : Grows step) : Grows (f <$> step) := by
  rw [map_eq_pure_bind]
  exact grows.andPure f

theorem Spares.map {step : Step α} {f : α → β} {good : α → Prop} {fine : β → Prop}
    (spares : Spares region step good) (implied : ∀ value, good value → fine (f value)) :
    Spares region (f <$> step) fine := by
  rw [map_eq_pure_bind]
  exact spares.andPure implied

theorem grows_mapM {f : α → Step β} {items : List α} (each : ∀ item ∈ items, Grows (f item)) :
    Grows (items.mapM f) := by
  induction items with
  | nil => exact grows_pure []
  | cons item items ih =>
    obtain ⟨here, later⟩ := List.forall_mem_cons.mp each
    rw [List.mapM_cons]
    exact here.bind fun _ => (ih later).andPure _

theorem spares_mapM {f : α → Step β} {good : β → Prop} {items : List α}
    (grows : ∀ item ∈ items, Grows (f item)) (each : ∀ item ∈ items, Spares region (f item) good) :
    Spares region (items.mapM f) fun results => ∀ result ∈ results, good result := by
  induction items with
  | nil => exact (quiet_pure (by simp)).spares
  | cons item items ih =>
    obtain ⟨here, later⟩ := List.forall_mem_cons.mp each
    obtain ⟨_, growsLater⟩ := List.forall_mem_cons.mp grows
    rw [List.mapM_cons]
    refine here.bind (fun _ => (grows_mapM growsLater).andPure _) fun first fine => ?_
    exact (ih growsLater later).andPure fun rest fineRest => List.forall_mem_cons.mpr ⟨fine, fineRest⟩

theorem quiet_mapM {f : α → Step β} {items : List α}
    (each : ∀ item ∈ items, Quiet region (f item) fun _ => True) :
    Quiet region (items.mapM f) fun _ => True := by
  induction items with
  | nil => exact quiet_pure trivial
  | cons item items ih =>
    obtain ⟨here, later⟩ := List.forall_mem_cons.mp each
    rw [List.mapM_cons]
    exact here.bind fun _ _ => (ih later).bind fun _ _ => quiet_pure trivial

section objects

theorem run_bind_get (store : Store) (next : Store → Step α) :
    (get >>= next).run.run store = (next store).run.run store :=
  rfl

theorem run_cell (identity : Identity) (store : Store) :
    (cell identity).run.run store =
      match store.read? identity with
      | some cell => (.ok cell, store)
      | none => (.error .absent, store) := by
  unfold cell
  rw [run_bind_get]
  cases store.read? identity <;> rfl

theorem quiet_look (identity : Identity) : Quiet region (cell identity) fun _ => True := by
  intro store result after run closed
  have same : after = store := by
    rw [run_cell] at run
    cases found : store.read? identity with
    | none => rw [found] at run; exact (Prod.mk.inj run).2.symm
    | some content => rw [found] at run; exact (Prod.mk.inj run).2.symm
  subst same
  exact ⟨rfl, closed.worked, fun _ _ => trivial⟩

theorem quiet_cell {identity : Identity} (owned : region identity) :
    Quiet region (cell identity) (Cell.Within region) := by
  intro store result after run closed
  rw [run_cell] at run
  cases found : store.read? identity with
  | none =>
    rw [found] at run
    obtain ⟨rfl, rfl⟩ := Prod.mk.inj run
    exact ⟨rfl, closed.worked, fun value same => by cases same⟩
  | some content =>
    rw [found] at run
    obtain ⟨rfl, rfl⟩ := Prod.mk.inj run
    refine ⟨rfl, closed.worked, fun value same => ?_⟩
    obtain rfl := Except.ok.inj same
    exact closed identity content owned found

theorem quiet_write {identity : Identity} (cell : Cell) (owned : region identity)
    (within : cell.Within region) : Quiet region (write identity cell) fun _ => True := by
  intro store result after run closed
  obtain ⟨rfl, rfl⟩ := Prod.mk.inj run
  refine ⟨store.length_write identity cell, ⟨fun other content inside found => ?_, fun other foreign => ?_⟩,
    fun _ _ => trivial⟩
  · rcases Store.read?_write_cases found with rfl | found
    · exact within
    · exact closed other content inside found
  · exact store.read?_write identity other cell fun same => foreign (same ▸ owned)

theorem spares_alloc (cell : Cell) (within : cell.Within region) :
    Spares region (alloc cell) (Item.Within region) := by
  intro store result after run closed
  obtain ⟨rfl, rfl⟩ := Prod.mk.inj run
  have length := store.length_alloc cell
  refine ⟨by omega, fun claims => ⟨⟨fun other content inside found => ?_, fun other foreign => ?_⟩,
    fun value same => ?_⟩⟩
  · rcases Store.read?_alloc_cases found with rfl | found
    · exact within
    · exact closed other content inside found
  · by_cases old : other < store.cells.length
    · exact store.read?_alloc cell old
    · have new : store.cells.length ≤ other := Nat.le_of_not_lt old
      rw [Store.read?_eq_none_of_le new]
      refine Store.read?_eq_none_of_le (Nat.le_of_not_lt fun bound => foreign ?_)
      exact claims other new bound
  · obtain rfl := Except.ok.inj same
    exact claims store.cells.length (Nat.le_refl _) (by omega)

theorem grows_alloc (cell : Cell) : Grows (alloc cell) :=
  (spares_alloc cell fun item _ => item.within_all).grows

theorem quiet_valueOf (item : Item) : Quiet region (valueOf item) fun _ => True := by
  refine quiet_get.bind fun store _ => ?_
  cases store.value? item with
  | some value => exact quiet_pure trivial
  | none => exact quiet_fail .nesting

end objects

end Step

end LayeredConfig
