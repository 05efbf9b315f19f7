import LayeredConfig.Proofs.Store.Outlines

namespace LayeredConfig

namespace Value

/-- The outline of a value, if this is a document. -/
def outline? : Value → Option Outline
  | .document type slots => some ⟨type, Slot.outline slots⟩
  | _ => none

mutual

/-- The parts of a value that become objects of their own, in the order in which they are made. -/
def objects : Value → List Value
  | .scalar _ => []
  | .member _ _ _ => []
  | .seq .tuple items => allObjects items ++ if (allObjects items).isEmpty then [] else [.seq .tuple items]
  | .seq kind items => allObjects items ++ [.seq kind items]
  | .set .frozen _ => []
  | .set kind members => [.set kind members]
  | .dict kind entries => entryObjects entries ++ [.dict kind entries]
  | .document type slots => slotObjects slots ++ [.document type slots]

def allObjects : List Value → List Value
  | [] => []
  | value :: values => value.objects ++ allObjects values

def entryObjects : List (Value × Value) → List Value
  | [] => []
  | (_, value) :: entries => value.objects ++ entryObjects entries

def slotObjects : List (Slot Value) → List Value
  | [] => []
  | ⟨_, _, value⟩ :: slots => value.objects ++ slotObjects slots

end

theorem allObjects_eq (values : List Value) : allObjects values = values.flatMap objects := by
  induction values with
  | nil => rfl
  | cons value values ih => rw [allObjects, ih, List.flatMap_cons]

theorem entryObjects_eq (entries : List (Value × Value)) :
    entryObjects entries = entries.flatMap fun entry => entry.2.objects := by
  induction entries with
  | nil => rfl
  | cons entry entries ih => rw [entryObjects, ih, List.flatMap_cons]

theorem slotObjects_eq (slots : List (Slot Value)) :
    slotObjects slots = slots.flatMap fun slot => slot.value.objects := by
  induction slots with
  | nil => rfl
  | cons slot slots ih => rw [slotObjects, ih, List.flatMap_cons]

theorem occurs_of_mem_objects {part value : Value} (made : part ∈ value.objects) : Occurs part value := by
  induction value with
  | scalar value => cases made
  | member enumeration name value ih => cases made
  | seq kind items ih =>
    have cases : part ∈ allObjects items ∨ part = .seq kind items := by
      cases kind with
      | tuple =>
        rw [objects] at made
        refine (List.mem_append.mp made).imp id fun itself => ?_
        split at itself
        · cases itself
        · exact List.mem_singleton.mp itself
      | list | concurrent =>
        rw [objects] at made
        · simpa using made
        · intro same; cases same
    rcases cases with inner | rfl
    · rw [allObjects_eq] at inner
      obtain ⟨item, listed, inner⟩ := List.mem_flatMap.mp inner
      exact .item listed (ih item listed inner)
    · exact .here
  | set kind members ih =>
    cases kind with
    | frozen => cases made
    | plain | concurrent =>
      rw [objects] at made
      · exact List.mem_singleton.mp made ▸ .here
      · intro same; cases same
  | dict kind entries ihKeys ih =>
    rw [objects, entryObjects_eq, List.mem_append, List.mem_flatMap, List.mem_singleton] at made
    rcases made with ⟨entry, listed, inner⟩ | rfl
    · exact .entry listed (ih entry listed inner)
    · exact .here
  | document type slots ih =>
    rw [objects, slotObjects_eq, List.mem_append, List.mem_flatMap, List.mem_singleton] at made
    rcases made with ⟨slot, listed, inner⟩ | rfl
    · exact .slot listed (ih slot listed inner)
    · exact .here

end Value

namespace Step

/-- A step succeeds wherever it is taken, and what it adds are objects for some values, one for each. -/
def Births (step : Step α) (made : List Value) (good : α → Prop) : Prop :=
  ∀ store, ∃ value later, step.run.run store = (.ok value, later) ∧
    later.outlines = store.outlines ++ made.map Value.outline? ∧ good value

section births

variable {made more : List Value} {good : α → Prop} {fine : β → Prop}

theorem births_pure {value : α} (here : good value) : Births (pure value) [] good :=
  fun store => ⟨value, store, rfl, by simp, here⟩

theorem births_alloc {cell : Cell} {value : Value} {good : Item → Prop}
    (same : cell.outline? = value.outline?) (here : ∀ identity, good (.object identity)) :
    Births (alloc cell) [value] good := by
  intro store
  refine ⟨_, _, rfl, ?_, here store.cells.length⟩
  rw [Store.outlines_alloc, same]
  rfl

theorem Births.bind {step : Step α} {next : α → Step β} (first : Births step made good)
    (rest : ∀ value, good value → Births (next value) more fine) :
    Births (step >>= next) (made ++ more) fine := by
  intro store
  obtain ⟨value, between, run, added, here⟩ := first store
  obtain ⟨result, later, runRest, addedRest, there⟩ := rest value here between
  refine ⟨result, later, (run_bind_of_ok run).trans runRest, ?_, there⟩
  · rw [addedRest, added, List.map_append, List.append_assoc]

theorem Births.map {step : Step α} {f : α → β} (first : Births step made good)
    (implied : ∀ value, good value → fine (f value)) : Births (f <$> step) made fine := by
  rw [map_eq_pure_bind, ← List.append_nil made]
  exact first.bind fun value here => births_pure (implied value here)

theorem Births.imp {step : Step α} {fine : α → Prop} (births : Births step made good)
    (implied : ∀ value, good value → fine value) : Births step made fine := by
  intro store
  obtain ⟨value, later, run, added, here⟩ := births store
  exact ⟨value, later, run, added, implied value here⟩

theorem births_mapM {f : α → Step β} (parts : α → List Value) (related : α → β → Prop) {items : List α}
    (each : ∀ item ∈ items, Births (f item) (parts item) (related item)) :
    Births (items.mapM f) (items.flatMap parts) (List.Forall₂ related items) := by
  induction items with
  | nil => exact births_pure .nil
  | cons item items ih =>
    obtain ⟨here, later⟩ := List.forall_mem_cons.mp each
    rw [List.mapM_cons, List.flatMap_cons]
    refine here.bind fun first fine => ?_
    rw [← List.append_nil (items.flatMap parts)]
    exact (ih later).bind fun rest others => births_pure (.cons fine others)

end births

/-- An item is an object just if something was made for it. -/
def MadeFor (value : Value) (item : Item) : Prop :=
  (Step.value? item).isSome = value.objects.isEmpty

theorem isSome_mapM_value? {values : List Value} {items : List Item}
    (each : List.Forall₂ MadeFor values items) :
    (items.mapM Step.value?).isSome = (values.flatMap Value.objects).isEmpty := by
  induction each with
  | nil => rfl
  | @cons value item values items here _ ih =>
    have joined (first second : List Value) :
        (first ++ second).isEmpty = (first.isEmpty && second.isEmpty) := by cases first <;> rfl
    rw [List.mapM_cons, List.flatMap_cons, joined, ← ih, ← here]
    cases Step.value? item <;> cases items.mapM Step.value? <;> rfl

theorem births_tuple {values : List Value} {items : List Item}
    (each : List.Forall₂ MadeFor values items) :
    Births (tuple items) (if (values.flatMap Value.objects).isEmpty then [] else [.seq .tuple values])
      fun item => (Step.value? item).isSome = (values.flatMap Value.objects).isEmpty := by
  have whole := isSome_mapM_value? each
  unfold tuple
  split
  · next own read =>
    rw [read] at whole
    rw [← whole]
    exact births_pure rfl
  · next read =>
    rw [read] at whole
    rw [← whole]
    exact births_alloc rfl fun _ => rfl

theorem births_slots {slots : List (Slot Value)}
    (each : ∀ slot ∈ slots, Births (place slot.value) slot.value.objects (MadeFor slot.value)) :
    Births (placeSlots slots) (Value.slotObjects slots)
      fun made => Slot.outline made = Slot.outline slots := by
  have parts := births_mapM (fun slot : Slot Value => slot.value.objects)
    (fun slot made => Store.withValue slot () = Store.withValue made ())
    fun slot listed => (each slot listed).map (f := Store.withValue slot) fun item _ => rfl
  rw [placeSlots_eq, Value.slotObjects_eq]
  refine parts.imp fun made alike => ?_
  have same := List.forall₂_map_left_iff.mpr (List.forall₂_map_right_iff.mpr alike)
  exact (List.forall₂_eq_eq_eq ▸ same).symm

/-- Placing a value makes objects for its parts, those inside an object before the object. -/
theorem births_place (value : Value) : Births (place value) value.objects (MadeFor value) := by
  induction value with
  | scalar value => exact births_pure rfl
  | member type name value ih => exact births_pure rfl
  | seq kind items ih =>
    have parts := births_mapM Value.objects MadeFor ih
    cases kind with
    | tuple =>
      rw [place, placeAll_eq, Value.objects, Value.allObjects_eq]
      refine (parts.bind fun made each => births_tuple each).imp fun item same => ?_
      rw [MadeFor, same, Value.objects, Value.allObjects_eq]
      cases items.flatMap Value.objects <;> rfl
    | list | concurrent =>
      rw [place, placeAll_eq, Value.objects, Value.allObjects_eq]
      · exact parts.bind fun made _ => births_alloc rfl fun _ => by simp [MadeFor, Value.objects, Step.value?]
      · intro same; cases same
      · intro same; cases same
  | set kind members ih =>
    cases kind with
    | frozen => exact births_pure rfl
    | plain | concurrent =>
      rw [place, Value.objects]
      · exact births_alloc rfl fun _ => rfl
      · intro same; cases same
      · intro same; cases same
  | dict kind entries ihKeys ih =>
    rw [place, placeEntries_eq, Value.objects, Value.entryObjects_eq]
    have parts := births_mapM (fun entry : Value × Value => entry.2.objects) (fun _ _ => True)
      fun entry listed => (ih entry listed).map (f := (entry.1, ·)) fun item _ => trivial
    exact parts.bind fun made _ => births_alloc rfl fun _ => by simp [MadeFor, Value.objects, Step.value?]
  | document type slots ih =>
    rw [place, Value.objects]
    refine (births_slots ih).bind fun made same => births_alloc ?_ fun _ => ?_
    · rw [Cell.outline?, Value.outline?, same]
    · simp [MadeFor, Value.objects, Step.value?]

/-- The object of a document is made after all objects inside it. -/
theorem run_place_document (value : Value) {outline : Outline} (document : value.outline? = some outline)
    (store : Store) :
    ∃ root later, (place value).run.run store = (.ok (.object root), later) ∧
      later.outlines = store.outlines ++ value.objects.map Value.outline? ∧
      Outlined later.outlines root outline ∧ store.cells.length ≤ root := by
  obtain ⟨type, slots, rfl, rfl⟩ : ∃ type slots, value = .document type slots ∧
      (⟨type, Slot.outline slots⟩ : Outline) = outline := by
    cases value with
    | document type slots => exact ⟨type, slots, rfl, Option.some.inj document⟩
    | _ => cases document
  obtain ⟨made, between, run, added, same⟩ := births_slots (fun slot _ => births_place slot.value) store
  refine ⟨between.cells.length, between.alloc (.document type made), ?_, ?_, ?_, ?_⟩
  · rw [place]
    exact run_bind_of_ok run
  · rw [Store.outlines_alloc, added, Value.objects, Cell.outline?, same, List.map_append, List.append_assoc]
    rfl
  · exact same ▸ outlined_of_read? (between.read?_alloc_self _)
  · rw [← Store.length_outlines, ← Store.length_outlines, added, List.length_append]
    exact Nat.le_add_right _ _

end Step

end LayeredConfig
