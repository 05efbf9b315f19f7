import LayeredConfig.Proofs.Store.Sparing
import LayeredConfig.Proofs.Store.Views

/-!
Making and copying objects only adds to a store. What is made shows its value, and a deep copy shows what
its original does at every depth, through objects that are all new.
-/

namespace LayeredConfig

open Store

theorem Store.value?_of_extends {store later : Store} {item : Item} {value : Value}
    (extend : store.Extends later) (shown : store.value? item = some value) :
    later.value? item = some value :=
  value?_of_holds extend.length (extend.holds item) shown

namespace Step

/-- A step succeeds and only adds objects; its answer is a good one in the store after it. -/
def Adds (step : Step α) (store : Store) (good : α → Store → Prop) : Prop :=
  ∃ value later, step.run.run store = (.ok value, later) ∧ store.Extends later ∧ good value later

theorem adds_pure {value : α} {store : Store} {good : α → Store → Prop} (fine : good value store) :
    Adds (pure value) store good :=
  ⟨value, store, rfl, .refl store, fine⟩

theorem Adds.bind {step : Step α} {next : α → Step β} {store : Store} {good : α → Store → Prop}
    {fine : β → Store → Prop} (first : Adds step store good)
    (rest : ∀ value later, store.Extends later → good value later → Adds (next value) later fine) :
    Adds (step >>= next) store fine := by
  obtain ⟨value, between, run, extend, here⟩ := first
  obtain ⟨result, later, runRest, extendRest, there⟩ := rest value between extend here
  refine ⟨result, later, ?_, extend.trans extendRest, there⟩
  rw [ExceptT.run_bind, StateT.run_bind, run]
  exact runRest

theorem Adds.map {step : Step α} {store : Store} {good : α → Store → Prop} {fine : β → Store → Prop}
    {f : α → β} (first : Adds step store good)
    (implied : ∀ value later, good value later → fine (f value) later) : Adds (f <$> step) store fine := by
  rw [map_eq_pure_bind]
  exact first.bind fun value later _ here => adds_pure (implied value later here)

/-- Steps for the members of a list, one after the other, if no answer is spoilt by a later step. -/
theorem adds_mapM {f : α → Step β} (related : Store → α → β → Prop) {items : List α}
    (keeps : ∀ store later item result, store.Extends later → related store item result →
      related later item result)
    (each : ∀ item ∈ items, ∀ store, Adds (f item) store fun result later => related later item result)
    (store : Store) :
    Adds (items.mapM f) store fun results later => List.Forall₂ (related later) items results := by
  induction items generalizing store with
  | nil => exact adds_pure .nil
  | cons item items ih =>
    obtain ⟨here, later⟩ := List.forall_mem_cons.mp each
    rw [List.mapM_cons]
    refine (here store).bind fun first between _ fine => ?_
    refine (ih later between).bind fun rest last extend fineRest => adds_pure ?_
    exact .cons (keeps between last item first extend fine) fineRest

section placing

variable {store : Store}

theorem adds_alloc (cell : Cell) {value : Value}
    (shown : cell.value? (store.view store.cells.length) = some value) :
    Adds (alloc cell) store fun item later => later.value? item = some value := by
  refine ⟨_, _, rfl, store.extends_alloc cell, ?_⟩
  change (store.alloc cell).view (store.alloc cell).cells.length (.object store.cells.length) = some value
  rw [length_alloc, view_object, read?_alloc_self, Option.bind_some]
  have alike : Cell.Alike Eq cell cell := .self fun _ _ => rfl
  refine alike.value? (fun item item' same value shown => ?_) shown
  exact same ▸ view_of_holds (Nat.le_refl _) ((store.extends_alloc cell).holds item) shown

theorem shown_of_value? {item : Item} {value : Value} (own : Step.value? item = some value) :
    store.value? item = some value := by
  cases item with
  | value same => exact (view_value store _ same).trans own
  | object identity => cases own

theorem adds_tuple {items : List Item} {values : List Value}
    (shown : List.Forall₂ (fun value item => store.value? item = some value) values items) :
    Adds (tuple items) store fun item later => later.value? item = some (.seq .tuple values) := by
  have all : items.mapM store.value? = some values := mapM_eq_some_iff.mpr shown.flip
  unfold tuple
  split
  · next own read =>
    have same : items.mapM store.value? = some own :=
      mapM_eq_some_iff.mpr ((mapM_eq_some_iff.mp read).imp fun _ _ => shown_of_value?)
    obtain rfl : own = values := Option.some.inj (same.symm.trans all)
    exact adds_pure (view_value store _ _)
  · exact adds_alloc _ (Option.map_eq_some_iff.mpr ⟨values, all, rfl⟩)

/-- Objects for the values of entries or slots, each beside what else these have. -/
theorem adds_wrapped {α γ : Type} (part : α → Value) (wrap : α → Item → γ) (inner : γ → Item)
    (back : γ → Value → α) {entries : List α} (unwrapped : ∀ entry item, inner (wrap entry item) = item)
    (restored : ∀ entry item, back (wrap entry item) (part entry) = entry)
    (each : ∀ entry ∈ entries, ∀ store,
      Adds (place (part entry)) store fun item later => later.value? item = some (part entry))
    (store : Store) :
    Adds (entries.mapM fun entry => wrap entry <$> place (part entry)) store fun made later =>
      made.mapM (fun result => (later.value? (inner result)).map (back result)) = some entries := by
  have parts := adds_mapM (f := fun entry => wrap entry <$> place (part entry))
    (fun later entry result => (later.value? (inner result)).map (back result) = some entry)
    (fun _ _ _ _ extend shown => by
      obtain ⟨value, here, same⟩ := Option.map_eq_some_iff.mp shown
      exact Option.map_eq_some_iff.mpr ⟨value, value?_of_extends extend here, same⟩)
    (fun entry listed store => (each entry listed store).map fun item _ shown => by
      rw [unwrapped, shown, Option.map_some, restored]) store
  obtain ⟨made, later, run, extend, shown⟩ := parts
  exact ⟨made, later, run, extend, mapM_eq_some_iff.mpr shown.flip⟩

/-- Making objects for a value succeeds, and the item made shows the value. -/
theorem adds_place (value : Value) (store : Store) :
    Adds (place value) store fun item later => later.value? item = some value := by
  -- The parts are made in growing stores: what the earlier ones show is kept by making the later ones.
  induction value generalizing store with
  | scalar value => exact adds_pure (view_value store _ _)
  | member type name value ih => exact adds_pure (view_value store _ _)
  | seq kind items ih =>
    have parts := adds_mapM (fun later value item => later.value? item = some value)
      (fun _ _ _ _ extend shown => value?_of_extends extend shown) ih store
    cases kind with
    | tuple =>
      rw [place, placeAll_eq]
      exact parts.bind fun _ _ _ shown => adds_tuple shown
    | list | concurrent =>
      rw [place, placeAll_eq]
      · exact parts.bind fun _ _ _ shown =>
          adds_alloc _ (Option.map_eq_some_iff.mpr ⟨items, mapM_eq_some_iff.mpr shown.flip, rfl⟩)
      · intro same; cases same
  | set kind members ih =>
    cases kind with
    | frozen => exact adds_pure (view_value store _ _)
    | plain | concurrent =>
      rw [place]
      · exact adds_alloc _ rfl
      · intro same; cases same
  | dict kind entries ihKeys ih =>
    rw [place, placeEntries_eq]
    have parts := adds_wrapped (fun entry : Value × Value => entry.2) (fun entry item => (entry.1, item))
      Prod.snd (fun made value => (made.1, value)) (fun _ _ => rfl) (fun _ _ => rfl) ih store
    exact parts.bind fun _ _ _ shown => adds_alloc _ (Option.map_eq_some_iff.mpr ⟨entries, shown, rfl⟩)
  | document type slots ih =>
    rw [place, placeSlots_eq]
    have parts := adds_wrapped Slot.value withValue Slot.value withValue
      (fun _ _ => rfl) (fun _ _ => rfl) ih store
    exact parts.bind fun _ _ _ shown => adds_alloc _ (Option.map_eq_some_iff.mpr ⟨slots, shown, rfl⟩)

end placing

/-- Something is true of all copies made so far and the objects that they are listed for. -/
def Listed (holds : Identity → Item → Prop) (copies : Copies) : Prop :=
  ∀ identity copy, copies.lookup identity = some copy → holds identity copy

theorem listed_nil {holds : Identity → Item → Prop} : Listed holds [] :=
  fun _ _ found => by cases found

theorem Listed.cons {holds : Identity → Item → Prop} {copies : Copies} {identity : Identity} {copy : Item}
    (listed : Listed holds copies) (here : holds identity copy) : Listed holds ((identity, copy) :: copies) := by
  intro other found there
  rw [List.lookup_cons] at there
  split at there
  · next same => exact eq_of_beq same ▸ Option.some.inj there ▸ here
  · exact listed other found there

section copying

variable {origin store : Store} {copies : Copies}

/-- An item of one store shows at every depth what an item of another one does. -/
def CopyOf (origin store : Store) (item copy : Item) : Prop :=
  ∀ depth value, origin.view depth item = some value → store.view depth copy = some value

/-- The copies made so far are copies of the objects that they are listed for. -/
def Faithful (origin store : Store) : Copies → Prop :=
  Listed fun identity copy => CopyOf origin store (.object identity) copy

/-- A copier does its work for items that show something when seen from some depth. -/
def Copying (origin : Store) (depth : Nat) (copy : Copier) : Prop :=
  ∀ store copies item, origin.Extends store → Faithful origin store copies →
    (origin.view depth item).isSome →
    Adds (copy copies item) store fun result later =>
      CopyOf origin later item result.1 ∧ Faithful origin later result.2

theorem CopyOf.extend {later : Store} {item copy : Item} (here : CopyOf origin store item copy)
    (extend : store.Extends later) : CopyOf origin later item copy :=
  fun depth value shown => view_of_holds (Nat.le_refl depth) (extend.holds copy) (here depth value shown)

theorem Faithful.extend {later : Store} (faithful : Faithful origin store copies)
    (extend : store.Extends later) : Faithful origin later copies :=
  fun identity copy listed => (faithful identity copy listed).extend extend

theorem adds_cell {identity : Identity} {content : Cell} (found : store.read? identity = some content) :
    Adds (cell identity) store fun read _ => read = content := by
  refine ⟨content, store, ?_, .refl store, rfl⟩
  rw [run_cell, found]

/-- A new object with a content like that of another one is a copy of that. -/
theorem CopyOf.adds_alloc {identity : Identity} {cell content : Cell}
    (found : origin.read? identity = some cell) (alike : Cell.Alike (CopyOf origin store) cell content) :
    Adds (alloc content) store fun item later => CopyOf origin later (.object identity) item := by
  refine ⟨_, _, rfl, store.extends_alloc content, fun depth value shown => ?_⟩
  cases depth with
  | zero => cases shown
  | succ depth =>
    rw [view_object, found, Option.bind_some] at shown
    rw [view_object, read?_alloc_self, Option.bind_some]
    refine alike.value? (fun item item' same value shown => ?_) shown
    exact (same.extend (store.extends_alloc content)) depth value shown

variable {depth : Nat} {copy : Copier}

theorem Copying.all (copier : Copying origin depth copy) {items : List Item}
    (shown : ∀ item ∈ items, (origin.view depth item).isSome) (extend : origin.Extends store)
    (faithful : Faithful origin store copies) :
    Adds (copyAll copy copies items) store fun result later =>
      List.Forall₂ (CopyOf origin later) items result.1 ∧ Faithful origin later result.2 := by
  induction items generalizing store copies with
  | nil => exact adds_pure ⟨.nil, faithful⟩
  | cons item items ih =>
    obtain ⟨here, rest⟩ := List.forall_mem_cons.mp shown
    refine (copier store copies item extend faithful here).bind fun first between added fine => ?_
    refine (ih rest (extend.trans added) fine.2).bind fun others later addedLater fineLater => ?_
    exact adds_pure ⟨.cons (fine.1.extend addedLater) fineLater.1, fineLater.2⟩

theorem forall₂_zip {related : Item → Item → Prop} {entries : List (Value × Item)} {items : List Item}
    (alike : List.Forall₂ (fun entry item => related entry.2 item) entries items) :
    List.Forall₂ (fun a b => a.1 = b.1 ∧ related a.2 b.2) entries ((entries.map (·.1)).zip items) := by
  induction alike with
  | nil => exact .nil
  | cons here _ ih => exact .cons ⟨rfl, here⟩ ih

theorem forall₂_zipWith {related : Item → Item → Prop} {slots : List (Slot Item)} {items : List Item}
    (alike : List.Forall₂ (fun slot item => related slot.value item) slots items) :
    List.Forall₂
      (fun a b : Slot Item => (a.name = b.name ∧ a.explicit = b.explicit) ∧ related a.value b.value)
      slots (slots.zipWith (fun slot item => ⟨slot.name, slot.explicit, item⟩) items) := by
  induction alike with
  | nil => exact .nil
  | cons here _ ih => exact .cons ⟨⟨rfl, rfl⟩, here⟩ ih

theorem Copying.cell (copier : Copying origin depth copy) {cell : Cell}
    (shown : (cell.value? (origin.view depth)).isSome) (extend : origin.Extends store)
    (faithful : Faithful origin store copies) :
    Adds (copyCell copy copies cell) store fun result later =>
      Cell.Alike (CopyOf origin later) cell result.1 ∧ Faithful origin later result.2 := by
  have parts := copier.all (Cell.isSome_value?_iff.mp shown) extend faithful
  cases cell with
  | seq kind items => exact parts.bind fun _ _ _ fine => adds_pure ⟨.seq fine.1, fine.2⟩
  | set kind members => exact adds_pure ⟨.set, faithful⟩
  | dict kind entries =>
    refine parts.bind fun items later _ fine => adds_pure ⟨.dict ?_, fine.2⟩
    exact forall₂_zip (List.forall₂_map_left_iff.mp fine.1)
  | document type slots =>
    refine parts.bind fun items later _ fine => adds_pure ⟨.document ?_, fine.2⟩
    exact forall₂_zipWith (List.forall₂_map_left_iff.mp fine.1)

theorem copyOf_value (value : Value) : CopyOf origin store (.value value) (.value value) := by
  intro depth other shown
  rwa [view_value] at shown ⊢

/-- Copying goes as deep as the original does, and an object that was copied before has its copy. -/
theorem copying_copyItem (origin : Store) (depth : Nat) : Copying origin depth (copyItem depth) := by
  induction depth with
  | zero =>
    intro store copies item extend faithful shown
    cases item with
    | value value => exact adds_pure ⟨copyOf_value value, faithful⟩
    | object identity => cases shown
  | succ depth ih =>
    intro store copies item extend faithful shown
    cases item with
    | value value => exact adds_pure ⟨copyOf_value value, faithful⟩
    | object identity =>
      rw [copyItem]
      split
      · next item listed => exact adds_pure ⟨faithful identity item listed, faithful⟩
      · -- The object is read from the store of now, which still has all of the original one.
        obtain ⟨value, shown⟩ := Option.isSome_iff_exists.mp shown
        rw [view_object] at shown
        obtain ⟨cell, found, shown⟩ := Option.bind_eq_some_iff.mp shown
        have whole := Option.isSome_iff_exists.mpr ⟨value, shown⟩
        refine (adds_cell (extend identity cell found)).bind fun _ between added same => ?_
        subst same
        refine (ih.cell whole (extend.trans added) (faithful.extend added)).bind fun parts _ _ fine => ?_
        refine (CopyOf.adds_alloc found fine.1).bind fun item later made here => adds_pure ⟨here, ?_⟩
        exact (fine.2.extend made).cons here

/-- A deep copy of an item that shows a value succeeds, and shows that value. -/
theorem adds_deepCopy {item : Item} {value : Value} (shown : store.value? item = some value) :
    Adds (deepCopy item) store fun copy later => later.value? copy = some value := by
  have here : (store.view store.cells.length item).isSome := Option.isSome_iff_exists.mpr ⟨value, shown⟩
  obtain ⟨result, later, run, extend, fine, -⟩ :=
    copying_copyItem store store.cells.length store [] item (.refl store) listed_nil here
  refine ⟨result.1, later, ?_, extend, ?_⟩
  · change ((copyItem store.cells.length [] item >>= fun result => pure result.1).run.run store) = _
    rw [ExceptT.run_bind, StateT.run_bind, run]
    rfl
  · exact view_of_holds extend.length ((Store.Extends.refl later).holds result.1)
      (fine store.cells.length value shown)

end copying

section fresh

variable {region : Region}

/-- The copies made so far are in a region. -/
def CopiesWithin (region : Region) : Copies → Prop :=
  Listed fun _ copy => copy.Within region

/-- A copier puts all its copies in a region, wherever the originals are. -/
def Freshly (region : Region) (copy : Copier) : Prop :=
  ∀ copies item, CopiesWithin region copies →
    Spares region (copy copies item) fun result => result.1.Within region ∧ CopiesWithin region result.2

theorem copiesWithin_all (copies : Copies) : CopiesWithin (fun _ => True) copies :=
  fun _ copy _ => copy.within_all

theorem spares_copyAll {copy : Copier} (fresh : ∀ region, Freshly region copy) {copies : Copies}
    {items : List Item} (within : CopiesWithin region copies) :
    Spares region (copyAll copy copies items) fun result =>
      (∀ item ∈ result.1, item.Within region) ∧ CopiesWithin region result.2 := by
  induction items generalizing region copies with
  | nil => exact (quiet_pure ⟨List.forall_mem_nil _, within⟩).spares
  | cons item items ih =>
    -- That a store grows holds for copies anywhere: take the region of all objects.
    have grows (copies : Copies) : Grows (copyAll copy copies items) :=
      (ih (copiesWithin_all copies)).grows
    refine (fresh region copies item within).bind (fun result => (grows _).andPure _) ?_
    intro first fine
    exact (ih fine.2).andPure fun rest fineRest =>
      ⟨List.forall_mem_cons.mpr ⟨fine.1, fineRest.1⟩, fineRest.2⟩

theorem spares_copyCell {copy : Copier} (fresh : ∀ region, Freshly region copy) {copies : Copies}
    (cell : Cell) (within : CopiesWithin region copies) :
    Spares region (copyCell copy copies cell) fun result =>
      result.1.Within region ∧ CopiesWithin region result.2 := by
  have parts (items : List Item) : Spares region (copyAll copy copies items) _ :=
    spares_copyAll fresh within
  cases cell with
  | seq kind items =>
    exact (parts items).andPure fun _ fine => fine
  | set kind members => exact (quiet_pure ⟨Cell.within_set kind members, within⟩).spares
  | dict kind entries =>
    refine (parts _).andPure fun _ fine => ⟨EntriesWithin.cell (fun entry listed => ?_) kind, fine.2⟩
    exact fine.1 entry.2 (List.of_mem_zip listed).2
  | document type slots =>
    refine (parts _).andPure fun _ fine => ⟨SlotsWithin.cell (fun slot listed => ?_) type, fine.2⟩
    rw [← List.map_uncurry_zip_eq_zipWith] at listed
    obtain ⟨pair, paired, rfl⟩ := List.mem_map.mp listed
    exact fine.1 pair.2 (List.of_mem_zip paired).2

theorem freshly_copyItem (depth : Nat) (region : Region) : Freshly region (copyItem depth) := by
  induction depth generalizing region with
  | zero =>
    intro copies item within
    cases item with
    | value value => exact (quiet_pure ⟨trivial, within⟩).spares
    | object identity => exact (quiet_fail .nesting).spares
  | succ depth ih =>
    intro copies item within
    cases item with
    | value value => exact (quiet_pure ⟨trivial, within⟩).spares
    | object identity =>
      rw [copyItem]
      split
      · next item listed => exact (quiet_pure ⟨within identity item listed, within⟩).spares
      · have grows (content : Cell) : Grows (copyCell (copyItem depth) copies content) :=
          (spares_copyCell ih content (copiesWithin_all copies)).grows
        refine (quiet_look identity).andThen fun content _ => ?_
        refine (spares_copyCell ih content within).bind
          (fun _ => (grows_alloc _).andPure _) fun parts fine => ?_
        exact (spares_alloc parts.1 fine.1).andPure fun copy here => ⟨here, fine.2.cons here⟩

/-- A deep copy has a place wherever there is room for new objects, and is in no other. -/
theorem spares_deepCopy (region : Region) (item : Item) :
    Spares region (deepCopy item) (Item.Within region) := by
  refine quiet_get.andThen fun store _ => ?_
  exact (freshly_copyItem store.cells.length region [] item listed_nil).andPure fun result fine => fine.1

theorem Spares.extends {step : Step α} {good : α → Prop} {store later : Store} {result : Except Fault α}
    (spares : Spares (store.cells.length ≤ ·) step good) (run : step.run.run store = (result, later)) :
    store.Extends later ∧ ∀ value, result = .ok value → good value := by
  have closed : store.Closed (store.cells.length ≤ ·) := fun identity cell new found =>
    absurd (Store.lt_of_read? found) (Nat.not_lt_of_le new)
  obtain ⟨-, work⟩ := spares store result later run closed
  obtain ⟨worked, answer⟩ := work fun identity new _ => new
  refine ⟨fun identity cell found => ?_, answer⟩
  rw [worked.same identity (Nat.not_le_of_lt (Store.lt_of_read? found)), found]

end fresh

end Step

end LayeredConfig
