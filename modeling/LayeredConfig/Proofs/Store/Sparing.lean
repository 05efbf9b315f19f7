import LayeredConfig.Proofs.Container.Entries
import LayeredConfig.Proofs.Schema.Slots
import LayeredConfig.Proofs.Store.Regions
import LayeredConfig.Proofs.Value.Parts
import LayeredConfig.Store.Document
import LayeredConfig.Store.Traversal

namespace LayeredConfig

variable {region : Region}

/-- The values of entries are in a region. -/
def EntriesWithin (region : Region) (entries : List (Value × Item)) : Prop :=
  ∀ entry ∈ entries, entry.2.Within region

/-- The values of slots are in a region. -/
def SlotsWithin (region : Region) (slots : List (Slot Item)) : Prop :=
  ∀ slot ∈ slots, slot.value.Within region

theorem EntriesWithin.cell {entries : List (Value × Item)} (within : EntriesWithin region entries)
    (kind : DictKind) : (Cell.dict kind entries).Within region := by
  intro item member
  obtain ⟨entry, listed, rfl⟩ := List.mem_map.mp member
  exact within entry listed

theorem Cell.Within.entries {kind : DictKind} {entries : List (Value × Item)}
    (within : (Cell.dict kind entries).Within region) : EntriesWithin region entries :=
  fun _ listed => within _ (List.mem_map_of_mem listed)

theorem SlotsWithin.cell {slots : List (Slot Item)} (within : SlotsWithin region slots) (type : String) :
    (Cell.document type slots).Within region := by
  intro item member
  obtain ⟨slot, listed, rfl⟩ := List.mem_map.mp member
  exact within slot listed

theorem Cell.Within.slots {type : String} {slots : List (Slot Item)}
    (within : (Cell.document type slots).Within region) : SlotsWithin region slots :=
  fun _ listed => within _ (List.mem_map_of_mem listed)

theorem Cell.within_set (kind : SetKind) (members : List Value) :
    (Cell.set kind members).Within region :=
  fun _ member => absurd member List.not_mem_nil

theorem within_map_value (values : List Value) : ∀ item ∈ values.map Item.value, item.Within region := by
  intro item member
  obtain ⟨value, -, rfl⟩ := List.mem_map.mp member
  trivial

def Outcome.Within (region : Region) : Outcome → Prop
  | .item answer => answer.Within region
  | .items answers => ∀ answer ∈ answers, answer.Within region
  | _ => True

def Argument.Within (region : Region) : Argument → Prop
  | .item given => given.Within region
  | .slice start stop step => start.Within region ∧ stop.Within region ∧ step.Within region

namespace Step

section making

theorem placeAll_eq (values : List Value) : placeAll values = values.mapM place := by
  induction values with
  | nil => rfl
  | cons value values ih => rw [placeAll, ih, List.mapM_cons]

theorem placeEntries_eq (entries : List (Value × Value)) :
    placeEntries entries = entries.mapM fun entry => (entry.1, ·) <$> place entry.2 := by
  induction entries with
  | nil => rfl
  | cons entry entries ih => simp [placeEntries, ih, List.mapM_cons]

theorem placeSlots_eq (slots : List (Slot Value)) :
    placeSlots slots = slots.mapM fun slot => Store.withValue slot <$> place slot.value := by
  induction slots with
  | nil => rfl
  | cons slot slots ih => simp [placeSlots, ih, List.mapM_cons, Store.withValue]

theorem spares_tuple {items : List Item} (within : ∀ item ∈ items, item.Within region) :
    Spares region (tuple items) (Item.Within region) := by
  unfold tuple
  split
  · exact (quiet_pure trivial).spares
  · exact spares_alloc _ within

theorem grows_tuple (items : List Item) : Grows (tuple items) :=
  (spares_tuple fun item _ => item.within_all).grows

/-- Making objects that show a value needs nothing but room for them. -/
theorem spares_place (region : Region) (value : Value) :
    Spares region (place value) (Item.Within region) := by
  induction value generalizing region with
  | scalar value => exact (quiet_pure trivial).spares
  | member type name value ih => exact (quiet_pure trivial).spares
  | seq kind items ih =>
    have parts := spares_mapM (fun item listed => (ih item listed fun _ => True).grows)
      fun item listed => ih item listed region
    cases kind with
    | tuple =>
      rw [place, placeAll_eq]
      exact parts.bind grows_tuple fun _ within => spares_tuple within
    | list | concurrent =>
      rw [place, placeAll_eq]
      · exact parts.bind (fun _ => grows_alloc _) fun _ within => spares_alloc _ within
      · intro same; cases same
  | set kind members ih =>
    cases kind with
    | frozen => exact (quiet_pure trivial).spares
    | plain | concurrent =>
      rw [place]
      · exact spares_alloc _ (Cell.within_set _ members)
      · intro same; cases same
  | dict kind entries ihKeys ih =>
    rw [place, placeEntries_eq]
    refine (spares_mapM (fun entry listed => ((ih entry listed fun _ => True).grows.map _))
      fun entry listed => (ih entry listed region).map ?_).bind (fun _ => grows_alloc _)
      fun _ within => spares_alloc _ (EntriesWithin.cell within kind)
    exact fun _ here => here
  | document type slots ih =>
    rw [place, placeSlots_eq]
    refine (spares_mapM (fun slot listed => ((ih slot listed fun _ => True).grows.map _))
      fun slot listed => (ih slot listed region).map ?_).bind (fun _ => grows_alloc _)
      fun _ within => spares_alloc _ (SlotsWithin.cell within type)
    exact fun _ here => here

theorem grows_place (value : Value) : Grows (place value) :=
  (spares_place (fun _ => True) value).grows

end making

section arguments

variable {good : α → Prop} {arguments : List Argument}

theorem spares_withNone {act : Step α} (spares : Spares region act good) :
    Spares region (withNone arguments act) good := by
  unfold withNone
  split
  · exact spares
  · exact (quiet_fail .kind).spares

theorem spares_withOne {act : Item → Step α} (given : ∀ argument ∈ arguments, argument.Within region)
    (spares : ∀ item, item.Within region → Spares region (act item) good) :
    Spares region (withOne arguments act) good := by
  unfold withOne
  split
  · next item => exact spares item (given _ List.mem_cons_self)
  · exact (quiet_fail .kind).spares

theorem spares_withTwo {act : Item → Item → Step α}
    (given : ∀ argument ∈ arguments, argument.Within region)
    (spares : ∀ first second, first.Within region → second.Within region →
      Spares region (act first second) good) :
    Spares region (withTwo arguments act) good := by
  unfold withTwo
  split
  · next first second =>
    exact spares first second (given _ List.mem_cons_self) (given _ (.tail _ List.mem_cons_self))
  · exact (quiet_fail .kind).spares

theorem quiet_answer {item : Item} (within : item.Within region) :
    Quiet region (pure (.item item)) (Outcome.Within region) :=
  quiet_pure within

theorem quiet_whole (item : Item) : Quiet region (whole item) fun _ => True := by
  unfold whole
  split
  · exact quiet_pure trivial
  · exact quiet_pure trivial
  · exact quiet_fail .kind

theorem quiet_placeNumber (item : Item) : Quiet region (placeNumber item) fun _ => True := by
  refine (quiet_whole item).bind fun number _ => ?_
  split
  · exact quiet_pure trivial
  · exact quiet_fail .magnitude

theorem quiet_wholeOrNull (item : Item) : Quiet region (wholeOrNull item) fun _ => True := by
  unfold wholeOrNull
  split
  · exact quiet_pure trivial
  · rw [map_eq_pure_bind]
    exact (quiet_whole item).bind fun _ _ => quiet_pure trivial

theorem quiet_slice (start stop step : Item) : Quiet region (slice start stop step) fun _ => True :=
  (quiet_wholeOrNull start).bind fun _ _ => (quiet_wholeOrNull stop).bind fun _ _ =>
    (quiet_wholeOrNull step).bind fun _ _ => quiet_pure trivial

theorem quiet_hashable (item : Item) : Quiet region (hashable item) fun _ => True := by
  unfold hashable
  split
  · split
    · exact quiet_pure trivial
    · exact quiet_fail .kind
  · exact quiet_fail .kind

theorem quiet_soughtMember {item : Item} (within : item.Within region) :
    Quiet region (soughtMember item) fun _ => True := by
  cases item with
  | value value => exact quiet_hashable (.value value)
  | object identity =>
    refine (quiet_cell within).bind fun content _ => ?_
    split
    · exact quiet_pure trivial
    · exact quiet_fail .kind

theorem quiet_elements (item : Item) (within : item.Within region) :
    Quiet region (elements item) fun items => ∀ part ∈ items, part.Within region := by
  unfold elements
  split
  · exact quiet_pure fun part listed => by obtain ⟨_, -, rfl⟩ := List.mem_map.mp listed; trivial
  · exact quiet_pure fun part listed => by obtain ⟨_, -, rfl⟩ := List.mem_map.mp listed; trivial
  · exact quiet_pure (within_map_value _)
  · exact quiet_pure (within_map_value _)
  · refine (quiet_cell within).bind fun content inside => ?_
    split
    · exact quiet_pure inside
    · exact quiet_pure (within_map_value _)
    · exact quiet_pure fun part listed => by obtain ⟨_, -, rfl⟩ := List.mem_map.mp listed; trivial
    · exact quiet_fail .kind
  · exact quiet_fail .kind

theorem quiet_isSet {item : Item} (within : item.Within region) :
    Quiet region (isSet item) fun _ => True := by
  unfold isSet
  split
  · exact quiet_pure trivial
  · exact quiet_pure trivial
  · refine (quiet_cell within).bind fun content _ => ?_
    split
    · exact quiet_pure trivial
    · exact quiet_pure trivial

end arguments

end Step

namespace Traversal

open Step

/-- The objects that an iteration looks into, and the items that are left of it. -/
def Within (region : Region) : Traversal → Prop
  | .snapshot rest => ∀ item ∈ rest, item.Within region
  | .backwards identity _ => region identity
  | .values identity _ => region identity
  | .entries identity _ => region identity

theorem quiet_lookup {identity : Identity} (owned : region identity) (key : Value) :
    Quiet region (lookup identity key) (Item.Within region) := by
  refine (quiet_cell owned).bind fun content within => ?_
  split
  · next kind entries =>
    split
    · next item found =>
      obtain ⟨entry, listed, rfl⟩ := Entries.mem_of_find? found
      exact quiet_pure (within.entries entry listed)
    · exact quiet_fail .absent
  · exact quiet_fail .kind

theorem spares_next {traversal : Traversal} (within : traversal.Within region) :
    Spares region traversal.next fun step =>
      ∀ item rest, step = some (item, rest) → item.Within region ∧ rest.Within region := by
  have finished : Spares region (pure none : Step (Option (Item × Traversal))) fun step =>
      ∀ item rest, step = some (item, rest) → item.Within region ∧ rest.Within region :=
    (quiet_pure fun _ _ same => by cases same).spares
  have going {item : Item} {rest : Traversal} (here : item.Within region) (later : rest.Within region) :
      Spares region (pure (some (item, rest)) : Step (Option (Item × Traversal))) fun step =>
        ∀ item rest, step = some (item, rest) → item.Within region ∧ rest.Within region :=
    (quiet_pure fun _ _ same => by cases same; exact ⟨here, later⟩).spares
  unfold next
  split
  · exact finished
  · next item rest =>
    obtain ⟨here, later⟩ := List.forall_mem_cons.mp within
    exact going here later
  · exact finished
  · next identity left =>
    refine (quiet_cell within).andThen fun content inside => ?_
    split
    · split
      · next item found => exact going (inside item (List.mem_of_getElem? found)) within
      · exact (quiet_fail .position).spares
    · exact (quiet_fail .kind).spares
  · exact finished
  · next identity key keys => exact (quiet_lookup within key).andThen fun _ here => going here within
  · exact finished
  · next identity key keys =>
    refine (quiet_lookup within key).andThen fun item here => ?_
    refine (spares_tuple ?_).bind (fun _ => grows_pure _) fun pair inside => going inside within
    exact List.forall_mem_cons.mpr ⟨trivial, List.forall_mem_singleton.mpr here⟩

theorem within_all (traversal : Traversal) : traversal.Within fun _ => True := by
  cases traversal with
  | snapshot rest => exact fun item _ => item.within_all
  | _ => trivial

theorem spares_take (count : Nat) {traversal : Traversal} (within : traversal.Within region) :
    Spares region (traversal.take count) fun items => ∀ item ∈ items, item.Within region := by
  induction count generalizing traversal region with
  | zero => exact (quiet_pure (by simp)).spares
  | succ count ih =>
    have grows (rest : Traversal) : Grows (rest.take count) := (ih rest.within_all).grows
    refine (spares_next within).bind (fun step => ?_) fun step inside => ?_
    · split
      · exact grows_pure []
      · next item rest => exact (grows rest).andPure _
    · split
      · exact (quiet_pure (by simp)).spares
      · next item rest =>
        obtain ⟨here, later⟩ := inside item rest rfl
        exact (ih later).andPure fun items fine => List.forall_mem_cons.mpr ⟨here, fine⟩

theorem quiet_ofObject {identity : Identity} (owned : region identity) :
    Quiet region (ofObject identity) (Traversal.Within region) :=
  (quiet_elements (.object identity) owned).bind fun _ within => quiet_pure within

theorem quiet_reversed {identity : Identity} (owned : region identity) :
    Quiet region (reversed identity) (Traversal.Within region) := by
  refine (quiet_cell owned).bind fun content _ => ?_
  split
  · exact quiet_pure owned
  · exact quiet_fail .kind
  · exact quiet_fail .method

theorem quiet_overValues {identity : Identity} (owned : region identity) :
    Quiet region (overValues identity) (Traversal.Within region) := by
  refine (quiet_cell owned).bind fun content _ => ?_
  split
  · exact quiet_pure owned
  · exact quiet_fail .method

theorem quiet_overEntries {identity : Identity} (owned : region identity) :
    Quiet region (overEntries identity) (Traversal.Within region) := by
  refine (quiet_cell owned).bind fun content _ => ?_
  split
  · exact quiet_pure owned
  · exact quiet_fail .method

theorem spares_items {start : Step Traversal} (quiet : Quiet region start (Traversal.Within region)) :
    Spares region (do return .items (← (← start).toItems)) (Outcome.Within region) :=
  quiet.andThen fun traversal within => (spares_take traversal.size within).andPure fun _ fine => fine

end Traversal

namespace Document

open Step

variable {identity : Identity} {name : Str} {item : Item}

theorem quiet_read (owned : region identity) :
    Quiet region (read identity) fun document => SlotsWithin region document.2 := by
  refine (quiet_cell owned).bind fun content within => ?_
  split
  · exact quiet_pure within.slots
  · exact quiet_fail .method

theorem quiet_get (owned : region identity) (name : Str) :
    Quiet region (get identity name) (Item.Within region) := by
  refine (quiet_read owned).bind fun document within => ?_
  obtain ⟨type, slots⟩ := document
  dsimp only
  split
  · next slot found => exact quiet_pure (within slot (List.mem_of_find?_eq_some found))
  · exact quiet_fail .method

/-- A setting takes a value of the region of its document, whatever becomes of its mark. -/
theorem quiet_change {rule : List (Slot Item) → List (Slot Item)} (owned : region identity)
    (ruled : ∀ slots, SlotsWithin region slots → SlotsWithin region (rule slots)) :
    Quiet region (change identity name rule) fun _ => True := by
  refine (quiet_read owned).bind fun document within => ?_
  have changed := quiet_write _ owned ((ruled _ within).cell document.1)
  obtain ⟨type, slots⟩ := document
  change Quiet region (if (Slot.find? name slots).isNone then
    (fail (.unknownSetting type name) : Step PUnit) >>= fun _ => write identity (.document type (rule slots))
    else write identity (.document type (rule slots))) fun _ => True
  split
  · exact (quiet_fail _).bind fun _ (_ : True) => changed
  · exact changed

theorem quiet_set (owned : region identity) (within : item.Within region) :
    Quiet region (set identity name item) fun _ => True := by
  refine quiet_change owned fun slots inside slot listed => ?_
  rcases Slot.mem_store listed with ⟨old, here, same⟩ | same
  · exact same ▸ inside old here
  · exact same ▸ within

theorem quiet_setExplicit (owned : region identity) (within : item.Within region) :
    Quiet region (setExplicit identity name item) fun _ => True := by
  refine quiet_change owned fun slots inside slot listed => ?_
  rcases Slot.mem_assign listed with here | same
  · exact inside slot here
  · exact same ▸ within

theorem quiet_giveAll {values : List (Str × Item)} (owned : region identity)
    (within : ∀ pair ∈ values, pair.2.Within region) :
    Quiet region (values.forM fun (name, item) => setExplicit identity name item) fun _ => True := by
  induction values with
  | nil => exact quiet_pure trivial
  | cons pair values ih =>
    obtain ⟨here, later⟩ := List.forall_mem_cons.mp within
    exact (quiet_setExplicit owned here).bind fun _ _ => ih later

theorem quiet_giveTo {document : Item} {values : List (Str × Item)} (inside : document.Within region)
    (within : ∀ pair ∈ values, pair.2.Within region) : Quiet region (do
      let identity ←
        match document with
        | .object identity => pure identity
        | .value _ => fail .kind
      values.forM fun (name, item) => setExplicit identity name item
      return identity) region := by
  have rest (identity : Identity) (owned : region identity) :=
    (quiet_giveAll owned within).bind fun _ _ => (quiet_pure owned : Quiet region (pure identity) region)
  cases document with
  | value value => exact (quiet_fail .kind).bind fun _ (never : False) => never.elim
  | object identity => exact rest identity inside

/-- A new document and all that its settings are given have room in the region. -/
theorem spares_construct (region : Region) (schema : Schema) {values : List (Str × Item)}
    (within : ∀ pair ∈ values, pair.2.Within region) :
    Spares region (construct schema values) region := by
  unfold construct
  split
  · exact (quiet_fail .kind).spares
  · refine (spares_place region schema.newDocument).bind (fun document => ?_) fun document inside => ?_
    · exact (quiet_giveTo document.within_all fun pair _ => pair.2.within_all).spares.grows
    · exact (quiet_giveTo inside within).spares

theorem spares_run {type : String} {slots : List (Slot Item)} {method : Method} {arguments : List Argument}
    (owned : region identity) (given : ∀ argument ∈ arguments, argument.Within region) :
    Spares region (run identity type slots method arguments) (Outcome.Within region) := by
  unfold run
  split
  · refine spares_withNone ((quiet_valueOf _).andThen fun value _ => ?_)
    split
    · exact (spares_place region _).andPure fun _ fine => fine
    · exact (quiet_fail _).spares
  · exact spares_withNone ((spares_alloc _ (Cell.within_set _ _)).andPure fun _ fine => fine)
  · refine spares_withOne given fun name within => Quiet.spares ?_
    exact (quiet_soughtMember within).bind fun _ _ => quiet_pure trivial
  · refine spares_withTwo given fun name item _ within => Quiet.spares ?_
    split
    · exact (quiet_setExplicit owned within).bind fun _ _ => quiet_pure trivial
    · exact quiet_fail .kind
  · refine spares_withOne given fun other _ => Quiet.spares ((quiet_valueOf other).bind fun value _ => ?_)
    split
    · split
      · exact (quiet_valueOf _).bind fun _ _ => quiet_pure trivial
      · exact quiet_pure trivial
    · exact quiet_pure trivial
  · exact (quiet_fail .method).spares

end Document

end LayeredConfig
