import Mathlib.Data.List.Forall2
import Mathlib.Logic.Relation
import LayeredConfig.Proofs.Store.Regions

/-!
What an object shows is determined by the objects that it reaches: it stays as long as these stay as they
are, whatever else a store is given. An object without end shows nothing.
-/

namespace LayeredConfig

theorem mapM_eq_some_iff {f : α → Option β} {items : List α} {values : List β} :
    items.mapM f = some values ↔ List.Forall₂ (fun item value => f item = some value) items values := by
  induction items generalizing values with
  | nil => cases values <;> simp
  | cons item items ih =>
    simp only [List.mapM_cons, Option.bind_eq_bind, Option.bind_eq_some_iff, Option.pure_def,
      Option.some.injEq]
    constructor
    · intro shown
      obtain ⟨value, here, values, later, rfl⟩ := shown
      exact .cons here (ih.mp later)
    · intro each
      cases each with
      | cons here later => exact ⟨_, here, _, ih.mpr later, rfl⟩

theorem isSome_mapM_iff {f : α → Option β} {items : List α} :
    (items.mapM f).isSome ↔ ∀ item ∈ items, (f item).isSome := by
  constructor
  · intro shown
    obtain ⟨values, all⟩ := Option.isSome_iff_exists.mp shown
    have each := mapM_eq_some_iff.mp all
    clear shown all
    induction each with
    | nil => exact List.forall_mem_nil _
    | cons here _ ih => exact List.forall_mem_cons.mpr ⟨Option.isSome_iff_exists.mpr ⟨_, here⟩, ih⟩
  · intro each
    induction items with
    | nil => rfl
    | cons item items ih =>
      obtain ⟨here, later⟩ := List.forall_mem_cons.mp each
      obtain ⟨value, here⟩ := Option.isSome_iff_exists.mp here
      obtain ⟨values, later⟩ := Option.isSome_iff_exists.mp (ih later)
      exact Option.isSome_iff_exists.mpr ⟨_, mapM_eq_some_iff.mpr (.cons here (mapM_eq_some_iff.mp later))⟩

namespace Cell

/-- The value of a content, given those of its items. -/
def value? (shown : Item → Option Value) : Cell → Option Value
  | .seq kind items => (items.mapM shown).map (.seq kind)
  | .set kind members => some (.set kind members)
  | .dict kind entries =>
    (entries.mapM fun (entry : Value × Item) => (shown entry.2).map (entry.1, ·)).map (.dict kind)
  | .document type slots =>
    (slots.mapM fun slot => (shown slot.value).map (Store.withValue slot)).map (.document type)

/-- A content shows something if and only if all its items do. -/
theorem isSome_value?_iff {shown : Item → Option Value} {cell : Cell} :
    (cell.value? shown).isSome ↔ ∀ item ∈ cell.items, (shown item).isSome := by
  cases cell with
  | seq kind items => rw [value?, Option.isSome_map, isSome_mapM_iff, Cell.items]
  | set kind members => exact ⟨fun _ => List.forall_mem_nil _, fun _ => rfl⟩
  | dict kind entries =>
    rw [value?, Option.isSome_map, isSome_mapM_iff, Cell.items, List.forall_mem_map]
    simp only [Option.isSome_map]
  | document type slots =>
    rw [value?, Option.isSome_map, isSome_mapM_iff, Cell.items, List.forall_mem_map]
    simp only [Option.isSome_map]

/-- Two contents that differ in their items alone, and have related items in the same places. -/
inductive Alike (related : Item → Item → Prop) : Cell → Cell → Prop
  | seq {items items' : List Item} (alike : List.Forall₂ related items items') :
      Alike related (.seq kind items) (.seq kind items')
  | set : Alike related (.set kind members) (.set kind members)
  | dict {entries entries' : List (Value × Item)}
      (alike : List.Forall₂ (fun a b => a.1 = b.1 ∧ related a.2 b.2) entries entries') :
      Alike related (.dict kind entries) (.dict kind entries')
  | document {slots slots' : List (Slot Item)}
      (alike : List.Forall₂
        (fun a b => (a.name = b.name ∧ a.explicit = b.explicit) ∧ related a.value b.value) slots slots') :
      Alike related (.document type slots) (.document type slots')

theorem Alike.self {related : Item → Item → Prop} {cell : Cell}
    (each : ∀ item ∈ cell.items, related item item) : Alike related cell cell := by
  cases cell with
  | seq kind items => exact .seq (List.forall₂_same.mpr each)
  | set kind members => exact .set
  | dict kind entries =>
    exact .dict (List.forall₂_same.mpr fun entry listed => ⟨rfl, each _ (List.mem_map_of_mem listed)⟩)
  | document type slots =>
    refine .document (List.forall₂_same.mpr fun slot listed => ⟨⟨rfl, rfl⟩, ?_⟩)
    exact each _ (List.mem_map_of_mem listed)

theorem Alike.value? {shown shown' : Item → Option Value} {related : Item → Item → Prop} {cell cell' : Cell}
    (alike : Alike related cell cell')
    (same : ∀ item item', related item item' → ∀ value, shown item = some value → shown' item' = some value)
    {value : Value} (here : cell.value? shown = some value) : cell'.value? shown' = some value := by
  have transfer {α β : Type} {f g : α → Option β} {xs ys : List α} {relation : α → α → Prop}
      (pairs : List.Forall₂ relation xs ys)
      (each : ∀ x y, relation x y → ∀ value, f x = some value → g y = some value) {values : List β}
      (all : xs.mapM f = some values) : ys.mapM g = some values := by
    induction pairs generalizing values with
    | nil => exact all
    | cons pair _ ih =>
      have split := mapM_eq_some_iff.mp all
      cases split with
      | cons first rest =>
        exact mapM_eq_some_iff.mpr (.cons (each _ _ pair _ first)
          (mapM_eq_some_iff.mp (ih (mapM_eq_some_iff.mpr rest))))
  cases alike with
  | seq alike =>
    obtain ⟨values, shown, rfl⟩ := Option.map_eq_some_iff.mp here
    exact Option.map_eq_some_iff.mpr ⟨values, transfer alike same shown, rfl⟩
  | set => exact here
  | dict alike =>
    obtain ⟨values, shown, rfl⟩ := Option.map_eq_some_iff.mp here
    refine Option.map_eq_some_iff.mpr ⟨values, transfer alike ?_ shown, rfl⟩
    intro entry entry' alike pair part
    obtain ⟨value, shown, rfl⟩ := Option.map_eq_some_iff.mp part
    exact Option.map_eq_some_iff.mpr ⟨value, same _ _ alike.2 value shown, by rw [alike.1]⟩
  | document alike =>
    obtain ⟨values, shown, rfl⟩ := Option.map_eq_some_iff.mp here
    refine Option.map_eq_some_iff.mpr ⟨values, transfer alike ?_ shown, rfl⟩
    intro slot slot' alike result part
    obtain ⟨value, shown, rfl⟩ := Option.map_eq_some_iff.mp part
    refine Option.map_eq_some_iff.mpr ⟨value, same _ _ alike.2 value shown, ?_⟩
    rw [Store.withValue, Store.withValue, alike.1.1, alike.1.2]

end Cell

namespace Store

variable {store later : Store}

theorem view_value (store : Store) (depth : Nat) (value : Value) :
    store.view depth (.value value) = some value := by
  cases depth <;> rfl

theorem view_object (store : Store) (depth : Nat) (identity : Identity) :
    store.view (depth + 1) (.object identity) =
      (store.read? identity).bind (Cell.value? (store.view depth)) := by
  rw [view]
  cases store.read? identity with
  | none => rfl
  | some cell => cases cell <;> rfl

/-- An object is an item of another one. -/
def Part (store : Store) (whole part : Identity) : Prop :=
  ∃ cell, store.read? whole = some cell ∧ .object part ∈ cell.items

/-- An object is another one or lies in it at some depth. -/
def Reaches (store : Store) : Identity → Identity → Prop :=
  Relation.ReflTransGen store.Part

/-- The objects that an item is made of. -/
def Owned (store : Store) (item : Item) : Region :=
  fun identity => ∃ root, item = .object root ∧ store.Reaches root identity

/-- A later store has all objects that an item is made of, with the same contents. -/
def Holds (store later : Store) (item : Item) : Prop :=
  ∀ identity, store.Owned item identity →
    ∀ cell, store.read? identity = some cell → later.read? identity = some cell

theorem owned_self (identity : Identity) : store.Owned (.object identity) identity :=
  ⟨identity, rfl, .refl⟩

/-- What the parts of an object are made of it is made of too. -/
theorem owned_of_part {identity : Identity} {cell : Cell} (found : store.read? identity = some cell)
    {item : Item} (listed : item ∈ cell.items) {other : Identity} (owned : store.Owned item other) :
    store.Owned (.object identity) other := by
  obtain ⟨part, rfl, reaches⟩ := owned
  exact ⟨identity, rfl, .head ⟨cell, found, listed⟩ reaches⟩

/-- What an item shows stays, and can be seen from any greater depth. -/
theorem view_of_holds {depth depth' : Nat} (deeper : depth ≤ depth') {item : Item}
    (holds : store.Holds later item) {value : Value} (shown : store.view depth item = some value) :
    later.view depth' item = some value := by
  induction depth generalizing depth' item value with
  | zero =>
    cases item with
    | value own => rwa [view_value] at shown ⊢
    | object identity => cases shown
  | succ depth ih =>
    cases item with
    | value own => rwa [view_value] at shown ⊢
    | object identity =>
      obtain ⟨depth', rfl⟩ := Nat.exists_eq_add_of_le deeper
      rw [Nat.add_right_comm, view_object]
      rw [view_object, Option.bind_eq_some_iff] at shown
      obtain ⟨cell, found, shown⟩ := shown
      rw [holds identity (owned_self identity) cell found, Option.bind_some]
      have alike : Cell.Alike (fun item item' => item = item' ∧ item ∈ cell.items) cell cell :=
        .self fun item listed => ⟨rfl, listed⟩
      refine alike.value? (fun item item' pair value shown => ?_) shown
      obtain ⟨rfl, listed⟩ := pair
      refine ih (Nat.le_add_right _ _) (fun other owned => ?_) shown
      exact holds other (owned_of_part found listed owned)

/-- What an item shows stays when the store grows around the objects that it reaches. -/
theorem value?_of_holds (grown : store.cells.length ≤ later.cells.length) {item : Item}
    (holds : store.Holds later item) {value : Value} (shown : store.value? item = some value) :
    later.value? item = some value :=
  view_of_holds grown holds shown

/-- A later store has the objects that an item is made of as they were. -/
structure Keeps (store later : Store) (item : Item) : Prop where
  grown : store.cells.length ≤ later.cells.length
  same : ∀ identity, store.Owned item identity → later.read? identity = store.read? identity

theorem Keeps.refl (store : Store) (item : Item) : store.Keeps store item :=
  ⟨Nat.le_refl _, fun _ _ => rfl⟩

theorem reaches_iff_of_same {root : Identity}
    (same : ∀ identity, store.Reaches root identity → later.read? identity = store.read? identity)
    (identity : Identity) : later.Reaches root identity ↔ store.Reaches root identity := by
  constructor
  · intro reaches
    induction reaches with
    | refl => exact .refl
    | tail _ part ih =>
      obtain ⟨cell, found, listed⟩ := part
      exact ih.tail ⟨cell, (same _ ih).symm.trans found, listed⟩
  · intro reaches
    induction reaches with
    | refl => exact .refl
    | tail before part ih =>
      obtain ⟨cell, found, listed⟩ := part
      exact ih.tail ⟨cell, (same _ before).trans found, listed⟩

theorem Keeps.owned_iff {item : Item} (keeps : store.Keeps later item) (identity : Identity) :
    later.Owned item identity ↔ store.Owned item identity := by
  refine exists_congr fun root => and_congr_right fun same => ?_
  apply reaches_iff_of_same
  exact fun other here => keeps.same other ⟨root, same, here⟩

theorem Keeps.trans {last : Store} {item : Item} (first : store.Keeps later item)
    (second : later.Keeps last item) : store.Keeps last item := by
  refine ⟨Nat.le_trans first.grown second.grown, fun identity owned => ?_⟩
  exact (second.same identity ((first.owned_iff identity).mpr owned)).trans (first.same identity owned)

theorem Keeps.value? {item : Item} {value : Value} (keeps : store.Keeps later item)
    (shown : store.value? item = some value) : later.value? item = some value :=
  value?_of_holds keeps.grown (fun identity owned _ found => (keeps.same identity owned).trans found) shown

/-- What an item in a closed region is made of is in the region. -/
theorem Closed.owned {region : Region} {item : Item} (closed : store.Closed region)
    (within : item.Within region) {identity : Identity} (owned : store.Owned item identity) :
    region identity := by
  obtain ⟨root, rfl, reaches⟩ := owned
  induction reaches with
  | refl => exact within
  | tail _ part ih =>
    obtain ⟨cell, found, listed⟩ := part
    exact closed _ cell ih found _ listed

/-- The objects that an item is made of are the least closed region that it is in. -/
theorem closed_owned (store : Store) (item : Item) : store.Closed (store.Owned item) := by
  intro identity cell owned found other listed
  obtain ⟨root, rfl, reaches⟩ := owned
  cases other with
  | value value => trivial
  | object part => exact ⟨root, rfl, reaches.tail ⟨cell, found, listed⟩⟩

theorem within_owned (store : Store) (item : Item) : item.Within (store.Owned item) := by
  cases item with
  | value value => trivial
  | object identity => exact owned_self identity

theorem Worked.keeps {region : Region} {item : Item} (worked : store.Worked region later)
    (grown : store.cells.length ≤ later.cells.length)
    (foreign : ∀ identity, store.Owned item identity → ¬ region identity) : store.Keeps later item :=
  ⟨grown, fun identity owned => worked.same identity (foreign identity owned)⟩

/-- A later store has all objects with their contents, and maybe more. -/
def Extends (store later : Store) : Prop :=
  ∀ identity cell, store.read? identity = some cell → later.read? identity = some cell

theorem Extends.refl (store : Store) : store.Extends store :=
  fun _ _ found => found

theorem Extends.trans {last : Store} (first : store.Extends later) (second : later.Extends last) :
    store.Extends last :=
  fun identity cell found => second identity cell (first identity cell found)

theorem Extends.holds (extend : store.Extends later) (item : Item) : store.Holds later item :=
  fun identity _ cell found => extend identity cell found

theorem Extends.length (extend : store.Extends later) : store.cells.length ≤ later.cells.length := by
  refine Nat.le_of_not_lt fun shrunk => ?_
  have found : store.read? later.cells.length = some store.cells[later.cells.length] :=
    List.getElem?_eq_getElem shrunk
  exact Nat.lt_irrefl _ (lt_of_read? (extend _ _ found))

theorem extends_alloc (store : Store) (cell : Cell) : store.Extends (store.alloc cell) :=
  fun _ _ found => (store.read?_alloc cell (lt_of_read? found)).trans found

end Store

end LayeredConfig
