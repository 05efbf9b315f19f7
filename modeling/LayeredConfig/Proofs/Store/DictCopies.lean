import LayeredConfig.Proofs.Store.DictChanges

namespace LayeredConfig

open Step

/-- A copy of an item is the same value or some object, as the item is. -/
inductive Item.Mirrors : Item → Item → Prop
  | value (own : Value) : Mirrors (.value own) (.value own)
  | object (identity copy : Identity) : Mirrors (.object identity) (.object copy)

theorem Item.Mirrors.proper {item copy : Item} (mirrors : item.Mirrors copy) (proper : item.IsProper) :
    copy.IsProper := by
  cases mirrors with
  | value own => exact proper
  | object identity copy => trivial

namespace Step

/-- All copies made so far are objects. -/
abbrev Objects : Copies → Prop :=
  Listed fun _ copy => ∃ identity, copy = .object identity

/-- A copier makes objects of objects. -/
def Mirroring (copy : Copier) : Prop :=
  ∀ copies item store result later, Objects copies → (copy copies item).run.run store = (.ok result, later) →
    item.Mirrors result.1 ∧ Objects result.2

variable {copy : Copier} {copies : Copies} {store later : Store}

theorem Mirroring.all (mirroring : Mirroring copy) {items : List Item} {result : List Item × Copies}
    (objects : Objects copies) (run : (copyAll copy copies items).run.run store = (.ok result, later)) :
    List.Forall₂ Item.Mirrors items result.1 ∧ Objects result.2 := by
  induction items generalizing copies store later result with
  | nil =>
    obtain ⟨rfl, -⟩ := of_run_pure run
    exact ⟨.nil, objects⟩
  | cons item items ih =>
    obtain ⟨first, between, here, run⟩ := exists_of_run_bind run
    obtain ⟨mirrors, objects⟩ := mirroring copies item store first between objects here
    obtain ⟨rest, last, there, run⟩ := exists_of_run_bind run
    obtain ⟨others, objects⟩ := ih objects there
    obtain ⟨rfl, -⟩ := of_run_pure run
    exact ⟨.cons mirrors others, objects⟩

theorem Mirroring.cell (mirroring : Mirroring copy) {cell : Cell} {result : Cell × Copies}
    (objects : Objects copies) (run : (copyCell copy copies cell).run.run store = (.ok result, later)) :
    Objects result.2 := by
  cases cell with
  | set kind members =>
    obtain ⟨rfl, -⟩ := of_run_pure run
    exact objects
  | _ =>
    obtain ⟨parts, between, copied, run⟩ := exists_of_run_bind run
    obtain ⟨rfl, -⟩ := of_run_pure run
    exact (mirroring.all objects copied).2

theorem mirroring_copyItem (depth : Nat) : Mirroring (copyItem depth) := by
  induction depth with
  | zero =>
    intro copies item store result later objects run
    cases item with
    | value own =>
      obtain ⟨rfl, -⟩ := of_run_pure run
      exact ⟨.value own, objects⟩
    | object identity => cases (Prod.mk.inj run).1
  | succ depth ih =>
    intro copies item store result later objects run
    cases item with
    | value own =>
      obtain ⟨rfl, -⟩ := of_run_pure run
      exact ⟨.value own, objects⟩
    | object identity =>
      rw [copyItem] at run
      split at run
      · next copied listed =>
        obtain ⟨rfl, -⟩ := of_run_pure run
        obtain ⟨other, rfl⟩ := objects identity copied listed
        exact ⟨.object identity other, objects⟩
      · obtain ⟨content, between, -, run⟩ := exists_of_run_bind run
        obtain ⟨parts, last, copied, run⟩ := exists_of_run_bind run
        obtain rfl := Except.ok.inj (Prod.mk.inj run).1
        exact ⟨.object identity _, (ih.cell objects copied).cons ⟨_, rfl⟩⟩

end Step

namespace DictCall

/-- An item is a copy of a dictionary with some content: a new dictionary with the same keys in the same order
and a copy of each value. -/
def IsCopy (content : Content) (before : Store) (copy : Item) (later : Store) : Prop :=
  ∃ other entries, copy = .object other ∧ before.cells.length ≤ other ∧
    later.read? other = some (.dict .concurrent entries) ∧ entries.map (·.1) = content.map (·.1) ∧
      List.Forall₂ (fun entry entry' => Item.Mirrors entry.2 entry'.2) content entries

/-- A deep copy of a dictionary that succeeds is one, and leaves all that there was as it was. -/
theorem isCopy_deepCopy {store later : Store} {identity : Identity} {content : Content} {copy : Item}
    (found : store.read? identity = some (.dict .concurrent content))
    (run : (deepCopy (.object identity)).run.run store = (.ok copy, later)) :
    IsCopy content store copy later ∧ store.Extends later := by
  obtain ⟨extend, new⟩ := Spares.extends (spares_deepCopy _ (.object identity)) run
  obtain ⟨depth, length⟩ : ∃ depth, store.cells.length = depth + 1 :=
    Nat.exists_eq_add_one_of_ne_zero (Nat.ne_of_gt (Nat.zero_lt_of_lt (Store.lt_of_read? found)))
  obtain ⟨read, between, got, run⟩ := exists_of_run_bind run
  obtain ⟨same, rfl⟩ := Prod.mk.inj got
  obtain rfl := Except.ok.inj same
  obtain ⟨copied, last, done, run⟩ := exists_of_run_bind run
  obtain ⟨rfl, rfl⟩ := of_run_pure run
  rw [length, copyItem] at done
  obtain ⟨cell, between, read, done⟩ := exists_of_run_bind done
  obtain ⟨rfl, here⟩ := of_run_cell read
  obtain rfl := Option.some.inj (found.symm.trans here)
  obtain ⟨parts, last, copied, done⟩ := exists_of_run_bind done
  obtain ⟨items, between, all, made⟩ := exists_of_run_bind copied
  obtain ⟨rfl, rfl⟩ := of_run_pure made
  obtain ⟨answer, rfl⟩ := Prod.mk.inj done
  obtain rfl := Except.ok.inj answer
  obtain ⟨mirrors, -⟩ := (mirroring_copyItem depth).all listed_nil all
  have keys : (content.map (·.1)).length = items.1.length := by
    rw [List.length_map, ← mirrors.length_eq, List.length_map]
  refine ⟨⟨_, _, rfl, new _ rfl, Store.read?_alloc_self _ _, List.map_fst_zip (Nat.le_of_eq keys), ?_⟩, extend⟩
  exact (forall₂_zip (List.forall₂_map_left_iff.mp mirrors)).imp fun _ _ both => both.2

end DictCall

end LayeredConfig
