import LayeredConfig.Proofs.Container.Slices
import LayeredConfig.Proofs.Store.Answers

namespace LayeredConfig

open Step

/-- A bound or the step of a slice as it is given: a whole number, a truth value that counts as one, or null. -/
inductive Item.IsBound : Item → Option Int → Prop
  | null : IsBound (.value .null) none
  | int (number : Int) : IsBound (.value (.int number)) (some number)
  | bool (flag : Bool) : IsBound (.value (.bool flag)) (some (if flag then 1 else 0))

namespace SequenceCall

variable {store : Store} {identity : Identity} {items new : List Item} {start stop step value : Item}
  {slice : Slice} {fitted : FittedSlice}

theorem run_wholeOrNull {item : Item} {bound : Option Int} (given : item.IsBound bound) (store : Store) :
    (wholeOrNull item).run.run store = (.ok bound, store) := by
  cases given <;> rfl

section calls

variable (found : store.read? identity = some (.seq .concurrent items))
  (starting : start.IsBound slice.start) (stopping : stop.IsBound slice.stop)
  (stepping : step.IsBound slice.step) (fit : slice.fit? items.length = some fitted)

include starting stopping stepping in
theorem run_slice (store : Store) : (Step.slice start stop step).run.run store = (.ok slice, store) := by
  unfold Step.slice
  rw [run_bind_of_ok (run_wholeOrNull starting store), run_bind_of_ok (run_wholeOrNull stopping store),
    run_bind_of_ok (run_wholeOrNull stepping store)]
  rfl

include found starting stopping stepping fit

theorem run_getItem_slice :
    (call (.object identity) .getItem [.slice start stop step]).run.run store =
      (.ok (.item (.object store.cells.length)), store.alloc (.seq .concurrent (fitted.read items))) := by
  rw [run_call .getItem found nofun]
  change (Step.slice start stop step >>= _).run.run store = _
  rw [run_bind_of_ok (run_slice starting stopping stepping store), fit]
  rfl

theorem run_deleteItem_slice :
    (call (.object identity) .deleteItem [.slice start stop step]).run.run store =
      (.ok .nothing, store.write identity (.seq .concurrent (fitted.delete items))) := by
  have deleted : (deleteItem items [.slice start stop step]).run.run store =
      (.ok (fitted.delete items), store) := by
    unfold deleteItem
    dsimp only
    rw [run_bind_of_ok (run_slice starting stopping stepping store), fit]
    rfl
  rw [run_call .deleteItem found nofun]
  change (deleteItem items [.slice start stop step] >>= _).run.run store = _
  rw [run_bind_of_ok deleted]
  rfl

/-- An assignment writes the items with the new ones, if there is room for them, and otherwise nothing. -/
theorem run_setItem_slice (parts : (elements value).run.run store = (.ok new, store)) :
    (call (.object identity) .setItem [.slice start stop step, .item value]).run.run store =
      (fitted.assign? items new).elim (.error .content, store) fun result =>
        (.ok .nothing, store.write identity (.seq .concurrent result)) := by
  have assigned : (setItem items [.slice start stop step, .item value]).run.run store =
      ((fitted.assign? items new).elim (.error .content) .ok, store) := by
    unfold setItem
    dsimp only
    rw [run_bind_of_ok (run_slice starting stopping stepping store), fit]
    dsimp only
    rw [run_bind_of_ok parts]
    cases fitted.assign? items new <;> rfl
  rw [run_call .setItem found nofun]
  change (setItem items [.slice start stop step, .item value] >>= _).run.run store = _
  rw [ExceptT.run_bind, StateT.run_bind, assigned]
  cases fitted.assign? items new <;> rfl

end calls

/-- What reading, deleting and assigning a slice of a list do, in terms of the positions that it selects. -/
structure SliceLaws (store : Store) (identity : Identity) (items : List Item) (slice : Slice)
    (start stop step : Item) (places : List Nat) : Prop where
  /-- A new list has the items at the positions, and to assign it to the slice changes nothing. -/
  read : ∃ read, StandAt items places read ∧
    (call (.object identity) .getItem [.slice start stop step]).run.run store =
      (.ok (.item (.object store.cells.length)), store.alloc (.seq .concurrent read)) ∧
    (call (.object identity) .setItem
        [.slice start stop step, .item (.object store.cells.length)]).run.run
          (store.alloc (.seq .concurrent read)) =
      (.ok .nothing, store.alloc (.seq .concurrent read))
  delete : ∃ rest, StandAt items ((List.range items.length).filter (· ∉ places)) rest ∧
    (call (.object identity) .deleteItem [.slice start stop step]).run.run store =
      (.ok .nothing, store.write identity (.seq .concurrent rest))
  /-- With step one the positions are a block from the clipped start on, and any new items replace it. -/
  block : slice.stride = 1 →
    places = List.range' (slice.origin items.length).toNat places.length ∧
    ∀ value new, (elements value).run.run store = (.ok new, store) →
      (call (.object identity) .setItem [.slice start stop step, .item value]).run.run store =
        (.ok .nothing, store.write identity (.seq .concurrent
          (items.take (slice.origin items.length).toNat ++ new ++
            items.drop ((slice.origin items.length).toNat + places.length))))
  /-- With any other step there have to be as many new items as positions. -/
  apart : slice.stride ≠ 1 → ∀ value new, (elements value).run.run store = (.ok new, store) →
    (new.length = places.length → ∃ result, Replaced items places new result ∧
      (call (.object identity) .setItem [.slice start stop step, .item value]).run.run store =
        (.ok .nothing, store.write identity (.seq .concurrent result))) ∧
    (new.length ≠ places.length →
      (call (.object identity) .setItem [.slice start stop step, .item value]).run.run store =
        (.error .content, store))

/-- Slices are coherent: for any bounds, and any step but zero, one list of positions tells what reading,
deleting and assigning do, and assigning back what was read leaves the list as it is. -/
theorem slices_coherent (found : store.read? identity = some (.seq .concurrent items))
    (starting : start.IsBound slice.start) (stopping : stop.IsBound slice.stop)
    (stepping : step.IsBound slice.step) (nonzero : slice.step ≠ some 0) :
    ∃ places, slice.Selection items.length places ∧
      SliceLaws store identity items slice start stop step places := by
  obtain ⟨fitted, fit, fits⟩ := slice.exists_fits items.length nonzero
  have nonzero' := Slice.stride_ne_zero nonzero
  have selection := fits.selection nonzero'
  have length := Slice.length_positions fitted
  refine ⟨fitted.positions, selection, ?_, ?_, ?_, ?_⟩
  · refine ⟨_, fits.standAt_read nonzero', run_getItem_slice found starting stopping stepping fit, ?_⟩
    have found' := (store.read?_alloc (.seq .concurrent (fitted.read items)) (Store.lt_of_read? found)).trans found
    have parts : (elements (.object store.cells.length)).run.run
        (store.alloc (.seq .concurrent (fitted.read items))) =
          (.ok (fitted.read items), store.alloc (.seq .concurrent (fitted.read items))) := by
      unfold elements
      rw [run_bind_cell (store.read?_alloc_self _)]
      rfl
    rw [run_setItem_slice found' starting stopping stepping fit parts, fits.assign?_read nonzero']
    exact congrArg (Prod.mk _) (Store.write_of_read? found')
  · exact ⟨_, Slice.standAt_delete fitted items, run_deleteItem_slice found starting stopping stepping fit⟩
  · intro one
    refine ⟨length ▸ fits.positions_block one, fun value new parts => ?_⟩
    rw [run_setItem_slice found starting stopping stepping fit parts, fits.assign?_block one, length]
    rfl
  · intro apart value new parts
    rw [run_setItem_slice found starting stopping stepping fit parts, fits.assign?_apart apart, length]
    constructor
    · intro fitting
      refine ⟨_, FittedSlice.replaced_replaceAt (fun place listed => ?_) selection.nodup
        (length.trans fitting.symm), ?_⟩
      · exact ((selection.selected place).mp listed).inside
      · rw [if_pos fitting]
        rfl
    · intro unfitting
      rw [if_neg unfitting]
      rfl

/-- Every second one of three items, from beyond the end backwards. -/
theorem slices_coherent_backwards :
    ∃ places, (Slice.mk (some 10) none (some (-2))).Selection 3 places ∧
      SliceLaws ⟨[.seq .concurrent [.value (.int 1), .value (.int 2), .value (.int 3)]]⟩ 0
        [.value (.int 1), .value (.int 2), .value (.int 3)] ⟨some 10, none, some (-2)⟩
        (.value (.int 10)) (.value .null) (.value (.int (-2))) places := by
  have found : (Store.mk [.seq .concurrent [.value (.int 1), .value (.int 2), .value (.int 3)]]).read? 0 =
      some (.seq .concurrent [.value (.int 1), .value (.int 2), .value (.int 3)]) := rfl
  have nonzero : (Slice.mk (some 10) none (some (-2))).step ≠ some 0 := by decide
  exact slices_coherent found (.int 10) .null (.int (-2)) nonzero

end SequenceCall

end LayeredConfig
