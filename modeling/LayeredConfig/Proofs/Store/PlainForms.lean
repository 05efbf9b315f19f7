import LayeredConfig.Proofs.Store.Copying
import LayeredConfig.Proofs.Store.Cycles
import LayeredConfig.Store.Call

namespace LayeredConfig

open Step

namespace Step

theorem run_bind_cell {store : Store} {identity : Identity} {content : Cell} {next : Cell → Step α}
    (found : store.read? identity = some content) :
    (cell identity >>= next).run.run store = (next content).run.run store := by
  rw [ExceptT.run_bind, StateT.run_bind, run_cell, found]
  rfl

theorem run_bind_valueOf (item : Item) (store : Store) (next : Value → Step α) :
    (valueOf item >>= next).run.run store =
      ((store.value? item).elim (fail .nesting) next).run.run store := by
  have here : (valueOf item).run.run store = ((store.value? item).elim (.error .nesting) .ok, store) := by
    unfold valueOf
    rw [run_bind_get]
    cases store.value? item <;> rfl
  rw [ExceptT.run_bind, StateT.run_bind, here]
  cases store.value? item <;> rfl

end Step

namespace Store

variable {store later : Store} {identity : Identity} {item : Item}

/-- What `to_dict` shows of an item: the value of what the call answers. -/
def toDict (store : Store) (item : Item) : Except Fault Value :=
  match (call item .toDict []).run.run store with
  | (.ok (.item answer), later) => (later.value? answer).elim (.error .nesting) .ok
  | (.ok _, _) => .error .kind
  | (.error fault, _) => .error fault

/-- The call on a document, step by step: its value, the plain form of that, and objects for this. -/
theorem run_toDict {type : String} {slots : List (Slot Item)}
    (found : store.read? identity = some (.document type slots)) :
    (call (.object identity) .toDict []).run.run store =
      ((store.value? (.object identity)).elim (fail .nesting) fun value =>
        match value.plain? with
        | .ok plain => place plain >>= fun item => pure (Outcome.item item)
        | .error fault => fail fault).run.run store := by
  unfold call
  exact (run_bind_cell found).trans (run_bind_valueOf (.object identity) store _)

theorem toDict_of_document {type : String} {slots : List (Slot Item)}
    (found : store.read? identity = some (.document type slots)) :
    store.toDict (.object identity) =
      (store.value? (.object identity)).elim (.error .nesting) Value.plain? := by
  unfold toDict
  rw [run_toDict found]
  cases store.value? (.object identity) with
  | none => rfl
  | some value =>
    rw [Option.elim_some, Option.elim_some]
    cases value.plain? with
    | error fault => rfl
    | ok plain =>
      obtain ⟨answer, later, placed, -, same⟩ := adds_place plain store
      have answered : (place plain >>= fun item => pure (Outcome.item item)).run.run store =
          (.ok (.item answer), later) := by
        rw [ExceptT.run_bind, StateT.run_bind, placed]
        rfl
      dsimp only
      rw [answered]
      dsimp only
      rw [same, Option.elim_some]

theorem toDict_of_other {content : Cell} (found : store.read? identity = some content)
    (other : ∀ type slots, content ≠ .document type slots) :
    store.toDict (.object identity) = .error .method := by
  have run : (call (.object identity) .toDict []).run.run store = (.error .method, store) := by
    unfold call
    refine (run_bind_cell found).trans ?_
    cases content with
    | seq kind items => cases kind <;> rfl
    | set kind members => rfl
    | dict kind entries => rfl
    | document type slots => exact absurd rfl (other type slots)
  unfold toDict
  rw [run]

/-- As long as the objects of an item stay as they are, so does what `to_dict` shows of it. -/
theorem Keeps.toDict_eq (present : store.Present item) (keeps : store.Keeps later item) :
    later.toDict item = store.toDict item := by
  cases item with
  | value own => rfl
  | object identity =>
    have same := keeps.same identity (owned_self identity)
    have shown := keeps.value?_eq present
    obtain ⟨content, found⟩ : ∃ content, store.read? identity = some content :=
      ⟨_, List.getElem?_eq_getElem (present identity (owned_self identity))⟩
    rw [found] at same
    by_cases document : ∃ type slots, content = .document type slots
    · obtain ⟨type, slots, rfl⟩ := document
      rw [toDict_of_document found, toDict_of_document same, shown]
    · have other (type : String) (slots : List (Slot Item)) : content ≠ .document type slots :=
        fun same => document ⟨type, slots, same⟩
      rw [toDict_of_other found other, toDict_of_other same other]

end Store

end LayeredConfig
