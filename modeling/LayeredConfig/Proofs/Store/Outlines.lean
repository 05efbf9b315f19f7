import LayeredConfig.Proofs.Schema.Layering
import LayeredConfig.Proofs.Store.Overlays

/-!
Outlines of documents, which are all of them but the values. An assignment changes the outline of one
document, and only if it is explicit; an overlay changes that of the document below.
-/

namespace LayeredConfig

/-- A document without its values: its type, and its settings with their marks. -/
structure Outline where
  type : String
  slots : List (Slot Unit)

namespace Slot

variable {α : Type} {name : Str} {slots : List (Slot α)}

/-- Slots without their values. -/
def outline (slots : List (Slot α)) : List (Slot Unit) :=
  slots.map (Store.withValue · ())

@[simp]
theorem names_outline (slots : List (Slot α)) : (outline slots).map (·.name) = slots.map (·.name) := by
  simp [outline, Store.withValue]

@[simp]
theorem explicitNames_outline (slots : List (Slot α)) :
    explicitNames (outline slots) = explicitNames slots := by
  simp [explicitNames, outline, Store.withValue, List.filter_map, Function.comp_def]

/-- A plain assignment leaves the outline as it is. -/
theorem outline_store (name : Str) (value : α) (slots : List (Slot α)) :
    outline (store name value slots) = outline slots := by
  induction slots with
  | nil => rfl
  | cons slot slots ih =>
    simp only [outline, store] at ih ⊢
    split
    · rfl
    · rw [List.map_cons, ih, List.map_cons]

/-- An explicit assignment marks the setting that it names, and no other one. -/
theorem mem_explicitNames_assign {value : α} (known : name ∈ slots.map (·.name)) {other : Str} :
    other ∈ explicitNames (assign name value slots) ↔ other ∈ explicitNames slots ∨ other = name := by
  simp only [mem_explicitNames]
  induction slots with
  | nil => cases known
  | cons slot slots ih =>
    rw [assign]
    by_cases same : slot.name = name
    · subst same
      simp only [beq_self_eq_true, if_true, List.exists_mem_cons_iff, true_and]
      constructor
      · rintro (here | later)
        · exact .inr here.symm
        · exact .inl (.inr later)
      · rintro ((⟨-, here⟩ | later) | here)
        · exact .inl here
        · exact .inr later
        · exact .inl here.symm
    · obtain here | later := List.mem_cons.mp known
      · exact absurd here.symm same
      · rw [if_neg (by simpa using same), List.exists_mem_cons_iff, ih later, List.exists_mem_cons_iff,
          or_assoc]

end Slot

/-- The outline of a content, if this is a document. -/
def Cell.outline? : Cell → Option Outline
  | .document type slots => some ⟨type, Slot.outline slots⟩
  | _ => none

namespace Store

/-- The outlines of all objects, by identity. -/
def outlines (store : Store) : List (Option Outline) :=
  store.cells.map Cell.outline?

@[simp]
theorem length_outlines (store : Store) : store.outlines.length = store.cells.length := by
  simp [outlines]

theorem outlines_write (store : Store) (identity : Identity) (cell : Cell) :
    (store.write identity cell).outlines = store.outlines.set identity cell.outline? :=
  List.map_set

theorem outlines_alloc (store : Store) (cell : Cell) :
    (store.alloc cell).outlines = store.outlines ++ [cell.outline?] := by
  simp [outlines, alloc]

end Store

/-- An object is a document with an outline. -/
def Outlined (outlines : List (Option Outline)) (identity : Identity) (outline : Outline) : Prop :=
  outlines[identity]? = some (some outline)

section outlined

variable {outlines : List (Option Outline)} {identity : Identity} {outline : Outline}

theorem Outlined.lt (here : Outlined outlines identity outline) : identity < outlines.length :=
  (List.getElem?_eq_some_iff.mp here).1

theorem Outlined.unique {other : Outline} (here : Outlined outlines identity outline)
    (there : Outlined outlines identity other) : outline = other :=
  Option.some.inj (Option.some.inj (here.symm.trans there))

theorem outlined_append_iff {last : Option Outline} :
    Outlined (outlines ++ [last]) identity outline ↔
      Outlined outlines identity outline ∨ identity = outlines.length ∧ last = some outline := by
  constructor
  · intro here
    by_cases old : identity < outlines.length
    · exact .inl ((List.getElem?_append_left old).symm.trans here)
    · have bound := here.lt
      rw [List.length_append, List.length_singleton] at bound
      obtain rfl : identity = outlines.length :=
        Nat.le_antisymm (Nat.le_of_lt_succ bound) (Nat.le_of_not_lt old)
      exact .inr ⟨rfl, Option.some.inj (List.getElem?_concat_length.symm.trans here)⟩
  · rintro (here | ⟨rfl, rfl⟩)
    · exact (List.getElem?_append_left here.lt).trans here
    · exact List.getElem?_concat_length

theorem outlined_set_iff {changed : Identity} {old new : Outline} (there : Outlined outlines changed old) :
    Outlined (outlines.set changed (some new)) identity outline ↔
      identity = changed ∧ outline = new ∨ identity ≠ changed ∧ Outlined outlines identity outline := by
  unfold Outlined
  by_cases same : identity = changed
  · subst same
    simp [List.getElem?_set_self there.lt, eq_comm]
  · simp [same, List.getElem?_set_ne (Ne.symm same)]

theorem outlined_iff_of_read? {store : Store} {cell : Cell} (found : store.read? identity = some cell) :
    Outlined store.outlines identity outline ↔ cell.outline? = some outline := by
  rw [Store.read?] at found
  rw [Outlined, Store.outlines, List.getElem?_map, found, Option.map_some, Option.some.injEq]

theorem outlined_of_read? {store : Store} {type : String} {slots : List (Slot Item)}
    (found : store.read? identity = some (.document type slots)) :
    Outlined store.outlines identity ⟨type, Slot.outline slots⟩ :=
  (outlined_iff_of_read? found).mpr rfl

theorem Outlined.exists_read? {store : Store} (here : Outlined store.outlines identity outline) :
    ∃ slots, store.read? identity = some (.document outline.type slots) ∧
      Slot.outline slots = outline.slots := by
  rw [Outlined, Store.outlines, List.getElem?_map, Option.map_eq_some_iff] at here
  obtain ⟨cell, found, same⟩ := here
  cases cell with
  | document type slots =>
    obtain rfl := Option.some.inj same
    exact ⟨slots, found, rfl⟩
  | _ => cases same

/-- A change that leaves the outline of an object leaves all outlines. -/
theorem outlines_write_of_same {store : Store} {old new : Cell} (found : store.read? identity = some old)
    (same : new.outline? = old.outline?) : (store.write identity new).outlines = store.outlines := by
  rw [Store.outlines_write, same, Store.outlines, ← List.map_set]
  exact congrArg Store.outlines (Store.write_of_read? found)

end outlined

namespace Step

theorem run_bind_of_ok {step : Step α} {next : α → Step β} {store between : Store} {value : α}
    (run : step.run.run store = (.ok value, between)) :
    (step >>= next).run.run store = (next value).run.run between := by
  rw [ExceptT.run_bind, StateT.run_bind, run]
  rfl

theorem exists_of_run_bind {step : Step α} {next : α → Step β} {store later : Store} {result : β}
    (run : (step >>= next).run.run store = (.ok result, later)) :
    ∃ value between, step.run.run store = (.ok value, between) ∧
      (next value).run.run between = (.ok result, later) := by
  rcases run_bind run with ⟨fault, -, failed⟩ | done
  · cases failed
  · exact done

/-- A step fails where it fails with something done to its answer. -/
theorem exists_error_of_run_bind_pure (step : Step α) {answer : α → β} {store later : Store} {fault : Fault}
    (run : (step >>= fun value => pure (answer value)).run.run store = (.error fault, later)) :
    ∃ fault, step.run.run store = (.error fault, later) := by
  rcases run_bind run with ⟨other, failed, -⟩ | ⟨_, _, -, done⟩
  · exact ⟨other, failed⟩
  · cases (Prod.mk.inj done).1

theorem of_run_pure {store later : Store} {value result : α}
    (run : (pure value : Step α).run.run store = (.ok result, later)) : value = result ∧ store = later :=
  ⟨Except.ok.inj (Prod.mk.inj run).1, (Prod.mk.inj run).2⟩

theorem of_run_cell {store later : Store} {identity : Identity} {content : Cell}
    (run : (cell identity).run.run store = (.ok content, later)) :
    store = later ∧ store.read? identity = some content := by
  rw [run_cell] at run
  cases found : store.read? identity with
  | none =>
    rw [found] at run
    cases (Prod.mk.inj run).1
  | some cell =>
    rw [found] at run
    exact ⟨(Prod.mk.inj run).2, congrArg some (Except.ok.inj (Prod.mk.inj run).1)⟩

end Step

namespace Document

open Step

variable {identity : Identity} {store : Store} {type : String} {name : Str} {slots : List (Slot Item)}
  {rule : List (Slot Item) → List (Slot Item)}

theorem isNone_find?_iff : (Slot.find? name slots).isNone = true ↔ name ∉ slots.map (·.name) := by
  simp [Slot.find?]

theorem run_change (rule : List (Slot Item) → List (Slot Item))
    (found : store.read? identity = some (.document type slots))
    (known : name ∈ slots.map (·.name)) :
    (change identity name rule).run.run store =
      (.ok (), store.write identity (.document type (rule slots))) := by
  unfold change
  rw [run_bind_read found]
  have present : ¬ (Slot.find? name slots).isNone = true := fun none => isNone_find?_iff.mp none known
  simp only [present]
  rfl

theorem run_change_of_unknown (rule : List (Slot Item) → List (Slot Item))
    (found : store.read? identity = some (.document type slots))
    (unknown : name ∉ slots.map (·.name)) :
    (change identity name rule).run.run store = (.error (.unknownSetting type name), store) := by
  unfold change
  rw [run_bind_read found]
  simp only [isNone_find?_iff.mpr unknown, if_true]
  rfl

theorem exists_run_get_iff (found : store.read? identity = some (.document type slots)) :
    (∃ item, (get identity name).run.run store = (.ok item, store)) ↔ name ∈ slots.map (·.name) := by
  unfold get
  rw [run_bind_read found]
  have unknown : (Slot.find? name slots).isNone = true ↔ name ∉ slots.map (·.name) := isNone_find?_iff
  dsimp only
  cases sought : Slot.find? name slots with
  | none =>
    rw [sought] at unknown
    refine iff_of_false ?_ (unknown.mp rfl)
    rintro ⟨_, got⟩
    cases (Prod.mk.inj got).1
  | some slot =>
    rw [sought] at unknown
    refine iff_of_true ⟨slot.value, rfl⟩ ?_
    by_contra missing
    cases unknown.mpr missing

theorem read_cases {result : Except Fault (String × List (Slot Item))} {later : Store}
    (run : (read identity).run.run store = (result, later)) :
    later = store ∧ ((∃ type slots, store.read? identity = some (.document type slots) ∧
      result = .ok (type, slots)) ∨ ∃ fault, result = .error fault) := by
  unfold read at run
  rw [ExceptT.run_bind, StateT.run_bind, run_cell] at run
  cases found : store.read? identity with
  | none =>
    rw [found] at run
    obtain ⟨rfl, rfl⟩ := Prod.mk.inj run
    exact ⟨rfl, .inr ⟨_, rfl⟩⟩
  | some content =>
    rw [found] at run
    cases content with
    | document type slots =>
      obtain ⟨rfl, rfl⟩ := Prod.mk.inj run
      exact ⟨rfl, .inl ⟨type, slots, rfl, rfl⟩⟩
    | _ =>
      obtain ⟨rfl, rfl⟩ := Prod.mk.inj run
      exact ⟨rfl, .inr ⟨_, rfl⟩⟩

/-- An assignment is one to a setting of a document, or it fails and changes nothing. -/
theorem change_cases {result : Except Fault Unit} {later : Store}
    (run : (change identity name rule).run.run store = (result, later)) :
    (∃ type slots, store.read? identity = some (.document type slots) ∧ name ∈ slots.map (·.name) ∧
        result = .ok () ∧ later = store.write identity (.document type (rule slots))) ∨
      ∃ fault, result = .error fault ∧ later = store := by
  rcases run_bind run with ⟨fault, failed, rfl⟩ | ⟨content, between, done, -⟩
  · exact .inr ⟨fault, rfl, (read_cases failed).1⟩
  · obtain ⟨-, ⟨type, slots, found, -⟩ | ⟨fault, failed⟩⟩ := read_cases done
    · by_cases known : name ∈ slots.map (·.name)
      · obtain ⟨rfl, rfl⟩ := Prod.mk.inj ((run_change rule found known).symm.trans run)
        exact .inl ⟨type, slots, found, known, rfl, rfl⟩
      · obtain ⟨rfl, rfl⟩ := Prod.mk.inj ((run_change_of_unknown rule found known).symm.trans run)
        exact .inr ⟨_, rfl, rfl⟩
    · cases failed

theorem unchanged_of_change_error {fault : Fault} {later : Store}
    (run : (change identity name rule).run.run store = (.error fault, later)) : later = store := by
  rcases change_cases run with ⟨_, _, -, -, done, -⟩ | ⟨_, -, same⟩
  · cases done
  · exact same

/-- An overlay is one of two documents of one type, or it fails and changes nothing. -/
theorem overlay_cases {base upper : Identity} {result : Except Fault Unit} {later : Store}
    (run : (overlay base upper).run.run store = (result, later)) :
    (∃ type below above, store.read? base = some (.document type below) ∧
        store.read? upper = some (.document type above) ∧ result = .ok () ∧
        later = store.write base (.document type (Slot.overlay below above))) ∨
      ∃ fault, result = .error fault ∧ later = store := by
  rcases run_bind run with ⟨fault, failed, rfl⟩ | ⟨content, between, done, run⟩
  · exact .inr ⟨fault, rfl, (read_cases failed).1⟩
  · obtain ⟨rfl, ⟨type, below, lower, same⟩ | ⟨fault, failed⟩⟩ := read_cases done
    · obtain rfl := Except.ok.inj same
      rcases run_bind run with ⟨fault, failed, rfl⟩ | ⟨content, between, done, run⟩
      · exact .inr ⟨fault, rfl, (read_cases failed).1⟩
      · obtain ⟨rfl, ⟨type', above, higher, same⟩ | ⟨fault, failed⟩⟩ := read_cases done
        · obtain rfl := Except.ok.inj same
          by_cases alike : type = type'
          · subst alike
            simp only [beq_self_eq_true, if_true] at run
            obtain ⟨rfl, rfl⟩ := Prod.mk.inj run
            exact .inl ⟨type, below, above, lower, higher, rfl, rfl⟩
          · simp only [beq_eq_false_iff_ne.mpr alike] at run
            obtain ⟨rfl, rfl⟩ := Prod.mk.inj run
            exact .inr ⟨_, rfl, rfl⟩
        · cases failed
    · cases failed

theorem unchanged_of_overlay_error {base upper : Identity} {fault : Fault} {later : Store}
    (run : (overlay base upper).run.run store = (.error fault, later)) : later = store := by
  rcases overlay_cases run with ⟨_, _, _, -, -, done, -⟩ | ⟨_, -, same⟩
  · cases done
  · exact same

end Document

end LayeredConfig
