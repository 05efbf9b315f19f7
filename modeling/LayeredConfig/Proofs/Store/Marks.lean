import LayeredConfig.NodeSchema
import LayeredConfig.Proofs.Store.Events

namespace LayeredConfig

open Step

/-- Whether a content is a container, and not a document. -/
def Cell.isContainer : Cell → Bool
  | .document _ _ => false
  | _ => true

theorem Cell.outline?_of_isContainer {cell : Cell} (container : cell.isContainer = true) :
    cell.outline? = none := by
  cases cell with
  | document type slots => cases container
  | _ => rfl

namespace Chronicle

variable {classes : String → List Str}

/-- What can be done to documents, and to the containers that are given to them and that they answer. -/
inductive Operation
  | construct (schema : Schema) (given : List (Str × Item))
  | assign (document : Identity) (name : Str) (item : Item)
  | setExplicit (document : Identity) (name : Str) (item : Item)
  | overlay (base upper : Identity)
  | copy (item : Item)
  /-- The names of the explicit settings, as a set. -/
  | explicitSettings (document : Identity)
  /-- A new container with some content. -/
  | make (content : Cell)
  /-- A change of a container, such as the set of explicit settings that a document has answered. -/
  | alter (container : Identity) (content : Cell)

namespace Operation

/-- An operation, which answers the events up to then. -/
def step (events : List Event) : Operation → Step (List Event)
  | .construct schema given => do
    let first := (← get).cells.length
    let document ← Document.construct schema given
    return .constructed document (given.map (·.1)) ::
      inherit first schema.newDocument.objects events
  | .assign document name item => do
    Document.set document name item
    return events
  | .setExplicit document name item => do
    Document.setExplicit document name item
    return .assigned document name :: events
  | .overlay base upper => do
    Document.overlay base upper
    return .overlaid base upper :: events
  | .copy item => do
    let (_, copies) ← copyItem (← get).cells.length [] item
    return transcript copies events
  | .explicitSettings document => do
    let (type, slots) ← Document.read document
    let _ ← Document.run document type slots .explicitSettings []
    return events
  | .make content => do
    if content.isContainer then
      let _ ← alloc content
      return events
    else fail .kind
  | .alter container content => do
    if (← cell container).isContainer && content.isContainer then
      write container content
      return events
    else fail .method

/-- The classes that an operation names have the settings that their names stand for. -/
def Registered (classes : String → List Str) : Operation → Prop
  | .construct schema _ => Chronicle.Registered classes schema.newDocument
  | _ => True

/-- Every operation that succeeds accounts for the marks of all documents. -/
theorem accounted {operation : Operation} (registered : operation.Registered classes) {store later : Store}
    {events after : List Event} (run : (operation.step events).run.run store = (.ok after, later))
    (before : Accounted classes store.outlines events) : Accounted classes later.outlines after := by
  cases operation with
  | construct schema given =>
    obtain ⟨document, between, made, answer⟩ :=
      exists_of_run_bind (show (Document.construct schema given >>= fun document => pure
        (.constructed document (given.map (·.1)) ::
          inherit store.cells.length schema.newDocument.objects events)).run.run store = (.ok after, later)
        from run)
    obtain ⟨rfl, rfl⟩ := of_run_pure answer
    exact before.construct registered made
  | assign document name item =>
    obtain ⟨_, between, done, answer⟩ := exists_of_run_bind run
    obtain ⟨rfl, rfl⟩ := of_run_pure answer
    exact before.assign done
  | setExplicit document name item =>
    obtain ⟨_, between, done, answer⟩ := exists_of_run_bind run
    obtain ⟨rfl, rfl⟩ := of_run_pure answer
    exact before.setExplicit done
  | overlay base upper =>
    obtain ⟨_, between, done, answer⟩ := exists_of_run_bind run
    obtain ⟨rfl, rfl⟩ := of_run_pure answer
    exact before.overlay done
  | copy item =>
    obtain ⟨result, between, done, answer⟩ :=
      exists_of_run_bind (show (copyItem store.cells.length [] item >>= fun result =>
        pure (transcript result.2 events)).run.run store = (.ok after, later) from run)
    obtain ⟨rfl, rfl⟩ := of_run_pure answer
    exact (transcribes_copyItem classes events _ store [] item result between done before).1
  | explicitSettings document =>
    obtain ⟨content, between, done, rest⟩ := exists_of_run_bind run
    obtain ⟨_, last, answered, answer⟩ := exists_of_run_bind rest
    obtain ⟨rfl, rfl⟩ := of_run_pure answer
    obtain ⟨rfl, -⟩ := Document.read_cases done
    obtain ⟨-, rfl⟩ := Prod.mk.inj answered
    rw [Store.outlines_alloc]
    exact before.append_none
  | make content =>
    simp only [step] at run
    split at run
    · next container =>
      obtain ⟨_, between, made, answer⟩ := exists_of_run_bind run
      obtain ⟨rfl, rfl⟩ := of_run_pure answer
      obtain ⟨-, rfl⟩ := Prod.mk.inj made
      rw [Store.outlines_alloc, Cell.outline?_of_isContainer container]
      exact before.append_none
    · cases (Prod.mk.inj run).1
  | alter container content =>
    obtain ⟨old, between, read, rest⟩ := exists_of_run_bind run
    obtain ⟨rfl, found⟩ := of_run_cell read
    split at rest
    · next containers =>
      obtain ⟨was, becomes⟩ := Bool.and_eq_true_iff.mp containers
      obtain ⟨_, between, written, answer⟩ := exists_of_run_bind rest
      obtain ⟨rfl, rfl⟩ := of_run_pure answer
      obtain ⟨-, rfl⟩ := Prod.mk.inj written
      have same := (Cell.outline?_of_isContainer becomes).trans (Cell.outline?_of_isContainer was).symm
      change Accounted classes (Store.write _ _ _).outlines events
      rwa [outlines_write_of_same found same]
    · cases (Prod.mk.inj rest).1

end Operation

end Chronicle

/-- The objects of a moment, and the events up to then, of which the latest stands first. -/
structure Chronicle where
  store : Store
  events : List Chronicle.Event

namespace Chronicle

/-- What becomes of everything by an operation. A call that fails leaves new objects at most, which nothing
leads to; they are forgotten. -/
def act (chronicle : Chronicle) (operation : Operation) : Chronicle :=
  match (operation.step chronicle.events).run.run chronicle.store with
  | (.ok events, store) => ⟨store, events⟩
  | (.error _, _) => chronicle

def run (operations : List Operation) : Chronicle :=
  operations.foldl act ⟨.empty, []⟩

theorem accounted_act {chronicle : Chronicle} {operation : Operation}
    (registered : operation.Registered classes)
    (accounted : Accounted classes chronicle.store.outlines chronicle.events) :
    Accounted classes (chronicle.act operation).store.outlines (chronicle.act operation).events := by
  unfold act
  split
  · next events store run => exact Operation.accounted registered run accounted
  · exact accounted

theorem accounted_foldl {operations : List Operation} {chronicle : Chronicle}
    (registered : ∀ operation ∈ operations, operation.Registered classes)
    (accounted : Accounted classes chronicle.store.outlines chronicle.events) :
    Accounted classes (operations.foldl act chronicle).store.outlines
      (operations.foldl act chronicle).events := by
  induction operations generalizing chronicle with
  | nil => exact accounted
  | cons operation operations ih =>
    obtain ⟨here, later⟩ := List.forall_mem_cons.mp registered
    exact ih later (accounted_act here accounted)

section failing

variable {store later : Store} {fault : Fault}

theorem read?_giveAll {root : Identity} {given : List (Str × Item)} {result : Except Fault Unit}
    (run : (given.forM fun (name, item) => Document.setExplicit root name item).run.run store =
      (result, later)) {other : Identity} (different : other ≠ root) :
    later.read? other = store.read? other := by
  induction given generalizing store with
  | nil => rw [← (Prod.mk.inj run).2]
  | cons pair given ih =>
    have kept {outcome : Except Fault Unit} {between : Store}
        (done : (Document.setExplicit root pair.1 pair.2).run.run store = (outcome, between)) :
        between.read? other = store.read? other := by
      rcases Document.change_cases done with ⟨type, slots, -, -, -, rfl⟩ | ⟨_, -, rfl⟩
      · exact store.read?_write root other _ different.symm
      · rfl
    rcases run_bind run with ⟨_, failed, -⟩ | ⟨_, between, done, rest⟩
    · exact kept failed
    · exact (ih rest).trans (kept done)

theorem extends_construct {schema : Schema} {given : List (Str × Item)} {result : Except Fault Identity}
    (run : (Document.construct schema given).run.run store = (result, later)) : store.Extends later := by
  unfold Document.construct at run
  split at run
  · obtain ⟨-, rfl⟩ := Prod.mk.inj run
    exact .refl store
  · obtain ⟨document, between, placed, -, -, new⟩ := run_place_document schema.newDocument rfl store
    obtain ⟨_, _, placed', extend, -⟩ := adds_place schema.newDocument store
    obtain ⟨-, rfl⟩ := Prod.mk.inj (placed.symm.trans placed')
    rw [run_bind_of_ok placed] at run
    change ((given.forM fun (name, item) => Document.setExplicit document name item) >>=
      fun _ => pure document).run.run between = (result, later) at run
    -- only the new document is written to
    have kept {outcome : Except Fault Unit} {after : Store}
        (done : (given.forM fun (name, item) => Document.setExplicit document name item).run.run between =
          (outcome, after)) : store.Extends after := by
      intro identity cell found
      have different : identity ≠ document :=
        Nat.ne_of_lt (Nat.lt_of_lt_of_le (Store.lt_of_read? found) new)
      exact (read?_giveAll done different).trans (extend identity cell found)
    rcases run_bind run with ⟨_, failed, -⟩ | ⟨_, after, done, answer⟩
    · exact kept failed
    · obtain ⟨-, rfl⟩ := Prod.mk.inj answer
      exact kept done

theorem exists_run_construct {schema : Schema} {given : List (Str × Item)}
    (known : ∀ pair ∈ given, pair.1 ∈ schema.names ∧ pair.1 ≠ "self") (store : Store) :
    ∃ root later, (Document.construct schema given).run.run store = (.ok root, later) := by
  obtain ⟨document, between, placed, -, here, -⟩ := run_place_document schema.newDocument rfl store
  have names : (Slot.outline (Schema.newSlots schema.settings)).map (·.name) = schema.names := by
    rw [Slot.names_outline, Schema.newSlots, List.map_map]
    rfl
  obtain ⟨later, done⟩ := exists_run_giveAll here fun pair listed => names ▸ (known pair listed).1
  refine ⟨document, later, ?_⟩
  have free : ¬ (given.any (·.1 == "self")) = true := by
    simp only [List.any_eq_true, beq_iff_eq, not_exists, not_and]
    exact fun pair listed => (known pair listed).2
  unfold Document.construct
  rw [if_neg free, run_bind_of_ok placed]
  exact run_bind_of_ok done

theorem extends_copyItem {depth : Nat} {item : Item} {result : Except Fault (Item × Copies)}
    (run : (copyItem depth [] item).run.run store = (result, later)) : store.Extends later :=
  (Spares.extends (freshly_copyItem depth _ [] item listed_nil) run).1

/-- An operation that fails leaves everything that there was as it was. -/
theorem Operation.extends_of_error {operation : Operation} {events : List Event}
    (run : (operation.step events).run.run store = (.error fault, later)) : store.Extends later := by
  have unchanged (same : later = store) : store.Extends later := same ▸ .refl store
  cases operation with
  | construct schema given =>
    obtain ⟨_, failed⟩ := exists_error_of_run_bind_pure (Document.construct schema given) run
    exact extends_construct failed
  | assign document name item =>
    obtain ⟨_, failed⟩ := exists_error_of_run_bind_pure (Document.set document name item) run
    exact unchanged (Document.unchanged_of_change_error failed)
  | setExplicit document name item =>
    obtain ⟨_, failed⟩ := exists_error_of_run_bind_pure (Document.setExplicit document name item) run
    exact unchanged (Document.unchanged_of_change_error failed)
  | overlay base upper =>
    obtain ⟨_, failed⟩ := exists_error_of_run_bind_pure (Document.overlay base upper) run
    exact unchanged (Document.unchanged_of_overlay_error failed)
  | copy item =>
    obtain ⟨_, failed⟩ := exists_error_of_run_bind_pure (copyItem store.cells.length [] item) run
    exact extends_copyItem failed
  | explicitSettings document =>
    rcases run_bind run with ⟨_, failed, -⟩ | ⟨_, _, -, rest⟩
    · exact unchanged (Document.read_cases failed).1
    · cases (Prod.mk.inj rest).1
  | make content =>
    simp only [step] at run
    split at run
    · cases (Prod.mk.inj run).1
    · exact unchanged (Prod.mk.inj run).2.symm
  | alter container content =>
    rcases run_bind run with ⟨_, failed, -⟩ | ⟨_, _, read, rest⟩
    · rw [run_cell] at failed
      split at failed
      · cases (Prod.mk.inj failed).1
      · exact unchanged (Prod.mk.inj failed).2.symm
    · obtain ⟨rfl, -⟩ := of_run_cell read
      split at rest
      · cases (Prod.mk.inj rest).1
      · exact unchanged (Prod.mk.inj rest).2.symm

end failing

/-- What is true of a document through everything. It has a value for each setting of its class and no
other, and the events account for its marks; the set of these that it answers is a new object. A plain
assignment changes no outline at all, and an explicit one marks the setting that it names; a name that the
class does not have is refused, and nothing changes. -/
structure Kept (classes : String → List Str) (chronicle : Chronicle) (identity : Identity)
    (type : String) (slots : List (Slot Item)) : Prop where
  names : slots.map (·.name) = classes type
  valued : ∀ name, (∃ item, (Document.get identity name).run.run chronicle.store =
    (.ok item, chronicle.store)) ↔ name ∈ classes type
  known : ∀ name ∈ Slot.explicitNames slots, name ∈ classes type
  marked : ∀ name, name ∈ Slot.explicitNames slots ↔ Marked chronicle.events identity name
  answered : (Document.run identity type slots .explicitSettings []).run.run chronicle.store =
    (.ok (.item (.object chronicle.store.cells.length)),
      chronicle.store.alloc (.set .plain ((Slot.explicitNames slots).map .str)))
  assigned : ∀ name ∈ classes type, ∀ item, ∃ later,
    (Document.set identity name item).run.run chronicle.store = (.ok (), later) ∧
      later.outlines = chronicle.store.outlines
  marking : ∀ name ∈ classes type, ∀ item, ∃ later slots',
    (Document.setExplicit identity name item).run.run chronicle.store = (.ok (), later) ∧
      later.read? identity = some (.document type slots') ∧
      ∀ other, other ∈ Slot.explicitNames slots' ↔ other ∈ Slot.explicitNames slots ∨ other = name
  refused : ∀ name, name ∉ classes type → ∀ item,
    (Document.set identity name item).run.run chronicle.store =
        (.error (.unknownSetting type name), chronicle.store) ∧
      (Document.setExplicit identity name item).run.run chronicle.store =
        (.error (.unknownSetting type name), chronicle.store)

theorem Accounted.kept {chronicle : Chronicle} {identity : Identity} {type : String}
    {slots : List (Slot Item)} (accounted : Accounted classes chronicle.store.outlines chronicle.events)
    (found : chronicle.store.read? identity = some (.document type slots)) :
    Kept classes chronicle identity type slots := by
  have here := outlined_of_read? found
  have names : slots.map (·.name) = classes type :=
    (Slot.names_outline slots).symm.trans (accounted.names _ _ here)
  exact {
    names := names
    valued := fun name => names ▸ Document.exists_run_get_iff found
    known := fun name marked => names ▸ Slot.explicitNames_subset slots name marked
    marked := fun name => by rw [accounted.marked_iff here, Slot.explicitNames_outline]
    answered := rfl
    assigned := fun name known item => by
      refine ⟨_, Document.run_change (Slot.store name item) found (names ▸ known), ?_⟩
      refine outlines_write_of_same found ?_
      rw [Cell.outline?, Cell.outline?, Slot.outline_store]
    marking := fun name known item => by
      have there : name ∈ slots.map (·.name) := names ▸ known
      exact ⟨_, _, Document.run_change (Slot.assign name item) found there,
        Store.read?_write_self found _, fun other => Slot.mem_explicitNames_assign there⟩
    refused := fun name unknown item => by
      rw [← names] at unknown
      exact ⟨Document.run_change_of_unknown (Slot.store name item) found unknown,
        Document.run_change_of_unknown (Slot.assign name item) found unknown⟩ }

/-- Whatever is done to documents, if the names of classes stand for their settings: in every document the
explicit settings are those that were given to its constructor or successfully assigned as explicit ones,
or were explicit in a document at the time when it was laid over this one or this one was copied from it.
A constructor takes any settings of its class, and a call that fails leaves all that there was as it was. -/
theorem explicit_iff_marked (classes : String → List Str) {operations : List Operation}
    (registered : ∀ operation ∈ operations, operation.Registered classes) :
    (∀ identity type slots, (run operations).store.read? identity = some (.document type slots) →
      Kept classes (run operations) identity type slots) ∧
    (∀ (schema : Schema) (given : List (Str × Item)),
      (∀ pair ∈ given, pair.1 ∈ schema.names ∧ pair.1 ≠ "self") → ∃ root later,
        (Document.construct schema given).run.run (run operations).store = (.ok root, later)) ∧
    ∀ (operation : Operation) (fault : Fault) (later : Store),
      (operation.step (run operations).events).run.run (run operations).store = (.error fault, later) →
        (run operations).store.Extends later := by
  have accounted : Accounted classes (run operations).store.outlines (run operations).events :=
    accounted_foldl registered (.empty classes)
  refine ⟨fun identity type slots found => accounted.kept found, fun schema given known => ?_,
    fun operation fault later failed => Operation.extends_of_error failed⟩
  exact exists_run_construct known _

/-- Two classes are constructed, one with a name; the other is given parameters and laid over the first, of
which a copy is made. Then the set of explicit settings that the first has answered is emptied. -/
def marksCopied : List Operation :=
  [.construct NodeSchema.parameterizedClass [("class_name", .value (.str "a"))],
    .construct NodeSchema.parameterizedClass [],
    .setExplicit 1 "parameters" (.value .null), .setExplicit 1 "parameter" (.value .null),
    .overlay 0 1, .copy (.object 0), .explicitSettings 0, .alter 3 (.set .plain []),
    .assign 1 "class_name" (.value (.str "b"))]

/-- In the copy both settings are explicit, and in the second class only its parameters. -/
theorem explicit_iff_marked_marksCopied :
    (∀ operation ∈ marksCopied, operation.Registered fun _ => ["class_name", "parameters"]) ∧
      (∀ name : Str, name ∈ (["class_name", "parameters"] : List Str) ↔ Marked (run marksCopied).events 2 name) ∧
      (∀ name : Str, name ∈ (["parameters"] : List Str) ↔ Marked (run marksCopied).events 1 name) := by
  have registered : ∀ operation ∈ marksCopied,
      operation.Registered fun _ => ["class_name", "parameters"] := by
    have known : Registered (fun _ => ["class_name", "parameters"])
        NodeSchema.parameterizedClass.newDocument := by
      intro type slots occurs
      cases occurs with
      | here => rfl
      | slot listed deeper =>
        have unset : ∀ setting ∈ NodeSchema.parameterizedClass.settings, setting.default = .null := by
          simp [NodeSchema.parameterizedClass, NodeSchema.optional]
        obtain ⟨setting, among, rfl⟩ := List.mem_map.mp listed
        rw [unset setting among] at deeper
        cases deeper
    intro operation listed
    simp only [marksCopied, List.mem_cons, List.not_mem_nil, or_false] at listed
    rcases listed with rfl | rfl | rfl | rfl | rfl | rfl | rfl | rfl | rfl
    · exact known
    · exact known
    all_goals trivial
  obtain ⟨kept, -, -⟩ := explicit_iff_marked _ registered
  refine ⟨registered, ?_, ?_⟩
  · exact (kept 2 "ParameterizedClass" [⟨"class_name", true, .value (.str "a")⟩,
      ⟨"parameters", true, .value .null⟩] rfl).marked
  · exact (kept 1 "ParameterizedClass" [⟨"class_name", false, .value (.str "b")⟩,
      ⟨"parameters", true, .value .null⟩] rfl).marked

end Chronicle

end LayeredConfig
