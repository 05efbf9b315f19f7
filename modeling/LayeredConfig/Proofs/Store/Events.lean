import LayeredConfig.Proofs.Store.Births

/-!
Events that account for the marks of documents: a setting is given to a constructor or explicitly
assigned, or is explicit in what a document is made of or has laid over it. Each step on documents adds
the events that account for the marks that it makes.
-/

namespace LayeredConfig

open Step

/-- The names of the settings that are explicit in a value, if this is a document. -/
def Value.marks : Value → List Str
  | .document _ slots => Slot.explicitNames slots
  | _ => []

namespace Chronicle

/-- What has happened to the marks of a document. -/
inductive Event
  /-- It came into being as a part of a default, in which some settings are explicit. -/
  | inherited (document : Identity) (names : List Str)
  /-- Its constructor was given values for some settings. -/
  | constructed (document : Identity) (names : List Str)
  /-- An explicit assignment to a setting of it succeeded. -/
  | assigned (document : Identity) (name : Str)
  /-- Another document was laid over it. -/
  | overlaid (document upper : Identity)
  /-- It came into being as a copy of another document. -/
  | copied (document original : Identity)

def Event.document : Event → Identity
  | .inherited document _ => document
  | .constructed document _ => document
  | .assigned document _ => document
  | .overlaid document _ => document
  | .copied document _ => document

/-- The settings that an event marks, given the marks of all documents before it. -/
def Event.Gives (before : Identity → Str → Prop) (name : Str) : Event → Prop
  | .inherited _ names => name ∈ names
  | .constructed _ names => name ∈ names
  | .assigned _ known => name = known
  | .overlaid _ upper => before upper name
  | .copied _ original => before original name

/-- The marks that come from some events, of which the latest stands first. -/
def Marked : List Event → Identity → Str → Prop
  | [], _, _ => False
  | event :: earlier, document, name =>
    Marked earlier document name ∨ event.document = document ∧ event.Gives (Marked earlier) name

/-- Documents have the settings of their classes, and the marks that come from some events. -/
structure Accounted (classes : String → List Str) (outlines : List (Option Outline))
    (events : List Event) : Prop where
  names : ∀ identity outline, Outlined outlines identity outline →
    outline.slots.map (·.name) = classes outline.type
  marks : ∀ identity name, Marked events identity name ↔
    ∃ outline, Outlined outlines identity outline ∧ name ∈ Slot.explicitNames outline.slots

variable {classes : String → List Str} {outlines : List (Option Outline)} {events : List Event}

namespace Accounted

theorem empty (classes : String → List Str) : Accounted classes [] [] where
  names := fun identity _ here => absurd here.lt (Nat.not_lt_zero identity)
  marks := fun identity _ =>
    ⟨False.elim, fun ⟨_, here, _⟩ => absurd here.lt (Nat.not_lt_zero identity)⟩

theorem marked_iff (accounted : Accounted classes outlines events) {identity : Identity} {outline : Outline}
    (here : Outlined outlines identity outline) {name : Str} :
    Marked events identity name ↔ name ∈ Slot.explicitNames outline.slots := by
  rw [accounted.marks]
  constructor
  · rintro ⟨other, there, marked⟩
    exact here.unique there ▸ marked
  · exact fun marked => ⟨outline, here, marked⟩

theorem append_none (accounted : Accounted classes outlines events) :
    Accounted classes (outlines ++ [none]) events := by
  have same (identity : Identity) (outline : Outline) :
      Outlined (outlines ++ [none]) identity outline ↔ Outlined outlines identity outline := by
    simp [outlined_append_iff]
  constructor
  · exact fun identity outline here => accounted.names identity outline ((same identity outline).mp here)
  · intro identity name
    simp only [accounted.marks, same]

/-- A new object is accounted for by an event that says what is explicit in it. -/
theorem append (accounted : Accounted classes outlines events) (event : Event) {outline? : Option Outline}
    (new : event.document = outlines.length)
    (names : ∀ outline, outline? = some outline → outline.slots.map (·.name) = classes outline.type)
    (gives : ∀ name, event.Gives (Marked events) name ↔
      ∃ outline, outline? = some outline ∧ name ∈ Slot.explicitNames outline.slots) :
    Accounted classes (outlines ++ [outline?]) (event :: events) := by
  constructor
  · intro identity outline here
    rcases outlined_append_iff.mp here with old | ⟨-, last⟩
    · exact accounted.names identity outline old
    · exact names outline last
  · intro identity name
    rw [Marked, accounted.marks, gives, new]
    simp only [outlined_append_iff, or_and_right, exists_or]
    refine or_congr Iff.rfl ⟨?_, ?_⟩
    · rintro ⟨rfl, outline, last, marked⟩
      exact ⟨outline, ⟨rfl, last⟩, marked⟩
    · rintro ⟨outline, ⟨rfl, last⟩, marked⟩
      exact ⟨rfl, outline, last, marked⟩

theorem set (accounted : Accounted classes outlines events) (event : Event) {old new : Outline}
    (here : Outlined outlines event.document old)
    (names : new.slots.map (·.name) = classes new.type)
    (gives : ∀ name, name ∈ Slot.explicitNames new.slots ↔
      name ∈ Slot.explicitNames old.slots ∨ event.Gives (Marked events) name) :
    Accounted classes (outlines.set event.document (some new)) (event :: events) := by
  constructor
  · intro identity outline there
    rcases (outlined_set_iff here).mp there with ⟨-, rfl⟩ | ⟨-, old⟩
    · exact names
    · exact accounted.names identity outline old
  · intro identity name
    rw [Marked, accounted.marks]
    by_cases changed : identity = event.document
    · subst changed
      simp only [outlined_set_iff here, true_and, ne_eq, not_true_eq_false, false_and, or_false,
        exists_eq_left, gives]
      refine or_congr ⟨?_, fun marked => ⟨old, here, marked⟩⟩ Iff.rfl
      rintro ⟨outline, there, marked⟩
      exact here.unique there ▸ marked
    · simp only [outlined_set_iff here, changed, Ne.symm changed, false_and, or_false, false_or, ne_eq,
        not_false_eq_true, true_and]

end Accounted

/-- The events of objects that are made for some values, of which the first one has a given identity. -/
def inherit (first : Identity) : List Value → List Event → List Event
  | [], events => events
  | value :: values, events => inherit (first + 1) values (.inherited first value.marks :: events)

/-- The documents in a value have the settings of their classes. -/
def Registered (classes : String → List Str) (value : Value) : Prop :=
  ∀ type slots, Occurs (.document type slots) value → slots.map (·.name) = classes type

theorem Accounted.inherit {values : List Value} (accounted : Accounted classes outlines events)
    (registered : ∀ value ∈ values, Registered classes value) :
    Accounted classes (outlines ++ values.map Value.outline?) (inherit outlines.length values events) := by
  induction values generalizing outlines events with
  | nil => rwa [List.map_nil, List.append_nil]
  | cons value values ih =>
    obtain ⟨here, later⟩ := List.forall_mem_cons.mp registered
    have first : Accounted classes (outlines ++ [value.outline?])
        (.inherited outlines.length value.marks :: events) := by
      refine accounted.append _ rfl (fun outline same => ?_) fun name => ?_
      · cases value with
        | document type slots =>
          obtain rfl := Option.some.inj same
          exact (Slot.names_outline slots).trans (here type slots .here)
        | _ => cases same
      · cases value with
        | document type slots =>
          simp [Event.Gives, Value.marks, Value.outline?]
        | _ => simp [Event.Gives, Value.marks, Value.outline?]
    have rest := ih first later
    rwa [List.append_assoc, List.length_append] at rest

section construction

variable {store : Store} {root : Identity} {given : List (Str × Item)}

theorem outlines_giveAll {outline : Outline} {later : Store} (here : Outlined store.outlines root outline)
    (run : (given.forM fun (name, item) => Document.setExplicit root name item).run.run store =
      (.ok (), later)) :
    ∃ slots, later.outlines = store.outlines.set root (some ⟨outline.type, slots⟩) ∧
      slots.map (·.name) = outline.slots.map (·.name) ∧
      ∀ name, name ∈ Slot.explicitNames slots ↔
        name ∈ Slot.explicitNames outline.slots ∨ name ∈ given.map (·.1) := by
  induction given generalizing store outline with
  | nil =>
    obtain ⟨-, rfl⟩ := Prod.mk.inj run
    refine ⟨outline.slots, ?_, rfl, fun name => by simp⟩
    obtain ⟨inside, same⟩ := List.getElem?_eq_some_iff.mp here
    rw [← same, List.set_getElem_self]
  | cons pair given ih =>
    obtain ⟨_, between, done, rest⟩ := exists_of_run_bind run
    rcases Document.change_cases done with ⟨type, slots, found, known, -, rfl⟩ | ⟨fault, failed, -⟩
    · obtain rfl := here.unique (outlined_of_read? found)
      have written : (store.write root (.document type (Slot.assign pair.1 pair.2 slots))).outlines =
          store.outlines.set root (some ⟨type, Slot.outline (Slot.assign pair.1 pair.2 slots)⟩) :=
        store.outlines_write root _
      have there := outlined_of_read? (Store.read?_write_self found
        (.document type (Slot.assign pair.1 pair.2 slots)))
      obtain ⟨last, same, names, marks⟩ := ih there rest
      refine ⟨last, ?_, ?_, fun name => ?_⟩
      · rw [same, written, List.set_set]
      · simp only [names, Slot.names_outline, Slot.names_assign]
      · simp only [marks, Slot.explicitNames_outline, Slot.mem_explicitNames_assign known, or_assoc,
          List.map_cons, List.mem_cons]
    · cases failed

theorem exists_run_giveAll {outline : Outline} (here : Outlined store.outlines root outline)
    (known : ∀ pair ∈ given, pair.1 ∈ outline.slots.map (·.name)) :
    ∃ later, (given.forM fun (name, item) => Document.setExplicit root name item).run.run store =
      (.ok (), later) := by
  induction given generalizing store outline with
  | nil => exact ⟨store, rfl⟩
  | cons pair given ih =>
    obtain ⟨first, rest⟩ := List.forall_mem_cons.mp known
    obtain ⟨slots, found, same⟩ := here.exists_read?
    have names : slots.map (·.name) = outline.slots.map (·.name) := by rw [← same, Slot.names_outline]
    have done := Document.run_change (Slot.assign pair.1 pair.2) found (names ▸ first)
    have there := outlined_of_read? (Store.read?_write_self found
      (.document outline.type (Slot.assign pair.1 pair.2 slots)))
    obtain ⟨later, run⟩ := ih there fun pair listed => by
      simpa only [Slot.names_outline, Slot.names_assign, names] using rest pair listed
    exact ⟨later, (run_bind_of_ok done).trans run⟩

/-- A constructor accounts for the marks of the documents that it makes. -/
theorem Accounted.construct {schema : Schema} {later : Store}
    (accounted : Accounted classes store.outlines events)
    (registered : Registered classes schema.newDocument)
    (run : (Document.construct schema given).run.run store = (.ok root, later)) :
    Accounted classes later.outlines (.constructed root (given.map (·.1)) ::
      Chronicle.inherit store.cells.length schema.newDocument.objects events) := by
  unfold Document.construct at run
  split at run
  · cases (Prod.mk.inj run).1
  · obtain ⟨document, between, placed, added, here, -⟩ := run_place_document schema.newDocument rfl store
    have born : Accounted classes between.outlines
        (Chronicle.inherit store.cells.length schema.newDocument.objects events) := by
      rw [added, ← Store.length_outlines]
      exact accounted.inherit fun value made type slots occurs =>
        registered type slots (occurs.trans (Value.occurs_of_mem_objects made))
    obtain ⟨_, _, placed', rest⟩ := exists_of_run_bind run
    obtain ⟨same, rfl⟩ := Prod.mk.inj (placed.symm.trans placed')
    obtain rfl := Except.ok.inj same
    change ((given.forM fun (name, item) => Document.setExplicit document name item) >>=
      fun _ => pure document).run.run between = (.ok root, later) at rest
    obtain ⟨_, _, done, answer⟩ := exists_of_run_bind rest
    obtain ⟨rfl, rfl⟩ := of_run_pure answer
    obtain ⟨slots, written, names, marks⟩ := outlines_giveAll here done
    rw [written]
    exact born.set (.constructed document _) here (names.trans (born.names _ _ here)) marks

end construction

section assignment

variable {store later : Store} {document base upper : Identity} {name : Str} {item : Item}

/-- A plain assignment marks nothing. -/
theorem Accounted.assign (accounted : Accounted classes store.outlines events)
    (run : (Document.set document name item).run.run store = (.ok (), later)) :
    Accounted classes later.outlines events := by
  rcases Document.change_cases run with ⟨type, slots, found, -, -, rfl⟩ | ⟨fault, failed, -⟩
  · have same : (Cell.document type (Slot.store name item slots)).outline? =
        (Cell.document type slots).outline? := by
      rw [Cell.outline?, Cell.outline?, Slot.outline_store]
    rwa [outlines_write_of_same found same]
  · cases failed

theorem Accounted.setExplicit (accounted : Accounted classes store.outlines events)
    (run : (Document.setExplicit document name item).run.run store = (.ok (), later)) :
    Accounted classes later.outlines (.assigned document name :: events) := by
  rcases Document.change_cases run with ⟨type, slots, found, known, -, rfl⟩ | ⟨fault, failed, -⟩
  · have here := outlined_of_read? found
    rw [Store.outlines_write]
    refine accounted.set (.assigned document name) here ?_ fun other => ?_
    · rw [Slot.names_outline, Slot.names_assign, ← Slot.names_outline]
      exact accounted.names _ _ here
    · simp only [Slot.explicitNames_outline, Slot.mem_explicitNames_assign known, Event.Gives]
  · cases failed

/-- An overlay accounts for the marks that come from the document above, which has the same settings. -/
theorem Accounted.overlay (accounted : Accounted classes store.outlines events)
    (run : (Document.overlay base upper).run.run store = (.ok (), later)) :
    Accounted classes later.outlines (.overlaid base upper :: events) := by
  rcases Document.overlay_cases run with ⟨type, below, above, lower, higher, -, rfl⟩ | ⟨fault, failed, -⟩
  · have here := outlined_of_read? lower
    have there := outlined_of_read? higher
    have aligned : below.map (·.name) = above.map (·.name) := by
      rw [← Slot.names_outline below, ← Slot.names_outline above]
      exact (accounted.names _ _ here).trans (accounted.names _ _ there).symm
    rw [Store.outlines_write]
    refine accounted.set (.overlaid base upper) here ?_ fun name => ?_
    · rw [Slot.names_outline, Slot.names_overlay, ← Slot.names_outline]
      exact accounted.names _ _ here
    · simp only [Slot.explicitNames_outline, Slot.mem_explicitNames_overlay aligned, Event.Gives,
        accounted.marked_iff there]
  · cases failed

end assignment

section copying

/-- The event of an object that was copied. -/
def Event.ofCopy : Identity × Item → Option Event
  | (original, .object copy) => some (.copied copy original)
  | (_, .value _) => none

/-- The events of some copies, after others. -/
def transcript (copies : Copies) (events : List Event) : List Event :=
  copies.filterMap Event.ofCopy ++ events

/-- A copier accounts for the marks of all copies that it makes. -/
def Transcribes (classes : String → List Str) (events : List Event) (copy : Copier) : Prop :=
  ∀ store copies item result later, (copy copies item).run.run store = (.ok result, later) →
    Accounted classes store.outlines (transcript copies events) →
    Accounted classes later.outlines (transcript result.2 events) ∧ store.Extends later

variable {store later : Store} {copies : Copies} {copy : Copier}

theorem Transcribes.all (transcribes : Transcribes classes events copy) {items : List Item}
    {result : List Item × Copies} (run : (copyAll copy copies items).run.run store = (.ok result, later))
    (accounted : Accounted classes store.outlines (transcript copies events)) :
    Accounted classes later.outlines (transcript result.2 events) ∧ store.Extends later ∧
      result.1.length = items.length := by
  induction items generalizing store copies result later with
  | nil =>
    obtain ⟨rfl, rfl⟩ := of_run_pure run
    exact ⟨accounted, .refl store, rfl⟩
  | cons item items ih =>
    obtain ⟨first, between, done, rest⟩ := exists_of_run_bind run
    obtain ⟨others, last, doneOthers, answer⟩ := exists_of_run_bind rest
    obtain ⟨here, extend⟩ := transcribes store copies item first between done accounted
    obtain ⟨there, extendOthers, length⟩ := ih doneOthers here
    obtain ⟨rfl, rfl⟩ := of_run_pure answer
    exact ⟨there, extend.trans extendOthers, congrArg (· + 1) length⟩

theorem outline_zipWith {slots : List (Slot Item)} {items : List Item}
    (length : items.length = slots.length) :
    Slot.outline (slots.zipWith (fun slot item => (⟨slot.name, slot.explicit, item⟩ : Slot Item)) items) =
      Slot.outline slots := by
  induction slots generalizing items with
  | nil => rfl
  | cons slot slots ih =>
    cases items with
    | nil => cases length
    | cons item items => exact congrArg (_ :: ·) (ih (Nat.succ.inj length))

/-- The copy of a content has its outline. -/
theorem Transcribes.cell (transcribes : Transcribes classes events copy) {cell : Cell}
    {result : Cell × Copies} (run : (copyCell copy copies cell).run.run store = (.ok result, later))
    (accounted : Accounted classes store.outlines (transcript copies events)) :
    Accounted classes later.outlines (transcript result.2 events) ∧ store.Extends later ∧
      result.1.outline? = cell.outline? := by
  cases cell with
  | set kind members =>
    obtain ⟨rfl, rfl⟩ := of_run_pure run
    exact ⟨accounted, .refl store, rfl⟩
  | seq kind items | dict kind items =>
    obtain ⟨parts, between, done, answer⟩ := exists_of_run_bind run
    obtain ⟨rfl, rfl⟩ := of_run_pure answer
    obtain ⟨here, extend, -⟩ := transcribes.all done accounted
    exact ⟨here, extend, rfl⟩
  | document type slots =>
    obtain ⟨parts, between, done, answer⟩ := exists_of_run_bind run
    obtain ⟨rfl, rfl⟩ := of_run_pure answer
    obtain ⟨here, extend, length⟩ := transcribes.all done accounted
    rw [List.length_map] at length
    refine ⟨here, extend, ?_⟩
    rw [Cell.outline?, Cell.outline?, outline_zipWith length]

/-- Copying goes from object to object, and every new one is made when its parts are there. -/
theorem transcribes_copyItem (classes : String → List Str) (events : List Event) (depth : Nat) :
    Transcribes classes events (copyItem depth) := by
  induction depth with
  | zero =>
    intro store copies item result later run accounted
    cases item with
    | value value =>
      obtain ⟨rfl, rfl⟩ := of_run_pure run
      exact ⟨accounted, .refl store⟩
    | object identity => cases (Prod.mk.inj run).1
  | succ depth ih =>
    intro store copies item result later run accounted
    cases item with
    | value value =>
      obtain ⟨rfl, rfl⟩ := of_run_pure run
      exact ⟨accounted, .refl store⟩
    | object identity =>
      rw [copyItem] at run
      split at run
      · obtain ⟨rfl, rfl⟩ := of_run_pure run
        exact ⟨accounted, .refl store⟩
      · obtain ⟨content, between, read, rest⟩ := exists_of_run_bind run
        obtain ⟨parts, last, done, rest⟩ := exists_of_run_bind rest
        obtain ⟨copy, after, made, answer⟩ := exists_of_run_bind rest
        obtain ⟨rfl, rfl⟩ := of_run_pure answer
        obtain ⟨rfl, rfl⟩ : .object last.cells.length = copy ∧ last.alloc parts.1 = after :=
          ⟨Except.ok.inj (Prod.mk.inj made).1, (Prod.mk.inj made).2⟩
        obtain ⟨rfl, found⟩ := of_run_cell read
        obtain ⟨here, extend, same⟩ := ih.cell done accounted
        refine ⟨?_, extend.trans (last.extends_alloc parts.1)⟩
        -- the original is still there, with the outline that its copy has
        have original (outline : Outline) : Outlined last.outlines identity outline ↔
            parts.1.outline? = some outline := by
          rw [outlined_iff_of_read? (extend identity content found), same]
        rw [Store.outlines_alloc]
        refine here.append (.copied last.cells.length identity) last.length_outlines.symm
          (fun outline document => here.names identity outline ((original outline).mpr document))
          fun name => ?_
        rw [Event.Gives, here.marks]
        simp only [original]

end copying

end Chronicle

end LayeredConfig
