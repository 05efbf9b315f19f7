import LayeredConfig.NodeSchema
import LayeredConfig.Proofs.Schema.Layering
import LayeredConfig.Proofs.Store.PlainForms

namespace LayeredConfig

open Step

/-- An object is a document of a schema with some slots. -/
structure Store.IsDocument (store : Store) (schema : Schema) (identity : Identity)
    (slots : List (Slot Item)) : Prop where
  found : store.read? identity = some (.document schema.name slots)
  names : slots.map (·.name) = schema.names

namespace Store

theorem read?_write_self {store : Store} {identity : Identity} {old : Cell}
    (found : store.read? identity = some old) (cell : Cell) :
    (store.write identity cell).read? identity = some cell :=
  List.getElem?_set_self (lt_of_read? found)

theorem write_of_read? {store : Store} {identity : Identity} {cell : Cell}
    (found : store.read? identity = some cell) : store.write identity cell = store := by
  obtain ⟨inside, same⟩ := List.getElem?_eq_some_iff.mp found
  rw [write, ← same, List.set_getElem_self]

end Store

theorem Store.IsDocument.unique {store : Store} {schema : Schema} {identity : Identity}
    {slots others : List (Slot Item)} (this : store.IsDocument schema identity slots)
    (that : store.IsDocument schema identity others) : slots = others :=
  (Cell.document.inj (Option.some.inj (this.found.symm.trans that.found))).2

theorem Store.IsDocument.write {store : Store} {schema : Schema} {identity : Identity}
    {slots others : List (Slot Item)} (before : store.IsDocument schema identity slots)
    (names : others.map (·.name) = schema.names) :
    (store.write identity (.document schema.name others)).IsDocument schema identity others :=
  ⟨Store.read?_write_self before.found _, names⟩

theorem Store.IsDocument.write_other {store : Store} {schema : Schema} {identity other : Identity}
    {slots : List (Slot Item)} {cell : Cell} (before : store.IsDocument schema other slots)
    (different : other ≠ identity) : (store.write identity cell).IsDocument schema other slots :=
  ⟨(store.read?_write identity other cell different.symm).trans before.found, before.names⟩

namespace Document

variable {schema : Schema} {store : Store} {base upper : Identity} {below above : List (Slot Item)}

theorem run_bind_read {identity : Identity} {type : String} {slots : List (Slot Item)}
    (found : store.read? identity = some (.document type slots))
    (next : String × List (Slot Item) → Step α) :
    (read identity >>= next).run.run store = (next (type, slots)).run.run store := by
  unfold read
  rw [bind_assoc, run_bind_cell found, pure_bind]

/-- What an overlay does to a store: the document below has other slots. -/
theorem run_overlay (lower : store.IsDocument schema base below)
    (higher : store.IsDocument schema upper above) :
    (overlay base upper).run.run store =
      (.ok (), store.write base (.document schema.name (Slot.overlay below above))) := by
  unfold overlay
  rw [run_bind_read lower.found, run_bind_read higher.found]
  simp only [beq_self_eq_true, if_true]
  rfl

theorem run_overlay_of_ne {other : Schema} (lower : store.IsDocument schema base below)
    (higher : store.IsDocument other upper above) (different : other.name ≠ schema.name) :
    (overlay base upper).run.run store =
      (.error (.overlayOfOtherType schema.name other.name), store) := by
  have apart : (schema.name == other.name) = false := beq_eq_false_iff_ne.mpr different.symm
  unfold overlay
  rw [run_bind_read lower.found, run_bind_read higher.found]
  simp only [apart, Bool.false_eq_true, if_false]
  rfl

theorem run_bind_overlay (lower : store.IsDocument schema base below)
    (higher : store.IsDocument schema upper above) (next : Unit → Step α) :
    (overlay base upper >>= next).run.run store =
      (next ()).run.run (store.write base (.document schema.name (Slot.overlay below above))) := by
  rw [ExceptT.run_bind, StateT.run_bind, run_overlay lower higher]
  rfl

/-- Nothing but the document below changes: there, what is explicit above is as it is above, and the rest
is as it was; a setting is explicit if it was so in either document. -/
structure Overlaid (schema : Schema) (store : Store) (base : Identity) (below above : List (Slot Item))
    (later : Store) : Prop where
  others : ∀ other, other ≠ base → later.read? other = store.read? other
  result : ∃ slots, later.IsDocument schema base slots ∧
    (∀ name, name ∈ Slot.explicitNames slots ↔
      name ∈ Slot.explicitNames below ∨ name ∈ Slot.explicitNames above) ∧
    ∀ name, (∀ slot, Slot.find? name above = some slot → slot.explicit = true →
        Slot.find? name slots = some slot) ∧
      ((∀ slot, Slot.find? name above = some slot → slot.explicit = false) →
        Slot.find? name slots = Slot.find? name below)

theorem overlaid_write (lower : store.IsDocument schema base below)
    (higher : store.IsDocument schema upper above) :
    Overlaid schema store base below above
      (store.write base (.document schema.name (Slot.overlay below above))) where
  others := fun other different => store.read?_write base other _ different.symm
  result := by
    have aligned := lower.names.trans higher.names.symm
    refine ⟨_, lower.write ((Slot.names_overlay below above).trans lower.names),
      fun name => Slot.mem_explicitNames_overlay aligned, fun name => ?_⟩
    exact Slot.find?_overlay_cases aligned name

section three

variable {first second third : Identity} {low middle high : List (Slot Item)}

/-- An item is not made of either of two objects. -/
def Foreign (store : Store) (first second : Identity) (item : Item) : Prop :=
  ∀ identity, store.Owned item identity → identity ≠ first ∧ identity ≠ second

theorem Foreign.keeps {item : Item} {cell cell' : Cell} (foreign : Foreign store first second item) :
    store.Keeps ((store.write first cell).write second cell') item where
  grown := Nat.le_of_eq (by rw [Store.length_write, Store.length_write])
  same := by
    intro identity owned
    obtain ⟨apart, apart'⟩ := foreign identity owned
    rw [Store.read?_write _ _ _ _ apart'.symm, Store.read?_write _ _ _ _ apart.symm]

theorem run_overlay_left (lower : store.IsDocument schema first low)
    (between : store.IsDocument schema second middle) (higher : store.IsDocument schema third high)
    (apart : third = first → second = first) :
    ∃ later, (overlay first second >>= fun _ => overlay first third).run.run store = (.ok (), later) ∧
      later.IsDocument schema first (Slot.overlay (Slot.overlay low middle) high) ∧
      ∀ item, Foreign store first second item → store.Keeps later item := by
  have names := (Slot.names_overlay low middle).trans lower.names
  have inner := lower.write names
  have above : (store.write first (.document schema.name (Slot.overlay low middle))).IsDocument
      schema third high := by
    by_cases same : third = first
    · -- then all three are one document, and the first overlay did nothing
      obtain rfl := apart same
      obtain rfl := same
      obtain rfl := lower.unique between
      obtain rfl := lower.unique higher
      rwa [Slot.overlay_self] at inner ⊢
    · exact higher.write_other same
  refine ⟨_, (run_bind_overlay lower between _).trans (run_overlay inner above),
    inner.write ((Slot.names_overlay _ high).trans names), fun item foreign => ?_⟩
  have foreign' : Foreign store first first item := fun identity owned =>
    ⟨(foreign identity owned).1, (foreign identity owned).1⟩
  exact foreign'.keeps

theorem run_overlay_right (lower : store.IsDocument schema first low)
    (between : store.IsDocument schema second middle) (higher : store.IsDocument schema third high) :
    ∃ later, (overlay second third >>= fun _ => overlay first second).run.run store = (.ok (), later) ∧
      later.IsDocument schema first (Slot.overlay low (Slot.overlay middle high)) ∧
      ∀ item, Foreign store first second item → store.Keeps later item := by
  have above := between.write ((Slot.names_overlay middle high).trans between.names)
  obtain ⟨low', below, same⟩ : ∃ low',
      (store.write second (.document schema.name (Slot.overlay middle high))).IsDocument
        schema first low' ∧
      Slot.overlay low' (Slot.overlay middle high) = Slot.overlay low (Slot.overlay middle high) := by
    by_cases equal : first = second
    · -- the first document has been changed already, but the overlay puts the same over it again
      subst equal
      obtain rfl := lower.unique between
      refine ⟨_, above, ?_⟩
      rw [Slot.overlay_self, ← Slot.overlay_assoc rfl (lower.names.trans higher.names.symm),
        Slot.overlay_self]
    · exact ⟨low, lower.write_other equal, rfl⟩
  refine ⟨_, (run_bind_overlay between higher _).trans (run_overlay below above),
    same ▸ below.write ((Slot.names_overlay _ _).trans below.names), fun item foreign => ?_⟩
  have foreign' : Foreign store second first item := fun identity owned => (foreign identity owned).symm
  exact foreign'.keeps

end three

/-- The laws of overlays. One document over another changes the one below alone, by what is explicit above;
a document over itself, or one in which nothing is explicit, changes nothing. Of three documents it does
not matter which two come first, where the third is not the first one itself, which would have changed by
then. Documents of different types are refused and stay as they are. -/
theorem overlay_laws (lower : store.IsDocument schema base below)
    (higher : store.IsDocument schema upper above) :
    (∃ later, (overlay base upper).run.run store = (.ok (), later) ∧
      Overlaid schema store base below above later) ∧
    (overlay base base).run.run store = (.ok (), store) ∧
    ((∀ slot ∈ above, slot.explicit = false) → (overlay base upper).run.run store = (.ok (), store)) ∧
    (∀ top slots, store.IsDocument schema top slots → (top = base → upper = base) →
      ∃ left right result,
        (overlay base upper >>= fun _ => overlay base top).run.run store = (.ok (), left) ∧
        (overlay upper top >>= fun _ => overlay base upper).run.run store = (.ok (), right) ∧
        left.IsDocument schema base result ∧ right.IsDocument schema base result ∧
        ∀ item, Foreign store base upper item → ∀ value, store.value? item = some value →
          left.value? item = some value ∧ right.value? item = some value) ∧
    (∀ low middle high : List (Slot Value), low.map (·.name) = middle.map (·.name) →
      middle.map (·.name) = high.map (·.name) →
        ((Value.document schema.name low).overlay? (.document schema.name middle) >>=
          fun lower => lower.overlay? (.document schema.name high)) =
        ((Value.document schema.name middle).overlay? (.document schema.name high) >>=
          fun upper => (Value.document schema.name low).overlay? upper)) ∧
    ∀ type other slots, type.name ≠ schema.name → store.IsDocument type other slots →
      (overlay base other).run.run store =
        (.error (.overlayOfOtherType schema.name type.name), store) := by
  have aligned := lower.names.trans higher.names.symm
  refine ⟨⟨_, run_overlay lower higher, overlaid_write lower higher⟩, ?_, fun implicit => ?_,
    fun top slots highest apart => ?_, fun low middle high first second => ?_,
    fun type other slots different found => run_overlay_of_ne lower found different⟩
  · rw [run_overlay lower lower, Slot.overlay_self, Store.write_of_read? lower.found]
  · rw [run_overlay lower higher, Slot.overlay_of_implicit below implicit,
      Store.write_of_read? lower.found]
  · obtain ⟨left, ran, here, keeps⟩ := run_overlay_left lower higher highest apart
    obtain ⟨right, ran', here', keeps'⟩ := run_overlay_right lower higher highest
    rw [Slot.overlay_assoc aligned (higher.names.trans highest.names.symm)] at here
    refine ⟨left, right, _, ran, ran', here, here', fun item foreign value shown => ?_⟩
    exact ⟨(keeps item foreign).value? shown, (keeps' item foreign).value? shown⟩
  · simp only [Value.overlay?_document, bind, Except.bind, Slot.overlay_assoc first second]

/-- The settings of a class, where one of them is in the source. -/
def classNamed (name : String) : List (Slot Item) :=
  [⟨"class_name", true, .value (.str name)⟩, ⟨"parameters", false, .value .null⟩]

/-- The settings of a class of which the source has the parameters alone, an object of their own. -/
def classWith (parameters : Identity) : List (Slot Item) :=
  [⟨"class_name", false, .value .null⟩, ⟨"parameters", true, .object parameters⟩]

/-- Three classes, and the parameters of one of them. -/
def threeClasses : Store :=
  ⟨[.document "ParameterizedClass" (classNamed "a"), .document "ParameterizedClass" (classWith 3),
    .document "ParameterizedClass" (classNamed "c"), .dict .concurrent [(.str "seeds", .value (.str "b"))]]⟩

/-- Either way the name is that of the third class, and the parameters are those of the second. -/
theorem overlay_laws_threeClasses :
    threeClasses.IsDocument NodeSchema.parameterizedClass 0 (classNamed "a") ∧
      threeClasses.IsDocument NodeSchema.parameterizedClass 1 (classWith 3) ∧
      (overlay 0 0).run.run threeClasses = (.ok (), threeClasses) ∧
      ∃ left right result,
        (overlay 0 1 >>= fun _ => overlay 0 2).run.run threeClasses = (.ok (), left) ∧
        (overlay 1 2 >>= fun _ => overlay 0 1).run.run threeClasses = (.ok (), right) ∧
        left.IsDocument NodeSchema.parameterizedClass 0 result ∧
        right.IsDocument NodeSchema.parameterizedClass 0 result ∧
        Slot.explicitNames result = ["class_name", "parameters"] := by
  have lower : threeClasses.IsDocument NodeSchema.parameterizedClass 0 (classNamed "a") := ⟨rfl, rfl⟩
  have higher : threeClasses.IsDocument NodeSchema.parameterizedClass 1 (classWith 3) := ⟨rfl, rfl⟩
  have highest : threeClasses.IsDocument NodeSchema.parameterizedClass 2 (classNamed "c") := ⟨rfl, rfl⟩
  obtain ⟨-, itself, -, three, -, -⟩ := overlay_laws lower higher
  obtain ⟨left, right, result, ran, ran', here, here', -⟩ := three 2 _ highest (by decide)
  refine ⟨lower, higher, itself, left, right, result, ran, ran', here, here', ?_⟩
  have same : left = threeClasses.write 0 (.document "ParameterizedClass"
      [⟨"class_name", true, .value (.str "c")⟩, ⟨"parameters", true, .object 3⟩]) :=
    (Prod.mk.inj ran).2.symm
  subst same
  rw [here.unique ⟨rfl, rfl⟩]
  rfl

end Document

end LayeredConfig
