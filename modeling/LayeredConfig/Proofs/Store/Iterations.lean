import LayeredConfig.Proofs.Store.Answers
import LayeredConfig.Proofs.Value.Sameness

/-!
Iterations into which others write. One over an object itself goes over a snapshot and comes to the elements
that there were at its start, whatever is written. A reversed one and the views of values and entries read the
object again at each step: they keep to what there was exactly if every place still holds it when it is read.
-/

namespace LayeredConfig

open Step

/-- No two keys of a dictionary are equal. -/
def Cell.KeysApart : Cell → Prop
  | .dict _ entries => Members.Distinct Value.same Value.IsKey (entries.map (·.1))
  | _ => True

namespace Traversal

/-- What one step of an iteration reads: an item taken at the start, or a place in an object as it is then. -/
inductive Reading
  | taken (item : Item)
  | position (identity : Identity) (index : Nat)
  | value (identity : Identity) (key : Value)
  | entry (identity : Identity) (key : Value)

namespace Reading

/-- Reads an item. -/
def look : Reading → Step Item
  | .taken item => return item
  | .position identity index => do
    match ← cell identity with
    | .seq _ items =>
      match items[index]? with
      | some item => return item
      | none => fail .position
    | _ => fail .kind
  | .value identity key | .entry identity key => lookup identity key

/-- Makes the answer of a step from the item that it has read: a pair for an entry. -/
def answer (item : Item) : Reading → Step Item
  | .entry _ key => tuple [.value key, item]
  | _ => return item

/-- What is read in a store. -/
def read (store : Store) (reading : Reading) : Except Fault Item :=
  (reading.look.run.run store).1

/-- What an answer is, given what was read. -/
def Answers (store : Store) (item answer : Item) : Reading → Prop
  | .entry _ key => store.IsPair answer key item
  | _ => answer = item

end Reading

/-- All that an iteration has still to read, in order. -/
def readings : Traversal → List Reading
  | .snapshot rest => rest.map .taken
  | .backwards identity left => (List.range left).reverse.map (.position identity)
  | .values identity keys => keys.map (.value identity)
  | .entries identity keys => keys.map (.entry identity)

/-- An item to which an iteration comes, and the store then. -/
structure Sighting where
  item : Item
  store : Store

/-- What becomes of an iteration: the stores that its steps meet, the items to which it comes, and the fault in
which it ends, if it does. -/
structure Course where
  met : List Store
  seen : List Sighting
  fault : Option Fault

/-- What an iteration answers: all items to which it comes, or its fault. -/
def Course.result (course : Course) : Except Fault (List Item) :=
  course.fault.elim (.ok (course.seen.map (·.item))) .error

/-- What becomes of at most `count` steps. After each one others do something, which may fail and depends on
how many steps are left. -/
def steps (others : Nat → Step Unit) : Nat → Traversal → Store → Course
  | 0, _, _ => ⟨[], [], none⟩
  | count + 1, traversal, store =>
    match traversal.next.run.run store with
    | (.ok none, _) => ⟨[], [], none⟩
    | (.ok (some (item, rest)), later) =>
      let course := steps others count rest ((others count).run.run later).2
      ⟨store :: course.met, ⟨item, later⟩ :: course.seen, course.fault⟩
    | (.error fault, _) => ⟨[store], [], some fault⟩

/-- What becomes of an iteration up to its end. -/
def course (others : Nat → Step Unit) (traversal : Traversal) (store : Store) : Course :=
  steps others traversal.size traversal store

/-- Each step that is made meets what was there in a store. -/
def Course.Undisturbed (store : Store) (readings : List Reading) (course : Course) : Prop :=
  ∀ step ∈ readings.zip course.met, step.1.read step.2 = step.1.read store

/-- What a reading has in a store is what is expected of the sightings that answer it. -/
def Reading.Promises (store : Store) (answers : β → Sighting → Prop) (reading : Reading) (expected : β) : Prop :=
  ∃ item, reading.read store = .ok item ∧
    ∀ sighting : Sighting, reading.Answers sighting.store item sighting.item ↔ answers expected sighting

variable {traversal : Traversal} {reading : Reading} {rest : List Reading} {store later : Store}
  {identity : Identity} {count : Nat}

theorem size_eq_length_readings (traversal : Traversal) : traversal.size = traversal.readings.length := by
  cases traversal <;> simp [size, readings]

theorem readings_backwards_succ (identity : Identity) (left : Nat) :
    readings (.backwards identity (left + 1)) =
      .position identity left :: readings (.backwards identity left) := by
  rw [readings, List.range_succ, List.reverse_append]
  rfl

/-- A step reads the first of what there is to read, and the others stay for the steps after it. -/
theorem next_eq (ahead : traversal.readings = reading :: rest) : ∃ after : Traversal, after.readings = rest ∧
    traversal.next = do return some (← reading.answer (← reading.look), after) := by
  cases traversal with
  | snapshot items =>
    cases items with
    | nil => cases ahead
    | cons item items =>
      obtain ⟨rfl, rfl⟩ := List.cons.inj ahead
      exact ⟨.snapshot items, rfl, rfl⟩
  | backwards identity left =>
    cases left with
    | zero => cases ahead
    | succ left =>
      obtain ⟨rfl, rfl⟩ := List.cons.inj ((readings_backwards_succ identity left).symm.trans ahead)
      refine ⟨.backwards identity left, rfl, ?_⟩
      unfold next Reading.look
      rw [bind_assoc]
      refine congrArg (cell identity >>= ·) (funext fun content => ?_)
      cases content with
      | seq kind items =>
        dsimp only
        cases items[left]? <;> rfl
      | _ => rfl
  | values identity keys =>
    cases keys with
    | nil => cases ahead
    | cons key keys =>
      obtain ⟨rfl, rfl⟩ := List.cons.inj ahead
      exact ⟨.values identity keys, rfl, rfl⟩
  | entries identity keys =>
    cases keys with
    | nil => cases ahead
    | cons key keys =>
      obtain ⟨rfl, rfl⟩ := List.cons.inj ahead
      exact ⟨.entries identity keys, rfl, rfl⟩

namespace Reading

theorem looks_look (reading : Reading) : Looks reading.look := by
  have place (identity : Identity) (key : Value) : Looks (lookup identity key) := by
    refine (looks_cell identity).bind fun content => ?_
    split
    · split
      · exact looks_pure _
      · exact looks_fail .absent
    · exact looks_fail .kind
  cases reading with
  | taken item => exact looks_pure item
  | position identity index =>
    refine (looks_cell identity).bind fun content => ?_
    split
    · split
      · exact looks_pure _
      · exact looks_fail .position
    · exact looks_fail .kind
  | value identity key => exact place identity key
  | entry identity key => exact place identity key

theorem run_look (reading : Reading) (store : Store) :
    reading.look.run.run store = (reading.read store, store) :=
  reading.looks_look.run_eq store

theorem run_answer (reading : Reading) (item : Item) (store : Store) :
    ∃ answer later, (reading.answer item).run.run store = (.ok answer, later) ∧
      reading.Answers later item answer := by
  cases reading with
  | entry identity key =>
    obtain ⟨answer, later, run, pair, -⟩ := run_tuple_pair key item store
    exact ⟨answer, later, run, pair⟩
  | _ => exact ⟨item, store, rfl, rfl⟩

theorem Answers.unique {item other answer : Item} (first : reading.Answers store item answer)
    (second : reading.Answers store other answer) : item = other := by
  cases reading with
  | entry identity key =>
    rcases first with ⟨own, rfl, rfl⟩ | ⟨pair, rfl, made⟩
    · rcases second with ⟨own', rfl, same⟩ | ⟨_, same, -⟩
      · simpa using same
      · cases same
    · rcases second with ⟨_, -, same⟩ | ⟨pair', same, made'⟩
      · cases same
      · cases same
        simpa using made.symm.trans made'
  | _ => exact first.symm.trans second

end Reading

theorem steps_of_error {others : Nat → Step Unit} {fault : Fault} (ahead : traversal.readings = reading :: rest)
    (missing : reading.read store = .error fault) :
    steps others (count + 1) traversal store = ⟨[store], [], some fault⟩ := by
  obtain ⟨after, -, same⟩ := next_eq ahead
  have run : traversal.next.run.run store = (.error fault, store) := by
    rw [same, ExceptT.run_bind, StateT.run_bind, reading.run_look, missing]
    rfl
  rw [steps, run]

/-- Where a place has an item the iteration comes to it and goes on in the store that others leave. -/
theorem steps_of_ok {item : Item} (others : Nat → Step Unit) (ahead : traversal.readings = reading :: rest)
    (found : reading.read store = .ok item) : ∃ (answer : Item) (later : Store) (after : Traversal),
      reading.Answers later item answer ∧ after.readings = rest ∧
      steps others (count + 1) traversal store =
        let course := steps others count after ((others count).run.run later).2
        ⟨store :: course.met, ⟨answer, later⟩ :: course.seen, course.fault⟩ := by
  obtain ⟨after, left, same⟩ := next_eq ahead
  obtain ⟨answer, later, made, answers⟩ := reading.run_answer item store
  have run : traversal.next.run.run store = (.ok (some (answer, after)), later) := by
    rw [same, ExceptT.run_bind, StateT.run_bind, reading.run_look, found]
    exact run_bind_of_ok made
  refine ⟨answer, later, after, answers, left, ?_⟩
  rw [steps, run]

/-- An iteration comes to what its readings had in a store exactly if each still has it when it is read. -/
theorem course_iff {start : Store} {answers : β → Sighting → Prop} {expected : List β}
    (promises : List.Forall₂ (Reading.Promises start answers) traversal.readings expected)
    (others : Nat → Step Unit) (store : Store) :
    (course others traversal store).fault = none ∧
        List.Forall₂ answers expected (course others traversal store).seen ↔
      (course others traversal store).Undisturbed start traversal.readings := by
  unfold course
  rw [size_eq_length_readings]
  generalize ahead : traversal.readings = readings at promises ⊢
  -- a place that has become another is seen in its answer, and one that is gone in the fault
  induction promises generalizing traversal store with
  | nil => exact ⟨fun _ => nofun, fun _ => ⟨rfl, .nil⟩⟩
  | @cons reading own readings expected promise _ ih =>
    obtain ⟨item, here, means⟩ := promise
    rw [List.length_cons]
    cases found : reading.read store with
    | error fault =>
      rw [steps_of_error ahead found]
      refine ⟨fun kept => ?_, fun undisturbed => ?_⟩
      · cases kept.1
      · have same := undisturbed (reading, store) List.mem_cons_self
        rw [found, here] at same
        cases same
    | ok other =>
      obtain ⟨answer, between, after, answered, left, same⟩ := steps_of_ok others ahead found
      rw [same]
      have rest := ih ((others readings.length).run.run between).2 left
      have first : answers own ⟨answer, between⟩ ↔ reading.read store = reading.read start := by
        rw [← means, found, here]
        exact ⟨fun expected => congrArg _ (answered.unique expected), fun same => Except.ok.inj same ▸ answered⟩
      unfold Course.Undisturbed at rest ⊢
      rw [List.zip_cons_cons, List.forall_mem_cons, ← rest, List.forall₂_cons, first]
      exact and_left_comm

theorem Course.result_eq_ok_iff {course : Course} {items : List Item} :
    course.result = .ok items ↔ course.fault = none ∧ course.seen.map (·.item) = items := by
  unfold Course.result
  cases course.fault <;> simp

theorem Course.result_longer (met : List Store) (sighting : Sighting) (course : Course) :
    Course.result ⟨met, sighting :: course.seen, course.fault⟩ = (sighting.item :: ·) <$> course.result := by
  unfold Course.result
  cases course.fault <;> rfl

/-- An iteration that others leave alone answers what its course does. -/
theorem run_toItems_eq_result (traversal : Traversal) (store : Store) :
    (traversal.toItems.run.run store).1 = (course (fun _ => pure ()) traversal store).result := by
  unfold toItems course
  generalize traversal.size = count
  induction count generalizing traversal store with
  | zero => rfl
  | succ count ih =>
    unfold take steps
    rw [ExceptT.run_bind, StateT.run_bind]
    rcases traversal.next.run.run store with ⟨_ | _ | ⟨item, rest⟩, later⟩
    · rfl
    · rfl
    · calc ((take count rest >>= fun items => pure (item :: items)).run.run later).1
        _ = (item :: ·) <$> ((take count rest).run.run later).1 := by
          rw [ExceptT.run_bind, StateT.run_bind]
          rcases (take count rest).run.run later with ⟨_ | _, _⟩ <;> rfl
        _ = (item :: ·) <$> (steps (fun _ => pure ()) count rest later).result := by rw [ih]
        _ = _ := (Course.result_longer _ ⟨item, later⟩ _).symm

/-- The same where the items that are read are the answers. -/
theorem course_result_iff {start : Store} {items : List Item}
    (promises : List.Forall₂ (Reading.Promises start fun item sighting => item = sighting.item)
      traversal.readings items) (others : Nat → Step Unit) (store : Store) :
    (course others traversal store).result = .ok items ↔
      (course others traversal store).Undisturbed start traversal.readings := by
  rw [← course_iff promises others store, Course.result_eq_ok_iff, ← List.forall₂_map_right_iff,
    List.forall₂_eq_eq_eq, eq_comm (a := items)]

/-- An iteration that is started in a store answers some items, whatever others do from then on. -/
def Snapshots (begin : Step Traversal) (store : Store) (items : List Item) : Prop :=
  ∃ traversal, begin.run.run store = (.ok traversal, store) ∧
    ∀ others later, (course others traversal later).result = .ok items

/-- An iteration that is started in a store comes to what is expected exactly if others leave alone what it has
still to read. -/
def Rereads (begin : Step Traversal) (store : Store) (readings : List Reading)
    (expected : Course → Prop) : Prop :=
  ∃ traversal, begin.run.run store = (.ok traversal, store) ∧ ∀ others,
    expected (course others traversal store) ↔ (course others traversal store).Undisturbed store readings

/-- The iterations over an object with some content, started in a store. -/
def Iterations (store : Store) (identity : Identity) : Cell → Prop
  | .seq _ items => Snapshots (ofObject identity) store items ∧
    Rereads (reversed identity) store ((List.range items.length).reverse.map (.position identity))
      (·.result = .ok items.reverse)
  | .set _ members => Snapshots (ofObject identity) store (members.map .value)
  | .dict _ content => Snapshots (ofObject identity) store (content.map fun entry => .value entry.1) ∧
    Rereads (overValues identity) store (content.map fun entry => .value identity entry.1)
      (·.result = .ok (content.map (·.2))) ∧
    Rereads (overEntries identity) store (content.map fun entry => .entry identity entry.1) fun course =>
      course.fault = none ∧ List.Forall₂ (fun entry sighting =>
        sighting.store.IsPair sighting.item entry.1 entry.2) content course.seen
  | .document _ _ => True

theorem snapshots_ofObject {items : List Item}
    (run : (elements (.object identity)).run.run store = (.ok items, store)) :
    Snapshots (ofObject identity) store items := by
  refine ⟨.snapshot items, run_ofObject run, fun others later => ?_⟩
  have promises : List.Forall₂ (Reading.Promises store fun item sighting => item = sighting.item)
      (readings (.snapshot items)) items :=
    List.forall₂_map_left_iff.mpr (List.forall₂_same.mpr fun item _ => ⟨item, rfl, fun _ => eq_comm⟩)
  refine (course_result_iff promises others later).mpr fun step listed => ?_
  obtain ⟨item, -, same⟩ := List.mem_map.mp (List.of_mem_zip listed).1
  rw [← same]
  rfl

theorem rereads_reversed {kind : SeqKind} {items : List Item}
    (found : store.read? identity = some (.seq kind items)) :
    Rereads (reversed identity) store ((List.range items.length).reverse.map (.position identity))
      (·.result = .ok items.reverse) := by
  have promises : List.Forall₂ (Reading.Promises store fun item sighting => item = sighting.item)
      (readings (.backwards identity items.length)) items.reverse := by
    refine List.forall₂_map_left_iff.mpr (List.forall₂_reverse_iff.mpr ?_)
    refine List.forall₂_iff_get.mpr ⟨List.length_range, fun index _ inside => ?_⟩
    refine ⟨items[index], ?_, fun _ => eq_comm⟩
    rw [List.get_eq_getElem, List.getElem_range]
    unfold Reading.read Reading.look
    rw [run_bind_cell found]
    dsimp only
    rw [List.getElem?_eq_getElem inside]
    rfl
  refine ⟨.backwards identity items.length, run_bind_cell found, fun others => ?_⟩
  exact course_result_iff promises others store

section views

variable {kind : DictKind} {content : List (Value × Item)}
  (found : store.read? identity = some (.dict kind content))
  (distinct : Members.Distinct Value.same Value.IsKey (content.map (·.1)))

include found distinct

theorem lookup_of_mem {entry : Value × Item} (listed : entry ∈ content) :
    ((lookup identity entry.1).run.run store).1 = .ok entry.2 := by
  have key := distinct.each entry.1 (List.mem_map_of_mem listed)
  unfold lookup
  rw [run_bind_cell found]
  dsimp only
  rw [Entries.find?_of_same Value.equality_same distinct listed key (Value.same_self key)]
  rfl

theorem rereads_values :
    Rereads (overValues identity) store (content.map fun entry => .value identity entry.1)
      (·.result = .ok (content.map (·.2))) := by
  have promises : List.Forall₂ (Reading.Promises store fun item sighting => item = sighting.item)
      (content.map fun entry => .value identity entry.1) (content.map (·.2)) := by
    rw [List.forall₂_map_left_iff, List.forall₂_map_right_iff, List.forall₂_same]
    exact fun entry listed => ⟨entry.2, lookup_of_mem found distinct listed, fun _ => eq_comm⟩
  have ahead : readings (.values identity (content.map (·.1))) =
      content.map fun entry => .value identity entry.1 := List.map_map
  rw [← ahead] at promises ⊢
  exact ⟨_, run_bind_cell found, fun others => course_result_iff promises others store⟩

theorem rereads_entries :
    Rereads (overEntries identity) store (content.map fun entry => .entry identity entry.1) fun course =>
      course.fault = none ∧ List.Forall₂ (fun entry sighting =>
        sighting.store.IsPair sighting.item entry.1 entry.2) content course.seen := by
  have promises : List.Forall₂ (Reading.Promises store fun entry sighting =>
      sighting.store.IsPair sighting.item entry.1 entry.2)
        (content.map fun entry => .entry identity entry.1) content := by
    rw [List.forall₂_map_left_iff, List.forall₂_same]
    exact fun entry listed => ⟨entry.2, lookup_of_mem found distinct listed, fun _ => Iff.rfl⟩
  have ahead : readings (.entries identity (content.map (·.1))) =
      content.map fun entry => .entry identity entry.1 := List.map_map
  rw [← ahead] at promises ⊢
  exact ⟨_, run_bind_cell found, fun others => course_iff promises others store⟩

end views

/-- Iterations over an object into which others write. One over the object itself answers the elements that it
had, whatever is written; one from the last position down, or over values or entries, comes to those that it
had exactly if each step still finds its place as it was. -/
theorem iterations_amid_others {content : Cell} (found : store.read? identity = some content)
    (apart : content.KeysApart) : Iterations store identity content := by
  cases content with
  | seq kind items => exact ⟨snapshots_ofObject (run_bind_cell found), rereads_reversed found⟩
  | set kind members => exact snapshots_ofObject (run_bind_cell found)
  | dict kind content =>
    exact ⟨snapshots_ofObject (run_bind_cell found), rereads_values found apart, rereads_entries found apart⟩
  | document type slots => trivial

/-- One over the keys of a dictionary is started by its first step, so that it answers the keys that others have left
until then, and no later ones. -/
theorem keys_amid_others {kind : DictKind} {content : List (Value × Item)} (before : Step Unit)
    (left : (before.run.run store).2.read? identity = some (.dict kind content)) :
    Snapshots (ofObject identity) (before.run.run store).2 (content.map fun entry => .value entry.1) :=
  snapshots_ofObject (run_bind_cell left)

/-- A dictionary with a text and a number as keys. -/
theorem iterations_amid_others_mixed_keys :
    Iterations ⟨[.dict .concurrent [(.str "a", .value (.int 1)), (.int 1, .value (.int 2))]]⟩ 0
      (.dict .concurrent [(.str "a", .value (.int 1)), (.int 1, .value (.int 2))]) :=
  iterations_amid_others rfl ⟨by decide, by simp [Value.same, Value.alike, Scalar.alike, Scalar.key]⟩

/-- Others who clear an object. -/
def clearing : Nat → Step Unit :=
  fun _ => do let _ ← call (.object 0) .clear []

def pairList : Store :=
  ⟨[.seq .concurrent [.value (.int 1), .value (.int 2)]]⟩

def pairEntries : List (Value × Item) :=
  [(.int 1, .value .null), (.int 2, .value .null)]

def pairDict : Store :=
  ⟨[.dict .concurrent pairEntries]⟩

/-- A list that is cleared after the first step of a reversed iteration, and a dictionary after that of one over
its values: the second step finds no such position, and no such key. -/
theorem cleared_iterations_fail :
    (∃ traversal, (reversed 0).run.run pairList = (.ok traversal, pairList) ∧
      (course clearing traversal pairList).result = .error .position) ∧
    ∃ traversal, (overValues 0).run.run pairDict = (.ok traversal, pairDict) ∧
      (course clearing traversal pairDict).result = .error .absent := by
  have apart : Members.Distinct Value.same Value.IsKey (pairEntries.map (·.1)) :=
    ⟨by decide, by simp [pairEntries, Value.same, Value.alike, Scalar.alike, Scalar.key]⟩
  have found : ((lookup 0 (.int 1)).run.run pairDict).1 = .ok (.value .null) :=
    lookup_of_mem rfl apart List.mem_cons_self
  have looked : (lookup 0 (.int 1)).run.run pairDict = (.ok (.value .null), pairDict) :=
    ((Reading.value 0 (.int 1)).run_look pairDict).trans (congrArg (·, pairDict) found)
  have first : (next (.values 0 [.int 1, .int 2])).run.run pairDict =
      (.ok (some (.value .null, .values 0 [.int 2])), pairDict) := (run_bind_of_ok looked).trans rfl
  refine ⟨⟨.backwards 0 2, rfl, rfl⟩, .values 0 [.int 1, .int 2], rfl, ?_⟩
  change (steps clearing 2 (.values 0 [.int 1, .int 2]) pairDict).result = _
  rw [steps, first]
  rfl

end Traversal

end LayeredConfig
