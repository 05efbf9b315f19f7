import LayeredConfig.Proofs.Store.DictChanges
import LayeredConfig.Proofs.Store.Failures

/-!
Calls that take the elements of an operand one after the other and end at the first faulty one. They leave what the
same call with the elements before that one leaves; no other call on a concurrent container changes anything when
it fails.
-/

namespace LayeredConfig

open Step

variable {identity : Identity} {store later : Store}

/-- A write of an object that there is does not depend on those that are made after it. -/
theorem Store.write_alloc {cell : Cell} (extra : Cell) (old : identity < store.cells.length) :
    (store.alloc extra).write identity cell = (store.write identity cell).alloc extra :=
  congrArg Store.mk (List.set_append_left _ _ old)

namespace Step

/-- Takes elements one after the other into a content, which is written back after each of them. -/
def takeAll (read : Item → Step α) (put : α → γ → γ) (cell : γ → Cell) (identity : Identity) (content : γ) :
    List Item → Step γ
  | [] => return content
  | item :: items => do
    let content := put (← read item) content
    write identity (cell content)
    takeAll read put cell identity content items

/-- What a step answers does not change when objects are added. -/
def Stable (step : Step α) : Prop :=
  ∀ (store extended : Store) value, store.Extends extended →
    step.run.run store = (.ok value, store) → step.run.run extended = (.ok value, extended)

theorem stable_pure (value : α) : Stable (pure value : Step α) := by
  intro store extended result _ run
  rw [(of_run_pure run).1]
  rfl

theorem stable_fail (fault : Fault) : Stable (fail fault : Step α) := by
  intro store extended result _ run
  cases (Prod.mk.inj run).1

theorem Stable.bind {step : Step α} {next : α → Step β} (looks : Looks step) (first : Stable step)
    (rest : ∀ value, Stable (next value)) : Stable (step >>= next) := by
  intro store extended result extend run
  obtain ⟨value, between, done, run⟩ := exists_of_run_bind run
  obtain rfl : between = store := (congrArg Prod.snd done).symm.trans (looks store)
  rw [run_bind_of_ok (first _ _ _ extend done)]
  exact rest value _ _ _ extend run

theorem stable_cell (identity : Identity) : Stable (cell identity) := by
  intro store extended content extend run
  rw [run_cell, extend identity content (of_run_cell run).2]

theorem stable_hashable (item : Item) : Stable (hashable item) := by
  unfold hashable
  split
  · split
    · exact stable_pure _
    · exact stable_fail .kind
  · exact stable_fail .kind

theorem stable_soughtMember (item : Item) : Stable (soughtMember item) := by
  cases item with
  | value value => exact stable_hashable (.value value)
  | object identity =>
    refine (stable_cell identity).bind (looks_cell identity) fun content => ?_
    split
    · exact stable_pure _
    · exact stable_fail .kind

theorem stable_elements (item : Item) : Stable (elements item) := by
  unfold elements
  split
  case h_5 =>
    refine (stable_cell _).bind (looks_cell _) fun content => ?_
    split
    case h_4 => exact stable_fail .kind
    all_goals exact stable_pure _
  case h_6 => exact stable_fail .kind
  all_goals exact stable_pure _

theorem stable_entryOf (item : Item) : Stable (DictCall.entryOf item) := by
  refine (stable_elements item).bind (looks_elements item) fun parts => ?_
  split
  · exact (stable_hashable _).bind (looks_hashable _) fun _ => stable_pure _
  · exact stable_fail .content

section taking

variable {read : Item → Step α} {put : α → γ → γ} {cell : γ → Cell} {content result : γ} {items : List Item}
  {store later : Store}

/-- Elements are taken up to the first faulty one. -/
theorem takeAll_failed (looks : ∀ item, Looks (read item)) (found : store.read? identity = some (cell content))
    {fault : Fault} (run : (takeAll read put cell identity content items).run.run store = (.error fault, later)) :
    ∃ front bad rest result, items = front ++ bad :: rest ∧
      (takeAll read put cell identity content front).run.run store = (.ok result, later) ∧
      later.read? identity = some (cell result) ∧ (read bad).run.run later = (.error fault, later) := by
  induction items generalizing content store with
  | nil => cases (Prod.mk.inj run).1
  | cons item items ih =>
    unfold takeAll at run
    rcases run_bind run with ⟨other, failed, same⟩ | ⟨value, between, done, remaining⟩
    · obtain rfl := Except.error.inj same
      obtain rfl : later = store := (congrArg Prod.snd failed).symm.trans (looks item store)
      exact ⟨[], item, items, content, rfl, rfl, found, failed⟩
    · obtain rfl : between = store := (congrArg Prod.snd done).symm.trans (looks item store)
      dsimp only at remaining
      rw [run_bind_write] at remaining
      obtain ⟨front, bad, rest, result, rfl, taken, there, failed⟩ :=
        ih (Store.read?_write_self found _) remaining
      refine ⟨item :: front, bad, rest, result, rfl, ?_, there, failed⟩
      unfold takeAll
      rw [run_bind_of_ok done]
      exact taken

theorem takeAll_alloc (looks : ∀ item, Looks (read item)) (stable : ∀ item, Stable (read item))
    (found : store.read? identity = some (cell content))
    (run : (takeAll read put cell identity content items).run.run store = (.ok result, later)) (extra : Cell) :
    (takeAll read put cell identity content items).run.run (store.alloc extra) =
      (.ok result, later.alloc extra) := by
  induction items generalizing content store with
  | nil =>
    obtain ⟨rfl, rfl⟩ := of_run_pure run
    rfl
  | cons item items ih =>
    unfold takeAll at run
    obtain ⟨value, between, done, remaining⟩ := exists_of_run_bind run
    obtain rfl : between = store := (congrArg Prod.snd done).symm.trans (looks item store)
    dsimp only at remaining
    rw [run_bind_write] at remaining
    unfold takeAll
    rw [run_bind_of_ok (stable item _ _ _ (between.extends_alloc extra) done), run_bind_write,
      Store.write_alloc extra (Store.lt_of_read? found)]
    exact ih (Store.read?_write_self found _) remaining

end taking

end Step

/-- The members of a set can be members. -/
def Cell.HoldsMembers : Cell → Prop
  | .set _ members => ∀ member ∈ members, member.hashable = true
  | _ => True

instance : DecidablePred Cell.HoldsMembers
  | .set _ members => inferInstanceAs (Decidable (∀ member ∈ members, member.hashable = true))
  | .seq _ _ => isTrue trivial
  | .dict _ _ => isTrue trivial
  | .document _ _ => isTrue trivial

namespace Store

def HoldsMembers (store : Store) : Prop :=
  ∀ cell ∈ store.cells, cell.HoldsMembers

instance {store : Store} : Decidable store.HoldsMembers :=
  inferInstanceAs (Decidable (∀ cell ∈ store.cells, cell.HoldsMembers))

/-- An item is a dictionary. -/
def IsDict (store : Store) (item : Item) : Prop :=
  ∃ other kind entries, item = .object other ∧ store.read? other = some (.dict kind entries)

/-- A call that takes the elements of an operand one after the other has ended at the first faulty one. It leaves
what the same call leaves on the elements before that one, for which they are put into a list. -/
def Halts (store later : Store) (operand : Item) (read : Item → Step α) (take : Item → Step Outcome) : Prop :=
  ∃ front bad rest, (elements operand).run.run store = (.ok (front ++ bad :: rest), store) ∧
    (∃ fault, (read bad).run.run later = (.error fault, later)) ∧
    ∃ answer, (Step.alloc (.seq .list front) >>= take).run.run store = (.ok answer, later.alloc (.seq .list front))

theorem extends_of_eq (same : later = store) : store.Extends later :=
  same ▸ .refl store

/-- No element of a set is faulty as one. -/
theorem hashable_of_isSet {operand item : Item} {items : List Item} (holds : store.HoldsMembers)
    (proper : operand.IsProper) (set : (isSet operand).run.run store = (.ok true, store))
    (parts : (elements operand).run.run store = (.ok items, store)) (listed : item ∈ items) :
    ∃ value, item = .value value ∧ value.hashable = true := by
  cases operand with
  | value own =>
    cases own with
    | set kind members =>
      obtain ⟨member, here, rfl⟩ := List.mem_map.mp (Except.ok.inj (Prod.mk.inj parts).1 ▸ listed)
      exact ⟨member, rfl, (Value.IsKey.member proper member here).hashable⟩
    | _ => cases (Prod.mk.inj set).1
  | object other =>
    obtain ⟨content, found, -⟩ := of_run_elements parts
    unfold isSet at set
    unfold elements at parts
    rw [run_bind_cell found] at set parts
    cases content with
    | set kind members =>
      obtain ⟨member, here, rfl⟩ := List.mem_map.mp (Except.ok.inj (Prod.mk.inj parts).1 ▸ listed)
      exact ⟨member, rfl, holds _ (List.mem_of_getElem? found) member here⟩
    | _ => cases (Prod.mk.inj set).1

end Store

/-- Taking the elements of an operand fails before the first, and changes nothing, or at a faulty one. Then those
before it can be taken from a list of their own, and leave the same. -/
theorem Step.takeElements_failed {read : Item → Step α} {put : α → γ → γ} {cell : γ → Cell} {content : γ}
    {operand : Item} {fault : Fault} (looks : ∀ item, Looks (read item)) (stable : ∀ item, Stable (read item))
    (found : store.read? identity = some (cell content))
    (run : (elements operand >>= takeAll read put cell identity content).run.run store = (.error fault, later)) :
    later = store ∨ ∃ front bad rest result,
      (elements operand).run.run store = (.ok (front ++ bad :: rest), store) ∧
      (read bad).run.run later = (.error fault, later) ∧
      later.read? identity = some (cell result) ∧
      (elements (.object store.cells.length) >>= takeAll read put cell identity content).run.run
        (store.alloc (.seq .list front)) = (.ok result, later.alloc (.seq .list front)) := by
  rcases run_bind run with ⟨_, failed, -⟩ | ⟨items, between, parts, remaining⟩
  · exact .inl ((congrArg Prod.snd failed).symm.trans (looks_elements operand store))
  · obtain rfl : between = store := (congrArg Prod.snd parts).symm.trans (looks_elements operand store)
    obtain ⟨front, bad, rest, result, rfl, taken, there, failed⟩ := takeAll_failed looks found remaining
    refine .inr ⟨front, bad, rest, result, parts, failed, there, ?_⟩
    have list : (elements (.object between.cells.length)).run.run (between.alloc (.seq .list front)) =
        (.ok front, between.alloc (.seq .list front)) :=
      (run_bind_cell (between.read?_alloc_self _)).trans rfl
    rw [run_bind_of_ok list]
    exact takeAll_alloc looks stable found taken _

namespace SetCall

variable {kind : SetKind} {members : List Value} {operand : Item} {operator : SetOperator} {fault : Fault}

/-- The operators that write after each element of their operand. -/
def Stepwise (operator : SetOperator) : Prop :=
  operator = .union ∨ operator = .diff

/-- How they read an element. -/
def reader : SetOperator → Item → Step Value
  | .diff => soughtMember
  | _ => hashable

/-- What they do with it. -/
def taker : SetOperator → Value → List Value → List Value
  | .diff => Members.erase Value.same
  | _ => Members.insert Value.same

theorem reader_value (operator : SetOperator) (value : Value) :
    reader operator (.value value) = hashable (.value value) := by
  cases operator <;> rfl

theorem looks_reader (operator : SetOperator) (item : Item) : Looks (reader operator item) := by
  cases operator with
  | diff => exact looks_soughtMember item
  | _ => exact looks_hashable item

theorem stable_reader (operator : SetOperator) (item : Item) : Stable (reader operator item) := by
  cases operator with
  | diff => exact stable_soughtMember item
  | _ => exact stable_hashable item

theorem addAll_eq (items : List Item) : addAll identity kind members items =
    takeAll (reader .union) (taker .union) (.set kind) identity members items := by
  induction items generalizing members with
  | nil => rfl
  | cons item items ih =>
    simp only [addAll, takeAll, ih]
    rfl

theorem discardAll_eq (items : List Item) : discardAll identity kind members items =
    takeAll (reader .diff) (taker .diff) (.set kind) identity members items := by
  induction items generalizing members with
  | nil => rfl
  | cons item items ih =>
    simp only [discardAll, takeAll, ih]
    rfl

/-- A difference of a set with itself, which is not taken element by element, is the exception. -/
theorem changeInPlace_eq (stepwise : Stepwise operator) (other : operand ≠ .object identity ∨ operator ≠ .diff) :
    changeInPlace identity kind members operand operator =
      (elements operand >>= takeAll (reader operator) (taker operator) (.set kind) identity members) >>=
        fun _ => pure () := by
  rcases stepwise with rfl | rfl
  · simp only [changeInPlace, addAll_eq, bind_assoc]
  · have other : operand ≠ .object identity := other.resolve_right fun differ => differ rfl
    cases operand with
    | value value => simp only [changeInPlace, discardAll_eq, bind_assoc]
    | object another =>
      have differ : (another == identity) = false := by
        simpa using fun same => other (congrArg Item.object same)
      simp only [changeInPlace, differ, discardAll_eq, bind_assoc]
      rfl

/-- A change in place that fails has taken the elements before the first that cannot be a member. -/
theorem halts_inPlace (stepwise : Stepwise operator) (found : store.read? identity = some (.set kind members))
    (run : (changeInPlace identity kind members operand operator).run.run store = (.error fault, later)) :
    later = store ∨ store.Halts later operand (reader operator) fun front =>
      call (.object identity) (.inPlace operator) [.item front] := by
  by_cases itself : operand = .object identity ∧ operator = .diff
  · obtain ⟨rfl, rfl⟩ := itself
    simp only [changeInPlace, beq_self_eq_true, if_true] at run
    cases (Prod.mk.inj run).1
  rw [changeInPlace_eq stepwise (not_and_or.mp itself)] at run
  obtain ⟨other, run⟩ := exists_error_of_run_bind_pure _ run
  refine (takeElements_failed (looks_reader operator) (stable_reader operator) found run).imp_right ?_
  rintro ⟨front, bad, rest, result, parts, failed, there, taken⟩
  refine ⟨front, bad, rest, parts, ⟨_, failed⟩, .self, ?_⟩
  have kept := store.extends_alloc (.seq .list front) identity _ found
  have apart : Item.object store.cells.length ≠ .object identity := by
    intro same
    exact Nat.lt_irrefl _ (Item.object.inj same ▸ Store.lt_of_read? found)
  change (call (.object identity) (.inPlace operator) [.item (.object store.cells.length)]).run.run
    (store.alloc (.seq .list front)) = _
  rw [run_call (.inPlace operator) kept nofun]
  change (changeInPlace identity kind members (.object store.cells.length) operator >>= fun _ =>
    pure Outcome.self).run.run _ = _
  rw [changeInPlace_eq stepwise (.inl apart), bind_assoc, run_bind_of_ok taken]
  rfl

end SetCall

namespace DictCall

variable {kind : DictKind} {content : Content} {source : Item} {fault : Fault}

theorem putItems_eq (items : List Item) : putItems identity kind content items =
    takeAll entryOf (fun entry => Entries.put Value.same entry.1 entry.2) (.dict kind) identity content items := by
  induction items generalizing content with
  | nil => rfl
  | cons item items ih => simp only [putItems, takeAll, ih]

theorem updateFrom_eq (pairs : ¬ store.IsDict source) :
    (updateFrom identity kind content source).run.run store = (elements source >>= takeAll entryOf
      (fun entry => Entries.put Value.same entry.1 entry.2) (.dict kind) identity content).run.run store := by
  have same : putItems identity kind = takeAll entryOf (fun entry => Entries.put Value.same entry.1 entry.2)
      (.dict kind) identity := by
    funext content items
    exact putItems_eq items
  rw [← same]
  unfold updateFrom
  cases source with
  | value own => rfl
  | object other =>
    dsimp only
    cases there : store.read? other with
    | none =>
      have nothing : (elements (.object other)).run.run store = (.error .absent, store) := by
        unfold elements
        exact run_bind_cell_none there _
      rw [run_bind_cell_none there, ExceptT.run_bind, StateT.run_bind, nothing]
      rfl
    | some cell =>
      rw [run_bind_cell there]
      cases cell with
      | dict kind' entries => exact absurd ⟨other, kind', entries, rfl, there⟩ pairs
      | _ => rfl

theorem run_update_of_taken {front : List Item} {result : Content}
    (found : store.read? identity = some (.dict kind content)) (there : later.read? identity = some (.dict kind result))
    (taken : (elements (.object store.cells.length) >>= takeAll entryOf
      (fun entry => Entries.put Value.same entry.1 entry.2) (.dict kind) identity content).run.run
        (store.alloc (.seq .list front)) = (.ok result, later.alloc (.seq .list front))) :
    (updateNamed (.object identity) [.item (.object store.cells.length)] []).run.run
      (store.alloc (.seq .list front)) = (.ok .nothing, later.alloc (.seq .list front)) := by
  have kept := store.extends_alloc (.seq .list front) identity _ found
  have pairs : ¬ (store.alloc (.seq .list front)).IsDict (.object store.cells.length) := by
    rintro ⟨other, kind', entries, same, dict⟩
    obtain rfl := Item.object.inj same
    cases Option.some.inj ((store.read?_alloc_self _).symm.trans dict)
  unfold updateNamed
  rw [run_bind_cell kept]
  change (updateFrom identity kind content (.object store.cells.length) >>= fun content => do
    write identity (.dict kind content)
    return Outcome.nothing).run.run _ = _
  rw [run_bind_of_ok ((updateFrom_eq pairs).trans taken), run_bind_write]
  exact congrArg (Prod.mk _) (Store.write_of_read? (later.extends_alloc _ identity _ there))

/-- An update that fails has put the pairs before the first that is none. -/
theorem halts_update {arguments : List Argument} {named : List (Str × Item)}
    (found : store.read? identity = some (.dict kind content))
    (run : (update identity kind content arguments named).run.run store = (.error fault, later)) :
    later = store ∨ ∃ source, arguments = [.item source] ∧ ¬ store.IsDict source ∧
      store.Halts later source entryOf fun front => updateNamed (.object identity) [.item front] [] := by
  unfold update at run
  dsimp only at run
  by_cases self : (named.lookup (.whole "self")).isSome = true
  · rw [if_pos self] at run
    exact .inl (Prod.mk.inj run).2.symm
  rw [if_neg self] at run
  split at run
  · exact absurd (Prod.mk.inj run).1 nofun
  · next source =>
    rcases run_bind run with ⟨other, failed, -⟩ | ⟨_, between, -, remaining⟩
    · by_cases dict : store.IsDict source
      · obtain ⟨other, kind', entries, rfl, there⟩ := dict
        unfold updateFrom at failed
        dsimp only at failed
        rw [run_bind_cell there] at failed
        exact absurd (Prod.mk.inj failed).1 nofun
      · rw [updateFrom_eq dict] at failed
        refine (takeElements_failed looks_entryOf stable_entryOf found failed).imp_right ?_
        rintro ⟨front, bad, rest, result, parts, failed, there, taken⟩
        exact ⟨source, rfl, dict, front, bad, rest, parts, ⟨_, failed⟩, .nothing,
          run_update_of_taken found there taken⟩
    · exact absurd (Prod.mk.inj remaining).1 nofun
  · exact .inl (Prod.mk.inj run).2.symm

theorem answer_update {arguments : List Argument} {named : List (Str × Item)} {outcome : Outcome}
    (run : (update identity kind content arguments named).run.run store = (.ok outcome, later)) :
    outcome = .nothing := by
  unfold update at run
  dsimp only at run
  by_cases self : (named.lookup (.whole "self")).isSome = true
  · rw [if_pos self] at run
    exact absurd (Prod.mk.inj run).1 nofun
  rw [if_neg self] at run
  split at run
  · exact (Except.ok.inj (Prod.mk.inj run).1).symm
  · obtain ⟨_, _, -, run⟩ := exists_of_run_bind run
    exact (Except.ok.inj (Prod.mk.inj run).1).symm
  · exact absurd (Prod.mk.inj run).1 nofun

end DictCall

/-- What can be asked of a container: one of its methods, an update with named entries, a deep copy, and whether it
equals something. -/
inductive Request
  | call (method : Method) (arguments : List Argument)
  | update (arguments : List Argument) (named : List (Str × Item))
  | copy
  | compare (other : Item)

namespace Request

def step (object : Item) : Request → Step Outcome
  | .call method arguments => Step.call object method arguments
  | .update arguments named => updateNamed object arguments named
  | .copy => Outcome.item <$> deepCopy object
  | .compare other => Outcome.flag <$> Step.equal object other

/-- What a request is given. -/
def arguments : Request → List Argument
  | .call _ arguments => arguments
  | .update arguments _ => arguments
  | .copy => []
  | .compare other => [.item other]

/-- The values that a request is given could be parts of objects. -/
def IsProper (request : Request) : Prop :=
  ∀ item, .item item ∈ request.arguments → item.IsProper

/-- The requests that may have an effect although they fail: a union and a difference of a set in place with
something that is no set, and an update of a dictionary with pairs. The effect is that of the request with what
precedes the fault in the place of its operand. Named entries are left out of such an update, since they come after
the pairs. -/
inductive StopsMidway (store later : Store) (identity : Identity) : Request → Prop
  | inPlace {operator : SetOperator} {members : List Value} {operand : Item}
      (found : store.read? identity = some (.set .concurrent members))
      (stepwise : operator = .union ∨ operator = .diff)
      (unset : (isSet operand).run.run store = (.ok false, store))
      (halts : store.Halts later operand (SetCall.reader operator) fun front =>
        Step.call (.object identity) (.inPlace operator) [.item front]) :
      StopsMidway store later identity (.call (.inPlace operator) [.item operand])
  | update {content : DictCall.Content} {source : Item} {request : Request}
      (found : store.read? identity = some (.dict .concurrent content))
      (updates : request = .call .update [.item source] ∨ ∃ named, request = .update [.item source] named)
      (pairs : ¬ store.IsDict source)
      (halts : store.Halts later source DictCall.entryOf fun front =>
        updateNamed (.object identity) [.item front] []) :
      StopsMidway store later identity request

end Request

namespace Step

/-- It is known of every operand with elements whether it is a set. -/
theorem exists_isSet {operand : Item} {items : List Item}
    (parts : (elements operand).run.run store = (.ok items, store)) :
    ∃ set, (isSet operand).run.run store = (.ok set, store) := by
  cases operand with
  | value own => cases own <;> exact ⟨_, rfl⟩
  | object other =>
    obtain ⟨content, found, -⟩ := of_run_elements parts
    unfold isSet
    rw [run_bind_cell found]
    cases content <;> exact ⟨_, rfl⟩

/-- An operand with a faulty element is no set, as members of sets are hashable. -/
theorem isSet_of_halts {operand : Item} {read : Item → Step Value} {take : Item → Step Outcome}
    (holds : store.HoldsMembers) (proper : operand.IsProper)
    (reads : ∀ value, read (.value value) = hashable (.value value))
    (halts : store.Halts later operand read take) : (isSet operand).run.run store = (.ok false, store) := by
  obtain ⟨front, bad, rest, parts, ⟨fault, failed⟩, -⟩ := halts
  obtain ⟨set, known⟩ := exists_isSet parts
  cases set with
  | false => exact known
  | true =>
    have listed : bad ∈ front ++ bad :: rest := by simp
    obtain ⟨value, rfl, frozen⟩ := Store.hashable_of_isSet holds proper known parts listed
    rw [reads, hashable, if_pos frozen] at failed
    cases (Prod.mk.inj failed).1

end Step

namespace Request

variable {result : Except Fault Outcome}

theorem refused_set {members : List Value} {method : Method} {arguments : List Argument}
    (found : store.read? identity = some (.set .concurrent members)) (holds : store.HoldsMembers)
    (proper : ∀ item, .item item ∈ arguments → item.IsProper)
    (run : (SetCall.run identity .concurrent members method arguments).run.run store = (result, later))
    (refused : IsRefusal result) :
    store.Extends later ∨ (Request.call method arguments).StopsMidway store later identity := by
  by_cases stepwise : ∃ operator, SetCall.Stepwise operator ∧ method = .inPlace operator
  · obtain ⟨operator, stepwise, rfl⟩ := stepwise
    unfold SetCall.run withOne at run
    dsimp only at run
    split at run
    · next operand =>
      rcases run_bind run with ⟨fault, failed, -⟩ | ⟨_, between, -, answered⟩
      · rcases SetCall.halts_inPlace stepwise found failed with same | halts
        · exact .inl (Store.extends_of_eq same)
        · have unset := isSet_of_halts holds (proper operand (by simp)) (SetCall.reader_value operator) halts
          exact .inr (.inPlace found stepwise unset halts)
      · obtain rfl := (Prod.mk.inj answered).1
        exact absurd refused nofun
    · exact .inl ((looks_fail .kind).intact _ _ _ run refused)
  · refine .inl (SetCall.intact_run ?_ ?_ _ _ _ run refused)
    · exact fun same => stepwise ⟨.union, .inl rfl, same⟩
    · exact fun same => stepwise ⟨.diff, .inr rfl, same⟩

theorem refused_update {content : DictCall.Content} {request : Request} {arguments : List Argument}
    {named : List (Str × Item)} (found : store.read? identity = some (.dict .concurrent content))
    (updates : request = .call .update arguments ∨ request = .update arguments named)
    (run : (DictCall.update identity .concurrent content arguments named).run.run store = (result, later))
    (refused : IsRefusal result) :
    store.Extends later ∨ request.StopsMidway store later identity := by
  cases result with
  | ok outcome =>
    obtain rfl := DictCall.answer_update run
    exact absurd refused nofun
  | error fault =>
    rcases DictCall.halts_update found run with same | ⟨source, rfl, pairs, halts⟩
    · exact .inl (Store.extends_of_eq same)
    · exact .inr (.update found (updates.imp_right fun same => ⟨named, same⟩) pairs halts)

/-- A request to a concurrent container that is refused leaves every object as it was, unless it is one of the
three that stop midway. An update that stops at a pair has put none of its named entries. -/
theorem effect_of_refused {request : Request} {content : Cell} (found : store.read? identity = some content)
    (concurrent : content.IsConcurrent) (holds : store.HoldsMembers) (proper : request.IsProper)
    (run : (request.step (.object identity)).run.run store = (result, later)) (refused : IsRefusal result) :
    store.Extends later ∨ request.StopsMidway store later identity := by
  cases request with
  | copy => exact .inl (((expands_deepCopy _).map _).intact _ _ _ run refused)
  | compare other =>
    refine .inl (Expands.intact (Expands.map (Looks.expands ?_) _) _ _ _ run refused)
    exact (looks_valueOf _).bind fun _ => (looks_valueOf _).bind fun _ => looks_pure _
  | update arguments named =>
    change (updateNamed (.object identity) arguments named).run.run store = _ at run
    unfold updateNamed at run
    rw [run_bind_cell found] at run
    cases content with
    | dict kind entries =>
      obtain rfl : kind = .concurrent := concurrent
      exact refused_update found (.inr rfl) run refused
    | _ => exact .inl ((looks_fail .method).intact _ _ _ run refused)
  | call method arguments =>
    change (Step.call (.object identity) method arguments).run.run store = _ at run
    by_cases displayed : method = .display
    · subst displayed
      unfold Step.call at run
      dsimp only at run
      rw [run_bind_cell found] at run
      refine .inl (intact_withNone (Looks.intact ?_) _ _ _ run refused)
      exact (looks_valueOf _).bind fun _ => looks_pure _
    rw [run_call method found displayed] at run
    cases content with
    | seq kind items =>
      obtain rfl : kind = .concurrent := concurrent
      exact .inl (SequenceCall.intact_run _ _ _ _ _ _ _ run refused)
    | set kind members =>
      obtain rfl : kind = .concurrent := concurrent
      exact refused_set found holds proper run refused
    | dict kind entries =>
      obtain rfl : kind = .concurrent := concurrent
      by_cases once : method = .update
      · subst once
        change (DictCall.update identity .concurrent entries arguments []).run.run store = _ at run
        exact refused_update found (.inl rfl) run refused
      · exact .inl (DictCall.intact_run once _ _ _ run refused)
    | document type slots => exact concurrent.elim

/-- A dictionary without entries, and a list of two pairs with a number between them. -/
def pairsAroundNumber : Store :=
  ⟨[.dict .concurrent [],
    .seq .list [.value (.seq .tuple [.str "a", .int 1]), .value (.int 5), .value (.seq .tuple [.str "b", .int 2])]]⟩

/-- The first pair is put, and the number ends the update. -/
theorem effect_of_refused_pairsAroundNumber :
    StopsMidway pairsAroundNumber (pairsAroundNumber.write 0 (.dict .concurrent [(.str "a", .value (.int 1))])) 0
      (.call .update [.item (.object 1)]) := by
  have found : pairsAroundNumber.read? 0 = some (.dict .concurrent []) := rfl
  have proper : (Request.call .update [.item (.object 1)]).IsProper := by
    intro item given
    obtain rfl : item = .object 1 := by simpa [arguments] using given
    trivial
  have run : ((Request.call .update [.item (.object 1)]).step (.object 0)).run.run pairsAroundNumber =
      (.error .kind, pairsAroundNumber.write 0 (.dict .concurrent [(.str "a", .value (.int 1))])) := rfl
  refine (effect_of_refused found rfl (by decide) proper run trivial).resolve_left fun unchanged => ?_
  exact absurd (unchanged 0 _ found) (by simp [Store.write, Store.read?, pairsAroundNumber])

end Request

end LayeredConfig
