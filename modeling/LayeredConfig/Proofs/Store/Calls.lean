import LayeredConfig.Proofs.Container.Sequences
import LayeredConfig.Proofs.Store.Sparing
import LayeredConfig.Store.Call

namespace LayeredConfig

open Step

variable {region : Region} {identity : Identity} {arguments : List Argument}

namespace SequenceCall

variable {items : List Item}

theorem quiet_setItem (within : ∀ item ∈ items, item.Within region)
    (given : ∀ argument ∈ arguments, argument.Within region) :
    Quiet region (setItem items arguments) fun result => ∀ item ∈ result, item.Within region := by
  unfold setItem
  split
  · next index value =>
    refine (quiet_whole index).bind fun number _ => ?_
    split
    · refine quiet_pure fun item member => ?_
      rcases List.mem_or_eq_of_mem_set member with old | rfl
      · exact within item old
      · exact given _ (.tail _ List.mem_cons_self)
    · exact quiet_fail .position
  · next start stop step value =>
    have inside : value.Within region := given _ (.tail _ List.mem_cons_self)
    refine (quiet_slice start stop step).bind fun slice _ => ?_
    split
    · exact quiet_fail .content
    · next fitted _ =>
      refine (quiet_elements value inside).bind fun added fine => ?_
      split
      · next result assigned =>
        refine quiet_pure fun item member => ?_
        rcases FittedSlice.mem_assign? assigned member with old | new
        · exact within item old
        · exact fine item new
      · exact quiet_fail .content
  · exact quiet_fail .kind

theorem quiet_deleteItem (within : ∀ item ∈ items, item.Within region) :
    Quiet region (deleteItem items arguments) fun result => ∀ item ∈ result, item.Within region := by
  unfold deleteItem
  split
  · next index =>
    refine (quiet_whole index).bind fun number _ => ?_
    split
    · exact quiet_pure fun item member => within item (Sequence.mem_removeAt member)
    · exact quiet_fail .position
  · next start stop step =>
    refine (quiet_slice start stop step).bind fun slice _ => ?_
    split
    · exact quiet_pure fun item member => within item (FittedSlice.mem_delete member)
    · exact quiet_fail .content
  · exact quiet_fail .kind

theorem spares_getItem {kind : SeqKind} (within : ∀ item ∈ items, item.Within region) :
    Spares region (getItem kind items arguments) (Outcome.Within region) := by
  unfold getItem
  split
  · next index =>
    refine Quiet.spares ((quiet_whole index).bind fun number _ => ?_)
    split
    · next place _ =>
      refine quiet_pure ?_
      cases found : items[place]? with
      | none => trivial
      | some item => exact within item (List.mem_of_getElem? found)
    · exact quiet_fail .position
  · next start stop step =>
    refine (quiet_slice start stop step).andThen fun slice _ => ?_
    split
    · refine (spares_alloc _ fun item member => ?_).andPure fun _ fine => fine
      exact within item (FittedSlice.mem_read member)
    · exact (quiet_fail .content).spares
  · exact (quiet_fail .kind).spares

theorem quiet_remove (within : ∀ item ∈ items, item.Within region) (value : Item) :
    Quiet region (remove items value) fun result => ∀ item ∈ result, item.Within region := by
  refine quiet_get.bind fun store _ => ?_
  split
  · exact quiet_pure fun item member => within item (Sequence.mem_removeAt member)
  · exact quiet_fail .content

theorem quiet_pop (within : ∀ item ∈ items, item.Within region) (index : Int) :
    Quiet region (pop items index) fun result =>
      (∀ item ∈ result.1, item.Within region) ∧ result.2.Within region := by
  unfold pop
  split
  · split
    · next item found =>
      exact quiet_pure ⟨fun item member => within item (Sequence.mem_removeAt member),
        within item (List.mem_of_getElem? found)⟩
    · exact quiet_fail .position
  · exact quiet_fail .position

theorem quiet_search {lower : Item} (within : lower.Within region) (items : List Item) (value : Item)
    (start first : Int) (last : Option Int) : Quiet region (do
      let store ← get
      match Sequence.findFrom (store.same · value) first.toNat last items with
      | some place => return if (place : Int) == start then .item lower else .number place
      | none => fail .content) (Outcome.Within region) := by
  refine quiet_get.bind fun store _ => ?_
  split
  · refine quiet_pure ?_
    split
    · exact within
    · trivial
  · exact quiet_fail .content

theorem quiet_index (lower : Item) (within : lower.Within region) (items : List Item) (value : Item)
    (stop : Option Item) : Quiet region (index items value lower stop) (Outcome.Within region) := by
  refine (quiet_whole lower).bind fun start _ => ?_
  cases stop with
  | none => exact quiet_search within items value start _ none
  | some stop =>
    exact (quiet_wholeOrNull stop).bind fun last _ => quiet_search within items value start _ _

theorem quiet_kindOf {item : Item} (within : item.Within region) :
    Quiet region (kindOf item) fun _ => True := by
  unfold kindOf
  split
  · exact quiet_pure trivial
  · exact quiet_pure trivial
  · refine (quiet_cell within).bind fun content _ => ?_
    split
    · exact quiet_pure trivial
    · exact quiet_pure trivial

theorem quiet_equal {other : Item} (within : other.Within region) (kind : SeqKind) (identity : Identity) :
    Quiet region (equal kind identity other) (Outcome.Within region) := by
  refine (quiet_kindOf within).bind fun kind? _ => ?_
  split
  · split
    · exact (quiet_valueOf _).bind fun _ _ => (quiet_valueOf _).bind fun _ _ => quiet_pure trivial
    · exact quiet_pure trivial
  · exact quiet_pure trivial

/-- A sequence is written back whole, with items of its region. -/
theorem quiet_replace (owned : region identity) (within : ∀ item ∈ items, item.Within region)
    (kind : SeqKind) (answer : Outcome) (fine : answer.Within region) :
    Quiet region (do Step.write identity (.seq kind items); return answer) (Outcome.Within region) :=
  (quiet_write (.seq kind items) owned within).bind fun _ _ => quiet_pure fine

theorem quiet_take {kind : SeqKind} (owned : region identity) (within : ∀ item ∈ items, item.Within region)
    (index : Int) : Quiet region (do
      let (items, item) ← pop items index
      let _ ← (do Step.write identity (.seq kind items); return Outcome.nothing)
      return .item item) (Outcome.Within region) :=
  (quiet_pop within index).bind fun _ fine =>
    (quiet_replace owned fine.1 kind .nothing trivial).bind fun _ _ => quiet_answer fine.2

theorem spares_run {kind : SeqKind} (method : Method) (owned : region identity)
    (within : ∀ item ∈ items, item.Within region)
    (given : ∀ argument ∈ arguments, argument.Within region) :
    Spares region (run identity kind items method arguments) (Outcome.Within region) := by
  have joined {added : List Item} (inside : ∀ item ∈ added, item.Within region) :
      ∀ item ∈ items ++ added, item.Within region :=
    List.forall_mem_append.mpr ⟨within, inside⟩
  cases method with
  | append =>
    refine spares_withOne given fun item inside => Quiet.spares ?_
    exact quiet_replace owned (joined (List.forall_mem_singleton.mpr inside)) kind .nothing trivial
  | extend =>
    refine spares_withOne given fun values inside => Quiet.spares ?_
    exact (quiet_elements values inside).bind fun _ fine =>
      quiet_replace owned (joined fine) kind .nothing trivial
  | concatenateInPlace =>
    refine spares_withOne given fun values inside => Quiet.spares ?_
    refine (quiet_elements values inside).bind fun _ fine => ?_
    exact (quiet_replace owned (joined fine) kind .nothing trivial).bind fun _ _ => quiet_pure trivial
  | insert =>
    refine spares_withTwo given fun index item _ inside => Quiet.spares ?_
    refine (quiet_placeNumber index).bind fun number _ =>
      quiet_replace owned (fun other member => ?_) kind .nothing trivial
    rcases Sequence.mem_insert member with rfl | old
    · exact inside
    · exact within other old
  | pop =>
    unfold run
    dsimp only
    split
    · exact (quiet_take owned within (-1)).spares
    · next index => exact ((quiet_placeNumber index).bind fun number _ => quiet_take owned within number).spares
    · exact (quiet_fail .kind).spares
  | remove =>
    refine spares_withOne given fun value _ => Quiet.spares ?_
    exact (quiet_remove within value).bind fun _ fine => quiet_replace owned fine kind .nothing trivial
  | reverse =>
    refine spares_withNone (Quiet.spares ?_)
    exact quiet_replace owned (fun item member => within item (List.mem_reverse.mp member)) kind .nothing trivial
  | clear => exact spares_withNone (quiet_replace owned (by simp) kind .nothing trivial).spares
  | index =>
    unfold run
    dsimp only
    split
    · exact (quiet_index (.value (.int 0)) trivial items _ none).spares
    · exact (quiet_index _ (given _ (.tail _ List.mem_cons_self)) items _ none).spares
    · exact (quiet_index _ (given _ (.tail _ List.mem_cons_self)) items _ _).spares
    · exact (quiet_fail .kind).spares
  | count =>
    exact spares_withOne given fun value _ => (quiet_get.bind fun store _ => quiet_pure trivial).spares
  | snapshot =>
    unfold run
    dsimp only
    split
    · exact spares_withNone ((spares_alloc (.seq .list items) within).map fun _ fine => fine)
    · exact (quiet_fail .method).spares
  | getItem => exact spares_getItem within
  | setItem =>
    exact ((quiet_setItem within given).bind fun _ fine =>
      quiet_replace owned fine kind .nothing trivial).spares
  | deleteItem =>
    exact ((quiet_deleteItem within).bind fun _ fine =>
      quiet_replace owned fine kind .nothing trivial).spares
  | contains =>
    exact spares_withOne given fun value _ => (quiet_get.bind fun store _ => quiet_pure trivial).spares
  | length => exact spares_withNone (quiet_pure trivial).spares
  | iterate => exact spares_withNone (Traversal.spares_items (Traversal.quiet_ofObject owned))
  | reversed => exact spares_withNone (Traversal.spares_items (Traversal.quiet_reversed owned))
  | equal => exact spares_withOne given fun other inside => (quiet_equal inside kind identity).spares
  | less | lessEqual | greater | greaterEqual =>
    exact spares_withOne given fun _ _ => (quiet_pure trivial).spares
  | _ => exact (quiet_fail .method).spares

end SequenceCall

namespace DictCall

variable {content : Content} {kind : DictKind}

theorem quiet_entryOf {item : Item} (within : item.Within region) :
    Quiet region (entryOf item) fun entry => entry.2.Within region := by
  refine (quiet_elements item within).bind fun parts inside => ?_
  split
  · next key value =>
    have fine : value.Within region := inside value (.tail _ List.mem_cons_self)
    exact (quiet_hashable key).bind fun _ _ => quiet_pure fine
  · exact quiet_fail .content

theorem within_put (key : Value) {item : Item} (within : EntriesWithin region content)
    (inside : item.Within region) : EntriesWithin region (Entries.put Value.same key item content) := by
  intro entry member
  rcases (Entries.mem_put member).2 with same | old
  · exact same ▸ inside
  · exact within entry old

theorem within_putAll {added : Content} (within : EntriesWithin region content)
    (inside : EntriesWithin region added) : EntriesWithin region (Entries.putAll Value.same added content) := by
  intro entry member
  rcases Entries.mem_putAll member with ⟨new, listed, same⟩ | old
  · exact same ▸ inside new listed
  · exact within entry old

theorem within_erase {key : Value} (within : EntriesWithin region content) :
    EntriesWithin region (Entries.erase Value.same key content) :=
  fun entry member => within entry (Entries.mem_erase member)

theorem within_find? {key : Value} (within : EntriesWithin region content) :
    ∀ item, Entries.find? Value.same key content = some item → item.Within region := by
  intro item found
  obtain ⟨entry, listed, rfl⟩ := Entries.mem_of_find? found
  exact within entry listed

/-- A faulty entry leaves the dictionary with entries of its region as well. -/
theorem quiet_putItems {items : List Item} (owned : region identity)
    (within : EntriesWithin region content) (inside : ∀ item ∈ items, item.Within region) :
    Quiet region (putItems identity kind content items) (EntriesWithin region) := by
  induction items generalizing content with
  | nil => exact quiet_pure within
  | cons item items ih =>
    obtain ⟨here, later⟩ := List.forall_mem_cons.mp inside
    refine (quiet_entryOf here).bind fun entry fine => ?_
    have put := within_put entry.1 within fine
    exact (quiet_write _ owned (put.cell kind)).bind fun _ _ => ih put later

theorem quiet_updateFrom {source : Item} (owned : region identity) (within : EntriesWithin region content)
    (inside : source.Within region) :
    Quiet region (updateFrom identity kind content source) (EntriesWithin region) := by
  have others : Quiet region (do putItems identity kind content (← elements source))
      (EntriesWithin region) :=
    (quiet_elements source inside).bind fun _ fine => quiet_putItems owned within fine
  unfold updateFrom
  cases source with
  | value value => exact others
  | object other =>
    refine (quiet_cell inside).bind fun cell fine => ?_
    cases cell with
    | dict kind' entries =>
      have put := within_putAll within fine.entries
      exact (quiet_write _ owned (put.cell kind)).bind fun _ _ => quiet_pure put
    | _ => exact others

theorem quiet_finish {named : List (Str × Item)} (owned : region identity)
    (within : EntriesWithin region content) (inside : ∀ pair ∈ named, pair.2.Within region) :
    Quiet region (do
      write identity (.dict kind
        (Entries.putAll Value.same (named.map fun (name, item) => (.str name, item)) content))
      return Outcome.nothing) (Outcome.Within region) := by
  refine (quiet_write _ owned ((within_putAll within fun entry member => ?_).cell kind)).bind
    fun _ _ => quiet_pure trivial
  obtain ⟨pair, listed, rfl⟩ := List.mem_map.mp member
  exact inside pair listed

theorem quiet_update {named : List (Str × Item)} (owned : region identity)
    (within : EntriesWithin region content) (given : ∀ argument ∈ arguments, argument.Within region)
    (inside : ∀ pair ∈ named, pair.2.Within region) :
    Quiet region (update identity kind content arguments named) (Outcome.Within region) := by
  unfold update
  dsimp only
  split
  · exact (quiet_fail .kind).bind fun _ (never : False) => never.elim
  · split
    · exact quiet_finish owned within inside
    · exact (quiet_updateFrom owned within (given _ List.mem_cons_self)).bind
        fun _ fine => quiet_finish owned fine inside
    · exact (quiet_fail .kind).bind fun _ (never : False) => never.elim

theorem quiet_missing {default : Option Item} (inside : ∀ item, default = some item → item.Within region) :
    Quiet region (match default with
      | some item => pure (Outcome.item item)
      | none => fail .absent) (Outcome.Within region) := by
  split
  · next item => exact quiet_answer (inside item rfl)
  · exact quiet_fail .absent

theorem quiet_pop {default : Option Item} (owned : region identity) (within : EntriesWithin region content)
    (key : Item) (inside : ∀ item, default = some item → item.Within region) :
    Quiet region (pop identity kind content key default) (Outcome.Within region) := by
  have missing := quiet_missing inside
  unfold pop
  dsimp only
  split
  · exact missing
  · refine (quiet_hashable key).bind fun key _ => ?_
    split
    · next item found =>
      refine (quiet_write _ owned ((within_erase within).cell kind)).bind fun _ _ => ?_
      exact quiet_answer (within_find? within item found)
    · exact missing

theorem quiet_sameItem (a b : Item) : Quiet region (sameItem a b) fun _ => True := by
  have values : Quiet region (do return (← valueOf a).same (← valueOf b)) fun _ => True :=
    (quiet_valueOf a).bind fun _ _ => (quiet_valueOf b).bind fun _ _ => quiet_pure trivial
  unfold sameItem
  split
  · split
    · exact quiet_pure trivial
    · exact values
  · exact values

theorem quiet_sameWithin (others entries : Content) :
    Quiet region (sameWithin others entries) fun _ => True := by
  induction entries with
  | nil => exact quiet_pure trivial
  | cons entry entries ih =>
    unfold sameWithin
    split
    · refine (quiet_sameItem _ _).bind fun same _ => ?_
      split
      · exact ih
      · exact quiet_pure trivial
    · exact quiet_pure trivial

theorem quiet_equal {other : Item} (within : other.Within region) (content : Content) :
    Quiet region (equal content other) (Outcome.Within region) := by
  unfold equal
  split
  · refine (quiet_cell within).bind fun cell _ => ?_
    split
    · split
      · exact (quiet_sameWithin _ content).bind fun _ _ => quiet_pure trivial
      · exact quiet_pure trivial
    · exact quiet_pure trivial
  · exact quiet_pure trivial

theorem quiet_replace (owned : region identity) (within : EntriesWithin region content) (kind : DictKind) :
    Quiet region (do write identity (.dict kind content); return Outcome.nothing) (Outcome.Within region) :=
  (quiet_write _ owned (within.cell kind)).bind fun _ _ => quiet_pure trivial

theorem quiet_find (within : EntriesWithin region content) (key : Item) :
    Quiet region (do return Entries.find? Value.same (← hashable key) content) fun found =>
      ∀ item, found = some item → item.Within region :=
  (quiet_hashable key).bind fun _ _ => quiet_pure (within_find? within)

theorem quiet_setDefault (owned : region identity) (within : EntriesWithin region content)
    (pair : Item × Item) (inside : pair.2.Within region) : Quiet region (do
      match ← (do return Entries.find? Value.same (← hashable pair.1) content) with
      | some item => return Outcome.item item
      | none =>
        let key ← hashable pair.1
        let _ ← (do
          write identity (.dict kind (Entries.put Value.same key pair.2 content))
          return Outcome.nothing)
        return .item pair.2) (Outcome.Within region) := by
  refine (quiet_find within pair.1).bind fun found fine => ?_
  split
  · next item => exact quiet_answer (fine item rfl)
  · refine (quiet_hashable pair.1).bind fun key _ => ?_
    exact (quiet_replace owned (within_put key within inside) kind).bind fun _ _ => quiet_answer inside

theorem spares_run (method : Method) (owned : region identity) (within : EntriesWithin region content)
    (given : ∀ argument ∈ arguments, argument.Within region) :
    Spares region (run identity kind content method arguments) (Outcome.Within region) := by
  cases method with
  | getItem =>
    refine spares_withOne given fun key _ => Quiet.spares ((quiet_find within key).bind fun found fine => ?_)
    split
    · next item => exact quiet_answer (fine item rfl)
    · exact quiet_fail .absent
  | setItem =>
    refine spares_withTwo given fun key item _ inside => Quiet.spares ?_
    exact (quiet_hashable key).bind fun _ _ => quiet_replace owned (within_put _ within inside) kind
  | deleteItem =>
    refine spares_withOne given fun key _ => Quiet.spares ((quiet_find within key).bind fun found _ => ?_)
    split
    · exact (quiet_hashable key).bind fun _ _ => quiet_replace owned (within_erase within) kind
    · exact quiet_fail .absent
  | contains =>
    refine spares_withOne given fun key _ => Quiet.spares ?_
    exact (quiet_find within key).bind fun _ _ => quiet_pure trivial
  | length => exact spares_withNone (quiet_pure trivial).spares
  | get =>
    have answered (key default : Item) (inside : default.Within region) : Quiet region (do
        return Outcome.item ((← (do return Entries.find? Value.same (← hashable key) content)).getD default))
          (Outcome.Within region) := by
      refine (quiet_find within key).bind fun found fine => quiet_answer ?_
      cases found with
      | none => exact inside
      | some item => exact fine item rfl
    unfold run
    dsimp only
    split
    · exact (answered _ (.value .null) trivial).spares
    · exact (answered _ _ (given _ (.tail _ List.mem_cons_self))).spares
    · exact (quiet_fail .kind).spares
  | setDefault =>
    unfold run
    dsimp only
    split
    · exact (quiet_setDefault owned within (_, .value .null) trivial).spares
    · exact (quiet_setDefault owned within (_, _) (given _ (.tail _ List.mem_cons_self))).spares
    · exact (quiet_fail .kind).spares
  | pop =>
    unfold run
    dsimp only
    split
    · exact (quiet_pop owned within _ (by simp)).spares
    · next key default =>
      refine (quiet_pop owned within _ fun item same => ?_).spares
      exact Option.some.inj same ▸ given _ (.tail _ List.mem_cons_self)
    · exact (quiet_fail .kind).spares
  | popItem =>
    refine spares_withNone ?_
    split
    · next key item last =>
      have inside : item.Within region := within (key, item) (List.mem_of_getLast? last)
      have rest : EntriesWithin region content.dropLast :=
        fun entry member => within entry ((List.dropLast_sublist content).subset member)
      refine (quiet_replace owned rest kind).andThen fun _ _ => ?_
      refine (spares_tuple ?_).andPure fun _ fine => fine
      exact List.forall_mem_cons.mpr ⟨trivial, List.forall_mem_singleton.mpr inside⟩
    · exact (quiet_fail .absent).spares
  | clear => exact spares_withNone (quiet_replace owned (by simp [EntriesWithin]) kind).spares
  | update => exact (quiet_update owned within given fun _ listed => absurd listed List.not_mem_nil).spares
  | keys | iterate => exact spares_withNone (Traversal.spares_items (Traversal.quiet_ofObject owned))
  | values => exact spares_withNone (Traversal.spares_items (Traversal.quiet_overValues owned))
  | items => exact spares_withNone (Traversal.spares_items (Traversal.quiet_overEntries owned))
  | reversed => exact (quiet_fail .kind).spares
  | snapshot =>
    unfold run
    dsimp only
    split
    · exact spares_withNone ((spares_alloc _ (within.cell .plain)).map fun _ fine => fine)
    · exact (quiet_fail .method).spares
  | equal => exact spares_withOne given fun other inside => (quiet_equal inside content).spares
  | less | lessEqual | greater | greaterEqual =>
    exact spares_withOne given fun _ _ => (quiet_pure trivial).spares
  | _ => exact (quiet_fail .method).spares

end DictCall

namespace SetCall

variable {members : List Value} {kind : SetKind} {operand : Item}

theorem quiet_isIterable (within : operand.Within region) :
    Quiet region (isIterable operand) fun _ => True := by
  unfold isIterable
  split
  · exact quiet_pure trivial
  · exact quiet_pure trivial
  · exact quiet_pure trivial
  · exact quiet_pure trivial
  · exact quiet_pure trivial
  · refine (quiet_cell within).bind fun content _ => ?_
    split
    · exact quiet_pure trivial
    · exact quiet_pure trivial

theorem quiet_ofItems (items : List Item) : Quiet region (ofItems items) fun _ => True :=
  (quiet_mapM fun item _ => quiet_hashable item).bind fun _ _ => quiet_pure trivial

theorem quiet_operandMembers (within : operand.Within region) :
    Quiet region (operandMembers operand) fun _ => True :=
  (quiet_elements operand within).bind fun items _ => quiet_ofItems items

theorem quiet_common {items : List Item} (within : ∀ item ∈ items, item.Within region)
    (members : List Value) : Quiet region (common members items) fun _ => True := by
  induction items with
  | nil => exact quiet_pure trivial
  | cons item items ih =>
    obtain ⟨here, later⟩ := List.forall_mem_cons.mp within
    refine (quiet_soughtMember here).bind fun member _ => ?_
    split
    · exact (quiet_hashable item).bind fun _ _ => (ih later).bind fun _ _ => quiet_pure trivial
    · exact ih later

theorem quiet_combine (within : operand.Within region) (members : List Value) (operator : SetOperator) :
    Quiet region (combine members operand operator) fun _ => True := by
  cases operator with
  | union =>
    refine (quiet_elements operand within).bind fun items _ => ?_
    exact (quiet_mapM fun item _ => quiet_hashable item).bind fun _ _ => quiet_pure trivial
  | inter =>
    refine (quiet_elements operand within).bind fun items inside => ?_
    exact (quiet_common inside members).bind fun _ _ => quiet_pure trivial
  | diff => exact (quiet_operandMembers within).bind fun _ _ => quiet_pure trivial
  | symmDiff => exact (quiet_operandMembers within).bind fun _ _ => quiet_pure trivial

theorem quiet_combineReflected (within : operand.Within region) (members : List Value)
    (operator : SetOperator) : Quiet region (combineReflected members operand operator) fun _ => True := by
  cases operator with
  | diff => exact (quiet_operandMembers within).bind fun _ _ => quiet_pure trivial
  | union => exact quiet_combine within members .union
  | inter => exact quiet_combine within members .inter
  | symmDiff => exact quiet_combine within members .symmDiff

theorem quiet_writeSet (owned : region identity) (kind : SetKind) (members : List Value) :
    Quiet region (write identity (.set kind members)) fun _ => True :=
  quiet_write _ owned (Cell.within_set kind members)

theorem quiet_addAll {items : List Item} (owned : region identity) :
    Quiet region (addAll identity kind members items) fun _ => True := by
  induction items generalizing members with
  | nil => exact quiet_pure trivial
  | cons item items ih =>
    exact (quiet_hashable item).bind fun _ _ => (quiet_writeSet owned kind _).bind fun _ _ => ih

theorem quiet_discardAll {items : List Item} (owned : region identity)
    (within : ∀ item ∈ items, item.Within region) :
    Quiet region (discardAll identity kind members items) fun _ => True := by
  induction items generalizing members with
  | nil => exact quiet_pure trivial
  | cons item items ih =>
    obtain ⟨here, later⟩ := List.forall_mem_cons.mp within
    exact (quiet_soughtMember here).bind fun _ _ => (quiet_writeSet owned kind _).bind fun _ _ => ih later

theorem quiet_changeInPlace (owned : region identity) (within : operand.Within region)
    (operator : SetOperator) :
    Quiet region (changeInPlace identity kind members operand operator) fun _ => True := by
  have discard : Quiet region (do
      let _ ← discardAll identity kind members (← elements operand)) fun _ => True :=
    (quiet_elements operand within).bind fun _ inside =>
      (quiet_discardAll owned inside).bind fun _ _ => quiet_pure trivial
  cases operator with
  | union =>
    exact (quiet_elements operand within).bind fun _ _ => (quiet_addAll owned).bind fun _ _ =>
      quiet_pure trivial
  | inter => exact (quiet_operandMembers within).bind fun _ _ => quiet_writeSet owned kind _
  | diff =>
    unfold changeInPlace
    cases operand with
    | value value => exact discard
    | object other =>
      dsimp only
      split
      · exact quiet_writeSet owned kind []
      · exact discard
  | symmDiff =>
    unfold changeInPlace
    dsimp only
    split
    · exact quiet_writeSet owned kind _
    · exact (quiet_operandMembers within).bind fun _ _ => quiet_writeSet owned kind _

theorem quiet_disjoint {items : List Item} (within : ∀ item ∈ items, item.Within region) :
    Quiet region (disjoint members items) fun _ => True := by
  induction items with
  | nil => exact quiet_pure trivial
  | cons item items ih =>
    obtain ⟨here, later⟩ := List.forall_mem_cons.mp within
    refine (quiet_soughtMember here).bind fun member _ => ?_
    split
    · exact quiet_pure trivial
    · exact ih later

theorem quiet_replace (owned : region identity) (kind : SetKind) (members : List Value) :
    Quiet region (do write identity (.set kind members); return Outcome.nothing) (Outcome.Within region) :=
  (quiet_writeSet owned kind members).bind fun _ _ => quiet_pure trivial

theorem spares_run (method : Method) (owned : region identity)
    (given : ∀ argument ∈ arguments, argument.Within region) :
    Spares region (run identity kind members method arguments) (Outcome.Within region) := by
  have made (combined : Step (List Value)) (quiet : Quiet region combined fun _ => True) :
      Spares region (do return Outcome.item (← alloc (.set kind (← combined)))) (Outcome.Within region) :=
    quiet.andThen fun members _ => (spares_alloc _ (Cell.within_set kind members)).andPure fun _ fine => fine
  have compared (method : Method) : Spares region (withOne arguments fun operand => do
      if ← isSet operand then return Outcome.flag (compare members (← operandMembers operand) method)
      else return .notImplemented) (Outcome.Within region) := by
    refine spares_withOne given fun operand within => Quiet.spares ((quiet_isSet within).bind fun set _ => ?_)
    split
    · exact (quiet_operandMembers within).bind fun _ _ => quiet_pure trivial
    · exact quiet_pure trivial
  cases method with
  | add =>
    refine spares_withOne given fun item _ => Quiet.spares ?_
    exact (quiet_hashable item).bind fun _ _ => quiet_replace owned kind _
  | discard =>
    refine spares_withOne given fun item within => Quiet.spares ?_
    exact (quiet_soughtMember within).bind fun _ _ => quiet_replace owned kind _
  | remove =>
    refine spares_withOne given fun item within => Quiet.spares ((quiet_soughtMember within).bind fun _ _ => ?_)
    split
    · exact quiet_replace owned kind _
    · exact quiet_fail .absent
  | pop =>
    refine spares_withNone (Quiet.spares ?_)
    split
    · exact (quiet_replace owned kind _).bind fun _ _ => quiet_answer trivial
    · exact quiet_fail .absent
  | clear => exact spares_withNone (quiet_replace owned kind []).spares
  | contains =>
    refine spares_withOne given fun item within => Quiet.spares ?_
    exact (quiet_soughtMember within).bind fun _ _ => quiet_pure trivial
  | length => exact spares_withNone (quiet_pure trivial).spares
  | iterate => exact spares_withNone (Traversal.spares_items (Traversal.quiet_ofObject owned))
  | isDisjoint =>
    refine spares_withOne given fun operand within => Quiet.spares ?_
    exact (quiet_elements operand within).bind fun _ inside =>
      (quiet_disjoint inside).bind fun _ _ => quiet_pure trivial
  | snapshot =>
    unfold run
    dsimp only
    split
    · exact spares_withNone ((spares_alloc _ (Cell.within_set .plain members)).map fun _ fine => fine)
    · exact (quiet_fail .method).spares
  | operator operator =>
    refine spares_withOne given fun operand within => (quiet_isIterable within).andThen fun iterable _ => ?_
    split
    · exact made _ (quiet_combine within members operator)
    · exact (quiet_pure trivial).spares
  | reflected operator =>
    refine spares_withOne given fun operand within => (quiet_isIterable within).andThen fun iterable _ => ?_
    split
    · exact made _ (quiet_combineReflected within members operator)
    · exact (quiet_pure trivial).spares
  | inPlace operator =>
    refine spares_withOne given fun operand within => Quiet.spares ?_
    exact (quiet_changeInPlace owned within operator).bind fun _ _ => quiet_pure trivial
  | less | lessEqual | greater | greaterEqual | equal => exact compared _
  | _ => exact (quiet_fail .method).spares

end SetCall

namespace Step

variable {object : Item}

/-- Whatever a call does, it does in every region that holds the object and the arguments. -/
theorem spares_call (method : Method) (owned : object.Within region)
    (given : ∀ argument ∈ arguments, argument.Within region) :
    Spares region (call object method arguments) (Outcome.Within region) := by
  cases object with
  | value value => exact (quiet_fail .method).spares
  | object identity =>
    refine (quiet_cell owned).andThen fun content within => ?_
    split
    · refine spares_withNone (Quiet.spares ?_)
      exact (quiet_valueOf _).bind fun _ _ => quiet_answer trivial
    · split
      · exact (quiet_fail .method).spares
      · exact SequenceCall.spares_run method owned within given
      · exact SetCall.spares_run method owned given
      · exact DictCall.spares_run method owned within.entries given
      · exact Document.spares_run owned given

theorem quiet_updateNamed {named : List (Str × Item)} (owned : object.Within region)
    (given : ∀ argument ∈ arguments, argument.Within region)
    (inside : ∀ pair ∈ named, pair.2.Within region) :
    Quiet region (updateNamed object arguments named) (Outcome.Within region) := by
  cases object with
  | value value => exact quiet_fail .method
  | object identity =>
    refine (quiet_cell owned).bind fun content within => ?_
    split
    · exact DictCall.quiet_update owned within.entries given inside
    · exact quiet_fail .method

theorem quiet_element {outcome : Outcome} (within : outcome.Within region) :
    Quiet region (part.element outcome) (Item.Within region) := by
  unfold part.element
  split
  · exact quiet_pure within
  · exact quiet_fail .kind

theorem grows_element (outcome : Outcome) : Grows (part.element outcome) := by
  unfold part.element
  split
  · exact grows_pure _
  · exact (quiet_fail .kind : Quiet _ _ fun _ => True).spares.grows

theorem spares_part {key : Item} (owned : object.Within region) (inside : key.Within region) :
    Spares region (part object key) (Item.Within region) := by
  have given : ∀ argument ∈ [Argument.item key], argument.Within region :=
    List.forall_mem_singleton.mpr inside
  unfold part
  split
  · exact (SequenceCall.spares_getItem (within_map_value _)).bind grows_element
      fun _ fine => (quiet_element fine).spares
  · exact (quiet_fail .kind).spares
  · next identity =>
    refine (quiet_cell owned).andThen fun content within => ?_
    split
    · exact (SequenceCall.spares_getItem within).bind grows_element fun _ fine => (quiet_element fine).spares
    · exact (DictCall.spares_run .getItem owned within.entries given).bind grows_element
        fun _ fine => (quiet_element fine).spares
    · exact (quiet_fail .kind).spares
    · split
      · exact (Document.quiet_get owned _).spares
      · exact (quiet_fail .kind).spares

/-- A path never leads out of the region that it starts in. -/
theorem spares_follow {path : List Item} (owned : object.Within region)
    (inside : ∀ key ∈ path, key.Within region) :
    Spares region (follow object path) (Item.Within region) := by
  induction path generalizing object region with
  | nil => exact (quiet_pure owned).spares
  | cons key path ih =>
    obtain ⟨here, later⟩ := List.forall_mem_cons.mp inside
    have grows (object : Item) : Grows (follow object path) :=
      (ih object.within_all fun key _ => key.within_all).grows
    exact (spares_part owned here).bind grows fun _ fine => ih fine later

theorem quiet_assign {item : Item} (owned : object.Within region) (name : Str)
    (within : item.Within region) : Quiet region (assign object name item) fun _ => True := by
  unfold assign
  split
  · exact quiet_pure trivial
  · exact quiet_fail .method
  · refine (quiet_cell owned).bind fun content _ => ?_
    split
    · exact Document.quiet_set owned within
    · exact quiet_pure trivial
    · exact quiet_pure trivial
    · exact quiet_pure trivial
    · exact quiet_fail .method

end Step

end LayeredConfig
