import LayeredConfig.Proofs.Store.Answers
import LayeredConfig.Proofs.Value.Sameness

namespace LayeredConfig

open Step

/-- Whether an element of one or both of two sets is one of what an operator makes of them. -/
def SetOperator.holds : SetOperator → Prop → Prop → Prop
  | .union, here, there => here ∨ there
  | .inter, here, there => here ∧ there
  | .diff, here, there => here ∧ ¬ there
  | .symmDiff, here, there => Xor here there

namespace Members

/-- A set of values, no two of them equal, to which exactly the keys of some kind belong. -/
structure IsSetOf (members : List Value) (belongs : Value → Prop) : Prop where
  distinct : Distinct Value.same Value.IsKey members
  among : ∀ element, element.IsKey → (Among Value.same members element ↔ belongs element)

/-- What an operator makes of the members of a set and the elements of an operand. -/
def combined (members elements : List Value) : SetOperator → List Value
  | .union => insertAll Value.same elements members
  | .inter => inter Value.same members elements
  | .diff => diff Value.same members (ofList Value.same elements)
  | .symmDiff => symmDiff Value.same members (ofList Value.same elements)

/-- What an operator makes of them when the set is the second operand. -/
def combinedReflected (members elements : List Value) : SetOperator → List Value
  | .diff => diff Value.same (ofList Value.same elements) members
  | operator => combined members elements operator

variable {members elements : List Value}

theorem isSetOf_combined (distinct : Distinct Value.same Value.IsKey members)
    (keys : ∀ element ∈ elements, element.IsKey) (operator : SetOperator) :
    IsSetOf (combined members elements operator) fun element =>
      operator.holds (Among Value.same members element) (Among Value.same elements element) := by
  have equality := Value.equality_same
  have others := Distinct.ofList Value.same keys
  cases operator with
  | union =>
    refine ⟨distinct.insertAll keys, fun element _ => ?_⟩
    exact (among_insertAll equality keys).trans or_comm
  | inter =>
    refine ⟨Distinct.ofList _ fun element listed => keys element (List.mem_filter.mp listed).1, ?_⟩
    exact fun element here => among_inter equality keys here
  | diff =>
    refine ⟨distinct.filter _, fun element here => (among_diff equality distinct.each here).trans ?_⟩
    rw [among_ofList equality keys]
    rfl
  | symmDiff =>
    refine ⟨(distinct.filter _).insertAll (others.filter _).each, fun element here => ?_⟩
    refine (among_symmDiff equality distinct.each others.each here).trans ?_
    rw [among_ofList equality keys]
    rfl

theorem isSetOf_combinedReflected (distinct : Distinct Value.same Value.IsKey members)
    (keys : ∀ element ∈ elements, element.IsKey) (operator : SetOperator) :
    IsSetOf (combinedReflected members elements operator) fun element =>
      operator.holds (Among Value.same elements element) (Among Value.same members element) := by
  have straight := isSetOf_combined distinct keys operator
  cases operator with
  | union => exact ⟨straight.distinct, fun element here => (straight.among element here).trans or_comm⟩
  | inter => exact ⟨straight.distinct, fun element here => (straight.among element here).trans and_comm⟩
  | diff =>
    have others := Distinct.ofList Value.same keys
    refine ⟨others.filter _, fun element here => ?_⟩
    refine (among_diff Value.equality_same others.each here).trans ?_
    rw [among_ofList Value.equality_same keys]
    rfl
  | symmDiff =>
    exact ⟨straight.distinct, fun element here => (straight.among element here).trans (.of_eq (xor_comm _ _))⟩

end Members

namespace SetCall

open Members

variable {store : Store} {identity : Identity} {kind : SetKind} {members elements : List Value} {operand : Item}

theorem run_ofItems (keys : ∀ element ∈ elements, element.IsKey) :
    (ofItems (elements.map .value)).run.run store = (.ok (ofList Value.same elements), store) := by
  unfold ofItems
  rw [run_bind_of_ok (run_mapM_hashable fun element listed => (keys element listed).hashable)]
  rfl

theorem run_common (keys : ∀ element ∈ elements, element.IsKey) :
    (common members (elements.map .value)).run.run store =
      (.ok (elements.filter (contains Value.same · members)), store) := by
  induction elements with
  | nil => rfl
  | cons element elements ih =>
    obtain ⟨here, later⟩ := List.forall_mem_cons.mp keys
    rw [List.map_cons, common, run_bind_soughtMember here.hashable, List.filter_cons]
    split
    · rw [run_bind_hashable here.hashable, run_bind_of_ok (ih later)]
      rfl
    · exact ih later

theorem run_disjoint (keys : ∀ element ∈ elements, element.IsKey) :
    (disjoint members (elements.map .value)).run.run store =
      (.ok (inter Value.same members elements).isEmpty, store) := by
  rw [inter, isEmpty_ofList]
  induction elements with
  | nil => rfl
  | cons element elements ih =>
    obtain ⟨here, later⟩ := List.forall_mem_cons.mp keys
    rw [List.map_cons, disjoint, run_bind_soughtMember here.hashable, List.filter_cons]
    split
    · rfl
    · exact ih later

section operand

variable (parts : (Step.elements operand).run.run store = (.ok (elements.map .value), store))
  (keys : ∀ element ∈ elements, element.IsKey)

include parts

theorem run_isIterable : (isIterable operand).run.run store = (.ok true, store) := by
  cases operand with
  | value value =>
    cases value with
    | scalar value => cases value <;> first | rfl | cases (Prod.mk.inj parts).1
    | seq kind items => rfl
    | set kind members => rfl
    | _ => cases (Prod.mk.inj parts).1
  | object other =>
    obtain ⟨content, found, readable⟩ := of_run_elements parts
    unfold isIterable
    rw [run_bind_cell found]
    cases content with
    | document type slots => exact absurd rfl (readable type slots)
    | _ => rfl

include keys

theorem run_operandMembers :
    (operandMembers operand).run.run store = (.ok (ofList Value.same elements), store) := by
  unfold operandMembers
  rw [run_bind_of_ok parts]
  exact run_ofItems keys

theorem run_combine (operator : SetOperator) :
    (combine members operand operator).run.run store = (.ok (combined members elements operator), store) := by
  cases operator with
  | union =>
    unfold combine
    rw [run_bind_of_ok parts,
      run_bind_of_ok (run_mapM_hashable fun element listed => (keys element listed).hashable)]
    rfl
  | inter =>
    unfold combine
    rw [run_bind_of_ok parts, run_bind_of_ok (run_common keys)]
    rfl
  | diff | symmDiff =>
    unfold combine
    rw [run_bind_of_ok (run_operandMembers parts keys)]
    rfl

theorem run_combineReflected (operator : SetOperator) :
    (combineReflected members operand operator).run.run store =
      (.ok (combinedReflected members elements operator), store) := by
  cases operator with
  | diff =>
    unfold combineReflected
    rw [run_bind_of_ok (run_operandMembers parts keys)]
    rfl
  | union => exact run_combine parts keys .union
  | inter => exact run_combine parts keys .inter
  | symmDiff => exact run_combine parts keys .symmDiff

end operand

/-- Adding elements one after the other leaves the set with all of them, written back at every step. -/
theorem run_addAll (found : store.read? identity = some (.set kind members))
    (keys : ∀ element ∈ elements, element.IsKey) :
    (addAll identity kind members (elements.map .value)).run.run store =
      (.ok (insertAll Value.same elements members),
        store.write identity (.set kind (insertAll Value.same elements members))) := by
  induction elements generalizing store members with
  | nil => exact congrArg (Prod.mk _) (Store.write_of_read? found).symm
  | cons element elements ih =>
    obtain ⟨here, later⟩ := List.forall_mem_cons.mp keys
    rw [List.map_cons, addAll, run_bind_hashable here.hashable, run_bind_write,
      ih (Store.read?_write_self found _) later, Store.write_write]
    rfl

theorem run_discardAll (found : store.read? identity = some (.set kind members))
    (keys : ∀ element ∈ elements, element.IsKey) :
    (discardAll identity kind members (elements.map .value)).run.run store =
      (.ok (elements.foldl (fun members element => erase Value.same element members) members),
        store.write identity (.set kind
          (elements.foldl (fun members element => erase Value.same element members) members))) := by
  induction elements generalizing store members with
  | nil => exact congrArg (Prod.mk _) (Store.write_of_read? found).symm
  | cons element elements ih =>
    obtain ⟨here, later⟩ := List.forall_mem_cons.mp keys
    rw [List.map_cons, discardAll, run_bind_soughtMember here.hashable, run_bind_write,
      ih (Store.read?_write_self found _) later, Store.write_write]
    rfl

section changing

variable (found : store.read? identity = some (.set kind members))
  (distinct : Distinct Value.same Value.IsKey members)
  (parts : (Step.elements operand).run.run store = (.ok (elements.map .value), store))
  (keys : ∀ element ∈ elements, element.IsKey)

include found distinct parts keys

/-- Discarding the elements of an operand leaves the members that are none of them. -/
theorem run_discardElements :
    ∃ result, (do
        let _ ← discardAll identity kind members (← Step.elements operand)
        : Step Unit).run.run store = (.ok (), store.write identity (.set kind result)) ∧
      IsSetOf result fun element => Among Value.same members element ∧ ¬ Among Value.same elements element := by
  obtain ⟨kept, among⟩ := eraseAll Value.equality_same distinct keys
  refine ⟨_, ?_, kept, among⟩
  rw [run_bind_of_ok parts, run_bind_of_ok (run_discardAll found keys)]
  rfl

/-- The members that a set is left with when it is changed in place are those that the operator makes. -/
theorem run_changeInPlace (operator : SetOperator) :
    ∃ result, (changeInPlace identity kind members operand operator).run.run store =
        (.ok (), store.write identity (.set kind result)) ∧
      IsSetOf result fun element =>
        operator.holds (Among Value.same members element) (Among Value.same elements element) := by
  have equality := Value.equality_same
  cases operator with
  | union =>
    refine ⟨_, ?_, isSetOf_combined distinct keys .union⟩
    unfold changeInPlace
    rw [run_bind_of_ok parts, run_bind_of_ok (run_addAll found keys)]
    rfl
  | inter =>
    refine ⟨diff Value.same members (diff Value.same members (ofList Value.same elements)), ?_,
      distinct.filter _, fun element here => ?_⟩
    · unfold changeInPlace
      rw [run_bind_of_ok (run_operandMembers parts keys)]
      rfl
    · rw [among_diff equality distinct.each here, among_diff equality distinct.each here,
        among_ofList equality keys, not_and_not_right]
      exact and_congr_right fun among => ⟨fun implied => implied among, fun other _ => other⟩
  | diff =>
    obtain ⟨result, run, fine⟩ := run_discardElements found distinct parts keys
    cases operand with
    | value value => exact ⟨result, run, fine⟩
    | object other =>
      by_cases same : other = identity
      · subst same
        -- the set is its own operand, and is cleared
        obtain rfl : elements = members := by
          unfold Step.elements at parts
          rw [run_bind_cell found] at parts
          have own := Except.ok.inj (Prod.mk.inj parts).1
          exact (List.map_injective_iff.mpr (fun _ _ => Item.value.inj) own).symm
        refine ⟨[], ?_, .nil, fun element _ => ?_⟩
        · exact congrArg (fun step : Step Unit => step.run.run store) (if_pos (beq_self_eq_true other))
        · exact ⟨fun among => absurd among not_among_nil, fun among => absurd among.1 among.2⟩
      · have differ : ¬ (other == identity) = true := fun equal => same (eq_of_beq equal)
        exact ⟨result, (congrArg (fun step : Step Unit => step.run.run store) (if_neg differ)).trans run, fine⟩
  | symmDiff =>
    obtain ⟨kept, among⟩ := toggleAll equality distinct (Distinct.ofList Value.same keys)
    refine ⟨_, ?_, kept, fun element here => (among element here).trans ?_⟩
    · unfold changeInPlace
      dsimp only
      split
      · cases (Prod.mk.inj parts).1
      · rw [run_bind_of_ok (run_operandMembers parts keys)]
        rfl
    · rw [among_ofList equality keys]
      rfl

end changing

/-- The comparisons of sets are inclusions, strict ones where the other set is not included in turn. -/
theorem compare_iff {others : List Value} (distinct : Distinct Value.same Value.IsKey members)
    (distinct' : Distinct Value.same Value.IsKey others) :
    (compare members others .lessEqual = true ↔ Inside Value.same Value.IsKey members others) ∧
    (compare members others .less = true ↔ Inside Value.same Value.IsKey members others ∧
      ¬ Inside Value.same Value.IsKey others members) ∧
    (compare members others .equal = true ↔ Inside Value.same Value.IsKey members others ∧
      Inside Value.same Value.IsKey others members) := by
  have equality := Value.equality_same
  have length (inside : Inside Value.same Value.IsKey members others) :=
    inside.length_le equality distinct distinct'
  have length' (inside : Inside Value.same Value.IsKey others members) :=
    inside.length_le equality distinct' distinct
  simp only [compare, Bool.and_eq_true, decide_eq_true_eq, beq_iff_eq, subset_iff equality distinct.each]
  refine ⟨⟨And.right, fun inside => ⟨length inside, inside⟩⟩, ?_, ?_⟩
  · constructor
    · exact fun ⟨shorter, inside⟩ => ⟨inside, fun back => Nat.not_le_of_lt shorter (length' back)⟩
    · rintro ⟨inside, outside⟩
      refine ⟨Nat.lt_of_not_le fun longer => ?_, inside⟩
      exact outside (inside.symm equality distinct distinct' longer)
  · constructor
    · exact fun ⟨same, inside⟩ => ⟨inside, inside.symm equality distinct distinct' (Nat.le_of_eq same.symm)⟩
    · exact fun ⟨inside, back⟩ => ⟨Nat.le_antisymm (length inside) (length' back), inside⟩

end SetCall

namespace Store

open Members

/-- No set has a member twice. -/
def SetsDistinct (store : Store) : Prop :=
  ∀ identity kind members, store.read? identity = some (.set kind members) →
    Distinct Value.same Value.IsKey members

/-- A call makes a new concurrent set, to which exactly the keys of some kind belong, and changes nothing. -/
def MakesSet (store : Store) (step : Step Outcome) (belongs : Value → Prop) : Prop :=
  ∃ members, IsSetOf members belongs ∧
    step.run.run store =
      (.ok (.item (.object store.cells.length)), store.alloc (.set .concurrent members))

/-- A call answers the set that it is made on, which has exactly the keys of some kind for members then, and
changes nothing else. -/
def BecomesSet (store : Store) (identity : Identity) (step : Step Outcome) (belongs : Value → Prop) : Prop :=
  ∃ members, IsSetOf members belongs ∧
    step.run.run store = (.ok .self, store.write identity (.set .concurrent members))

end Store

namespace SetCall

open Members

variable {store : Store} {identity : Identity} {members elements : List Value} {operand : Item}

/-- The comparisons of a set with another one are the inclusions. -/
structure Comparisons (store : Store) (identity : Identity) (members : List Value) (operand : Item)
    (elements : List Value) : Prop where
  lessEqual : store.Decides (call (.object identity) .lessEqual [.item operand])
    (Inside Value.same Value.IsKey members elements)
  less : store.Decides (call (.object identity) .less [.item operand])
    (Inside Value.same Value.IsKey members elements ∧ ¬ Inside Value.same Value.IsKey elements members)
  greaterEqual : store.Decides (call (.object identity) .greaterEqual [.item operand])
    (Inside Value.same Value.IsKey elements members)
  greater : store.Decides (call (.object identity) .greater [.item operand])
    (Inside Value.same Value.IsKey elements members ∧ ¬ Inside Value.same Value.IsKey members elements)
  equal : store.Decides (call (.object identity) .equal [.item operand])
    (Inside Value.same Value.IsKey members elements ∧ Inside Value.same Value.IsKey elements members)

/-- What the operators of a set answer, in terms of what is among its members and among the elements of an
operand. A set has no element in common with the operand exactly where their intersection is made empty. -/
structure Laws (store : Store) (identity : Identity) (members : List Value) (operand : Item)
    (elements : List Value) : Prop where
  operators : ∀ operator, store.MakesSet (operate operator (.item (.object identity)) operand)
    fun key => SetOperator.holds operator (Among Value.same members key) (Among Value.same elements key)
  reflected : ∀ operator, store.MakesSet (operate operator (.item operand) (.object identity))
    fun key => SetOperator.holds operator (Among Value.same elements key) (Among Value.same members key)
  inPlace : ∀ operator, store.BecomesSet identity (call (.object identity) (.inPlace operator) [.item operand])
    fun key => SetOperator.holds operator (Among Value.same members key) (Among Value.same elements key)
  disjoint : ∃ shared,
    (operate .inter (.item (.object identity)) operand).run.run store =
      (.ok (.item (.object store.cells.length)), store.alloc (.set .concurrent shared)) ∧
    store.Decides (call (.object identity) .isDisjoint [.item operand]) (shared = [])
  comparisons : (isSet operand).run.run store = (.ok true, store) →
    Comparisons store identity members operand elements

section calls

variable (found : store.read? identity = some (.set .concurrent members))
  (parts : (Step.elements operand).run.run store = (.ok (elements.map .value), store))
  (keys : ∀ element ∈ elements, element.IsKey)

include found parts keys

theorem run_operator (operator : SetOperator) :
    (call (.object identity) (.operator operator) [.item operand]).run.run store =
      (.ok (.item (.object store.cells.length)),
        store.alloc (.set .concurrent (combined members elements operator))) := by
  rw [run_call (.operator operator) found nofun]
  change (isIterable operand >>= _).run.run store = _
  rw [run_bind_of_ok (run_isIterable parts), if_pos rfl, run_bind_of_ok (run_combine parts keys operator)]
  rfl

theorem run_reflected (operator : SetOperator) :
    (call (.object identity) (.reflected operator) [.item operand]).run.run store =
      (.ok (.item (.object store.cells.length)),
        store.alloc (.set .concurrent (combinedReflected members elements operator))) := by
  rw [run_call (.reflected operator) found nofun]
  change (isIterable operand >>= _).run.run store = _
  rw [run_bind_of_ok (run_isIterable parts), if_pos rfl,
    run_bind_of_ok (run_combineReflected parts keys operator)]
  rfl

theorem run_operate_left (operator : SetOperator) :
    (operate operator (.item (.object identity)) operand).run.run store =
      (.ok (.item (.object store.cells.length)),
        store.alloc (.set .concurrent (combined members elements operator))) := by
  have concurrent : (isConcurrent (.object identity)).run.run store = (.ok true, store) := by
    unfold isConcurrent
    rw [run_bind_cell found]
    rfl
  unfold operate
  dsimp only
  rw [run_bind_of_ok concurrent, if_pos rfl, run_bind_of_ok (run_operator found parts keys operator)]
  rfl

theorem run_operate_right (operator : SetOperator)
    (other : (isConcurrent operand).run.run store = (.ok false, store)) :
    (operate operator (.item operand) (.object identity)).run.run store =
      (.ok (.item (.object store.cells.length)),
        store.alloc (.set .concurrent (combinedReflected members elements operator))) := by
  unfold operate
  dsimp only
  rw [run_bind_of_ok other, if_neg Bool.false_ne_true,
    run_bind_of_ok (run_reflected found parts keys operator)]
  rfl

theorem run_isDisjoint :
    (call (.object identity) .isDisjoint [.item operand]).run.run store =
      (.ok (.flag (combined members elements .inter).isEmpty), store) := by
  rw [run_call .isDisjoint found nofun]
  change (Step.elements operand >>= _).run.run store = _
  rw [run_bind_of_ok parts, run_bind_of_ok (run_disjoint keys)]
  rfl

theorem run_comparison (set : (isSet operand).run.run store = (.ok true, store)) {method : Method}
    (comparing : method ∈ [.less, .lessEqual, .greater, .greaterEqual, .equal]) :
    (call (.object identity) method [.item operand]).run.run store =
      (.ok (.flag (compare members (ofList Value.same elements) method)), store) := by
  have answer : ((do
      if ← isSet operand then
        return Outcome.flag (compare members (← operandMembers operand) method)
      else return .notImplemented) : Step Outcome).run.run store =
        (.ok (.flag (compare members (ofList Value.same elements) method)), store) := by
    rw [run_bind_of_ok set, if_pos rfl, run_bind_of_ok (run_operandMembers parts keys)]
    rfl
  have other : method ≠ .display := by
    rintro rfl
    simp at comparing
  rw [run_call method found other]
  simp only [List.mem_cons, List.not_mem_nil, or_false] at comparing
  rcases comparing with rfl | rfl | rfl | rfl | rfl
  all_goals exact answer

end calls

/-- An operand that can be iterated over is a concurrent set or leaves the answer to one. -/
theorem isConcurrent_cases (parts : (Step.elements operand).run.run store = (.ok (elements.map .value), store)) :
    (∃ other, operand = .object other ∧ store.read? other = some (.set .concurrent elements)) ∨
      (isConcurrent operand).run.run store = (.ok false, store) := by
  cases operand with
  | value value => exact .inr rfl
  | object other =>
    obtain ⟨content, found, -⟩ := of_run_elements parts
    unfold isConcurrent
    rw [run_bind_cell found]
    cases content with
    | set kind members =>
      cases kind with
      | concurrent =>
        unfold Step.elements at parts
        rw [run_bind_cell found] at parts
        have own := Except.ok.inj (Prod.mk.inj parts).1
        obtain rfl : members = elements := List.map_injective_iff.mpr (fun _ _ => Item.value.inj) own
        exact .inl ⟨other, rfl, found⟩
      | _ => exact .inr rfl
    | _ => exact .inr rfl

/-- An operator between an operand and a set makes a new set: the operand's own answer if it is a concurrent
set too, and the answer of the set otherwise. -/
theorem makesSet_reflected (found : store.read? identity = some (.set .concurrent members))
    (sets : store.SetsDistinct)
    (parts : (Step.elements operand).run.run store = (.ok (elements.map .value), store))
    (keys : ∀ element ∈ elements, element.IsKey) (operator : SetOperator) :
    store.MakesSet (operate operator (.item operand) (.object identity)) fun key =>
      operator.holds (Among Value.same elements key) (Among Value.same members key) := by
  have distinct := sets identity .concurrent members found
  rcases isConcurrent_cases parts with ⟨other, rfl, own⟩ | other
  · have others := sets other .concurrent elements own
    have back : (Step.elements (.object identity)).run.run store = (.ok (members.map .value), store) := by
      unfold Step.elements
      rw [run_bind_cell found]
      rfl
    exact ⟨_, isSetOf_combined others distinct.each operator, run_operate_left own back distinct.each operator⟩
  · exact ⟨_, isSetOf_combinedReflected distinct keys operator,
      run_operate_right found parts keys operator other⟩

/-- The algebra of concurrent sets. The operators make new sets from either side, the in-place forms change
the set itself, and all of them agree with one account of membership, by identity or equality, for any
operand with elements that can be members; set operands are compared by inclusion. -/
theorem set_laws (found : store.read? identity = some (.set .concurrent members))
    (sets : store.SetsDistinct)
    (parts : (Step.elements operand).run.run store = (.ok (elements.map .value), store))
    (keys : ∀ element ∈ elements, element.IsKey) : Laws store identity members operand elements where
  operators := fun operator =>
    ⟨_, isSetOf_combined (sets identity .concurrent members found) keys operator,
      run_operate_left found parts keys operator⟩
  reflected := makesSet_reflected found sets parts keys
  inPlace := by
    intro operator
    obtain ⟨result, run, fine⟩ :=
      run_changeInPlace found (sets identity .concurrent members found) parts keys operator
    refine ⟨result, fine, ?_⟩
    rw [run_call (.inPlace operator) found nofun]
    change (changeInPlace identity .concurrent members operand operator >>= _).run.run store = _
    rw [run_bind_of_ok run]
    rfl
  disjoint := ⟨_, run_operate_left found parts keys .inter, _, run_isDisjoint found parts keys, List.isEmpty_iff⟩
  comparisons := by
    intro set
    have distinct := sets identity .concurrent members found
    have distinct' := Distinct.ofList Value.same keys
    have among (key : Value) : Among Value.same (ofList Value.same elements) key ↔
        Among Value.same elements key := among_ofList Value.equality_same keys
    have inside : Inside Value.same Value.IsKey members (ofList Value.same elements) ↔
        Inside Value.same Value.IsKey members elements := by
      simp only [Inside, among]
    have outside : Inside Value.same Value.IsKey (ofList Value.same elements) members ↔
        Inside Value.same Value.IsKey elements members := by
      simp only [Inside, among]
    obtain ⟨lessEqual, less, equal⟩ := compare_iff distinct distinct'
    obtain ⟨greaterEqual, greater, -⟩ := compare_iff distinct' distinct
    rw [inside] at lessEqual
    rw [inside, outside] at less equal
    rw [outside] at greaterEqual
    rw [inside, outside] at greater
    exact {
      lessEqual := ⟨_, run_comparison found parts keys set (by simp), lessEqual⟩
      less := ⟨_, run_comparison found parts keys set (by simp), less⟩
      greaterEqual := ⟨_, run_comparison found parts keys set (by simp), greaterEqual⟩
      greater := ⟨_, run_comparison found parts keys set (by simp), greater⟩
      equal := ⟨_, run_comparison found parts keys set (by simp), equal⟩ }

/-- A set with one and a text, and a list with what equals one and another text, twice. -/
def truthValues : Store :=
  ⟨[.set .concurrent [.int 1, .str "a"],
    .seq .list [.value (.bool true), .value (.str "b"), .value (.str "b")]]⟩

theorem set_laws_truth_values :
    Laws truthValues 0 [.int 1, .str "a"] (.object 1) [.bool true, .str "b", .str "b"] := by
  have sets : truthValues.SetsDistinct := by
    intro identity kind members found
    rcases identity with _ | _ | identity
    · cases found
      exact ⟨by decide, by simp [Value.same, Value.alike, Scalar.alike, Scalar.key]⟩
    · cases found
    · cases found
  exact set_laws rfl sets rfl (by decide)

/-- A set with a result that is not a number, and a dictionary with one entry. -/
def oddOperands : Store :=
  ⟨[.set .concurrent [.scalar (.float (.notANumber 0))], .dict .concurrent [(.str "a", .value .null)]]⟩

/-- What a set has in common with itself may equal none of its members, and an operator on a view of keys and
a set makes a set that is not concurrent. -/
theorem odd_operands_break_laws :
    ((operate .inter (.item (.object 0)) (.object 0)).run.run oddOperands =
        (.ok (.item (.object 2)), oddOperands.alloc (.set .concurrent [.scalar (.float (.notANumber 0))])) ∧
      (Value.scalar (.float (.notANumber 0))).eqv (.scalar (.float (.notANumber 0))) = false) ∧
    (operate .union (.keys 1) (.object 0)).run.run oddOperands =
      (.ok (.item (.object 2)),
        oddOperands.alloc (.set .plain [.str "a", .scalar (.float (.notANumber 0))])) := by
  have itself : Value.same (.scalar (.float (.notANumber 0))) (.scalar (.float (.notANumber 0))) = true := by
    decide +kernel
  have apart : Value.same (.str "a") (.scalar (.float (.notANumber 0))) = false := by decide +kernel
  have shared : combined [.scalar (.float (.notANumber 0))] [.scalar (.float (.notANumber 0))] .inter =
      [.scalar (.float (.notANumber 0))] := by
    simp [combined, inter, ofList, insertAll, Members.insert, contains, itself]
  have united : insertAll Value.same [.scalar (.float (.notANumber 0))] [.str "a"] =
      [.str "a", .scalar (.float (.notANumber 0))] := by
    simp [insertAll, Members.insert, contains, apart]
  refine ⟨⟨?_, by decide +kernel⟩, ?_⟩
  · rw [← shared]
    exact run_operate_left rfl rfl (by decide) .inter
  · rw [← united]
    rfl

end SetCall

end LayeredConfig
