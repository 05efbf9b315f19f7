import LayeredConfig.Proofs.Store.Intact

namespace LayeredConfig

open Step

variable {identity : Identity} {arguments : List Argument}

namespace SequenceCall

variable {items : List Item}

theorem looks_setItem (items : List Item) (arguments : List Argument) : Looks (setItem items arguments) := by
  unfold setItem
  split
  · refine (looks_whole _).bind fun number => ?_
    split
    · exact looks_pure _
    · exact looks_fail .position
  · refine (looks_slice _ _ _).bind fun slice => ?_
    split
    · exact looks_fail .content
    · refine (looks_elements _).bind fun added => ?_
      split
      · exact looks_pure _
      · exact looks_fail .content
  · exact looks_fail .kind

theorem looks_deleteItem (items : List Item) (arguments : List Argument) :
    Looks (deleteItem items arguments) := by
  unfold deleteItem
  split
  · refine (looks_whole _).bind fun number => ?_
    split
    · exact looks_pure _
    · exact looks_fail .position
  · refine (looks_slice _ _ _).bind fun slice => ?_
    split
    · exact looks_pure _
    · exact looks_fail .content
  · exact looks_fail .kind

theorem expands_getItem (kind : SeqKind) (items : List Item) (arguments : List Argument) :
    Expands (getItem kind items arguments) := by
  unfold getItem
  split
  · refine Looks.expands ((looks_whole _).bind fun number => ?_)
    split
    · exact looks_pure _
    · exact looks_fail .position
  · refine (looks_slice _ _ _).expands.bind fun slice => ?_
    split
    · exact (expands_alloc _).bind fun _ => (looks_pure _).expands
    · exact (looks_fail .content).expands
  · exact (looks_fail .kind).expands

theorem looks_remove (items : List Item) (value : Item) : Looks (remove items value) := by
  refine looks_get.bind fun store => ?_
  split
  · exact looks_pure _
  · exact looks_fail .content

theorem looks_pop (items : List Item) (index : Int) : Looks (pop items index) := by
  unfold pop
  split
  · split
    · exact looks_pure _
    · exact looks_fail .position
  · exact looks_fail .position

theorem looks_index (items : List Item) (value lower : Item) (stop : Option Item) :
    Looks (index items value lower stop) := by
  refine (looks_whole lower).bind fun start => ?_
  extract_lets length first search
  have looks (bound : Option Int) : Looks (search bound) := by
    refine looks_get.bind fun store => ?_
    split
    · exact looks_pure _
    · exact looks_fail .content
  cases stop with
  | some stop => exact (looks_wholeOrNull stop).bind looks
  | none => exact looks none

theorem looks_kindOf (item : Item) : Looks (kindOf item) := by
  unfold kindOf
  split
  · exact looks_pure _
  · exact looks_pure _
  · refine (looks_cell _).bind fun content => ?_
    split
    · exact looks_pure _
    · exact looks_pure _

theorem looks_equal (kind : SeqKind) (identity : Identity) (other : Item) :
    Looks (equal kind identity other) := by
  refine (looks_kindOf other).bind fun found => ?_
  split
  · split
    · exact (looks_valueOf _).bind fun _ => (looks_valueOf _).bind fun _ => looks_pure _
    · exact looks_pure _
  · exact looks_pure _

/-- A call on a sequence works on its items before it writes them back. -/
theorem intact_run (kind : SeqKind) (items : List Item) (method : Method) (arguments : List Argument) :
    Intact (run identity kind items method arguments) := by
  have replaced (items : List Item) : Settles (do write identity (.seq kind items); return Outcome.nothing) :=
    (sure_write identity _).settles fun _ => settles_pure (by simp)
  have answered (items : List Item) {answer : Outcome} (given : answer ≠ .notImplemented) : Settles (do
      let _ ← (do write identity (.seq kind items); return Outcome.nothing : Step Outcome)
      return answer) :=
    ((sure_write identity _).bind fun _ => sure_pure _).settles fun _ => settles_pure given
  cases method with
  | append => exact intact_withOne fun _ => (replaced _).intact
  | extend => exact intact_withOne fun values => (looks_elements values).andThen fun _ => (replaced _).intact
  | concatenateInPlace =>
    refine intact_withOne fun values => (looks_elements values).andThen fun _ => ?_
    exact (answered _ (by simp)).intact
  | insert =>
    exact intact_withTwo fun index _ => (looks_placeNumber index).andThen fun _ => (replaced _).intact
  | pop =>
    unfold run
    dsimp only
    split
    · exact (looks_pop items (-1)).andThen fun _ => (answered _ (by simp)).intact
    · exact (looks_placeNumber _).andThen fun index =>
        (looks_pop items index).andThen fun _ => (answered _ (by simp)).intact
    · exact (looks_fail .kind).intact
  | remove => exact intact_withOne fun value => (looks_remove items value).andThen fun _ => (replaced _).intact
  | reverse => exact intact_withNone (replaced _).intact
  | clear => exact intact_withNone (replaced _).intact
  | index =>
    unfold run
    dsimp only
    split
    · exact (looks_index _ _ _ _).intact
    · exact (looks_index _ _ _ _).intact
    · exact (looks_index _ _ _ _).intact
    · exact (looks_fail .kind).intact
  | count => exact intact_withOne fun _ => (looks_get.bind fun _ => looks_pure _).intact
  | snapshot =>
    unfold run
    dsimp only
    split
    · exact intact_withNone ((expands_alloc _).map _).intact
    · exact (looks_fail .method).intact
  | getItem => exact (expands_getItem kind items arguments).intact
  | setItem => exact (looks_setItem items arguments).andThen fun _ => (replaced _).intact
  | deleteItem => exact (looks_deleteItem items arguments).andThen fun _ => (replaced _).intact
  | contains => exact intact_withOne fun _ => (looks_get.bind fun _ => looks_pure _).intact
  | length => exact intact_withNone (looks_pure _).intact
  | iterate => exact intact_withNone (Traversal.expands_items (Traversal.looks_ofObject identity)).intact
  | reversed => exact intact_withNone (Traversal.expands_items (Traversal.looks_reversed identity)).intact
  | equal => exact intact_withOne fun other => (looks_equal kind identity other).intact
  | less | lessEqual | greater | greaterEqual => exact intact_withOne fun _ => (looks_pure _).intact
  | _ => exact (looks_fail .method).intact

end SequenceCall

namespace DictCall

variable {kind : DictKind} {content : Content}

theorem looks_sameItem (a b : Item) : Looks (sameItem a b) := by
  have values : Looks (do return (← valueOf a).same (← valueOf b)) :=
    (looks_valueOf a).bind fun _ => (looks_valueOf b).bind fun _ => looks_pure _
  unfold sameItem
  split
  · split
    · exact looks_pure _
    · exact values
  · exact values

theorem looks_sameWithin (others entries : Content) : Looks (sameWithin others entries) := by
  induction entries with
  | nil => exact looks_pure _
  | cons entry entries ih =>
    unfold sameWithin
    split
    · refine (looks_sameItem _ _).bind fun same => ?_
      split
      · exact ih
      · exact looks_pure _
    · exact looks_pure _

theorem looks_equal (content : Content) (other : Item) : Looks (equal content other) := by
  unfold equal
  split
  · refine (looks_cell _).bind fun cell => ?_
    split
    · split
      · exact (looks_sameWithin _ _).bind fun _ => looks_pure _
      · exact looks_pure _
    · exact looks_pure _
  · exact looks_pure _

theorem looks_find (key : Item) (content : Content) :
    Looks (do return Entries.find? Value.same (← hashable key) content) :=
  (looks_hashable key).bind fun _ => looks_pure _

theorem intact_pop (key : Item) (default : Option Item) :
    Intact (pop identity kind content key default) := by
  unfold pop
  extract_lets missing
  have looks : Looks missing := by
    unfold missing
    split
    · exact looks_pure _
    · exact looks_fail .absent
  split
  · exact looks.intact
  · refine (looks_hashable key).andThen fun key => ?_
    split
    · exact ((sure_write identity _).settles fun _ => settles_pure (by simp)).intact
    · exact looks.intact

/-- A call on a dictionary finds its key before it writes. Only an update writes more than once. -/
theorem intact_run {method : Method} (once : method ≠ .update) :
    Intact (run identity kind content method arguments) := by
  have replaced (content : Content) : Settles (do write identity (.dict kind content); return Outcome.nothing) :=
    (sure_write identity _).settles fun _ => settles_pure (by simp)
  have written (content : Content) : Sure (do write identity (.dict kind content); return Outcome.nothing) :=
    (sure_write identity _).bind fun _ => sure_pure _
  cases method with
  | getItem =>
    refine intact_withOne fun key => Looks.intact ((looks_find key content).bind fun found => ?_)
    split
    · exact looks_pure _
    · exact looks_fail .absent
  | setItem => exact intact_withTwo fun key _ => (looks_hashable key).andThen fun _ => (replaced _).intact
  | deleteItem =>
    refine intact_withOne fun key => (looks_find key content).andThen fun found => ?_
    split
    · exact (looks_hashable key).andThen fun _ => (replaced _).intact
    · exact (looks_fail .absent).intact
  | contains => exact intact_withOne fun key => ((looks_find key content).bind fun _ => looks_pure _).intact
  | length => exact intact_withNone (looks_pure _).intact
  | get =>
    unfold run
    dsimp only
    split
    · exact ((looks_find _ content).bind fun _ => looks_pure _).intact
    · exact ((looks_find _ content).bind fun _ => looks_pure _).intact
    · exact (looks_fail .kind).intact
  | setDefault =>
    unfold run
    dsimp only
    split
    case h_3 => exact (looks_fail .kind).intact
    all_goals
      refine (looks_find _ content).andThen fun found => ?_
      split
      · exact (looks_pure _).intact
      · exact (looks_hashable _).andThen fun _ => ((written _).settles fun _ => settles_pure (by simp)).intact
  | pop =>
    unfold run
    dsimp only
    split
    · exact intact_pop _ _
    · exact intact_pop _ _
    · exact (looks_fail .kind).intact
  | popItem =>
    refine intact_withNone ?_
    split
    · exact ((written _).settles fun _ => (sure_tuple _).settles fun _ => settles_pure (by simp)).intact
    · exact (looks_fail .absent).intact
  | clear => exact intact_withNone (replaced _).intact
  | update => exact absurd rfl once
  | keys | iterate => exact intact_withNone (Traversal.expands_items (Traversal.looks_ofObject identity)).intact
  | values => exact intact_withNone (Traversal.expands_items (Traversal.looks_overValues identity)).intact
  | items => exact intact_withNone (Traversal.expands_items (Traversal.looks_overEntries identity)).intact
  | reversed => exact (looks_fail .kind).intact
  | snapshot =>
    unfold run
    dsimp only
    split
    · exact intact_withNone ((expands_alloc _).map _).intact
    · exact (looks_fail .method).intact
  | equal => exact intact_withOne fun other => (looks_equal content other).intact
  | less | lessEqual | greater | greaterEqual => exact intact_withOne fun _ => (looks_pure _).intact
  | _ => exact (looks_fail .method).intact

end DictCall

namespace SetCall

variable {kind : SetKind} {members : List Value}

theorem looks_isIterable (item : Item) : Looks (isIterable item) := by
  unfold isIterable
  split
  case h_6 =>
    refine (looks_cell _).bind fun content => ?_
    split
    · exact looks_pure _
    · exact looks_pure _
  all_goals exact looks_pure _

theorem looks_members (items : List Item) : Looks (items.mapM hashable) :=
  .mapM looks_hashable items

theorem looks_operandMembers (operand : Item) : Looks (operandMembers operand) :=
  (looks_elements operand).bind fun items => (looks_members items).bind fun _ => looks_pure _

theorem looks_common (members : List Value) (items : List Item) : Looks (common members items) := by
  induction items with
  | nil => exact looks_pure _
  | cons item items ih =>
    refine (looks_soughtMember item).bind fun member => ?_
    split
    · exact (looks_hashable item).bind fun _ => ih.bind fun _ => looks_pure _
    · exact ih

theorem looks_combine (members : List Value) (operand : Item) (operator : SetOperator) :
    Looks (combine members operand operator) := by
  cases operator with
  | union =>
    exact (looks_elements operand).bind fun items => (looks_members items).bind fun _ => looks_pure _
  | inter =>
    exact (looks_elements operand).bind fun items => (looks_common members items).bind fun _ => looks_pure _
  | diff | symmDiff => exact (looks_operandMembers operand).bind fun _ => looks_pure _

theorem looks_combineReflected (members : List Value) (operand : Item) (operator : SetOperator) :
    Looks (combineReflected members operand operator) := by
  cases operator with
  | diff => exact (looks_operandMembers operand).bind fun _ => looks_pure _
  | union | inter | symmDiff => exact looks_combine members operand _

theorem looks_disjoint (members : List Value) (items : List Item) : Looks (disjoint members items) := by
  induction items with
  | nil => exact looks_pure _
  | cons item items ih =>
    refine (looks_soughtMember item).bind fun member => ?_
    split
    · exact looks_pure _
    · exact ih

/-- An intersection and a symmetric difference have all elements of the operand before they write. -/
theorem intact_changeInPlace {operator : SetOperator} (whole : operator = .inter ∨ operator = .symmDiff)
    (operand : Item) : Intact (do changeInPlace identity kind members operand operator; return Outcome.self) := by
  have written (members : List Value) : Settles (do write identity (.set kind members); return Outcome.self) :=
    (sure_write identity _).settles fun _ => settles_pure (by simp)
  rcases whole with rfl | rfl
  · unfold changeInPlace
    rw [bind_assoc]
    exact (looks_operandMembers operand).andThen fun _ => (written _).intact
  · unfold changeInPlace
    dsimp only
    split
    · exact (written _).intact
    · rw [bind_assoc]
      exact (looks_operandMembers operand).andThen fun _ => (written _).intact

/-- A call on a set reads its argument before it writes. Only a union and a difference in place may write more
than once. -/
theorem intact_run {method : Method} (union : method ≠ .inPlace .union) (diff : method ≠ .inPlace .diff) :
    Intact (run identity kind members method arguments) := by
  have replaced (members : List Value) : Settles (do write identity (.set kind members); return Outcome.nothing) :=
    (sure_write identity _).settles fun _ => settles_pure (by simp)
  have made {combined : Step (List Value)} (looks : Looks combined) :
      Intact (do return Outcome.item (← alloc (.set kind (← combined)))) :=
    looks.andThen fun _ => ((sure_alloc _).settles fun _ => settles_pure (by simp)).intact
  have compared (method : Method) : Intact (withOne arguments fun operand => do
      if ← isSet operand then return Outcome.flag (compare members (← operandMembers operand) method)
      else return .notImplemented) := by
    refine intact_withOne fun operand => Looks.intact ((looks_isSet operand).bind fun set => ?_)
    split
    · exact (looks_operandMembers operand).bind fun _ => looks_pure _
    · exact looks_pure _
  cases method with
  | add => exact intact_withOne fun item => (looks_hashable item).andThen fun _ => (replaced _).intact
  | discard => exact intact_withOne fun item => (looks_soughtMember item).andThen fun _ => (replaced _).intact
  | remove =>
    refine intact_withOne fun item => (looks_soughtMember item).andThen fun member => ?_
    split
    · exact (replaced _).intact
    · exact (looks_fail .absent).intact
  | pop =>
    refine intact_withNone ?_
    split
    · exact (((sure_write identity _).bind fun _ => sure_pure _).settles fun _ => settles_pure (by simp)).intact
    · exact (looks_fail .absent).intact
  | clear => exact intact_withNone (replaced _).intact
  | contains => exact intact_withOne fun item => ((looks_soughtMember item).bind fun _ => looks_pure _).intact
  | length => exact intact_withNone (looks_pure _).intact
  | iterate => exact intact_withNone (Traversal.expands_items (Traversal.looks_ofObject identity)).intact
  | isDisjoint =>
    refine intact_withOne fun operand => Looks.intact ((looks_elements operand).bind fun items => ?_)
    exact (looks_disjoint members items).bind fun _ => looks_pure _
  | snapshot =>
    unfold run
    dsimp only
    split
    · exact intact_withNone ((expands_alloc _).map _).intact
    · exact (looks_fail .method).intact
  | operator operator =>
    refine intact_withOne fun operand => (looks_isIterable operand).andThen fun iterable => ?_
    split
    · exact made (looks_combine members operand operator)
    · exact (looks_pure _).intact
  | reflected operator =>
    refine intact_withOne fun operand => (looks_isIterable operand).andThen fun iterable => ?_
    split
    · exact made (looks_combineReflected members operand operator)
    · exact (looks_pure _).intact
  | inPlace operator =>
    refine intact_withOne fun operand => ?_
    cases operator with
    | union => exact absurd rfl union
    | diff => exact absurd rfl diff
    | inter => exact intact_changeInPlace (.inl rfl) operand
    | symmDiff => exact intact_changeInPlace (.inr rfl) operand
  | less | lessEqual | greater | greaterEqual | equal => exact compared _
  | _ => exact (looks_fail .method).intact

end SetCall

end LayeredConfig
