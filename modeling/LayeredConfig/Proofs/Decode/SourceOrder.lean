import LayeredConfig.Proofs.Decode.Acceptance

/-!
The nodes that are held against a shape, each with its place in the source. A walk looks at them in the
order of their places: a node before its parts, and of two parts everything in the earlier one first.
-/

namespace LayeredConfig

/-- The walk over a node under a shape meets a node for another shape, after a trail, at a place. The place
says which of the parts is taken at each step; a key stands before its value and has no hop of its own. -/
inductive Meets : Shape → Tree → Trail → List Nat → Shape → Tree → Prop
  | here : Meets shape node [] [] shape node
  | setting {settings : List (Setting Shape)} {entries : List (Scalar × Tree)} {known : Setting Shape}
      (entry : entries[index]? = some (key, child))
      (found : settings.find? (·.name == key.text) = some known)
      (deeper : Meets known.shape child trail place shape node) :
      Meets (.document type settings) (.map mark entries) (.key key.text :: trail) (index :: place) shape node
  | item {items : List Tree} (found : items[index]? = some child)
      (deeper : Meets element child trail place shape node) :
      Meets (.list element) (.seq mark items) (.position index :: trail) (index :: place) shape node
  | member {items : List Tree} (parts : Decode.parts? whole = some items)
      (found : items[index]? = some child) (deeper : Meets element child trail place shape node) :
      Meets (.set element) whole (.position index :: trail) (index :: place) shape node
  | key {entries : List (Scalar × Tree)} (entry : entries[index]? = some (key, child))
      (deeper : Meets keyShape (.scalar key) trail place shape node) :
      Meets (.map keyShape valueShape) (.map mark entries) trail (2 * index :: place) shape node
  | value {entries : List (Scalar × Tree)} (entry : entries[index]? = some (key, child))
      (deeper : Meets valueShape child trail place shape node) :
      Meets (.map keyShape valueShape) (.map mark entries) (.key key.text :: trail)
        ((2 * index + 1) :: place) shape node

/-- What is met is offered to its shape, under the path of the trail. -/
theorem Meets.offers (meets : Meets whole root trail place shape node) (start : Str) :
    Offers whole root start shape node (Trail.extend start trail) := by
  induction meets generalizing start with
  | here => exact .here
  | setting entry found deeper ih => exact .setting (List.mem_of_getElem? entry) found (ih _)
  | item found deeper ih => exact .item found (ih _)
  | member parts found deeper ih => exact .member parts found (ih _)
  | key entry deeper ih => exact .key (List.mem_of_getElem? entry) (ih _)
  | value entry deeper ih => exact .value (List.mem_of_getElem? entry) (ih _)

/-- Whether a visit looks at the form of a node. -/
def Visit.isForm : Visit → Bool
  | .form _ _ _ => true
  | _ => false

namespace Decode

/-- The visits that stand somewhere, each once, in the order of their places. -/
def Arranged (stands : List Nat → Visit → Prop) (visits : List Visit) : Prop :=
  ∃ placed : List (List Nat × Visit), placed.map (·.2) = visits ∧
    placed.Pairwise (fun a b => a.1 < b.1) ∧ ∀ place visit, (place, visit) ∈ placed ↔ stands place visit

namespace Arranged

variable {stands stands' : List Nat → Visit → Prop} {visits later : List Visit}

theorem congr (arranged : Arranged stands visits)
    (same : ∀ place visit, stands' place visit ↔ stands place visit) : Arranged stands' visits := by
  obtain ⟨placed, all, sorted, exact⟩ := arranged
  exact ⟨placed, all, sorted, fun place visit => (exact place visit).trans (same place visit).symm⟩

theorem nil (never : ∀ place visit, ¬ stands place visit) : Arranged stands [] :=
  ⟨[], rfl, .nil, fun place visit => iff_of_false List.not_mem_nil (never place visit)⟩

theorem single (visit : Visit) : Arranged (fun place here => place = [] ∧ here = visit) [visit] :=
  ⟨[([], visit)], rfl, List.pairwise_singleton _ _, fun place here => by simp⟩

theorem append (first : Arranged stands visits) (second : Arranged stands' later)
    (before : ∀ place visit place' visit', stands place visit → stands' place' visit' → place < place') :
    Arranged (fun place visit => stands place visit ∨ stands' place visit) (visits ++ later) := by
  obtain ⟨placed, rfl, sorted, exact⟩ := first
  obtain ⟨placed', rfl, sorted', exact'⟩ := second
  refine ⟨placed ++ placed', List.map_append, List.pairwise_append.mpr ⟨sorted, sorted', ?_⟩, ?_⟩
  · rintro ⟨place, visit⟩ here ⟨place', visit'⟩ there
    exact before place visit place' visit' ((exact place visit).mp here) ((exact' place' visit').mp there)
  · intro place visit
    rw [List.mem_append, exact, exact']

/-- Inside a part, all places begin with that of the part. -/
theorem under (arranged : Arranged stands visits) (index : Nat) :
    Arranged (fun place visit => ∃ rest, place = index :: rest ∧ stands rest visit) visits := by
  obtain ⟨placed, rfl, sorted, exact⟩ := arranged
  refine ⟨placed.map fun entry => (index :: entry.1, entry.2), by simp, ?_, fun place visit => ?_⟩
  · exact List.pairwise_map.mpr (sorted.imp fun less => List.cons_lt_cons_iff.mpr (.inr ⟨rfl, less⟩))
  · rw [List.mem_map]
    constructor
    · rintro ⟨⟨rest, here⟩, listed, same⟩
      obtain ⟨rfl, rfl⟩ := Prod.mk.inj same
      exact ⟨rest, rfl, (exact rest here).mp listed⟩
    · rintro ⟨rest, rfl, here⟩
      exact ⟨(rest, visit), (exact rest visit).mpr here, rfl⟩

/-- The parts of a list are arranged if each of them is, and none has a place after that of a later one. -/
theorem flatMap {α : Type} {stands : Nat → α → List Nat → Visit → Prop} {parts : Nat → α → List Visit}
    {xs : List α} (each : ∀ x ∈ xs, ∀ index, Arranged (stands index x) (parts index x))
    (order : ∀ index x place visit index' x' place' visit', index < index' →
      stands index x place visit → stands index' x' place' visit' → place < place') (index : Nat) :
    Arranged (fun place visit => ∃ offset x, xs[offset]? = some x ∧
        stands (index + offset) x place visit)
      ((xs.zipIdx index).flatMap fun x => parts x.2 x.1) := by
  induction xs generalizing index with
  | nil => exact .nil (by simp)
  | cons x xs ih =>
    obtain ⟨here, rest⟩ := List.forall_mem_cons.mp each
    rw [List.zipIdx_cons, List.flatMap_cons]
    refine ((here index).append (ih rest (index + 1)) ?_).congr fun place visit => ?_
    · rintro place visit place' visit' first ⟨offset, y, -, second⟩
      exact order _ _ _ _ _ _ _ _ (by omega) first second
    · constructor
      · rintro ⟨offset, y, found, stands⟩
        cases offset with
        | zero =>
          obtain rfl : x = y := by simpa using found
          exact .inl stands
        | succ offset => exact .inr ⟨offset, y, by simpa using found, by rwa [Nat.add_right_comm]⟩
      · rintro (stands | ⟨offset, y, found, stands⟩)
        · exact ⟨0, x, rfl, stands⟩
        · exact ⟨offset + 1, y, by simpa using found, by rwa [Nat.add_right_comm] at stands⟩

end Arranged

/-- The visits that look at the form of a node. -/
def forms (visits : List Visit) : List Visit :=
  visits.filter Visit.isForm

@[simp] theorem forms_append (visits later : List Visit) :
    forms (visits ++ later) = forms visits ++ forms later :=
  List.filter_append visits later

@[simp] theorem forms_form (shape : Shape) (path : Str) (node : Tree) (visits : List Visit) :
    forms (.form shape path node :: visits) = .form shape path node :: forms visits :=
  rfl

@[simp] theorem forms_member (shape : Shape) (node : Tree) (visits : List Visit) :
    forms (.member shape node :: visits) = forms visits :=
  rfl

@[simp] theorem forms_label (key : Scalar) (visits : List Visit) :
    forms (.label key :: visits) = forms visits :=
  rfl

@[simp] theorem forms_entry (known : Option (Setting Shape)) (path : Str) (key : Scalar) (node : Tree)
    (visits : List Visit) : forms (.entry known path key node :: visits) = forms visits :=
  rfl

section lists

variable {visit visitKey : Visitor} {shape : Shape} {path : Str}

theorem forms_itemVisits (index : Nat) (items : List Tree) :
    forms (itemVisits visit path index items) =
      (items.zipIdx index).flatMap fun item => forms (visit item.1 (element path item.2)) := by
  induction items generalizing index with
  | nil => rfl
  | cons item items ih => rw [itemVisits, forms_append, ih, List.zipIdx_cons, List.flatMap_cons]

theorem forms_memberVisits (index : Nat) (items : List Tree) :
    forms (memberVisits shape visit path index items) = forms (itemVisits visit path index items) := by
  induction items generalizing index with
  | nil => rfl
  | cons item items ih => simp [memberVisits, itemVisits, ih]

theorem forms_pairVisits (index : Nat) (entries : List (Scalar × Tree)) :
    forms (pairVisits shape visitKey visit path entries) =
      (entries.zipIdx index).flatMap fun entry => forms (visitKey (.scalar entry.1.1) path) ++
        forms (visit entry.1.2 (join path entry.1.1.text)) := by
  induction entries generalizing index with
  | nil => rfl
  | cons entry entries ih =>
    obtain ⟨key, node⟩ := entry
    simp [pairVisits, List.zipIdx_cons, ← ih (index + 1)]

theorem forms_entryVisits (settings : List (Setting Shape)) (index : Nat)
    (entries : List (Scalar × Tree)) :
    forms (entryVisits (visitors settings) path entries) =
      (entries.zipIdx index).flatMap fun entry =>
        (settings.find? (·.name == entry.1.1.text)).elim [] fun setting =>
          forms (visits setting.shape entry.1.2 (join path entry.1.1.text)) := by
  induction entries generalizing index with
  | nil => rfl
  | cons entry entries ih =>
    obtain ⟨key, node⟩ := entry
    rw [entryVisits, find?_visitors, List.zipIdx_cons, List.flatMap_cons, ← ih (index + 1)]
    cases settings.find? (·.name == key.text) <;> simp

end lists

/-- A node other than null that a walk meets at a place. -/
def Stands (shape : Shape) (node : Tree) (start : Str) (place : List Nat) (visit : Visit) : Prop :=
  ∃ inner trail part, Meets shape node trail place inner part ∧ part.isNull = false ∧
    visit = .form inner (Trail.extend start trail) part

section order

variable {shape : Shape} {node : Tree} {path : Str}

theorem stands_here :
    Stands shape node path [] visit ↔ node.isNull = false ∧ visit = .form shape path node := by
  constructor
  · rintro ⟨inner, trail, part, meets, present, rfl⟩
    cases meets
    exact ⟨present, rfl⟩
  · rintro ⟨present, rfl⟩
    exact ⟨shape, [], node, .here, present, rfl⟩

/-- A node comes before its parts. -/
theorem arranged_visiting {parts : Visitor} {inside : List Nat → Visit → Prop}
    (opens : visits shape = visiting shape parts)
    (arranged : node.isNull = false → Arranged inside (forms (parts node path)))
    (below : ∀ place visit, inside place visit ↔ place ≠ [] ∧ Stands shape node path place visit)
    (bare : node.isNull = true → ∀ place visit, place ≠ [] → ¬ Stands shape node path place visit) :
    Arranged (Stands shape node path) (forms (visits shape node path)) := by
  have cases (place : List Nat) (visit : Visit) : Stands shape node path place visit ↔
      (place = [] ∧ node.isNull = false ∧ visit = .form shape path node) ∨ inside place visit := by
    rw [below]
    by_cases root : place = []
    · subst root
      simp [stands_here]
    · simp [root]
  rw [opens, visiting]
  cases null : node.isNull with
  | true =>
    refine .nil fun place visit stands => ?_
    by_cases root : place = []
    · subst root
      simp [(stands_here.mp stands).1] at null
    · exact bare null place visit root stands
  | false =>
    refine ((Arranged.single (.form shape path node)).append (arranged null) ?_).congr fun place visit => ?_
    · rintro place visit place' visit' ⟨rfl, -⟩ deeper
      obtain ⟨first, rest, rfl⟩ := List.exists_cons_of_ne_nil ((below place' visit').mp deeper).1
      exact List.nil_lt_cons first rest
    · simp [cases, null]

theorem arranged_bare {parts : Visitor} (opens : visits shape = visiting shape parts)
    (empty : parts node path = []) (bare : ∀ trail place inner part,
      Meets shape node trail place inner part → place = []) :
    Arranged (Stands shape node path) (forms (visits shape node path)) := by
  have never (place : List Nat) (visit : Visit) (below : place ≠ []) :
      ¬ Stands shape node path place visit := by
    rintro ⟨inner, trail, part, meets, -⟩
    exact below (bare trail place inner part meets)
  have nothing : Arranged (fun _ _ => False) (forms (parts node path)) := by
    rw [empty]
    exact .nil fun _ _ => id
  refine arranged_visiting opens (fun _ => nothing) (fun place visit => ?_) fun _ => never
  exact ⟨False.elim, fun deeper => never place visit deeper.1 deeper.2⟩

theorem stands_item {element : Shape} {items : List Tree} :
    place ≠ [] ∧ Stands (.list element) (.seq mark items) path place visit ↔
      ∃ index child, items[index]? = some child ∧ ∃ rest, place = index :: rest ∧
        Stands element child (Decode.element path index) rest visit := by
  constructor
  · rintro ⟨below, inner, trail, part, meets, present, rfl⟩
    cases meets with
    | here => exact absurd rfl below
    | item found deeper => exact ⟨_, _, found, _, rfl, inner, _, part, deeper, present, rfl⟩
  · rintro ⟨index, child, found, rest, rfl, inner, trail, part, deeper, present, rfl⟩
    exact ⟨List.cons_ne_nil _ _, inner, _, part, .item found deeper, present, rfl⟩

theorem stands_member {element : Shape} {items : List Tree} (parts : parts? node = some items) :
    place ≠ [] ∧ Stands (.set element) node path place visit ↔
      ∃ index child, items[index]? = some child ∧ ∃ rest, place = index :: rest ∧
        Stands element child (Decode.element path index) rest visit := by
  constructor
  · rintro ⟨below, inner, trail, part, meets, present, rfl⟩
    cases meets with
    | here => exact absurd rfl below
    | member own found deeper =>
      obtain rfl := Option.some.inj (own.symm.trans parts)
      exact ⟨_, _, found, _, rfl, inner, _, part, deeper, present, rfl⟩
  · rintro ⟨index, child, found, rest, rfl, inner, trail, part, deeper, present, rfl⟩
    exact ⟨List.cons_ne_nil _ _, inner, _, part, .member parts found deeper, present, rfl⟩

theorem stands_pair {keyShape valueShape : Shape} {entries : List (Scalar × Tree)} :
    place ≠ [] ∧ Stands (.map keyShape valueShape) (.map mark entries) path place visit ↔
      ∃ index entry, entries[index]? = some entry ∧
        ((∃ rest, place = 2 * index :: rest ∧ Stands keyShape (.scalar entry.1) path rest visit) ∨
          ∃ rest, place = (2 * index + 1) :: rest ∧
            Stands valueShape entry.2 (join path entry.1.text) rest visit) := by
  constructor
  · rintro ⟨below, inner, trail, part, meets, present, rfl⟩
    cases meets with
    | here => exact absurd rfl below
    | key entry deeper =>
      exact ⟨_, _, entry, .inl ⟨_, rfl, inner, _, part, deeper, present, rfl⟩⟩
    | value entry deeper =>
      exact ⟨_, _, entry, .inr ⟨_, rfl, inner, _, part, deeper, present, rfl⟩⟩
  · rintro ⟨index, ⟨key, child⟩, entry, ⟨rest, rfl, inner, trail, part, deeper, present, rfl⟩ |
      ⟨rest, rfl, inner, trail, part, deeper, present, rfl⟩⟩
    · exact ⟨List.cons_ne_nil _ _, inner, _, part, .key entry deeper, present, rfl⟩
    · exact ⟨List.cons_ne_nil _ _, inner, _, part, .value entry deeper, present, rfl⟩

theorem stands_setting {settings : List (Setting Shape)} {entries : List (Scalar × Tree)} :
    place ≠ [] ∧ Stands (.document name settings) (.map mark entries) path place visit ↔
      ∃ index entry, entries[index]? = some entry ∧ ∃ rest, place = index :: rest ∧
        ∃ known, settings.find? (·.name == entry.1.text) = some known ∧
          Stands known.shape entry.2 (join path entry.1.text) rest visit := by
  constructor
  · rintro ⟨below, inner, trail, part, meets, present, rfl⟩
    cases meets with
    | here => exact absurd rfl below
    | setting entry found deeper =>
      exact ⟨_, _, entry, _, rfl, _, found, inner, _, part, deeper, present, rfl⟩
  · rintro ⟨index, ⟨key, child⟩, entry, rest, rfl, known, found, inner, trail, part, deeper, present, rfl⟩
    exact ⟨List.cons_ne_nil _ _, inner, _, part, .setting entry found deeper, present, rfl⟩

/-- Places that begin with different indices come in the order of these. -/
theorem lt_of_heads {place place' rest rest' : List Nat} {first first' : Nat} (less : first < first')
    (here : place = first :: rest) (there : place' = first' :: rest') : place < place' := by
  rw [here, there]
  exact List.cons_lt_cons_iff.mpr (.inl less)

/-- The parts of a list or a set are looked at one after the other. -/
theorem arranged_items {element : Shape} {items : List Tree}
    (each : ∀ item path, Arranged (Stands element item path) (forms (visits element item path))) :
    Arranged (fun place visit => ∃ index child, items[index]? = some child ∧ ∃ rest,
        place = index :: rest ∧ Stands element child (Decode.element path index) rest visit)
      (forms (itemVisits (visits element) path 0 items)) := by
  rw [forms_itemVisits]
  have parts : ∀ item ∈ items, ∀ index, Arranged (fun place visit => ∃ rest, place = index :: rest ∧
      Stands element item (Decode.element path index) rest visit)
        (forms (visits element item (Decode.element path index))) := fun item _ index =>
    (each item (Decode.element path index)).under index
  refine (Arranged.flatMap parts ?_ 0).congr fun place visit => by simp only [Nat.zero_add]
  rintro index item place visit index' item' place' visit' less ⟨_, here, -⟩ ⟨_, there, -⟩
  exact lt_of_heads less here there

/-- Of an entry of a dictionary, the key is looked at before the value. -/
theorem arranged_pairs {keyShape valueShape : Shape} {entries : List (Scalar × Tree)}
    (eachKey : ∀ node path, Arranged (Stands keyShape node path) (forms (visits keyShape node path)))
    (each : ∀ node path, Arranged (Stands valueShape node path) (forms (visits valueShape node path))) :
    Arranged (fun place visit => ∃ index entry, entries[index]? = some entry ∧
        ((∃ rest, place = 2 * index :: rest ∧ Stands keyShape (.scalar entry.1) path rest visit) ∨
          ∃ rest, place = (2 * index + 1) :: rest ∧
            Stands valueShape entry.2 (join path entry.1.text) rest visit))
      (forms (pairVisits keyShape (visits keyShape) (visits valueShape) path entries)) := by
  rw [forms_pairVisits 0]
  have parts : ∀ entry ∈ entries, ∀ index, Arranged (fun place visit =>
      (∃ rest, place = 2 * index :: rest ∧ Stands keyShape (.scalar entry.1) path rest visit) ∨
        ∃ rest, place = (2 * index + 1) :: rest ∧
          Stands valueShape entry.2 (join path entry.1.text) rest visit)
      (forms (visits keyShape (.scalar entry.1) path) ++
        forms (visits valueShape entry.2 (join path entry.1.text))) := by
    intro entry _ index
    refine ((eachKey _ _).under (2 * index)).append ((each _ _).under (2 * index + 1)) ?_
    rintro place visit place' visit' ⟨_, here, -⟩ ⟨_, there, -⟩
    exact lt_of_heads (Nat.lt_succ_self _) here there
  refine (Arranged.flatMap parts ?_ 0).congr fun place visit => by simp only [Nat.zero_add]
  rintro index entry place visit index' entry' place' visit' less (⟨_, here, -⟩ | ⟨_, here, -⟩)
    (⟨_, there, -⟩ | ⟨_, there, -⟩)
  all_goals exact lt_of_heads (by omega) here there

/-- The known settings of a document are looked at in the order of its entries. -/
theorem arranged_settings {settings : List (Setting Shape)} {entries : List (Scalar × Tree)}
    (each : ∀ setting ∈ settings, ∀ node path,
      Arranged (Stands setting.shape node path) (forms (visits setting.shape node path))) :
    Arranged (fun place visit => ∃ index entry, entries[index]? = some entry ∧ ∃ rest,
        place = index :: rest ∧ ∃ known, settings.find? (·.name == entry.1.text) = some known ∧
          Stands known.shape entry.2 (join path entry.1.text) rest visit)
      (forms (entryVisits (visitors settings) path entries)) := by
  rw [forms_entryVisits settings 0]
  have parts : ∀ entry ∈ entries, ∀ index : Nat, Arranged (fun place visit => ∃ rest,
      place = index :: rest ∧ ∃ known, settings.find? (·.name == entry.1.text) = some known ∧
        Stands known.shape entry.2 (join path entry.1.text) rest visit)
      ((settings.find? (·.name == entry.1.text)).elim [] fun setting =>
        forms (visits setting.shape entry.2 (join path entry.1.text))) := by
    intro entry _ index
    cases found : settings.find? (·.name == entry.1.text) with
    | none => exact .nil (by simp)
    | some setting =>
      exact ((each setting (List.mem_of_find?_eq_some found) _ _).under index).congr
        fun place visit => by simp
  refine (Arranged.flatMap parts ?_ 0).congr fun place visit => by simp only [Nat.zero_add]
  rintro index entry place visit index' entry' place' visit' less ⟨_, here, -⟩ ⟨_, there, -⟩
  exact lt_of_heads less here there

/-- A walk looks at the nodes that it meets, null aside, in the order of their places. -/
theorem arranged_visits : Arranged (Stands shape node path) (forms (visits shape node path)) := by
  induction shape generalizing node path with
  | str => exact arranged_bare rfl rfl fun _ _ _ _ meets => by cases meets; rfl
  | int => exact arranged_bare rfl rfl fun _ _ _ _ meets => by cases meets; rfl
  | float => exact arranged_bare rfl rfl fun _ _ _ _ meets => by cases meets; rfl
  | bool => exact arranged_bare rfl rfl fun _ _ _ _ meets => by cases meets; rfl
  | native type => exact arranged_bare rfl rfl fun _ _ _ _ meets => by cases meets; rfl
  | enumeration type => exact arranged_bare rfl rfl fun _ _ _ _ meets => by cases meets; rfl
  | list element ih =>
    cases node with
    | seq mark items =>
      exact arranged_visiting (by rw [visits]) (fun _ => arranged_items fun item path => ih)
        (fun place visit => stands_item.symm) fun null => by cases null
    | _ => exact arranged_bare (by rw [visits]) rfl fun _ _ _ _ meets => by cases meets; rfl
  | set element ih =>
    cases parts : parts? node with
    | some items =>
      refine arranged_visiting (by rw [visits]) (fun _ => ?_)
        (fun place visit => (stands_member parts).symm) fun null => ?_
      · simp only [parts, forms_memberVisits]
        exact arranged_items fun item path => ih
      · simp [isNull_of_parts? parts] at null
    | none =>
      refine arranged_bare (by rw [visits]) (by simp only [parts]) fun _ _ _ _ meets => ?_
      cases meets with
      | here => rfl
      | member own => cases own.symm.trans parts
  | map key shape ihKey ih =>
    cases node with
    | map mark entries =>
      exact arranged_visiting (by rw [visits])
        (fun _ => arranged_pairs (fun node path => ihKey) fun node path => ih)
        (fun place visit => stands_pair.symm) fun null => by cases null
    | _ => exact arranged_bare (by rw [visits]) rfl fun _ _ _ _ meets => by cases meets; rfl
  | document name settings ih =>
    cases node with
    | map mark entries =>
      exact arranged_visiting (by rw [visits])
        (fun _ => arranged_settings fun setting member node path => ih setting member)
        (fun place visit => stands_setting.symm) fun null => by cases null
    | _ => exact arranged_bare (by rw [visits]) rfl fun _ _ _ _ meets => by cases meets; rfl

end order

end Decode

end LayeredConfig
