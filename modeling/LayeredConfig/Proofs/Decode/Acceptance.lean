import LayeredConfig.Proofs.Decode.Faults
import LayeredConfig.Proofs.Decode.Offers
import LayeredConfig.Proofs.Schema.Enumerations
import LayeredConfig.Proofs.Schema.Worded

namespace LayeredConfig

/-- The member of an enumeration that a node stands for: the one that it names as it is written, or else
in upper case, or else the first one with its value. -/
inductive Enumeration.Picks (type : Enumeration) : Tree → Value → Prop
  | written (titled : type.Titled text member) : Picks type (.scalar (.str text)) member
  | raised (unknown : text ∉ type.names) (titled : type.Titled (Text.upper text) member) :
      Picks type (.scalar (.str text)) member
  | valued (unnamed : ∀ text : String, node = .scalar (.str text) →
        text ∉ type.names ∧ Text.upper text ∉ type.names)
      (valued : type.Valued node.toValue member) : Picks type node member

namespace Shape

/-- What a node other than null has to be for a shape to take it, its parts aside. -/
inductive Takes : Shape → Tree → Prop
  | str (notSequence : ∀ mark items, node ≠ .seq mark items)
      (notMapping : ∀ mark entries, node ≠ .map mark entries) : Takes .str node
  | int (value : Int) : Takes .int (.scalar (.int value))
  | float (value : Binary64) : Takes .float (.scalar (.float value))
  | whole (value : Int) : Takes .float (.scalar (.int value))
  | bool (value : Bool) : Takes .bool (.scalar (.bool value))
  | name {type : Enumeration} (known : text ∈ type.names ∨ Text.upper text ∈ type.names) :
      Takes (.enumeration type) (.scalar (.str text))
  | value {type : Enumeration} (own : member ∈ type.canonical)
      (equal : member.2.eqv node.toValue = true) : Takes (.enumeration type) node
  | list : Takes (.list element) (.seq mark items)
  | set : Takes (.set element) (.seq mark items)
  | members : Takes (.set element) (.set members)
  | map : Takes (.map key value) (.map mark entries)
  | document : Takes (.document name settings) (.map mark entries)

/-- Shapes of scalars and of members of enumerations. -/
def isAtomic : Shape → Bool
  | .str => true
  | .int => true
  | .float => true
  | .bool => true
  | .enumeration _ => true
  | _ => false

/-- Shapes of the documented types. Members of sets and keys of dictionaries are scalars or members of
enumerations. -/
inductive Declared : Shape → Prop
  | str : Declared .str
  | int : Declared .int
  | float : Declared .float
  | bool : Declared .bool
  | enumeration (type : Enumeration) : Declared (.enumeration type)
  | list (element : Declared shape) : Declared (.list shape)
  | set (element : Declared shape) (atomic : shape.isAtomic = true) : Declared (.set shape)
  | map (key : Declared keyShape) (atomic : keyShape.isAtomic = true) (value : Declared valueShape) :
      Declared (.map keyShape valueShape)
  | document {settings : List (Setting Shape)} (shapes : ∀ setting ∈ settings, Declared setting.shape) :
      Declared (.document name settings)

theorem Worded.declared (worded : Worded shape) : shape.Declared := by
  induction worded with
  | str => exact .str
  | int => exact .int
  | float => exact .float
  | bool => exact .bool
  | enumeration texts => exact .enumeration _
  | list element ih => exact .list ih
  | set => exact .set .str rfl
  | map value ih => exact .map .str rfl ih
  | document shapes ih => exact .document ih

theorem freezes_of_isAtomic {shape : Shape} (atomic : shape.isAtomic = true) (node : Tree) :
    shape.freezes node = true := by
  cases shape <;> simp_all [isAtomic, freezes]

section enumerations

variable {type : Enumeration} {text : String} {node : Tree} {member : Value}

theorem written?_isSome_iff :
    (type.written? text).isSome = true ↔ text ∈ type.names ∨ Text.upper text ∈ type.names := by
  rw [← Enumeration.named?_isSome_iff, ← Enumeration.named?_isSome_iff, Enumeration.written?]
  cases type.named? text <;> simp

theorem written?_eq_some_iff :
    type.written? text = some member ↔
      type.Titled text member ∨ text ∉ type.names ∧ type.Titled (Text.upper text) member := by
  rw [← Enumeration.named?_eq_some_iff, ← Enumeration.named?_eq_some_iff,
    ← Enumeration.named?_isSome_iff, Enumeration.written?]
  cases type.named? text <;> simp

theorem memberOf?_str (type : Enumeration) (text : String) :
    memberOf? type (.scalar (.str text)) =
      (type.written? text).or (type.withValue? (.str text)) :=
  rfl

theorem memberOf?_of_ne_str (untitled : ∀ text : String, node ≠ .scalar (.str text)) :
    memberOf? type node = type.withValue? node.toValue := by
  unfold memberOf?
  split
  · next text => exact absurd rfl (untitled text)
  · exact Option.none_or

/-- What a node stands for is found by its name if there is one, and otherwise by its value. -/
theorem memberOf?_eq_some_iff : memberOf? type node = some member ↔ type.Picks node member := by
  constructor
  · intro found
    by_cases texts : ∃ text : String, node = .scalar (.str text)
    · obtain ⟨text, rfl⟩ := texts
      rw [memberOf?_str, Option.or_eq_some_iff, written?_eq_some_iff] at found
      rcases found with (titled | ⟨unknown, titled⟩) | ⟨unnamed, valued⟩
      · exact .written titled
      · exact .raised unknown titled
      · refine .valued (fun other same => ?_) (Enumeration.withValue?_eq_some_iff.mp valued)
        cases same
        have never : ¬ (type.written? text).isSome = true := by simp [unnamed]
        rwa [written?_isSome_iff, not_or] at never
    · have untitled : ∀ text : String, node ≠ .scalar (.str text) := fun text same => texts ⟨text, same⟩
      rw [memberOf?_of_ne_str untitled] at found
      exact .valued (fun text same => absurd same (untitled text))
        (Enumeration.withValue?_eq_some_iff.mp found)
  · intro picks
    cases picks with
    | written titled =>
      rw [memberOf?_str, Option.or_eq_some_iff]
      exact .inl (written?_eq_some_iff.mpr (.inl titled))
    | raised unknown titled =>
      rw [memberOf?_str, Option.or_eq_some_iff]
      exact .inl (written?_eq_some_iff.mpr (.inr ⟨unknown, titled⟩))
    | valued unnamed valued =>
      have found := Enumeration.withValue?_eq_some_iff.mpr valued
      by_cases texts : ∃ text : String, node = .scalar (.str text)
      · obtain ⟨text, rfl⟩ := texts
        obtain ⟨low, high⟩ := unnamed text rfl
        have never : ¬ (type.written? text).isSome = true := by
          rw [written?_isSome_iff, not_or]
          exact ⟨low, high⟩
        rw [memberOf?_str, Option.or_eq_some_iff]
        exact .inr ⟨by simpa using never, found⟩
      · rw [memberOf?_of_ne_str fun text same => texts ⟨text, same⟩]
        exact found

theorem memberOf?_isSome_iff :
    (memberOf? type node).isSome = true ↔ Takes (.enumeration type) node := by
  constructor
  · intro found
    by_cases texts : ∃ text : String, node = .scalar (.str text)
    · obtain ⟨text, rfl⟩ := texts
      rw [memberOf?_str, Option.isSome_or, Bool.or_eq_true, written?_isSome_iff,
        Enumeration.withValue?_isSome_iff] at found
      rcases found with known | ⟨own, canonical, equal⟩
      · exact .name known
      · exact .value canonical equal
    · rw [memberOf?_of_ne_str fun text same => texts ⟨text, same⟩,
        Enumeration.withValue?_isSome_iff] at found
      obtain ⟨own, canonical, equal⟩ := found
      exact .value canonical equal
  · intro takes
    cases takes with
    | name known =>
      rw [memberOf?_str, Option.isSome_or, Bool.or_eq_true]
      exact .inl (written?_isSome_iff.mpr known)
    | value own equal =>
      have found : (type.withValue? node.toValue).isSome = true :=
        Enumeration.withValue?_isSome_iff.mpr ⟨_, own, equal⟩
      unfold memberOf?
      rw [Option.isSome_or, found, Bool.or_true]

end enumerations

/-- The form that the walk asks for is the one that the shape takes. -/
theorem fits_iff_takes {shape : Shape} (declared : shape.Declared) {node : Tree} :
    shape.fits node = true ↔ shape.Takes node := by
  cases declared with
  | enumeration type => exact memberOf?_isSome_iff
  | str =>
    constructor
    · intro fit
      exact .str (by rintro mark items rfl; cases fit) (by rintro mark entries rfl; cases fit)
    · intro takes
      cases takes with
      | str notSequence notMapping => simp [fits]
  | int =>
    refine ⟨fun fit => ?_, fun takes => by cases takes; rfl⟩
    simp only [fits] at fit
    split at fit
    · exact .int _
    · cases fit
  | float =>
    refine ⟨fun fit => ?_, fun takes => by cases takes <;> rfl⟩
    simp only [fits] at fit
    split at fit
    · exact .float _
    · exact .whole _
    · cases fit
  | bool =>
    refine ⟨fun fit => ?_, fun takes => by cases takes; rfl⟩
    simp only [fits] at fit
    split at fit
    · exact .bool _
    · cases fit
  | list element =>
    refine ⟨fun fit => ?_, fun takes => by cases takes; rfl⟩
    simp only [fits] at fit
    split at fit
    · exact .list
    · cases fit
  | set element atomic =>
    refine ⟨fun fit => ?_, fun takes => by cases takes <;> rfl⟩
    cases node with
    | seq mark items => exact .set
    | set members => exact .members
    | _ => cases fit
  | map key atomic value =>
    refine ⟨fun fit => ?_, fun takes => by cases takes; rfl⟩
    simp only [fits] at fit
    split at fit
    · exact .map
    · cases fit
  | document shapes =>
    refine ⟨fun fit => ?_, fun takes => by cases takes; rfl⟩
    simp only [fits] at fit
    split at fit
    · exact .document
    · cases fit

end Shape

/-- What is offered to a shape inside a declared one is offered to a declared shape. -/
theorem Offers.declared (offers : Offers whole root start shape node path) (declared : whole.Declared) :
    shape.Declared := by
  induction offers with
  | here => exact declared
  | setting entry found deeper ih =>
    cases declared with
    | document shapes => exact ih (shapes _ (List.mem_of_find?_eq_some found))
  | item found deeper ih =>
    cases declared with
    | list element => exact ih element
  | member parts found deeper ih =>
    cases declared with
    | set element atomic => exact ih element
  | key entry deeper ih =>
    cases declared with
    | map key atomic value => exact ih key
  | value entry deeper ih =>
    cases declared with
    | map key atomic value => exact ih value

namespace Decode

/-- In a tree that can be written, only the form of a node can stop a walk under a declared shape. -/
theorem form_of_trouble {shape : Shape} (declared : shape.Declared) {node : Tree} {path : Str}
    {visit : Visit}
    (writable : node.writable = true) (visited : visit ∈ visits shape node path)
    {failure : WalkFailure} (trouble : visit.trouble? = some failure) :
    ∃ inner part place, visit = .form inner place part := by
  have leaf {shape : Shape} {node : Tree} {path : Str}
      (visited : visit ∈ visiting shape (fun _ _ => []) node path) :
      ∃ inner part place, visit = .form inner place part := by
    obtain ⟨-, rfl | absent⟩ := mem_visiting_iff.mp visited
    · exact ⟨_, _, _, rfl⟩
    · cases absent
  induction declared generalizing node path with
  | str => exact leaf visited
  | int => exact leaf visited
  | float => exact leaf visited
  | bool => exact leaf visited
  | enumeration type => exact leaf visited
  | list element ih =>
    rw [visits, mem_visiting_iff] at visited
    obtain ⟨-, rfl | below⟩ := visited
    · exact ⟨_, _, _, rfl⟩
    · split at below
      · obtain ⟨index, item, found, visited⟩ := mem_itemVisits.mp below
        exact ih (Tree.allWritable_iff.mp writable _ (List.mem_of_getElem? found)) visited
      · cases below
  | set element atomic ih =>
    rw [visits, mem_visiting_iff] at visited
    obtain ⟨-, rfl | below⟩ := visited
    · exact ⟨_, _, _, rfl⟩
    · split at below
      · next items parts =>
        rcases mem_memberVisits_iff.mp below with item | ⟨item, member, rfl⟩
        · obtain ⟨index, item, found, visited⟩ := mem_itemVisits.mp item
          exact ih (Tree.writable_of_parts? parts (List.mem_of_getElem? found) writable) visited
        · simp [Visit.trouble?, Shape.freezes_of_isAtomic atomic] at trouble
      · cases below
  | map key atomic value ihKey ih =>
    rw [visits, mem_visiting_iff] at visited
    obtain ⟨-, rfl | below⟩ := visited
    · exact ⟨_, _, _, rfl⟩
    · split at below
      · next mark entries =>
        obtain ⟨label, child, member, ofKey | rfl | ofValue | rfl⟩ := mem_pairVisits_iff.mp below
        all_goals have parts := Tree.entriesWritable_iff.mp writable _ member
        · exact ihKey (by exact parts.1) ofKey
        · simp [Visit.trouble?, parts.1] at trouble
        · exact ih parts.2 ofValue
        · simp [Visit.trouble?, Shape.freezes_of_isAtomic atomic] at trouble
      · cases below
  | document shapes ih =>
    rw [visits, mem_visiting_iff] at visited
    obtain ⟨-, rfl | below⟩ := visited
    · exact ⟨_, _, _, rfl⟩
    · split at below
      · next mark entries =>
        obtain ⟨key, child, member, rfl | ⟨known, found, visited⟩⟩ := mem_entryVisits.mp below
        all_goals have parts := Tree.entriesWritable_iff.mp writable _ member
        · simp [Visit.trouble?, parts.1] at trouble
        · exact ih known (List.mem_of_find?_eq_some found) parts.2 visited
      · cases below

/-- Only a node that its shape does not take is trouble, unless a number in it is too large or too
long. -/
theorem trouble?_eq_some_iff {shape : Shape} (declared : shape.Declared) {node : Tree} (path : Str)
    (writable : node.writable = true)
    (inRange : ∀ value, shape = .float → node = .scalar (.int value) →
      (Binary64.ofInt? value).isSome = true) {failure : WalkFailure} :
    shape.trouble? path node = some failure ↔
      ¬ shape.Takes node ∧ failure = .misfit ⟨path, shape.typeName, node⟩ := by
  have calm : shape.strain? node = none := by
    refine Option.eq_none_iff_forall_ne_some.mpr fun fault strained => ?_
    rcases strain?_eq_some_iff.mp strained with ⟨-, unwritable, -⟩ | ⟨value, float, same, large, -⟩
    · simp [writable] at unwritable
    · simpa [large] using inRange value float same
  rw [← Shape.fits_iff_takes declared, Shape.trouble?, calm]
  cases shape.fits node <;> simp [eq_comm]

section acceptance

variable {schema : Schema} {tree : Tree}

/-- What stops a walk is a node that its shape does not take, if no number is too large or too long. -/
theorem trouble_iff (declared : schema.shape.Declared) (writable : tree.writable = true)
    (inRange : ∀ value path, Offers schema.shape tree "" .float (.scalar (.int value)) path →
      (Binary64.ofInt? value).isSome = true) {visit : Visit} {failure : WalkFailure} :
    visit ∈ visits schema.shape tree "" ∧ visit.trouble? = some failure ↔
      ∃ shape node path, visit = .form shape path node ∧
        Offers schema.shape tree "" shape node path ∧ node.isNull = false ∧ ¬ shape.Takes node ∧
          failure = .misfit ⟨path, shape.typeName, node⟩ := by
  have form {shape : Shape} {node : Tree} {path : Str}
      (offers : Offers schema.shape tree "" shape node path) :
      (Visit.form shape path node).trouble? = some failure ↔
        ¬ shape.Takes node ∧ failure = .misfit ⟨path, shape.typeName, node⟩ :=
    trouble?_eq_some_iff (offers.declared declared) path (offers.writable writable)
      (by rintro value rfl rfl; exact inRange value path offers)
  constructor
  · intro troubled
    obtain ⟨visited, trouble⟩ := troubled
    obtain ⟨shape, node, path, rfl⟩ := form_of_trouble declared writable visited trouble
    obtain ⟨offers, present⟩ := form_mem_visits.mp visited
    exact ⟨shape, node, path, rfl, offers, present, (form offers).mp trouble⟩
  · intro refused
    obtain ⟨shape, node, path, rfl, offers, present, refused⟩ := refused
    exact ⟨form_mem_visits.mpr ⟨offers, present⟩, (form offers).mpr refused⟩

/-- A node other than null stands for the member of an enumeration that it picks. -/
theorem reader_enumeration_eq_built_iff {type : Enumeration} {node : Tree} {value : Value}
    (present : node.isNull = false) :
    reader (.enumeration type) node path = .built value findings ↔
      type.Picks node value ∧ findings = [] := by
  rw [reader, orNull_of_present present, readMember_eq, ← Shape.memberOf?_eq_some_iff]
  cases Shape.memberOf? type node with
  | none => simp [Walk.refuse]
  | some member => simp [Walk.accept, eq_comm]

/-- Acceptance is exact: a source is refused if some node that is offered to a shape, other than null,
is not one that the shape takes, and accepted if there is none. A node under an enumeration becomes the
member that it picks. -/
theorem ofTree_accepts_exactly (declared : schema.shape.Declared) (writable : tree.writable = true)
    (inRange : ∀ value path, Offers schema.shape tree "" .float (.scalar (.int value)) path →
      (Binary64.ofInt? value).isSome = true) (source : String) :
    ((∃ problem, ofTree schema source tree = .error (.configuration (.malformed source problem))) ↔
      ∃ shape node path, Offers schema.shape tree "" shape node path ∧ node.isNull = false ∧
        ¬ shape.Takes node) ∧
    ((∃ result, ofTree schema source tree = .ok result) ↔
      ∀ shape node path, Offers schema.shape tree "" shape node path → node.isNull = false →
        shape.Takes node) ∧
    ∀ (type : Enumeration) (node : Tree) (path : Str) (value : Value) (findings : List Finding),
      node.isNull = false →
        (reader (.enumeration type) node path = .built value findings ↔
          type.Picks node value ∧ findings = []) := by
  have follows := rootWalk_follows schema tree
  have stops {failure : WalkFailure} (stopped : rootWalk schema tree = .stopped failure) :
      ∃ shape node path, Offers schema.shape tree "" shape node path ∧ node.isNull = false ∧
        ¬ shape.Takes node ∧ failure = .misfit ⟨path, shape.typeName, node⟩ := by
    obtain ⟨visit, troubled⟩ := List.exists_of_findSome?_eq_some (follows.stopped_iff.mp stopped)
    obtain ⟨shape, node, path, -, refused⟩ := (trouble_iff declared writable inRange).mp troubled
    exact ⟨shape, node, path, refused⟩
  have refuses (refused : ∃ shape node path, Offers schema.shape tree "" shape node path ∧
      node.isNull = false ∧ ¬ shape.Takes node) : ∃ failure, rootWalk schema tree = .stopped failure := by
    obtain ⟨shape, node, path, offers, present, refused⟩ := refused
    obtain ⟨visited, trouble⟩ := (trouble_iff declared writable inRange).mpr
      ⟨shape, node, path, rfl, offers, present, refused, rfl⟩
    simp only [follows.stopped_iff]
    exact Option.isSome_iff_exists.mp
      (List.findSome?_isSome_iff.mpr ⟨_, visited, Option.isSome_of_eq_some trouble⟩)
  have refusal : (∃ problem, ofTree schema source tree =
        .error (.configuration (.malformed source problem))) ↔
      ∃ failure, rootWalk schema tree = .stopped failure := by
    constructor
    · intro refused
      obtain ⟨problem, failed⟩ := refused
      obtain ⟨failure, stopped, -⟩ := ofTree_eq_error_iff.mp failed
      exact ⟨failure, stopped⟩
    · intro stopped
      obtain ⟨failure, stopped⟩ := stopped
      obtain ⟨shape, node, path, offers, -, -, rfl⟩ := stops stopped
      refine ⟨Misfit.problem ⟨path, shape.typeName, node⟩, ofTree_eq_error_iff.mpr ⟨_, stopped, ?_⟩⟩
      rw [WalkFailure.toFailure, if_pos (offers.writable writable)]
  refine ⟨refusal.trans ⟨fun stopped => ?_, refuses⟩, ⟨fun accepted => ?_, fun taken => ?_⟩,
    fun type node path value findings present => reader_enumeration_eq_built_iff present⟩
  · obtain ⟨failure, stopped⟩ := stopped
    obtain ⟨shape, node, path, offers, present, refused, -⟩ := stops stopped
    exact ⟨shape, node, path, offers, present, refused⟩
  · intro shape node path offers present
    by_contra refused
    obtain ⟨result, accepted⟩ := accepted
    obtain ⟨findings, built, -⟩ := ofTree_eq_ok_iff.mp accepted
    obtain ⟨failure, stopped⟩ := refuses ⟨shape, node, path, offers, present, refused⟩
    cases built.symm.trans stopped
  · cases walk : rootWalk schema tree with
    | stopped failure =>
      obtain ⟨shape, node, path, offers, present, refused, -⟩ := stops walk
      exact absurd (taken shape node path offers present) refused
    | built document findings =>
      exact ⟨⟨document, .ofFindings findings⟩, ofTree_eq_ok_iff.mpr ⟨findings, walk, rfl⟩⟩

end acceptance

/-- A tree with a list for a dictionary of parameters, after nodes that are taken and an unknown one. -/
def misshapenTree : Tree :=
  .map none [(.str "commitlog_sync", .scalar (.str "Batch")),
    (.str "phi_convict_threshold", .scalar (.int 9)), (.str "extra", .seq none []),
    (.str "seed_provider", .map none [(.str "parameters", .seq none [.scalar .null])])]

/-- Whether a whole number that is met for a decimal one is in range. -/
def Visit.inRange : Visit → Bool
  | .form .float _ (.scalar (.int value)) => (Binary64.ofInt? value).isSome
  | _ => true

theorem ofTree_accepts_exactly_misshapenTree :
    ∃ problem, ofTree NodeSchema.nodeConfig "node.yaml" misshapenTree =
      .error (.configuration (.malformed "node.yaml" problem)) := by
  have ranges : (visits NodeSchema.nodeConfig.shape misshapenTree "").all Visit.inRange = true := by
    decide +kernel
  have inRange (value : Int) (path : Str) (offers : Offers NodeSchema.nodeConfig.shape misshapenTree ""
      .float (.scalar (.int value)) path) : (Binary64.ofInt? value).isSome = true :=
    List.all_eq_true.mp ranges _ (form_mem_visits.mpr ⟨offers, rfl⟩)
  refine (ofTree_accepts_exactly NodeSchema.worded_nodeConfig.declared (by decide +kernel) inRange
    "node.yaml").1.mpr ⟨.map .str .str, .seq none [.scalar .null], "seed_provider.parameters", ?_, rfl, ?_⟩
  rotate_left
  · intro accepts
    cases accepts
  have parameters : Offers NodeSchema.parameterizedClass.shape
      (.map none [(.str "parameters", .seq none [.scalar .null])]) "seed_provider" (.map .str .str)
      (.seq none [.scalar .null]) "seed_provider.parameters" :=
    .setting List.mem_cons_self rfl .here
  exact .setting (.tail _ (.tail _ (.tail _ (.head _)))) rfl parameters

end Decode

end LayeredConfig
