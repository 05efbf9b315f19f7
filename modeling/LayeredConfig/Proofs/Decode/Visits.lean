import LayeredConfig.Proofs.Decode.Typing

/-!
What a walk looks at, as a list in the order of the source, with what each visit finds out. A walk
follows its visits: the first trouble stops it, and otherwise it notes every finding.
-/

namespace LayeredConfig

namespace Shape

/-- The member of an enumeration that a node stands for, by name if it can and otherwise by value. -/
def memberOf? (type : Enumeration) (node : Tree) : Option Value :=
  let byName :=
    match node with
    | .scalar (.str (.whole text)) => type.written? text
    | _ => none
  byName.or (type.withValue? node.toValue)

/-- Whether a node other than null has the form that a shape asks for, its parts aside. -/
def fits (shape : Shape) (node : Tree) : Bool :=
  match shape with
  | .str =>
    match node with
    | .seq _ _ => false
    | .map _ _ => false
    | _ => true
  | .int =>
    match node with
    | .scalar (.int _) => true
    | _ => false
  | .float =>
    match node with
    | .scalar (.float _) => true
    | .scalar (.int _) => true
    | _ => false
  | .bool =>
    match node with
    | .scalar (.bool _) => true
    | _ => false
  | .native type => Decode.isOfType type node
  | .enumeration type => (memberOf? type node).isSome
  | .list _ =>
    match node with
    | .seq _ _ => true
    | _ => false
  | .set _ => (Decode.parts? node).isSome
  | .map _ _ =>
    match node with
    | .map _ _ => true
    | _ => false
  | .document _ _ =>
    match node with
    | .map _ _ => true
    | _ => false

/-- The fault in taking a node that has the right form: a number too long to be written as a text, or
too large to be a fraction. -/
def strain? : Shape → Tree → Option Fault
  | .str, node => if node.writable then none else some .content
  | .float, .scalar (.int value) => if (Binary64.ofInt? value).isSome then none else some .magnitude
  | _, _ => none

/-- Why a node other than null stops a walk under a shape, if it does. -/
def trouble? (shape : Shape) (path : Str) (node : Tree) : Option WalkFailure :=
  if shape.fits node then (shape.strain? node).map .fault
  else some (.misfit ⟨path, shape.typeName, node⟩)

/-- Whether what is read from a node may be a member of a set or a key. -/
def freezes (shape : Shape) (node : Tree) : Bool :=
  node.isNull ||
    match shape with
    | .native _ => node.toValue.hashable
    | .list _ => false
    | .set _ => false
    | .map _ _ => false
    | .document _ _ => false
    | _ => true

end Shape

/-- One thing that a walk looks at. -/
inductive Visit
  /-- An entry of a document at its path, with the setting that it names, if there is one. -/
  | entry (known : Option (Setting Shape)) (path : Str) (key : Scalar) (node : Tree)
  /-- The key of a dictionary, as a part of paths. -/
  | label (key : Scalar)
  /-- The form of a node other than null. -/
  | form (shape : Shape) (path : Str) (node : Tree)
  /-- A node whose value becomes a member of a set or a key. -/
  | member (shape : Shape) (node : Tree)

namespace Visit

/-- Why a visit stops the walk, if it does. -/
def trouble? : Visit → Option WalkFailure
  | .entry _ _ key _ => if key.writable then none else some (.fault .content)
  | .label key => if key.writable then none else some (.fault .content)
  | .form shape path node => shape.trouble? path node
  | .member shape node => if shape.freezes node then none else some (.fault .kind)

theorem entry_trouble? {known : Option (Setting Shape)} {path : Str} {key : Scalar} {node : Tree}
    (writable : key.writable = true) : (entry known path key node).trouble? = none :=
  if_pos writable

/-- What a visit notes, if anything. -/
def finding? : Visit → Option Finding
  | .entry none path _ _ => some (.unknown path)
  | .entry (some setting) path _ node =>
    if node.isNull && !setting.nullable then some (.nullified path) else none
  | _ => none

end Visit

namespace Decode

/-- The visits below a node at a path. -/
abbrev Visitor := Tree → Str → List Visit

/-- A node is visited before its parts; null is not visited at all. -/
def visiting (shape : Shape) (parts : Visitor) : Visitor := fun node path =>
  if node.isNull then [] else .form shape path node :: parts node path

def itemVisits (visit : Visitor) (path : Str) (index : Nat) : List Tree → List Visit
  | [] => []
  | item :: items => visit item (element path index) ++ itemVisits visit path (index + 1) items

def memberVisits (shape : Shape) (visit : Visitor) (path : Str) (index : Nat) :
    List Tree → List Visit
  | [] => []
  | item :: items =>
    visit item (element path index) ++
      .member shape item :: memberVisits shape visit path (index + 1) items

def pairVisits (shape : Shape) (visitKey visit : Visitor) (path : Str) :
    List (Scalar × Tree) → List Visit
  | [] => []
  | (key, node) :: entries =>
    visitKey (.scalar key) path ++
      .label key :: (visit node (join path key.text) ++
        .member shape (.scalar key) :: pairVisits shape visitKey visit path entries)

def entryVisits (visitors : List (Setting Shape × Visitor)) (path : Str) :
    List (Scalar × Tree) → List Visit
  | [] => []
  | (key, node) :: entries =>
    let here := join path key.text
    match visitors.find? (·.1.name == key.text) with
    | none => .entry none here key node :: entryVisits visitors path entries
    | some (setting, visit) =>
      .entry (some setting) here key node :: (visit node here ++ entryVisits visitors path entries)

mutual

/-- What a walk over a node under a shape looks at, in order. -/
def visits : Shape → Visitor
  | .list shape => visiting (.list shape) fun node path =>
    match node with
    | .seq _ items => itemVisits (visits shape) path 0 items
    | _ => []
  | .set shape => visiting (.set shape) fun node path =>
    match parts? node with
    | some items => memberVisits shape (visits shape) path 0 items
    | none => []
  | .map key shape => visiting (.map key shape) fun node path =>
    match node with
    | .map _ entries => pairVisits key (visits key) (visits shape) path entries
    | _ => []
  | .document name settings => visiting (.document name settings) fun node path =>
    match node with
    | .map _ entries => entryVisits (visitors settings) path entries
    | _ => []
  | shape => visiting shape fun _ _ => []

def visitors : List (Setting Shape) → List (Setting Shape × Visitor)
  | [] => []
  | ⟨name, shape, default⟩ :: settings => (⟨name, shape, default⟩, visits shape) :: visitors settings

end

theorem visitors_eq (settings : List (Setting Shape)) :
    visitors settings = settings.map fun setting => (setting, visits setting.shape) := by
  induction settings with
  | nil => rfl
  | cons setting settings ih => rw [visitors, ih, List.map_cons]

theorem find?_visitors (settings : List (Setting Shape)) (title : Str) :
    (visitors settings).find? (·.1.name == title) =
      (settings.find? (·.name == title)).map fun setting => (setting, visits setting.shape) := by
  rw [visitors_eq, List.find?_map]
  rfl

theorem visits_of_isNull {node : Tree} (shape : Shape) (path : Str) (null : node.isNull = true) :
    visits shape node path = [] := by
  cases shape <;> simp only [visits, visiting, null, if_true]

end Decode

/-- A walk stops at the first trouble among some visits, and otherwise builds something and notes what
they find, in order. -/
def Walk.Follows (walk : Walk α) (visits : List Visit) : Prop :=
  match visits.findSome? Visit.trouble? with
  | some failure => walk = .stopped failure
  | none => ∃ value, walk = .built value (visits.filterMap Visit.finding?)

namespace Walk

theorem follows_accept (value : α) : (accept value).Follows [] :=
  ⟨value, rfl⟩

theorem Follows.bind {walk : Walk α} {next : α → Walk β} (first : walk.Follows before)
    (rest : ∀ value findings, walk = .built value findings → (next value).Follows later) :
    (walk >>= next).Follows (before ++ later) := by
  unfold Follows at first ⊢
  rw [List.findSome?_append, List.filterMap_append]
  cases trouble : before.findSome? Visit.trouble? with
  | some failure =>
    rw [trouble] at first
    rw [Option.some_or, first]
    rfl
  | none =>
    rw [trouble] at first
    obtain ⟨value, built⟩ := first
    have follows := rest value _ built
    unfold Follows at follows
    rw [Option.none_or, built]
    cases stop : later.findSome? Visit.trouble? with
    | some failure =>
      rw [stop] at follows
      change andThen _ _ = _
      rw [andThen, follows]
    | none =>
      rw [stop] at follows
      obtain ⟨result, final⟩ := follows
      exact ⟨result, built_bind rfl final⟩

theorem Follows.map {walk : Walk α} (f : α → β) (follows : walk.Follows visits) :
    (walk >>= fun value => pure (f value)).Follows visits :=
  List.append_nil visits ▸ follows.bind fun value _ _ => follows_accept (f value)

theorem Follows.after {walk : Walk α} (calm : visit.trouble? = none) (silent : visit.finding? = none)
    (follows : walk.Follows visits) : walk.Follows (visit :: visits) := by
  unfold Follows at follows ⊢
  rwa [List.findSome?_cons_of_isNone (by simp [calm]), List.filterMap_cons_none silent]

theorem Follows.stops {visit : Visit} {visits : List Visit} {failure : WalkFailure}
    (trouble : visit.trouble? = some failure) :
    (stopped failure : Walk α).Follows (visit :: visits) := by
  unfold Follows
  rw [List.findSome?_cons, trouble]

/-- Following the visits decides whether a walk stops, and with what. -/
theorem Follows.stopped_iff {walk : Walk α} {failure : WalkFailure} (follows : walk.Follows visits) :
    walk = .stopped failure ↔ visits.findSome? Visit.trouble? = some failure := by
  unfold Follows at follows
  split at follows
  · next stop trouble =>
    subst follows
    rw [trouble, stopped.injEq, Option.some.injEq]
  · next calm =>
    obtain ⟨value, rfl⟩ := follows
    simp [calm]

theorem Follows.findings_eq {walk : Walk α} (follows : walk.Follows visits)
    (built : walk = .built value findings) : findings = visits.filterMap Visit.finding? := by
  unfold Follows at follows
  split at follows
  · cases follows.symm.trans built
  · obtain ⟨other, same⟩ := follows
    exact (Walk.built.inj (built.symm.trans same)).2

theorem Follows.exists_built {walk : Walk α} (follows : walk.Follows visits)
    (calm : ∀ visit ∈ visits, visit.trouble? = none) :
    ∃ value findings, walk = .built value findings := by
  unfold Follows at follows
  rw [List.findSome?_eq_none_iff.mpr calm] at follows
  obtain ⟨value, built⟩ := follows
  exact ⟨value, _, built⟩

/-- A walk that builds something had no trouble at any visit. -/
theorem Follows.calm {walk : Walk α} (follows : walk.Follows visits)
    (built : walk = .built value findings) : ∀ visit ∈ visits, visit.trouble? = none := by
  refine List.findSome?_eq_none_iff.mp (Option.eq_none_iff_forall_ne_some.mpr fun failure trouble => ?_)
  cases built.symm.trans (follows.stopped_iff.mpr trouble)

theorem follows_noted {visit : Visit} {finding : Finding} (value : α)
    (calm : visit.trouble? = none) (finds : visit.finding? = some finding) :
    (built value [finding]).Follows [visit] := by
  unfold Follows
  rw [List.findSome?_cons, calm, List.filterMap_cons_some finds]
  exact ⟨value, rfl⟩

end Walk

namespace Decode

open Walk (Follows follows_accept follows_noted accept refuse)

theorem nameOf_follows (key : Scalar) : (nameOf key).Follows [.label key] := by
  cases writable : key.writable with
  | true =>
    rw [nameOf_writable writable]
    exact Follows.after (if_pos writable) rfl (follows_accept key.text)
  | false =>
    rw [nameOf_unwritable writable]
    exact Follows.stops (if_neg (by simp [writable]))

section parts

variable {read readKey : Reader} {visit visitKey : Visitor} {shape keyShape : Shape}

theorem readItems_follows (follows : ∀ node path, (read node path).Follows (visit node path))
    (path : Str) (index : Nat) (items : List Tree) :
    (readItems read path index items).Follows (itemVisits visit path index items) := by
  induction items generalizing index with
  | nil => exact follows_accept []
  | cons item items ih =>
    exact (follows item _).bind fun value _ _ => (ih (index + 1)).map (value :: ·)

/-- What a reader builds under a shape may be a member of a set exactly when the shape says so. -/
def Freezes (shape : Shape) (read : Reader) : Prop :=
  ∀ node path value findings, read node path = .built value findings →
    value.hashable = shape.freezes node

theorem freezes_orNull {read : Reader}
    (freezes : ∀ node path value findings, node.isNull = false →
      read node path = .built value findings → value.hashable = shape.freezes node) :
    Freezes shape (orNull read) := by
  intro node path value findings built
  cases null : node.isNull with
  | true =>
    rw [orNull_of_isNull null] at built
    obtain ⟨rfl, -⟩ := Walk.built.inj built
    simp [Value.hashable, Shape.freezes, null]
  | false =>
    rw [orNull_of_present null] at built
    exact freezes node path value findings null built

theorem hashable_of_wrapped {walk : Walk α} {wrap : α → Value}
    (never : ∀ parts, (wrap parts).hashable = false)
    (built : (walk >>= fun parts => pure (wrap parts)) = .built value findings) :
    value.hashable = false := by
  obtain ⟨parts, -, rfl⟩ := Walk.map_eq_built_iff.mp built
  exact never parts

/-- Scalars and members of enumerations may always be members and keys; collections and documents never
are. -/
theorem reader_freezes (shape : Shape) : Freezes shape (reader shape) := by
  cases shape with
  | str =>
    refine freezes_orNull fun node path value findings present built => ?_
    cases readStr_conforms built
    simp [Value.hashable, Shape.freezes]
  | int =>
    refine freezes_orNull fun node path value findings present built => ?_
    cases readInt_conforms built
    simp [Value.hashable, Shape.freezes]
  | float =>
    refine freezes_orNull fun node path value findings present built => ?_
    cases readFloat_conforms built
    simp [Value.hashable, Shape.freezes]
  | bool =>
    refine freezes_orNull fun node path value findings present built => ?_
    cases readBool_conforms built
    simp [Value.hashable, Shape.freezes]
  | enumeration type =>
    refine freezes_orNull fun node path value findings present built => ?_
    cases readMember_conforms built
    simp [Value.hashable, Shape.freezes]
  | native type =>
    refine freezes_orNull fun node path value findings present built => ?_
    unfold readNative at built
    split at built <;> cases built
    simp [Shape.freezes, present]
  | list shape =>
    rw [reader]
    refine freezes_orNull fun node path value findings present built => ?_
    split at built
    · simp [hashable_of_wrapped (by simp [Value.hashable]) built, Shape.freezes, Tree.isNull]
    · cases built
  | set shape =>
    rw [reader]
    refine freezes_orNull fun node path value findings present built => ?_
    split at built
    · simp [hashable_of_wrapped (by simp [Value.hashable]) built, Shape.freezes, present]
    · cases built
  | map key shape =>
    rw [reader]
    refine freezes_orNull fun node path value findings present built => ?_
    split at built
    · simp [hashable_of_wrapped (by simp [Value.hashable]) built, Shape.freezes, Tree.isNull]
    · cases built
  | document name settings =>
    rw [reader]
    refine freezes_orNull fun node path value findings present built => ?_
    split at built
    · simp [hashable_of_wrapped (by simp [Value.hashable]) built, Shape.freezes, Tree.isNull]
    · cases built

theorem frozen_follows {value : Value} {next : Walk α} (frozen : value.hashable = shape.freezes node)
    (follows : next.Follows later) :
    (if value.hashable then next else .fail .kind).Follows (.member shape node :: later) := by
  cases hashable : value.hashable with
  | true =>
    have calm : (Visit.member shape node).trouble? = none := by
      simp [Visit.trouble?, ← frozen, hashable]
    exact follows.after calm rfl
  | false => exact Follows.stops (by simp [Visit.trouble?, ← frozen, hashable])

theorem readMembers_follows (follows : ∀ node path, (read node path).Follows (visit node path))
    (freezes : Freezes shape read) (path : Str) (index : Nat) (members : List Value)
    (items : List Tree) :
    (readMembers read path index members items).Follows
      (memberVisits shape visit path index items) := by
  induction items generalizing index members with
  | nil => exact follows_accept members
  | cons item items ih =>
    rw [readMembers_cons]
    exact (follows item _).bind fun value findings built =>
      frozen_follows (freezes _ _ value findings built) (ih (index + 1) _)

theorem readEntries_follows
    (followsKey : ∀ node path, (readKey node path).Follows (visitKey node path))
    (follows : ∀ node path, (read node path).Follows (visit node path))
    (freezes : Freezes keyShape readKey) (path : Str) (taken : List (Value × Value))
    (entries : List (Scalar × Tree)) :
    (readEntries readKey read path taken entries).Follows
      (pairVisits keyShape visitKey visit path entries) := by
  induction entries generalizing taken with
  | nil => exact follows_accept taken
  | cons entry entries ih =>
    obtain ⟨key, node⟩ := entry
    rw [readEntries_cons]
    refine (followsKey (.scalar key) path).bind fun newKey ofKey keyBuilt => ?_
    refine (nameOf_follows key).bind fun title _ named => ?_
    obtain ⟨-, rfl, -⟩ := nameOf_eq_built_iff.mp named
    exact (follows node _).bind fun value _ _ => frozen_follows (freezes _ _ _ _ keyBuilt) (ih _)

end parts

theorem readSetting_follows {setting : Setting Shape} {key : Scalar} {node : Tree} {path : Str}
    (writable : key.writable = true)
    (follows : (reader setting.shape node path).Follows (visits setting.shape node path)) :
    (readSetting setting (reader setting.shape) node path).Follows
      (.entry (some setting) path key node :: visits setting.shape node path) := by
  rw [readSetting_eq]
  split
  · next nullified =>
    rw [visits_of_isNull _ _ (Bool.and_eq_true_iff.mp nullified).1]
    exact follows_noted Value.null (Visit.entry_trouble? writable) (if_pos nullified)
  · next allowed => exact follows.after (Visit.entry_trouble? writable) (if_neg allowed)

theorem readSettings_follows {settings : List (Setting Shape)}
    (follows : ∀ setting ∈ settings, ∀ node path,
      (reader setting.shape node path).Follows (visits setting.shape node path))
    (path : Str) (slots : List (Slot Value)) (entries : List (Scalar × Tree)) :
    (readSettings (readers settings) path slots entries).Follows
      (entryVisits (visitors settings) path entries) := by
  induction entries generalizing slots with
  | nil => exact follows_accept slots
  | cons entry entries ih =>
    obtain ⟨key, node⟩ := entry
    rw [readSettings_cons, entryVisits, find?_visitors]
    cases writable : key.writable with
    | false =>
      rw [nameOf_unwritable writable]
      split <;> exact Follows.stops (if_neg (by simp [writable]))
    | true =>
      rw [nameOf_writable writable, pure_bind]
      cases found : settings.find? (·.name == key.text) with
      | none => exact (follows_noted () (Visit.entry_trouble? writable) rfl).bind fun _ _ _ => ih slots
      | some setting =>
        have known := follows setting (List.mem_of_find?_eq_some found) node (join path key.text)
        exact (readSetting_follows writable known).bind fun value _ _ => ih _

/-- A node is looked at before its parts; null is taken as it is. -/
theorem orNull_follows {read : Reader} {shape : Shape} {parts : Visitor}
    (follows : ∀ node path, node.isNull = false →
      (read node path).Follows (.form shape path node :: parts node path))
    (node : Tree) (path : Str) :
    (orNull read node path).Follows (visiting shape parts node path) := by
  unfold orNull visiting
  cases null : node.isNull with
  | true => exact follows_accept Value.null
  | false => exact follows node path null

theorem misfit_follows (shape : Shape) {node : Tree} {path : Str}
    (unfit : shape.fits node = false) :
    (refuse shape.typeName node path : Walk α).Follows (.form shape path node :: later) :=
  Follows.stops (by simp [Visit.trouble?, Shape.trouble?, unfit])

theorem form_follows {shape : Shape} {node : Tree} {path : Str} {value : Value}
    (calm : shape.trouble? path node = none) : (accept value).Follows [.form shape path node] :=
  Follows.after calm rfl (follows_accept value)

theorem readStr_follows (node : Tree) (path : Str) :
    (readStr node path).Follows [.form .str path node] := by
  unfold readStr
  split
  · exact misfit_follows .str rfl
  · exact misfit_follows .str rfl
  · have fit : Shape.fits .str node = true := by simp [Shape.fits]
    cases writable : node.writable with
    | true => exact form_follows (by simp [Shape.trouble?, fit, Shape.strain?, writable])
    | false =>
      exact Follows.stops (by simp [Visit.trouble?, Shape.trouble?, fit, Shape.strain?, writable])

theorem readInt_follows (node : Tree) (path : Str) :
    (readInt node path).Follows [.form .int path node] := by
  unfold readInt
  split
  · exact form_follows rfl
  · exact misfit_follows .int (by simp [Shape.fits])

theorem readFloat_follows (node : Tree) (path : Str) :
    (readFloat node path).Follows [.form .float path node] := by
  unfold readFloat
  split
  · exact form_follows rfl
  · next value =>
    cases found : Binary64.ofInt? value with
    | some x => exact form_follows (by simp [Shape.trouble?, Shape.fits, Shape.strain?, found])
    | none =>
      exact Follows.stops
        (by simp [Visit.trouble?, Shape.trouble?, Shape.fits, Shape.strain?, found])
  · exact misfit_follows .float (by simp [Shape.fits])

theorem readBool_follows (node : Tree) (path : Str) :
    (readBool node path).Follows [.form .bool path node] := by
  unfold readBool
  split
  · exact form_follows rfl
  · exact misfit_follows .bool (by simp [Shape.fits])

theorem readNative_follows (type : NativeType) (node : Tree) (path : Str) :
    (readNative type node path).Follows [.form (.native type) path node] := by
  unfold readNative
  split
  · next fit => exact form_follows (by simp [Shape.trouble?, Shape.fits, Shape.strain?, fit])
  · next unfit => exact misfit_follows (.native type) (by simpa [Shape.fits] using unfit)

theorem readMember_eq (type : Enumeration) (node : Tree) (path : Str) :
    readMember type node path =
      match Shape.memberOf? type node with
      | some member => accept member
      | none => refuse type.name node path := by
  have either (byName : Option Value) :
      (match byName with
        | some member => accept member
        | none =>
          match type.withValue? node.toValue with
          | some member => accept member
          | none => refuse type.name node path) =
        match byName.or (type.withValue? node.toValue) with
        | some member => accept member
        | none => refuse type.name node path := by
    cases byName <;> rfl
  exact either _

theorem readMember_follows (type : Enumeration) (node : Tree) (path : Str) :
    (readMember type node path).Follows [.form (.enumeration type) path node] := by
  rw [readMember_eq]
  cases found : Shape.memberOf? type node with
  | some member => exact form_follows (by simp [Shape.trouble?, Shape.fits, Shape.strain?, found])
  | none => exact misfit_follows (.enumeration type) (by simp [Shape.fits, found])

/-- A walk follows its visits. -/
theorem reader_follows (shape : Shape) (node : Tree) (path : Str) :
    (reader shape node path).Follows (visits shape node path) := by
  induction shape generalizing node path with
  | str => exact orNull_follows (fun node path _ => readStr_follows node path) node path
  | int => exact orNull_follows (fun node path _ => readInt_follows node path) node path
  | float => exact orNull_follows (fun node path _ => readFloat_follows node path) node path
  | bool => exact orNull_follows (fun node path _ => readBool_follows node path) node path
  | native type =>
    exact orNull_follows (fun node path _ => readNative_follows type node path) node path
  | enumeration type =>
    exact orNull_follows (fun node path _ => readMember_follows type node path) node path
  | list shape ih =>
    rw [reader, visits]
    refine orNull_follows (fun node path _ => ?_) node path
    split
    · exact Follows.after rfl rfl ((readItems_follows ih _ _ _).map _)
    · exact misfit_follows (.list shape) (by simp [Shape.fits])
  | set shape ih =>
    rw [reader, visits]
    refine orNull_follows (fun node path _ => ?_) node path
    cases parts : parts? node with
    | some items =>
      exact Follows.after (by simp [Visit.trouble?, Shape.trouble?, Shape.fits, Shape.strain?, parts]) rfl
        ((readMembers_follows ih (reader_freezes shape) _ _ _ _).map _)
    | none => exact misfit_follows (.set shape) (by simp [Shape.fits, parts])
  | map key shape ihKey ih =>
    rw [reader, visits]
    refine orNull_follows (fun node path _ => ?_) node path
    split
    · exact Follows.after rfl rfl ((readEntries_follows ihKey ih (reader_freezes key) _ _ _).map _)
    · exact misfit_follows (.map key shape) (by simp [Shape.fits])
  | document name settings ih =>
    rw [reader, visits]
    refine orNull_follows (fun node path _ => ?_) node path
    split
    · exact Follows.after rfl rfl ((readSettings_follows ih _ _ _).map _)
    · exact misfit_follows (.document name settings) (by simp [Shape.fits])

theorem rootWalk_follows (schema : Schema) (tree : Tree) :
    (rootWalk schema tree).Follows (visits schema.shape tree "") := by
  unfold rootWalk
  cases null : tree.isNull with
  | true =>
    rw [visits_of_isNull _ _ null]
    exact follows_accept schema.newDocument
  | false => exact reader_follows schema.shape tree ""

end Decode

end LayeredConfig
