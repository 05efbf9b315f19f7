import LayeredConfig.Proofs.Decode.Visits

namespace LayeredConfig

def Finding.isNullified : Finding → Bool
  | .unknown _ => false
  | .nullified _ => true

namespace Decode

/-- A way to change a node. -/
abbrev Pruner := Tree → Tree

/-- The entries with settings, each with its node changed in the way of its setting. -/
def prunedEntries (pruners : List (Setting Shape × Pruner)) :
    List (Scalar × Tree) → List (Scalar × Tree)
  | [] => []
  | (key, node) :: entries =>
    match pruners.find? (·.1.name == key.text) with
    | none => prunedEntries pruners entries
    | some (_, prune) => (key, prune node) :: prunedEntries pruners entries

mutual

/-- A node without the unknown entries of the documents in it. -/
def pruned : Shape → Pruner
  | .list shape => fun node =>
    match node with
    | .seq mark items => .seq mark (items.map (pruned shape))
    | node => node
  | .set shape => fun node =>
    match node with
    | .seq mark items => .seq mark (items.map (pruned shape))
    | node => node
  | .map _ shape => fun node =>
    match node with
    | .map mark entries => .map mark (entries.map fun (key, node) => (key, pruned shape node))
    | node => node
  | .document _ settings => fun node =>
    match node with
    | .map mark entries => .map mark (prunedEntries (pruners settings) entries)
    | node => node
  | _ => id

def pruners : List (Setting Shape) → List (Setting Shape × Pruner)
  | [] => []
  | ⟨name, shape, default⟩ :: settings => (⟨name, shape, default⟩, pruned shape) :: pruners settings

end

theorem pruners_eq (settings : List (Setting Shape)) :
    pruners settings = settings.map fun setting => (setting, pruned setting.shape) := by
  induction settings with
  | nil => rfl
  | cons setting settings ih => rw [pruners, ih, List.map_cons]

theorem find?_pruners (settings : List (Setting Shape)) (title : Str) :
    (pruners settings).find? (·.1.name == title) =
      (settings.find? (·.name == title)).map fun setting => (setting, pruned setting.shape) := by
  rw [pruners_eq, List.find?_map]
  rfl

theorem prunedEntries_cons (settings : List (Setting Shape)) (key : Scalar) (node : Tree)
    (entries : List (Scalar × Tree)) :
    prunedEntries (pruners settings) ((key, node) :: entries) =
      match settings.find? (·.name == key.text) with
      | none => prunedEntries (pruners settings) entries
      | some setting => (key, pruned setting.shape node) :: prunedEntries (pruners settings) entries := by
  rw [prunedEntries, find?_pruners]
  cases settings.find? (·.name == key.text) <;> rfl

theorem pruned_scalar (shape : Shape) (value : Scalar) : pruned shape (.scalar value) = .scalar value := by
  cases shape <;> rfl

theorem isNull_pruned (shape : Shape) (node : Tree) : (pruned shape node).isNull = node.isNull := by
  cases shape <;> cases node <;> rfl

theorem parts?_pruned (shape : Shape) (node : Tree) :
    parts? (pruned (.set shape) node) = (parts? node).map (·.map (pruned shape)) := by
  cases node with
  | set members =>
    simp only [pruned, parts?, Option.map_some, List.map_map]
    exact congrArg some (List.map_congr_left fun value _ => (pruned_scalar shape value).symm)
  | _ => rfl

/-- Whatever is built from a node is built from the pruned one, with the nullified settings alone. -/
def Survives (read : Reader) (prune : Pruner) : Prop :=
  ∀ node path value findings, read node path = .built value findings →
    read (prune node) path = .built value (findings.filter Finding.isNullified)

theorem readItems_survives {read : Reader} {prune : Pruner} (survives : Survives read prune)
    {items : List Tree} {values : List Value}
    (built : readItems read path index items = .built values findings) :
    readItems read path index (items.map prune) =
      .built values (findings.filter Finding.isNullified) := by
  induction items generalizing index values findings with
  | nil =>
    obtain ⟨rfl, rfl⟩ := Walk.pure_eq_built_iff.mp built
    rfl
  | cons item items ih =>
    obtain ⟨value, before, later, first, tail, rfl⟩ := Walk.bind_eq_built_iff.mp built
    obtain ⟨others, rest, same⟩ := Walk.map_eq_built_iff.mp tail
    rw [List.filter_append]
    have kept := Walk.map_eq_built_iff.mpr ⟨others, ih rest, same⟩
    exact Walk.built_bind (survives _ _ _ _ first) kept

theorem readMembers_survives {read : Reader} {prune : Pruner} (survives : Survives read prune)
    {items : List Tree} {members values : List Value}
    (built : readMembers read path index members items = .built values findings) :
    readMembers read path index members (items.map prune) =
      .built values (findings.filter Finding.isNullified) := by
  induction items generalizing index members values findings with
  | nil =>
    obtain ⟨rfl, rfl⟩ := Walk.pure_eq_built_iff.mp built
    rfl
  | cons item items ih =>
    rw [readMembers_cons, Walk.bind_eq_built_iff] at built
    obtain ⟨value, before, later, first, rest, rfl⟩ := built
    rw [List.map_cons, readMembers_cons, List.filter_append]
    apply Walk.built_bind (survives _ _ _ _ first)
    split at rest
    · next hashable =>
      rw [if_pos hashable]
      exact ih rest
    · cases rest

theorem readEntries_survives {readKey read : Reader} {pruneKey prune : Pruner}
    (survivesKey : Survives readKey pruneKey) (same : ∀ key, pruneKey (.scalar key) = .scalar key)
    (survives : Survives read prune) {entries : List (Scalar × Tree)}
    {taken values : List (Value × Value)}
    (built : readEntries readKey read path taken entries = .built values findings) :
    readEntries readKey read path taken (entries.map fun (key, node) => (key, prune node)) =
      .built values (findings.filter Finding.isNullified) := by
  induction entries generalizing taken values findings with
  | nil =>
    obtain ⟨rfl, rfl⟩ := Walk.pure_eq_built_iff.mp built
    rfl
  | cons entry entries ih =>
    obtain ⟨key, node⟩ := entry
    simp only [readEntries_cons, Walk.bind_eq_built_iff] at built
    obtain ⟨newKey, ofKey, _, keyBuilt, ⟨title, none, _, named, ⟨value, ofValue, later, valueBuilt,
      rest, rfl⟩, rfl⟩, rfl⟩ := built
    obtain ⟨writable, rfl, rfl⟩ := nameOf_eq_built_iff.mp named
    rw [List.map_cons, readEntries_cons, List.filter_append, List.nil_append, List.filter_append]
    apply Walk.built_bind (same key ▸ survivesKey _ _ _ _ keyBuilt)
    rw [nameOf_writable writable, pure_bind]
    apply Walk.built_bind (survives _ _ _ _ valueBuilt)
    split at rest
    · next hashable =>
      rw [if_pos hashable]
      exact ih rest
    · cases rest

theorem readSettings_survives {settings : List (Setting Shape)}
    (survives : ∀ setting ∈ settings, Survives (reader setting.shape) (pruned setting.shape))
    {entries : List (Scalar × Tree)} {slots result : List (Slot Value)}
    (built : readSettings (readers settings) path slots entries = .built result findings) :
    readSettings (readers settings) path slots (prunedEntries (pruners settings) entries) =
      .built result (findings.filter Finding.isNullified) := by
  induction entries generalizing slots findings with
  | nil =>
    obtain ⟨rfl, rfl⟩ := Walk.pure_eq_built_iff.mp built
    rfl
  | cons entry entries ih =>
    obtain ⟨key, node⟩ := entry
    rw [readSettings_cons, Walk.bind_eq_built_iff] at built
    obtain ⟨title, none, later, named, step, rfl⟩ := built
    obtain ⟨writable, rfl, rfl⟩ := nameOf_eq_built_iff.mp named
    rw [prunedEntries_cons, List.nil_append]
    cases known : settings.find? (·.name == key.text) with
    | none =>
      rw [known] at step
      obtain ⟨_, _, others, noted, rest, rfl⟩ := Walk.bind_eq_built_iff.mp step
      obtain ⟨-, rfl⟩ := Walk.built.inj noted
      have kept := ih rest
      exact kept
    | some setting =>
      rw [known] at step
      obtain ⟨value, own, others, ofSetting, rest, rfl⟩ := Walk.bind_eq_built_iff.mp step
      simp only [readSettings_cons, nameOf_writable writable, pure_bind, known, List.filter_append]
      refine Walk.built_bind ?_ (ih rest)
      rw [readSetting_eq] at ofSetting ⊢
      rw [isNull_pruned]
      split at ofSetting
      · next nullified =>
        obtain ⟨rfl, rfl⟩ := Walk.built.inj ofSetting
        exact if_pos nullified
      · next allowed =>
        rw [if_neg allowed]
        exact survives setting (List.mem_of_find?_eq_some known) node _ value own ofSetting

theorem orNull_survives {read : Reader} {shape : Shape}
    (survives : ∀ node path value findings, node.isNull = false →
      read node path = .built value findings →
        read (pruned shape node) path = .built value (findings.filter Finding.isNullified)) :
    Survives (orNull read) (pruned shape) := by
  intro node path value findings built
  cases null : node.isNull with
  | true =>
    rw [orNull_of_isNull null] at built
    obtain ⟨rfl, rfl⟩ := Walk.built.inj built
    exact orNull_of_isNull ((isNull_pruned shape node).trans null)
  | false =>
    rw [orNull_of_present null] at built
    rw [orNull_of_present ((isNull_pruned shape node).trans null)]
    exact survives node path value findings null built

/-- What a collection or a document is made of survives, and so does the whole. -/
theorem wrapped_survives {walk kept : Walk α} {wrap : α → Value}
    (survives : ∀ {parts findings}, walk = .built parts findings →
      kept = .built parts (findings.filter Finding.isNullified))
    (built : (walk >>= fun parts => pure (wrap parts)) = .built value findings) :
    (kept >>= fun parts => pure (wrap parts)) =
      .built value (findings.filter Finding.isNullified) := by
  obtain ⟨parts, whole, same⟩ := Walk.map_eq_built_iff.mp built
  exact Walk.map_eq_built_iff.mpr ⟨parts, survives whole, same⟩

theorem survives_leaf {shape : Shape} (leaf : visits shape = visiting shape fun _ _ => [])
    (same : pruned shape = id) : Survives (reader shape) (pruned shape) := by
  intro node path value findings built
  have silent : findings = [] := by
    rw [(reader_follows shape node path).findings_eq built, leaf, visiting]
    split <;> rfl
  subst silent
  rw [same]
  exact built

theorem pruned_survives (shape : Shape) : Survives (reader shape) (pruned shape) := by
  induction shape with
  | str => exact survives_leaf rfl rfl
  | int => exact survives_leaf rfl rfl
  | float => exact survives_leaf rfl rfl
  | bool => exact survives_leaf rfl rfl
  | native type => exact survives_leaf rfl rfl
  | enumeration type => exact survives_leaf rfl rfl
  | list shape ih =>
    rw [reader]
    refine orNull_survives fun node path value findings present built => ?_
    split at built
    · exact wrapped_survives (readItems_survives ih) built
    · cases built
  | set shape ih =>
    rw [reader]
    refine orNull_survives fun node path value findings present built => ?_
    simp only [parts?_pruned]
    split at built
    · next items parts =>
      rw [parts]
      exact wrapped_survives (readMembers_survives ih) built
    · cases built
  | map key shape ihKey ih =>
    rw [reader]
    refine orNull_survives fun node path value findings present built => ?_
    split at built
    · exact wrapped_survives (readEntries_survives ihKey (pruned_scalar key) ih) built
    · cases built
  | document name settings ih =>
    rw [reader]
    refine orNull_survives fun node path value findings present built => ?_
    split at built
    · exact wrapped_survives (readSettings_survives ih) built
    · cases built

theorem ofFindings_filter (findings : List Finding) :
    Report.ofFindings (findings.filter Finding.isNullified) =
      ⟨[], (Report.ofFindings findings).nullified⟩ := by
  simp only [Report.ofFindings, Report.ofPaths, List.filterMap_filter, Report.mk.injEq]
  constructor
  · refine (congrArg dedupe (List.filterMap_eq_nil_iff.mpr fun finding _ => ?_)).trans rfl
    cases finding <;> rfl
  · congr 2
    funext finding
    cases finding <;> rfl

/-- Without its unknown entries a tree stands for the same document, with the same nullified settings and
no unknown ones. -/
theorem ofTree_pruned {schema : Schema} {result : Result}
    (decoded : ofTree schema source tree = .ok result) :
    ofTree schema source (pruned schema.shape tree) =
      .ok ⟨result.document, ⟨[], result.report.nullified⟩⟩ := by
  obtain ⟨findings, walk, listed⟩ := ofTree_eq_ok_iff.mp decoded
  refine ofTree_eq_ok_iff.mpr ⟨findings.filter Finding.isNullified, ?_, ?_⟩
  · unfold rootWalk at walk ⊢
    rw [isNull_pruned]
    split at walk
    · next null =>
      obtain ⟨same, rfl⟩ := Walk.built.inj walk
      rw [if_pos null, ← same]
      rfl
    · next present =>
      rw [if_neg present]
      exact pruned_survives schema.shape tree "" result.document findings walk
  · rw [listed, ofFindings_filter]

end Decode

end LayeredConfig
