import LayeredConfig.Decode
import LayeredConfig.Proofs.Schema.Slots

namespace LayeredConfig

namespace Walk

theorem bind_eq_built_iff {walk : Walk α} {next : α → Walk β} {result : β} {findings : List Finding} :
    walk >>= next = .built result findings ↔
      ∃ value before later, walk = .built value before ∧ next value = .built result later ∧
        findings = before ++ later := by
  cases walk with
  | stopped failure => simp [Bind.bind, andThen]
  | built value before =>
    cases step : next value with
    | stopped failure => simp [Bind.bind, andThen, step]
    | built final later =>
      simp only [Bind.bind, andThen, step, built.injEq]
      constructor
      · intro same
        obtain ⟨rfl, rfl⟩ := same
        exact ⟨value, before, later, ⟨rfl, rfl⟩, step, rfl⟩
      · intro steps
        obtain ⟨_, _, _, ⟨rfl, rfl⟩, again, rfl⟩ := steps
        obtain ⟨rfl, rfl⟩ := built.inj (step.symm.trans again)
        exact ⟨rfl, rfl⟩

theorem pure_eq_built_iff {value result : α} {findings : List Finding} :
    (pure value : Walk α) = .built result findings ↔ value = result ∧ findings = [] := by
  simp only [Pure.pure, accept, built.injEq]
  exact and_congr_right fun _ => eq_comm

theorem built_bind {walk : Walk α} {value : α} {before later : List Finding} {result : β}
    {next : α → Walk β} (first : walk = .built value before)
    (second : next value = .built result later) :
    walk >>= next = .built result (before ++ later) :=
  bind_eq_built_iff.mpr ⟨value, before, later, first, second, rfl⟩

/-- What is made of the parts that a walk built comes with the findings of the parts alone. -/
theorem map_eq_built_iff {walk : Walk α} {f : α → β} {result : β} {findings : List Finding} :
    (walk >>= fun value => pure (f value)) = .built result findings ↔
      ∃ value, walk = .built value findings ∧ f value = result := by
  rw [bind_eq_built_iff]
  constructor
  · intro steps
    obtain ⟨value, before, later, built, made, rfl⟩ := steps
    obtain ⟨same, rfl⟩ := pure_eq_built_iff.mp made
    exact ⟨value, (List.append_nil before).symm ▸ built, same⟩
  · intro made
    obtain ⟨value, built, same⟩ := made
    exact ⟨value, findings, [], built, pure_eq_built_iff.mpr ⟨same, rfl⟩,
      (List.append_nil findings).symm⟩

end Walk

namespace Decode

theorem nameOf_writable {key : Scalar} (writable : key.writable = true) :
    nameOf key = pure key.text :=
  if_pos writable

theorem nameOf_unwritable {key : Scalar} (long : key.writable = false) :
    nameOf key = .stopped (.fault .content) :=
  if_neg (by simp [long])

theorem nameOf_eq_built_iff {key : Scalar} {title : Str} {findings : List Finding} :
    nameOf key = .built title findings ↔
      key.writable = true ∧ title = key.text ∧ findings = [] := by
  cases writable : key.writable with
  | false => simp [nameOf, writable, Walk.fail]
  | true =>
    simp only [nameOf, writable, if_true, Walk.accept, Walk.built.injEq, true_and]
    exact and_congr eq_comm eq_comm

theorem readers_eq (settings : List (Setting Shape)) :
    readers settings = settings.map fun setting => (setting, reader setting.shape) := by
  induction settings with
  | nil => rfl
  | cons setting settings ih => rw [readers, ih, List.map_cons]

theorem find?_readers (settings : List (Setting Shape)) (title : Str) :
    (readers settings).find? (·.1.name == title) =
      (settings.find? (·.name == title)).map fun setting => (setting, reader setting.shape) := by
  rw [readers_eq, List.find?_map]
  rfl

theorem orNull_of_isNull {read : Reader} {node : Tree} {path : Str} (null : node.isNull = true) :
    orNull read node path = .accept .null :=
  if_pos null

theorem orNull_of_present {read : Reader} {node : Tree} {path : Str}
    (present : node.isNull = false) : orNull read node path = read node path :=
  if_neg (by simp [present])

theorem reader_of_isNull {node : Tree} (shape : Shape) (path : Str) (null : node.isNull = true) :
    reader shape node path = .accept .null := by
  cases shape <;> simpa only [reader] using orNull_of_isNull null

theorem readSetting_eq (setting : Setting Shape) (node : Tree) (path : Str) :
    readSetting setting (reader setting.shape) node path =
      if node.isNull && !setting.nullable then .built .null [.nullified path]
      else reader setting.shape node path := by
  cases null : node.isNull with
  | false => simp [readSetting, null]
  | true =>
    cases optional : setting.nullable with
    | false => simp [readSetting, null, optional, Walk.note, Bind.bind, Walk.andThen, Pure.pure,
        Walk.accept]
    | true => simp [readSetting, null, optional, reader_of_isNull, Pure.pure]

theorem readMembers_cons (read : Reader) (path : Str) (index : Nat) (members : List Value)
    (item : Tree) (items : List Tree) :
    readMembers read path index members (item :: items) =
      read item (element path index) >>= fun value =>
        if value.hashable then
          readMembers read path (index + 1) (Members.insert Value.same value members) items
        else .fail .kind := by
  rw [readMembers]
  refine congrArg _ (funext fun value => ?_)
  cases value.hashable <;> rfl

theorem readEntries_cons (readKey readValue : Reader) (path : Str) (taken : List (Value × Value))
    (key : Scalar) (node : Tree) (entries : List (Scalar × Tree)) :
    readEntries readKey readValue path taken ((key, node) :: entries) =
      readKey (.scalar key) path >>= fun newKey =>
        nameOf key >>= fun title =>
          readValue node (join path title) >>= fun value =>
            if newKey.hashable then
              readEntries readKey readValue path (Entries.put Value.same newKey value taken) entries
            else .fail .kind := by
  rw [readEntries]
  refine congrArg _ (funext fun newKey => congrArg _ (funext fun title =>
    congrArg _ (funext fun value => ?_)))
  cases newKey.hashable <;> rfl

theorem readSettings_cons (settings : List (Setting Shape)) (path : Str)
    (slots : List (Slot Value)) (key : Scalar) (node : Tree) (entries : List (Scalar × Tree)) :
    readSettings (readers settings) path slots ((key, node) :: entries) =
      nameOf key >>= fun title =>
        match settings.find? (·.name == title) with
        | none =>
          Walk.note (.unknown (join path title)) >>= fun _ =>
            readSettings (readers settings) path slots entries
        | some setting =>
          readSetting setting (reader setting.shape) node (join path title) >>= fun value =>
            readSettings (readers settings) path (Slot.assign title value slots) entries := by
  rw [readSettings]
  refine congrArg _ (funext fun title => ?_)
  rw [find?_readers]
  cases settings.find? (·.name == title) <;> rfl

/-- The walk over a whole tree; null is a document with all defaults. -/
def rootWalk (schema : Schema) (tree : Tree) : Walk Value :=
  if tree.isNull then .accept schema.newDocument else reader schema.shape tree ""

theorem ofTree_eq (schema : Schema) (source : String) (tree : Tree) :
    ofTree schema source tree =
      match rootWalk schema tree with
      | .built document findings => .ok ⟨document, .ofFindings findings⟩
      | .stopped stop => .error (WalkFailure.toFailure source stop) :=
  rfl

theorem ofTree_eq_ok_iff {schema : Schema} {source : String} {tree : Tree} {result : Result} :
    ofTree schema source tree = .ok result ↔
      ∃ findings, rootWalk schema tree = .built result.document findings ∧
        result.report = .ofFindings findings := by
  rw [ofTree_eq]
  cases rootWalk schema tree with
  | stopped failure => simp
  | built document findings =>
    obtain ⟨document', report⟩ := result
    simp only [Except.ok.injEq, Result.mk.injEq, Walk.built.injEq]
    constructor
    · intro read
      obtain ⟨same, listed⟩ := read
      exact ⟨findings, ⟨same, rfl⟩, listed.symm⟩
    · intro read
      obtain ⟨_, ⟨same, rfl⟩, listed⟩ := read
      exact ⟨same, listed.symm⟩

theorem ofTree_eq_error_iff {schema : Schema} {source : String} {tree : Tree} {failure : Failure} :
    ofTree schema source tree = .error failure ↔
      ∃ stop, rootWalk schema tree = .stopped stop ∧ failure = WalkFailure.toFailure source stop := by
  rw [ofTree_eq]
  cases rootWalk schema tree with
  | stopped stop => simp [eq_comm]
  | built document findings => simp

theorem names_readSettings {settings : List (Setting Shape)} {entries : List (Scalar × Tree)}
    {slots result : List (Slot Value)}
    (built : readSettings (readers settings) path slots entries = .built result findings) :
    result.map (·.name) = slots.map (·.name) := by
  induction entries generalizing slots findings with
  | nil => rw [(Walk.pure_eq_built_iff.mp built).1]
  | cons entry entries ih =>
    obtain ⟨key, node⟩ := entry
    rw [readSettings_cons] at built
    obtain ⟨title, _, _, -, step, -⟩ := Walk.bind_eq_built_iff.mp built
    split at step
    · obtain ⟨_, _, _, -, rest, -⟩ := Walk.bind_eq_built_iff.mp step
      exact ih rest
    · obtain ⟨value, _, _, -, rest, -⟩ := Walk.bind_eq_built_iff.mp step
      exact (ih rest).trans (Slot.names_assign title value slots)

/-- Opens the walk over a node under the shape of a document. -/
theorem reader_document_eq_built_iff {settings : List (Setting Shape)} {node : Tree}
    (present : node.isNull = false) :
    reader (.document name settings) node path = .built value findings ↔
      ∃ mark entries slots, node = .map mark entries ∧ value = .document name slots ∧
        readSettings (readers settings) path (Schema.newSlots settings) entries =
          .built slots findings := by
  rw [reader, orNull_of_present present]
  split
  · next mark entries =>
    rw [Walk.map_eq_built_iff]
    constructor
    · intro read
      obtain ⟨slots, built, rfl⟩ := read
      exact ⟨mark, entries, slots, rfl, rfl, built⟩
    · intro read
      obtain ⟨_, _, slots, ⟨rfl, rfl⟩, rfl, built⟩ := read
      exact ⟨slots, built, rfl⟩
  · next other =>
    constructor
    · intro refused
      cases refused
    · intro read
      obtain ⟨mark, entries, -, rfl, -⟩ := read
      exact absurd rfl (other mark entries)

theorem ofTree_document {schema : Schema} {result : Result}
    (decoded : ofTree schema source tree = .ok result) :
    ∃ slots, result.document = .document schema.name slots ∧ slots.map (·.name) = schema.names := by
  have fresh : (Schema.newSlots schema.settings).map (·.name) = schema.names := by
    simp [Schema.newSlots, Schema.names]
  obtain ⟨findings, walk, -⟩ := ofTree_eq_ok_iff.mp decoded
  unfold rootWalk at walk
  split at walk
  · exact ⟨_, (Walk.built.inj walk).1.symm, fresh⟩
  · next present =>
    obtain ⟨_, _, slots, -, same, built⟩ :=
      (reader_document_eq_built_iff (Bool.eq_false_iff.mpr present)).mp walk
    exact ⟨slots, same, (names_readSettings built).trans fresh⟩

theorem decode_document {schema : Schema} {result : Result}
    (decoded : decode schema source bytes = .ok result) :
    ∃ slots, result.document = .document schema.name slots ∧ slots.map (·.name) = schema.names := by
  unfold decode at decoded
  split at decoded
  · cases decoded
  · obtain rfl := Except.ok.inj decoded
    exact ⟨_, rfl, by simp [Schema.newSlots, Schema.names]⟩
  · exact ofTree_document decoded

end Decode

end LayeredConfig
