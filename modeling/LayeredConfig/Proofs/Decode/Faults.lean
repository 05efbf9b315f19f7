import LayeredConfig.Proofs.Decode.Visits

namespace LayeredConfig

/-- The visits that end a walk with a fault, and the fault. -/
inductive Visit.Faults : Visit → Fault → Prop
  /-- The key of an entry cannot be written. -/
  | entry (unwritable : key.writable = false) : Faults (.entry known path key node) .content
  | label (unwritable : key.writable = false) : Faults (.label key) .content
  /-- A node cannot be written as the text that it stands for. -/
  | text (fits : Shape.fits .str node = true) (unwritable : node.writable = false) :
      Faults (.form .str path node) .content
  /-- A whole number is too large for a fraction. -/
  | magnitude (large : Binary64.ofInt? value = none) :
      Faults (.form .float path (.scalar (.int value))) .magnitude
  /-- A node has another form, but the message about it cannot be written. -/
  | message {shape : Shape} (unfit : shape.fits node = false) (unwritable : node.writable = false) :
      Faults (.form shape path node) .content
  /-- A collection or a document would become a member of a set or a key. -/
  | member {shape : Shape} (changes : shape.freezes node = false) : Faults (.member shape node) .kind

namespace Decode

theorem strain?_eq_some_iff {shape : Shape} {node : Tree} {fault : Fault} :
    shape.strain? node = some fault ↔
      (shape = .str ∧ node.writable = false ∧ fault = .content) ∨
        ∃ value, shape = .float ∧ node = .scalar (.int value) ∧ Binary64.ofInt? value = none ∧
          fault = .magnitude := by
  unfold Shape.strain?
  split
  · cases writable : node.writable <;> simp [@eq_comm _ fault]
  · next value => cases found : Binary64.ofInt? value <;> simp [found, @eq_comm _ fault]
  · next notText notNumber =>
    simp only [reduceCtorEq, false_iff, not_or, not_and, not_exists]
    exact ⟨fun same => (notText same).elim, fun value same node => (notNumber value same node).elim⟩

/-- The error about a misfit cannot be written if its node cannot. -/
theorem toFailure_eq_fault_iff {source : String} {stop : WalkFailure} {fault : Fault} :
    WalkFailure.toFailure source stop = .fault fault ↔
      stop = .fault fault ∨
        ∃ misfit, stop = .misfit misfit ∧ misfit.node.writable = false ∧ fault = .content := by
  cases stop with
  | fault other => simp [WalkFailure.toFailure]
  | misfit misfit =>
    cases writable : misfit.node.writable <;> simp [WalkFailure.toFailure, writable, @eq_comm _ fault]

theorem faults_of_form {shape : Shape} {path : Str} {node : Tree} {stop : WalkFailure}
    (trouble : shape.trouble? path node = some stop)
    (failed : WalkFailure.toFailure source stop = .fault fault) :
    (Visit.form shape path node).Faults fault := by
  unfold Shape.trouble? at trouble
  split at trouble
  · next fits =>
    obtain ⟨strain, strained, rfl⟩ := Option.map_eq_some_iff.mp trouble
    obtain rfl : strain = fault := by simpa [WalkFailure.toFailure] using failed
    rcases strain?_eq_some_iff.mp strained with ⟨rfl, unwritable, rfl⟩ | ⟨value, rfl, rfl, large, rfl⟩
    · exact .text fits unwritable
    · exact .magnitude large
  · next unfit =>
    obtain rfl := Option.some.inj trouble
    rcases toFailure_eq_fault_iff.mp failed with impossible | ⟨misfit, same, unwritable, rfl⟩
    · cases impossible
    · cases same
      exact .message (Bool.eq_false_iff.mpr unfit) unwritable

/-- A visit stops a walk with a fault in the cases that are listed. -/
theorem trouble?_toFailure_iff (source : String) {visit : Visit} {fault : Fault} :
    (∃ stop, visit.trouble? = some stop ∧ WalkFailure.toFailure source stop = .fault fault) ↔
      visit.Faults fault := by
  constructor
  · intro fails
    obtain ⟨stop, trouble, failed⟩ := fails
    cases visit with
    | entry known path key node =>
      cases writable : key.writable with
      | true => simp [Visit.trouble?, writable] at trouble
      | false =>
        obtain rfl : .fault .content = stop := by simpa [Visit.trouble?, writable] using trouble
        cases failed
        exact .entry writable
    | label key =>
      cases writable : key.writable with
      | true => simp [Visit.trouble?, writable] at trouble
      | false =>
        obtain rfl : .fault .content = stop := by simpa [Visit.trouble?, writable] using trouble
        cases failed
        exact .label writable
    | form shape path node => exact faults_of_form trouble failed
    | member shape node =>
      cases freezes : shape.freezes node with
      | true => simp [Visit.trouble?, freezes] at trouble
      | false =>
        obtain rfl : .fault .kind = stop := by simpa [Visit.trouble?, freezes] using trouble
        cases failed
        exact .member freezes
  · intro faults
    cases faults with
    | entry unwritable => exact ⟨.fault .content, by simp [Visit.trouble?, unwritable], rfl⟩
    | label unwritable => exact ⟨.fault .content, by simp [Visit.trouble?, unwritable], rfl⟩
    | text fits unwritable =>
      exact ⟨.fault .content,
        by simp [Visit.trouble?, Shape.trouble?, fits, Shape.strain?, unwritable], rfl⟩
    | magnitude large =>
      exact ⟨.fault .magnitude,
        by simp [Visit.trouble?, Shape.trouble?, Shape.fits, Shape.strain?, large], rfl⟩
    | @message node path shape unfit unwritable =>
      exact ⟨.misfit ⟨path, shape.typeName, node⟩, by simp [Visit.trouble?, Shape.trouble?, unfit],
        by simp [WalkFailure.toFailure, unwritable]⟩
    | member changes => exact ⟨.fault .kind, by simp [Visit.trouble?, changes], rfl⟩

/-- Some visit faults, and all before it are without trouble. -/
def FirstFaults (visits : List Visit) (fault : Fault) : Prop :=
  ∃ before visit after, visits = before ++ visit :: after ∧
    (∀ earlier ∈ before, earlier.trouble? = none) ∧ visit.Faults fault

theorem ofTree_fault_iff {schema : Schema} {source : String} {tree : Tree} {fault : Fault} :
    ofTree schema source tree = .error (.fault fault) ↔
      FirstFaults (visits schema.shape tree "") fault := by
  rw [ofTree_eq_error_iff]
  simp only [(rootWalk_follows schema tree).stopped_iff, List.findSome?_eq_some_iff]
  constructor
  · intro stops
    obtain ⟨stop, ⟨before, visit, after, same, trouble, calm⟩, faults⟩ := stops
    exact ⟨before, visit, after, same, calm,
      (trouble?_toFailure_iff source).mp ⟨stop, trouble, faults.symm⟩⟩
  · intro first
    obtain ⟨before, visit, after, same, calm, faults⟩ := first
    obtain ⟨stop, trouble, failure⟩ := (trouble?_toFailure_iff source).mpr faults
    exact ⟨stop, ⟨before, visit, after, same, trouble, calm⟩, failure.symm⟩

/-- A source whose bytes decode to a fault: reading the YAML fails with it, or walking its tree does. -/
inductive SourceFaults (schema : Schema) (bytes : List UInt8) (fault : Fault) : Prop
  | reading (failed : Yaml.read? schema.shape.depth bytes = .error (.fault fault))
  | walking (tree : Tree) (parsed : Yaml.read? schema.shape.depth bytes = .ok (some tree))
      (faults : FirstFaults (visits schema.shape tree "") fault)

theorem decode_fault_iff {schema : Schema} {source : String} {bytes : List UInt8} {fault : Fault} :
    decode schema source bytes = .error (.fault fault) ↔ SourceFaults schema bytes fault := by
  constructor
  · intro failed
    unfold decode at failed
    split at failed
    · next failure unread =>
      cases failure with
      | refused refusal => cases failed
      | fault other =>
        obtain rfl : other = fault := by simpa [ofYamlFailure] using failed
        exact .reading unread
    · cases failed
    · next tree parsed => exact .walking tree parsed (ofTree_fault_iff.mp failed)
  · intro faults
    rcases faults with unread | ⟨tree, parsed, faults⟩
    · simp only [decode, unread, ofYamlFailure]
    · simp only [decode, parsed]
      exact ofTree_fault_iff.mpr faults

end Decode

end LayeredConfig
