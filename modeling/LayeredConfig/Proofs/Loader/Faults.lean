import LayeredConfig.Proofs.Decode.Faults
import LayeredConfig.Proofs.Loader.Conformity

namespace LayeredConfig.Loader

open Decode (SourceFaults)

/-- A location faults: the exchange with its host breaks off, or its source decodes to a fault. -/
inductive FaultsAt (files : Files) (schema : Schema) (location : Location) : Fault → Prop
  | exchange (broken : Address.read files location.url = .error .protocol) :
      FaultsAt files schema location .protocol
  | source (content : location.read files = .ok bytes) (undecoded : SourceFaults schema bytes fault) :
      FaultsAt files schema location fault

/-- The faults of a load, each with what brings it about. -/
inductive LoadFaults (files : Files) (verbosity : Verbosity) (loader : Loader) :
    Option Target → Fault → Prop
  /-- The path that was asked for has a null character. -/
  | path (unmarked : Location.hasSchemeMark text.toList = false) (null : '\x00' ∈ text.toList) :
      LoadFaults files verbosity loader (some (.text text)) .content
  | target (resolved : target.resolve files = .ok location)
      (source : FaultsAt files loader.schema location fault) :
      LoadFaults files verbosity loader (some target) fault
  | primary (source : FaultsAt files loader.schema loader.locations.primary fault) :
      LoadFaults files verbosity loader none fault
  /-- The overlay is read once the primary document has passed. -/
  | overlay (passed : documentAt files loader.schema loader.locations.primary = .ok document)
      (enabled : loader.locations.overlayDisabled = false)
      (located : loader.locations.overlay = some location)
      (source : FaultsAt files loader.schema location fault) :
      LoadFaults files verbosity loader none fault
  /-- Only a log that shows everything asks for the fingerprint. -/
  | fingerprint (loaded : loader.inForce files = .ok document)
      (shows : verbosity.shows .debug = true) (failed : document.fingerprint = .error fault) :
      LoadFaults files verbosity loader none fault

variable {files : Files} {schema : Schema} {location : Location} {fault : Fault}

theorem read_fault_iff :
    location.read files = .error (.fault fault) ↔
      Address.read files location.url = .error .protocol ∧ fault = .protocol := by
  unfold Location.read
  constructor
  · intro failed
    split at failed
    · cases failed
    · next broken => exact ⟨broken, (Failure.fault.inj (Except.error.inj failed)).symm⟩
    · cases failed
  · rintro ⟨broken, rfl⟩
    rw [broken]

theorem documentAt_fault_iff :
    documentAt files schema location = .error (.fault fault) ↔
      FaultsAt files schema location fault := by
  unfold documentAt
  constructor
  · intro failed
    rcases bind_eq_error_iff.mp failed with unread | ⟨bytes, content, failed⟩
    · obtain ⟨broken, rfl⟩ := read_fault_iff.mp unread
      exact .exchange broken
    · rcases bind_eq_error_iff.mp failed with undecoded | ⟨result, -, failed⟩
      · exact .source content (Decode.decode_fault_iff.mp undecoded)
      · split at failed <;> cases failed
  · intro faults
    cases faults with
    | exchange broken => exact bind_eq_error_iff.mpr (.inl (read_fault_iff.mpr ⟨broken, rfl⟩))
    | source content undecoded =>
      refine bind_eq_error_iff.mpr (.inr ⟨_, content, ?_⟩)
      exact bind_eq_error_iff.mpr (.inl (Decode.decode_fault_iff.mpr undecoded))

theorem document_of_documentAt (loaded : documentAt files schema location = .ok document) :
    ∃ slots, document = .document schema.name slots ∧ slots.map (·.name) = schema.names := by
  obtain ⟨_, _, _, decoded, _⟩ := documentAt_eq_ok_iff.mp loaded
  exact Decode.decode_document decoded

theorem resolve_fault_iff {target : Target} :
    target.resolve files = .error fault ↔
      ∃ text, target = .text text ∧ Location.hasSchemeMark text.toList = false ∧
        '\x00' ∈ text.toList ∧ fault = .content := by
  cases target with
  | location found => simp [Target.resolve]
  | text written =>
    unfold Target.resolve Location.ofText
    cases marked : Location.hasSchemeMark written.toList with
    | true => simp [marked]
    | false =>
      by_cases null : '\x00' ∈ written.toList
      · simp [marked, null, @eq_comm _ fault]
      · simp [marked, null]

variable {loader : Loader}

theorem overlayDocument_fault_iff :
    loader.overlayDocument files = .error (.fault fault) ↔
      ∃ location, loader.locations.overlay = some location ∧
        FaultsAt files loader.schema location fault := by
  unfold overlayDocument
  cases loader.locations.overlay with
  | none => simp
  | some location => simp [documentAt_fault_iff]

/-- Two documents of one schema always lie over each other, so only the overlay itself can fault. -/
theorem overlaid_fault_iff
    (below : documentAt files loader.schema loader.locations.primary = .ok document) :
    loader.overlaid files document = .error (.fault fault) ↔
      loader.overlayDocument files = .error (.fault fault) := by
  obtain ⟨slots, rfl, -⟩ := document_of_documentAt below
  unfold overlaid
  cases above : loader.overlayDocument files with
  | error failure =>
    cases failure with
    | fault other => rfl
    | configuration error => simp only; split <;> simp
  | ok upper =>
    unfold overlayDocument at above
    split at above
    · obtain ⟨others, rfl, -⟩ := document_of_documentAt above
      simp [Value.overlay?]
    · cases above

theorem inForce_fault_iff :
    loader.inForce files = .error (.fault fault) ↔
      FaultsAt files loader.schema loader.locations.primary fault ∨
        ∃ document location,
          documentAt files loader.schema loader.locations.primary = .ok document ∧
            loader.locations.overlayDisabled = false ∧ loader.locations.overlay = some location ∧
              FaultsAt files loader.schema location fault := by
  unfold inForce
  rw [bind_eq_error_iff, documentAt_fault_iff]
  refine or_congr_right ⟨?_, ?_⟩
  · intro found
    obtain ⟨document, below, failed⟩ := found
    split at failed
    · cases failed
    · next enabled =>
      obtain ⟨location, located, source⟩ :=
        overlayDocument_fault_iff.mp ((overlaid_fault_iff below).mp failed)
      exact ⟨document, location, below, Bool.eq_false_iff.mpr enabled, located, source⟩
  · intro overlay
    obtain ⟨document, location, below, enabled, located, source⟩ := overlay
    refine ⟨document, below, ?_⟩
    rw [enabled, if_neg Bool.false_ne_true]
    exact (overlaid_fault_iff below).mpr (overlayDocument_fault_iff.mpr ⟨location, located, source⟩)

theorem shown_fault_iff {document : Value} :
    shown verbosity document = .error (.fault fault) ↔
      verbosity.shows .debug = true ∧ document.fingerprint = .error fault := by
  unfold shown
  cases verbosity.shows .debug with
  | false => simp
  | true => simp [map_eq_error_iff, mapError_eq_error_iff]

theorem result_fault_iff {target : Option Target} :
    loader.result files verbosity target = .error (.fault fault) ↔
      LoadFaults files verbosity loader target fault := by
  cases target with
  | some target =>
    simp only [result, bind_eq_error_iff, mapError_eq_error_iff, mapError_eq_ok_iff,
      documentAt_fault_iff]
    constructor
    · intro fails
      rcases fails with ⟨cause, unresolved, same⟩ | ⟨location, resolved, source⟩
      · obtain rfl : cause = fault := Failure.fault.inj same
        obtain ⟨text, rfl, unmarked, null, rfl⟩ := resolve_fault_iff.mp unresolved
        exact .path unmarked null
      · exact .target resolved source
    · intro faults
      cases faults with
      | path unmarked null => exact .inl ⟨_, resolve_fault_iff.mpr ⟨_, rfl, unmarked, null, rfl⟩, rfl⟩
      | target resolved source => exact .inr ⟨_, resolved, source⟩
  | none =>
    simp only [result, bind_eq_error_iff, inForce_fault_iff, shown_fault_iff]
    constructor
    · intro fails
      rcases fails with (source | ⟨document, location, passed, enabled, located, source⟩) |
        ⟨document, loaded, shows, failed⟩
      · exact .primary source
      · exact .overlay passed enabled located source
      · exact .fingerprint loaded shows failed
    · intro faults
      cases faults with
      | primary source => exact .inl (.inl source)
      | overlay passed enabled located source =>
        exact .inl (.inr ⟨_, _, passed, enabled, located, source⟩)
      | fingerprint loaded shows failed => exact .inr ⟨_, loaded, shows, failed⟩

end LayeredConfig.Loader
