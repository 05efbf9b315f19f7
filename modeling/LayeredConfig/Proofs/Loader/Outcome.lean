import LayeredConfig.Proofs.Loader.Faults
import LayeredConfig.Proofs.Loader.Startup

/-!
What a load promises, told by cases: the state of the files when the locations were found decides where
the overlay is, their state at the load decides what the sources hold, and the environment decides
whether a missing overlay matters. A load keeps its promise unless the log wants a fingerprint that
cannot be made.
-/

namespace LayeredConfig

/-- An operator asks for an overlay by any name but the one that it has anyway. -/
def Environment.AsksForOverlay (environment : Environment) : Prop :=
  ∃ name, environment.lookup Environment.overlayVariable = some name ∧
    name ≠ Environment.defaultOverlay

/-- A document over another one: it has every setting that is explicit above as it is there, and all
others as they are below. -/
def Overlaid (base upper result : Value) : Prop :=
  ∃ type below above slots, base = .document type below ∧ upper = .document type above ∧
    result = .document type slots ∧ slots.map (·.name) = below.map (·.name) ∧
      ∀ name,
        (∀ slot, Slot.find? name above = some slot → slot.explicit = true →
          Slot.find? name slots = some slot) ∧
        ((∀ slot, Slot.find? name above = some slot → slot.explicit = false) →
          Slot.find? name slots = Slot.find? name below)

namespace Loader

/-- Where the search for the overlay ends, by the state of the files when the locations are found. -/
def overlayFound (startup : Files) (environment : Environment) : Except Failure Location :=
  ((Location.resolve startup environment Environment.overlayVariable Environment.defaultOverlay
    (environment.searchPath startup.home)).outcome .nothing).1

/-- The overlay was not there when the locations were found, or cannot be read at the load. -/
inductive OverlayMissing (startup current : Files) (environment : Environment)
    (error : ConfigurationError) : Prop
  | unlocated (search : overlayFound startup environment = .error (.configuration error))
  | unreadable (location : Location) (search : overlayFound startup environment = .ok location)
      (unread : location.read current = .error (.configuration error))

section promise

variable (startup current : Files) (environment : Environment) (schema : Schema) (primary : Location)

/-- The outcome that a load promises. -/
inductive Promised : Except Failure Value → Prop
  | primaryFails {failure : Failure} (failed : documentAt current schema primary = .error failure) :
      Promised (.error failure)
  | disabled (loaded : documentAt current schema primary = .ok document)
      (off : environment.overlayDisabled = .ok true) : Promised (.ok document)
  | missing (loaded : documentAt current schema primary = .ok document)
      (on : environment.overlayDisabled = .ok false)
      (absent : OverlayMissing startup current environment error)
      (unasked : ¬ environment.AsksForOverlay) : Promised (.ok document)
  | wanted (loaded : documentAt current schema primary = .ok document)
      (on : environment.overlayDisabled = .ok false)
      (absent : OverlayMissing startup current environment error)
      (asked : environment.AsksForOverlay) : Promised (.error (.configuration error))
  | overlayFails {failure : Failure} (loaded : documentAt current schema primary = .ok document)
      (on : environment.overlayDisabled = .ok false)
      (search : overlayFound startup environment = .ok location)
      (readable : location.read current = .ok bytes)
      (failed : documentAt current schema location = .error failure) : Promised (.error failure)
  /-- The exchange with the host of the overlay breaks off. -/
  | overlayBreaks (loaded : documentAt current schema primary = .ok document)
      (on : environment.overlayDisabled = .ok false)
      (search : overlayFound startup environment = .ok location)
      (broken : Address.read current location.url = .error .protocol) : Promised (.error (.fault .protocol))
  | overlaid {result : Value} (loaded : documentAt current schema primary = .ok document)
      (on : environment.overlayDisabled = .ok false)
      (search : overlayFound startup environment = .ok location)
      (above : documentAt current schema location = .ok upper)
      (laid : Overlaid document upper result) : Promised (.ok result)

end promise

variable {startup current : Files} {environment : Environment} {locations : ResolvedLocations}

theorem asksForOverlay_iff : environment.AsksForOverlay ↔ environment.overlayOverridden = true := by
  simp only [Environment.AsksForOverlay, Environment.overlayOverridden, Option.any_eq_true,
    bne_iff_ne]

theorem overlayFound_eq : overlayFound startup environment =
    ResolvedLocations.overlayLocated startup environment :=
  (Location.resolve_ends _ _ _ _ _).outcome .nothing

theorem isNotFound_of_read {location : Location}
    (unread : location.read current = .error (.configuration error)) : error.isNotFound = true := by
  unfold Location.read at unread
  split at unread <;> cases unread
  rfl

theorem malformed_of_decode {schema : Schema} {error : ConfigurationError}
    (failed : Decode.decode schema source bytes = .error (.configuration error)) :
    error.isNotFound = false := by
  unfold Decode.decode at failed
  split at failed
  · next failure _ =>
    cases failure with
    | refused refusal => cases failed; rfl
    | fault fault => cases failed
  · cases failed
  · obtain ⟨stop, -, same⟩ := Decode.ofTree_eq_error_iff.mp failed
    cases stop with
    | fault fault => cases same
    | misfit misfit =>
      cases writable : misfit.node.writable with
      | false => simp [Decode.WalkFailure.toFailure, writable] at same
      | true =>
        obtain rfl : error = .malformed source (Decode.Misfit.problem misfit) := by
          simpa [Decode.WalkFailure.toFailure, writable] using same
        rfl

section source

variable {schema : Schema} {location : Location}

/-- A source that was read is never reported as missing. -/
theorem isNotFound_of_documentAt {error : ConfigurationError}
    (readable : location.read current = .ok bytes)
    (failed : documentAt current schema location = .error (.configuration error)) :
    error.isNotFound = false := by
  rcases bind_eq_error_iff.mp failed with unread | ⟨content, -, failed⟩
  · cases readable.symm.trans unread
  · rcases bind_eq_error_iff.mp failed with undecoded | ⟨result, -, failed⟩
    · exact malformed_of_decode undecoded
    · split at failed
      · next found checked =>
        cases failed
        unfold Report.check at checked
        split at checked <;> cases checked
        rfl
      · cases failed

theorem documentAt_of_unread {failure : Failure} (unread : location.read current = .error failure) :
    documentAt current schema location = .error failure := by
  simp only [documentAt, unread, bind, Except.bind]

theorem read_of_documentAt (loaded : documentAt current schema location = .ok document) :
    ∃ bytes, location.read current = .ok bytes := by
  obtain ⟨bytes, _, content, _⟩ := documentAt_eq_ok_iff.mp loaded
  exact ⟨bytes, content⟩

end source

/-- Laying the slots of one schema over each other gives the document that is promised, and no other. -/
theorem overlaid_iff {schema : Schema} {below above : List (Slot Value)} {result : Value}
    (distinct : schema.names.Nodup) (names : below.map (·.name) = schema.names)
    (same : above.map (·.name) = schema.names) :
    Overlaid (.document schema.name below) (.document schema.name above) result ↔
      result = .document schema.name (Slot.overlay below above) := by
  have aligned := names.trans same.symm
  constructor
  · intro laid
    obtain ⟨type, _, _, slots, base, upper, rfl, titles, settings⟩ := laid
    cases base
    cases upper
    congr 1
    refine Slot.eq_of_find? (titles.trans (Slot.names_overlay below above).symm)
      (titles.trans names ▸ distinct) fun name => ?_
    obtain ⟨replaced, kept⟩ := settings name
    obtain ⟨replaces, keeps⟩ := Slot.find?_overlay_cases aligned name
    by_cases explicit : ∃ slot, Slot.find? name above = some slot ∧ slot.explicit = true
    · obtain ⟨slot, found, marked⟩ := explicit
      exact (replaced slot found marked).trans (replaces slot found marked).symm
    · have unmarked : ∀ slot, Slot.find? name above = some slot → slot.explicit = false :=
        fun slot found => Bool.eq_false_iff.mpr fun marked => explicit ⟨slot, found, marked⟩
      exact (kept unmarked).trans (keeps unmarked).symm
  · rintro rfl
    exact ⟨_, below, above, _, rfl, rfl, rfl, Slot.names_overlay below above,
      Slot.find?_overlay_cases aligned⟩

section outcome

variable {schema : Schema} {document : Value}

theorem inForce_of_primary (loaded : documentAt current schema locations.primary = .ok document) :
    (Loader.mk locations schema).inForce current =
      if locations.overlayDisabled then .ok document
      else (Loader.mk locations schema).overlaid current document := by
  simp only [inForce, loaded, bind, Except.bind]
  rfl

theorem inForce_of_primary_failure {failure : Failure}
    (failed : documentAt current schema locations.primary = .error failure) :
    (Loader.mk locations schema).inForce current = .error failure := by
  simp only [inForce, failed, bind, Except.bind]

theorem overlayDocument_of_found {location : Location}
    (tells : locations.TellsOverlay startup environment)
    (search : overlayFound startup environment = .ok location) :
    (Loader.mk locations schema).overlayDocument current = documentAt current schema location := by
  rw [overlayFound_eq] at search
  obtain ⟨-, -, ⟨overlay, place, here⟩ | ⟨error, place, -⟩⟩ := tells
  · obtain rfl : overlay = location := Except.ok.inj (place.symm.trans search)
    rw [overlayDocument, here]
  · cases place.symm.trans search

theorem overlayDocument_of_missing (schema : Schema)
    (tells : locations.TellsOverlay startup environment)
    (absent : OverlayMissing startup current environment error) :
    (Loader.mk locations schema).overlayDocument current = .error (.configuration error) ∧
      error.isNotFound = true := by
  cases absent with
  | unlocated search =>
    rw [overlayFound_eq] at search
    obtain ⟨-, -, ⟨overlay, place, -⟩ | ⟨reason, place, notFound, nowhere, told⟩⟩ := tells
    · cases place.symm.trans search
    · obtain rfl : reason = error :=
        Failure.configuration.inj (Except.error.inj (place.symm.trans search))
      rw [overlayDocument, nowhere, told]
      exact ⟨rfl, notFound⟩
  | unreadable location search unread =>
    rw [overlayDocument_of_found tells search]
    exact ⟨documentAt_of_unread unread, isNotFound_of_read unread⟩

/-- A missing overlay, for whatever reason, matters exactly when it was asked for. -/
theorem overlaid_of_missing (tells : locations.TellsOverlay startup environment)
    (absent : OverlayMissing startup current environment error) :
    (Loader.mk locations schema).overlaid current document =
      if environment.overlayOverridden then .error (.configuration error) else .ok document := by
  obtain ⟨failed, notFound⟩ := overlayDocument_of_missing schema tells absent
  obtain ⟨-, overridden, -⟩ := tells
  simp only [overlaid, failed, notFound, overridden]
  cases environment.overlayOverridden <;> rfl

theorem overlaid_of_readable {location : Location}
    (tells : locations.TellsOverlay startup environment)
    (search : overlayFound startup environment = .ok location)
    (readable : location.read current = .ok bytes) :
    (Loader.mk locations schema).overlaid current document =
      documentAt current schema location >>= fun upper =>
        (document.overlay? upper).mapError .fault := by
  simp only [overlaid, overlayDocument_of_found tells search]
  cases above : documentAt current schema location with
  | ok upper => rfl
  | error failure =>
    cases failure with
    | fault fault => rfl
    | configuration error =>
      simp only [isNotFound_of_documentAt readable above, Bool.false_and]
      rfl

theorem overlaid_of_broken {location : Location} {fault : Fault}
    (tells : locations.TellsOverlay startup environment)
    (search : overlayFound startup environment = .ok location)
    (broken : location.read current = .error (.fault fault)) :
    (Loader.mk locations schema).overlaid current document = .error (.fault fault) := by
  simp only [overlaid, overlayDocument_of_found tells search, documentAt_of_unread broken]

end outcome

section exact

variable {schema : Schema} (distinct : schema.names.Nodup)
  (found : ResolvedLocations.located startup environment = .ok locations)

/-- The overlay can be read, or it is missing, or its host breaks off; one of the three. -/
theorem search_cases (tells : locations.TellsOverlay startup environment) :
    (∃ location bytes, overlayFound startup environment = .ok location ∧
        location.read current = .ok bytes) ∨
      (∃ error, OverlayMissing startup current environment error) ∨
        ∃ location, overlayFound startup environment = .ok location ∧
          Address.read current location.url = .error .protocol := by
  obtain ⟨-, -, ⟨location, place, -⟩ | ⟨error, place, -⟩⟩ := tells
  · cases content : location.read current with
    | ok bytes => exact .inl ⟨location, bytes, overlayFound_eq.trans place, content⟩
    | error failure =>
      cases failure with
      | configuration error => exact .inr (.inl ⟨error, .unreadable location (overlayFound_eq.trans place) content⟩)
      | fault fault => exact .inr (.inr ⟨location, overlayFound_eq.trans place, (read_fault_iff.mp content).1⟩)
  · exact .inr (.inl ⟨error, .unlocated (overlayFound_eq.trans place)⟩)

/-- Two documents of one schema always lie over each other. -/
theorem exists_overlay {document upper : Value} {location other : Location}
    (below : documentAt current schema location = .ok document)
    (above : documentAt current schema other = .ok upper) :
    ∃ result, document.overlay? upper = .ok result := by
  obtain ⟨slots, rfl, -⟩ := document_of_documentAt below
  obtain ⟨others, rfl, -⟩ := document_of_documentAt above
  exact ⟨_, if_pos (beq_self_eq_true schema.name)⟩

theorem overlay_promised {document upper result : Value} {location other : Location}
    (distinct : schema.names.Nodup)
    (below : documentAt current schema location = .ok document)
    (above : documentAt current schema other = .ok upper) :
    Overlaid document upper result ↔ document.overlay? upper = .ok result := by
  obtain ⟨slots, rfl, names⟩ := document_of_documentAt below
  obtain ⟨others, rfl, same⟩ := document_of_documentAt above
  rw [overlaid_iff distinct names same]
  simp [Value.overlay?, eq_comm]

include distinct found

/-- What is in force is promised. -/
theorem promised_inForce :
    Promised startup current environment schema locations.primary
      ((Loader.mk locations schema).inForce current) := by
  cases primary : documentAt current schema locations.primary with
  | error failure =>
    rw [inForce_of_primary_failure primary]
    exact .primaryFails primary
  | ok document =>
    rw [inForce_of_primary primary]
    rcases ResolvedLocations.located_cases found with ⟨off, same⟩ | ⟨on, tells⟩
    · rw [same, if_pos rfl]
      exact .disabled primary off
    · rw [tells.1, if_neg Bool.false_ne_true]
      rcases search_cases tells with ⟨location, bytes, search, readable⟩ | ⟨error, absent⟩ | ⟨location, search, broken⟩
      · rw [overlaid_of_readable tells search readable]
        cases above : documentAt current schema location with
        | error failure => exact .overlayFails primary on search readable above
        | ok upper =>
          obtain ⟨result, laid⟩ := exists_overlay primary above
          simp only [bind, Except.bind, laid, mapError_ok]
          exact .overlaid primary on search above ((overlay_promised distinct primary above).mpr laid)
      · rw [overlaid_of_missing tells absent]
        cases overridden : environment.overlayOverridden with
        | true => exact .wanted primary on absent (asksForOverlay_iff.mpr overridden)
        | false =>
          exact .missing primary on absent fun asked =>
            Bool.false_ne_true (overridden.symm.trans (asksForOverlay_iff.mp asked))
      · rw [overlaid_of_broken tells search (read_fault_iff.mpr ⟨broken, rfl⟩)]
        exact .overlayBreaks primary on search broken

/-- Nothing else is promised. -/
theorem inForce_of_promised
    (promised : Promised startup current environment schema locations.primary outcome) :
    (Loader.mk locations schema).inForce current = outcome := by
  have enabled (on : environment.overlayDisabled = .ok false) :
      locations.TellsOverlay startup environment := by
    rcases ResolvedLocations.located_cases found with ⟨off, -⟩ | ⟨-, tells⟩
    · cases on.symm.trans off
    · exact tells
  cases promised with
  | primaryFails failed => exact inForce_of_primary_failure failed
  | disabled loaded off =>
    rw [inForce_of_primary loaded]
    rcases ResolvedLocations.located_cases found with ⟨-, same⟩ | ⟨on, -⟩
    · rw [same, if_pos rfl]
    · cases off.symm.trans on
  | missing loaded on absent unasked =>
    have tells := enabled on
    have kept : environment.overlayOverridden = false :=
      Bool.eq_false_iff.mpr fun overridden => unasked (asksForOverlay_iff.mpr overridden)
    rw [inForce_of_primary loaded, tells.1, if_neg Bool.false_ne_true,
      overlaid_of_missing tells absent, kept, if_neg Bool.false_ne_true]
  | wanted loaded on absent asked =>
    have tells := enabled on
    rw [inForce_of_primary loaded, tells.1, if_neg Bool.false_ne_true,
      overlaid_of_missing tells absent, asksForOverlay_iff.mp asked, if_pos rfl]
  | overlayFails loaded on search readable failed =>
    have tells := enabled on
    rw [inForce_of_primary loaded, tells.1, if_neg Bool.false_ne_true,
      overlaid_of_readable tells search readable, failed]
    rfl
  | overlayBreaks loaded on search broken =>
    have tells := enabled on
    rw [inForce_of_primary loaded, tells.1, if_neg Bool.false_ne_true,
      overlaid_of_broken tells search (read_fault_iff.mpr ⟨broken, rfl⟩)]
  | overlaid loaded on search above laid =>
    have tells := enabled on
    obtain ⟨bytes, readable⟩ := read_of_documentAt above
    rw [inForce_of_primary loaded, tells.1, if_neg Bool.false_ne_true,
      overlaid_of_readable tells search readable, above]
    exact congrArg (Except.mapError Failure.fault) ((overlay_promised distinct loaded above).mp laid)

end exact

/-- A log that shows everything asks for the fingerprint of the document, and there is none. -/
def Unprintable (verbosity : Verbosity) (outcome : Except Failure Value) (fault : Fault) : Prop :=
  ∃ document, outcome = .ok document ∧ verbosity.shows .debug = true ∧
    document.fingerprint = .error fault

theorem shown_eq_iff {outcome : Except Failure Value} :
    outcome >>= shown verbosity = outcome ↔ ∀ fault, ¬ Unprintable verbosity outcome fault := by
  cases outcome with
  | error failure =>
    refine ⟨?_, fun _ => rfl⟩
    rintro - fault ⟨_, impossible, -⟩
    cases impossible
  | ok document =>
    change shown verbosity document = .ok document ↔ _
    constructor
    · rintro same fault ⟨_, printed, shows, failed⟩
      obtain rfl := Except.ok.inj printed
      cases same.symm.trans (shown_fault_iff.mpr ⟨shows, failed⟩)
    · intro printable
      unfold shown
      cases shows : verbosity.shows .debug with
      | false => rfl
      | true =>
        cases print : document.fingerprint with
        | ok text => rfl
        | error fault => exact absurd ⟨document, rfl, shows, print⟩ (printable fault)

theorem nodup_names_nodeConfig : NodeSchema.nodeConfig.names.Nodup := by
  decide +kernel

/-- A load in an environment has exactly one outcome that is promised, and keeps it unless the log wants
a fingerprint that cannot be made. -/
theorem load_keeps_promise
    (found : ((ResolvedLocations.ofEnvironment startup environment).outcome before).1 =
      .ok locations) :
    ∃ promised,
      (∀ outcome, Promised startup current environment NodeSchema.nodeConfig locations.primary
        outcome ↔ outcome = promised) ∧
      let loaded := (((Loader.mk locations NodeSchema.nodeConfig).loadConfig current verbosity
        none).outcome verbosity).1
      (loaded = promised ↔ ∀ fault, ¬ Unprintable verbosity promised fault) ∧
        ∀ fault, Unprintable verbosity promised fault → loaded = .error (.fault fault) := by
  rw [(ResolvedLocations.ofEnvironment_ends startup environment).outcome before] at found
  refine ⟨(Loader.mk locations NodeSchema.nodeConfig).inForce current, fun outcome => ⟨?_, ?_⟩, ?_⟩
  · exact fun promised => (inForce_of_promised nodup_names_nodeConfig found promised).symm
  · intro same
    rw [same]
    exact promised_inForce nodup_names_nodeConfig found
  · simp only [(loadConfig_ends current verbosity _ none).outcome verbosity, result]
    refine ⟨shown_eq_iff, ?_⟩
    rintro fault ⟨document, same, shows, failed⟩
    rw [same]
    exact shown_fault_iff.mpr ⟨shows, failed⟩

/-- An environment whose primary document has null and a text as keys of one dictionary. -/
def mixedKeys : Environment :=
  [("NODE_CONFIG", "data:,table_properties:%20%7B~:%20a,%20b:%20c%7D"),
    ("NODE_CONFIG_OVERLAY_DISABLE", "true")]

/-- The outcome that is promised is not the one that comes about when the log shows everything. -/
theorem mixedKeys_outcome :
    ∃ locations document,
      ((ResolvedLocations.ofEnvironment .empty mixedKeys).outcome .nothing).1 = .ok locations ∧
        Promised .empty .empty mixedKeys NodeSchema.nodeConfig locations.primary
          (.ok document) ∧
          (((Loader.mk locations NodeSchema.nodeConfig).loadConfig .empty .everything
            none).outcome .everything).1 = .error (.fault .kind) := by
  have checked : (((ResolvedLocations.ofEnvironment .empty mixedKeys).outcome
      .nothing).1.toOption.any fun locations =>
        (documentAt .empty NodeSchema.nodeConfig locations.primary).toOption.isSome &&
          failure? (((Loader.mk locations NodeSchema.nodeConfig).loadConfig .empty .everything
            none).outcome .everything).1 == some (.fault .kind)) = true := by decide +kernel
  obtain ⟨locations, found, outcomes⟩ := (Option.any_eq_true ..).mp checked
  obtain ⟨loads, fails⟩ := Bool.and_eq_true_iff.mp outcomes
  obtain ⟨document, loaded⟩ := exists_ok_of_isSome loads
  refine ⟨locations, document, toOption_eq_some_iff.mp found, .disabled loaded (by decide +kernel), ?_⟩
  exact failure?_eq_some_iff.mp (eq_of_beq fails)

theorem load_keeps_promise_mixedKeys :
    ∃ locations,
      ((ResolvedLocations.ofEnvironment .empty mixedKeys).outcome .nothing).1 = .ok locations ∧
        ∃ promised,
          (∀ outcome, Promised .empty .empty mixedKeys NodeSchema.nodeConfig locations.primary
            outcome ↔ outcome = promised) ∧
          let loaded := (((Loader.mk locations NodeSchema.nodeConfig).loadConfig .empty .everything
            none).outcome .everything).1
          (loaded = promised ↔ ∀ fault, ¬ Unprintable .everything promised fault) ∧
            ∀ fault, Unprintable .everything promised fault → loaded = .error (.fault fault) := by
  have finds : ((ResolvedLocations.ofEnvironment .empty mixedKeys).outcome
      .nothing).1.toOption.isSome = true := by decide +kernel
  obtain ⟨locations, found⟩ := exists_ok_of_isSome finds
  exact ⟨locations, found, load_keeps_promise found⟩

end Loader

end LayeredConfig
