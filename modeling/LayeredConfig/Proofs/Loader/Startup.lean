import LayeredConfig.Loader.Locations
import LayeredConfig.Proofs.Log.Ending

namespace LayeredConfig

open Logged

namespace Location

/-- The location that is a name itself, if that is an address that can be opened. -/
def direct (files : Files) (name : String) : Option Location :=
  match Address.read files name with
  | .ok _ => some ⟨name, name⟩
  | .error _ => none

/-- What the search for a name comes to. -/
def orMissing (key name : String) : Option Location → Except Failure Location
  | some location => .ok location
  | none => .error (.configuration (notFound key name))

/-- The location of the resource with a name: an address that can be opened, or else a file on the
search path. -/
def named (files : Files) (searchPath : List Path) (key name : String) : Except Failure Location :=
  match direct files name with
  | some location => .ok location
  | none => (search files searchPath name).mapError Failure.fault >>= orMissing key name

/-- The location of the resource that a variable names, or that has a default name. -/
def located (files : Files) (environment : Environment) (key default : String)
    (searchPath : List Path) : Except Failure Location :=
  named files searchPath key ((environment.lookup key).getD default)

theorem openDirect_ends (files : Files) (name : String) :
    Ends (openDirect files name) (.ok (direct files name)) := by
  unfold openDirect direct
  cases Address.read files name with
  | ok bytes => exact ends_pure _
  | error failure => exact (ends_record _ _ _).andThen (ends_pure none)

theorem resolve_ends (files : Files) (environment : Environment) (key default : String)
    (searchPath : List Path) :
    Ends (resolve files environment key default searchPath)
      (located files environment key default searchPath) := by
  unfold resolve located named
  generalize (environment.lookup key).getD default = name
  refine (openDirect_ends files name).andThen ?_
  cases direct files name with
  | some location =>
    refine Ends.andThen (ends_pure (some location)) ?_
    exact (ends_record _ _ _).andThen (ends_pure location)
  | none =>
    refine Ends.bind (ends_ofFault _) fun found => ?_
    cases found with
    | some location => exact (ends_record _ _ _).andThen (ends_pure location)
    | none => exact ends_throw _

/-- A name that was not found is reported as missing, never as anything else. -/
theorem isNotFound_notFound (key name : String) : (notFound key name).isNotFound = true := by
  unfold notFound
  split <;> rfl

/-- The only error in the configuration that a search can end with is that of a missing resource. -/
theorem isNotFound_of_located {key default : String} {error : ConfigurationError}
    (failed : located files environment key default searchPath = .error (.configuration error)) :
    error.isNotFound = true := by
  unfold located named at failed
  split at failed
  · cases failed
  · cases searched : search files searchPath ((environment.lookup key).getD default) with
    | error fault => rw [searched] at failed; cases failed
    | ok found =>
      rw [searched] at failed
      cases found with
      | some location => cases failed
      | none =>
        cases failed
        exact isNotFound_notFound key _

end Location

namespace ResolvedLocations

/-- Where the overlay is, or the reason why it is nowhere; a fault stops the search. -/
def reasoned : Except Failure Location → Except Failure (Except ConfigurationError Location)
  | .ok overlay => .ok (.ok overlay)
  | .error (.configuration error) => .ok (.error error)
  | .error (.fault fault) => .error (.fault fault)

/-- The locations when the search for the overlay has come to an end. -/
def withOverlay (settings : LoaderSettings) (primary : Location) :
    Except ConfigurationError Location → ResolvedLocations
  | .ok overlay => ⟨primary, some overlay, none, false, settings.overlayOverridden⟩
  | .error error => ⟨primary, none, some error, false, settings.overlayOverridden⟩

/-- The locations that an environment asks for. -/
def located (files : Files) (environment : Environment) : Except Failure ResolvedLocations := do
  let settings ←
    (LoaderSettings.ofEnvironment environment files.home).mapError Failure.configuration
  let primary ← Location.located files environment Environment.primaryVariable
    Environment.defaultPrimary settings.searchPath
  if settings.overlayDisabled then return ⟨primary, none, none, true, false⟩
  withOverlay settings primary <$> reasoned (Location.located files environment
    Environment.overlayVariable Environment.defaultOverlay settings.searchPath)

theorem resolveOverlay_ends (files : Files) (environment : Environment) (searchPath : List Path) :
    Ends (resolveOverlay files environment searchPath)
      (reasoned (Location.located files environment Environment.overlayVariable
        Environment.defaultOverlay searchPath)) := by
  have search := Location.resolve_ends files environment Environment.overlayVariable
    Environment.defaultOverlay searchPath
  unfold resolveOverlay
  cases found : Location.located files environment Environment.overlayVariable
      Environment.defaultOverlay searchPath with
  | ok location =>
    rw [found] at search
    exact Ends.unhandled (search.andThen (ends_pure (Except.ok location)))
  | error failure =>
    rw [found] at search
    refine Ends.handled search.stopped _ ?_
    cases failure with
    | fault fault => exact ends_throw _
    | configuration error =>
      simp only [Location.isNotFound_of_located found, if_true]
      exact ends_pure (Except.error error)

theorem ofEnvironment_ends (files : Files) (environment : Environment) :
    Ends (ofEnvironment files environment) (located files environment) := by
  unfold ofEnvironment located
  refine (ends_ofFailure _).bind fun settings => ?_
  refine (Location.resolve_ends _ _ _ _ _).bind fun primary => ?_
  cases settings.overlayDisabled with
  | true => exact ends_pure _
  | false =>
    have search := resolveOverlay_ends files environment settings.searchPath
    cases found : reasoned (Location.located files environment Environment.overlayVariable
        Environment.defaultOverlay settings.searchPath) with
    | error failure =>
      rw [found] at search
      exact search.stopped
    | ok overlay =>
      rw [found] at search
      refine search.andThen ?_
      cases overlay with
      | ok location => exact ends_pure _
      | error error => exact ends_pure _

/-- Where the overlay is, by the state of the files when the locations are found. -/
def overlayLocated (files : Files) (environment : Environment) : Except Failure Location :=
  Location.located files environment Environment.overlayVariable Environment.defaultOverlay
    (environment.searchPath files.home)

/-- What the locations say of an overlay that is not switched off: where it is or why it is not
there, and whether an operator asked for it. -/
def TellsOverlay (locations : ResolvedLocations) (files : Files) (environment : Environment) : Prop :=
  locations.overlayDisabled = false ∧
    locations.overlayOverridden = environment.overlayOverridden ∧
    ((∃ overlay, overlayLocated files environment = .ok overlay ∧ locations.overlay = some overlay) ∨
      ∃ error, overlayLocated files environment = .error (.configuration error) ∧
        error.isNotFound = true ∧ locations.overlay = none ∧ locations.overlayError = some error)

/-- Locations are found only if the switch for overlays can be read, and they follow it. -/
theorem located_cases {locations : ResolvedLocations}
    (found : located files environment = .ok locations) :
    (environment.overlayDisabled = .ok true ∧ locations.overlayDisabled = true) ∨
      (environment.overlayDisabled = .ok false ∧ locations.TellsOverlay files environment) := by
  unfold located at found
  obtain ⟨settings, known, found⟩ := bind_eq_ok_iff.mp found
  obtain ⟨primary, -, found⟩ := bind_eq_ok_iff.mp found
  obtain ⟨disabled, switch, same⟩ := bind_eq_ok_iff.mp (mapError_eq_ok_iff.mp known)
  obtain rfl := Except.ok.inj same
  cases disabled with
  | true =>
    obtain rfl := Except.ok.inj found
    exact .inl ⟨switch, rfl⟩
  | false =>
    refine .inr ⟨switch, ?_⟩
    obtain ⟨overlay, search, rfl⟩ := map_eq_ok_iff.mp found
    unfold reasoned at search
    split at search
    · next location place =>
      obtain rfl := Except.ok.inj search
      exact ⟨rfl, rfl, .inl ⟨location, place, rfl⟩⟩
    · next error missing =>
      obtain rfl := Except.ok.inj search
      exact ⟨rfl, rfl, .inr ⟨error, missing, Location.isNotFound_of_located missing, rfl, rfl⟩⟩
    · cases search

end ResolvedLocations

end LayeredConfig
