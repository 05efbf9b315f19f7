import LayeredConfig.Resource.Location

namespace LayeredConfig

/-- Where the documents are. Without an overlay there may be the error that says why. -/
structure ResolvedLocations where
  primary : Location
  overlay : Option Location
  overlayError : Option ConfigurationError
  overlayDisabled : Bool
  overlayOverridden : Bool
  deriving Repr

/-- Whether an error says that a resource is not there. -/
def ConfigurationError.isNotFound : ConfigurationError → Bool
  | .unprefixedLocation _ _ _ _ => true
  | .resourceNotFound _ _ _ => true
  | _ => false

namespace ResolvedLocations

/-- The location of the overlay, or the error if it is not there; all other errors stop. -/
def resolveOverlay (files : Files) (environment : Environment) (searchPath : List Path) :
    Logged (Except ConfigurationError Location) :=
  tryCatch
    (do return .ok (← Location.resolve files environment Environment.overlayVariable
      Environment.defaultOverlay searchPath))
    fun
      | .configuration error =>
        if error.isNotFound then return .error error else throw (.configuration error)
      | failure => throw failure

/-- The locations that an environment asks for. -/
def ofEnvironment (files : Files) (environment : Environment) : Logged ResolvedLocations := do
  let settings ← Logged.ofFailure
    ((LoaderSettings.ofEnvironment environment files.home).mapError .configuration)
  let primary ← Location.resolve files environment Environment.primaryVariable
    Environment.defaultPrimary settings.searchPath
  if settings.overlayDisabled then return ⟨primary, none, none, true, false⟩
  match ← resolveOverlay files environment settings.searchPath with
  | .ok overlay => return ⟨primary, some overlay, none, false, settings.overlayOverridden⟩
  | .error error => return ⟨primary, none, some error, false, settings.overlayOverridden⟩

end ResolvedLocations

end LayeredConfig
