import LayeredConfig.Fault
import LayeredConfig.Resource.Path

namespace LayeredConfig

/-- The variables of an environment with their values, which are whole texts. -/
abbrev Environment := List (String × String)

namespace Environment

/-- The variable with the location of the primary document. -/
def primaryVariable : String := "NODE_CONFIG"

/-- The variable with the location of the overlay. -/
def overlayVariable : String := "NODE_CONFIG_OVERLAY"

/-- The variable that can switch overlays off. -/
def disableVariable : String := "NODE_CONFIG_OVERLAY_DISABLE"

/-- The variable with the directories to search. -/
def searchVariable : String := "NODE_CONFIG_SEARCH_PATH"

def defaultPrimary : String := "node.yaml"

def defaultOverlay : String := "node-overlay.yaml"

/-- Whether overlays are switched off; the value has to be a truth value in any case of letters. -/
def overlayDisabled (environment : Environment) : Except ConfigurationError Bool :=
  match environment.lookup disableVariable with
  | none => .ok false
  | some value =>
    let lowered := String.ofList (value.toList.map Char.toLower)
    if lowered == "true" then .ok true
    else if lowered == "false" then .ok false
    else .error (.invalidOverride
      ("Environment variable '" ++ disableVariable ++
        "', when present, should be set to 'true' or 'false'; it was set to '" ++ value ++ "'")
      none true)

/-- Whether the environment asks for an overlay other than the default one. -/
def overlayOverridden (environment : Environment) : Bool :=
  (environment.lookup overlayVariable).any (· != defaultOverlay)

/-- The parts of a text between colons that are not empty. -/
def searchEntries (value : List Char) : List (List Char) :=
  (value.splitOn ':').filter (!·.isEmpty)

/-- The directories to search. By default they are `conf` in the home directory, and that itself. -/
def searchPath (environment : Environment) (home : List FileName) : List Path :=
  match environment.lookup searchVariable with
  | none => [⟨.single, home ++ ["conf".toList]⟩, ⟨.single, home⟩]
  | some value => (searchEntries value.toList).map fun entry => .ofText (String.ofList entry)

end Environment

/-- The settings of a loader. -/
structure LoaderSettings where
  overlayDisabled : Bool
  overlayOverridden : Bool
  searchPath : List Path
  deriving Repr

/-- The settings that an environment stands for. -/
def LoaderSettings.ofEnvironment (environment : Environment) (home : List FileName) :
    Except ConfigurationError LoaderSettings := do
  return ⟨← environment.overlayDisabled, environment.overlayOverridden, environment.searchPath home⟩

end LayeredConfig
