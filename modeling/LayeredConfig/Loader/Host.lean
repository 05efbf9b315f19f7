import LayeredConfig.Loader.Basic
import LayeredConfig.NodeSchema

/-!
The loader of a host. It is made at the first call that resolves its locations, and kept until it is
reset; a call that fails to resolve them keeps nothing.
-/

namespace LayeredConfig

/-- What a host has: files, an environment, and its loader if there is one yet. -/
structure Host where
  files : Files
  environment : Environment
  loader : Option Loader
  deriving Repr

namespace Host

/-- The loader of the host, and the host that keeps it. -/
def defaultLoader (host : Host) : Logged (Loader × Host) := do
  match host.loader with
  | some loader => return (loader, host)
  | none =>
    let locations ← ResolvedLocations.ofEnvironment host.files host.environment
    let loader : Loader := ⟨locations, NodeSchema.nodeConfig⟩
    return (loader, { host with loader := some loader })

/-- The host without a loader. -/
def reset (host : Host) : Host :=
  { host with loader := none }

/-- Loads the configuration of the host, or the document at a location. The host keeps its loader
also when the loading itself fails. -/
def loadConfig (host : Host) (verbosity : Verbosity) (target : Option Loader.Target) :
    Logged (Except Failure Value × Host) := do
  let (loader, host) ← host.defaultLoader
  let outcome ← tryCatch (Except.ok <$> loader.loadConfig host.files verbosity target)
    fun failure => return .error failure
  return (outcome, host)

end Host

end LayeredConfig
