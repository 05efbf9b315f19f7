import LayeredConfig.Decode
import LayeredConfig.Fingerprint
import LayeredConfig.Loader.Locations
import LayeredConfig.Overlay

/-!
Loading a document: the primary one, and over it the overlay if there is one. A missing overlay is
passed over unless an operator asked for it.
-/

namespace LayeredConfig

/-- Locations and the schema of the documents there. -/
structure Loader where
  locations : ResolvedLocations
  schema : Schema
  deriving Repr

namespace Loader

/-- The document at a location, which has to be free of findings. -/
def loadLocation (files : Files) (schema : Schema) (location : Location) : Logged Value := do
  Logged.record .debug .loader ("Loading settings from " ++ location.url)
  let bytes ← Logged.ofFailure (location.read files)
  let result ← Logged.ofFailure (Decode.decode schema location.url bytes)
  match result.report.check location.url with
  | some error => throw (.configuration error)
  | none => return result.document

/-- The error for locations that have neither an overlay nor a reason for that. -/
def noOverlay : ConfigurationError :=
  .resourceNotFound "No configuration overlay location was resolved." none
    (some Environment.defaultOverlay)

/-- The document of the overlay. -/
def loadOverlay (files : Files) (loader : Loader) : Logged Value :=
  match loader.locations.overlay with
  | some location => loadLocation files loader.schema location
  | none => throw (.configuration (loader.locations.overlayError.getD noOverlay))

/-- The document with the overlay over it, or alone if the overlay is missing and nobody asked for
it. -/
def applyOverlay (files : Files) (loader : Loader) (document : Value) : Logged Value := do
  let overlay ← tryCatch (some <$> loadOverlay files loader) fun
    | .configuration error => do
      if !error.isNotFound || loader.locations.overlayOverridden then
        throw (.configuration error)
      Logged.record .debug .loader ("No configuration overlay applied: " ++ error.text)
      return none
    | failure => throw failure
  match overlay with
  | some overlay => Logged.ofFault (document.overlay? overlay)
  | none => return document

/-- The configuration that is in force. A log that shows everything gets its fingerprint too. -/
def load (files : Files) (verbosity : Verbosity) (loader : Loader) : Logged Value := do
  let document ← loadLocation files loader.schema loader.locations.primary
  let document ←
    if loader.locations.overlayDisabled then pure document else applyOverlay files loader document
  if verbosity.shows .debug then
    let fingerprint ← Logged.ofFault document.fingerprint
    Logged.record .debug .loader ("Effective configuration hash: " ++ fingerprint)
  return document

/-- A location as it is asked for: a text, or one that is resolved already. -/
inductive Target
  | text (text : String)
  | location (location : Location)
  deriving Repr

def Target.resolve (files : Files) : Target → Except Fault Location
  | .text written => Location.ofText files written
  | .location found => .ok found

/-- The document at a location, without an overlay. -/
def loadTarget (files : Files) (loader : Loader) (target : Target) : Logged Value := do
  loadLocation files loader.schema (← Logged.ofFault (target.resolve files))

/-- The document at a location, or the configuration that is in force. -/
def loadConfig (files : Files) (verbosity : Verbosity) (loader : Loader) :
    Option Target → Logged Value
  | some target => loader.loadTarget files target
  | none => loader.load files verbosity

end Loader

end LayeredConfig
