import LayeredConfig.Loader.Basic
import LayeredConfig.Proofs.Log.Ending

namespace LayeredConfig.Loader

open Logged

/-- The document at a location: its content, decoded and free of findings. -/
def documentAt (files : Files) (schema : Schema) (location : Location) : Except Failure Value := do
  let bytes ← location.read files
  let result ← Decode.decode schema location.url bytes
  match result.report.check location.url with
  | some error => throw (.configuration error)
  | none => return result.document

def overlayDocument (files : Files) (loader : Loader) : Except Failure Value :=
  match loader.locations.overlay with
  | some location => documentAt files loader.schema location
  | none => .error (.configuration (loader.locations.overlayError.getD noOverlay))

/-- A document with the overlay over it, or alone where a missing overlay is passed over. -/
def overlaid (files : Files) (loader : Loader) (document : Value) : Except Failure Value :=
  match loader.overlayDocument files with
  | .ok upper => (document.overlay? upper).mapError .fault
  | .error (.configuration error) =>
    if error.isNotFound && !loader.locations.overlayOverridden then .ok document
    else .error (.configuration error)
  | .error (.fault fault) => .error (.fault fault)

/-- The configuration that is in force, before anything is said about it. -/
def inForce (files : Files) (loader : Loader) : Except Failure Value := do
  let document ← documentAt files loader.schema loader.locations.primary
  if loader.locations.overlayDisabled then return document else loader.overlaid files document

/-- A document whose fingerprint can be shown, where a log shows it. -/
def shown (verbosity : Verbosity) (document : Value) : Except Failure Value :=
  if verbosity.shows .debug then (fun _ => document) <$> document.fingerprint.mapError Failure.fault
  else .ok document

/-- The document at a target, or the configuration that is in force. -/
def result (files : Files) (verbosity : Verbosity) (loader : Loader) :
    Option Target → Except Failure Value
  | some target => (target.resolve files).mapError .fault >>= documentAt files loader.schema
  | none => loader.inForce files >>= shown verbosity

theorem loadLocation_ends (files : Files) (schema : Schema) (location : Location) :
    Ends (loadLocation files schema location) (documentAt files schema location) := by
  unfold loadLocation documentAt
  refine (ends_record _ _ _).andThen ((ends_ofFailure _).bind fun bytes => ?_)
  refine (ends_ofFailure _).bind fun decoded => ?_
  cases decoded.report.check location.url with
  | none => exact ends_pure _
  | some error => exact ends_throw _

theorem loadOverlay_ends (files : Files) (loader : Loader) :
    Ends (loader.loadOverlay files) (loader.overlayDocument files) := by
  unfold loadOverlay overlayDocument
  cases loader.locations.overlay with
  | none => exact ends_throw _
  | some location => exact loadLocation_ends files loader.schema location

/-- A missing overlay is passed over unless an operator asked for it; all other failures remain. -/
theorem applyOverlay_ends (files : Files) (loader : Loader) (document : Value) :
    Ends (loader.applyOverlay files document) (loader.overlaid files document) := by
  have loads := (loadOverlay_ends files loader).map some
  unfold applyOverlay overlaid
  cases read : loader.overlayDocument files with
  | ok upper =>
    rw [read] at loads
    exact loads.unhandled.andThen (ends_ofFault _)
  | error failure =>
    rw [read] at loads
    cases failure with
    | fault fault =>
      refine Ends.stopped (Ends.handled loads _ ?_)
      exact ends_throw _
    | configuration error =>
      cases found : error.isNotFound && !loader.locations.overlayOverridden with
      | true =>
        have skips : (!error.isNotFound || loader.locations.overlayOverridden) = false := by
          rw [← Bool.not_eq_true', Bool.not_or, Bool.not_not, found]
        change Ends _ (if _ then Except.ok document else _)
        rw [if_pos found]
        refine Ends.andThen (Ends.handled loads (.ok none) ?_) (ends_pure document)
        simp only [skips, Bool.false_eq_true, if_false]
        exact (ends_record _ _ _).andThen (ends_pure none)
      | false =>
        have stays : (!error.isNotFound || loader.locations.overlayOverridden) = true := by
          rw [← Bool.not_eq_false', Bool.not_or, Bool.not_not, found]
        change Ends _ (if _ then _ else Except.error (.configuration error))
        rw [found, if_neg Bool.false_ne_true]
        refine Ends.stopped (Ends.handled loads _ ?_)
        simp only [stays, if_true]
        exact (ends_throw _).stopped

theorem show_ends (verbosity : Verbosity) (document : Value) :
    Ends (do
      if verbosity.shows .debug then
        let fingerprint ← Logged.ofFault document.fingerprint
        Logged.record .debug .loader ("Effective configuration hash: " ++ fingerprint)
      return document) (shown verbosity document) := by
  unfold shown
  split
  · cases print : document.fingerprint with
    | error fault => exact (ends_ofFault _).stopped
    | ok text => exact (ends_ofFault _).andThen ((ends_record _ _ _).andThen (ends_pure document))
  · exact ends_pure document

/-- The fingerprint of what is in force is the last thing that can fail, and only a log that shows
everything asks for it. -/
theorem load_ends (files : Files) (verbosity : Verbosity) (loader : Loader) :
    Ends (loader.load files verbosity) (loader.inForce files >>= shown verbosity) := by
  unfold load inForce
  rw [bind_assoc]
  refine (loadLocation_ends files loader.schema loader.locations.primary).bind fun document => ?_
  cases loader.locations.overlayDisabled with
  | true => exact (ends_pure document).bind (show_ends verbosity)
  | false => exact (applyOverlay_ends files loader document).bind (show_ends verbosity)

theorem loadTarget_ends (files : Files) (loader : Loader) (target : Target) :
    Ends (loader.loadTarget files target)
      ((target.resolve files).mapError .fault >>= documentAt files loader.schema) :=
  (ends_ofFault _).bind fun location => loadLocation_ends files loader.schema location

/-- Loading ends with its result, whatever it records. -/
theorem loadConfig_ends (files : Files) (verbosity : Verbosity) (loader : Loader)
    (target : Option Target) :
    Ends (loader.loadConfig files verbosity target) (loader.result files verbosity target) := by
  cases target with
  | none => exact load_ends files verbosity loader
  | some target => exact loadTarget_ends files loader target

end LayeredConfig.Loader
