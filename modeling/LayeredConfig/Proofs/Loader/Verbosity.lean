import LayeredConfig.Proofs.Loader.Faults
import LayeredConfig.Proofs.Value.Fingerprints

namespace LayeredConfig.Loader

variable {files : Files} {loader : Loader}

theorem exists_fingerprint_of_inForce {locations : ResolvedLocations}
    (loaded : (Loader.mk locations NodeSchema.nodeConfig).inForce files = .ok document) :
    (∃ print, document.fingerprint = .ok print) ↔ document.Unobstructed := by
  have conforms : Conforms NodeSchema.nodeConfig.shape document :=
    inForce_conforms NodeSchema.regular_nodeConfig loaded
  have named : document.Named := conforms.all_named NodeSchema.worded_nodeConfig
  cases conforms
  exact Value.exists_fingerprint_iff named

/-- A log that shows nothing of a fingerprint leaves the outcome to the sources alone. -/
theorem result_of_silent {verbosity : Verbosity} (silent : verbosity.shows .debug = false) :
    loader.result files verbosity none = loader.inForce files := by
  have same : shown verbosity = pure := by
    funext document
    simp only [shown, silent, Bool.false_eq_true, if_false]
    rfl
  rw [result, same, bind_pure]

theorem shown_eq_ok_iff {verbosity : Verbosity} {document : Value}
    (shows : verbosity.shows .debug = true) :
    shown verbosity document = .ok document ↔ ∃ print, document.fingerprint = .ok print := by
  simp only [shown, shows, if_true, map_eq_ok_iff, mapError_eq_ok_iff, and_true]

theorem result_of_shown {verbosity : Verbosity} (shows : verbosity.shows .debug = true) :
    (loader.result files verbosity none = loader.inForce files ↔
      ∀ document, loader.inForce files = .ok document →
        ∃ print, document.fingerprint = .ok print) ∧
      ∀ document fault, loader.inForce files = .ok document →
        document.fingerprint = .error fault →
          loader.result files verbosity none = .error (.fault fault) := by
  rw [result]
  cases loader.inForce files with
  | error failure =>
    have failed (document : Value) : (Except.error failure : Except Failure Value) ≠ .ok document := by
      intro same
      cases same
    exact ⟨⟨fun _ document same => absurd same (failed document), fun _ => rfl⟩,
      fun document _ same => absurd same (failed document)⟩
  | ok document =>
    constructor
    · simp only [Except.ok.injEq, forall_eq', ← shown_eq_ok_iff shows]
      rfl
    · rintro _ fault ⟨⟩ failed
      exact shown_fault_iff.mpr ⟨shows, failed⟩

/-- Whether a log shows everything or nothing, a load has the same outcome, unless a number that is too long, null
among other keys or a torn text stands in the way of a fingerprint; it then ends with the fault of that. -/
theorem loadConfig_verbosity_iff (files : Files) (locations : ResolvedLocations) :
    let loaded (verbosity : Verbosity) := (((Loader.mk locations NodeSchema.nodeConfig).loadConfig files
      verbosity none).outcome verbosity).1
    (loaded .everything = loaded .nothing ↔
      ∀ document, loaded .nothing = .ok document → document.Unobstructed) ∧
      ∀ document, loaded .nothing = .ok document → ¬ document.Unobstructed →
        ∃ fault, document.fingerprint = .error fault ∧
          loaded .everything = .error (.fault fault) := by
  intro loaded
  have silent : loaded .nothing = (Loader.mk locations NodeSchema.nodeConfig).inForce files :=
    ((loadConfig_ends files .nothing _ none).outcome .nothing).trans (result_of_silent rfl)
  have shows : loaded .everything =
      (Loader.mk locations NodeSchema.nodeConfig).result files .everything none :=
    (loadConfig_ends files .everything _ none).outcome .everything
  rw [silent, shows]
  obtain ⟨same, faults⟩ :=
    @result_of_shown files (Loader.mk locations NodeSchema.nodeConfig) .everything rfl
  constructor
  · rw [same]
    exact forall₂_congr fun document loaded => exists_fingerprint_of_inForce loaded
  · intro document loaded obstructed
    cases print : document.fingerprint with
    | ok text => exact absurd ((exists_fingerprint_of_inForce loaded).mp ⟨text, print⟩) obstructed
    | error fault => exact ⟨fault, rfl, faults document fault loaded print⟩

/-- An overlay that has null and a text as keys of one dictionary loads only if nobody looks. -/
theorem verbosity_matters :
    ¬ ∀ (files : Files) (locations : ResolvedLocations),
      (((Loader.mk locations NodeSchema.nodeConfig).loadConfig files .everything none).outcome
        .everything).1 =
      (((Loader.mk locations NodeSchema.nodeConfig).loadConfig files .nothing none).outcome
        .nothing).1 := by
  intro same
  let locations := inlineLocations "data:,cluster_name:%20X"
    "data:,table_properties:%20%7B~:%20a,%20b:%20c%7D"
  have fails : failure? (((Loader.mk locations NodeSchema.nodeConfig).loadConfig .empty .everything
      none).outcome .everything).1 = some (.fault .kind) := by decide +kernel
  have loads : (((Loader.mk locations NodeSchema.nodeConfig).loadConfig .empty .nothing
      none).outcome .nothing).1.toOption.isSome = true := by decide +kernel
  rw [← same, failure?_eq_some_iff.mp fails] at loads
  exact Bool.false_ne_true loads

end LayeredConfig.Loader
