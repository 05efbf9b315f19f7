import LayeredConfig.Log
import LayeredConfig.Proofs.Results

namespace LayeredConfig.Logged

/-- A step ends with a result and only adds records to those that are there. -/
def Ends (step : Logged α) (result : Except Failure α) : Prop :=
  ∀ before, ∃ records, step.run.run before = (result, before ++ records)

/-- A log shows the result whatever its verbosity. -/
theorem Ends.outcome {step : Logged α} (ends : Ends step result) (verbosity : Verbosity) :
    (step.outcome verbosity).1 = result := by
  obtain ⟨records, run⟩ := ends []
  simp only [Logged.outcome, run]

theorem ends_pure (value : α) : Ends (pure value) (.ok value) :=
  fun before => ⟨[], by rw [List.append_nil]; rfl⟩

theorem ends_throw (failure : Failure) : Ends (throw failure : Logged α) (.error failure) :=
  fun before => ⟨[], by rw [List.append_nil]; rfl⟩

theorem ends_record (level : LogLevel) (source : LogSource) (message : String) :
    Ends (record level source message) (.ok ()) :=
  fun _ => ⟨[⟨level, source, message⟩], rfl⟩

theorem ends_ofFault (result : Except Fault α) : Ends (ofFault result) (result.mapError .fault) := by
  cases result with
  | ok value => exact ends_pure value
  | error fault => exact ends_throw (.fault fault)

theorem ends_ofFailure (result : Except Failure α) : Ends (ofFailure result) result := by
  cases result with
  | ok value => exact ends_pure value
  | error failure => exact ends_throw failure

theorem Ends.andThen {step : Logged α} {next : α → Logged β} (first : Ends step (.ok value))
    (rest : Ends (next value) result) : Ends (step >>= next) result := by
  intro before
  obtain ⟨records, run⟩ := first before
  obtain ⟨later, runRest⟩ := rest (before ++ records)
  refine ⟨records ++ later, ?_⟩
  simp only [ExceptT.run_bind, StateT.run_bind, run]
  rw [← List.append_assoc]
  exact runRest

theorem Ends.stopped {step : Logged α} {next : α → Logged β} {failure : Failure}
    (failed : Ends step (.error failure)) : Ends (step >>= next) (.error failure) := by
  intro before
  obtain ⟨records, run⟩ := failed before
  refine ⟨records, ?_⟩
  simp only [ExceptT.run_bind, StateT.run_bind, run]
  rfl

theorem Ends.bind {step : Logged α} {next : α → Logged β} {rest : α → Except Failure β}
    (first : Ends step result) (later : ∀ value, Ends (next value) (rest value)) :
    Ends (step >>= next) (result >>= rest) := by
  cases result with
  | ok value => exact first.andThen (later value)
  | error failure => exact first.stopped

theorem Ends.map {step : Logged α} (f : α → β) (ends : Ends step result) :
    Ends (f <$> step) (f <$> result) := by
  intro before
  obtain ⟨records, run⟩ := ends before
  refine ⟨records, ?_⟩
  simp only [ExceptT.run_map, StateT.run_map, run]
  rfl

/-- A handler sees failures alone. -/
theorem Ends.unhandled {step : Logged α} {handler : Failure → Logged α}
    (ends : Ends step (.ok value)) : Ends (tryCatch step handler) (.ok value) := by
  intro before
  obtain ⟨records, run⟩ := ends before
  refine ⟨records, ?_⟩
  simp only [ExceptT.run_tryCatch, StateT.run_bind, run]
  rfl

theorem Ends.handled {step : Logged α} {handler : Failure → Logged α} {failure : Failure}
    (failed : Ends step (.error failure)) (result : Except Failure α)
    (handles : Ends (handler failure) result) : Ends (tryCatch step handler) result := by
  intro before
  obtain ⟨records, run⟩ := failed before
  obtain ⟨later, runRest⟩ := handles (before ++ records)
  refine ⟨records ++ later, ?_⟩
  rw [← List.append_assoc, ← runRest]
  simp only [ExceptT.run_tryCatch, StateT.run_bind, run]
  rfl

attribute [irreducible] Ends

end LayeredConfig.Logged
