import LayeredConfig.Fault

namespace LayeredConfig

inductive LogLevel
  | debug
  | info
  deriving DecidableEq, Repr

/-- The parts of the library that keep a log. -/
inductive LogSource
  | resolver
  | loader
  deriving DecidableEq, Repr

structure LogRecord where
  level : LogLevel
  source : LogSource
  message : String
  deriving DecidableEq, Repr

/-- What a log shows: everything, all but details, or nothing. -/
inductive Verbosity
  | everything
  | information
  | nothing
  deriving DecidableEq, Repr

def Verbosity.shows : Verbosity → LogLevel → Bool
  | .everything, _ => true
  | .information, level => level == .info
  | .nothing, _ => false

/-- A step that leaves records. -/
abbrev Logged := ExceptT Failure (StateM (List LogRecord))

namespace Logged

/-- Leaves a record. -/
def record (level : LogLevel) (source : LogSource) (message : String) : Logged Unit :=
  modify (· ++ [⟨level, source, message⟩])

/-- The outcome of a step, and the records that a log with some verbosity shows of it. -/
def outcome (step : Logged α) (verbosity : Verbosity) : Except Failure α × List LogRecord :=
  let (outcome, records) := step.run.run []
  (outcome, records.filter fun record => verbosity.shows record.level)

/-- A result that may be a fault. -/
def ofFault (result : Except Fault α) : Logged α :=
  match result with
  | .ok value => return value
  | .error fault => throw (.fault fault)

/-- A result that may be a failure. -/
def ofFailure (result : Except Failure α) : Logged α :=
  match result with
  | .ok value => return value
  | .error failure => throw failure

end Logged

end LayeredConfig
