import LayeredConfig.Fault

namespace LayeredConfig

/-- A finding, with the path of the setting. -/
inductive Finding
  | unknown (path : Str)
  | nullified (path : Str)
  deriving DecidableEq, Repr

/-- The findings of one walk; each path is listed once. -/
structure Report where
  unknown : List Str
  nullified : List Str
  deriving DecidableEq, Repr

namespace Report

def empty : Report :=
  ⟨[], []⟩

def ofPaths (unknown nullified : List Str) : Report :=
  ⟨dedupe unknown, dedupe nullified⟩

def ofFindings (findings : List Finding) : Report :=
  ofPaths
    (findings.filterMap fun
      | .unknown path => some path
      | .nullified _ => none)
    (findings.filterMap fun
      | .unknown _ => none
      | .nullified path => some path)

def isEmpty (report : Report) : Bool :=
  report.unknown.isEmpty && report.nullified.isEmpty

/-- The error of a report, which names all findings, or nothing if there are none. -/
def check (report : Report) (source : String) : Option ConfigurationError :=
  if report.isEmpty then none
  else some (.ofFindings source report.unknown report.nullified)

theorem check_eq_none_iff {report : Report} {source : String} :
    report.check source = none ↔ report = .empty := by
  rcases report with ⟨unknown, nullified⟩
  cases unknown <;> cases nullified <;> simp [check, isEmpty, empty]

end Report

end LayeredConfig
