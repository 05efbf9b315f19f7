import LayeredConfig.Proofs.Text.Sorting
import LayeredConfig.Report

namespace LayeredConfig.Report

theorem mem_unknown {findings : List Finding} {path : Str} :
    path ∈ (ofFindings findings).unknown ↔ .unknown path ∈ findings := by
  rw [ofFindings, ofPaths, mem_dedupe, List.mem_filterMap]
  constructor
  · intro listed
    obtain ⟨finding, member, same⟩ := listed
    cases finding <;> simp_all
  · exact fun member => ⟨_, member, rfl⟩

theorem mem_nullified {findings : List Finding} {path : Str} :
    path ∈ (ofFindings findings).nullified ↔ .nullified path ∈ findings := by
  rw [ofFindings, ofPaths, mem_dedupe, List.mem_filterMap]
  constructor
  · intro listed
    obtain ⟨finding, member, same⟩ := listed
    cases finding <;> simp_all
  · exact fun member => ⟨_, member, rfl⟩

/-- The order of findings matters for the order of a report only. -/
theorem ofFindings_perm {findings findings' : List Finding} (perm : findings.Perm findings') :
    (ofFindings findings).unknown.Perm (ofFindings findings').unknown ∧
      (ofFindings findings).nullified.Perm (ofFindings findings').nullified := by
  constructor
  · refine (List.perm_ext_iff_of_nodup (nodup_dedupe _) (nodup_dedupe _)).mpr fun path => ?_
    exact mem_unknown.trans (perm.mem_iff.trans mem_unknown.symm)
  · refine (List.perm_ext_iff_of_nodup (nodup_dedupe _) (nodup_dedupe _)).mpr fun path => ?_
    exact mem_nullified.trans (perm.mem_iff.trans mem_nullified.symm)

/-- A report with distinct paths fails its check exactly when it has any, and the error lists them all
in strict order. -/
theorem check_eq_some_iff {report : Report} {source : String} {error : ConfigurationError}
    (unknownOnce : report.unknown.Nodup) (nullifiedOnce : report.nullified.Nodup) :
    report.check source = some error ↔
      ((∃ path, path ∈ report.unknown) ∨ ∃ path, path ∈ report.nullified) ∧
        ∃ unknown nullified, error = .invalidConfiguration source unknown nullified ∧
          unknown.Pairwise (· < ·) ∧ (∀ path, path ∈ unknown ↔ path ∈ report.unknown) ∧
          nullified.Pairwise (· < ·) ∧ (∀ path, path ∈ nullified ↔ path ∈ report.nullified) := by
  have listed : report.isEmpty = false ↔
      (∃ path, path ∈ report.unknown) ∨ ∃ path, path ∈ report.nullified := by
    obtain ⟨unknown, nullified⟩ := report
    cases unknown <;> cases nullified <;> simp [isEmpty]
  rw [check, ← listed]
  cases empty : report.isEmpty with
  | true => simp
  | false =>
    simp only [Bool.false_eq_true, if_false, Option.some.injEq, true_and]
    constructor
    · rintro rfl
      exact ⟨_, _, rfl, pairwise_sortTexts unknownOnce, fun _ => mem_sortBy,
        pairwise_sortTexts nullifiedOnce, fun _ => mem_sortBy⟩
    · intro listed
      obtain ⟨unknown, nullified, rfl, unknownSorted, sameUnknown, nullifiedSorted, sameNullified⟩
        := listed
      rw [eq_of_pairwise_lt unknownSorted (pairwise_sortTexts unknownOnce) fun path =>
          (sameUnknown path).trans mem_sortBy.symm,
        eq_of_pairwise_lt nullifiedSorted (pairwise_sortTexts nullifiedOnce) fun path =>
          (sameNullified path).trans mem_sortBy.symm]
      rfl

end LayeredConfig.Report
