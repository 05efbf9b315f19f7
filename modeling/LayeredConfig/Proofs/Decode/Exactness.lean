import LayeredConfig.Proofs.Decode.Findings
import LayeredConfig.Proofs.Decode.Pruning
import LayeredConfig.Proofs.Decode.Reports
import LayeredConfig.Proofs.Results
import LayeredConfig.Proofs.Schema.Node

namespace LayeredConfig.Decode

section entries

variable {settings : List (Setting Shape)} {path : Str}

theorem readSettings_append (slots : List (Slot Value)) (first rest : List (Scalar × Tree)) :
    readSettings (readers settings) path slots (first ++ rest) =
      readSettings (readers settings) path slots first >>= fun slots =>
        readSettings (readers settings) path slots rest := by
  induction first generalizing slots with
  | nil =>
    exact (Walk.accept_andThen slots fun slots => readSettings (readers settings) path slots rest).symm
  | cons entry first ih =>
    obtain ⟨key, node⟩ := entry
    rw [List.cons_append, readSettings_cons, readSettings_cons, bind_assoc]
    refine congrArg _ (funext fun title => ?_)
    cases settings.find? (·.name == title) with
    | none => simp only [bind_assoc, ih]
    | some setting => simp only [bind_assoc, ih]

theorem find?_readSettings {entries : List (Scalar × Tree)} {slots result : List (Slot Value)}
    {name : Str} (others : ∀ entry ∈ entries, entry.1.text ≠ name)
    (built : readSettings (readers settings) path slots entries = .built result findings) :
    Slot.find? name result = Slot.find? name slots := by
  induction entries generalizing slots findings with
  | nil => rw [(Walk.pure_eq_built_iff.mp built).1]
  | cons entry entries ih =>
    obtain ⟨key, node⟩ := entry
    obtain ⟨other, others⟩ := List.forall_mem_cons.mp others
    rw [readSettings_cons] at built
    obtain ⟨title, _, _, named, step, -⟩ := Walk.bind_eq_built_iff.mp built
    obtain ⟨-, rfl, -⟩ := nameOf_eq_built_iff.mp named
    split at step
    · obtain ⟨_, _, _, -, rest, -⟩ := Walk.bind_eq_built_iff.mp step
      exact ih others rest
    · obtain ⟨value, _, _, -, rest, -⟩ := Walk.bind_eq_built_iff.mp step
      exact (ih others rest).trans (Slot.find?_assign_other other.symm value slots)

theorem explicit_readSettings {entries : List (Scalar × Tree)} {slots result : List (Slot Value)}
    {name : Str} {slot : Slot Value} (found : Slot.find? name slots = some slot)
    (explicit : slot.explicit = true)
    (built : readSettings (readers settings) path slots entries = .built result findings) :
    ∃ slot, Slot.find? name result = some slot ∧ slot.explicit = true := by
  induction entries generalizing slots slot findings with
  | nil => exact ⟨slot, (Walk.pure_eq_built_iff.mp built).1 ▸ found, explicit⟩
  | cons entry entries ih =>
    obtain ⟨key, node⟩ := entry
    rw [readSettings_cons] at built
    obtain ⟨title, _, _, -, step, -⟩ := Walk.bind_eq_built_iff.mp built
    split at step
    · obtain ⟨_, _, _, -, rest, -⟩ := Walk.bind_eq_built_iff.mp step
      exact ih found explicit rest
    · obtain ⟨value, _, _, -, rest, -⟩ := Walk.bind_eq_built_iff.mp step
      by_cases same : name = title
      · subst same
        have given : Slot.find? name (Slot.assign name value slots) = some ⟨name, true, value⟩ := by
          rw [Slot.find?_assign_self, found, Option.map_some]
        exact ih given rfl rest
      · exact ih ((Slot.find?_assign_other same value slots).trans found) explicit rest

theorem readSetting_null {setting : Setting Shape} {node : Tree} (null : node.isNull = true)
    (built : readSetting setting (reader setting.shape) node path = .built value findings) :
    value = .null := by
  rw [readSetting_eq] at built
  split at built
  · exact (Walk.built.inj built).1.symm
  · rw [reader_of_isNull setting.shape path null] at built
    exact (Walk.built.inj built).1.symm

/-- An entry of a known setting gives its slot what is read from its node, and marks it. -/
theorem find?_readSettings_known {key : Scalar} {node : Tree} {setting : Setting Shape}
    {slots result : List (Slot Value)} (names : slots.map (·.name) = settings.map (·.name))
    (known : settings.find? (·.name == key.text) = some setting)
    (built : readSettings (readers settings) path slots [(key, node)] = .built result findings) :
    ∃ value noted, readSetting setting (reader setting.shape) node (join path key.text) =
        .built value noted ∧ Slot.find? key.text result = some ⟨key.text, true, value⟩ := by
  rw [readSettings_cons] at built
  obtain ⟨title, _, _, named, step, -⟩ := Walk.bind_eq_built_iff.mp built
  obtain ⟨-, rfl, -⟩ := nameOf_eq_built_iff.mp named
  rw [known] at step
  obtain ⟨value, noted, _, ofSetting, rest, -⟩ := Walk.bind_eq_built_iff.mp step
  obtain ⟨rfl, -⟩ := Walk.pure_eq_built_iff.mp rest
  have listed : key.text ∈ slots.map (·.name) := by
    have same := List.find?_some known
    rw [beq_iff_eq] at same
    exact names ▸ List.mem_map.mpr ⟨setting, List.mem_of_find?_eq_some known, same⟩
  obtain ⟨slot, found⟩ := Slot.exists_find? listed
  refine ⟨value, noted, ofSetting, ?_⟩
  rw [Slot.find?_assign_self, found, Option.map_some]

/-- A null entry of a known setting gives its slot null and marks it. -/
theorem find?_readSettings_null {key : Scalar} {node : Tree} {setting : Setting Shape}
    {slots result : List (Slot Value)} (names : slots.map (·.name) = settings.map (·.name))
    (known : settings.find? (·.name == key.text) = some setting) (null : node.isNull = true)
    (built : readSettings (readers settings) path slots [(key, node)] = .built result findings) :
    Slot.find? key.text result = some ⟨key.text, true, .null⟩ := by
  obtain ⟨value, noted, ofSetting, given⟩ := find?_readSettings_known names known built
  exact readSetting_null null ofSetting ▸ given

end entries

/-- What the entries of a document do to its slots. A slot without an entry keeps its default; a null
entry gives its slot null and marks it at once, the mark stays, and so does null unless a later entry
has the same text. -/
def Records (settings : List (Setting Shape)) (path : Str) (entries : List (Scalar × Tree)) : Prop :=
  ∃ slots findings,
    readSettings (readers settings) path (Schema.newSlots settings) entries = .built slots findings ∧
    (∀ name, (∀ entry ∈ entries, entry.1.text ≠ name) →
      Slot.find? name slots = Slot.find? name (Schema.newSlots settings)) ∧
    ∀ before key node after setting, entries = before ++ (key, node) :: after →
      settings.find? (·.name == key.text) = some setting → node.isNull = true →
        (∃ now noted, readSettings (readers settings) path (Schema.newSlots settings)
            (before ++ [(key, node)]) = .built now noted ∧
          Slot.find? key.text now = some ⟨key.text, true, .null⟩) ∧
        (∃ slot, Slot.find? key.text slots = some slot ∧ slot.explicit = true) ∧
        ((∀ entry ∈ after, entry.1.text ≠ key.text) →
          Slot.find? key.text slots = some ⟨key.text, true, .null⟩)

theorem records_of_built {settings : List (Setting Shape)} {entries : List (Scalar × Tree)}
    (built : readSettings (readers settings) path (Schema.newSlots settings) entries =
      .built slots findings) : Records settings path entries := by
  refine ⟨slots, findings, built, fun name others => find?_readSettings others built, ?_⟩
  rintro before key node after setting rfl known null
  have fresh : (Schema.newSlots settings).map (·.name) = settings.map (·.name) := by
    simp [Schema.newSlots]
  rw [← List.singleton_append, ← List.append_assoc, readSettings_append] at built
  obtain ⟨now, noted, _, first, rest, -⟩ := Walk.bind_eq_built_iff.mp built
  have stepwise := first
  rw [readSettings_append] at stepwise
  obtain ⟨earlier, _, _, start, own, -⟩ := Walk.bind_eq_built_iff.mp stepwise
  have given := find?_readSettings_null ((names_readSettings start).trans fresh) known null own
  exact ⟨⟨now, noted, first, given⟩, explicit_readSettings given rfl rest,
    fun others => (find?_readSettings others rest).trans given⟩

/-- Every document that is reached is read to its end if the walk over the whole tree is. -/
theorem records_of_reaches {schema : Schema} {tree : Tree} {settings : List (Setting Shape)}
    (walk : rootWalk schema tree = .built document findings)
    (reaches : Reaches schema.shape tree trail settings entries) :
    Records settings (Trail.extend "" trail) entries := by
  have calm := (rootWalk_follows schema tree).calm walk
  have follows : (readSettings (readers settings) (Trail.extend "" trail) (Schema.newSlots settings)
      entries).Follows (entryVisits (visitors settings) (Trail.extend "" trail) entries) :=
    readSettings_follows (fun setting _ => reader_follows setting.shape) _ _ _
  obtain ⟨slots, noted, built⟩ := follows.exists_built fun visit visited =>
    calm visit (mem_visits_of_reaches reaches visited)
  exact records_of_built built

/-- The report is exact: it lists the unknown and the nullified settings of all documents that are
reached, and nothing else. Nullified settings are null and explicit all the same, unknown ones could as
well be absent, and the check fails exactly if there are any, with all of them in order. -/
theorem ofTree_report_exact {schema : Schema} {result : Result}
    (named : ∀ setting ∈ schema.settings, setting.name ≠ "")
    (decoded : ofTree schema source tree = .ok result) :
    (∀ path, path ∈ result.report.unknown ↔ UnknownAt schema tree path) ∧
      (∀ path, path ∈ result.report.nullified ↔ NullifiedAt schema tree path) ∧
      (∀ trail settings entries, Reaches schema.shape tree trail settings entries →
        Records settings (Trail.extend "" trail) entries) ∧
      ofTree schema source (pruned schema.shape tree) =
        .ok ⟨result.document, ⟨[], result.report.nullified⟩⟩ ∧
      ∀ origin error, result.report.check origin = some error ↔
        ((∃ path, UnknownAt schema tree path) ∨ ∃ path, NullifiedAt schema tree path) ∧
          ∃ unknown nullified, error = .invalidConfiguration origin unknown nullified ∧
            unknown.Pairwise (· < ·) ∧ (∀ path, path ∈ unknown ↔ UnknownAt schema tree path) ∧
            nullified.Pairwise (· < ·) ∧ ∀ path, path ∈ nullified ↔ NullifiedAt schema tree path := by
  obtain ⟨findings, walk, listed⟩ := ofTree_eq_ok_iff.mp decoded
  have unknown (path : Str) : path ∈ result.report.unknown ↔ UnknownAt schema tree path := by
    rw [listed, Report.mem_unknown]
    exact unknown_iff named walk
  have nullified (path : Str) :
      path ∈ result.report.nullified ↔ NullifiedAt schema tree path := by
    rw [listed, Report.mem_nullified]
    exact nullified_iff named walk
  refine ⟨unknown, nullified, fun _ _ _ => records_of_reaches walk, ofTree_pruned decoded, ?_⟩
  intro origin error
  have once : result.report.unknown.Nodup ∧ result.report.nullified.Nodup := by
    rw [listed]
    exact ⟨nodup_dedupe _, nodup_dedupe _⟩
  rw [Report.check_eq_some_iff once.1 once.2]
  simp only [unknown, nullified]

/-- A tree with an unknown setting at the root and one inside, and a setting that may not be null. -/
def flawedTree : Tree :=
  .map none [(.str "cluster_name", .scalar .null), (.int 7, .scalar .null),
    (.str "seed_provider", .map none [(.str "class", .scalar (.str "Seeds"))])]

theorem ofTree_report_exact_flawedTree :
    ∃ result, ofTree NodeSchema.nodeConfig "node.yaml" flawedTree = .ok result ∧
      result.report = ⟨["7", "seed_provider.class"], ["cluster_name"]⟩ ∧
      (∀ path, path ∈ result.report.unknown ↔ UnknownAt NodeSchema.nodeConfig flawedTree path) ∧
      ∀ path, path ∈ result.report.nullified ↔ NullifiedAt NodeSchema.nodeConfig flawedTree path := by
  have checked : (ofTree NodeSchema.nodeConfig "node.yaml" flawedTree).toOption.any (fun result =>
      result.report == ⟨["7", "seed_provider.class"], ["cluster_name"]⟩) = true := by decide +kernel
  obtain ⟨result, found, report⟩ := (Option.any_eq_true ..).mp checked
  have decoded := toOption_eq_some_iff.mp found
  obtain ⟨unknown, nullified, -⟩ := ofTree_report_exact NodeSchema.named_nodeConfig decoded
  exact ⟨result, decoded, eq_of_beq report, unknown, nullified⟩

end LayeredConfig.Decode
