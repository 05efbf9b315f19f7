import LayeredConfig.Proofs.Decode.Trails

namespace LayeredConfig.Decode

/-- A key of a document that is reached stands for no setting of it. -/
def UnknownAt (schema : Schema) (tree : Tree) (path : Str) : Prop :=
  ∃ trail settings entries key child, Reaches schema.shape tree trail settings entries ∧
    (key, child) ∈ entries ∧ (∀ setting ∈ settings, setting.name ≠ key.text) ∧
      path = Trail.text (trail ++ [.key key.text])

/-- A setting of a document that is reached is null although its default is not. -/
def NullifiedAt (schema : Schema) (tree : Tree) (path : Str) : Prop :=
  ∃ trail settings entries key child setting, Reaches schema.shape tree trail settings entries ∧
    (key, child) ∈ entries ∧ settings.find? (·.name == key.text) = some setting ∧
      child.isNull = true ∧ setting.default.isNull = false ∧
        path = Trail.text (trail ++ [.key key.text])

theorem unknown_mem_findings {visits : List Visit} {path : Str} :
    .unknown path ∈ visits.filterMap Visit.finding? ↔ ∃ key child, .entry none path key child ∈ visits := by
  rw [List.mem_filterMap]
  constructor
  · intro listed
    obtain ⟨visit, member, found⟩ := listed
    unfold Visit.finding? at found
    split at found
    · cases found
      exact ⟨_, _, member⟩
    · split at found <;> cases found
    · cases found
  · intro visited
    obtain ⟨key, child, member⟩ := visited
    exact ⟨_, member, rfl⟩

theorem nullified_mem_findings {visits : List Visit} {path : Str} :
    .nullified path ∈ visits.filterMap Visit.finding? ↔
      ∃ setting key child, .entry (some setting) path key child ∈ visits ∧ child.isNull = true ∧
        setting.nullable = false := by
  rw [List.mem_filterMap]
  constructor
  · intro listed
    obtain ⟨visit, member, found⟩ := listed
    unfold Visit.finding? at found
    split at found
    · cases found
    · split at found
      · next nullified =>
        cases found
        exact ⟨_, _, _, member, by simpa using nullified⟩
      · cases found
    · cases found
  · intro visited
    obtain ⟨setting, key, child, member, null, required⟩ := visited
    exact ⟨_, member, by simp [Visit.finding?, null, required]⟩

/-- The first key of a trail through a document names one of its settings. -/
theorem path_of_reaches {settings : List (Setting Shape)}
    (named : ∀ setting ∈ settings, setting.name ≠ "")
    (reaches : Reaches (.document type settings) tree trail fields entries) (last : Str) :
    Trail.extend "" (trail ++ [.key last]) = Trail.text (trail ++ [.key last]) := by
  refine Trail.extend_root ?_ last ?_
  · rintro name rest rfl
    cases reaches with
    | setting _ found _ =>
      have same := List.find?_some found
      rw [beq_iff_eq] at same
      exact same ▸ named _ (List.mem_of_find?_eq_some found)
  · rintro index rest rfl
    cases reaches

variable {schema : Schema} {tree : Tree} {path : Str}

theorem unknown_iff (named : ∀ setting ∈ schema.settings, setting.name ≠ "")
    (built : rootWalk schema tree = .built document findings) :
    .unknown path ∈ findings ↔ UnknownAt schema tree path := by
  rw [(rootWalk_follows schema tree).findings_eq built, unknown_mem_findings]
  simp only [entry_mem_visits]
  constructor
  · intro visited
    obtain ⟨key, child, trail, ⟨settings, entries, reaches, member, unknown⟩, rfl⟩ := visited
    have missing := List.find?_eq_none.mp unknown.symm
    exact ⟨trail, settings, entries, key, child, reaches, member, by simpa using missing,
      path_of_reaches named reaches _⟩
  · intro unknown
    obtain ⟨trail, settings, entries, key, child, reaches, member, missing, rfl⟩ := unknown
    refine ⟨key, child, trail, ⟨settings, entries, reaches, member, ?_⟩,
      (path_of_reaches named reaches _).symm⟩
    exact (List.find?_eq_none.mpr (by simpa using missing)).symm

theorem nullified_iff (named : ∀ setting ∈ schema.settings, setting.name ≠ "")
    (built : rootWalk schema tree = .built document findings) :
    .nullified path ∈ findings ↔ NullifiedAt schema tree path := by
  rw [(rootWalk_follows schema tree).findings_eq built, nullified_mem_findings]
  simp only [entry_mem_visits]
  constructor
  · intro visited
    obtain ⟨setting, key, child, ⟨trail, ⟨settings, entries, reaches, member, known⟩, rfl⟩, null,
      required⟩ := visited
    exact ⟨trail, settings, entries, key, child, setting, reaches, member, known.symm, null, required,
      path_of_reaches named reaches _⟩
  · intro nullified
    obtain ⟨trail, settings, entries, key, child, setting, reaches, member, known, null, required,
      rfl⟩ := nullified
    exact ⟨setting, key, child, ⟨trail, ⟨settings, entries, reaches, member, known.symm⟩,
      (path_of_reaches named reaches _).symm⟩, null, required⟩

end LayeredConfig.Decode
