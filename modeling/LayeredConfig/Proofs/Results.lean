namespace LayeredConfig

variable {ε δ α β : Type} {result : Except ε α}

theorem bind_eq_ok_iff {next : α → Except ε β} {value : β} :
    (result >>= next) = .ok value ↔ ∃ found, result = .ok found ∧ next found = .ok value := by
  cases result <;> simp [Bind.bind, Except.bind]

theorem bind_eq_error_iff {next : α → Except ε β} {error : ε} :
    (result >>= next) = .error error ↔
      result = .error error ∨ ∃ found, result = .ok found ∧ next found = .error error := by
  cases result <;> simp [Bind.bind, Except.bind]

theorem bind_congr_of_ok {next next' : α → Except ε β}
    (same : ∀ value, result = .ok value → next value = next' value) :
    (result >>= next) = result >>= next' := by
  cases result with
  | error failure => rfl
  | ok value => exact same value rfl

theorem map_eq_ok_iff {f : α → β} {value : β} :
    f <$> result = .ok value ↔ ∃ found, result = .ok found ∧ f found = value := by
  cases result <;> simp [Functor.map, Except.map]

theorem map_eq_error_iff {f : α → β} {error : ε} :
    f <$> result = .error error ↔ result = .error error := by
  cases result <;> simp [Functor.map, Except.map]

@[simp] theorem mapError_ok {f : ε → δ} {value : α} :
    (Except.ok value).mapError f = .ok value := rfl

@[simp] theorem mapError_error {f : ε → δ} {error : ε} :
    (Except.error error : Except ε α).mapError f = .error (f error) := rfl

theorem mapError_eq_ok_iff {f : ε → δ} {value : α} :
    result.mapError f = .ok value ↔ result = .ok value := by
  cases result <;> simp

theorem mapError_eq_error_iff {f : ε → δ} {error : δ} :
    result.mapError f = .error error ↔ ∃ cause, result = .error cause ∧ f cause = error := by
  cases result <;> simp

theorem toOption_eq_some_iff {value : α} : result.toOption = some value ↔ result = .ok value := by
  cases result <;> simp [Except.toOption]

theorem exists_ok_of_isSome (some : result.toOption.isSome = true) :
    ∃ value, result = .ok value := by
  obtain ⟨value, found⟩ := Option.isSome_iff_exists.mp some
  exact ⟨value, toOption_eq_some_iff.mp found⟩

theorem exists_mapM_eq_ok_iff {f : α → Except ε β} {xs : List α} :
    (∃ results, xs.mapM f = .ok results) ↔ ∀ x ∈ xs, ∃ result, f x = .ok result := by
  induction xs with
  | nil => simp [pure, Except.pure]
  | cons x xs ih =>
    simp only [List.mapM_cons, bind_eq_ok_iff, List.forall_mem_cons, ← ih]
    constructor
    · intro some
      obtain ⟨_, result, here, results, there, -⟩ := some
      exact ⟨⟨result, here⟩, results, there⟩
    · intro each
      obtain ⟨⟨result, here⟩, results, there⟩ := each
      exact ⟨result :: results, result, here, results, there, rfl⟩

/-- The results for all members of a list, in their order. -/
theorem mapM_eq_ok_iff {f : α → Except ε β} {xs : List α} {ys : List β} :
    xs.mapM f = .ok ys ↔ xs.map f = ys.map .ok := by
  induction xs generalizing ys with
  | nil => cases ys <;> simp [pure, Except.pure]
  | cons x xs ih =>
    simp only [List.mapM_cons, bind_eq_ok_iff, List.map_cons]
    constructor
    · rintro ⟨y, here, rest, there, made⟩
      obtain rfl := Except.ok.inj made
      rw [here, ih.mp there, List.map_cons]
    · intro same
      cases ys with
      | nil => cases same
      | cons y ys =>
        obtain ⟨here, there⟩ := List.cons.inj same
        exact ⟨y, here, ys, ih.mpr there, rfl⟩

theorem exists_of_map_eq_ok {f : α → Except ε β} {xs : List α} {ys : List β} (each : xs.map f = ys.map .ok)
    {y : β} (member : y ∈ ys) : ∃ x ∈ xs, f x = .ok y :=
  List.mem_map.mp (each ▸ List.mem_map_of_mem member)

/-- The failure that a result is, if it is one. -/
def failure? (result : Except ε α) : Option ε :=
  match result with
  | .ok _ => none
  | .error failure => some failure

theorem failure?_eq_some_iff {failure : ε} : failure? result = some failure ↔ result = .error failure := by
  cases result <;> simp [failure?]

end LayeredConfig
