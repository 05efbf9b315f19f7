import LayeredConfig.Proofs.Container.Pairing
import LayeredConfig.Proofs.Decode.Steps
import Mathlib.Data.List.Perm.Basic

/-!
Two walks side by side. Whenever the first one builds something, the second one builds something that is
related to it, and both note the same findings, in whatever order.
-/

namespace LayeredConfig.Walk

/-- Whatever the first walk builds, the second one builds something related with the same findings. -/
def Mirrors (related : α → β → Prop) (walk : Walk α) (walk' : Walk β) : Prop :=
  ∀ value findings, walk = .built value findings → ∃ value' findings',
    walk' = .built value' findings' ∧ related value value' ∧ findings.Perm findings'

variable {related : α → β → Prop} {related' : γ → δ → Prop} {walk : Walk α} {walk' : Walk β}

theorem mirrors_stopped (failure : WalkFailure) (walk' : Walk β) :
    Mirrors related (.stopped failure) walk' :=
  nofun

theorem mirrors_pure {value : α} {value' : β} (here : related value value') :
    Mirrors related (pure value) (pure value') := by
  intro result findings built
  obtain ⟨rfl, rfl⟩ := pure_eq_built_iff.mp built
  exact ⟨value', [], rfl, here, .refl []⟩

theorem mirrors_self {related : α → α → Prop} (reflexive : ∀ value, related value value)
    (walk : Walk α) : Mirrors related walk walk :=
  fun value findings built => ⟨value, findings, built, reflexive value, .refl findings⟩

/-- More is known of what the first walk builds. -/
theorem Mirrors.knowing {known : α → Prop} (mirrors : Mirrors related walk walk')
    (knows : ∀ value findings, walk = .built value findings → known value) :
    Mirrors (fun value value' => known value ∧ related value value') walk walk' := by
  intro value findings built
  obtain ⟨value', findings', built', here, perm⟩ := mirrors value findings built
  exact ⟨value', findings', built', ⟨knows value findings built, here⟩, perm⟩

theorem Mirrors.bind {next : α → Walk γ} {next' : β → Walk δ} (first : Mirrors related walk walk')
    (after : ∀ value value', related value value' → Mirrors related' (next value) (next' value')) :
    Mirrors related' (walk >>= next) (walk' >>= next') := by
  intro result findings built
  obtain ⟨value, before, later, ofFirst, ofNext, rfl⟩ := bind_eq_built_iff.mp built
  obtain ⟨value', before', ofFirst', here, permBefore⟩ := first value before ofFirst
  obtain ⟨result', later', ofNext', there, permLater⟩ := after value value' here result later ofNext
  exact ⟨result', before' ++ later', built_bind ofFirst' ofNext', there, permBefore.append permLater⟩

theorem Mirrors.map {f : α → γ} {g : β → δ} (mirrors : Mirrors related walk walk')
    (after : ∀ value value', related value value' → related' (f value) (g value')) :
    Mirrors related' (walk >>= fun value => pure (f value)) (walk' >>= fun value => pure (g value)) :=
  mirrors.bind fun value value' here => mirrors_pure (after value value' here)

theorem Mirrors.trans {walk'' : Walk γ} {further : β → γ → Prop} (first : Mirrors related walk walk')
    (second : Mirrors further walk' walk'') : Mirrors (Relation.Comp related further) walk walk'' := by
  intro value findings built
  obtain ⟨value', findings', built', here, perm⟩ := first value findings built
  obtain ⟨value'', findings'', built'', there, perm'⟩ := second value' findings' built'
  exact ⟨value'', findings'', built'', ⟨value', here, there⟩, perm.trans perm'⟩

theorem mirrors_mapM {step : α → Walk γ} {step' : β → Walk δ} {xs : List α} {ys : List β}
    (each : List.Forall₂ (fun x y => Mirrors related' (step x) (step' y)) xs ys) :
    Mirrors (List.Forall₂ related') (xs.mapM step) (ys.mapM step') := by
  induction each with
  | nil => exact mirrors_pure .nil
  | cons here _ ih =>
    rw [List.mapM_cons, List.mapM_cons]
    exact here.bind fun _ _ first => ih.map fun _ _ others => .cons first others

/-- The order of steps that do not depend on one another matters for the order of what they build only. -/
theorem mirrors_mapM_perm [Inhabited γ] {step : α → Walk γ} {xs ys : List α} (perm : xs.Perm ys) :
    Mirrors List.Perm (xs.mapM step) (ys.mapM step) := by
  intro values findings built
  obtain ⟨completes, rfl, rfl⟩ := mapM_eq_built_iff.mp built
  have completes' : ∀ y ∈ ys, (step y).Completes := fun y listed =>
    completes y (perm.mem_iff.mpr listed)
  exact ⟨_, _, mapM_eq_built_iff.mpr ⟨completes', rfl, rfl⟩, perm.map _, perm.flatMap_right _⟩

end LayeredConfig.Walk
