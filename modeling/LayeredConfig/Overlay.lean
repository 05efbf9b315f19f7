import LayeredConfig.Schema

namespace LayeredConfig

/-- Lays slots over others, one by one. -/
def Slot.overlay : List (Slot α) → List (Slot α) → List (Slot α)
  | below :: base, above :: upper =>
    (if above.explicit then ⟨below.name, true, above.value⟩ else below) :: overlay base upper
  | base, [] => base
  | [], _ => []

theorem Slot.names_overlay (base upper : List (Slot α)) :
    (Slot.overlay base upper).map (·.name) = base.map (·.name) := by
  induction base generalizing upper with
  | nil => cases upper <;> rfl
  | cons below base ih =>
    cases upper with
    | nil => rfl
    | cons above upper =>
      rw [Slot.overlay, List.map_cons, List.map_cons, ih]
      split <;> rfl

/-- Lays a document over another; the two must have one type. Types are told apart by their names. -/
def Value.overlay? (base upper : Value) : Except Fault Value :=
  match base, upper with
  | .document type slots, .document type' slots' =>
    if type == type' then .ok (.document type (Slot.overlay slots slots'))
    else .error (.overlayOfOtherType type type')
  | base, upper => .error (.overlayOfOtherType base.typeName upper.typeName)

end LayeredConfig
