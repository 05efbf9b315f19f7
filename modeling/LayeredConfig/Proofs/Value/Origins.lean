import LayeredConfig.Proofs.Binary64.Decimals
import LayeredConfig.Proofs.Value.Displays

namespace LayeredConfig

/-- A scalar that has this origin if it is a result that is not a number. -/
def Scalar.withOrigin (origin : Nat) : Scalar → Scalar
  | .float (.notANumber _) => .float (.notANumber origin)
  | value => value

namespace Value

open Text

mutual

/-- A value whose results that are not numbers all have one origin. Keys, and the values of members of
enumerations, stay as they are. -/
def withOrigin (origin : Nat) : Value → Value
  | .scalar value => .scalar (value.withOrigin origin)
  | .member enumeration name value => .member enumeration name value
  | .seq kind items => .seq kind (allWithOrigin origin items)
  | .set kind members => .set kind (allWithOrigin origin members)
  | .dict kind entries => .dict kind (entriesWithOrigin origin entries)
  | .document type slots => .document type (slotsWithOrigin origin slots)

def allWithOrigin (origin : Nat) : List Value → List Value
  | [] => []
  | value :: values => value.withOrigin origin :: allWithOrigin origin values

def entriesWithOrigin (origin : Nat) : List (Value × Value) → List (Value × Value)
  | [] => []
  | (key, value) :: entries => (key, value.withOrigin origin) :: entriesWithOrigin origin entries

def slotsWithOrigin (origin : Nat) : List (Slot Value) → List (Slot Value)
  | [] => []
  | ⟨name, explicit, value⟩ :: slots => ⟨name, explicit, value.withOrigin origin⟩ :: slotsWithOrigin origin slots

end

section maps

variable (origin : Nat)

theorem allWithOrigin_eq (values : List Value) : allWithOrigin origin values = values.map (withOrigin origin) := by
  induction values with
  | nil => rfl
  | cons value values ih => rw [allWithOrigin, ih, List.map_cons]

theorem entriesWithOrigin_eq (entries : List (Value × Value)) :
    entriesWithOrigin origin entries = entries.map fun entry => (entry.1, entry.2.withOrigin origin) := by
  induction entries with
  | nil => rfl
  | cons entry entries ih => rw [entriesWithOrigin, ih, List.map_cons]

theorem slotsWithOrigin_eq (slots : List (Slot Value)) :
    slotsWithOrigin origin slots = slots.map fun slot => ⟨slot.name, slot.explicit, slot.value.withOrigin origin⟩ := by
  induction slots with
  | nil => rfl
  | cons slot slots ih => rw [slotsWithOrigin, ih, List.map_cons]

end maps

/-- Displayed forms do not tell origins. -/
theorem display_withOrigin (origin : Nat) (value : Value) : (value.withOrigin origin).display = value.display := by
  have parts {values : List Value} (ih : ∀ value ∈ values, (value.withOrigin origin).display = value.display) :
      displayAll (allWithOrigin origin values) = displayAll values := by
    rw [displayAll_eq, displayAll_eq, allWithOrigin_eq, List.map_map]
    exact List.map_congr_left ih
  induction value with
  | scalar value => cases value with
    | float x => cases x <;> rfl
    | _ => rfl
  | member enumeration name value => rfl
  | seq kind items ih =>
    cases kind with
    | tuple => exact congrArg displayTuple (parts ih)
    | list => exact congrArg (enclose ['['] [']']) (parts ih)
    | concurrent => exact congrArg (fun inner => named "ConcurrentList" (enclose ['['] [']'] inner)) (parts ih)
  | set kind members ih =>
    cases kind with
    | plain => exact congrArg displaySet (parts ih)
    | frozen =>
      cases members with
      | nil => rfl
      | cons member members => exact congrArg (fun inner => named "frozenset" (displaySet inner)) (parts ih)
    | concurrent => exact congrArg (fun inner => named "ConcurrentSet" (displaySet inner)) (parts ih)
  | dict kind entries ihKeys ihValues =>
    have same : displayEntries (entriesWithOrigin origin entries) = displayEntries entries := by
      rw [displayEntries_eq, displayEntries_eq, entriesWithOrigin_eq, List.map_map]
      refine List.map_congr_left fun entry member => ?_
      rw [Function.comp_apply, ihValues entry member]
    cases kind with
    | plain => exact congrArg (enclose ['\x7b'] ['\x7d']) same
    | concurrent => exact congrArg (fun inner => named "ConcurrentDict" (enclose ['\x7b'] ['\x7d'] inner)) same
  | document type slots ih =>
    have same : displaySlots (slotsWithOrigin origin slots) = displaySlots slots := by
      rw [displaySlots_eq, displaySlots_eq, slotsWithOrigin_eq, List.map_map]
      refine List.map_congr_left fun slot member => ?_
      rw [Function.comp_apply, ih slot member]
    exact congrArg (fun inner => named type (enclose [] [] inner)) same

theorem writable_withOrigin (origin : Nat) (value : Value) : (value.withOrigin origin).writable = value.writable := by
  induction value with
  | scalar value => cases value with
    | float x => cases x <;> rfl
    | _ => rfl
  | member enumeration name value => rfl
  | seq kind items ih =>
    rw [withOrigin, writable, writable, allWritable_eq, allWritable_eq, allWithOrigin_eq, List.map_map]
    exact congrArg (List.all · id) (List.map_congr_left ih)
  | set kind members ih =>
    rw [withOrigin, writable, writable, allWritable_eq, allWritable_eq, allWithOrigin_eq, List.map_map]
    exact congrArg (List.all · id) (List.map_congr_left ih)
  | dict kind entries ihKeys ihValues =>
    rw [withOrigin, writable, writable, entriesWritable_eq, entriesWritable_eq, entriesWithOrigin_eq, List.map_map]
    refine congrArg (List.all · id) (List.map_congr_left fun entry member => ?_)
    rw [Function.comp_apply, ihValues entry member]
  | document type slots ih =>
    rw [withOrigin, writable, writable, slotsWritable_eq, slotsWritable_eq, slotsWithOrigin_eq, List.map_map]
    exact congrArg (List.all · id) (List.map_congr_left ih)

/-- What is sorted by displayed forms may be changed before or after, if the displayed forms stay. -/
theorem sortByDisplay_map {change : Value → Value} (kept : ∀ value, (change value).display = value.display)
    (values : List Value) : sortByDisplay (values.map change) = (sortByDisplay values).map change := by
  have pairs : ((values.map change).map fun value => (value.display, value)) =
      (values.map fun value => (value.display, value)).map (Prod.map id change) := by
    rw [List.map_map, List.map_map]
    exact List.map_congr_left fun value _ => Prod.ext (kept value) rfl
  rw [sortByDisplay, sortByDisplay, pairs, sortBy_map (Prod.map id change) fun _ _ => rfl, List.map_map, List.map_map]
  rfl

theorem toPlain_withOrigin (origin : Nat) (value : Value) :
    (value.withOrigin origin).toPlain = value.toPlain.withOrigin origin := by
  induction value with
  | scalar value => rfl
  | member enumeration name value => rfl
  | seq kind items ih =>
    rw [withOrigin, toPlain, toPlain, withOrigin, plainAll_eq, plainAll_eq, allWithOrigin_eq, allWithOrigin_eq,
      List.map_map, List.map_map]
    exact congrArg _ (List.map_congr_left ih)
  | set kind members ih =>
    rw [withOrigin, toPlain, toPlain, withOrigin, plainAll_eq, plainAll_eq, allWithOrigin_eq, allWithOrigin_eq,
      ← sortByDisplay_map (display_withOrigin origin), List.map_map, List.map_map]
    exact congrArg (fun items => Value.seq .list (sortByDisplay items)) (List.map_congr_left ih)
  | dict kind entries ihKeys ihValues =>
    rw [withOrigin, toPlain, toPlain, withOrigin, plainEntries_eq, plainEntries_eq, entriesWithOrigin_eq,
      entriesWithOrigin_eq, List.map_map, List.map_map]
    exact congrArg _ (List.map_congr_left fun entry member => Prod.ext rfl (ihValues entry member))
  | document type slots ih =>
    rw [withOrigin, toPlain, toPlain, withOrigin, plainSlots_eq, plainSlots_eq, slotsWithOrigin_eq,
      entriesWithOrigin_eq, List.map_map, List.map_map]
    exact congrArg _ (List.map_congr_left fun slot member => Prod.ext rfl (ih slot member))

theorem Spelt.withOrigin_eq {a b : Scalar} (spelt : Spelt a b) (origin : Nat) :
    a.withOrigin origin = b.withOrigin origin := by
  rcases spelt with rfl | ⟨x, y, rfl, rfl, texts⟩
  · rfl
  rcases Binary64.kinds_of_text texts with ⟨_, rfl, rfl⟩ | ⟨_, _, rfl, rfl⟩ | ⟨_, _, _, _, _, _, _, _, rfl, rfl⟩
  · rfl
  · rfl
  · exact congrArg (fun x => Scalar.withOrigin origin (.float x)) (Binary64.eq_of_text_finite texts)

/-- Lists of scalars, at any depth, that are displayed alike differ in the origins in them only. -/
theorem Flat.withOrigin_eq {value other : Value} (flat : Flat value) (flat' : Flat other)
    (same : value.display = other.display) (origin : Nat) : value.withOrigin origin = other.withOrigin origin := by
  have whole {value other : Value} (same : value.display = other.display) :
      value.display ++ [] = other.display ++ [] := congrArg (· ++ []) same
  induction flat generalizing other with
  | scalar a =>
    cases flat' with
    | scalar b =>
      have spelt : Spelt a b := spelt_of_front bounded_nil bounded_nil (whole same)
      exact congrArg Value.scalar (spelt.withOrigin_eq origin)
    | list parts => exact absurd (whole same) (display_scalar_ne_list a _ [] [])
  | @list items parts ih =>
    cases flat' with
    | scalar b => exact absurd (whole same.symm) (display_scalar_ne_list b _ [] [])
    | @list others parts' =>
      have displays := forall₂_of_map_eq (displays_of_list parts parts' (fun item member other member' =>
        (parts item member).shown (parts' other member')) (whole same))
      rw [withOrigin, withOrigin, allWithOrigin_eq, allWithOrigin_eq]
      refine congrArg (Value.seq .list) (map_eq_of_forall₂ (forall₂_of_zip displays.length_eq fun pair beside => ?_))
      obtain ⟨first, second⟩ := List.of_mem_zip beside
      exact ih pair.1 first (parts' pair.2 second) (forall_zip_of_forall₂ displays pair beside)

end Value

end LayeredConfig
