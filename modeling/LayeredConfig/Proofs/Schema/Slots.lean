import LayeredConfig.Overlay
import Mathlib.Data.List.Forall2
import Mathlib.Data.List.Nodup
import Mathlib.Data.Option.Defs

/-!
Slots by their names. Assignments and overlays change the slot with a name and no other one, and what
stands beside a setting afterwards stood beside it before or is the new value.
-/

namespace LayeredConfig

/-- Induction on shapes; a document needs the shapes of its settings. -/
@[elab_as_elim, induction_eliminator]
theorem Shape.induction {motive : Shape → Prop} (str : motive .str) (int : motive .int)
    (float : motive .float) (bool : motive .bool) (native : ∀ type, motive (.native type))
    (enumeration : ∀ type, motive (.enumeration type))
    (document : ∀ name settings, (∀ setting ∈ settings, motive setting.shape) →
      motive (.document name settings))
    (list : ∀ element, motive element → motive (.list element))
    (set : ∀ element, motive element → motive (.set element))
    (map : ∀ key value, motive key → motive value → motive (.map key value)) (shape : Shape) :
    motive shape :=
  @Shape.rec motive (fun settings => ∀ setting ∈ settings, motive setting.shape)
    (fun setting => motive setting.shape) str int float bool native enumeration document list set map
    (fun _ absent => nomatch absent)
    (fun _ _ head tail _ member => (List.mem_cons.mp member).elim (· ▸ head) (tail _))
    (fun _ _ _ shape => shape) shape

namespace Slot

variable {α : Type}

theorem exists_find? {name : Str} {slots : List (Slot α)} (member : name ∈ slots.map (·.name)) :
    ∃ slot, find? name slots = some slot := by
  obtain ⟨slot, here, same⟩ := List.mem_map.mp member
  exact Option.isSome_iff_exists.mp (List.find?_isSome.mpr ⟨slot, here, by simpa using same⟩)

theorem find?_assign_self (name : Str) (value : α) (slots : List (Slot α)) :
    find? name (assign name value slots) = (find? name slots).map fun _ => ⟨name, true, value⟩ := by
  induction slots with
  | nil => rfl
  | cons slot slots ih =>
    by_cases same : slot.name = name
    · subst same
      simp [assign, find?]
    · simpa [assign, find?, same] using ih

theorem find?_assign_other {name other : Str} (different : other ≠ name) (value : α)
    (slots : List (Slot α)) : find? other (assign name value slots) = find? other slots := by
  induction slots with
  | nil => rfl
  | cons slot slots ih =>
    by_cases same : slot.name = name
    · subst same
      simp [assign, find?, different.symm]
    · by_cases wanted : slot.name = other
      · subst wanted
        simp [assign, find?, same]
      · simpa [assign, find?, same, wanted] using ih

/-- An explicit slot above hides the slot below. -/
theorem find?_overlay {base upper : List (Slot α)}
    (aligned : base.map (·.name) = upper.map (·.name)) (name : Str) :
    find? name (overlay base upper) =
      ((find? name upper).filter (·.explicit)).or (find? name base) := by
  induction base generalizing upper with
  | nil =>
    cases upper with
    | nil => rfl
    | cons => simp at aligned
  | cons below base ih =>
    cases upper with
    | nil => simp at aligned
    | cons above upper =>
      obtain ⟨same, rest⟩ : below.name = above.name ∧ base.map (·.name) = upper.map (·.name) := by
        simpa using aligned
      obtain ⟨title, explicit, value⟩ := above
      by_cases wanted : below.name = name
      · cases explicit <;> simp_all [overlay, find?, Option.filter]
      · have unwanted : title ≠ name := fun equal => wanted (same.trans equal)
        cases explicit <;> simpa [overlay, find?, wanted, unwanted] using ih rest

/-- Whether the slot above is explicit decides which of the two is in the overlay. -/
theorem find?_overlay_cases {base upper : List (Slot α)}
    (aligned : base.map (·.name) = upper.map (·.name)) (name : Str) :
    (∀ slot, find? name upper = some slot → slot.explicit = true →
      find? name (overlay base upper) = some slot) ∧
    ((∀ slot, find? name upper = some slot → slot.explicit = false) →
      find? name (overlay base upper) = find? name base) := by
  rw [find?_overlay aligned]
  constructor
  · intro slot found explicit
    rw [found, Option.filter_some, if_pos explicit, Option.some_or]
  · intro implicit
    cases found : find? name upper with
    | none => rfl
    | some slot => rw [Option.filter_some, implicit slot found, if_neg Bool.false_ne_true, Option.none_or]

theorem eq_of_find? {slots others : List (Slot α)} (names : slots.map (·.name) = others.map (·.name))
    (distinct : (slots.map (·.name)).Nodup) (same : ∀ name, find? name slots = find? name others) :
    slots = others := by
  induction slots generalizing others with
  | nil => simpa using names.symm
  | cons slot slots ih =>
    cases others with
    | nil => simp at names
    | cons other others =>
      obtain ⟨title, rest⟩ : slot.name = other.name ∧ slots.map (·.name) = others.map (·.name) := by
        simpa using names
      obtain ⟨fresh, distinct⟩ := List.nodup_cons.mp distinct
      have equal : slot = other := by simpa [find?, title] using same other.name
      subst equal
      congr 1
      refine ih rest distinct fun name => ?_
      by_cases wanted : slot.name = name
      · subst wanted
        have absent (slots : List (Slot α)) (missing : slot.name ∉ slots.map (·.name)) :
            find? slot.name slots = none :=
          List.find?_eq_none.mpr fun other member equal =>
            missing (List.mem_map.mpr ⟨other, member, beq_iff_eq.mp equal⟩)
        rw [absent slots fresh, absent others (rest ▸ fresh)]
      · simpa [find?, wanted] using same name

theorem find?_of_mem {slots : List (Slot α)} {slot : Slot α} (distinct : (slots.map (·.name)).Nodup)
    (member : slot ∈ slots) : find? slot.name slots = some slot := by
  obtain ⟨found, here⟩ := exists_find? (List.mem_map_of_mem member)
  have title : found.name = slot.name := by simpa using List.find?_some here
  rw [here, List.inj_on_of_nodup_map distinct (List.mem_of_find?_eq_some here) member title]

theorem assign_assign (name : Str) (first last : α) (slots : List (Slot α)) :
    assign name last (assign name first slots) = assign name last slots := by
  induction slots with
  | nil => rfl
  | cons slot slots ih =>
    by_cases same : slot.name = name
    · simp [assign, same]
    · simp [assign, same, ih]

theorem assign_comm {name other : Str} (different : name ≠ other) (value value' : α)
    (slots : List (Slot α)) :
    assign name value (assign other value' slots) = assign other value' (assign name value slots) := by
  induction slots with
  | nil => rfl
  | cons slot slots ih =>
    by_cases first : slot.name = name
    · simp [assign, first, different]
    · by_cases second : slot.name = other
      · simp [assign, second, different.symm]
      · simp [assign, first, second, ih]

/-- An assignment to the slots above is one to the result, whatever is below. -/
theorem overlay_assign {base upper : List (Slot α)}
    (aligned : base.map (·.name) = upper.map (·.name)) (name : Str) (value : α) :
    overlay base (assign name value upper) = assign name value (overlay base upper) := by
  induction base generalizing upper with
  | nil =>
    cases upper with
    | nil => rfl
    | cons => simp at aligned
  | cons below base ih =>
    cases upper with
    | nil => simp at aligned
    | cons above upper =>
      obtain ⟨title, explicit, hidden⟩ := above
      obtain ⟨rfl, rest⟩ : below.name = title ∧ base.map (·.name) = upper.map (·.name) := by
        simpa using aligned
      by_cases same : below.name = name
      · cases explicit <;> simp [assign, overlay, same]
      · cases explicit <;> simp [assign, overlay, same, ih rest]

/-- Slots of which none is explicit hide nothing. -/
theorem overlay_of_implicit (base : List (Slot α)) {upper : List (Slot α)}
    (implicit : ∀ slot ∈ upper, slot.explicit = false) : overlay base upper = base := by
  induction base generalizing upper with
  | nil => cases upper <;> rfl
  | cons below base ih =>
    cases upper with
    | nil => rfl
    | cons above upper =>
      obtain ⟨here, others⟩ := List.forall_mem_cons.mp implicit
      rw [overlay, here, if_neg Bool.false_ne_true, ih others]

theorem overlay_newSlots (base : List (Slot Value)) (settings : List (Setting Shape)) :
    overlay base (Schema.newSlots settings) = base :=
  overlay_of_implicit base (List.forall_mem_map.mpr fun _ _ => rfl)

section give

/-- Gives a slot its value, if there is one to give. -/
def give (given : Option (Str × α)) (slots : List (Slot α)) : List (Slot α) :=
  match given with
  | none => slots
  | some (name, value) => assign name value slots

/-- Gives slots their values, one after the other. -/
def giveAll (given : List (Option (Str × α))) (slots : List (Slot α)) : List (Slot α) :=
  given.foldl (fun slots value => give value slots) slots

theorem names_give (given : Option (Str × α)) (slots : List (Slot α)) :
    (give given slots).map (·.name) = slots.map (·.name) := by
  cases given with
  | none => rfl
  | some pair => exact names_assign pair.1 pair.2 slots

theorem give_comm {first second : Option (Str × α)}
    (apart : ∀ a ∈ first, ∀ b ∈ second, a.1 ≠ b.1) (slots : List (Slot α)) :
    give first (give second slots) = give second (give first slots) := by
  cases first with
  | none => rfl
  | some a =>
    cases second with
    | none => rfl
    | some b => exact assign_comm (apart a rfl b rfl) a.2 b.2 slots

/-- A change that does not interfere with any of some assignments may come before or after them. -/
theorem giveAll_comm (change : List (Slot α) → List (Slot α)) {names : List Str}
    {given : List (Option (Str × α))}
    (commutes : ∀ value ∈ given, ∀ slots, slots.map (·.name) = names →
      change (give value slots) = give value (change slots))
    {slots : List (Slot α)} (aligned : slots.map (·.name) = names) :
    change (giveAll given slots) = giveAll given (change slots) := by
  induction given generalizing slots with
  | nil => rfl
  | cons value given ih =>
    obtain ⟨here, there⟩ := List.forall_mem_cons.mp commutes
    simp only [giveAll, List.foldl_cons] at ih ⊢
    rw [ih there ((names_give value slots).trans aligned), here slots aligned]

theorem giveAll_cons {given : List (Option (Str × α))} {slot : Slot α}
    (absent : ∀ value ∈ given, ∀ pair ∈ value, pair.1 ≠ slot.name) (slots : List (Slot α)) :
    giveAll given (slot :: slots) = slot :: giveAll given slots := by
  refine (giveAll_comm (slot :: ·) (fun value member slots _ => ?_) rfl).symm
  cases value with
  | none => rfl
  | some pair =>
    have other : (slot.name == pair.1) = false := beq_eq_false_iff_ne.mpr (absent _ member pair rfl).symm
    simp [give, assign, other]

/-- The order of assignments does not matter if no two of them are to one slot. -/
theorem giveAll_eq_of_perm {given given' : List (Option (Str × α))} (perm : given.Perm given')
    (apart : ∀ first ∈ given, ∀ second ∈ given, first ≠ second →
      ∀ a ∈ first, ∀ b ∈ second, a.1 ≠ b.1) (slots : List (Slot α)) :
    giveAll given slots = giveAll given' slots := by
  refine perm.foldl_eq' (fun first listed second listed' slots => ?_) slots
  by_cases same : first = second
  · rw [same]
  · exact (give_comm (apart first listed second listed' same) slots).symm

theorem mem_assign {name : Str} {value : α} {slots : List (Slot α)} {slot : Slot α}
    (member : slot ∈ assign name value slots) : slot ∈ slots ∨ slot.value = value := by
  induction slots with
  | nil => exact .inl member
  | cons first slots ih =>
    rw [assign] at member
    split at member
    · rcases List.mem_cons.mp member with rfl | later
      · exact .inr rfl
      · exact .inl (List.mem_cons_of_mem _ later)
    · rcases List.mem_cons.mp member with rfl | later
      · exact .inl List.mem_cons_self
      · exact (ih later).imp_left (List.mem_cons_of_mem _)

/-- What is in a slot after some assignments was there before or is one of the new values. -/
theorem mem_store {name : Str} {value : α} {slots : List (Slot α)} {slot : Slot α}
    (member : slot ∈ store name value slots) :
    (∃ old ∈ slots, slot.value = old.value) ∨ slot.value = value := by
  induction slots with
  | nil => cases member
  | cons first slots ih =>
    rw [store] at member
    split at member
    · rcases List.mem_cons.mp member with rfl | later
      · exact .inr rfl
      · exact .inl ⟨slot, List.mem_cons_of_mem _ later, rfl⟩
    · rcases List.mem_cons.mp member with rfl | later
      · exact .inl ⟨slot, List.mem_cons_self, rfl⟩
      · rcases ih later with ⟨old, here, same⟩ | same
        · exact .inl ⟨old, List.mem_cons_of_mem _ here, same⟩
        · exact .inr same

theorem mem_giveAll {given : List (Option (Str × α))} {slots : List (Slot α)} {slot : Slot α}
    (member : slot ∈ giveAll given slots) :
    slot ∈ slots ∨ ∃ pair, some pair ∈ given ∧ slot.value = pair.2 := by
  induction given generalizing slots with
  | nil => exact .inl member
  | cons first given ih =>
    rcases ih member with before | ⟨pair, listed, same⟩
    · cases first with
      | none => exact .inl before
      | some pair =>
        exact (mem_assign before).imp_right fun same => ⟨pair, List.mem_cons_self, same⟩
    · exact .inr ⟨pair, List.mem_cons_of_mem _ listed, same⟩

/-- Two slots with one name and one mark, and with related values. -/
structure Matches (related : α → α → Prop) (slot slot' : Slot α) : Prop where
  name : slot.name = slot'.name
  explicit : slot.explicit = slot'.explicit
  value : related slot.value slot'.value

variable {related : α → α → Prop}

theorem forall₂_assign {slots slots' : List (Slot α)} {value value' : α} (name : Str)
    (similar : List.Forall₂ (Matches related) slots slots') (here : related value value') :
    List.Forall₂ (Matches related) (assign name value slots) (assign name value' slots') := by
  induction similar with
  | nil => exact .nil
  | @cons slot slot' _ _ first others ih =>
    rw [assign, assign, first.name]
    split
    · exact .cons ⟨rfl, rfl, here⟩ others
    · exact .cons first ih

/-- Related values that are given to slots that match leave slots that match. -/
theorem forall₂_giveAll {given given' : List (Option (Str × α))}
    (each : List.Forall₂ (Option.Rel fun a b => a.1 = b.1 ∧ related a.2 b.2) given given')
    {slots slots' : List (Slot α)} (similar : List.Forall₂ (Matches related) slots slots') :
    List.Forall₂ (Matches related) (giveAll given slots) (giveAll given' slots') := by
  induction each generalizing slots slots' with
  | nil => exact similar
  | cons first _ ih =>
    refine ih ?_
    cases first with
    | none => exact similar
    | @some a b both =>
      obtain ⟨name, value⟩ := a
      obtain ⟨rfl, here⟩ := both
      exact forall₂_assign _ similar here

end give

theorem explicitNames_subset (slots : List (Slot α)) :
    ∀ name ∈ explicitNames slots, name ∈ slots.map (·.name) := by
  intro name explicit
  obtain ⟨slot, kept, rfl⟩ := List.mem_map.mp explicit
  exact List.mem_map_of_mem (List.mem_filter.mp kept).1

section beside

variable {β : Type} {settings : List (Setting β)} {setting : Setting β} {slot : Slot α}

theorem exists_mem_zip {slots : List (Slot α)}
    (aligned : slots.map (·.name) = settings.map (·.name)) (member : slot ∈ slots) :
    ∃ setting, (setting, slot) ∈ settings.zip slots := by
  induction slots generalizing settings with
  | nil => cases member
  | cons first slots ih =>
    cases settings with
    | nil => simp at aligned
    | cons head settings =>
      obtain ⟨-, rest⟩ : first.name = head.name ∧ slots.map (·.name) = settings.map (·.name) := by
        simpa using aligned
      rcases List.mem_cons.mp member with rfl | later
      · exact ⟨head, List.mem_cons_self⟩
      · obtain ⟨setting, beside⟩ := ih rest later
        exact ⟨setting, List.mem_cons_of_mem _ beside⟩

theorem name_of_mem_zip {slots : List (Slot α)}
    (aligned : slots.map (·.name) = settings.map (·.name))
    (beside : (setting, slot) ∈ settings.zip slots) : slot.name = setting.name := by
  induction slots generalizing settings with
  | nil => simp at beside
  | cons first slots ih =>
    cases settings with
    | nil => simp at beside
    | cons head settings =>
      obtain ⟨title, rest⟩ : first.name = head.name ∧ slots.map (·.name) = settings.map (·.name) := by
        simpa using aligned
      rcases List.mem_cons.mp beside with here | later
      · obtain ⟨rfl, rfl⟩ := Prod.mk.inj here
        exact title
      · exact ih rest later

/-- What is found under one name in settings and in slots stands side by side. -/
theorem mem_zip_of_find? {name : Str} {slots : List (Slot α)}
    (aligned : slots.map (·.name) = settings.map (·.name))
    (known : settings.find? (·.name == name) = some setting) (found : find? name slots = some slot) :
    (setting, slot) ∈ settings.zip slots := by
  induction slots generalizing settings with
  | nil => cases found
  | cons first slots ih =>
    cases settings with
    | nil => cases known
    | cons head settings =>
      obtain ⟨same, rest⟩ : first.name = head.name ∧ slots.map (·.name) = settings.map (·.name) := by
        simpa using aligned
      by_cases wanted : head.name = name
      · simp_all [find?]
      · have later := ih rest (by simpa [wanted] using known)
          (by simpa [find?, same, wanted] using found)
        exact List.mem_cons_of_mem _ later

theorem of_mem_zip_newSlots {settings : List (Setting Shape)} {setting : Setting Shape}
    {slot : Slot Value} (beside : (setting, slot) ∈ settings.zip (Schema.newSlots settings)) :
    setting ∈ settings ∧ slot.value = setting.default := by
  induction settings with
  | nil => cases beside
  | cons head settings ih =>
    rw [Schema.newSlots, List.map_cons, List.zip_cons_cons, List.mem_cons] at beside
    rcases beside with here | later
    · obtain ⟨rfl, rfl⟩ := Prod.mk.inj here
      exact ⟨List.mem_cons_self, rfl⟩
    · obtain ⟨member, same⟩ := ih later
      exact ⟨List.mem_cons_of_mem _ member, same⟩

theorem forall_zip_newSlots {settings : List (Setting Shape)} (good : Setting Shape → Value → Prop)
    (defaults : ∀ setting ∈ settings, good setting setting.default) :
    ∀ pair ∈ settings.zip (Schema.newSlots settings), good pair.1 pair.2.value := by
  rintro ⟨setting, slot⟩ beside
  obtain ⟨member, same⟩ := of_mem_zip_newSlots beside
  exact same ▸ defaults setting member

/-- What stands beside a setting after an assignment stood there before, or is the new value. -/
theorem of_mem_zip_assign {name : Str} {value : α} {slots : List (Slot α)} {known : Setting β}
    (aligned : slots.map (·.name) = settings.map (·.name))
    (found : settings.find? (·.name == name) = some known)
    (beside : (setting, slot) ∈ settings.zip (assign name value slots)) :
    (setting, slot) ∈ settings.zip slots ∨ (setting = known ∧ slot.value = value) := by
  induction slots generalizing settings with
  | nil => simp [assign] at beside
  | cons first slots ih =>
    cases settings with
    | nil => simp at beside
    | cons head settings =>
      obtain ⟨title, rest⟩ : first.name = head.name ∧ slots.map (·.name) = settings.map (·.name) := by
        simpa using aligned
      by_cases same : head.name = name
      · obtain rfl : head = known := by simpa [same] using found
        simp only [assign, title, same, beq_self_eq_true, if_true, List.zip_cons_cons,
          List.mem_cons] at beside
        rcases beside with here | later
        · obtain ⟨rfl, rfl⟩ := Prod.mk.inj here
          exact .inr ⟨rfl, rfl⟩
        · exact .inl (List.mem_cons_of_mem _ later)
      · simp only [assign, title, beq_eq_false_iff_ne.mpr same, Bool.false_eq_true, if_false,
          List.zip_cons_cons, List.mem_cons] at beside
        rcases beside with here | later
        · exact .inl (by rw [here]; exact List.mem_cons_self)
        · have found : settings.find? (·.name == name) = some known := by simpa [same] using found
          exact (ih rest found later).imp (List.mem_cons_of_mem _) id

/-- What stands beside a setting after an overlay stood beside it below or above. -/
theorem of_mem_zip_overlay {base upper : List (Slot α)}
    (beside : (setting, slot) ∈ settings.zip (overlay base upper)) :
    ∃ origin : Slot α, origin.value = slot.value ∧
      ((setting, origin) ∈ settings.zip base ∨ (setting, origin) ∈ settings.zip upper) := by
  induction base generalizing upper settings with
  | nil => cases upper <;> simp [overlay] at beside
  | cons below base ih =>
    cases upper with
    | nil => exact ⟨slot, rfl, .inl beside⟩
    | cons above upper =>
      cases settings with
      | nil => simp at beside
      | cons head settings =>
        rw [overlay, List.zip_cons_cons, List.mem_cons] at beside
        rcases beside with here | later
        · obtain ⟨rfl, rfl⟩ := Prod.mk.inj here
          split
          · exact ⟨above, rfl, .inr List.mem_cons_self⟩
          · exact ⟨below, rfl, .inl List.mem_cons_self⟩
        · obtain ⟨origin, same, below | above⟩ := ih later
          · exact ⟨origin, same, .inl (List.mem_cons_of_mem _ below)⟩
          · exact ⟨origin, same, .inr (List.mem_cons_of_mem _ above)⟩

end beside

end Slot

end LayeredConfig
