import LayeredConfig.Proofs.Schema.Slots

namespace LayeredConfig

namespace Slot

variable {α : Type} {base middle upper : List (Slot α)}

theorem overlay_self (slots : List (Slot α)) : overlay slots slots = slots := by
  induction slots with
  | nil => rfl
  | cons slot slots ih =>
    obtain ⟨name, explicit, value⟩ := slot
    rw [overlay, ih]
    cases explicit <;> rfl

theorem overlay_assoc (lower : base.map (·.name) = middle.map (·.name))
    (higher : middle.map (·.name) = upper.map (·.name)) :
    overlay (overlay base middle) upper = overlay base (overlay middle upper) := by
  induction base generalizing middle upper with
  | nil =>
    cases middle with
    | nil => cases upper <;> rfl
    | cons => simp at lower
  | cons below base ih =>
    cases middle with
    | nil => simp at lower
    | cons between middle =>
      cases upper with
      | nil => simp at higher
      | cons above upper =>
        have rest := ih (List.cons.inj lower).2 (List.cons.inj higher).2
        simp only [overlay]
        rw [rest]
        -- the mark above decides, and below it the one between
        cases above.explicit <;> cases inner : between.explicit <;> simp [inner]

theorem mem_explicitNames {name : Str} {slots : List (Slot α)} :
    name ∈ explicitNames slots ↔ ∃ slot ∈ slots, slot.explicit = true ∧ slot.name = name := by
  simp [explicitNames, and_assoc]

/-- What is explicit in one of two documents is so in their overlay, and nothing else. -/
theorem mem_explicitNames_overlay (aligned : base.map (·.name) = upper.map (·.name)) {name : Str} :
    name ∈ explicitNames (overlay base upper) ↔
      name ∈ explicitNames base ∨ name ∈ explicitNames upper := by
  simp only [mem_explicitNames]
  induction base generalizing upper with
  | nil =>
    cases upper with
    | nil => simp [overlay]
    | cons => simp at aligned
  | cons below base ih =>
    cases upper with
    | nil => simp at aligned
    | cons above upper =>
      obtain ⟨title, rest⟩ : below.name = above.name ∧ base.map (·.name) = upper.map (·.name) := by
        simpa using aligned
      rw [overlay, List.exists_mem_cons_iff, ih rest, List.exists_mem_cons_iff, List.exists_mem_cons_iff]
      cases marked : above.explicit with
      | true =>
        simp only [if_true, true_and, title]
        constructor
        · rintro (here | old | new)
          · exact .inr (.inl here)
          · exact .inl (.inr old)
          · exact .inr (.inr new)
        · rintro ((⟨-, here⟩ | old) | here | new)
          · exact .inl here
          · exact .inr (.inl old)
          · exact .inl here
          · exact .inr (.inr new)
      | false => simp [or_assoc]

end Slot

theorem Value.overlay?_document (type : String) (below above : List (Slot Value)) :
    (Value.document type below).overlay? (.document type above) =
      .ok (.document type (Slot.overlay below above)) := by
  simp [Value.overlay?]

end LayeredConfig
