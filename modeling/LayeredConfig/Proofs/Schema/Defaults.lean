import LayeredConfig.Proofs.Schema.Worded
import LayeredConfig.Proofs.Value.Fingerprints
import LayeredConfig.Proofs.Value.Likeness

namespace LayeredConfig

namespace Value

/-- A part of a value that equals itself, and that is in the way of no fingerprint. -/
structure Settled (part : Value) : Prop where
  named : part.NamesParts
  definite : part.isNotANumber = false
  free : ¬ part.Obstructs

instance : DecidablePred NamesParts
  | .set _ members =>
    inferInstanceAs (Decidable (∀ member ∈ members, member.isNull = true ∨ member.isTextKey = true))
  | .dict _ entries =>
    inferInstanceAs (Decidable (∀ entry ∈ entries, entry.1.isNull = true ∨ entry.1.isTextKey = true))
  | .scalar _ => .isTrue trivial
  | .member _ _ _ => .isTrue trivial
  | .seq _ _ => .isTrue trivial
  | .document _ _ => .isTrue trivial

instance : DecidablePred Unwritten
  | .scalar value => inferInstanceAs (Decidable (value.writable = false))
  | .dict _ entries =>
    inferInstanceAs (Decidable (2 ≤ entries.length ∧ ∃ entry ∈ entries, entry.1.isNull = true))
  | .member _ _ _ => .isFalse id
  | .seq _ _ => .isFalse id
  | .set _ _ => .isFalse id
  | .document _ _ => .isFalse id

instance : DecidablePred Obstructs := fun value =>
  inferInstanceAs (Decidable (value.Unwritten ∨ value.isTorn = true))

instance : DecidablePred Settled := fun part =>
  decidable_of_iff (part.NamesParts ∧ part.isNotANumber = false ∧ ¬ part.Obstructs)
    ⟨fun all => ⟨all.1, all.2.1, all.2.2⟩, fun all => ⟨all.named, all.definite, all.free⟩⟩

/-- What is written and whole is in the way of no fingerprint. -/
theorem not_obstructs {value : Value} (written : ¬ value.Unwritten) (whole : value.isTorn = false) :
    ¬ value.Obstructs :=
  not_or.mpr ⟨written, Bool.not_eq_true _ ▸ whole⟩

theorem settled_of_named {value : Value} (named : value.isNull = true ∨ value.isTextKey = true)
    (whole : value.isTorn = false) : value.Settled := by
  rcases eq_of_named named with rfl | ⟨text, rfl⟩
  · exact ⟨trivial, rfl, not_obstructs Bool.noConfusion whole⟩
  · exact ⟨trivial, rfl, not_obstructs Bool.noConfusion whole⟩

theorem settled_seq (kind : SeqKind) (items : List Value) : (seq kind items).Settled :=
  ⟨trivial, rfl, not_obstructs id rfl⟩

theorem settled_document (type : String) (slots : List (Slot Value)) : (document type slots).Settled :=
  ⟨trivial, rfl, not_obstructs id rfl⟩

end Value

mutual

/-- Whether all that occurs in the defaults of a shape, at all depths, passes a test. -/
def Shape.defaultsPass (test : Value → Bool) : Shape → Bool
  | .list element => element.defaultsPass test
  | .set element => element.defaultsPass test
  | .map key value => key.defaultsPass test && value.defaultsPass test
  | .document _ settings => settingsPass test settings
  | _ => true

def settingsPass (test : Value → Bool) : List (Setting Shape) → Bool
  | [] => true
  | ⟨_, shape, default⟩ :: settings =>
    shape.defaultsPass test && default.everywhere test && settingsPass test settings

end

theorem settingsPass_iff {test : Value → Bool} {settings : List (Setting Shape)} :
    settingsPass test settings = true ↔ ∀ setting ∈ settings,
      setting.shape.defaultsPass test = true ∧ setting.default.everywhere test = true := by
  induction settings with
  | nil => simp [settingsPass]
  | cons setting settings ih =>
    simp only [settingsPass, Bool.and_eq_true, ih, List.forall_mem_cons]

/-- All that occurs in the defaults of a shape equals itself and is in the way of no fingerprint. -/
def Shape.Settled (shape : Shape) : Prop :=
  shape.defaultsPass (fun part => decide part.Settled) = true

theorem Shape.settled_document {settings : List (Setting Shape)} :
    Shape.Settled (.document name settings) ↔ ∀ setting ∈ settings, setting.shape.Settled ∧
      ∀ part, Occurs part setting.default → part.Settled := by
  simp only [Settled, Shape.defaultsPass, settingsPass_iff, Value.everywhere_iff, decide_eq_true_eq]

theorem NodeSchema.settled_nodeConfig : nodeConfig.shape.Settled := by
  unfold Shape.Settled
  decide +kernel

end LayeredConfig
