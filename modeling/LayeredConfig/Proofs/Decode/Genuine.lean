import LayeredConfig.Proofs.Decode.Typing
import LayeredConfig.Proofs.Schema.Genuine

namespace LayeredConfig

theorem Value.apart_nil : Apart [] :=
  ⟨.nil, nofun⟩

theorem Value.Apart.insert {members : List Value} (apart : Apart members)
    (frozen : value.hashable = true) : Apart (Members.insert same value members) where
  differ := Members.pairwise_insert apart.differ
  frozen := by
    intro member inserted
    rcases Members.mem_insert inserted with rfl | old
    · exact frozen
    · exact apart.frozen member old

namespace Decode

theorem readMembers_apart {read : Reader} {items : List Tree} {members values : List Value}
    (apart : Value.Apart members)
    (built : readMembers read path index members items = .built values findings) :
    Value.Apart values := by
  induction items generalizing index members findings with
  | nil => exact (Walk.pure_eq_built_iff.mp built).1 ▸ apart
  | cons item items ih =>
    rw [readMembers_cons, Walk.bind_eq_built_iff] at built
    obtain ⟨value, _, _, -, rest, -⟩ := built
    split at rest
    · next hashable => exact ih (apart.insert hashable) rest
    · cases rest

theorem readEntries_apart {readKey readValue : Reader} {entries : List (Scalar × Tree)}
    {taken values : List (Value × Value)} (apart : Value.Apart (taken.map (·.1)))
    (built : readEntries readKey readValue path taken entries = .built values findings) :
    Value.Apart (values.map (·.1)) := by
  induction entries generalizing taken findings with
  | nil => exact (Walk.pure_eq_built_iff.mp built).1 ▸ apart
  | cons entry entries ih =>
    obtain ⟨key, node⟩ := entry
    simp only [readEntries_cons, Walk.bind_eq_built_iff] at built
    obtain ⟨newKey, _, _, -, ⟨_, _, _, -, ⟨value, _, _, -, rest, -⟩, -⟩, -⟩ := built
    split at rest
    · next hashable => exact ih (Entries.keys_put .. ▸ apart.insert hashable) rest
    · cases rest

theorem genuine_list (genuine : Makes shape (Genuine shape)) :
    Makes (.list shape) (Genuine (.list shape)) := by
  intro node path value findings present built whole
  rw [reader, orNull_of_present present] at built
  split at built
  · obtain ⟨values, items, rfl⟩ := Walk.map_eq_built_iff.mp built
    exact .list (readItems_forall genuine.yields items whole)
  · cases built

theorem genuine_set (genuine : Makes shape (Genuine shape)) :
    Makes (.set shape) (Genuine (.set shape)) := by
  intro node path value findings present built whole
  rw [reader, orNull_of_present present] at built
  split at built
  · obtain ⟨values, members, rfl⟩ := Walk.map_eq_built_iff.mp built
    exact .set (readMembers_forall genuine.yields (by simp) members whole)
      (readMembers_apart Value.apart_nil members)
  · cases built

theorem genuine_map (genuineKey : Makes key (Genuine key)) (genuine : Makes shape (Genuine shape)) :
    Makes (.map key shape) (Genuine (.map key shape)) := by
  intro node path value findings present built whole
  rw [reader, orNull_of_present present] at built
  split at built
  · obtain ⟨pairs, entries, rfl⟩ := Walk.map_eq_built_iff.mp built
    have sound := readEntries_forall genuineKey.yields genuine.yields (by simp) entries whole
    have apart := readEntries_apart (by exact Value.apart_nil) entries
    exact .map (fun entry member => (sound entry member).1)
      (fun entry member => (sound entry member).2) apart
  · cases built

theorem genuine_document {settings : List (Setting Shape)}
    (fresh : Genuine (.document name settings) (.document name (Schema.newSlots settings)))
    (genuine : ∀ setting ∈ settings, Makes setting.shape (Genuine setting.shape)) :
    Makes (.document name settings) (Genuine (.document name settings)) := by
  intro node path value findings present built whole
  obtain ⟨_, _, slots, -, rfl, slotsBuilt⟩ := (reader_document_eq_built_iff present).mp built
  cases fresh with
  | document names required parts =>
    have good := readSettings_forall
      (fun setting member _ _ _ _ ofSetting whole =>
        (genuine setting member).setting (fun _ => Genuine.present) ofSetting whole)
      names (fun pair beside => ⟨required pair beside, parts pair beside⟩) slotsBuilt whole
    exact .document ((names_readSettings slotsBuilt).trans names) (fun pair beside => (good pair beside).1)
      fun pair beside => (good pair beside).2

/-- What a walk without nullified settings builds under a documented shape is genuine. -/
theorem genuine_of_documented (documented : Shape.Documented shape) : Makes shape (Genuine shape) := by
  induction documented with
  | str =>
    refine makes_scalar (by rw [reader]) fun built => ?_
    cases readStr_conforms built
    exact .str _
  | int =>
    refine makes_scalar (by rw [reader]) fun built => ?_
    cases readInt_conforms built
    exact .int _
  | float =>
    refine makes_scalar (by rw [reader]) fun built => ?_
    cases readFloat_conforms built
    exact .float _
  | bool =>
    refine makes_scalar (by rw [reader]) fun built => ?_
    cases readBool_conforms built
    exact .bool _
  | enumeration =>
    refine makes_scalar (by rw [reader]) fun built => ?_
    obtain ⟨name, own, canonical, rfl⟩ := exists_of_readMember built
    exact .member canonical
  | list element ih => exact genuine_list ih
  | set element ih => exact genuine_set ih
  | map key unlisted value ihKey ihValue => exact genuine_map ihKey ihValue
  | document names shapes defaults ih =>
    exact genuine_document (Shape.Documented.newSlots (.document names shapes defaults)) ih

theorem decode_genuine {schema : Schema} {result : Result} (documented : schema.shape.Documented)
    (decoded : decode schema source bytes = .ok result) (passed : result.report = .empty) :
    Genuine schema.shape result.document :=
  (genuine_of_documented documented).decode documented.newSlots decoded passed

end Decode

end LayeredConfig
