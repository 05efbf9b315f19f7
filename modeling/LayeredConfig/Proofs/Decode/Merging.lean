import LayeredConfig.NodeSchema
import LayeredConfig.Proofs.Decode.Steps
import LayeredConfig.Proofs.Decode.Typing
import LayeredConfig.Proofs.Results
import LayeredConfig.Proofs.Value.Trees

/-!
Sources merged before they are read, against documents overlaid after it. An entry that takes the place
of one with its key comes to the same as if it had been read last, and so does an overlay.
-/

namespace LayeredConfig

open Yaml.Build (sameKey)

theorem Yaml.Build.sameKey_str {first second : Str} :
    sameKey (.str first) (.str second) = true ↔ first = second := by
  simp [sameKey, Scalar.key]

theorem Titled.put {entries : List (Scalar × Tree)} (titled : Titled entries) (name : Str)
    (node : Tree) : Titled (Entries.put sameKey (.str name) node entries) where
  texts := by
    intro entry member
    rcases (Entries.mem_put member).1 with same | ⟨old, listed, same⟩
    · exact ⟨name, same⟩
    · exact same ▸ titled.texts old listed
  distinct := by
    rw [Entries.keys_put, Members.insert]
    split
    · exact titled.distinct
    · next absent =>
      have fresh : .str name ∉ entries.map (·.1) := fun listed =>
        absent (List.any_eq_true.mpr ⟨.str name, listed, Yaml.Build.sameKey_str.mpr rfl⟩)
      simpa using titled.distinct.concat fresh

namespace Decode

section entries

variable {settings : List (Setting Shape)} {path : Str} {given last : Option (Str × Value)}

/-- Of two entries with one key the last one counts. -/
theorem give_readEntry {key : Scalar} {old node : Tree}
    (before : readEntry settings path (key, old) = .built given findings)
    (after : readEntry settings path (key, node) = .built last noted) (slots : List (Slot Value)) :
    Slot.give last (Slot.give given slots) = Slot.give last slots := by
  obtain ⟨-, before⟩ := readEntry_eq_built_iff.mp before
  obtain ⟨-, after⟩ := readEntry_eq_built_iff.mp after
  split at before
  · obtain ⟨rfl, -⟩ := before
    rfl
  · next known =>
    rw [known] at after
    obtain ⟨value, rfl, -⟩ := before
    obtain ⟨value', rfl, -⟩ := after
    exact Slot.assign_assign key.text value value' slots

/-- An entry that is put among others comes to the same as one that is read after them. -/
theorem mapM_readEntry_put {entries : List (Scalar × Tree)} (titled : Titled entries)
    (before : entries.mapM (readEntry settings path) = .built all findings)
    (own : readEntry settings path (.str name, node) = .built last noted) :
    ∃ now listed, (Entries.put sameKey (.str name) node entries).mapM (readEntry settings path) =
        .built now listed ∧
      ∀ slots, Slot.giveAll now slots = Slot.give last (Slot.giveAll all slots) := by
  induction entries generalizing all findings with
  | nil =>
    obtain ⟨rfl, -⟩ := Walk.pure_eq_built_iff.mp before
    have alone := Walk.mapM_eq_built_iff.mpr ⟨List.forall_mem_singleton.mpr ⟨last, noted, own⟩, rfl, rfl⟩
    refine ⟨_, _, alone, fun slots => ?_⟩
    rw [List.map_singleton, own]
    rfl
  | cons entry entries ih =>
    obtain ⟨key, old⟩ := entry
    obtain ⟨⟨title, rfl⟩, texts⟩ := List.forall_mem_cons.mp titled.texts
    obtain ⟨fresh, distinct⟩ := List.nodup_cons.mp titled.distinct
    rw [List.mapM_cons] at before
    obtain ⟨first, ofFirst, later, here, rest, rfl⟩ := Walk.bind_eq_built_iff.mp before
    obtain ⟨others, there, rfl⟩ := Walk.map_eq_built_iff.mp rest
    rw [Entries.put]
    split
    · next same =>
      obtain rfl := Yaml.Build.sameKey_str.mp same
      refine ⟨last :: others, noted ++ later, ?_, fun slots => ?_⟩
      · rw [List.mapM_cons]
        exact Walk.built_bind own (Walk.map_eq_built_iff.mpr ⟨others, there, rfl⟩)
      · obtain ⟨completes, rfl, -⟩ := Walk.mapM_eq_built_iff.mp there
        have apart (value) (member : value ∈ entries.map fun entry =>
            (readEntry settings path entry).made) (slots : List (Slot Value)) :
            Slot.give last (Slot.give value slots) = Slot.give value (Slot.give last slots) := by
          obtain ⟨entry, listed, rfl⟩ := List.mem_map.mp member
          refine Slot.give_comm (fun a ours b theirs same => fresh ?_) slots
          obtain ⟨text, textual⟩ := texts entry listed
          have titled : text = title := by
            have ofOther := name_of_readEntry (completes entry listed).eq b theirs
            have ofOwn := name_of_readEntry own a ours
            rw [textual] at ofOther
            exact ofOther.symm.trans (same.symm.trans ofOwn)
          exact List.mem_map.mpr ⟨entry, listed, titled ▸ textual⟩
        calc Slot.giveAll (last :: _) slots
          _ = Slot.giveAll _ (Slot.give last (Slot.give first slots)) := by
            rw [give_readEntry here own slots]
            rfl
          _ = Slot.give last (Slot.giveAll (first :: _) slots) :=
            (Slot.giveAll_comm (Slot.give last)
              (fun value member slots _ => apart value member slots) rfl).symm
    · next other =>
      obtain ⟨now, listed, built, same⟩ := ih ⟨texts, distinct⟩ there
      refine ⟨first :: now, ofFirst ++ listed, ?_, fun slots => same (Slot.give first slots)⟩
      rw [List.mapM_cons]
      exact Walk.built_bind here (Walk.map_eq_built_iff.mpr ⟨now, built, rfl⟩)

/-- Entries that are put among others come to the same as if they were read after them. -/
theorem mapM_readEntry_putAll {base upper : List (Scalar × Tree)} (titled : Titled base)
    (texts : ∀ entry ∈ upper, ∃ text, entry.1 = .str text)
    (below : base.mapM (readEntry settings path) = .built first findings)
    (above : upper.mapM (readEntry settings path) = .built second noted) :
    ∃ now listed, (Entries.putAll sameKey upper base).mapM (readEntry settings path) =
        .built now listed ∧
      ∀ slots, Slot.giveAll now slots = Slot.giveAll second (Slot.giveAll first slots) := by
  induction upper generalizing base first findings second noted with
  | nil =>
    obtain ⟨rfl, -⟩ := Walk.pure_eq_built_iff.mp above
    exact ⟨first, findings, below, fun _ => rfl⟩
  | cons entry upper ih =>
    obtain ⟨key, node⟩ := entry
    obtain ⟨⟨name, rfl⟩, others⟩ := List.forall_mem_cons.mp texts
    rw [List.mapM_cons] at above
    obtain ⟨last, _, _, own, rest, -⟩ := Walk.bind_eq_built_iff.mp above
    obtain ⟨given, there, rfl⟩ := Walk.map_eq_built_iff.mp rest
    obtain ⟨now, _, put, replaced⟩ := mapM_readEntry_put titled below own
    obtain ⟨all, listed, built, same⟩ := ih (titled.put name node) others put there
    exact ⟨all, listed, built, fun slots => by rw [same, replaced]; rfl⟩

/-- What some entries give to the slots of a new document they give to any slots by an overlay. -/
theorem overlay_giveAll {base : List (Slot Value)} (given : List (Option (Str × Value)))
    (aligned : base.map (·.name) = settings.map (·.name)) :
    Slot.overlay base (Slot.giveAll given (Schema.newSlots settings)) = Slot.giveAll given base := by
  have fresh : (Schema.newSlots settings).map (·.name) = settings.map (·.name) := by
    simp [Schema.newSlots]
  have step (value : Option (Str × Value)) (slots : List (Slot Value))
      (names : slots.map (·.name) = settings.map (·.name)) :
      Slot.overlay base (Slot.give value slots) = Slot.give value (Slot.overlay base slots) := by
    cases value with
    | none => rfl
    | some pair => exact Slot.overlay_assign (aligned.trans names.symm) pair.1 pair.2
  rw [Slot.giveAll_comm (Slot.overlay base) (fun value _ => step value) fresh, Slot.overlay_newSlots]

end entries

/-- Opens the walk over a dictionary at the root. -/
theorem ofTree_map_eq_ok_iff {schema : Schema} {mark : Option Nat} {entries : List (Scalar × Tree)}
    {result : Result} :
    ofTree schema source (.map mark entries) = .ok result ↔
      ∃ given findings, entries.mapM (readEntry schema.settings "") = .built given findings ∧
        result = ⟨.document schema.name (Slot.giveAll given (Schema.newSlots schema.settings)),
          .ofFindings findings⟩ := by
  have root : rootWalk schema (.map mark entries) = reader schema.shape (.map mark entries) "" := rfl
  rw [ofTree_eq_ok_iff, root]
  constructor
  · intro read
    obtain ⟨findings, built, listed⟩ := read
    obtain ⟨_, _, slots, ⟨⟩, same, built⟩ := (reader_document_eq_built_iff rfl).mp built
    obtain ⟨given, all, rfl⟩ := readSettings_eq_built_iff.mp built
    obtain ⟨document, report⟩ := result
    obtain rfl : document = _ := same
    obtain rfl : report = _ := listed
    exact ⟨given, findings, all, rfl⟩
  · intro read
    obtain ⟨given, findings, all, rfl⟩ := read
    exact ⟨findings, (reader_document_eq_built_iff rfl).mpr ⟨mark, entries, _, rfl, rfl,
      readSettings_eq_built_iff.mpr ⟨given, all, rfl⟩⟩, rfl⟩

/-- Two sources merged at the top, with the entries of the second in place of those of the first with
their keys, stand for the document of the first with that of the second laid over it. -/
theorem ofTree_merged {schema : Schema} {base upper : List (Scalar × Tree)} {bottom top : Result}
    (titled : Titled base) (titled' : Titled upper)
    (below : ofTree schema source (.map mark base) = .ok bottom)
    (above : ofTree schema source' (.map mark' upper) = .ok top) (merged : String)
    (place : Option Nat) :
    ∃ result, ofTree schema merged (.map place (Entries.putAll sameKey upper base)) = .ok result ∧
      bottom.document.overlay? top.document = .ok result.document := by
  obtain ⟨first, _, ofBase, rfl⟩ := ofTree_map_eq_ok_iff.mp below
  obtain ⟨second, _, ofUpper, rfl⟩ := ofTree_map_eq_ok_iff.mp above
  obtain ⟨now, listed, built, same⟩ := mapM_readEntry_putAll titled titled'.texts ofBase ofUpper
  refine ⟨_, ofTree_map_eq_ok_iff.mpr ⟨now, listed, built, rfl⟩, ?_⟩
  have aligned : (Slot.giveAll first (Schema.newSlots schema.settings)).map (·.name) =
      schema.settings.map (·.name) :=
    (names_readSettings (readSettings_eq_built_iff.mpr ⟨first, ofBase, rfl⟩)).trans
      (by simp [Schema.newSlots])
  simp only [Value.overlay?, beq_self_eq_true, if_true, same, overlay_giveAll second aligned]

/-- A source with a document inside, and one that replaces the document and has a setting too many. -/
def plainEntries : List (Scalar × Tree) :=
  [(.str "cluster_name", .scalar (.str "Plain")),
    (.str "seed_provider", .map none [(.str "class_name", .scalar (.str "Seeds"))])]

def layeredEntries : List (Scalar × Tree) :=
  [(.str "seed_provider", .map none [(.str "parameters", .scalar .null)]),
    (.str "rack", .scalar (.int 7)), (.str "num_tokens", .scalar .null)]

theorem ofTree_merged_layeredEntries :
    ∃ bottom top result, ofTree NodeSchema.nodeConfig "node.yaml" (.map none plainEntries) = .ok bottom ∧
      ofTree NodeSchema.nodeConfig "node-overlay.yaml" (.map none layeredEntries) = .ok top ∧
      ofTree NodeSchema.nodeConfig "merged.yaml"
        (.map none (Entries.putAll sameKey layeredEntries plainEntries)) = .ok result ∧
      bottom.document.overlay? top.document = .ok result.document := by
  have titled : Titled plainEntries := ⟨by simp [plainEntries], by decide⟩
  have titled' : Titled layeredEntries := ⟨by simp [layeredEntries], by decide⟩
  have reads : (ofTree NodeSchema.nodeConfig "node.yaml"
      (.map none plainEntries)).toOption.isSome = true := by decide +kernel
  have reads' : (ofTree NodeSchema.nodeConfig "node-overlay.yaml"
      (.map none layeredEntries)).toOption.isSome = true := by decide +kernel
  obtain ⟨bottom, below⟩ := exists_ok_of_isSome reads
  obtain ⟨top, above⟩ := exists_ok_of_isSome reads'
  obtain ⟨result, merged, laid⟩ := ofTree_merged titled titled' below above "merged.yaml" none
  exact ⟨bottom, top, result, below, above, merged, laid⟩

end Decode

end LayeredConfig
