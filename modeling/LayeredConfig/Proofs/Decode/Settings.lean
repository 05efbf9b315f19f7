import LayeredConfig.Proofs.Decode.Exactness
import LayeredConfig.Proofs.Decode.Identity
import LayeredConfig.Proofs.Schema.Defaults

/-!
Settings inside settings, under the titles that lead to them. What a decoded document holds there was read
from the last entry with each of the titles, or else it comes from a default.
-/

namespace LayeredConfig

/-- The shape of a setting of a document. -/
def Shape.setting? (title : Str) : Shape → Option Shape
  | .document _ settings => (settings.find? (·.name == title)).map (·.shape)
  | _ => none

/-- The node of the last entry whose key is read as a title. -/
def Tree.setting? (title : Str) : Tree → Option Tree
  | .map _ entries => (entries.reverse.find? (·.1.text == title)).map (·.2)
  | _ => none

/-- The part that titles lead to, one after the other. -/
def descend (step : Str → α → Option α) (titles : List Str) (whole : α) : Option α :=
  titles.foldlM (fun part title => step title part) whole

theorem descend_cons (step : Str → α → Option α) (title : Str) (titles : List Str) (whole : α) :
    descend step (title :: titles) whole = (step title whole).bind (descend step titles) :=
  List.foldlM_cons

theorem Shape.setting?_eq_some_iff {shape part : Shape} :
    shape.setting? title = some part ↔ ∃ name settings setting, shape = .document name settings ∧
      settings.find? (·.name == title) = some setting ∧ setting.shape = part := by
  cases shape with
  | document name settings => simp [setting?]
  | _ => simp [setting?]

/-- A default of a setting on the way, or what lies in it under the other titles. -/
inductive Shape.Defaults : Shape → List Str → Value → Prop
  | here {settings : List (Setting Shape)} {setting : Setting Shape}
      (known : settings.find? (·.name == title) = some setting)
      (inside : descend Value.setting? titles setting.default = some value) :
      Defaults (.document name settings) (title :: titles) value
  | deeper {settings : List (Setting Shape)} {setting : Setting Shape}
      (known : settings.find? (·.name == title) = some setting)
      (below : Defaults setting.shape titles value) :
      Defaults (.document name settings) (title :: titles) value

section values

variable {shape part : Shape} {value inner : Value} {titles : List Str}

theorem Value.occurs_of_descend (found : descend Value.setting? titles value = some inner) :
    Occurs inner value := by
  induction titles generalizing value with
  | nil =>
    obtain rfl := Option.some.inj found
    exact .here
  | cons title titles ih =>
    rw [descend_cons] at found
    obtain ⟨next, step, below⟩ := Option.bind_eq_some_iff.mp found
    cases value with
    | document type slots =>
      obtain ⟨slot, here, rfl⟩ := Option.map_eq_some_iff.mp step
      exact .slot (List.mem_of_find?_eq_some here) (ih below)
    | _ => cases step

/-- Where titles lead to in a value of a shape, there is null or a value of the shape there. -/
theorem Conforms.descend (conforms : value.isNull = false → Conforms shape value)
    (typed : descend Shape.setting? titles shape = some part)
    (found : descend Value.setting? titles value = some inner) (present : inner.isNull = false) :
    Conforms part inner := by
  induction titles generalizing shape value with
  | nil =>
    obtain rfl := Option.some.inj typed
    obtain rfl := Option.some.inj found
    exact conforms present
  | cons title titles ih =>
    rw [descend_cons] at typed found
    obtain ⟨_, own, typed⟩ := Option.bind_eq_some_iff.mp typed
    obtain ⟨name, settings, setting, rfl, known, rfl⟩ := Shape.setting?_eq_some_iff.mp own
    obtain ⟨next, step, below⟩ := Option.bind_eq_some_iff.mp found
    cases value with
    | document type slots =>
      obtain ⟨slot, here, rfl⟩ := Option.map_eq_some_iff.mp step
      cases conforms rfl with
      | document names _ _ parts =>
        exact ih (parts _ (Slot.mem_zip_of_find? names known here)) typed below
    | _ => cases step

/-- What all defaults pass, each of them passes. -/
theorem Shape.Defaults.passes {test : Value → Bool} (defaults : shape.Defaults titles inner)
    (pass : shape.defaultsPass test = true) : test inner = true := by
  induction defaults with
  | here known inside =>
    obtain ⟨-, own⟩ := settingsPass_iff.mp pass _ (List.mem_of_find?_eq_some known)
    exact Value.everywhere_iff.mp own _ (Value.occurs_of_descend inside)
  | deeper known below ih =>
    exact ih (settingsPass_iff.mp pass _ (List.mem_of_find?_eq_some known)).1

/-- A default of a regular shape has the shape of its place, or is null. -/
theorem Shape.Defaults.conforms (defaults : shape.Defaults titles inner) (regular : shape.Regular)
    (typed : LayeredConfig.descend Shape.setting? titles shape = some part)
    (present : inner.isNull = false) : Conforms part inner := by
  induction defaults with
  | here known inside =>
    cases regular with
    | document shapes defaults =>
      rw [descend_cons, Shape.setting?, known] at typed
      exact Conforms.descend (defaults _ (List.mem_of_find?_eq_some known)) typed inside present
  | deeper known below ih =>
    cases regular with
    | document shapes defaults =>
      rw [descend_cons, Shape.setting?, known] at typed
      exact ih (shapes _ (List.mem_of_find?_eq_some known)) typed present

end values

namespace Decode

variable {shape part : Shape} {titles : List Str}

/-- After the entries of a document, a slot holds what was read from the last entry with its title, or its
default if there is none. -/
theorem find?_slots {settings : List (Setting Shape)} {setting : Setting Shape}
    {entries : List (Scalar × Tree)} {slots : List (Slot Value)} (mark : Option Nat)
    (built : readSettings (readers settings) path (Schema.newSlots settings) entries =
      .built slots findings) (known : settings.find? (·.name == title) = some setting) :
    (Tree.setting? title (.map mark entries) = none ∧
      Slot.find? title slots = some ⟨title, false, setting.default⟩) ∨
    ∃ node place value noted, Tree.setting? title (.map mark entries) = some node ∧
      reader setting.shape node place = .built value noted ∧
      Slot.find? title slots = some ⟨title, true, value⟩ := by
  have fresh : (Schema.newSlots settings).map (·.name) = settings.map (·.name) := by
    simp [Schema.newSlots]
  cases last : entries.reverse.find? (·.1.text == title) with
  | none =>
    refine .inl ⟨by rw [Tree.setting?, last]; rfl, ?_⟩
    have others : ∀ entry ∈ entries, entry.1.text ≠ title := fun entry listed same =>
      List.find?_eq_none.mp last entry (List.mem_reverse.mpr listed) (beq_iff_eq.mpr same)
    have named : setting.name = title := by simpa using List.find?_some known
    rw [find?_readSettings others built, Slot.find?, Schema.newSlots, List.find?_map]
    change (settings.find? (·.name == title)).map _ = _
    rw [known, Option.map_some, named]
  | some entry =>
    obtain ⟨same, after, before, split, others⟩ := List.find?_eq_some_iff_append.mp last
    obtain ⟨key, node⟩ := entry
    obtain rfl : key.text = title := by simpa using same
    have order : entries = before.reverse ++ [(key, node)] ++ after.reverse := by
      simpa using congrArg List.reverse split
    rw [order, readSettings_append, readSettings_append] at built
    obtain ⟨now, _, _, first, rest, -⟩ := Walk.bind_eq_built_iff.mp built
    obtain ⟨earlier, _, _, start, own, -⟩ := Walk.bind_eq_built_iff.mp first
    obtain ⟨value, _, ofSetting, given⟩ :=
      find?_readSettings_known ((names_readSettings start).trans fresh) known own
    have unnamed : ∀ entry ∈ after.reverse, entry.1.text ≠ key.text := by
      simpa using others
    have read : ∃ noted, reader setting.shape node (join path key.text) = .built value noted := by
      rw [readSetting_eq] at ofSetting
      split at ofSetting
      · next nullified =>
        obtain ⟨rfl, -⟩ := Walk.built.inj ofSetting
        exact ⟨[], reader_of_isNull _ _ (Bool.and_eq_true_iff.mp nullified).1⟩
      · exact ⟨_, ofSetting⟩
    obtain ⟨noted, read⟩ := read
    exact .inr ⟨node, _, value, noted, by rw [Tree.setting?, last]; rfl, read,
      (find?_readSettings unnamed rest).trans given⟩

/-- What is built from a node, and what the last entries with some titles lead to in the node: what is there
was read from it, and if nothing is, a default may be. -/
def Stems (shape : Shape) (node : Tree) (value : Value) (titles : List Str) (part : Shape) : Prop :=
  (∃ child inner place noted, descend Tree.setting? titles node = some child ∧
    descend Value.setting? titles value = some inner ∧ reader part child place = .built inner noted) ∨
  descend Tree.setting? titles node = none ∧
    ∀ inner, descend Value.setting? titles value = some inner → shape.Defaults titles inner

theorem stems_of_built (built : reader shape node path = .built value findings)
    (typed : descend Shape.setting? titles shape = some part) : Stems shape node value titles part := by
  induction titles generalizing shape node path value findings with
  | nil =>
    obtain rfl := Option.some.inj typed
    exact .inl ⟨node, value, path, findings, rfl, rfl, built⟩
  | cons title titles ih =>
    rw [descend_cons] at typed
    obtain ⟨_, own, typed⟩ := Option.bind_eq_some_iff.mp typed
    obtain ⟨name, settings, setting, rfl, known, rfl⟩ := Shape.setting?_eq_some_iff.mp own
    cases null : node.isNull with
    | true =>
      rw [reader_of_isNull _ _ null] at built
      obtain ⟨rfl, -⟩ := Walk.built.inj built
      refine .inr ⟨?_, nofun⟩
      cases node with
      | scalar => rfl
      | _ => cases null
    | false =>
      -- the first title leads to a default, or to a node that the other titles go on from
      obtain ⟨mark, entries, slots, rfl, rfl, slotsBuilt⟩ := (reader_document_eq_built_iff null).mp built
      unfold Stems
      simp only [descend_cons, Value.setting?]
      obtain ⟨absent, kept⟩ | ⟨child, place, inner, noted, given, read, held⟩ :=
        find?_slots mark slotsBuilt known
      · rw [absent, kept]
        exact .inr ⟨rfl, fun inner inside => .here known inside⟩
      · rw [given, held]
        rcases ih read typed with below | ⟨absent, defaults⟩
        · exact .inl below
        · exact .inr ⟨absent, fun inner inside => .deeper known (defaults inner inside)⟩

/-- Below its root, a decoded document holds what was read from the tree, and defaults. -/
theorem stems_of_ofTree {schema : Schema} {result : Result}
    (decoded : ofTree schema source tree = .ok result) (below : titles ≠ [])
    (typed : descend Shape.setting? titles schema.shape = some part) :
    Stems schema.shape tree result.document titles part := by
  obtain ⟨findings, walk, -⟩ := ofTree_eq_ok_iff.mp decoded
  unfold rootWalk at walk
  split at walk
  · next null =>
    obtain ⟨same, -⟩ := Walk.built.inj walk
    obtain ⟨title, titles, rfl⟩ := List.exists_cons_of_ne_nil below
    have absent : Tree.setting? title tree = none := by
      cases tree with
      | scalar => rfl
      | _ => cases null
    refine .inr ⟨by rw [descend_cons, absent]; rfl, fun inner inside => ?_⟩
    rw [← same, descend_cons] at inside
    obtain ⟨next, step, inside⟩ := Option.bind_eq_some_iff.mp inside
    obtain ⟨slot, found, rfl⟩ := Option.map_eq_some_iff.mp step
    rw [Slot.find?, Schema.newSlots, List.find?_map] at found
    obtain ⟨setting, known, rfl⟩ := Option.map_eq_some_iff.mp found
    exact .here known inside
  · exact stems_of_built walk typed

end Decode

end LayeredConfig
