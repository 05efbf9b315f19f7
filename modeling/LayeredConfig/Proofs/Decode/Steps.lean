import LayeredConfig.Proofs.Decode.Walks

/-!
The entries of documents and of dictionaries as steps that do not depend on one another: what each comes
to is read from it alone, and only then is all of it put together, in order.
-/

namespace LayeredConfig

namespace Walk

/-- The walk is not stopped. -/
def Completes (walk : Walk α) : Prop :=
  ∃ value findings, walk = .built value findings

/-- What a walk built, if it was not stopped. -/
def made [Inhabited α] : Walk α → α
  | .stopped _ => default
  | .built value _ => value

/-- What a walk found before it was stopped or done. -/
def noted : Walk α → List Finding
  | .stopped _ => []
  | .built _ findings => findings

theorem Completes.eq [Inhabited α] {walk : Walk α} (completes : walk.Completes) :
    walk = .built walk.made walk.noted := by
  obtain ⟨value, findings, rfl⟩ := completes
  rfl

/-- Steps one after the other build what each builds, if none is stopped. -/
theorem mapM_eq_built_iff [Inhabited β] {step : α → Walk β} {xs : List α} :
    xs.mapM step = .built values findings ↔
      (∀ x ∈ xs, (step x).Completes) ∧ xs.map (fun x => (step x).made) = values ∧
        xs.flatMap (fun x => (step x).noted) = findings := by
  induction xs generalizing values findings with
  | nil =>
    rw [List.mapM_nil, pure_eq_built_iff]
    simp [eq_comm]
  | cons x xs ih =>
    rw [List.mapM_cons, bind_eq_built_iff, List.forall_mem_cons, List.map_cons, List.flatMap_cons]
    constructor
    · intro steps
      obtain ⟨value, before, later, built, rest, rfl⟩ := steps
      obtain ⟨_, tail, rfl⟩ := map_eq_built_iff.mp rest
      obtain ⟨all, rfl, rfl⟩ := ih.mp tail
      rw [built]
      exact ⟨⟨⟨value, before, rfl⟩, all⟩, rfl, rfl⟩
    · intro steps
      obtain ⟨⟨here, all⟩, rfl, rfl⟩ := steps
      exact ⟨_, _, _, here.eq, map_eq_built_iff.mpr ⟨_, ih.mpr ⟨all, rfl, rfl⟩, rfl⟩, rfl⟩

theorem exists_of_mem_mapM [Inhabited β] {step : α → Walk β} {xs : List α} {values : List β}
    (built : xs.mapM step = .built values findings) :
    ∀ value ∈ values, ∃ x ∈ xs, ∃ noted, step x = .built value noted := by
  obtain ⟨completes, rfl, -⟩ := mapM_eq_built_iff.mp built
  intro value member
  obtain ⟨x, listed, rfl⟩ := List.mem_map.mp member
  exact ⟨x, listed, _, (completes x listed).eq⟩

end Walk

namespace Decode

/-- The parts of a sequence are read one by one. -/
theorem readItems_eq (read : Reader) (path : Str) (index : Nat) (items : List Tree) :
    readItems read path index items =
      (items.zipIdx index).mapM fun item => read item.1 (element path item.2) := by
  induction items generalizing index with
  | nil => rfl
  | cons item items ih => rw [readItems, ih, List.zipIdx_cons, List.mapM_cons]

/-- The setting that an entry of a document names, with the value that it gives to it. -/
def readEntry (settings : List (Setting Shape)) (path : Str) (entry : Scalar × Tree) :
    Walk (Option (Str × Value)) := do
  let title ← nameOf entry.1
  match settings.find? (·.name == title) with
  | none =>
    Walk.note (.unknown (join path title))
    return none
  | some setting =>
    return some (title, ← readSetting setting (reader setting.shape) entry.2 (join path title))

/-- The entries of a document are read one by one, and then their values given to its slots. -/
theorem readSettings_eq (settings : List (Setting Shape)) (path : Str) (slots : List (Slot Value))
    (entries : List (Scalar × Tree)) :
    readSettings (readers settings) path slots entries =
      entries.mapM (readEntry settings path) >>= fun given => pure (Slot.giveAll given slots) := by
  induction entries generalizing slots with
  | nil => rfl
  | cons entry entries ih =>
    obtain ⟨key, node⟩ := entry
    simp only [readSettings_cons, List.mapM_cons, readEntry, bind_assoc, pure_bind, ih]
    refine congrArg _ (funext fun title => ?_)
    cases settings.find? (·.name == title) <;> simp only [bind_assoc, pure_bind] <;> rfl

theorem readSettings_eq_built_iff {settings : List (Setting Shape)} {slots result : List (Slot Value)}
    {entries : List (Scalar × Tree)} :
    readSettings (readers settings) path slots entries = .built result findings ↔
      ∃ given, entries.mapM (readEntry settings path) = .built given findings ∧
        Slot.giveAll given slots = result := by
  rw [readSettings_eq, Walk.map_eq_built_iff]

/-- An entry gives a value to the setting that its key names, or to none if there is no such setting. -/
theorem readEntry_eq_built_iff {settings : List (Setting Shape)} {key : Scalar} {node : Tree}
    {given : Option (Str × Value)} :
    readEntry settings path (key, node) = .built given findings ↔
      key.writable = true ∧
        match settings.find? (·.name == key.text) with
        | none => given = none ∧ findings = [.unknown (join path key.text)]
        | some setting => ∃ value, given = some (key.text, value) ∧
          readSetting setting (reader setting.shape) node (join path key.text) =
            .built value findings := by
  cases writable : key.writable with
  | false =>
    rw [readEntry, nameOf_unwritable writable]
    exact ⟨nofun, fun wrong => Bool.noConfusion wrong.1⟩
  | true =>
    rw [readEntry, nameOf_writable writable, pure_bind]
    cases settings.find? (·.name == key.text) with
    | none =>
      simp only [Walk.bind_eq_built_iff, Walk.note, Walk.pure_eq_built_iff, Walk.built.injEq]
      grind
    | some setting =>
      simp only [Walk.map_eq_built_iff, true_and]
      exact exists_congr fun value => ⟨fun both => ⟨both.2.symm, both.1⟩, fun both => ⟨both.2, both.1.symm⟩⟩

theorem name_of_readEntry {settings : List (Setting Shape)} {given : Option (Str × Value)}
    {entry : Scalar × Tree}
    (built : readEntry settings path entry = .built given findings) :
    ∀ pair ∈ given, pair.1 = entry.1.text := by
  obtain ⟨-, given⟩ := readEntry_eq_built_iff.mp built
  split at given
  · obtain ⟨rfl, -⟩ := given
    exact nofun
  · obtain ⟨value, rfl, -⟩ := given
    rintro _ ⟨⟩
    rfl

end Decode

end LayeredConfig
