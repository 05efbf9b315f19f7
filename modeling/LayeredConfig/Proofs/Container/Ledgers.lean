import LayeredConfig.Proofs.Container.Membership
import LayeredConfig.Proofs.Container.Pairing
import Mathlib.Data.List.Induction

/-!
What the entries of a dictionary are after a history of writes and removals. The value of a key is that of
the last write, its object that of the first write since it was last absent, and its place goes by when that
was; each change of the entries keeps the three in step with the history.
-/

namespace LayeredConfig

/-- A change of a dictionary: a key is given a value or taken away, or all keys are. -/
inductive Change (κ ν : Type)
  | put (key : κ) (value : ν)
  | removed (key : κ)
  | cleared

variable {κ ν : Type}

namespace Change

/-- A change takes a key away. -/
def Ends (eq : κ → κ → Bool) (key : κ) : Change κ ν → Prop
  | .put _ _ => False
  | .removed other => eq other key = true
  | .cleared => True

/-- A change writes a key or takes it away. -/
def Concerns (eq : κ → κ → Bool) (key : κ) : Change κ ν → Prop
  | .put other _ => eq other key = true
  | .removed other => eq other key = true
  | .cleared => True

/-- The key of a change, if it has one, is known. -/
def Known (known : κ → Prop) : Change κ ν → Prop
  | .put key _ => known key
  | .removed key => known key
  | .cleared => True

/-- What a change makes of the entries. -/
def apply (eq : κ → κ → Bool) (entries : List (κ × ν)) : Change κ ν → List (κ × ν)
  | .put key value => Entries.put eq key value entries
  | .removed key => Entries.erase eq key entries
  | .cleared => []

theorem Ends.concerns {eq : κ → κ → Bool} {key : κ} {change : Change κ ν} (ends : change.Ends eq key) :
    change.Concerns eq key := by
  cases change with
  | put other value => cases ends
  | _ => exact ends

end Change

/-- The changes of a dictionary from the first to the last. -/
abbrev Ledger (κ ν : Type) := List (Change κ ν)

namespace Ledger

/-- A value is that of the last write of an equal key, and nothing after it concerns the key. -/
def LastWritten (eq : κ → κ → Bool) (ledger : Ledger κ ν) (key : κ) (value : ν) : Prop :=
  ∃ before other after, ledger = before ++ .put other value :: after ∧ eq other key = true ∧
    ∀ change ∈ after, ¬ change.Concerns eq key

/-- An equal key has been written and not been taken away since. -/
def Present (eq : κ → κ → Bool) (ledger : Ledger κ ν) (key : κ) : Prop :=
  ∃ value, LastWritten eq ledger key value

/-- At some moment a key was inserted while no equal one was present, and it has stayed since. -/
def Born (eq : κ → κ → Bool) (ledger : Ledger κ ν) (key : κ) (moment : Nat) : Prop :=
  ∃ before value after, ledger = before ++ .put key value :: after ∧ before.length = moment ∧
    ¬ Present eq before key ∧ ∀ change ∈ after, ¬ change.Ends eq key

/-- The entries of a dictionary are those of its history: no two keys are equal, each key that is present is
there with the value last written, and the keys are the ones first inserted, in the order of that. -/
structure Records (eq : κ → κ → Bool) (known : κ → Prop) (ledger : Ledger κ ν) (entries : List (κ × ν)) :
    Prop where
  distinct : Members.Distinct eq known (entries.map (·.1))
  written : ∀ entry ∈ entries, LastWritten eq ledger entry.1 entry.2
  complete : ∀ key, known key → Present eq ledger key → Members.Among eq (entries.map (·.1)) key
  born : ∃ moments, List.Forall₂ (Born eq ledger) (entries.map (·.1)) moments ∧ moments.Pairwise (· < ·)

variable {eq : κ → κ → Bool} {known : κ → Prop} {ledger : Ledger κ ν} {entries : List (κ × ν)}
  {change : Change κ ν} {key : κ} {value : ν} {moment : Nat}

/-- The last write of a key after one more change is that change, or the last one before it if the change has
nothing to do with the key. -/
theorem lastWritten_concat :
    LastWritten eq (ledger ++ [change]) key value ↔
      (∃ other, change = .put other value ∧ eq other key = true) ∨
        ¬ change.Concerns eq key ∧ LastWritten eq ledger key value := by
  constructor
  · rintro ⟨before, other, after, split, same, silent⟩
    rcases List.eq_nil_or_concat after with rfl | ⟨earlier, last, rfl⟩
    · obtain ⟨-, equal⟩ := List.append_inj' split rfl
      exact .inl ⟨other, List.singleton_inj.mp equal, same⟩
    · rw [List.concat_eq_append, ← List.cons_append, ← List.append_assoc] at split
      obtain ⟨rest, equal⟩ := List.append_inj' split rfl
      obtain rfl := List.singleton_inj.mp equal
      rw [List.concat_eq_append] at silent
      refine .inr ⟨silent change (List.mem_append_right _ (List.mem_singleton_self _)),
        before, other, earlier, rest, same, ?_⟩
      exact fun change listed => silent change (List.mem_append_left _ listed)
  · rintro (⟨other, rfl, same⟩ | ⟨aside, before, other, after, rfl, same, silent⟩)
    · exact ⟨ledger, other, [], rfl, same, nofun⟩
    · refine ⟨before, other, after ++ [change], by simp, same, ?_⟩
      exact List.forall_mem_append.mpr ⟨silent, List.forall_mem_singleton.mpr aside⟩

theorem LastWritten.unique {other : ν} (first : LastWritten eq ledger key value)
    (second : LastWritten eq ledger key other) : value = other := by
  induction ledger using List.reverseRecOn with
  | nil =>
    obtain ⟨before, _, _, split, -⟩ := first
    simp at split
  | append_singleton ledger change ih =>
    rcases lastWritten_concat.mp first with ⟨key', rfl, same⟩ | ⟨aside, first⟩
    · rcases lastWritten_concat.mp second with ⟨_, written, -⟩ | ⟨aside, -⟩
      · exact (Change.put.inj written).2
      · exact absurd same aside
    · rcases lastWritten_concat.mp second with ⟨key', rfl, same⟩ | ⟨-, second⟩
      · exact absurd same aside
      · exact ih first second

theorem present_concat :
    Present eq (ledger ++ [change]) key ↔ (∃ other value, change = .put other value ∧ eq other key = true) ∨
      ¬ change.Concerns eq key ∧ Present eq ledger key := by
  constructor
  · rintro ⟨value, written⟩
    rcases lastWritten_concat.mp written with ⟨other, same⟩ | ⟨aside, written⟩
    · exact .inl ⟨other, value, same⟩
    · exact .inr ⟨aside, value, written⟩
  · rintro (⟨other, value, same⟩ | ⟨aside, value, written⟩)
    · exact ⟨value, lastWritten_concat.mpr (.inl ⟨other, same⟩)⟩
    · exact ⟨value, lastWritten_concat.mpr (.inr ⟨aside, written⟩)⟩

theorem LastWritten.concat (written : LastWritten eq ledger key value) (aside : ¬ change.Concerns eq key) :
    LastWritten eq (ledger ++ [change]) key value :=
  lastWritten_concat.mpr (.inr ⟨aside, written⟩)

theorem Born.concat (born : Born eq ledger key moment) (stays : ¬ change.Ends eq key) :
    Born eq (ledger ++ [change]) key moment := by
  obtain ⟨before, value, after, rfl, length, absent, kept⟩ := born
  refine ⟨before, value, after ++ [change], by simp, length, absent, ?_⟩
  exact List.forall_mem_append.mpr ⟨kept, List.forall_mem_singleton.mpr stays⟩

theorem Born.lt_length (born : Born eq ledger key moment) : moment < ledger.length := by
  obtain ⟨before, value, after, rfl, rfl, -⟩ := born
  simp

theorem born_put (absent : ¬ Present eq ledger key) :
    Born eq (ledger ++ [.put key value]) key ledger.length :=
  ⟨ledger, value, [], rfl, rfl, absent, nofun⟩

theorem LastWritten.congr {other : κ} (equality : Equality eq known) (here : known key)
    (there : known other) (same : eq key other = true) (written : LastWritten eq ledger key value) :
    LastWritten eq ledger other value := by
  obtain ⟨before, first, after, split, equal, silent⟩ := written
  refine ⟨before, first, after, split, equality.trans here equal same, fun change listed concerns => ?_⟩
  have back := equality.symm here there same
  refine silent change listed ?_
  cases change with
  | cleared => trivial
  | _ => exact equality.trans there concerns back

theorem Records.present_iff (equality : Equality eq known) (records : Records eq known ledger entries)
    (here : known key) : Present eq ledger key ↔ Members.Among eq (entries.map (·.1)) key := by
  refine ⟨records.complete key here, ?_⟩
  rintro ⟨other, listed, same⟩
  obtain ⟨entry, member, rfl⟩ := List.mem_map.mp listed
  have own := records.distinct.each _ listed
  exact ⟨entry.2, (records.written entry member).congr equality own here same⟩

/-- What is found under a key is what was last written. -/
theorem Records.find?_eq_some_iff (equality : Equality eq known) (records : Records eq known ledger entries)
    (here : known key) : Entries.find? eq key entries = some value ↔ LastWritten eq ledger key value := by
  have sound {value : ν} (found : Entries.find? eq key entries = some value) :
      LastWritten eq ledger key value := by
    have among : Members.Among eq (entries.map (·.1)) key := by
      by_contra missing
      rw [Entries.find?_eq_none_iff.mpr missing] at found
      cases found
    obtain ⟨other, listed, same⟩ := among
    obtain ⟨entry, member, rfl⟩ := List.mem_map.mp listed
    rw [Entries.find?_of_same equality records.distinct member here same] at found
    obtain rfl := Option.some.inj found
    exact (records.written entry member).congr equality (records.distinct.each _ listed) here same
  refine ⟨sound, fun written => ?_⟩
  cases found : Entries.find? eq key entries with
  | none => exact absurd (records.complete key here ⟨value, written⟩) (Entries.find?_eq_none_iff.mp found)
  | some other => rw [written.unique (sound found)]

theorem Records.find?_eq_none_iff (equality : Equality eq known) (records : Records eq known ledger entries)
    (here : known key) : Entries.find? eq key entries = none ↔ ¬ Present eq ledger key := by
  rw [Entries.find?_eq_none_iff, records.present_iff equality here]

theorem records_nil (eq : κ → κ → Bool) (known : κ → Prop) :
    Records eq known ([] : Ledger κ ν) [] where
  distinct := .nil
  written := nofun
  complete := fun _ _ ⟨_, before, _, _, split, _⟩ => by simp at split
  born := ⟨[], .nil, .nil⟩

theorem records_cleared (eq : κ → κ → Bool) (known : κ → Prop) (ledger : Ledger κ ν) :
    Records eq known (ledger ++ [.cleared]) [] where
  distinct := .nil
  written := nofun
  complete := by
    intro other _ present
    rcases present_concat.mp present with ⟨_, _, written, -⟩ | ⟨aside, -⟩
    · cases written
    · exact absurd trivial aside
  born := ⟨[], .nil, .nil⟩

section changes

variable (equality : Equality eq known) (records : Records eq known ledger entries)

include equality records

/-- A write keeps the key and the place of an equal one, and a new key comes last, born now. -/
theorem Records.put (here : known key) (value : ν) :
    Records eq known (ledger ++ [.put key value]) (Entries.put eq key value entries) where
  distinct := Entries.distinct_put records.distinct here
  written := by
    intro entry listed
    have later : Members.Distinct eq known ((Entries.put eq key value entries).map (·.1)) :=
      Entries.distinct_put records.distinct here
    have own := later.each entry.1 (List.mem_map_of_mem listed)
    rcases Entries.mem_put_cases equality records.distinct here listed with ⟨same, rfl⟩ | ⟨differ, old⟩
    · exact lastWritten_concat.mpr (.inl ⟨key, rfl, equality.symm own here same⟩)
    · exact (records.written entry old).concat fun same => differ (equality.symm here own same)
  complete := by
    intro other there present
    rw [Entries.keys_put, Members.among_insert equality here]
    rcases present_concat.mp present with ⟨_, _, written, same⟩ | ⟨-, old⟩
    · cases written
      exact .inl same
    · exact .inr (records.complete other there old)
  born := by
    obtain ⟨moments, born, ordered⟩ := records.born
    have older : List.Forall₂ (Born eq (ledger ++ [.put key value])) (entries.map (·.1)) moments :=
      born.imp fun _ _ born => born.concat id
    rw [Entries.keys_put, Members.insert]
    split
    · exact ⟨moments, older, ordered⟩
    · next absent =>
      have fresh : ¬ Present eq ledger key := fun present =>
        absent (Members.contains_iff.mpr (records.complete key here present))
      refine ⟨moments ++ [ledger.length], List.rel_append older (.cons (born_put fresh) .nil), ?_⟩
      refine List.pairwise_append.mpr ⟨ordered, List.pairwise_singleton _ _, fun moment listed last now => ?_⟩
      obtain rfl := List.mem_singleton.mp now
      obtain ⟨_, _, earlier⟩ := exists_mem_of_forall₂ born.flip moment listed
      exact Born.lt_length earlier

/-- A removal takes nothing but the entry of the key. -/
theorem Records.erase (here : known key) :
    Records eq known (ledger ++ [.removed key]) (Entries.erase eq key entries) where
  distinct := Entries.distinct_erase records.distinct key
  written := by
    intro entry listed
    obtain ⟨differ, old⟩ := Entries.mem_erase_cases equality records.distinct here listed
    exact (records.written entry old).concat differ
  complete := by
    intro other there present
    rcases present_concat.mp present with ⟨_, _, written, -⟩ | ⟨aside, old⟩
    · cases written
    · rw [Entries.keys_erase, Members.among_erase equality records.distinct here there]
      exact ⟨records.complete other there old, aside⟩
  born := by
    obtain ⟨moments, born, ordered⟩ := records.born
    have part : ((Entries.erase eq key entries).map (·.1)).Sublist (entries.map (·.1)) :=
      Entries.keys_erase eq key entries ▸ Members.erase_sublist eq key _
    obtain ⟨others, sublist, born⟩ := exists_sublist_of_forall₂ born part
    refine ⟨others, ?_, ordered.sublist sublist⟩
    refine forall₂_imp_of_mem born fun other listed moment _ born => born.concat ?_
    obtain ⟨entry, member, rfl⟩ := List.mem_map.mp listed
    exact (Entries.mem_erase_cases equality records.distinct here member).1

theorem Records.apply (here : change.Known known) :
    Records eq known (ledger ++ [change]) (change.apply eq entries) := by
  cases change with
  | put key value => exact records.put equality here value
  | removed key => exact records.erase equality here
  | cleared => exact records_cleared eq _ ledger

theorem Records.applyAll {changes : Ledger κ ν} (each : ∀ change ∈ changes, change.Known known) :
    Records eq known (ledger ++ changes) (changes.foldl (Change.apply eq) entries) := by
  induction changes generalizing ledger entries with
  | nil => rwa [List.append_nil]
  | cons change changes ih =>
    obtain ⟨here, later⟩ := List.forall_mem_cons.mp each
    rw [List.append_cons]
    exact ih (records.apply equality here) later

end changes

end Ledger

end LayeredConfig
