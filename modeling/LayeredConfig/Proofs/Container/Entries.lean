import LayeredConfig.Container.Entries
import Mathlib.Data.List.Perm.Subperm

namespace LayeredConfig

namespace Members

variable {eq : α → α → Bool} {new member : α} {elements members : List α}

theorem mem_insert (inserted : member ∈ insert eq new members) : member = new ∨ member ∈ members := by
  rw [insert] at inserted
  split at inserted
  · exact .inr inserted
  · simpa [or_comm] using inserted

theorem mem_insertAll (inserted : member ∈ insertAll eq elements members) :
    member ∈ elements ∨ member ∈ members := by
  induction elements generalizing members with
  | nil => exact .inr inserted
  | cons element elements ih =>
    rcases ih inserted with later | here
    · exact .inl (List.mem_cons_of_mem _ later)
    · rcases mem_insert here with rfl | old
      · exact .inl List.mem_cons_self
      · exact .inr old

theorem insert_of_apart (apart : ∀ member ∈ members, eq member new = false) :
    insert eq new members = members ++ [new] := by
  rw [insert, contains, List.any_eq_false.mpr fun member listed => by simp [apart member listed],
    if_neg Bool.false_ne_true]

theorem mem_insert_of_mem (old : member ∈ members) : member ∈ insert eq new members := by
  rw [insert]
  split
  · exact old
  · exact List.mem_append_left _ old

theorem mem_insert_self (eq : α → α → Bool) (new : α) (members : List α) :
    new ∈ insert eq new members ∨ contains eq new members = true := by
  rw [insert]
  split
  · next present => exact .inr present
  · exact .inl (List.mem_append_right _ List.mem_cons_self)

theorem mem_insertAll_of_mem (old : member ∈ members) : member ∈ insertAll eq elements members := by
  induction elements generalizing members with
  | nil => exact old
  | cons element elements ih => exact ih (mem_insert_of_mem old)

theorem mem_insertAll_self (added : member ∈ elements) :
    member ∈ insertAll eq elements members ∨ contains eq member (insertAll eq elements members) = true := by
  induction elements generalizing members with
  | nil => cases added
  | cons element elements ih =>
    change member ∈ insertAll eq elements (insert eq element members) ∨
      contains eq member (insertAll eq elements (insert eq element members)) = true
    rcases List.mem_cons.mp added with rfl | later
    · rcases mem_insert_self eq member members with here | equal
      · exact .inl (mem_insertAll_of_mem here)
      · obtain ⟨other, listed, same⟩ := List.any_eq_true.mp equal
        exact .inr (List.any_eq_true.mpr ⟨other, mem_insertAll_of_mem (mem_insert_of_mem listed), same⟩)
    · exact ih later

/-- No member of a set equals a later one. -/
theorem pairwise_insert (apart : members.Pairwise fun a b => eq a b = false) :
    (insert eq new members).Pairwise fun a b => eq a b = false := by
  rw [insert]
  split
  · exact apart
  · next absent =>
    simp only [contains, List.any_eq_true, not_exists, not_and, Bool.not_eq_true] at absent
    refine List.pairwise_append.mpr ⟨apart, List.pairwise_singleton _ _, fun member listed last here => ?_⟩
    exact List.mem_singleton.mp here ▸ absent member listed

/-- Where the equality is that of the elements, nothing that is added is lost. -/
theorem mem_insertAll_iff
    (lawful : ∀ a ∈ members ++ elements, ∀ b ∈ elements, eq a b = true ↔ a = b) :
    member ∈ insertAll eq elements members ↔ member ∈ elements ∨ member ∈ members := by
  refine ⟨mem_insertAll, ?_⟩
  induction elements generalizing members with
  | nil => exact fun old => old.resolve_left nofun
  | cons element elements ih =>
    have stays : ∀ old, old = element ∨ old ∈ members → old ∈ insert eq element members := by
      intro old known
      rw [insert]
      split
      · next present =>
        obtain ⟨here, listed, same⟩ := List.any_eq_true.mp present
        obtain rfl := (lawful here (List.mem_append_left _ listed) element List.mem_cons_self).mp same
        exact known.elim (· ▸ listed) id
      · exact List.mem_append.mpr (known.symm.imp_right List.mem_singleton.mpr)
    have lawful' : ∀ a ∈ insert eq element members ++ elements, ∀ b ∈ elements,
        eq a b = true ↔ a = b := by
      intro a first b second
      refine lawful a ?_ b (List.mem_cons_of_mem _ second)
      rcases List.mem_append.mp first with inserted | later
      · rcases mem_insert inserted with rfl | old
        · simp
        · exact List.mem_append_left _ old
      · exact List.mem_append_right _ (List.mem_cons_of_mem _ later)
    intro known
    refine ih lawful' ?_
    rcases known with added | old
    · rcases List.mem_cons.mp added with rfl | later
      · exact .inr (stays member (.inl rfl))
      · exact .inl later
    · exact .inr (stays member (.inr old))

theorem pairwise_insertAll (apart : members.Pairwise fun a b => eq a b = false) :
    (insertAll eq elements members).Pairwise fun a b => eq a b = false := by
  induction elements generalizing members with
  | nil => exact apart
  | cons element elements ih => exact ih (pairwise_insert apart)

theorem insertAll_of_pairwise (apart : (members ++ elements).Pairwise fun a b => eq a b = false) :
    insertAll eq elements members = members ++ elements := by
  induction elements generalizing members with
  | nil => rw [List.append_nil, insertAll, List.foldl_nil]
  | cons element elements ih =>
    have new : insert eq element members = members ++ [element] := by
      refine if_neg fun present => ?_
      obtain ⟨member, listed, same⟩ := List.any_eq_true.mp present
      have differ := (List.pairwise_append.mp apart).2.2 member listed element List.mem_cons_self
      rw [same] at differ
      cases differ
    rw [List.append_cons] at apart ⊢
    rw [← ih apart, ← new]
    rfl

theorem nodup_ofList (lawful : ∀ a ∈ elements, ∀ b ∈ elements, eq a b = true ↔ a = b) :
    (ofList eq elements).Nodup := by
  refine List.Pairwise.imp_of_mem (fun {a b} first second apart equal => ?_)
    (pairwise_insertAll List.Pairwise.nil)
  have listed := (mem_insertAll first).resolve_right nofun
  rw [← equal, (lawful a listed a listed).mpr rfl] at apart
  cases apart

/-- Elements are lost exactly where some are equal. -/
theorem length_ofList_iff (lawful : ∀ a ∈ elements, ∀ b ∈ elements, eq a b = true ↔ a = b) :
    (ofList eq elements).length = elements.length ↔ elements.Nodup := by
  have inside : (ofList eq elements).Subperm elements :=
    (nodup_ofList lawful).subperm fun member listed => (mem_insertAll listed).resolve_right nofun
  constructor
  · intro all
    exact (inside.perm_of_length_le (Nat.le_of_eq all.symm)).nodup_iff.mp (nodup_ofList lawful)
  · intro distinct
    refine (inside.antisymm (distinct.subperm fun member listed => ?_)).length_eq
    exact (mem_insertAll_iff (by simpa using lawful)).mpr (.inl listed)

/-- The order in which elements are added matters for the order of the members only. -/
theorem ofList_perm {others : List α}
    (lawful : ∀ a ∈ elements, ∀ b ∈ elements, eq a b = true ↔ a = b) (perm : elements.Perm others) :
    (ofList eq elements).Perm (ofList eq others) := by
  have lawful' : ∀ a ∈ others, ∀ b ∈ others, eq a b = true ↔ a = b := fun a first b second =>
    lawful a (perm.mem_iff.mpr first) b (perm.mem_iff.mpr second)
  refine (List.perm_ext_iff_of_nodup (nodup_ofList lawful) (nodup_ofList lawful')).mpr fun member => ?_
  rw [ofList, ofList, mem_insertAll_iff (by simpa using lawful), mem_insertAll_iff (by simpa using lawful'),
    perm.mem_iff]

end Members

namespace Entries

variable {eq : α → α → Bool} {key : α} {value : β} {entries added : List (α × β)}

theorem mem_put {entry : α × β} (member : entry ∈ put eq key value entries) :
    (entry.1 = key ∨ ∃ old ∈ entries, entry.1 = old.1) ∧ (entry.2 = value ∨ entry ∈ entries) := by
  induction entries with
  | nil => simp_all [put]
  | cons first entries ih =>
    rw [put] at member
    split at member
    · rcases List.mem_cons.mp member with rfl | later
      · exact ⟨.inr ⟨first, List.mem_cons_self, rfl⟩, .inl rfl⟩
      · exact ⟨.inr ⟨entry, List.mem_cons_of_mem _ later, rfl⟩, .inr (List.mem_cons_of_mem _ later)⟩
    · rcases List.mem_cons.mp member with rfl | later
      · exact ⟨.inr ⟨first, List.mem_cons_self, rfl⟩, .inr List.mem_cons_self⟩
      · obtain ⟨keys, values⟩ := ih later
        exact ⟨keys.imp_right fun ⟨old, here, same⟩ => ⟨old, List.mem_cons_of_mem _ here, same⟩,
          values.imp_right (List.mem_cons_of_mem _)⟩

theorem mem_of_find? (found : find? eq key entries = some value) :
    ∃ entry ∈ entries, entry.2 = value := by
  induction entries with
  | nil => cases found
  | cons first entries ih =>
    rw [find?] at found
    split at found
    · exact ⟨first, List.mem_cons_self, Option.some.inj found⟩
    · obtain ⟨entry, listed, same⟩ := ih found
      exact ⟨entry, List.mem_cons_of_mem _ listed, same⟩

theorem mem_erase {entry : α × β} (member : entry ∈ erase eq key entries) : entry ∈ entries := by
  induction entries with
  | nil => exact member
  | cons first entries ih =>
    rw [erase] at member
    split at member
    · exact List.mem_cons_of_mem _ member
    · rcases List.mem_cons.mp member with rfl | later
      · exact List.mem_cons_self
      · exact List.mem_cons_of_mem _ (ih later)

theorem mem_putAll {entry : α × β} (member : entry ∈ putAll eq added entries) :
    (∃ new ∈ added, entry.2 = new.2) ∨ entry ∈ entries := by
  induction added generalizing entries with
  | nil => exact .inr member
  | cons first added ih =>
    rcases ih member with ⟨new, listed, same⟩ | here
    · exact .inl ⟨new, List.mem_cons_of_mem _ listed, same⟩
    · exact (mem_put here).2.imp_left fun same => ⟨first, List.mem_cons_self, same⟩

theorem keys_put (eq : α → α → Bool) (key : α) (value : β) (entries : List (α × β)) :
    (put eq key value entries).map (·.1) = Members.insert eq key (entries.map (·.1)) := by
  induction entries with
  | nil => rfl
  | cons entry entries ih =>
    rw [put]
    cases same : eq entry.1 key with
    | true => simp [Members.insert, Members.contains, same]
    | false =>
      rw [Members.insert, Members.contains] at ih ⊢
      simp only [Bool.false_eq_true, if_false, List.map_cons, ih, List.any_cons, same, Bool.false_or]
      split <;> rfl

theorem put_of_apart (apart : ∀ entry ∈ entries, eq entry.1 key = false) :
    put eq key value entries = entries ++ [(key, value)] := by
  induction entries with
  | nil => rfl
  | cons entry entries ih =>
    obtain ⟨here, apart⟩ := List.forall_mem_cons.mp apart
    rw [put, here, if_neg Bool.false_ne_true, ih apart, List.cons_append]

theorem keys_putAll (eq : α → α → Bool) (added entries : List (α × β)) :
    (putAll eq added entries).map (·.1) =
      Members.insertAll eq (added.map (·.1)) (entries.map (·.1)) := by
  induction added generalizing entries with
  | nil => rfl
  | cons first added ih => exact (ih _).trans (congrArg _ (keys_put eq first.1 first.2 entries))

theorem find?_put_self (itself : eq key key = true) :
    find? eq key (put eq key value entries) = some value := by
  induction entries with
  | nil => simp [put, find?, itself]
  | cons entry entries ih =>
    cases same : eq entry.1 key with
    | true => simp [put, find?, same]
    | false => simpa [put, find?, same] using ih

/-- Other keys keep their values, where the equality is that of the keys. -/
theorem find?_put_other {known : α → Prop}
    (lawful : ∀ a b, known a → known b → (eq a b = true ↔ a = b))
    (keys : ∀ entry ∈ entries, known entry.1) (here : known key) (there : known other)
    (different : other ≠ key) : find? eq other (put eq key value entries) = find? eq other entries := by
  have apart {old : α} (listed : known old) (same : eq old key = true) : eq old other = false := by
    obtain rfl := (lawful old key listed here).mp same
    exact Bool.eq_false_iff.mpr fun equal => different ((lawful old other listed there).mp equal).symm
  induction entries with
  | nil => simp [put, find?, apart here ((lawful key key here here).mpr rfl)]
  | cons entry entries ih =>
    obtain ⟨first, rest⟩ := List.forall_mem_cons.mp keys
    cases same : eq entry.1 key with
    | true => simp [put, find?, same, apart first same]
    | false => simp [put, find?, same, ih rest]

/-- The last of the entries that are put in with a key counts, or else the one before them. -/
theorem find?_putAll {known : α → Prop}
    (lawful : ∀ a b, known a → known b → (eq a b = true ↔ a = b))
    (old : ∀ entry ∈ entries, known entry.1) (new : ∀ entry ∈ added, known entry.1) (here : known key) :
    find? eq key (putAll eq added entries) =
      ((added.reverse.find? (eq ·.1 key)).map (·.2)).or (find? eq key entries) := by
  induction added generalizing entries with
  | nil => rfl
  | cons first added ih =>
    obtain ⟨own, new⟩ := List.forall_mem_cons.mp new
    have kept : ∀ entry ∈ put eq first.1 first.2 entries, known entry.1 := by
      intro entry member
      rcases (mem_put member).1 with same | ⟨before, listed, same⟩
      · exact same ▸ own
      · exact same ▸ old before listed
    change find? eq key (putAll eq added (put eq first.1 first.2 entries)) = _
    rw [ih kept new, List.reverse_cons, List.find?_append, Option.map_or, Option.or_assoc]
    congr 1
    by_cases same : key = first.1
    · subst same
      have itself : eq first.1 first.1 = true := (lawful _ _ own own).mpr rfl
      simp [find?_put_self itself, itself]
    · have differ : eq first.1 key = false :=
        Bool.eq_false_iff.mpr fun equal => same ((lawful _ _ own here).mp equal).symm
      simp [find?_put_other lawful old own here same, differ]

/-- Where the equality is that of the keys and no key is listed twice, each entry is found. -/
theorem find?_of_mem {entry : α × β}
    (lawful : ∀ a ∈ entries.map (·.1), ∀ b ∈ entries.map (·.1), eq a b = true ↔ a = b)
    (distinct : (entries.map (·.1)).Nodup) (member : entry ∈ entries) :
    find? eq entry.1 entries = some entry.2 := by
  induction entries with
  | nil => cases member
  | cons first entries ih =>
    obtain ⟨fresh, distinct⟩ := List.nodup_cons.mp distinct
    have here := lawful first.1 List.mem_cons_self entry.1 (List.mem_map_of_mem member)
    rcases List.mem_cons.mp member with rfl | later
    · simp [find?, here.mpr rfl]
    · have differ : eq first.1 entry.1 = false := Bool.eq_false_iff.mpr fun equal =>
        fresh (List.mem_map.mpr ⟨entry, later, (here.mp equal).symm⟩)
      have rest := ih (fun a first b second => lawful a (.tail _ first) b (.tail _ second)) distinct later
      simpa [find?, differ] using rest

end Entries

end LayeredConfig
