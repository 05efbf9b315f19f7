import LayeredConfig.Proofs.Container.Entries
import Mathlib.Logic.Basic

/-!
Sets by what is a member of them, up to an equality. The operations on lists of members are those of sets
in terms of membership, and lists in which no two members are equal include each other as sets do.
-/

namespace LayeredConfig

variable {α : Type}

/-- An equality on what is known is an equivalence there. -/
structure Equality (eq : α → α → Bool) (known : α → Prop) : Prop where
  refl : ∀ {a}, known a → eq a a = true
  symm : ∀ {a b}, known a → known b → eq a b = true → eq b a = true
  trans : ∀ {a b c}, known b → eq a b = true → eq b c = true → eq a c = true

namespace Members

/-- Some member is equal to an element. -/
def Among (eq : α → α → Bool) (members : List α) (element : α) : Prop :=
  ∃ member ∈ members, eq member element = true

/-- Members of which all are known and no two are equal. -/
structure Distinct (eq : α → α → Bool) (known : α → Prop) (members : List α) : Prop where
  each : ∀ member ∈ members, known member
  apart : members.Pairwise fun a b => eq a b = false

/-- Whatever is among some members is among others. -/
def Inside (eq : α → α → Bool) (known : α → Prop) (members others : List α) : Prop :=
  ∀ element, known element → Among eq members element → Among eq others element

variable {eq : α → α → Bool} {known : α → Prop} {element new : α} {elements members others : List α}

theorem contains_iff : contains eq element members = true ↔ Among eq members element :=
  List.any_eq_true

theorem not_among_nil : ¬ Among eq [] element :=
  fun ⟨_, listed, _⟩ => nomatch listed

theorem among_cons : Among eq (new :: members) element ↔ eq new element = true ∨ Among eq members element :=
  List.exists_mem_cons_iff ..

theorem among_append :
    Among eq (members ++ others) element ↔ Among eq members element ∨ Among eq others element := by
  simp only [Among, List.mem_append, or_and_right, exists_or]

theorem Distinct.nil : Distinct eq known [] :=
  ⟨nofun, .nil⟩

theorem Distinct.sublist (distinct : Distinct eq known members) (part : others.Sublist members) :
    Distinct eq known others :=
  ⟨fun member listed => distinct.each member (part.subset listed), distinct.apart.sublist part⟩

theorem Distinct.cons (distinct : Distinct eq known (new :: members)) : Distinct eq known members :=
  distinct.sublist (List.sublist_cons_self new members)

theorem Distinct.insertAll (distinct : Distinct eq known members) (added : ∀ element ∈ elements, known element) :
    Distinct eq known (insertAll eq elements members) :=
  ⟨fun member listed => (mem_insertAll listed).elim (added member) (distinct.each member),
    pairwise_insertAll distinct.apart⟩

theorem Distinct.insert (distinct : Distinct eq known members) (added : known new) :
    Distinct eq known (insert eq new members) :=
  ⟨fun _ listed => (mem_insert listed).elim (· ▸ added) (distinct.each _), pairwise_insert distinct.apart⟩

theorem Distinct.ofList (eq : α → α → Bool) (added : ∀ element ∈ elements, known element) :
    Distinct eq known (ofList eq elements) :=
  Distinct.nil.insertAll added

theorem Distinct.filter (distinct : Distinct eq known members) (keep : α → Bool) :
    Distinct eq known (members.filter keep) :=
  distinct.sublist List.filter_sublist

theorem isEmpty_ofList (eq : α → α → Bool) (elements : List α) :
    (ofList eq elements).isEmpty = elements.isEmpty := by
  cases elements with
  | nil => rfl
  | cons element elements =>
    have first : element ∈ Members.insertAll eq elements [element] :=
      mem_insertAll_of_mem (List.mem_singleton_self element)
    exact List.isEmpty_eq_false_iff.mpr (List.ne_nil_of_mem first)

theorem erase_sublist (eq : α → α → Bool) (element : α) (members : List α) :
    (erase eq element members).Sublist members := by
  induction members with
  | nil => exact .slnil
  | cons member members ih =>
    rw [erase]
    split
    · exact List.sublist_cons_self member members
    · exact ih.cons_cons member

theorem Distinct.erase (distinct : Distinct eq known members) (element : α) :
    Distinct eq known (erase eq element members) :=
  distinct.sublist (erase_sublist eq element members)

theorem Distinct.toggle (distinct : Distinct eq known members) (own : known new) :
    Distinct eq known (toggle eq members new) := by
  rw [Members.toggle]
  split
  · exact distinct.erase new
  · next absent =>
    have added := distinct.insert own
    rwa [Members.insert, if_neg absent] at added

theorem Distinct.not_among (equality : Equality eq known) (distinct : Distinct eq known (new :: members))
    (same : eq new element = true) (here : known element) : ¬ Among eq members element := by
  rintro ⟨member, listed, same'⟩
  have back := equality.symm (distinct.each member (List.mem_cons_of_mem _ listed)) here same'
  have equal := equality.trans here same back
  rw [(List.pairwise_cons.mp distinct.apart).1 member listed] at equal
  cases equal

section laws

variable (equality : Equality eq known)

include equality

theorem among_congr {other : α} (here : known element) (there : known other) (same : eq element other = true) :
    Among eq members element ↔ Among eq members other := by
  constructor
  · rintro ⟨member, listed, equal⟩
    exact ⟨member, listed, equality.trans here equal same⟩
  · rintro ⟨member, listed, equal⟩
    exact ⟨member, listed, equality.trans there equal (equality.symm here there same)⟩

theorem among_of_mem (added : known element) (listed : element ∈ members) : Among eq members element :=
  ⟨element, listed, equality.refl added⟩

theorem among_insert (added : known new) :
    Among eq (insert eq new members) element ↔ eq new element = true ∨ Among eq members element := by
  rw [insert]
  split
  · next present =>
    refine ⟨.inr, fun known => known.elim (fun same => ?_) id⟩
    obtain ⟨member, listed, equal⟩ := contains_iff.mp present
    exact ⟨member, listed, equality.trans added equal same⟩
  · rw [among_append, among_cons, or_iff_left not_among_nil, or_comm]

theorem among_insertAll (added : ∀ element ∈ elements, known element) :
    Among eq (insertAll eq elements members) element ↔
      Among eq elements element ∨ Among eq members element := by
  induction elements generalizing members with
  | nil => exact (or_iff_right not_among_nil).symm
  | cons first elements ih =>
    obtain ⟨here, later⟩ := List.forall_mem_cons.mp added
    change Among eq (insertAll eq elements (insert eq first members)) element ↔ _
    rw [ih later, among_insert equality here, among_cons]
    exact or_left_comm.trans or_assoc.symm

theorem among_ofList (added : ∀ element ∈ elements, known element) :
    Among eq (ofList eq elements) element ↔ Among eq elements element :=
  (among_insertAll equality added).trans (or_iff_left not_among_nil)

theorem among_diff (each : ∀ member ∈ members, known member) (here : known element) :
    Among eq (diff eq members others) element ↔ Among eq members element ∧ ¬ Among eq others element := by
  have kept {member : α} (listed : member ∈ members) (same : eq member element = true) :
      (!contains eq member others) = true ↔ ¬ Among eq others element := by
    rw [Bool.not_eq_true', ← Bool.not_eq_true, contains_iff,
      among_congr equality (each member listed) here same]
  constructor
  · rintro ⟨member, listed, same⟩
    obtain ⟨listed, keep⟩ := List.mem_filter.mp listed
    exact ⟨⟨member, listed, same⟩, (kept listed same).mp keep⟩
  · rintro ⟨⟨member, listed, same⟩, absent⟩
    exact ⟨member, List.mem_filter.mpr ⟨listed, (kept listed same).mpr absent⟩, same⟩

theorem among_symmDiff (each : ∀ member ∈ members, known member) (each' : ∀ member ∈ others, known member)
    (here : known element) :
    Among eq (symmDiff eq members others) element ↔
      Xor (Among eq members element) (Among eq others element) := by
  have back : ∀ member ∈ diff eq others members, known member := fun member listed =>
    each' member (List.mem_filter.mp listed).1
  rw [symmDiff, among_insertAll equality back, among_diff equality each here,
    among_diff equality each' here]
  exact or_comm

/-- Of equal members there is but one to be removed. -/
theorem among_erase (distinct : Distinct eq known members) (away : known new) (here : known element) :
    Among eq (erase eq new members) element ↔ Among eq members element ∧ ¬ eq new element = true := by
  induction members with
  | nil => exact ⟨fun among => absurd among not_among_nil, fun among => absurd among.1 not_among_nil⟩
  | cons member members ih =>
    have own := distinct.each member List.mem_cons_self
    rw [erase, among_cons]
    cases same : eq member new with
    | true =>
      rw [if_pos rfl]
      constructor
      · intro among
        refine ⟨.inr among, fun equal => ?_⟩
        exact distinct.not_among equality (equality.trans away same equal) here among
      · rintro ⟨equal | among, differ⟩
        · exact absurd (equality.trans own (equality.symm own away same) equal) differ
        · exact among
    | false =>
      have differ (equal : eq member element = true) : ¬ eq new element = true := by
        intro equal'
        rw [equality.trans here equal (equality.symm away here equal')] at same
        cases same
      rw [if_neg Bool.false_ne_true, among_cons, ih distinct.cons, or_and_right,
        and_iff_left_of_imp differ]

theorem among_inter (distinct : ∀ member ∈ others, known member) (here : known element) :
    Among eq (inter eq members others) element ↔ Among eq members element ∧ Among eq others element := by
  rw [inter, among_ofList equality fun other listed => distinct other (List.mem_filter.mp listed).1]
  have kept {other : α} (listed : other ∈ others) (same : eq other element = true) :
      contains eq other members = true ↔ Among eq members element := by
    rw [contains_iff, among_congr equality (distinct other listed) here same]
  constructor
  · rintro ⟨other, listed, same⟩
    obtain ⟨listed, keep⟩ := List.mem_filter.mp listed
    exact ⟨(kept listed same).mp keep, other, listed, same⟩
  · rintro ⟨among, other, listed, same⟩
    exact ⟨other, List.mem_filter.mpr ⟨listed, (kept listed same).mpr among⟩, same⟩

theorem eraseAll (distinct : Distinct eq known members) (away : ∀ element ∈ elements, known element) :
    Distinct eq known (elements.foldl (fun members element => erase eq element members) members) ∧
      ∀ element, known element →
        (Among eq (elements.foldl (fun members element => erase eq element members) members) element ↔
          Among eq members element ∧ ¬ Among eq elements element) := by
  induction elements generalizing members with
  | nil => exact ⟨distinct, fun element _ => (and_iff_left not_among_nil).symm⟩
  | cons first elements ih =>
    obtain ⟨own, away⟩ := List.forall_mem_cons.mp away
    obtain ⟨kept, among⟩ := ih (distinct.erase first) away
    refine ⟨kept, fun element here => (among element here).trans ?_⟩
    rw [among_erase equality distinct own here, among_cons, not_or, and_assoc]

theorem among_toggle (distinct : Distinct eq known members) (own : known new) (here : known element) :
    Among eq (toggle eq members new) element ↔ Xor (Among eq members element) (eq new element = true) := by
  rw [toggle]
  split
  · next present =>
    have among (same : eq new element = true) : Among eq members element :=
      (among_congr equality own here same).mp (contains_iff.mp present)
    rw [among_erase equality distinct own here]
    exact ⟨.inl, fun either => either.resolve_right fun ⟨same, absent⟩ => absent (among same)⟩
  · next absent =>
    have differ (same : eq new element = true) : ¬ Among eq members element := fun among =>
      absent (contains_iff.mpr ((among_congr equality own here same).mpr among))
    rw [among_append, among_cons, or_iff_left not_among_nil]
    constructor
    · rintro (among | same)
      · exact .inl ⟨among, fun same => differ same among⟩
      · exact .inr ⟨same, differ same⟩
    · exact fun either => either.imp And.left And.left

/-- Adding and removing one after the other the members of another set, in which no two are equal. -/
theorem toggleAll (distinct : Distinct eq known members) (distinct' : Distinct eq known others) :
    Distinct eq known (others.foldl (toggle eq) members) ∧ ∀ element, known element →
      (Among eq (others.foldl (toggle eq) members) element ↔
        Xor (Among eq members element) (Among eq others element)) := by
  induction others generalizing members with
  | nil =>
    refine ⟨distinct, fun element _ => ?_⟩
    exact ⟨fun among => .inl ⟨among, not_among_nil⟩, fun either =>
      either.elim And.left fun among => absurd among.1 not_among_nil⟩
  | cons other others ih =>
    have own := distinct'.each other List.mem_cons_self
    obtain ⟨kept, among⟩ := ih (distinct.toggle own) distinct'.cons
    refine ⟨kept, fun element here => (among element here).trans ?_⟩
    rw [among_toggle equality distinct own here, among_cons]
    by_cases same : eq other element = true
    · simp [same, distinct'.not_among equality same here, xor_comm]
    · simp [same, Xor]

theorem Distinct.perm (distinct : Distinct eq known members) (perm : others.Perm members) :
    Distinct eq known others where
  each := fun member listed => distinct.each member (perm.mem_iff.mp listed)
  apart := by
    have both : members.Pairwise fun a b => eq a b = false ∧ eq b a = false := by
      refine distinct.apart.imp_of_mem fun {a b} first second differ => ⟨differ, ?_⟩
      refine Bool.eq_false_iff.mpr fun same => Bool.eq_false_iff.mp differ ?_
      exact equality.symm (distinct.each b second) (distinct.each a first) same
    exact (both.perm perm.symm And.symm).imp And.left

theorem subset_iff (each : ∀ member ∈ members, known member) :
    subset eq members others = true ↔ Inside eq known members others := by
  rw [subset, List.all_eq_true]
  constructor
  · rintro within element here ⟨member, listed, same⟩
    exact (among_congr equality (each member listed) here same).mp (contains_iff.mp (within member listed))
  · intro inside member listed
    exact contains_iff.mpr (inside member (each member listed)
      (among_of_mem equality (each member listed) listed))

omit equality in
theorem length_erase (among : Among eq members element) :
    (erase eq element members).length + 1 = members.length := by
  induction members with
  | nil => exact absurd among not_among_nil
  | cons member members ih =>
    rw [erase]
    split
    · rfl
    · next differ => rw [List.length_cons, List.length_cons, ih ((among_cons.mp among).resolve_left differ)]

theorem Inside.length_le (distinct : Distinct eq known members) (distinct' : Distinct eq known others)
    (inside : Inside eq known members others) : members.length ≤ others.length := by
  induction members generalizing others with
  | nil => exact Nat.zero_le _
  | cons member members ih =>
    have own := distinct.each member List.mem_cons_self
    have among : Among eq others member := inside member own (among_cons.mpr (.inl (equality.refl own)))
    have rest : Inside eq known members (erase eq member others) := by
      intro element here later
      refine (among_erase equality distinct' own here).mpr ⟨inside element here (among_cons.mpr (.inr later)), ?_⟩
      exact fun same => distinct.not_among equality same here later
    have shorter := ih distinct.cons (distinct'.erase member) rest
    have length := length_erase among
    rw [List.length_cons]
    omega

/-- A set that is inside another and not smaller is all of it. -/
theorem Inside.symm (distinct : Distinct eq known members) (distinct' : Distinct eq known others)
    (inside : Inside eq known members others) (length : others.length ≤ members.length) :
    Inside eq known others members := by
  intro element here among
  by_contra absent
  have rest : Inside eq known members (erase eq element others) := by
    intro other there listed
    refine (among_erase equality distinct' here there).mpr ⟨inside other there listed, fun same => ?_⟩
    exact absent ((among_congr equality here there same).mpr listed)
  have shorter := rest.length_le equality distinct (distinct'.erase element)
  have length' := length_erase among
  omega

end laws

end Members

namespace Entries

open Members

variable {ν : Type} {eq : α → α → Bool} {known : α → Prop} {key : α} {value : ν} {entry : α × ν}
  {entries others : List (α × ν)}

theorem keys_erase (eq : α → α → Bool) (key : α) (entries : List (α × ν)) :
    (erase eq key entries).map (·.1) = Members.erase eq key (entries.map (·.1)) := by
  induction entries with
  | nil => rfl
  | cons entry entries ih =>
    rw [erase, List.map_cons, Members.erase]
    split
    · rfl
    · rw [List.map_cons, ih]

theorem mem_of_mem_put (listed : entry ∈ put eq key value entries) (other : entry.1 ≠ key)
    (differ : ¬ eq entry.1 key = true) : entry ∈ entries := by
  induction entries with
  | nil =>
    obtain rfl := List.mem_singleton.mp listed
    exact absurd rfl other
  | cons first entries ih =>
    rw [put] at listed
    split at listed
    · next same =>
      rcases List.mem_cons.mp listed with rfl | later
      · exact absurd same differ
      · exact List.mem_cons_of_mem _ later
    · rcases List.mem_cons.mp listed with rfl | later
      · exact List.mem_cons_self
      · exact List.mem_cons_of_mem _ (ih later)

theorem find?_eq_none_iff : find? eq key entries = none ↔ ¬ Among eq (entries.map (·.1)) key := by
  induction entries with
  | nil => exact iff_of_true rfl not_among_nil
  | cons entry entries ih =>
    rw [find?, List.map_cons, among_cons]
    split
    · next same => exact iff_of_false (Option.some_ne_none _) fun absent => absent (.inl same)
    · next differ => rw [ih, or_iff_right differ]

theorem erase_of_not_among (absent : ¬ Among eq (entries.map (·.1)) key) : erase eq key entries = entries := by
  induction entries with
  | nil => rfl
  | cons entry entries ih =>
    rw [List.map_cons, among_cons, not_or] at absent
    rw [erase, if_neg absent.1, ih absent.2]

theorem distinct_put (distinct : Distinct eq known (entries.map (·.1))) (here : known key) :
    Distinct eq known ((put eq key value entries).map (·.1)) := by
  rw [keys_put]
  exact distinct.insert here

theorem distinct_erase (distinct : Distinct eq known (entries.map (·.1))) (key : α) :
    Distinct eq known ((erase eq key entries).map (·.1)) := by
  rw [keys_erase]
  exact distinct.erase key

section laws

variable (equality : Equality eq known)

include equality

/-- Where no two keys are equal, an entry is found under every key that equals its own. -/
theorem find?_of_same (distinct : Distinct eq known (entries.map (·.1))) (listed : entry ∈ entries)
    (here : known key) (same : eq entry.1 key = true) : find? eq key entries = some entry.2 := by
  induction entries with
  | nil => cases listed
  | cons first entries ih =>
    rw [find?]
    split
    · next equal =>
      rcases List.mem_cons.mp listed with rfl | later
      · rfl
      · exact absurd ⟨entry.1, List.mem_map_of_mem later, same⟩ (distinct.not_among equality equal here)
    · next differ =>
      rcases List.mem_cons.mp listed with rfl | later
      · exact absurd same differ
      · exact ih distinct.cons later

/-- The entries after a key is given a value: that of the key, with this value, and the others. -/
theorem mem_put_cases (distinct : Distinct eq known (entries.map (·.1))) (here : known key)
    (listed : entry ∈ put eq key value entries) :
    eq entry.1 key = true ∧ entry.2 = value ∨ ¬ eq entry.1 key = true ∧ entry ∈ entries := by
  by_cases same : eq entry.1 key = true
  · have found := find?_of_same equality (distinct_put distinct here) listed here same
    rw [find?_put_self (equality.refl here)] at found
    exact .inl ⟨same, (Option.some.inj found).symm⟩
  · have other : entry.1 ≠ key := by
      rintro rfl
      exact same (equality.refl here)
    exact .inr ⟨same, mem_of_mem_put listed other same⟩

theorem mem_erase_cases (distinct : Distinct eq known (entries.map (·.1))) (here : known key)
    (listed : entry ∈ erase eq key entries) : ¬ eq key entry.1 = true ∧ entry ∈ entries := by
  have own : entry.1 ∈ Members.erase eq key (entries.map (·.1)) :=
    keys_erase eq key entries ▸ List.mem_map_of_mem listed
  have known := (distinct.erase key).each entry.1 own
  exact ⟨((among_erase equality distinct here known).mp (among_of_mem equality known own)).2, mem_erase listed⟩

/-- The last entry is the one that is removed with its key. -/
theorem erase_last (distinct : Distinct eq known ((entries ++ [entry]).map (·.1))) :
    erase eq entry.1 (entries ++ [entry]) = entries := by
  induction entries with
  | nil =>
    have itself := equality.refl (distinct.each entry.1 (List.mem_singleton_self _))
    simp [erase, itself]
  | cons first entries ih =>
    have apart := (List.pairwise_cons.mp distinct.apart).1 entry.1 (by simp)
    rw [List.cons_append, erase, if_neg (by simp [apart]), ih distinct.cons]

end laws

end Entries

end LayeredConfig
