import LayeredConfig.Proofs.Container.Entries
import LayeredConfig.Schema

namespace LayeredConfig

/-- The first of some elements with a property. -/
def First (good : α → Prop) (elements : List α) (element : α) : Prop :=
  good element ∧ ∃ before after, elements = before ++ element :: after ∧ ∀ other ∈ before, ¬ good other

theorem First.mem {good : α → Prop} {element : α} {elements : List α} (first : First good elements element) :
    element ∈ elements := by
  obtain ⟨-, before, after, rfl, -⟩ := first
  exact List.mem_append_right _ List.mem_cons_self

theorem First.head {good : α → Prop} {element : α} (here : good element) (elements : List α) :
    First good (element :: elements) element :=
  ⟨here, [], elements, rfl, by simp⟩

theorem First.tail {good : α → Prop} {passed element : α} {elements : List α} (bad : ¬ good passed)
    (first : First good elements element) : First good (passed :: elements) element := by
  obtain ⟨here, before, after, rfl, free⟩ := first
  exact ⟨here, passed :: before, after, rfl, List.forall_mem_cons.mpr ⟨bad, free⟩⟩

theorem First.unique {good : α → Prop} {element other : α} {elements : List α}
    (first : First good elements element) (also : First good elements other) : element = other := by
  obtain ⟨here, before, after, rfl, free⟩ := first
  obtain ⟨there, before', after', split, free'⟩ := also
  rcases List.append_eq_append_iff.mp split with ⟨between, rfl, tail⟩ | ⟨between, rfl, tail⟩
  all_goals cases between with
  | nil => simp_all
  | cons next between => simp_all

theorem find?_eq_some_iff_first {test : α → Bool} {elements : List α} {element : α} :
    elements.find? test = some element ↔ First (test · = true) elements element := by
  simp [List.find?_eq_some_iff_append, First]

namespace Enumeration

/-- The names of the members, other names included. -/
def names (type : Enumeration) : List String :=
  type.members.map (·.1)

/-- A member is the first one whose value equals a given one. -/
inductive Valued (type : Enumeration) (value : Value) : Value → Prop
  | intro (first : First (fun own : String × Value => own.2.eqv value = true) type.canonical (title, own)) :
      Valued type value (.member type.name title own)

/-- A name stands for a member: it is the name of the member or another one. -/
inductive Titled (type : Enumeration) (name : String) : Value → Prop
  | own (first : First (fun own : String × Value => own.1 = name) type.canonical (name, value)) :
      Titled type name (.member type.name name value)
  | other (free : ∀ own ∈ type.canonical, own.1 ≠ name)
      (first : First (fun listed : String × Value => listed.1 = name) type.members (name, value))
      (valued : type.Valued value member) : Titled type name member

section standsFor

variable {type : Enumeration} {name : String} {member : Value}

theorem first?_eq_some_iff {test : String × Value → Bool} :
    type.first? test = some member ↔
      ∃ title own, First (test · = true) type.canonical (title, own) ∧
        member = .member type.name title own := by
  rw [first?, Option.map_eq_some_iff]
  constructor
  · intro found
    obtain ⟨⟨title, own⟩, here, rfl⟩ := found
    exact ⟨title, own, find?_eq_some_iff_first.mp here, rfl⟩
  · intro found
    obtain ⟨title, own, first, rfl⟩ := found
    exact ⟨(title, own), find?_eq_some_iff_first.mpr first, rfl⟩

theorem withValue?_eq_some_iff {value : Value} :
    type.withValue? value = some member ↔ type.Valued value member := by
  rw [withValue?, first?_eq_some_iff]
  constructor
  · intro found
    obtain ⟨title, own, first, rfl⟩ := found
    exact .intro first
  · intro valued
    obtain ⟨first⟩ := valued
    exact ⟨_, _, first, rfl⟩

theorem withValue?_isSome_iff {value : Value} :
    (type.withValue? value).isSome = true ↔ ∃ own ∈ type.canonical, own.2.eqv value = true := by
  rw [withValue?, first?, Option.isSome_map, List.find?_isSome]

theorem lookup_eq_some_iff_first {value : Value} :
    type.members.lookup name = some value ↔
      First (fun listed : String × Value => listed.1 = name) type.members (name, value) := by
  simp only [List.lookup_eq_some_iff, First, bne_iff_ne, ne_eq, true_and]
  simp only [@eq_comm _ name]

theorem named?_eq_some_iff : type.named? name = some member ↔ type.Titled name member := by
  rw [named?, Option.or_eq_some_iff, first?_eq_some_iff]
  simp only [beq_iff_eq]
  constructor
  · intro found
    rcases found with ⟨title, own, first, rfl⟩ | ⟨free, other⟩
    · obtain rfl := first.1
      exact .own first
    · obtain ⟨value, listed, valued⟩ := Option.bind_eq_some_iff.mp other
      refine .other (fun own canonical => ?_) (lookup_eq_some_iff_first.mp listed)
        (withValue?_eq_some_iff.mp valued)
      have absent := List.find?_eq_none.mp (Option.map_eq_none_iff.mp free) own canonical
      simpa using absent
  · intro titled
    cases titled with
    | own first => exact .inl ⟨_, _, first, rfl⟩
    | other free first valued =>
      refine .inr ⟨?_, Option.bind_eq_some_iff.mpr ⟨_, lookup_eq_some_iff_first.mpr first,
        withValue?_eq_some_iff.mpr valued⟩⟩
      exact Option.map_eq_none_iff.mpr (List.find?_eq_none.mpr fun own canonical => by
        simpa using free own canonical)

/-- Every name of an enumeration stands for a member, and nothing else does. -/
theorem named?_isSome_iff : (type.named? name).isSome = true ↔ name ∈ type.names := by
  have own : (type.first? (·.1 == name)).isSome = true ↔ ∃ own ∈ type.canonical, own.1 = name := by
    simp [first?]
  constructor
  · intro found
    obtain ⟨member, known⟩ := Option.isSome_iff_exists.mp found
    cases named?_eq_some_iff.mp known with
    | own first =>
      obtain ⟨-, before, after, same, -⟩ := first
      have canonical : (name, _) ∈ type.canonical := same ▸ List.mem_append_right _ List.mem_cons_self
      exact List.mem_map_of_mem ((Members.mem_insertAll canonical).resolve_right nofun)
    | other free first valued =>
      obtain ⟨-, before, after, same, -⟩ := first
      exact List.mem_map_of_mem (same ▸ List.mem_append_right _ List.mem_cons_self)
  · intro listed
    rw [named?, Option.isSome_or, Bool.or_eq_true, own]
    obtain ⟨⟨title, value⟩, member, rfl⟩ := List.mem_map.mp listed
    have some : (type.members.lookup title).isSome = true :=
      List.lookup_isSome_iff.mpr ⟨(title, value), member, by simp⟩
    obtain ⟨value, found⟩ := Option.isSome_iff_exists.mp some
    obtain ⟨-, before, after, same, -⟩ := lookup_eq_some_iff_first.mp found
    have here : (title, value) ∈ type.members := same ▸ List.mem_append_right _ List.mem_cons_self
    have known : (title, value) ∈ type.canonical ∨
        Members.contains (fun known member => known.2.eqv member.2) (title, value) type.canonical =
          true := Members.mem_insertAll_self here
    rcases known with canonical | equal
    · exact .inl ⟨_, canonical, rfl⟩
    · obtain ⟨holder, canonical, equal⟩ := List.any_eq_true.mp equal
      refine .inr ?_
      rw [found, Option.bind_some]
      exact withValue?_isSome_iff.mpr ⟨holder, canonical, equal⟩

end standsFor

end Enumeration

end LayeredConfig
