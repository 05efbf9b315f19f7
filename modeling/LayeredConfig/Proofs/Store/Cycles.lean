import Mathlib.Data.List.Perm.Subperm
import LayeredConfig.Proofs.Store.Views

namespace LayeredConfig.Store

open Relation

variable {store later : Store} {item : Item}

/-- No object of an item lies in itself at any depth. -/
def Acyclic (store : Store) (item : Item) : Prop :=
  ∀ identity, store.Owned item identity → ¬ TransGen store.Part identity identity

/-- All objects of an item are there. -/
def Present (store : Store) (item : Item) : Prop :=
  ∀ identity, store.Owned item identity → identity < store.cells.length

theorem isSome_view_object {depth : Nat} {identity : Identity} :
    (store.view (depth + 1) (.object identity)).isSome ↔
      ∃ cell, store.read? identity = some cell ∧ ∀ item ∈ cell.items, (store.view depth item).isSome := by
  rw [view_object]
  cases store.read? identity with
  | none => simp
  | some cell => simp [Cell.isSome_value?_iff]

/-- What can be seen of an object can be seen of its parts. -/
theorem isSome_view_part {depth : Nat} {whole part : Identity} (lies : store.Part whole part)
    (shown : (store.view (depth + 1) (.object whole)).isSome) : (store.view depth (.object part)).isSome := by
  obtain ⟨cell, found, listed⟩ := lies
  obtain ⟨same, here, each⟩ := isSome_view_object.mp shown
  obtain rfl := Option.some.inj (found.symm.trans here)
  exact each _ listed

/-- Going around a cycle never ends: at every depth there is more to see. -/
theorem not_cycle_of_view {depth : Nat} {identity : Identity}
    (shown : (store.view depth (.object identity)).isSome) : ¬ TransGen store.Part identity identity := by
  induction depth generalizing identity with
  | zero => cases shown
  | succ depth ih =>
    intro cycle
    obtain ⟨part, lies, back⟩ := TransGen.head'_iff.mp cycle
    exact ih (isSome_view_part lies shown) (TransGen.tail' back lies)

theorem exists_view_of_reaches {root identity : Identity} (reaches : store.Reaches root identity)
    {depth : Nat} (shown : (store.view depth (.object root)).isSome) :
    ∃ depth, (store.view depth (.object identity)).isSome := by
  induction reaches with
  | refl => exact ⟨depth, shown⟩
  | tail _ lies ih =>
    obtain ⟨depth, shown⟩ := ih
    cases depth with
    | zero => cases shown
    | succ depth => exact ⟨depth, isSome_view_part lies shown⟩

theorem acyclic_of_view {depth : Nat} (shown : (store.view depth item).isSome) : store.Acyclic item := by
  rintro identity ⟨root, rfl, reaches⟩
  obtain ⟨depth, shown⟩ := exists_view_of_reaches reaches shown
  exact not_cycle_of_view shown

/-- Different objects are not more than there are. -/
theorem length_lt_of_new {above : List Identity} {count identity : Nat} (distinct : above.Nodup)
    (bound : ∀ other ∈ above, other < count) (new : identity ∉ above) (here : identity < count) :
    above.length < count := by
  have all : identity :: above ⊆ List.range count := by
    intro other listed
    rcases List.mem_cons.mp listed with rfl | listed
    · exact List.mem_range.mpr here
    · exact List.mem_range.mpr (bound other listed)
  have fits := ((List.nodup_cons.mpr ⟨new, distinct⟩).subperm all).length_le
  rwa [List.length_range] at fits

/-- An object that lies in others, but not in itself, is none of these. -/
theorem not_mem_of_lies {above : List Identity} {identity : Identity}
    (lies : ∀ whole ∈ above, TransGen store.Part whole identity)
    (free : ¬ TransGen store.Part identity identity) : identity ∉ above :=
  fun listed => free (lies identity listed)

/-- Going down from an item without cycles never comes to an object above, so it ends in as many steps as
there are objects left. -/
theorem view_of_acyclic {depth : Nat} {above : List Identity} (distinct : above.Nodup)
    (bound : ∀ identity ∈ above, identity < store.cells.length)
    (left : above.length + depth = store.cells.length)
    (lies : ∀ whole ∈ above, ∀ identity, item = .object identity → TransGen store.Part whole identity)
    (present : store.Present item) (acyclic : store.Acyclic item) : (store.view depth item).isSome := by
  -- With every object that we go down, one more is above and one step less is left.
  induction depth generalizing above item with
  | zero =>
    cases item with
    | value value => rfl
    | object identity =>
      have here := present identity (owned_self identity)
      have new : identity ∉ above := not_mem_of_lies (fun whole listed => lies whole listed identity rfl)
        (acyclic identity (owned_self identity))
      exact absurd (length_lt_of_new distinct bound new here) (by omega)
  | succ depth ih =>
    cases item with
    | value value => rfl
    | object identity =>
      have here := present identity (owned_self identity)
      have new : identity ∉ above := not_mem_of_lies (fun whole listed => lies whole listed identity rfl)
        (acyclic identity (owned_self identity))
      obtain ⟨cell, found⟩ : ∃ cell, store.read? identity = some cell :=
        ⟨_, List.getElem?_eq_getElem here⟩
      refine isSome_view_object.mpr ⟨cell, found, fun item listed => ?_⟩
      have part {other : Identity} : store.Owned item other → store.Owned (.object identity) other :=
        owned_of_part found listed
      refine ih (List.nodup_cons.mpr ⟨new, distinct⟩) (List.forall_mem_cons.mpr ⟨here, bound⟩)
        (by rw [List.length_cons]; omega) ?_ (fun other owned => present other (part owned))
        (fun other owned => acyclic other (part owned))
      rintro whole above other rfl
      have lies' : store.Part identity other := ⟨cell, found, listed⟩
      rcases List.mem_cons.mp above with rfl | above
      · exact .single lies'
      · exact (lies whole above identity rfl).tail lies'

/-- An item shows a value if and only if it is free of cycles. -/
theorem isSome_value?_iff (present : store.Present item) :
    (store.value? item).isSome ↔ store.Acyclic item := by
  constructor
  · exact acyclic_of_view
  · exact view_of_acyclic List.nodup_nil (List.forall_mem_nil _) (Nat.zero_add _) (List.forall_mem_nil _) present

/-- What an item shows stays, also that it shows nothing, as long as its objects stay as they are. -/
theorem Keeps.value?_eq (present : store.Present item) (keeps : store.Keeps later item) :
    later.value? item = store.value? item := by
  cases shown : store.value? item with
  | some value => exact keeps.value? shown
  | none =>
    by_contra changed
    obtain ⟨value, shown'⟩ := Option.ne_none_iff_exists'.mp changed
    have back : later.Holds store item := by
      intro identity owned cell found
      exact (keeps.same identity ((keeps.owned_iff identity).mp owned)).symm.trans found
    have here := view_of_holds (Nat.le_refl _) back shown'
    have acyclic := acyclic_of_view (Option.isSome_iff_exists.mpr ⟨value, here⟩)
    have whole := (isSome_value?_iff present).mpr acyclic
    rw [shown] at whole
    cases whole

end LayeredConfig.Store
