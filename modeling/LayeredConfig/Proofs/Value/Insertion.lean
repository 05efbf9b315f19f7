import LayeredConfig.Proofs.Value.Origins

namespace LayeredConfig.Value

/-- Two values that differ in the order of the members of sets only, at any depth. Keys, names and marks are the
same. -/
inductive Reordered : Value → Value → Prop
  | scalar (value : Scalar) : Reordered (.scalar value) (.scalar value)
  | member (enumeration name : String) (value value' : Value) :
      Reordered (.member enumeration name value) (.member enumeration name value')
  | seq {kind : SeqKind} {items items' : List Value} (length : items.length = items'.length)
      (parts : ∀ pair ∈ items.zip items', Reordered pair.1 pair.2) : Reordered (.seq kind items) (.seq kind items')
  | set {kind : SetKind} {members middle members' : List Value} (perm : members.Perm middle)
      (length : middle.length = members'.length) (parts : ∀ pair ∈ middle.zip members', Reordered pair.1 pair.2) :
      Reordered (.set kind members) (.set kind members')
  | dict {kind : DictKind} {entries entries' : List (Value × Value)} (length : entries.length = entries'.length)
      (keys : ∀ pair ∈ entries.zip entries', pair.1.1 = pair.2.1)
      (parts : ∀ pair ∈ entries.zip entries', Reordered pair.1.2 pair.2.2) :
      Reordered (.dict kind entries) (.dict kind entries')
  | document {type : String} {slots slots' : List (Slot Value)} (length : slots.length = slots'.length)
      (marks : ∀ pair ∈ slots.zip slots', pair.1.name = pair.2.name ∧ pair.1.explicit = pair.2.explicit)
      (parts : ∀ pair ∈ slots.zip slots', Reordered pair.1.value pair.2.value) :
      Reordered (.document type slots) (.document type slots')

theorem Reordered.refl (value : Value) : value.Reordered value := by
  induction value with
  | scalar value => exact .scalar value
  | member enumeration name value => exact .member enumeration name value value
  | seq kind items ih => exact .seq rfl (forall_zip_of_forall₂ (List.forall₂_same.mpr ih))
  | set kind members ih => exact .set (.refl members) rfl (forall_zip_of_forall₂ (List.forall₂_same.mpr ih))
  | dict kind entries ihKeys ihValues =>
    have keys : List.Forall₂ (fun entry entry' : Value × Value => entry.1 = entry'.1) entries entries :=
      List.forall₂_same.mpr fun _ _ => rfl
    have values : List.Forall₂ (fun entry entry' : Value × Value => entry.2.Reordered entry'.2) entries entries :=
      List.forall₂_same.mpr ihValues
    exact .dict rfl (forall_zip_of_forall₂ keys) (forall_zip_of_forall₂ values)
  | document type slots ih =>
    have marks : List.Forall₂ (fun slot slot' : Slot Value => slot.name = slot'.name ∧ slot.explicit = slot'.explicit)
        slots slots := List.forall₂_same.mpr fun _ _ => ⟨rfl, rfl⟩
    have values : List.Forall₂ (fun slot slot' : Slot Value => slot.value.Reordered slot'.value) slots slots :=
      List.forall₂_same.mpr ih
    exact .document rfl (forall_zip_of_forall₂ marks) (forall_zip_of_forall₂ values)

theorem Reordered.of_perm {kind : SetKind} {members members' : List Value} (perm : members.Perm members') :
    (Value.set kind members).Reordered (.set kind members') :=
  .set perm rfl (forall_zip_of_forall₂ (List.forall₂_same.mpr fun member _ => .refl member))

/-- The results in a set that are not numbers are one object. -/
def Uniform : Value → Prop
  | .set _ members => ∃ origin, ∀ member ∈ members, member.withOrigin origin = member
  | _ => True

variable {value other : Value}

/-- A view of plain forms that is taken part by part, and in which they are displayed as before. -/
structure Passes (view : Value → Value) : Prop where
  list : ∀ items, view (.seq .list items) = .seq .list (items.map view)
  dict : ∀ entries, view (.dict .plain entries) = .dict .plain (entries.map fun entry => (entry.1, view entry.2))
  display : ∀ value, (view value).display = value.display
  writable : ∀ value, (view value).writable = value.writable

theorem passes_id : Passes id where
  list items := congrArg (Value.seq .list) (List.map_id items).symm
  dict entries := congrArg (Value.dict .plain) (List.map_id entries).symm
  display _ := rfl
  writable _ := rfl

theorem passes_withOrigin (origin : Nat) : Passes (withOrigin origin) where
  list items := congrArg (Value.seq .list) (allWithOrigin_eq origin items)
  dict entries := congrArg (Value.dict .plain) (entriesWithOrigin_eq origin entries)
  display := display_withOrigin origin
  writable := writable_withOrigin origin

/-- Displayed forms tell the plain forms of the members of a set apart, as far as a view does. -/
def ToldIn (view : Value → Value) : Value → Prop
  | .set _ members => ∀ a ∈ members, ∀ b ∈ members, a.toPlain.display = b.toPlain.display →
      view a.toPlain = view b.toPlain
  | _ => True

/-- What a plain form takes of a part: whether it can be sorted, and the view of its plain form. -/
def share (view : Value → Value) (value : Value) : Bool × Value :=
  (value.sortable, view value.toPlain)

theorem plain?_eq_of_share {view : Value → Value} (shares : value.share view = other.share view) :
    value.plain?.map view = other.plain?.map view := by
  obtain ⟨sorted, plain⟩ := Prod.mk.inj shares
  rw [plain?, plain?, sorted]
  split
  · exact congrArg Except.ok plain
  · rfl

section share

variable {view : Value → Value} (passes : Passes view)

include passes

theorem share_seq {kind : SeqKind} {items others : List Value}
    (shares : items.map (share view) = others.map (share view)) :
    (Value.seq kind items).share view = (Value.seq kind others).share view := by
  have sorted := congrArg (List.map Prod.fst) shares
  have plain := congrArg (List.map Prod.snd) shares
  simp only [List.map_map] at sorted plain
  refine Prod.ext ?_ ?_
  · change allSortable items = allSortable others
    rw [allSortable_eq, allSortable_eq]
    exact congrArg (List.all · id) sorted
  · change view (.seq .list (plainAll items)) = view (.seq .list (plainAll others))
    rw [plainAll_eq, plainAll_eq, passes.list, passes.list, List.map_map, List.map_map]
    exact congrArg (Value.seq .list) plain

/-- In any order the members of a set give one list. -/
theorem share_set {kind : SetKind} {members others : List Value} (told : (Value.set kind members).ToldIn view)
    (shares : (members.map (share view)).Perm (others.map (share view))) :
    (Value.set kind members).share view = (Value.set kind others).share view := by
  have sorted := shares.map Prod.fst
  have plain := shares.map Prod.snd
  have written := plain.map writable
  simp only [List.map_map, Function.comp_def, share, passes.writable] at sorted plain written
  refine Prod.ext ?_ ?_
  · change (allSortable members && allWritable (plainAll members)) =
      (allSortable others && allWritable (plainAll others))
    rw [allSortable_eq, allSortable_eq, plainAll_eq, plainAll_eq, allWritable_eq, allWritable_eq, List.map_map,
      List.map_map]
    exact congrArg₂ and sorted.all_eq written.all_eq
  · change view (.seq .list (sortByDisplay (plainAll members))) =
      view (.seq .list (sortByDisplay (plainAll others)))
    rw [plainAll_eq, plainAll_eq, passes.list, passes.list, ← sortByDisplay_map passes.display,
      ← sortByDisplay_map passes.display, List.map_map, List.map_map]
    refine congrArg (Value.seq .list) (sortByDisplay_eq_of_told ?_ plain)
    simp only [List.forall_mem_map, Function.comp_apply, passes.display]
    exact told

theorem share_dict {kind : DictKind} {entries others : List (Value × Value)}
    (shares : (entries.map fun entry => (entry.1, entry.2.share view)) =
      others.map fun entry => (entry.1, entry.2.share view)) :
    (Value.dict kind entries).share view = (Value.dict kind others).share view := by
  have sorted := congrArg (List.map fun part => part.2.1) shares
  have plain := congrArg (List.map fun part => (part.1, part.2.2)) shares
  simp only [List.map_map] at sorted plain
  refine Prod.ext ?_ ?_
  · change entriesSortable entries = entriesSortable others
    rw [entriesSortable_eq, entriesSortable_eq]
    exact congrArg (List.all · id) sorted
  · change view (.dict .plain (plainEntries entries)) = view (.dict .plain (plainEntries others))
    rw [plainEntries_eq, plainEntries_eq, passes.dict, passes.dict, List.map_map, List.map_map]
    exact congrArg (Value.dict .plain) plain

theorem share_document {type : String} {slots others : List (Slot Value)}
    (shares : (slots.map fun slot => (slot.name, slot.value.share view)) =
      others.map fun slot => (slot.name, slot.value.share view)) :
    (Value.document type slots).share view = (Value.document type others).share view := by
  have sorted := congrArg (List.map fun part => part.2.1) shares
  have plain := congrArg (List.map fun part => (Value.str part.1, part.2.2)) shares
  simp only [List.map_map] at sorted plain
  refine Prod.ext ?_ ?_
  · change slotsSortable slots = slotsSortable others
    rw [slotsSortable_eq, slotsSortable_eq]
    exact congrArg (List.all · id) sorted
  · change view (.dict .plain (plainSlots slots)) = view (.dict .plain (plainSlots others))
    rw [plainSlots_eq, plainSlots_eq, passes.dict, passes.dict, List.map_map, List.map_map]
    exact congrArg (Value.dict .plain) plain

/-- Reordered values have one plain form in a view that tells members apart, or both have none. -/
theorem Reordered.share_eq (reordered : value.Reordered other)
    (told : ∀ part, Occurs part value → part.ToldIn view) : value.share view = other.share view := by
  induction reordered with
  | scalar value => rfl
  | member enumeration name value value' => rfl
  | @seq kind items items' length parts ih =>
    rw [forall_occurs_seq] at told
    refine share_seq passes (map_eq_of_forall₂ (forall₂_of_zip length fun pair beside => ?_))
    exact ih pair beside (told.2 _ (List.of_mem_zip beside).1)
  | @set kind members middle members' perm length parts ih =>
    rw [forall_occurs_set] at told
    have along : middle.map (share view) = members'.map (share view) := by
      refine map_eq_of_forall₂ (forall₂_of_zip length fun pair beside => ?_)
      exact ih pair beside (told.2 _ (perm.mem_iff.mpr (List.of_mem_zip beside).1))
    exact share_set passes told.1 (along ▸ perm.map _)
  | @dict kind entries entries' length keys parts ih =>
    rw [forall_occurs_dict] at told
    refine share_dict passes (map_eq_of_forall₂ (forall₂_of_zip length fun pair beside => ?_))
    exact Prod.ext (keys pair beside) (ih pair beside (told.2.2 _ (List.of_mem_zip beside).1))
  | @document type slots slots' length marks parts ih =>
    rw [forall_occurs_document] at told
    refine share_document passes (map_eq_of_forall₂ (forall₂_of_zip length fun pair beside => ?_))
    exact Prod.ext (marks pair beside).1 (ih pair beside (told.2 _ (List.of_mem_zip beside).1))

end share

section told

variable (frozen : ∀ part, Occurs part value → part.Frozen)

include frozen

/-- Displayed forms tell the plain forms of members apart, but for the origins in them. -/
theorem toldIn_withOrigin (origin : Nat) : value.ToldIn (withOrigin origin) := by
  cases value with
  | set kind members =>
    rw [forall_occurs_set] at frozen
    have flat {member : Value} (listed : member ∈ members) : Flat member.toPlain :=
      flat_of_hashable (frozen.1 member listed) (frozen.2 member listed)
    exact fun a listed b listed' same => (flat listed).withOrigin_eq (flat listed') same origin
  | _ => trivial

/-- Where there is one origin, they tell the plain forms apart. -/
theorem Uniform.toldIn_id (uniform : value.Uniform) : value.ToldIn id := by
  cases value with
  | set kind members =>
    obtain ⟨origin, one⟩ := uniform
    have kept {member : Value} (listed : member ∈ members) :
        member.toPlain.withOrigin origin = member.toPlain := by
      rw [← toPlain_withOrigin, one member listed]
    intro a listed b listed' same
    calc a.toPlain
        = a.toPlain.withOrigin origin := (kept listed).symm
      _ = b.toPlain.withOrigin origin := toldIn_withOrigin frozen origin a listed b listed' same
      _ = b.toPlain := kept listed'
  | _ => trivial

end told

/-- Plain forms forget in which order members were put into sets, at every depth: they are the same, with the same order
of items in all lists. Where a set holds several results that are not numbers, all of which are displayed alike, the
plain forms are the same but for which of these stands where. -/
theorem Reordered.forgets_order (reordered : value.Reordered other)
    (frozen : ∀ part, Occurs part value → part.Frozen) :
    ((∀ part, Occurs part value → part.Uniform) → value.plain? = other.plain?) ∧
      value.plain?.map (withOrigin 0) = other.plain?.map (withOrigin 0) := by
  have inside {part : Value} (occurs : Occurs part value) : ∀ inner, Occurs inner part → inner.Frozen :=
    fun inner deeper => frozen inner (deeper.trans occurs)
  constructor
  · intro uniform
    have same := plain?_eq_of_share (reordered.share_eq passes_id fun part occurs =>
      Uniform.toldIn_id (inside occurs) (uniform part occurs))
    rwa [Except.map_id, id, id] at same
  · exact plain?_eq_of_share (reordered.share_eq (passes_withOrigin 0) fun part occurs =>
      toldIn_withOrigin (inside occurs) 0)

/-- Labels in groups, and weights by distance. -/
def labels : Value :=
  .document "Labels"
    [⟨"groups", true, .set .concurrent [.seq .tuple [.int 1, .str "a"], .set .frozen [.str "x", .str "y"], .str "z"]⟩,
      ⟨"weights", false, .dict .concurrent [(.str "near", .seq .list [.set .plain [.int 2,
        .scalar (.float (.finite false (2 ^ 52) (-53) (by decide))), .scalar (.float (.notANumber 0))]])]⟩]

/-- The same labels and weights, put into their sets in another order. -/
def regroupedLabels : Value :=
  .document "Labels"
    [⟨"groups", true, .set .concurrent [.str "z", .set .frozen [.str "y", .str "x"], .seq .tuple [.int 1, .str "a"]]⟩,
      ⟨"weights", false, .dict .concurrent [(.str "near", .seq .list [.set .plain [.scalar (.float (.notANumber 0)),
        .scalar (.float (.finite false (2 ^ 52) (-53) (by decide))), .int 2]])]⟩]

theorem forgets_order_labels :
    labels.Reordered regroupedLabels ∧ (∃ plain, labels.plain? = .ok plain ∧ regroupedLabels.plain? = .ok plain) ∧
      labels.plain?.map (withOrigin 0) = regroupedLabels.plain?.map (withOrigin 0) := by
  have turned (kind : SetKind) (members : List Value) :
      (Value.set kind members).Reordered (.set kind members.reverse) := .of_perm (List.reverse_perm members).symm
  have reordered : labels.Reordered regroupedLabels := by
    refine .document rfl (by simp) ?_
    simp only [List.zip_cons_cons, List.forall_mem_cons]
    refine ⟨.set (List.reverse_perm _).symm rfl ?_, .dict rfl (by simp) ?_, List.forall_mem_nil _⟩
    · exact List.forall_mem_cons.mpr ⟨.refl _, List.forall_mem_cons.mpr ⟨turned .frozen _,
        List.forall_mem_cons.mpr ⟨.refl _, List.forall_mem_nil _⟩⟩⟩
    · refine List.forall_mem_cons.mpr ⟨.seq rfl ?_, List.forall_mem_nil _⟩
      exact List.forall_mem_cons.mpr ⟨turned .plain _, List.forall_mem_nil _⟩
  have uniform : ∀ part, Occurs part labels → part.Uniform := by
    simp [labels, forall_occurs_document, forall_occurs_dict, forall_occurs_set, forall_occurs_seq,
      forall_occurs_scalar, Uniform, Value.withOrigin, allWithOrigin, Scalar.withOrigin]
  have whole := reordered.forgets_order (by decide)
  have plain : labels.plain? = .ok labels.toPlain := if_pos (by decide +kernel)
  exact ⟨reordered, ⟨labels.toPlain, plain, (whole.1 uniform).symm.trans plain⟩, whole.2⟩

/-- Two results that are not numbers. -/
def strayResults : List Value := [.scalar (.float (.notANumber 0)), .scalar (.float (.notANumber 1))]

/-- Results that are not numbers are displayed alike, so plain forms show which of them was put into a set first. -/
theorem strayResults_show_order :
    (Value.set .plain strayResults).Reordered (.set .plain strayResults.reverse) ∧
      (∀ part, Occurs part (.set .plain strayResults) → part.Frozen) ∧
      ∃ plain plain', (Value.set .plain strayResults).plain? = .ok plain ∧
        (Value.set .plain strayResults.reverse).plain? = .ok plain' ∧
        plain.eqv plain = true ∧ plain.eqv plain' = false :=
  ⟨.of_perm (List.reverse_perm _).symm, by decide, (Value.set .plain strayResults).toPlain,
    (Value.set .plain strayResults.reverse).toPlain, if_pos (by decide +kernel), if_pos (by decide +kernel),
    by decide +kernel, by decide +kernel⟩

end LayeredConfig.Value
