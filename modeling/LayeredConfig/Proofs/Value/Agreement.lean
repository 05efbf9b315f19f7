import LayeredConfig.Decode
import LayeredConfig.Proofs.Schema.Defaults
import LayeredConfig.Proofs.Value.Displays
import LayeredConfig.Proofs.Value.Keys
import LayeredConfig.Proofs.Value.Matching
import LayeredConfig.Proofs.Value.Plainness

/-!
Values that match have one canonical text. Members of sets are lists of scalars once they are plain, so
their displayed forms put them in one order; keys are scalars, and their values do.
-/

namespace LayeredConfig.Value

open Text Decode

/-- What sorting and writing a list takes of its items. -/
def face (value : Value) : List Char × Except Fault (List Char) :=
  (value.display, value.canonical)

theorem Flat.face_eq {value other : Value} (flat : Flat value) (flat' : Flat other)
    (same : value.display = other.display) : value.face = other.face :=
  Prod.ext same (flat.shown flat' [] [] bounded_nil bounded_nil (congrArg (· ++ []) same)).2

theorem pairwise_sortByDisplay (values : List Value) :
    (sortByDisplay values).Pairwise fun a b => a.display ≤ b.display := by
  have sorted : (sortBy (fun a b => precedes a.1 b.1) (values.map fun value => (value.display, value))).Pairwise
      fun a b => a.1 ≤ b.1 := pairwise_sortBy Prod.fst fun _ _ _ _ => precedes_iff
  refine List.pairwise_map.mpr (sorted.imp_of_mem fun {a b} first second below => ?_)
  obtain ⟨value, -, rfl⟩ := List.mem_map.mp (mem_sortBy.mp first)
  obtain ⟨other, -, rfl⟩ := List.mem_map.mp (mem_sortBy.mp second)
  exact below

theorem map_face_sortByDisplay {values others : List Value} (flat : ∀ value ∈ values, Flat value)
    (flat' : ∀ value ∈ others, Flat value) (perm : (values.map face).Perm (others.map face)) :
    (sortByDisplay values).map face = (sortByDisplay others).map face := by
  have sorted (values : List Value) : ((sortByDisplay values).map face).Pairwise fun a b => a.1 ≤ b.1 :=
    List.pairwise_map.mpr (pairwise_sortByDisplay values)
  have whole : ((sortByDisplay values).map face).Perm ((sortByDisplay others).map face) :=
    ((perm_sortByDisplay values).map face).trans (perm.trans ((perm_sortByDisplay others).map face).symm)
  refine whole.eq_of_pairwise (fun a b first second below above => ?_) (sorted values) (sorted others)
  obtain ⟨value, listed, rfl⟩ := List.mem_map.mp first
  obtain ⟨other, listed', rfl⟩ := List.mem_map.mp second
  exact (flat value ((perm_sortByDisplay _).mem_iff.mp listed)).face_eq
    (flat' other ((perm_sortByDisplay _).mem_iff.mp listed')) (le_antisymm below above)

theorem face_list {items others : List Value} (faces : items.map face = others.map face) :
    (seq .list items).face = (seq .list others).face := by
  have displays := congrArg (List.map Prod.fst) faces
  have texts := congrArg (List.map Prod.snd) faces
  simp only [List.map_map] at displays texts
  have written : canonical (.seq .list items) = canonical (.seq .list others) := canonical_seq_congr texts
  refine Prod.ext ?_ written
  change enclose _ _ (displayAll items) = enclose _ _ (displayAll others)
  rw [displayAll_eq, displayAll_eq]
  exact congrArg (enclose _ _) displays

/-- A list of scalars has a canonical text if it can be displayed. -/
theorem Flat.exists_canonical_iff {value : Value} (flat : Flat value) :
    (∃ text, value.canonical = .ok text) ↔ value.writable = true := by
  induction flat with
  | scalar value => exact canonicalScalar_ok_iff
  | list parts ih =>
    rw [exists_canonical_seq, writable, allWritable_iff]
    exact forall₂_congr ih

section made

variable {settings : String → List Str} {value other : Value}

theorem Made.frozen {part : Value} (made : part.Made settings) : part.Frozen := by
  cases part with
  | set kind members => exact Apart.frozen made
  | _ => trivial

theorem flat_of_frozen (frozen : value.hashable = true)
    (made : ∀ part, Occurs part value → part.Made settings) : Flat value.toPlain :=
  flat_of_hashable frozen fun part occurs => (made part occurs).frozen

/-- Sets with members of the same faces have one face. -/
theorem face_set {members others : List Value} (kind kind' : SetKind) (apart : Apart members)
    (apart' : Apart others) (made : ∀ member ∈ members, ∀ part, Occurs part member → part.Made settings)
    (made' : ∀ member ∈ others, ∀ part, Occurs part member → part.Made settings)
    (faces : Rearranged (fun member other => member.toPlain.face = other.toPlain.face) members others) :
    (set kind members).toPlain.face = (set kind' others).toPlain.face := by
  have flat {members : List Value} (apart : Apart members)
      (made : ∀ member ∈ members, ∀ part, Occurs part member → part.Made settings) :
      ∀ item ∈ members.map toPlain, Flat item :=
    List.forall_mem_map.mpr fun member listed =>
      flat_of_frozen (apart.frozen member listed) (made member listed)
  simp only [toPlain, plainAll_eq]
  refine face_list (map_face_sortByDisplay (flat apart made) (flat apart' made') ?_)
  rw [List.map_map, List.map_map]
  exact faces.map_perm

theorem Matched.face (matched : Matched value other) (frozen : value.hashable = true)
    (frozen' : other.hashable = true) (made : ∀ part, Occurs part value → part.Made settings)
    (made' : ∀ part, Occurs part other → part.Made settings) :
    value.toPlain.face = other.toPlain.face := by
  induction matched with
  | scalar value => rfl
  | member enumeration name value value' => rfl
  | @seq kind kind' items items' length parts ih =>
    cases kind with
    | tuple =>
      cases kind' with
      | tuple =>
        rw [forall_occurs_seq] at made made'
        rw [hashable, allHashable_iff] at frozen frozen'
        simp only [toPlain, plainAll_eq]
        refine face_list ?_
        rw [List.map_map, List.map_map]
        exact map_eq_of_forall₂ (forall₂_of_zip length fun pair beside =>
          have first := (List.of_mem_zip beside).1
          have second := (List.of_mem_zip beside).2
          ih pair beside (frozen _ first) (frozen' _ second) (made.2 _ first) (made'.2 _ second))
      | _ => cases frozen'
    | _ => cases frozen
  | @set kind kind' members middle members' perm length parts ih =>
    rw [forall_occurs_set] at made made'
    refine face_set kind kind' made.1 made'.1 made.2 made'.2 ⟨middle, perm, forall₂_of_zip length ?_⟩
    intro pair beside
    have first := perm.mem_iff.mpr (List.of_mem_zip beside).1
    have second := (List.of_mem_zip beside).2
    exact ih pair beside (made.1.frozen _ first) (made'.1.frozen _ second) (made.2 _ first)
      (made'.2 _ second)
  | dict => cases frozen
  | document => cases frozen

theorem sortable_of_canonical (made : ∀ part, Occurs part value → part.Made settings)
    (written : ∃ text, value.toPlain.canonical = .ok text) : value.sortable = true := by
  induction value with
  | scalar value => rfl
  | member enumeration name value => rfl
  | seq kind items ih =>
    rw [forall_occurs_seq] at made
    rw [toPlain, plainAll_eq, exists_canonical_seq, List.forall_mem_map] at written
    exact allSortable_iff.mpr fun item member => ih item member (made.2 item member) (written item member)
  | set kind members ih =>
    rw [forall_occurs_set] at made
    simp only [toPlain, plainAll_eq, exists_canonical_seq, (perm_sortByDisplay _).mem_iff,
      List.forall_mem_map] at written
    rw [sortable, Bool.and_eq_true, allSortable_iff, plainAll_eq, allWritable_iff, List.forall_mem_map]
    refine ⟨fun member listed => ih member listed (made.2 member listed) (written member listed), ?_⟩
    intro member listed
    have flat := flat_of_frozen (made.1.frozen member listed) (made.2 member listed)
    exact flat.exists_canonical_iff.mp (written member listed)
  | dict kind entries ihKeys ihValues =>
    rw [forall_occurs_dict] at made
    rw [toPlain, exists_canonical_dict, plainEntries_eq, List.forall_mem_map] at written
    exact entriesSortable_iff.mpr fun entry member =>
      ihValues entry member (made.2.2 entry member) (written.2 entry member).2
  | document type slots ih =>
    rw [forall_occurs_document] at made
    rw [toPlain, exists_canonical_dict, plainSlots_eq, List.forall_mem_map] at written
    exact slotsSortable_iff.mpr fun slot member =>
      ih slot member (made.2 slot member) (written.2 slot member).2

/-- A dictionary none of whose keys is a result that is not a number. -/
def DefiniteKeyed : Value → Prop
  | .dict _ entries => ∀ entry ∈ entries, entry.1.isNotANumber = false
  | _ => True

/-- A key that can be written is a scalar, and matches itself only. -/
theorem Matched.eq_of_canonicalKey {key key' : Value} (matched : Matched key key')
    (written : ∃ text, canonicalKey key = .ok text) : key = key' := by
  obtain ⟨text, here⟩ := written
  cases matched with
  | scalar value => rfl
  | _ => cases here

instance : DecidablePred DefiniteKeyed
  | .dict _ entries => inferInstanceAs (Decidable (∀ entry ∈ entries, entry.1.isNotANumber = false))
  | .scalar _ => .isTrue trivial
  | .member _ _ _ => .isTrue trivial
  | .seq _ _ => .isTrue trivial
  | .set _ _ => .isTrue trivial
  | .document _ _ => .isTrue trivial

/-- Values that match have one canonical text if one of them has any. -/
theorem Matched.canonical (matched : Matched value other)
    (made : ∀ part, Occurs part value → part.Made settings)
    (made' : ∀ part, Occurs part other → part.Made settings)
    (definite : ∀ part, Occurs part value → part.DefiniteKeyed)
    (written : ∃ text, value.toPlain.canonical = .ok text) :
    value.toPlain.canonical = other.toPlain.canonical := by
  induction matched with
  | scalar value => rfl
  | member enumeration name value value' => rfl
  | @seq kind kind' items items' length parts ih =>
    rw [forall_occurs_seq] at made made' definite
    simp only [toPlain, plainAll_eq] at written ⊢
    rw [exists_canonical_seq, List.forall_mem_map] at written
    refine canonical_seq_congr ?_
    rw [List.map_map, List.map_map]
    exact map_eq_of_forall₂ (forall₂_of_zip length fun pair beside =>
      have first := (List.of_mem_zip beside).1
      have second := (List.of_mem_zip beside).2
      ih pair beside (made.2 _ first) (made'.2 _ second) (definite.2 _ first) (written _ first))
  | @set kind kind' members middle members' perm length parts ih =>
    rw [forall_occurs_set] at made made'
    have faces : Rearranged (fun member other => member.toPlain.face = other.toPlain.face) members members' :=
      ⟨middle, perm, forall₂_of_zip length fun pair beside =>
        have first := perm.mem_iff.mpr (List.of_mem_zip beside).1
        have second := (List.of_mem_zip beside).2
        (parts pair beside).face (made.1.frozen _ first) (made'.1.frozen _ second) (made.2 _ first)
          (made'.2 _ second)⟩
    exact congrArg Prod.snd (face_set kind kind' made.1 made'.1 made.2 made'.2 faces)
  | @dict kind kind' entries middle entries' perm length keys values ihKeys ihValues =>
    rw [forall_occurs_dict] at made made' definite
    rw [toPlain, exists_canonical_dict, plainEntries_eq, List.forall_mem_map] at written
    have similar : List.Forall₂ (fun entry entry' => entry.1 = entry'.1 ∧
        entry.2.toPlain.canonical = entry'.2.toPlain.canonical) middle entries' := by
      refine forall₂_of_zip length fun pair beside => ?_
      have first := perm.mem_iff.mpr (List.of_mem_zip beside).1
      have second := (List.of_mem_zip beside).2
      exact ⟨(keys pair beside).eq_of_canonicalKey (written.2 _ first).1, ihValues pair beside
        (made.2.2 _ first) (made'.2.2 _ second) (definite.2.2 _ first) (written.2 _ first).2⟩
    refine canonical_dict_of_apart (keys_plainEntries entries ▸ made.1) ?_ (perm_canonicalEntries perm similar)
      .plain
    rw [plainEntries_eq]
    exact List.forall_mem_map.mpr definite.1
  | @document type slots slots' names parts ih =>
    rw [forall_occurs_document] at made made' definite
    rw [toPlain, exists_canonical_dict, plainSlots_eq, List.forall_mem_map] at written
    have titles : List.Forall₂ (fun slot slot' => slot.name = slot'.name) slots slots' := forall₂_of_map_eq names
    refine canonical_document_congr (forall₂_of_zip titles.length_eq fun pair beside => ?_)
    have first := (List.of_mem_zip beside).1
    have second := (List.of_mem_zip beside).2
    exact ⟨forall_zip_of_forall₂ titles pair beside, ih pair beside (made.2 _ first) (made'.2 _ second)
      (definite.2 _ first) (written.2 _ first).2⟩

/-- Values that match have the same texts, so both are torn or neither is. -/
theorem Matched.isWhole (matched : Matched value other) : value.isWhole = other.isWhole := by
  induction matched with
  | scalar value => rfl
  | member enumeration name value value' => rfl
  | seq length parts ih => rw [isWhole_seq, isWhole_seq, map_eq_of_forall₂ (forall₂_of_zip length ih)]
  | set perm length parts ih =>
    rw [isWhole_set, isWhole_set, ← map_eq_of_forall₂ (forall₂_of_zip length ih), (perm.map _).all_eq]
  | @dict kind kind' entries middle entries' perm length keys values ihKeys ihValues =>
    exact isWhole_dict_congr kind kind' perm length ihKeys ihValues
  | @document type slots slots' names parts ih =>
    have titles : List.Forall₂ (fun slot slot' => slot.name = slot'.name) slots slots' := forall₂_of_map_eq names
    exact isWhole_document_congr type type titles.length_eq ih

/-- Equal documents have one fingerprint, where the numbers and moments that stand in the same places are the
same and no key is a result that is not a number. -/
theorem fingerprint_of_eqv {print : String} (made : ∀ part, Occurs part value → part.Made settings)
    (made' : ∀ part, Occurs part other → part.Made settings) (equal : value.eqv other = true)
    (identical : ∀ part part', Beside part part' value other → part.isMeasured = true → part = part')
    (definite : ∀ part, Occurs part value → part.DefiniteKeyed) (printed : value.fingerprint = .ok print) :
    other.fingerprint = .ok print := by
  have matched := matched_of_alike equal made made' identical
  have whole := matched.isWhole
  obtain ⟨text, written, digest⟩ := bind_eq_ok_iff.mp printed
  cases matched with
  | document names parts =>
    obtain ⟨-, canonical⟩ := fingerprintText_eq_ok_iff.mp written
    have same := Matched.canonical (.document names parts) made made' definite ⟨text, canonical⟩
    have canonical' := same.symm.trans canonical
    have written' := fingerprintText_eq_ok_iff.mpr ⟨sortable_of_canonical made' ⟨text, canonical'⟩, canonical'⟩
    exact bind_eq_ok_iff.mpr ⟨text, written', whole ▸ digest⟩
  | _ => cases written

end made

/-- The parameters of a class, and the same ones in another order. -/
def parameters : Value :=
  .document "ParameterizedClass"
    [⟨"class_name", true, .str "Seeds"⟩,
      ⟨"parameters", true, .dict .concurrent [(.str "seeds", .str "10.0.0.1"), (.str "port", .str "7000")]⟩]

def reorderedParameters : Value :=
  .document "ParameterizedClass"
    [⟨"class_name", false, .str "Seeds"⟩,
      ⟨"parameters", false, .dict .plain [(.str "port", .str "7000"), (.str "seeds", .str "10.0.0.1")]⟩]

theorem fingerprint_of_eqv_reorderedParameters :
    parameters.eqv reorderedParameters = true ∧
      ∃ print, parameters.fingerprint = .ok print ∧ reorderedParameters.fingerprint = .ok print := by
  have settled : ∀ part, Occurs part parameters → part.Settled := by decide
  have named : parameters.Named := fun part occurs => (settled part occurs).named
  obtain ⟨print, printed⟩ :=
    (exists_fingerprint_iff named).mpr fun part occurs => (settled part occurs).free
  have texts : ∀ part, Occurs part parameters → part.isMeasured = false := by decide
  have made : ∀ value ∈ [parameters, reorderedParameters], ∀ part, Occurs part value →
      part.Made fun _ => NodeSchema.parameterizedClass.names := by decide +kernel
  have equal : parameters.eqv reorderedParameters = true := by decide +kernel
  have definite : ∀ part, Occurs part parameters → part.DefiniteKeyed := by decide
  obtain ⟨made, made', -⟩ := List.forall_mem_cons.mp made |>.imp_right List.forall_mem_cons.mp
  refine ⟨equal, print, printed, fingerprint_of_eqv made made' equal ?_ definite printed⟩
  intro part part' beside measured
  rw [texts part beside.occurs] at measured
  cases measured

/-- Zero and minus zero are equal as thresholds. -/
def zeroSource : List UInt8 :=
  "phi_convict_threshold: 0.0\n".toUTF8.toList

def minusZeroSource : List UInt8 :=
  "phi_convict_threshold: -0.0\n".toUTF8.toList

theorem signed_zeros_print_apart :
    ∃ first second print print', decode NodeSchema.nodeConfig "zero.yaml" zeroSource = .ok first ∧
      decode NodeSchema.nodeConfig "minus-zero.yaml" minusZeroSource = .ok second ∧
      first.report = .empty ∧ second.report = .empty ∧ first.document.eqv second.document = true ∧
      first.document.fingerprint = .ok print ∧ second.document.fingerprint = .ok print' ∧ print ≠ print' := by
  have checked : (decode NodeSchema.nodeConfig "zero.yaml" zeroSource).toOption.any (fun first =>
      (decode NodeSchema.nodeConfig "minus-zero.yaml" minusZeroSource).toOption.any fun second =>
        decide (first.report = .empty ∧ second.report = .empty ∧
          first.document.eqv second.document = true)) = true := by
    decide +kernel
  obtain ⟨first, found, checked⟩ := (Option.any_eq_true ..).mp checked
  obtain ⟨second, found', fit⟩ := (Option.any_eq_true ..).mp checked
  obtain ⟨passed, passed', equal⟩ := of_decide_eq_true fit
  -- each digest is computed on its own: the two in one evaluation take twice the memory
  have prints : (decode NodeSchema.nodeConfig "zero.yaml" zeroSource).toOption.any (fun result =>
      decide (result.document.fingerprint.toOption =
        some "5eed43716d16fabeebaa64bc76d4919cb698fc782305c40dab33755427c008e6")) = true := by
    decide +kernel
  have prints' : (decode NodeSchema.nodeConfig "minus-zero.yaml" minusZeroSource).toOption.any (fun result =>
      decide (result.document.fingerprint.toOption =
        some "89cf3f901058ab94f6c4ca401d750e9a8b2a5e55fcfe8526574b1980c7ecde42")) = true := by
    decide +kernel
  rw [found, Option.any_some] at prints
  rw [found', Option.any_some] at prints'
  exact ⟨first, second, _, _, toOption_eq_some_iff.mp found, toOption_eq_some_iff.mp found', passed, passed',
    equal, toOption_eq_some_iff.mp (of_decide_eq_true prints),
    toOption_eq_some_iff.mp (of_decide_eq_true prints'), by decide⟩

end LayeredConfig.Value
