import LayeredConfig.Container.Sequence
import LayeredConfig.Proofs.Container.Pairing

/-!
The positions that a slice selects, by a rule that knows nothing of clipped stops or of how many positions
there are, and what reading, deleting and assigning do at these positions and at all others.
-/

namespace LayeredConfig

namespace Slice

/-- How far apart the positions of a slice are. -/
def stride (slice : Slice) : Int :=
  slice.step.getD 1

/-- A bound counted from the front; it may lie beyond the ends. -/
def fromFront (length : Nat) (bound : Int) : Int :=
  if bound < 0 then bound + length else bound

/-- The clipped start: where the slice begins if it selects anything. A start beyond an end counts as the end
on its side; none is the end that the slice comes from. -/
def origin (slice : Slice) (length : Nat) : Int :=
  if slice.stride < 0 then
    slice.start.elim (length - 1) fun start => max (-1) (min (length - 1) (fromFront length start))
  else slice.start.elim 0 fun start => max 0 (min length (fromFront length start))

/-- A position comes before the stop of a slice, in the direction of the slice. -/
def BeforeStop (slice : Slice) (length place : Nat) : Prop :=
  ∀ stop, slice.stop = some stop →
    if slice.stride < 0 then fromFront length stop < place else (place : Int) < fromFront length stop

/-- A position of a sequence is reached from the start in some steps, before the stop. -/
structure Selects (slice : Slice) (length place : Nat) : Prop where
  inside : place < length
  reached : ∃ count : Nat, (place : Int) = slice.origin length + count * slice.stride
  beforeStop : slice.BeforeStop length place

/-- The positions that a slice selects, in the order in which it comes to them. -/
structure Selection (slice : Slice) (length : Nat) (places : List Nat) : Prop where
  selected : ∀ place, place ∈ places ↔ slice.Selects length place
  ordered : places.Pairwise fun first second =>
    if slice.stride < 0 then second < first else first < second

theorem Selection.nodup {slice : Slice} {length : Nat} {places : List Nat}
    (selection : slice.Selection length places) : places.Nodup := by
  refine selection.ordered.imp fun {first second} apart => ?_
  rintro rfl
  split at apart <;> exact Nat.lt_irrefl _ apart

theorem lt_count_iff_of_pos {start stop step : Int} (forwards : 0 < step) (number : Nat) :
    number < count start stop step ↔ start + number * step < stop := by
  rw [count, if_neg (Int.not_lt.mpr (Int.le_of_lt forwards))]
  have back : 0 ≤ (number : Int) * step := Int.mul_nonneg (Int.natCast_nonneg _) (Int.le_of_lt forwards)
  have fits : (number : Int) ≤ (stop - start - 1) / step ↔ number * step ≤ stop - start - 1 :=
    Int.le_ediv_iff_mul_le forwards
  split
  · next more =>
    have rest : 0 ≤ (stop - start - 1) / step := Int.ediv_nonneg (by omega) (Int.le_of_lt forwards)
    omega
  · omega

theorem lt_count_iff_of_neg {start stop step : Int} (backwards : step < 0) (number : Nat) :
    number < count start stop step ↔ stop < start + number * step := by
  -- going back is going forwards between the opposite numbers
  have forwards : 0 < -step := by omega
  have opposite : count start stop step = count (-start) (-stop) (-step) := by
    have less : -start < -stop ↔ stop < start := by omega
    have distance : -stop - -start - 1 = start - stop - 1 := by omega
    simp only [count, backwards, if_true, Int.not_lt.mpr (Int.le_of_lt forwards), if_false, less, distance]
  rw [opposite, lt_count_iff_of_pos forwards, Int.mul_neg]
  omega

theorem clip_eq (length : Nat) (low high bound : Int) :
    clip length low high bound = max low (min high (fromFront length bound)) :=
  rfl

/-- A fitted slice has the clipped start, and a stop that stands for the one given among the positions of a
sequence. -/
structure Fits (slice : Slice) (length : Nat) (fitted : FittedSlice) : Prop where
  step : fitted.step = slice.stride
  start : fitted.start = slice.origin length
  startInside : if slice.stride < 0 then fitted.start < length else 0 ≤ fitted.start
  stopInside : if slice.stride < 0 then -1 ≤ fitted.stop else fitted.stop ≤ length
  beforeStop : ∀ place, place < length → ((if slice.stride < 0 then fitted.stop < (place : Int) else
    (place : Int) < fitted.stop) ↔ slice.BeforeStop length place)
  count : fitted.count = Slice.count fitted.start fitted.stop fitted.step

theorem stride_ne_zero {slice : Slice} (nonzero : slice.step ≠ some 0) : slice.stride ≠ 0 := by
  rw [stride]
  cases given : slice.step with
  | none => decide
  | some step =>
    rintro rfl
    exact nonzero given

theorem exists_fits (slice : Slice) (length : Nat) (nonzero : slice.step ≠ some 0) :
    ∃ fitted, slice.fit? length = some fitted ∧ slice.Fits length fitted := by
  have nonzero' : ¬ (slice.step.getD 1 == 0) = true := fun same => stride_ne_zero nonzero (eq_of_beq same)
  unfold fit?
  dsimp only
  rw [if_neg nonzero']
  refine ⟨_, rfl, ?_⟩
  -- in either direction a bound that is given is clipped, and a missing one is the end on its side
  by_cases backwards : slice.stride < 0
  · have backwards' : slice.step.getD 1 < 0 := backwards
    simp only [backwards', if_true]
    refine ⟨rfl, ?_, ?_, ?_, fun place inside => ?_, rfl⟩
    · rw [origin, if_pos backwards]
      cases slice.start <;> rfl
    · rw [if_pos backwards]
      cases slice.start <;> simp only [clip_eq, Option.map_some, Option.map_none, Option.getD] <;> omega
    · rw [if_pos backwards]
      cases slice.stop <;> simp only [clip_eq, Option.map_some, Option.map_none, Option.getD] <;> omega
    · simp only [BeforeStop, if_pos backwards]
      cases slice.stop <;> simp [clip_eq] <;> omega
  · have forwards' : ¬ slice.step.getD 1 < 0 := backwards
    simp only [forwards', if_false]
    refine ⟨rfl, ?_, ?_, ?_, fun place inside => ?_, rfl⟩
    · rw [origin, if_neg backwards]
      cases slice.start <;> rfl
    · rw [if_neg backwards]
      cases slice.start <;> simp only [clip_eq, Option.map_some, Option.map_none, Option.getD] <;> omega
    · rw [if_neg backwards]
      cases slice.stop <;> simp only [clip_eq, Option.map_some, Option.map_none, Option.getD] <;> omega
    · simp only [BeforeStop, if_neg backwards]
      cases slice.stop <;> simp [clip_eq] <;> omega

section fits

variable {slice : Slice} {length : Nat} {fitted : FittedSlice}

theorem Fits.lt_count_iff (fits : slice.Fits length fitted) (nonzero : slice.stride ≠ 0) (number : Nat) :
    number < fitted.count ↔
      if slice.stride < 0 then fitted.stop < fitted.start + number * slice.stride
      else fitted.start + number * slice.stride < fitted.stop := by
  rw [fits.count, fits.step]
  split
  · next backwards => exact lt_count_iff_of_neg backwards number
  · exact lt_count_iff_of_pos (by omega) number

/-- The positions that are counted lie in the sequence. -/
theorem Fits.inside (fits : slice.Fits length fitted) (nonzero : slice.stride ≠ 0) {number : Nat}
    (counted : number < fitted.count) :
    0 ≤ fitted.start + number * slice.stride ∧ fitted.start + number * slice.stride < length := by
  have before := (fits.lt_count_iff nonzero number).mp counted
  have start := fits.startInside
  have stop := fits.stopInside
  split at before
  · next backwards =>
    have back : (number : Int) * slice.stride ≤ 0 :=
      Int.mul_nonpos_of_nonneg_of_nonpos (Int.natCast_nonneg _) (Int.le_of_lt backwards)
    rw [if_pos backwards] at start stop
    omega
  · next forwards =>
    have ahead : 0 ≤ (number : Int) * slice.stride :=
      Int.mul_nonneg (Int.natCast_nonneg _) (Int.not_lt.mp forwards)
    rw [if_neg forwards] at start stop
    omega

theorem Fits.mem_positions_iff (fits : slice.Fits length fitted) (nonzero : slice.stride ≠ 0) {place : Nat} :
    place ∈ fitted.positions ↔ slice.Selects length place := by
  simp only [FittedSlice.positions, fits.step, List.mem_map, List.mem_range]
  constructor
  · rintro ⟨number, counted, rfl⟩
    obtain ⟨low, high⟩ := fits.inside nonzero counted
    have here := Int.toNat_of_nonneg low
    have inside : (fitted.start + number * slice.stride).toNat < length := by omega
    refine ⟨inside, ⟨number, ?_⟩, (fits.beforeStop _ inside).mp ?_⟩
    · rw [here, fits.start]
    · rw [here]
      exact (fits.lt_count_iff nonzero number).mp counted
  · rintro ⟨inside, ⟨number, reached⟩, beforeStop⟩
    rw [← fits.start] at reached
    refine ⟨number, (fits.lt_count_iff nonzero number).mpr ?_, ?_⟩
    · rw [← reached]
      exact (fits.beforeStop place inside).mpr beforeStop
    · rw [← reached]
      rfl

/-- The positions of a fitted slice are those that the slice selects. -/
theorem Fits.selection (fits : slice.Fits length fitted) (nonzero : slice.stride ≠ 0) :
    slice.Selection length fitted.positions where
  selected := fun place => fits.mem_positions_iff nonzero
  ordered := by
    rw [FittedSlice.positions, fits.step, List.pairwise_map]
    refine List.pairwise_lt_range.imp_of_mem fun {first second} counted counted' later => ?_
    have low := (fits.inside nonzero (List.mem_range.mp counted)).1
    have low' := (fits.inside nonzero (List.mem_range.mp counted')).1
    have later : (first : Int) < second := Int.ofNat_lt.mpr later
    split
    · next backwards =>
      have apart := Int.mul_lt_mul_of_neg_right later backwards
      omega
    · next forwards =>
      have apart := Int.mul_lt_mul_of_pos_right later (by omega : 0 < slice.stride)
      omega

end fits

end Slice

section reading

variable {α : Type} {places : List Nat} {items : List α}

/-- Items that stand in a sequence at some positions, in the order of these. -/
def StandAt (items : List α) (places : List Nat) (read : List α) : Prop :=
  List.Forall₂ (fun place item => items[place]? = some item) places read

theorem standAt_filterMap (inside : ∀ place ∈ places, place < items.length) :
    StandAt items places (places.filterMap (items[·]?)) := by
  induction places with
  | nil => exact .nil
  | cons place places ih =>
    obtain ⟨here, later⟩ := List.forall_mem_cons.mp inside
    rw [List.filterMap_cons_some (List.getElem?_eq_getElem here)]
    exact .cons (List.getElem?_eq_getElem here) (ih later)

/-- The items of a sequence whose positions pass a test. -/
theorem standAt_filter (test : Nat → Bool) (items : List α) :
    StandAt items ((List.range items.length).filter test)
      ((items.zipIdx.filter fun pair => test pair.2).map (·.1)) := by
  have places : (List.range items.length).filter test =
      (items.zipIdx.filter fun pair => test pair.2).map (·.2) := by
    rw [List.range_eq_range', ← List.zipIdx_map_snd 0 items, List.filter_map]
    rfl
  rw [places, StandAt, List.forall₂_map_left_iff, List.forall₂_map_right_iff, List.forall₂_same]
  intro pair kept
  exact List.mk_mem_zipIdx_iff_getElem?.mp (List.mem_filter.mp kept).1

/-- What stands at successive positions is a block. -/
theorem StandAt.eq_block {read : List α} {start count : Nat}
    (stand : StandAt items (List.range' start count) read) : read = (items.drop start).take count := by
  induction count generalizing start read with
  | zero =>
    cases stand
    exact List.take_zero.symm
  | succ count ih =>
    cases stand with
    | cons here later =>
      obtain ⟨inside, same⟩ := List.getElem?_eq_some_iff.mp here
      rw [List.drop_eq_getElem_cons inside, List.take_succ_cons, same, ih later]

/-- A sequence in which new items stand at some positions, and which is as it was at all others. -/
structure Replaced (items : List α) (places : List Nat) (new result : List α) : Prop where
  length : result.length = items.length
  there : StandAt result places new
  elsewhere : ∀ place, place ∉ places → result[place]? = items[place]?

end reading

namespace FittedSlice

variable {α : Type} {items new : List α} {placed : List (Nat × α)} {place : Nat} {item : α}

theorem length_replaceAt (items : List α) (placed : List (Nat × α)) :
    (replaceAt items placed).length = items.length := by
  induction placed generalizing items with
  | nil => rfl
  | cons first placed ih => exact (ih _).trans List.length_set

theorem getElem?_replaceAt_of_not_mem (absent : place ∉ placed.map (·.1)) :
    (replaceAt items placed)[place]? = items[place]? := by
  induction placed generalizing items with
  | nil => rfl
  | cons first placed ih =>
    obtain ⟨different, absent⟩ := List.ne_and_not_mem_of_not_mem_cons absent
    exact (ih absent).trans (List.getElem?_set_ne (Ne.symm different))

theorem getElem?_replaceAt (distinct : (placed.map (·.1)).Nodup) (member : (place, item) ∈ placed)
    (inside : place < items.length) : (replaceAt items placed)[place]? = some item := by
  induction placed generalizing items with
  | nil => cases member
  | cons first placed ih =>
    obtain ⟨once, distinct⟩ := List.nodup_cons.mp distinct
    rcases List.mem_cons.mp member with rfl | later
    · exact (getElem?_replaceAt_of_not_mem once).trans (List.getElem?_set_self inside)
    · exact ih distinct later (List.length_set.symm ▸ inside)

theorem replaceAt_self (same : ∀ pair ∈ placed, items[pair.1]? = some pair.2) :
    replaceAt items placed = items := by
  induction placed with
  | nil => rfl
  | cons first placed ih =>
    obtain ⟨here, later⟩ := List.forall_mem_cons.mp same
    obtain ⟨inside, equal⟩ := List.getElem?_eq_some_iff.mp here
    change replaceAt (items.set first.1 first.2) placed = items
    rw [← equal, List.set_getElem_self]
    exact ih later

theorem replaced_replaceAt {places : List Nat} (inside : ∀ place ∈ places, place < items.length)
    (distinct : places.Nodup) (length : places.length = new.length) :
    Replaced items places new (replaceAt items (places.zip new)) where
  length := length_replaceAt items _
  there := by
    have firsts : (places.zip new).map (·.1) = places := List.map_fst_zip (Nat.le_of_eq length)
    refine forall₂_of_zip length fun pair member => ?_
    exact getElem?_replaceAt (firsts.symm ▸ distinct) member (inside pair.1 (List.of_mem_zip member).1)
  elsewhere := by
    intro place absent
    refine getElem?_replaceAt_of_not_mem fun listed => absent ?_
    obtain ⟨pair, member, rfl⟩ := List.mem_map.mp listed
    exact (List.of_mem_zip member).1

end FittedSlice

namespace Slice

section fitted

variable {α : Type} {slice : Slice} {items new : List α} {fitted : FittedSlice}

theorem length_positions (fitted : FittedSlice) : fitted.positions.length = fitted.count := by
  rw [FittedSlice.positions, List.length_map, List.length_range]

theorem Fits.standAt_read (fits : slice.Fits items.length fitted) (nonzero : slice.stride ≠ 0) :
    StandAt items fitted.positions (fitted.read items) :=
  standAt_filterMap fun _ listed => ((fits.mem_positions_iff nonzero).mp listed).inside

theorem standAt_delete (fitted : FittedSlice) (items : List α) :
    StandAt items ((List.range items.length).filter (· ∉ fitted.positions)) (fitted.delete items) := by
  have kept := standAt_filter (fun place => !fitted.positions.contains place) items
  have same : (fun place => !fitted.positions.contains place) = fun place => decide (place ∉ fitted.positions) := by
    funext place
    rw [List.contains_eq_mem, decide_not]
  rwa [same] at kept

/-- The positions of a slice with step one are a block, which may be empty. -/
theorem Fits.positions_block {length : Nat} (fits : slice.Fits length fitted) (one : slice.stride = 1) :
    fitted.positions = List.range' (slice.origin length).toNat fitted.count := by
  have start := fits.startInside
  rw [if_neg (by omega)] at start
  rw [FittedSlice.positions, List.range'_eq_map_range, fits.step, one, ← fits.start]
  refine List.map_congr_left fun number _ => ?_
  omega

theorem Fits.assign?_block (fits : slice.Fits items.length fitted) (one : slice.stride = 1) :
    fitted.assign? items new = some (items.take (slice.origin items.length).toNat ++ new ++
      items.drop ((slice.origin items.length).toNat + fitted.count)) := by
  have start := fits.startInside
  rw [if_neg (by omega)] at start
  have behind : (max fitted.start fitted.stop).toNat = fitted.start.toNat + fitted.count := by
    have count := fits.count
    rw [fits.step, one, Slice.count, if_neg (by decide), Int.ediv_one] at count
    split at count <;> omega
  rw [FittedSlice.assign?, fits.step, one, if_pos (beq_self_eq_true _)]
  dsimp only
  rw [behind, ← fits.start]

theorem Fits.assign?_apart (fits : slice.Fits items.length fitted) (apart : slice.stride ≠ 1) :
    fitted.assign? items new = if new.length = fitted.count then
      some (FittedSlice.replaceAt items (fitted.positions.zip new)) else none := by
  rw [FittedSlice.assign?, fits.step, if_neg fun one => apart (eq_of_beq one)]
  simp only [beq_iff_eq]

theorem Fits.assign?_read (fits : slice.Fits items.length fitted) (nonzero : slice.stride ≠ 0) :
    fitted.assign? items (fitted.read items) = some items := by
  have stand := fits.standAt_read nonzero
  by_cases one : slice.stride = 1
  · rw [fits.positions_block one] at stand
    rw [fits.assign?_block one, stand.eq_block, List.append_assoc, ← List.drop_drop, List.take_append_drop,
      List.take_append_drop]
  · have length : (fitted.read items).length = fitted.count :=
      stand.length_eq.symm.trans (length_positions fitted)
    rw [fits.assign?_apart one, if_pos length, FittedSlice.replaceAt_self (forall_zip_of_forall₂ stand)]

end fitted

end Slice

end LayeredConfig
