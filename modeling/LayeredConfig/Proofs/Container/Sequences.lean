import LayeredConfig.Container.Sequence

namespace LayeredConfig

variable {item new : α} {items added : List α}

namespace Sequence

theorem mem_removeAt {place : Nat} (member : item ∈ removeAt place items) : item ∈ items := by
  rcases List.mem_append.mp member with before | after
  · exact List.mem_of_mem_take before
  · exact List.mem_of_mem_drop after

theorem mem_insert {index : Int} (member : item ∈ insert index new items) : item = new ∨ item ∈ items := by
  rcases List.mem_append.mp member with before | after
  · exact .inr (List.mem_of_mem_take before)
  · exact (List.mem_cons.mp after).imp_right List.mem_of_mem_drop

end Sequence

namespace FittedSlice

variable {slice : FittedSlice}

theorem mem_read (member : item ∈ slice.read items) : item ∈ items := by
  obtain ⟨place, -, found⟩ := List.mem_filterMap.mp member
  exact List.mem_of_getElem? found

theorem mem_delete (member : item ∈ slice.delete items) : item ∈ items := by
  obtain ⟨⟨other, place⟩, kept, rfl⟩ := List.mem_map.mp member
  exact List.fst_mem_of_mem_zipIdx (List.mem_filter.mp kept).1

theorem mem_replaceAt {placed : List (Nat × α)} (member : item ∈ replaceAt items placed) :
    item ∈ items ∨ ∃ pair ∈ placed, item = pair.2 := by
  induction placed generalizing items with
  | nil => exact .inl member
  | cons first placed ih =>
    rcases ih member with here | ⟨pair, listed, same⟩
    · rcases List.mem_or_eq_of_mem_set here with old | same
      · exact .inl old
      · exact .inr ⟨first, List.mem_cons_self, same⟩
    · exact .inr ⟨pair, List.mem_cons_of_mem _ listed, same⟩

theorem mem_assign? {result : List α} (assigned : slice.assign? items added = some result)
    (member : item ∈ result) : item ∈ items ∨ item ∈ added := by
  unfold assign? at assigned
  split at assigned
  · obtain rfl := Option.some.inj assigned
    rcases List.mem_append.mp member with before | after
    · exact (List.mem_append.mp before).imp_left List.mem_of_mem_take
    · exact .inl (List.mem_of_mem_drop after)
  · split at assigned
    · obtain rfl := Option.some.inj assigned
      rcases mem_replaceAt member with old | ⟨pair, listed, rfl⟩
      · exact .inl old
      · exact .inr (List.of_mem_zip listed).2
    · cases assigned

end FittedSlice

end LayeredConfig
