import LayeredConfig.Proofs.Text.Quoting

/-!
Texts that are put together from parts, and how the parts are found again. A part ends where a character
stands that ends parts, so each part has to be told from others no matter what follows it.
-/

namespace LayeredConfig.Text

/-- The characters that end a part. -/
def stops : List Char :=
  [',', ')', ']', '\x7d']

/-- What stands behind a part: nothing, or a text that begins with a character that ends parts. -/
def Bounded (rest : List Char) : Prop :=
  ∀ c ∈ rest.head?, c ∈ stops

/-- Two parts that a text cannot both begin with, unless they are one. -/
def Told (part other : List Char) : Prop :=
  ∀ rest rest', Bounded rest → Bounded rest' → part ++ rest = other ++ rest' → part = other

/-- A part that has a character and does not begin with one that ends parts. -/
def Opens (part : List Char) : Prop :=
  ∃ c rest, part = c :: rest ∧ c ∉ stops

/-- A part without characters that end parts. -/
def Plain (part : List Char) : Prop :=
  ∀ c ∈ part, c ∉ stops

variable {part other : List Char}

theorem bounded_nil : Bounded [] :=
  nofun

theorem bounded_cons {c : Char} (stop : c ∈ stops) (rest : List Char) : Bounded (c :: rest) := by
  rintro _ ⟨⟩
  exact stop

theorem Told.symm (told : Told part other) : Told other part :=
  fun rest rest' bounded bounded' same => (told rest' rest bounded' bounded same.symm).symm

theorem told_of_ne {c d : Char} (differ : c ≠ d) (part other : List Char) :
    Told (c :: part) (d :: other) :=
  fun _ _ _ _ same => absurd (List.cons.inj same).1 differ

/-- A plain part ends where the first character stands that ends parts. -/
theorem Plain.takeWhile (plain : Plain part) {rest : List Char} (bounded : Bounded rest) :
    (part ++ rest).takeWhile (fun c => !stops.contains c) = part := by
  have inside : ∀ c ∈ part, (!stops.contains c) = true := by
    simpa [Plain] using plain
  rw [List.takeWhile_append_of_pos inside]
  cases rest with
  | nil => simp
  | cons c rest => simp [bounded c rfl]

theorem Plain.told (plain : Plain part) (plain' : Plain other) : Told part other := by
  intro rest rest' bounded bounded' same
  rw [← plain.takeWhile bounded, same, plain'.takeWhile bounded']

theorem Plain.opens (plain : Plain part) (filled : part ≠ []) : Opens part := by
  obtain ⟨c, rest, rfl⟩ := List.exists_cons_of_ne_nil filled
  exact ⟨c, rest, rfl, plain c List.mem_cons_self⟩

section groups

variable {parts others : List (List Char)} {blank rest rest' : List Char} {last : Char}

/-- Parts that follow a first one are found again, and so is what stands behind them. -/
theorem tails_injective (stop : last ∈ stops) (apart : last ≠ ',')
    (told : ∀ part ∈ parts, ∀ other ∈ others, Told part other)
    (same : parts.flatMap (',' :: blank ++ ·) ++ last :: rest =
      others.flatMap (',' :: blank ++ ·) ++ last :: rest') : parts = others ∧ rest = rest' := by
  have bounded (parts : List (List Char)) (rest : List Char) :
      Bounded (parts.flatMap (',' :: blank ++ ·) ++ last :: rest) := by
    cases parts with
    | nil => exact bounded_cons stop rest
    | cons part parts => exact bounded_cons (by decide) _
  induction parts generalizing others with
  | nil =>
    cases others with
    | nil => exact ⟨rfl, (List.cons.inj same).2⟩
    | cons other others => exact absurd (List.cons.inj same).1 apart
  | cons part parts ih =>
    cases others with
    | nil => exact absurd (List.cons.inj same).1.symm apart
    | cons other others =>
      simp only [List.flatMap_cons, List.append_assoc] at same
      have here := List.append_cancel_left same
      obtain rfl := told part List.mem_cons_self other List.mem_cons_self _ _ (bounded _ _)
        (bounded _ _) here
      obtain ⟨rfl, behind⟩ := ih (fun part member other member' =>
        told part (List.mem_cons_of_mem _ member) other (List.mem_cons_of_mem _ member'))
        (List.append_cancel_left here)
      exact ⟨rfl, behind⟩

theorem intercalate_cons (separator part : List Char) (parts : List (List Char)) :
    separator.intercalate (part :: parts) = part ++ parts.flatMap (separator ++ ·) := by
  induction parts generalizing part with
  | nil => simp [List.intercalate]
  | cons next parts ih =>
    have step : separator.intercalate (part :: next :: parts) =
        part ++ (separator ++ separator.intercalate (next :: parts)) := by
      simp [List.intercalate]
    rw [step, ih next, List.flatMap_cons, List.append_assoc]

/-- The parts of a group with commas between them are found again, and so is what stands behind it. -/
theorem group_injective (stop : last ∈ stops) (apart : last ≠ ',')
    (told : ∀ part ∈ parts, ∀ other ∈ others, Told part other)
    (opens : ∀ part ∈ parts, Opens part) (opens' : ∀ other ∈ others, Opens other)
    (same : (',' :: blank).intercalate parts ++ last :: rest =
      (',' :: blank).intercalate others ++ last :: rest') : parts = others ∧ rest = rest' := by
  have opened {part : List Char} (opens : Opens part) (rest tail : List Char) :
      last :: rest ≠ part ++ tail := by
    obtain ⟨c, behind, rfl, inside⟩ := opens
    intro same
    exact inside ((List.cons.inj same).1 ▸ stop)
  cases parts with
  | nil =>
    cases others with
    | nil => exact ⟨rfl, (List.cons.inj same).2⟩
    | cons other others =>
      rw [intercalate_cons, List.append_assoc] at same
      exact absurd same (opened (opens' other List.mem_cons_self) _ _)
  | cons part parts =>
    cases others with
    | nil =>
      rw [intercalate_cons, List.append_assoc] at same
      exact absurd same.symm (opened (opens part List.mem_cons_self) _ _)
    | cons other others =>
      -- The first part is found as if it followed another one.
      rw [intercalate_cons, intercalate_cons] at same
      have same' := congrArg (',' :: blank ++ ·) same
      simp only [← List.append_assoc] at same'
      simp only [← List.flatMap_cons] at same'
      exact tails_injective stop apart told same'

end groups

end LayeredConfig.Text
