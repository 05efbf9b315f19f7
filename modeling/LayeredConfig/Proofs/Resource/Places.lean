import LayeredConfig.Resource.Files

/-!
Places of files. A walk along a path from a place, all of whose parents are directories, ends at the
place that the names of the path alone lead to; and the walk from the root to that place ends there too.
-/

namespace LayeredConfig

namespace Path

theorem slash_not_mem_pieces {text : List Char} {piece : FileName} (member : piece ∈ pieces text) :
    '/' ∉ piece := by
  induction text generalizing piece with
  | nil =>
    rw [pieces, List.mem_singleton] at member
    simp [member]
  | cons c text ih =>
    rw [pieces] at member
    split at member
    · rcases List.mem_cons.mp member with rfl | later
      · exact List.not_mem_nil
      · exact ih later
    · next plain =>
      have other : '/' ≠ c := fun same => plain (beq_iff_eq.mpr same.symm)
      cases rest : pieces text with
      | nil => exact absurd rest (pieces_ne_nil text)
      | cons first more =>
        rw [rest] at member
        rcases List.mem_cons.mp member with rfl | later
        · have before := ih (rest ▸ List.mem_cons_self)
          simpa [other] using before
        · exact ih (rest ▸ List.mem_cons_of_mem _ later)

theorem pieces_append_slash {name : FileName} (plain : '/' ∉ name) (rest : List Char) :
    pieces (name ++ '/' :: rest) = name :: pieces rest := by
  induction name with
  | nil => rfl
  | cons c name ih =>
    simp only [List.mem_cons, not_or] at plain
    rw [List.cons_append, pieces, ih plain.2, if_neg (by simpa using Ne.symm plain.1)]

theorem pieces_of_plain {name : FileName} (plain : '/' ∉ name) : pieces name = [name] := by
  induction name with
  | nil => rfl
  | cons c name ih =>
    simp only [List.mem_cons, not_or] at plain
    rw [pieces, ih plain.2, if_neg (by simpa using Ne.symm plain.1)]

theorem pieces_joined {names : List FileName} (named : names ≠ []) (plain : ∀ name ∈ names, '/' ∉ name) :
    pieces (joined names) = names := by
  induction names with
  | nil => exact absurd rfl named
  | cons name names ih =>
    have here := plain name List.mem_cons_self
    have later : ∀ name ∈ names, '/' ∉ name := fun name member => plain name (.tail _ member)
    cases names with
    | nil => simpa [joined] using pieces_of_plain here
    | cons next names =>
      have split : joined (name :: next :: names) = name ++ '/' :: joined (next :: names) := by
        simp [joined, List.intercalate]
      rw [split, pieces_append_slash here, ih (List.cons_ne_nil _ _) later]

/-- The path from the root down to a place. -/
def absolute (place : List FileName) : String :=
  String.ofList ('/' :: joined place)

/-- The bytes of some names, each with a slash. -/
def weight (names : List FileName) : Nat :=
  (names.flatMap fun name => Text.encodeUtf8 ('/' :: name)).length

theorem weight_nil : weight [] = 0 :=
  rfl

theorem weight_append (names others : List FileName) :
    weight (names ++ others) = weight names + weight others := by
  rw [weight, List.flatMap_append, List.length_append, ← weight, ← weight]

theorem length_slash (rest : List Char) :
    (Text.encodeUtf8 ('/' :: rest)).length = (Text.encodeUtf8 rest).length + 1 :=
  rfl

theorem weight_cons (name : FileName) (names : List FileName) :
    weight (name :: names) = (Text.encodeUtf8 name).length + 1 + weight names := by
  rw [weight, List.flatMap_cons, List.length_append, length_slash, ← weight]

/-- The bytes of names with slashes between them, and one in front. -/
theorem length_absolute {names : List FileName} (named : names ≠ []) :
    (Text.encodeUtf8 (absolute names).toList).length = weight names := by
  rw [absolute, String.toList_ofList, length_slash]
  induction names with
  | nil => exact absurd rfl named
  | cons name names ih =>
    cases names with
    | nil =>
      rw [weight_cons]
      simp [joined, List.intercalate, weight]
    | cons next names =>
      have split : joined (name :: next :: names) = name ++ '/' :: joined (next :: names) := by
        simp [joined, List.intercalate]
      rw [split, Text.encodeUtf8, List.flatMap_append, List.length_append, ← Text.encodeUtf8, ← Text.encodeUtf8,
        length_slash, ih (List.cons_ne_nil _ _), weight_cons name]
      omega

theorem length_absolute_le {place names : List FileName} (light : weight place ≤ weight names) :
    (Text.encodeUtf8 (absolute place).toList).length ≤ (Text.encodeUtf8 (absolute names).toList).length := by
  by_cases named : place = []
  · rw [named, absolute, absolute, String.toList_ofList, String.toList_ofList, length_slash (joined names)]
    exact Nat.le_add_left 1 _
  · have heavy : 0 < weight place := by
      cases place with
      | nil => exact absurd rfl named
      | cons name place =>
        rw [weight_cons]
        omega
    have named' : names ≠ [] := by
      rintro rfl
      exact absurd light (Nat.not_le.mpr heavy)
    rwa [length_absolute named, length_absolute named']

/-- An absolute path has at least the slash in front. -/
theorem length_absolute_le_text {path : Path} (rooted : path.isAbsolute = true) :
    (Text.encodeUtf8 (absolute path.names).toList).length ≤ (Text.encodeUtf8 path.text.toList).length := by
  obtain ⟨root, names⟩ := path
  cases root with
  | relative => cases rooted
  | single => exact Nat.le_refl _
  | double =>
    rw [text, absolute, String.toList_ofList, String.toList_ofList, length_slash ('/' :: _)]
    exact Nat.le_add_right _ _

/-- A step makes a place no longer than the name it takes. -/
theorem weight_foldl_step (place names : List FileName) :
    weight (names.foldl step place) ≤ weight place + weight names := by
  induction names generalizing place with
  | nil => exact Nat.le_add_right _ _
  | cons name names ih =>
    have here : weight (step place name) ≤ weight place + weight [name] := by
      unfold step
      split
      · have whole : weight place.dropLast ≤ weight place := by
          rcases List.eq_nil_or_concat place with rfl | ⟨above, last, rfl⟩
          · exact Nat.le_refl _
          · rw [List.concat_eq_append, List.dropLast_concat, weight_append]
            exact Nat.le_add_right _ _
        exact Nat.le_add_right_of_le whole
      · exact Nat.le_of_eq (weight_append place [name])
    calc weight (names.foldl step (step place name))
        ≤ weight (step place name) + weight names := ih _
      _ ≤ weight place + weight [name] + weight names := Nat.add_le_add_right here _
      _ = weight place + weight (name :: names) := by
        rw [Nat.add_assoc, ← weight_append, List.singleton_append]

theorem mem_names_ofText {text : String} {name : FileName} (member : name ∈ (ofText text).names) :
    '/' ∉ name ∧ isVoid name = false := by
  obtain ⟨piece, solid⟩ := List.mem_filter.mp member
  exact ⟨slash_not_mem_pieces piece, by simpa using solid⟩

end Path

namespace Files

variable {files : Files} {place : List FileName}

/-- A name that a file can have. -/
structure Nameable (name : FileName) : Prop where
  solid : Path.isVoid name = false
  child : Path.isParent name = false
  short : (Text.encodeUtf8 name).length ≤ longestName
  plain : '/' ∉ name
  visible : '\x00' ∉ name

/-- A place at which something can be: every place above it is a directory. -/
structure Standing (files : Files) (place : List FileName) : Prop where
  names : ∀ name ∈ place, Nameable name
  above : ∀ before name after, place = before ++ name :: after → files.entry? before = some .directory

theorem Standing.root : files.Standing [] :=
  ⟨by simp, by simp⟩

theorem Standing.child (standing : files.Standing place) (directory : files.entry? place = some .directory)
    {name : FileName} (nameable : Nameable name) : files.Standing (place ++ [name]) := by
  refine ⟨fun other member => ?_, fun before other after split => ?_⟩
  · rcases List.mem_append.mp member with member | member
    · exact standing.names other member
    · exact List.mem_singleton.mp member ▸ nameable
  · rcases List.eq_nil_or_concat after with rfl | ⟨after, last, rfl⟩
    · obtain ⟨rfl, -⟩ := List.append_inj' split rfl
      exact directory
    · rw [List.concat_eq_append, ← List.cons_append, ← List.append_assoc] at split
      obtain ⟨same, -⟩ := List.append_inj' split rfl
      exact standing.above before other after same

theorem Standing.parent (standing : files.Standing place) : files.Standing place.dropLast := by
  rcases List.eq_nil_or_concat place with rfl | ⟨above, last, rfl⟩
  · exact .root
  · rw [List.concat_eq_append] at standing ⊢
    rw [List.dropLast_concat]
    exact ⟨fun name member => standing.names name (List.mem_append_left _ member),
      fun before name after split => standing.above before name (after ++ [last]) (by simp [split])⟩

theorem walk_of_void (name : FileName) (rest : List FileName) (void : Path.isVoid name = true)
    (directory : files.entry? place = some .directory) :
    files.walk place (name :: rest) = files.walk place rest := by
  rw [walk, directory]
  simp only [void, if_true]

theorem walk_of_long {name : FileName} (rest : List FileName) (solid : Path.isVoid name = false)
    (child : Path.isParent name = false) (long : longestName < (Text.encodeUtf8 name).length)
    (directory : files.entry? place = some .directory) :
    files.walk place (name :: rest) = .error .nameTooLong := by
  rw [walk, directory]
  simp only [solid, child, long, Bool.false_eq_true, if_false, if_true]

/-- What a walk does at a name: it ends unless the place is a directory and the name is short. -/
theorem walk_cons {name : FileName} {rest : List FileName} (solid : Path.isVoid name = false)
    (walked : files.walk place (name :: rest) = .ok entry) :
    files.entry? place = some .directory ∧
      (Path.isParent name = false → (Text.encodeUtf8 name).length ≤ longestName) ∧
      files.walk (Path.step place name) rest = .ok entry := by
  rw [walk] at walked
  split at walked
  · next directory =>
    refine ⟨directory, ?_⟩
    rw [solid, if_neg Bool.false_ne_true] at walked
    unfold Path.step
    split at walked
    · next parent =>
      rw [if_pos parent]
      exact ⟨fun child => by simp [child] at parent, walked⟩
    · next child =>
      rw [if_neg child]
      split at walked
      · cases walked
      · next short => exact ⟨fun _ => Nat.le_of_not_lt short, walked⟩
  · cases walked

/-- A walk ends where the names of the path lead to. -/
theorem walk_resolves {names : List FileName} (standing : files.Standing place)
    (plain : ∀ name ∈ names, '/' ∉ name ∧ Path.isVoid name = false) (visible : ∀ name ∈ names, '\x00' ∉ name)
    (walked : files.walk place names = .ok entry) :
    files.Standing (names.foldl Path.step place) ∧ files.entry? (names.foldl Path.step place) = some entry := by
  induction names generalizing place with
  | nil =>
    rw [walk] at walked
    split at walked
    · next found =>
      obtain rfl := Except.ok.inj walked
      exact ⟨standing, found⟩
    · cases walked
  | cons name names ih =>
    obtain ⟨slashless, solid⟩ := plain name List.mem_cons_self
    obtain ⟨directory, short, walked⟩ := walk_cons solid walked
    refine ih ?_ (fun other later => plain other (.tail _ later))
      (fun other later => visible other (.tail _ later)) walked
    unfold Path.step
    split
    · exact standing.parent
    · next child =>
      rw [Bool.not_eq_true] at child
      exact standing.child directory ⟨solid, child, short child, slashless, visible name List.mem_cons_self⟩

theorem Standing.walk_rest {before after : List FileName} (standing : files.Standing (before ++ after))
    (found : files.entry? (before ++ after) = some entry) : files.walk before after = .ok entry := by
  induction after generalizing before with
  | nil =>
    rw [List.append_nil] at found
    rw [walk, found]
  | cons name after ih =>
    have nameable := standing.names name (List.mem_append_right _ List.mem_cons_self)
    have split : before ++ name :: after = before ++ [name] ++ after := by simp
    rw [split] at standing found
    rw [walk, standing.above before name after split.symm]
    simp only [nameable.solid, nameable.child, Nat.not_lt.mpr nameable.short, if_false, Bool.false_eq_true]
    exact ih standing found

theorem of_findPath {path : Path} (found : files.findPath path = .ok entry) :
    (∀ name ∈ path.names, '\x00' ∉ name) ∧ (Text.encodeUtf8 path.text.toList).length ≤ longestPath ∧
      files.walk (if path.isAbsolute then [] else files.home) path.names = .ok entry := by
  unfold findPath find at found
  split at found
  · cases found
  · next nameable =>
    split at found
    · cases found
    · next short => exact ⟨by simpa using nameable, Nat.le_of_not_lt short, found⟩

/-- The path from the root down to a place is short enough to be asked for. -/
def Askable (place : List FileName) : Prop :=
  (Text.encodeUtf8 (Path.absolute place).toList).length ≤ longestPath

instance (place : List FileName) : Decidable (Askable place) :=
  inferInstanceAs (Decidable (_ ≤ _))

/-- The path from the root down to a place leads there from anywhere, if it can be asked for. -/
theorem Standing.findText_eq (standing : files.Standing place) (named : place ≠ [])
    (found : files.entry? place = some entry) :
    files.findText (Path.absolute place) = if Askable place then .ok entry else .error .nameTooLong := by
  have pieces : Path.pieces ('/' :: Path.joined place) = [] :: place := by
    rw [Path.pieces, Path.pieces_joined named fun name member => (standing.names name member).plain]
    rfl
  have visible : ([] :: place).any (·.contains '\x00') = false := by
    refine List.any_eq_false.mpr fun name member => ?_
    rcases List.mem_cons.mp member with rfl | member
    · simp
    · simpa using (standing.names name member).visible
  have root : files.entry? [] = some .directory := rfl
  rw [Files.findText, Path.absolute, String.toList_ofList, pieces, if_neg (by simp), find, visible,
    if_neg Bool.false_ne_true]
  split
  · next long =>
    have beyond : ¬ Askable place := Nat.not_le.mpr long
    rw [if_neg beyond]
  · next short =>
    have within : Askable place := Nat.le_of_not_lt short
    rw [if_pos within]
    exact (walk_of_void [] place rfl root).trans (standing.walk_rest found)

end Files

end LayeredConfig
