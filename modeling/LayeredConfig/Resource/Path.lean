/-!
Paths as texts. A path has a root and names between slashes; empty names and single dots add nothing.
The name of the parent stays, since only the files can tell what it leads to.
-/

namespace LayeredConfig

abbrev FileName := List Char

/-- What a path starts from. Exactly two slashes in front are a root of their own. -/
inductive PathRoot
  | relative
  | single
  | double
  deriving DecidableEq, Repr

structure Path where
  root : PathRoot
  names : List FileName
  deriving DecidableEq, Repr

namespace Path

/-- The pieces of a text between slashes, empty ones included. -/
def pieces : List Char → List FileName
  | [] => [[]]
  | c :: rest =>
    if c == '/' then [] :: pieces rest
    else match pieces rest with
      | [] => [[c]]
      | piece :: more => (c :: piece) :: more

theorem pieces_ne_nil (text : List Char) : pieces text ≠ [] := by
  cases text with
  | nil => simp [pieces]
  | cons c rest =>
    rw [pieces]
    split
    · simp
    · split <;> simp

def isVoid (name : FileName) : Bool :=
  name == [] || name == ['.']

def isParent (name : FileName) : Bool :=
  name == ['.', '.']

def rootOf : List Char → PathRoot
  | '/' :: '/' :: '/' :: _ => .single
  | '/' :: '/' :: _ => .double
  | '/' :: _ => .single
  | _ => .relative

def ofText (text : String) : Path :=
  ⟨rootOf text.toList, (pieces text.toList).filter (!isVoid ·)⟩

def isAbsolute (path : Path) : Bool :=
  path.root != .relative

/-- Names with slashes between them. -/
def joined (names : List FileName) : List Char :=
  ['/'].intercalate names

theorem joined_pieces (text : List Char) : joined (pieces text) = text := by
  induction text with
  | nil => rfl
  | cons c rest ih =>
    rcases found : pieces rest with _ | ⟨piece, more⟩
    · exact absurd found (pieces_ne_nil rest)
    · rw [found] at ih
      by_cases slash : c = '/'
      · simp only [pieces, slash, beq_self_eq_true, if_true, found]
        rw [← ih]
        simp [joined, List.intercalate]
      · simp only [pieces, beq_iff_eq, slash, if_false, found]
        rw [← ih]
        cases more <;> simp [joined, List.intercalate]

/-- The text of a path; one without names leads to where it starts. -/
def text (path : Path) : String :=
  match path.root with
  | .relative => if path.names.isEmpty then "." else String.ofList (joined path.names)
  | .single => String.ofList ('/' :: joined path.names)
  | .double => String.ofList ('/' :: '/' :: joined path.names)

/-- The path that a relative path leads to from a directory. -/
def append (directory path : Path) : Path :=
  ⟨directory.root, directory.names ++ path.names⟩

/-- One step down, or up at the name of the parent. The root is its own parent. -/
def step (place : List FileName) (name : FileName) : List FileName :=
  if isParent name then place.dropLast else place ++ [name]

/-- The names from the root on to where a path leads from a place, going by the names alone. -/
def resolve (home : List FileName) (path : Path) : List FileName :=
  path.names.foldl step (if path.isAbsolute then [] else home)

end Path

end LayeredConfig
