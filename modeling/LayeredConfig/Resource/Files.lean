import LayeredConfig.Resource.Network
import LayeredConfig.Resource.Path
import LayeredConfig.Text.Encoding

/-!
The files that locations refer to: a tree of directories and files, and the directory that relative
paths start from. There are no links and no permissions: every file can be read, every directory can be
passed, and a name stands for one entry only. The limits on the lengths of names and of paths are the same
everywhere.
-/

namespace LayeredConfig

inductive FileEntry
  | directory
  | file (bytes : List UInt8)
  deriving DecidableEq, Repr

/-- Directories and files under their places; a place is the list of names from the root on. Beside them
stands what addresses of other hosts lead to. -/
structure Files where
  home : List FileName
  entries : List (List FileName × FileEntry)
  network : Network := {}
  deriving Repr

/-- Why a path leads to no entry. -/
inductive Obstacle
  | missing
  /-- A name longer than files can have, or a path longer than can be asked for. -/
  | nameTooLong
  /-- A path with a null character. -/
  | unnameable
  deriving DecidableEq, Repr

namespace Files

/-- Neither files nor other hosts. -/
def empty : Files :=
  { home := [], entries := [] }

/-- The entry at a place. The root is a directory. -/
def entry? (files : Files) (place : List FileName) : Option FileEntry :=
  if place.isEmpty then some .directory else files.entries.lookup place

/-- The most bytes that a name can have. -/
def longestName : Nat := 255

/-- Walks from a place over the pieces of a path. Every place that is passed has to be a directory. -/
def walk (files : Files) (place : List FileName) : List FileName → Except Obstacle FileEntry
  | [] =>
    match files.entry? place with
    | some entry => .ok entry
    | none => .error .missing
  | piece :: pieces =>
    match files.entry? place with
    | some .directory =>
      if Path.isVoid piece then walk files place pieces
      else if Path.isParent piece then walk files place.dropLast pieces
      else if longestName < (Text.encodeUtf8 piece).length then .error .nameTooLong
      else walk files (place ++ [piece]) pieces
    | _ => .error .missing

/-- The most bytes that a path can have. -/
def longestPath : Nat := 4095

/-- The entry that some pieces of a text lead to, from the root or from home. A text that is too long
leads nowhere, whatever its pieces are. -/
def find (files : Files) (text : String) (absolute : Bool) (pieces : List FileName) :
    Except Obstacle FileEntry :=
  if pieces.any (·.contains '\x00') then .error .unnameable
  else if longestPath < (Text.encodeUtf8 text.toList).length then .error .nameTooLong
  else files.walk (if absolute then [] else files.home) pieces

/-- The entry that a text leads to, piece by piece. A slash at the end asks for a directory. -/
def findText (files : Files) (text : String) : Except Obstacle FileEntry :=
  if text.isEmpty then .error .missing
  else files.find text (text.toList.head? == some '/') (Path.pieces text.toList)

/-- The entry that a path leads to. -/
def findPath (files : Files) (path : Path) : Except Obstacle FileEntry :=
  files.find path.text path.isAbsolute path.names

/-- The files with an entry at a place. -/
def put (files : Files) (place : List FileName) (entry : FileEntry) : Files :=
  { files with entries := (place, entry) :: files.entries.filter (·.1 != place) }

/-- The files with a directory at a place and at all places above it; what is there stays. -/
def makeDirectory (files : Files) (place : List FileName) : Files :=
  (List.range (place.length + 1)).foldl (fun files depth =>
    let above := place.take depth
    if (files.entry? above).isSome then files else files.put above .directory) files

/-- The files with a file at a place, and the directories above it. -/
def write (files : Files) (place : List FileName) (bytes : List UInt8) : Files :=
  (files.makeDirectory place.dropLast).put place (.file bytes)

/-- The files without what is at a place or below it. -/
def delete (files : Files) (place : List FileName) : Files :=
  { files with entries := files.entries.filter (!place.isPrefixOf ·.1) }

/-- The place that a path leads to from home, going by the names alone. -/
def place (files : Files) (text : String) : List FileName :=
  Path.resolve files.home (.ofText text)

end Files

end LayeredConfig
