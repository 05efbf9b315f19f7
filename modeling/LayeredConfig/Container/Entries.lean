/-!
Dictionaries as lists of entries, and sets as lists of members, in the order of first insertion.
Keys and members are told apart by an equality given with each operation.
-/

namespace LayeredConfig.Entries

variable {κ ν : Type}

/-- The value of an equal key. -/
def find? (eq : κ → κ → Bool) (key : κ) : List (κ × ν) → Option ν
  | [] => none
  | (k, v) :: entries => if eq k key then some v else find? eq key entries

/-- Gives a key a value. An equal key keeps its place and its object; a new one comes last. -/
def put (eq : κ → κ → Bool) (key : κ) (value : ν) : List (κ × ν) → List (κ × ν)
  | [] => [(key, value)]
  | (k, v) :: entries =>
    if eq k key then (k, value) :: entries else (k, v) :: put eq key value entries

/-- Removes the entry of an equal key. -/
def erase (eq : κ → κ → Bool) (key : κ) : List (κ × ν) → List (κ × ν)
  | [] => []
  | (k, v) :: entries => if eq k key then entries else (k, v) :: erase eq key entries

/-- Puts entries one after the other. -/
def putAll (eq : κ → κ → Bool) (added : List (κ × ν)) (entries : List (κ × ν)) : List (κ × ν) :=
  added.foldl (fun entries entry => put eq entry.1 entry.2 entries) entries

end LayeredConfig.Entries

namespace LayeredConfig.Members

variable {κ : Type}

def contains (eq : κ → κ → Bool) (member : κ) (members : List κ) : Bool :=
  members.any (eq · member)

/-- Adds a member unless there is an equal one. -/
def insert (eq : κ → κ → Bool) (member : κ) (members : List κ) : List κ :=
  if contains eq member members then members else members ++ [member]

/-- Removes the equal member. -/
def erase (eq : κ → κ → Bool) (member : κ) : List κ → List κ
  | [] => []
  | m :: members => if eq m member then members else m :: erase eq member members

/-- Adds elements one after the other. -/
def insertAll (eq : κ → κ → Bool) (elements members : List κ) : List κ :=
  elements.foldl (fun members element => insert eq element members) members

/-- The members among some elements, each with its first object. -/
def ofList (eq : κ → κ → Bool) (elements : List κ) : List κ :=
  insertAll eq elements []

/-- The members of both, with the objects of the second. -/
def inter (eq : κ → κ → Bool) (members others : List κ) : List κ :=
  ofList eq (others.filter (contains eq · members))

/-- The members that are not among others. -/
def diff (eq : κ → κ → Bool) (members others : List κ) : List κ :=
  members.filter (!contains eq · others)

/-- The members of exactly one of the two. -/
def symmDiff (eq : κ → κ → Bool) (members others : List κ) : List κ :=
  insertAll eq (diff eq others members) (diff eq members others)

/-- Whether every member is among others. -/
def subset (eq : κ → κ → Bool) (members others : List κ) : Bool :=
  members.all (contains eq · others)

/-- Adds a member, or removes it if it is there. -/
def toggle (eq : κ → κ → Bool) (members : List κ) (member : κ) : List κ :=
  if contains eq member members then erase eq member members else members ++ [member]

end LayeredConfig.Members
