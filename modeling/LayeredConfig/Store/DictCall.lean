import LayeredConfig.Store.Traversal

/-!
Calls on dictionaries. Keys are compared by value; a key keeps the object and the place of its first
insertion as long as it stays.
-/

namespace LayeredConfig.DictCall

open Step

abbrev Content := List (Value × Item)

/-- The two parts of an item that is meant as an entry. -/
def entryOf (item : Item) : Step (Value × Item) := do
  match ← elements item with
  | [key, value] => return (← hashable key, value)
  | _ => fail .content

/-- Puts entries one after the other. A faulty one ends this, and those before it stay. -/
def putItems (identity : Identity) (kind : DictKind) (content : Content) :
    List Item → Step Content
  | [] => return content
  | item :: items => do
    let (key, value) ← entryOf item
    let content := Entries.put Value.same key value content
    write identity (.dict kind content)
    putItems identity kind content items

/-- Puts the entries of a dictionary, or the pairs of anything else that has parts. -/
def updateFrom (identity : Identity) (kind : DictKind) (content : Content) (source : Item) :
    Step Content := do
  let entries? ←
    match source with
    | .object other => do
      match ← cell other with
      | .dict _ entries => pure (some entries)
      | _ => pure none
    | .value _ => pure none
  match entries? with
  | some entries =>
    let content := Entries.putAll Value.same entries content
    write identity (.dict kind content)
    return content
  | none => putItems identity kind content (← elements source)

/-- Puts the entries of at most one source, and then named ones. No entry may be named `self`, which is
the name of the dictionary itself in the call. -/
def update (identity : Identity) (kind : DictKind) (content : Content)
    (arguments : List Argument) (named : List (Str × Item)) : Step Outcome := do
  if (named.lookup (.whole "self")).isSome then fail .kind
  let content ←
    match arguments with
    | [] => pure content
    | [.item source] => updateFrom identity kind content source
    | _ => fail .kind
  let content := Entries.putAll Value.same (named.map fun (name, item) => (.str name, item)) content
  write identity (.dict kind content)
  return .nothing

/-- Takes an entry away and answers its value. A dictionary without entries does not look at the key. -/
def pop (identity : Identity) (kind : DictKind) (content : Content) (key : Item)
    (default : Option Item) : Step Outcome := do
  let missing : Step Outcome :=
    match default with
    | some item => return .item item
    | none => fail .absent
  if content.isEmpty then missing
  else
    let key ← hashable key
    match Entries.find? Value.same key content with
    | some item =>
      write identity (.dict kind (Entries.erase Value.same key content))
      return .item item
    | none => missing

/-- The source of a new dictionary, which may itself be one of the named entries; null stands for none. -/
def sourceOf (source : Option Item) (named : List (Str × Item)) : Option Item :=
  match source.or (named.lookup (.whole "items")) with
  | some (.value (.scalar .null)) => none
  | source => source

/-- A new dictionary with the entries of a source and then named ones. -/
def construct (source : Option Item) (named : List (Str × Item)) : Step Item := do
  if source.isSome && (named.lookup (.whole "items")).isSome then fail .kind
  let identity := (← get).cells.length
  let item ← alloc (.dict .concurrent [])
  let arguments := (sourceOf source named).toList.map Argument.item
  let _ ← update identity .concurrent [] arguments (named.filter (·.1 != "items"))
  return item

/-- Whether two values of dictionaries are one object or equal. -/
def sameItem (a b : Item) : Step Bool := do
  match a, b with
  | .object first, .object second =>
    if first == second then return true
    else return (← valueOf a).same (← valueOf b)
  | _, _ => return (← valueOf a).same (← valueOf b)

/-- Whether each of some entries has an equal key among others, with the same value. -/
def sameWithin (others : Content) : Content → Step Bool
  | [] => return true
  | (key, item) :: entries => do
    match Entries.find? Value.same key others with
    | some other =>
      if ← sameItem item other then sameWithin others entries
      else return false
    | none => return false

/-- Equality with another dictionary; what is none leaves the question open. -/
def equal (content : Content) (other : Item) : Step Outcome := do
  match other with
  | .object other =>
    match ← cell other with
    | .dict _ entries =>
      if content.length == entries.length then return .flag (← sameWithin entries content)
      else return .flag false
    | _ => return .notImplemented
  | .value _ => return .notImplemented

/-- A call on a dictionary. -/
def run (identity : Identity) (kind : DictKind) (content : Content) (method : Method)
    (arguments : List Argument) : Step Outcome :=
  let replace (content : Content) : Step Outcome := do
    write identity (.dict kind content)
    return .nothing
  let find (key : Item) : Step (Option Item) := do
    return Entries.find? Value.same (← hashable key) content
  match method with
  | .getItem => withOne arguments fun key => do
    match ← find key with
    | some item => return .item item
    | none => fail .absent
  | .setItem => withTwo arguments fun key item => do
    replace (Entries.put Value.same (← hashable key) item content)
  | .deleteItem => withOne arguments fun key => do
    match ← find key with
    | some _ => replace (Entries.erase Value.same (← hashable key) content)
    | none => fail .absent
  | .contains => withOne arguments fun key => do return .flag (← find key).isSome
  | .length => withNone arguments (return .number content.length)
  | .get => do
    match arguments with
    | [.item key] => return .item ((← find key).getD (.value .null))
    | [.item key, .item default] => return .item ((← find key).getD default)
    | _ => fail .kind
  | .setDefault => do
    let (key, default) ←
      match arguments with
      | [.item key] => pure (key, .value .null)
      | [.item key, .item default] => pure (key, default)
      | _ => fail .kind
    match ← find key with
    | some item => return .item item
    | none =>
      let _ ← replace (Entries.put Value.same (← hashable key) default content)
      return .item default
  | .pop =>
    match arguments with
    | [.item key] => pop identity kind content key none
    | [.item key, .item default] => pop identity kind content key (some default)
    | _ => fail .kind
  | .popItem => withNone arguments do
    match content.getLast? with
    | some (key, item) =>
      let _ ← replace content.dropLast
      return .item (← tuple [.value key, item])
    | none => fail .absent
  | .clear => withNone arguments (replace [])
  | .update => update identity kind content arguments []
  | .keys | .iterate => withNone arguments do return .items (← (← Traversal.ofObject identity).toItems)
  | .values => withNone arguments do return .items (← (← Traversal.overValues identity).toItems)
  | .items => withNone arguments do return .items (← (← Traversal.overEntries identity).toItems)
  | .reversed => fail .kind
  | .snapshot => do
    if kind == .concurrent then withNone arguments (Outcome.item <$> alloc (.dict .plain content))
    else fail .method
  | .equal => withOne arguments (equal content)
  | .less | .lessEqual | .greater | .greaterEqual => withOne arguments fun _ => return .notImplemented
  | _ => fail .method

end LayeredConfig.DictCall
