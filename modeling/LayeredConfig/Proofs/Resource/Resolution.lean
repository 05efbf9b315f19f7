import LayeredConfig.Proofs.Loader.Startup
import LayeredConfig.Proofs.Resource.Addresses
import LayeredConfig.Proofs.Schema.Enumerations

namespace LayeredConfig

namespace Location

/-- A name is looked for on the search path: it is no address and no absolute path. -/
def Sought (name : String) : Prop :=
  hasSchemeMark name.toList = false ∧ (Path.ofText name).isAbsolute = false

/-- What a name leads to from a directory. -/
def entryIn (files : Files) (name : String) (directory : Path) : Except Obstacle FileEntry :=
  files.findPath (directory.append (.ofText name))

/-- The place that a name leads to from a directory, going by the names alone. -/
def placeIn (files : Files) (name : String) (directory : Path) : List FileName :=
  (directory.append (.ofText name)).resolve files.home

/-- The address of what a name leads to from a directory. -/
def urlIn (files : Files) (name : String) (directory : Path) : String :=
  fileUrl (placeIn files name directory)

/-- A search ends at a directory: a file has the name there, or the name or the path is too long for one. -/
def Ending (files : Files) (name : String) (directory : Path) : Prop :=
  (∃ bytes, entryIn files name directory = .ok (.file bytes)) ∨
    entryIn files name directory = .error .nameTooLong

/-- What looking for the resource with a name comes to. -/
inductive Resolves (files : Files) (searchPath : List Path) (key name : String) :
    Except Failure Location → Prop
  | opened {bytes : List UInt8} (opens : Address.read files name = .ok bytes) :
      Resolves files searchPath key name (.ok ⟨name, name⟩)
  | found {failure : AddressFailure} {directory : Path} {bytes : List UInt8}
      (closed : Address.read files name = .error failure) (sought : Sought name)
      (first : First (Ending files name) searchPath directory)
      (file : entryIn files name directory = .ok (.file bytes)) :
      Resolves files searchPath key name (.ok ⟨urlIn files name directory, name⟩)
  | overlong {failure : AddressFailure} {directory : Path}
      (closed : Address.read files name = .error failure) (sought : Sought name)
      (first : First (Ending files name) searchPath directory)
      (long : entryIn files name directory = .error .nameTooLong) :
      Resolves files searchPath key name (.error (.fault .nameTooLong))
  | unprefixed {failure : AddressFailure} (closed : Address.read files name = .error failure)
      (nowhere : Sought name → ∀ directory ∈ searchPath, ¬ Ending files name directory)
      (unmarked : ¬ fileMark.toList <+: name.toList) :
      Resolves files searchPath key name (.error (.configuration (.unprefixedLocation
        ("Expecting URI in variable: [" ++ key ++ "]. Found [" ++ name ++ "].")
        (some ("Please prefix the file with [" ++ fileMark ++ "/] for local files and [" ++ fileMark ++
          "<server>/] for remote files."))
        (some key) (some name))))
  | absent {failure : AddressFailure} (closed : Address.read files name = .error failure)
      (nowhere : Sought name → ∀ directory ∈ searchPath, ¬ Ending files name directory)
      (marked : fileMark.toList <+: name.toList) :
      Resolves files searchPath key name (.error (.configuration (.resourceNotFound
        ("Cannot locate " ++ name ++ ".")
        (some ("If this is a local file, please confirm you've provided " ++ fileMark ++
          "/ as a URI prefix."))
        (some name))))

section search

variable {files : Files} {name : String} {searchPath : List Path}

theorem findIn_of_file {directory : Path} {bytes : List UInt8}
    (file : entryIn files name directory = .ok (.file bytes)) :
    findIn files name (directory :: searchPath) = .ok (some ⟨urlIn files name directory, name⟩) := by
  unfold entryIn at file
  simp only [findIn, file, urlIn, placeIn]

theorem findIn_of_nameTooLong {directory : Path}
    (long : entryIn files name directory = .error .nameTooLong) :
    findIn files name (directory :: searchPath) = .error .nameTooLong := by
  unfold entryIn at long
  simp only [findIn, long]

/-- A search goes on after a directory at which it does not end. -/
theorem findIn_of_not_ending {directory : Path} (passed : ¬ Ending files name directory) :
    findIn files name (directory :: searchPath) = findIn files name searchPath := by
  rw [findIn]
  split
  · next bytes file => exact absurd (.inl ⟨bytes, file⟩) passed
  · next long => exact absurd (.inr long) passed
  · rfl

/-- A search comes to what is in the first directory at which it ends. -/
theorem findIn_of_first {directory : Path} (first : First (Ending files name) searchPath directory) :
    findIn files name searchPath = findIn files name [directory] := by
  obtain ⟨ends, before, after, rfl, passed⟩ := first
  induction before with
  | nil =>
    rcases ends with ⟨bytes, file⟩ | long
    · rw [List.nil_append, findIn_of_file file, findIn_of_file file]
    · rw [List.nil_append, findIn_of_nameTooLong long, findIn_of_nameTooLong long]
  | cons other before ih =>
    obtain ⟨here, later⟩ := List.forall_mem_cons.mp passed
    rw [List.cons_append, findIn_of_not_ending here, ih later]

theorem findIn_of_none_ending (passed : ∀ directory ∈ searchPath, ¬ Ending files name directory) :
    findIn files name searchPath = .ok none := by
  induction searchPath with
  | nil => rfl
  | cons directory searchPath ih =>
    obtain ⟨here, later⟩ := List.forall_mem_cons.mp passed
    rw [findIn_of_not_ending here, ih later]

theorem first_ending_or_none (files : Files) (name : String) (searchPath : List Path) :
    (∃ directory, First (Ending files name) searchPath directory) ∨
      ∀ directory ∈ searchPath, ¬ Ending files name directory := by
  induction searchPath with
  | nil => exact .inr (by simp)
  | cons directory searchPath ih =>
    by_cases here : Ending files name directory
    · exact .inl ⟨directory, .head here searchPath⟩
    · rcases ih with ⟨later, first⟩ | passed
      · exact .inl ⟨later, first.tail here⟩
      · exact .inr (List.forall_mem_cons.mpr ⟨here, passed⟩)

theorem search_of_sought (sought : Sought name) :
    search files searchPath name = findIn files name searchPath := by
  rw [search, sought.1, sought.2]
  rfl

theorem search_of_nowhere (nowhere : Sought name → ∀ directory ∈ searchPath, ¬ Ending files name directory) :
    search files searchPath name = .ok none := by
  by_cases sought : Sought name
  · rw [search_of_sought sought, findIn_of_none_ending (nowhere sought)]
  · have known : (hasSchemeMark name.toList || (Path.ofText name).isAbsolute) = true := by
      rw [Sought, ← Bool.not_eq_true, ← Bool.not_eq_true, ← not_or] at sought
      exact Bool.or_eq_true _ _ ▸ Classical.not_not.mp sought
    rw [search, known]
    rfl

/-- A name that cannot be opened is searched for. -/
theorem named_of_closed {key : String} {failure : AddressFailure}
    (closed : Address.read files name = .error failure) :
    named files searchPath key name =
      (search files searchPath name).mapError Failure.fault >>= orMissing key name := by
  unfold named direct
  simp only [closed]

theorem named_of_nowhere {key : String} {failure : AddressFailure}
    (closed : Address.read files name = .error failure)
    (nowhere : Sought name → ∀ directory ∈ searchPath, ¬ Ending files name directory) :
    named files searchPath key name = .error (.configuration (notFound key name)) := by
  rw [named_of_closed closed, search_of_nowhere nowhere]
  rfl

theorem Resolves.named_eq {key : String} {result : Except Failure Location}
    (resolves : Resolves files searchPath key name result) :
    named files searchPath key name = result := by
  cases resolves with
  | opened opens =>
    unfold named direct
    simp only [opens]
  | found closed sought first file =>
    rw [named_of_closed closed, search_of_sought sought, findIn_of_first first, findIn_of_file file]
    rfl
  | overlong closed sought first long =>
    rw [named_of_closed closed, search_of_sought sought, findIn_of_first first, findIn_of_nameTooLong long]
    rfl
  | unprefixed closed nowhere unmarked =>
    rw [named_of_nowhere closed nowhere, notFound,
      if_neg (by rwa [List.isPrefixOf_iff_prefix])]
  | absent closed nowhere marked =>
    rw [named_of_nowhere closed nowhere, notFound,
      if_pos (by rwa [List.isPrefixOf_iff_prefix])]

theorem exists_resolves (files : Files) (searchPath : List Path) (key name : String) :
    ∃ result, Resolves files searchPath key name result := by
  cases opened : Address.read files name with
  | ok bytes => exact ⟨_, .opened opened⟩
  | error failure =>
    have missing (nowhere : Sought name → ∀ directory ∈ searchPath, ¬ Ending files name directory) :
        ∃ result, Resolves files searchPath key name result := by
      by_cases marked : fileMark.toList <+: name.toList
      · exact ⟨_, .absent opened nowhere marked⟩
      · exact ⟨_, .unprefixed opened nowhere marked⟩
    by_cases sought : Sought name
    · rcases first_ending_or_none files name searchPath with ⟨directory, first⟩ | nowhere
      · rcases first.1 with ⟨bytes, file⟩ | long
        · exact ⟨_, .found opened sought first file⟩
        · exact ⟨_, .overlong opened sought first long⟩
      · exact missing fun _ => nowhere
    · exact missing fun found => absurd found sought

/-- Looking for a resource has exactly one outcome, the one described. -/
theorem named_eq_iff {key : String} {result : Except Failure Location} :
    named files searchPath key name = result ↔ Resolves files searchPath key name result := by
  refine ⟨fun same => ?_, Resolves.named_eq⟩
  obtain ⟨outcome, resolves⟩ := exists_resolves files searchPath key name
  rw [← same, resolves.named_eq]
  exact resolves

end search

section reading

variable {files : Files} {name : String}

theorem read_of_no_scheme
    (bare : Address.splitScheme (Address.splitFragment (Address.unwrap name.toList)).1 = none) :
    Address.read files name = .error .faulty := by
  unfold Address.read
  simp only [bare]

/-- What a name leads to from a directory is at the place that the names alone lead to. -/
theorem standing_of_entryIn {directory : String} (home : files.Standing files.home)
    (found : entryIn files name (.ofText directory) = .ok entry) :
    files.Standing (placeIn files name (.ofText directory)) ∧
      files.entry? (placeIn files name (.ofText directory)) = some entry := by
  let path := Path.append (.ofText directory) (.ofText name)
  have plain : ∀ piece ∈ path.names, '/' ∉ piece ∧ Path.isVoid piece = false := by
    intro piece member
    rcases List.mem_append.mp member with member | member
    · exact Path.mem_names_ofText member
    · exact Path.mem_names_ofText member
  have start : files.Standing (if path.isAbsolute then [] else files.home) := by
    split
    · exact .root
    · exact home
  obtain ⟨visible, -, walked⟩ := Files.of_findPath found
  exact Files.walk_resolves start plain visible walked

/-- An absolute path that is not too long does not become so when its names alone are followed. -/
theorem askable_of_isAbsolute {directory : Path} (absolute : directory.isAbsolute = true)
    (found : entryIn files name directory = .ok entry) : Files.Askable (placeIn files name directory) := by
  let path := directory.append (.ofText name)
  have rooted : path.isAbsolute = true := absolute
  obtain ⟨-, short, -⟩ := Files.of_findPath found
  have place : placeIn files name directory = path.names.foldl Path.step [] := by
    rw [placeIn, Path.resolve, if_pos rooted]
  have light := Path.weight_foldl_step [] path.names
  rw [Path.weight_nil, Nat.zero_add] at light
  rw [Files.Askable, place]
  calc (Text.encodeUtf8 (Path.absolute (path.names.foldl Path.step [])).toList).length
      ≤ (Text.encodeUtf8 (Path.absolute path.names).toList).length := Path.length_absolute_le light
    _ ≤ (Text.encodeUtf8 path.text.toList).length := Path.length_absolute_le_text rooted
    _ ≤ Files.longestPath := short

/-- A location that is found: the name at its address, or else the very file that the search path has first,
which can be read unless the path to it is too long. -/
theorem Resolves.read {directories : List String} {key : String} {location : Location}
    (home : files.Standing files.home)
    (resolves : Resolves files (directories.map .ofText) key name (.ok location)) :
    (∃ bytes, Address.read files name = .ok bytes ∧ location.read files = .ok bytes) ∨
      ∃ directory bytes, First (Ending files name) (directories.map .ofText) directory ∧
        location.url = urlIn files name directory ∧ entryIn files name directory = .ok (.file bytes) ∧
          (location.read files = .ok bytes ↔ Files.Askable (placeIn files name directory)) ∧
            (directory.isAbsolute = true → Files.Askable (placeIn files name directory)) := by
  cases resolves with
  | opened opens => exact .inl ⟨_, opens, read_of_opens opens⟩
  | found closed sought first file =>
    obtain ⟨text, listed, rfl⟩ := List.mem_map.mp first.mem
    obtain ⟨standing, found⟩ := standing_of_entryIn home file
    exact .inr ⟨_, _, first, rfl, file, read_eq_ok_iff.trans (read_fileUrl_iff standing found),
      fun absolute => askable_of_isAbsolute absolute file⟩

end reading

/-- Looking for the resource with a name has exactly one outcome, whatever the environment, the search
path and the files: the name that can be opened, the first file on the search path, or the error that
fits the name. Only a name or a path that is too long for a file ends it with a fault. If the home directory
is there, a location that is found can be read, unless a file was found by a relative path and its path from
the root is too long. -/
theorem resolve_outcome_iff (files : Files) (environment : Environment) (key default : String)
    (directories : List String) (verbosity : Verbosity) :
    (∀ result, ((resolve files environment key default (directories.map .ofText)).outcome verbosity).1 =
        result ↔
      Resolves files (directories.map .ofText) key ((environment.lookup key).getD default) result) ∧
    (files.Standing files.home → ∀ location,
      ((resolve files environment key default (directories.map .ofText)).outcome verbosity).1 =
        .ok location →
      let name := (environment.lookup key).getD default
      (∃ bytes, Address.read files name = .ok bytes ∧ location.read files = .ok bytes) ∨
        ∃ directory bytes, First (Ending files name) (directories.map .ofText) directory ∧
          location.url = urlIn files name directory ∧ entryIn files name directory = .ok (.file bytes) ∧
            (location.read files = .ok bytes ↔ Files.Askable (placeIn files name directory)) ∧
              (directory.isAbsolute = true → Files.Askable (placeIn files name directory))) := by
  have outcome (result : Except Failure Location) :
      ((resolve files environment key default (directories.map .ofText)).outcome verbosity).1 = result ↔
        Resolves files (directories.map .ofText) key ((environment.lookup key).getD default) result := by
    rw [(resolve_ends files environment key default _).outcome verbosity]
    exact named_eq_iff
  exact ⟨outcome, fun home location resolved => ((outcome _).mp resolved).read home⟩

/-- Two directories below a home directory; the second has a file whose name has to be encoded. -/
def shelvedFiles : Files :=
  { home := ["R".toList]
    entries := [(["R".toList], .directory), (["R".toList, "a".toList], .directory),
    (["R".toList, "b#".toList], .directory), (["R".toList, "b#".toList, "ü %.yaml".toList], .file [1, 2])] }

theorem resolve_outcome_iff_shelvedFiles :
    ((resolve shelvedFiles [] "KEY" "ü %.yaml" (["a", "../R/b#"].map .ofText)).outcome .nothing).1 =
        .ok ⟨urlIn shelvedFiles "ü %.yaml" (.ofText "../R/b#"), "ü %.yaml"⟩ ∧
      Location.read shelvedFiles ⟨urlIn shelvedFiles "ü %.yaml" (.ofText "../R/b#"), "ü %.yaml"⟩ =
        .ok [1, 2] := by
  have closed : Address.read shelvedFiles "ü %.yaml" = .error .faulty := by rfl
  have passed : entryIn shelvedFiles "ü %.yaml" (.ofText "a") = .error .missing := by rfl
  have file : entryIn shelvedFiles "ü %.yaml" (.ofText "../R/b#") = .ok (.file [1, 2]) := by rfl
  have home : shelvedFiles.Standing shelvedFiles.home := by
    refine Files.Standing.child .root rfl ⟨rfl, rfl, by decide, by decide, by decide⟩
  have first : First (Ending shelvedFiles "ü %.yaml") (["a", "../R/b#"].map .ofText) (.ofText "../R/b#") := by
    refine (First.head (.inl ⟨_, file⟩) []).tail ?_
    simp [Ending, passed]
  obtain ⟨outcome, reads⟩ := resolve_outcome_iff shelvedFiles [] "KEY" "ü %.yaml" ["a", "../R/b#"] .nothing
  have resolved := (outcome _).mpr (.found closed ⟨rfl, rfl⟩ first file)
  obtain ⟨bytes, opened, -⟩ | ⟨directory, bytes, other, -, held, readable, -⟩ := reads home _ resolved
  · cases closed.symm.trans opened
  · obtain rfl := other.unique first
    cases held.symm.trans file
    exact ⟨resolved, readable.mpr (by decide +kernel)⟩

theorem entryIn_root_of_long {name : String} {piece : FileName}
    (path : Path.ofText name = ⟨.relative, [piece]⟩) (solid : Path.isVoid piece = false)
    (child : Path.isParent piece = false) (visible : '\x00' ∉ piece)
    (long : Files.longestName < (Text.encodeUtf8 piece).length)
    (within : (Text.encodeUtf8 ('/' :: piece)).length ≤ Files.longestPath) (files : Files) :
    entryIn files name (.ofText "/") = .error .nameTooLong := by
  have nameable : [piece].any (·.contains '\x00') = false := by simpa using visible
  have whole : Path.append (.ofText "/") ⟨.relative, [piece]⟩ = ⟨.single, [piece]⟩ := rfl
  have text : (Path.text ⟨.single, [piece]⟩).toList = '/' :: piece := by
    simp [Path.text, Path.joined, List.intercalate]
  have root : files.entry? [] = some .directory := rfl
  rw [entryIn, path, Files.findPath, whole, Files.find, nameable, text, if_neg Bool.false_ne_true,
    if_neg (Nat.not_lt.mpr within)]
  exact Files.walk_of_long [] solid child long root

/-- A name of some letters. -/
def lettersName (count : Nat) : String :=
  String.ofList (List.replicate count 'a')

/-- A search for a name that is too long for a file ends with a fault, not with the error for a location
that was not found. -/
theorem lettersName_ends_search :
    ((resolve .empty [] "KEY" (lettersName 300) (["/"].map .ofText)).outcome .nothing).1 =
      .error (.fault .nameTooLong) := by
  have chars : (lettersName 300).toList = List.replicate 300 'a' := String.toList_ofList
  have closed : Address.read .empty (lettersName 300) = .error .faulty :=
    read_of_no_scheme (by rw [chars]; decide +kernel)
  have path : Path.ofText (lettersName 300) = ⟨.relative, [List.replicate 300 'a']⟩ := by
    rw [Path.ofText, chars]
    decide +kernel
  have sought : Sought (lettersName 300) := ⟨by rw [chars]; decide +kernel, by rw [path]; rfl⟩
  have long : entryIn .empty (lettersName 300) (.ofText "/") = .error .nameTooLong :=
    entryIn_root_of_long path (by decide +kernel) (by decide +kernel) (by decide +kernel)
      (by decide +kernel) (by decide +kernel) .empty
  rw [(resolve_ends _ _ _ _ _).outcome .nothing]
  exact named_eq_iff.mpr (.overlong closed sought (.head (.inr long) []) long)

end Location

end LayeredConfig
