import LayeredConfig.Environment
import LayeredConfig.Log
import LayeredConfig.Resource.Address

namespace LayeredConfig

/-- An address, and the name that it was found for. -/
structure Location where
  url : String
  name : String
  deriving DecidableEq, Repr

namespace Location

/-- Whether a text has the mark that separates the scheme of an address. -/
def hasSchemeMark : List Char → Bool
  | ':' :: '/' :: '/' :: _ => true
  | _ :: rest => hasSchemeMark rest
  | [] => false

/-- The mark of addresses of files. -/
def fileMark : String := "file://"

/-- The address of the file at a place. -/
def fileUrl (place : List FileName) : String :=
  fileMark ++ Text.percentEncode (String.ofList ('/' :: Path.joined place))

/-- The location that a text stands for: an address, or else the path of a file. -/
def ofText (files : Files) (text : String) : Except Fault Location :=
  if hasSchemeMark text.toList then .ok ⟨text, text⟩
  else if text.toList.contains '\x00' then .error .content
  else .ok ⟨fileUrl (files.place text), text⟩

/-- The content of a resource, which was there when the location was resolved. -/
def read (files : Files) (location : Location) : Except Failure (List UInt8) :=
  match Address.read files location.url with
  | .ok bytes => .ok bytes
  | .error .protocol => .error (.fault .protocol)
  | .error failure =>
    .error (.configuration (.resourceNotFound
      ("Cannot read " ++ location.url ++ " (resolved from " ++ location.name ++ "): " ++ failure.text)
      none (some location.name)))

/-- The location that is the name itself, if that is an address that can be opened. -/
def openDirect (files : Files) (name : String) : Logged (Option Location) := do
  match Address.read files name with
  | .ok _ => return some ⟨name, name⟩
  | .error failure =>
    Logged.record .debug .resolver ("Cannot open " ++ name ++ " directly: " ++ failure.text)
    return none

/-- The first file with a name in some directories. -/
def findIn (files : Files) (name : String) : List Path → Except Fault (Option Location)
  | [] => .ok none
  | directory :: directories =>
    let path := directory.append (.ofText name)
    match files.findPath path with
    | .ok (.file _) => .ok (some ⟨fileUrl (path.resolve files.home), name⟩)
    | .error .nameTooLong => .error .nameTooLong
    | _ => findIn files name directories

/-- The first file with a name on a search path. Addresses and absolute paths are not searched for. -/
def search (files : Files) (searchPath : List Path) (name : String) :
    Except Fault (Option Location) :=
  if hasSchemeMark name.toList || (Path.ofText name).isAbsolute then .ok none
  else findIn files name searchPath

/-- The error for a name that was not found: a marked one names a file that is not there, any other
probably lacks the mark. -/
def notFound (key name : String) : ConfigurationError :=
  if fileMark.toList.isPrefixOf name.toList then
    .resourceNotFound ("Cannot locate " ++ name ++ ".")
      (some ("If this is a local file, please confirm you've provided " ++ fileMark ++
        "/ as a URI prefix."))
      (some name)
  else
    .unprefixedLocation
      ("Expecting URI in variable: [" ++ key ++ "]. Found [" ++ name ++ "].")
      (some ("Please prefix the file with [" ++ fileMark ++ "/] for local files and [" ++ fileMark ++
        "<server>/] for remote files."))
      (some key) (some name)

/-- The location of the resource that a variable names, or that has a default name. -/
def resolve (files : Files) (environment : Environment) (key default : String)
    (searchPath : List Path) : Logged Location := do
  let name := (environment.lookup key).getD default
  let found ←
    match ← openDirect files name with
    | some location => pure (some location)
    | none => Logged.ofFault (search files searchPath name)
  match found with
  | some location =>
    Logged.record .info .resolver ("Configuration location: " ++ location.url)
    return location
  | none => throw (.configuration (notFound key name))

end Location

end LayeredConfig
