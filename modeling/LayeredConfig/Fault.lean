import LayeredConfig.Sorting
import LayeredConfig.Value.Display

/-!
What can go wrong. A `ConfigurationError` tells an operator what to mend in a configuration; a
`Fault` is a call that was not possible as it was made.
-/

namespace LayeredConfig

/-- The ways in which a call can be impossible. -/
inductive Fault
  /-- No such key or member. -/
  | absent
  /-- No such position. -/
  | position
  /-- An argument of a suitable kind whose content does not fit. -/
  | content
  /-- An argument of an unsuitable kind, or a wrong number of arguments. -/
  | kind
  /-- No such method or setting. -/
  | method
  /-- A number outside the range of the target. -/
  | magnitude
  /-- A nesting without end. -/
  | nesting
  /-- A name or a path of a file that is too long. -/
  | nameTooLong
  /-- An exchange with another host against its rules. -/
  | protocol
  /-- A text that no encoding has. -/
  | unencodable
  | unknownSetting (document : String) (setting : Str)
  | overlayOfOtherType (base other : String)
  | notDocument (typeName : String)
  | duplicateSetting
  deriving DecidableEq, Repr, Inhabited

/-- The text of a fault that has one. -/
def Fault.message? : Fault → Option String
  | .unknownSetting document setting => some (document ++ " has no setting '" ++ setting.shown ++ "'")
  | .overlayOfOtherType base other =>
    some ("Overlay requires documents of the same type, got " ++ base ++ " vs " ++ other)
  | .notDocument typeName =>
    some ("Config para hashing deve ser ConfigDocument, recebido: " ++ typeName)
  | .duplicateSetting => some "duplicate setting name in schema"
  | _ => none

/-- Errors in the configuration of a node. -/
inductive ConfigurationError
  /-- An error of no particular kind. -/
  | general (message : String) (hint : Option String) (logStackTrace : Bool)
  /-- A recognised environment variable with an impossible value. -/
  | invalidOverride (message : String) (hint : Option String) (logStackTrace : Bool)
  /-- A location that was not found and lacks the mark of local files. -/
  | unprefixedLocation (message : String) (hint : Option String) (propertyKey value : Option String)
  /-- A marked location that was not found or could not be read. -/
  | resourceNotFound (message : String) (hint : Option String) (value : Option String)
  /-- A source that is malformed or holds a value of the wrong shape. -/
  | malformed (source problem : String)
  /-- A source with unknown or nullified settings, both in order. -/
  | invalidConfiguration (source : String) (unknown nullified : List Str)
  deriving DecidableEq, Repr

namespace ConfigurationError

/-- The error for findings in a source; all of them are named, in order. -/
def ofFindings (source : String) (unknown nullified : List Str) : ConfigurationError :=
  .invalidConfiguration source (sortTexts unknown) (sortTexts nullified)

/-- A list of quoted texts. -/
def quotedList (texts : List Str) : String :=
  String.ofList (Value.enclose ['['] [']'] (texts.map Text.quote))

def nullifiedSentence (nullified : List Str) : String :=
  "Those properties " ++ quotedList nullified ++
    " are not valid: they are required and cannot be set to null."

def unknownSentence (unknown : List Str) : String :=
  "Please remove properties " ++ quotedList unknown ++ " from your configuration."

/-- The message of an error, without its hint. -/
def message : ConfigurationError → String
  | .general message _ _ => message
  | .invalidOverride message _ _ => message
  | .unprefixedLocation message _ _ _ => message
  | .resourceNotFound message _ _ => message
  | .malformed source problem => "Invalid yaml: " ++ source ++ "\n Error: " ++ problem
  | .invalidConfiguration source unknown nullified =>
    let sentences :=
      (if nullified.isEmpty then [] else [nullifiedSentence nullified]) ++
        (if unknown.isEmpty then [] else [unknownSentence unknown])
    "Invalid yaml: " ++ source ++ ". " ++ " ".intercalate sentences

/-- The advice that goes with an error. -/
def hint : ConfigurationError → Option String
  | .general _ hint _ => hint
  | .invalidOverride _ hint _ => hint
  | .unprefixedLocation _ hint _ _ => hint
  | .resourceNotFound _ hint _ => hint
  | _ => none

/-- Whether a log should show where the error arose; errors in a source explain themselves. -/
def logStackTrace : ConfigurationError → Bool
  | .general _ _ logStackTrace => logStackTrace
  | .invalidOverride _ _ logStackTrace => logStackTrace
  | .malformed _ _ => false
  | .invalidConfiguration _ _ _ => false
  | _ => true

/-- The whole text of an error: its message, and its hint if there is one. -/
def text (error : ConfigurationError) : String :=
  match error.hint with
  | some hint => if hint.isEmpty then error.message else error.message ++ " " ++ hint
  | none => error.message

end ConfigurationError

/-- Why an operation on configurations did not succeed. -/
inductive Failure
  | configuration (error : ConfigurationError)
  | fault (fault : Fault)
  deriving DecidableEq, Repr

instance : Coe ConfigurationError Failure := ⟨.configuration⟩

instance : Coe Fault Failure := ⟨.fault⟩

end LayeredConfig
