import LayeredConfig.Text.Str
import LayeredConfig.Yaml.Cursor

namespace LayeredConfig.Yaml

/-- A line about the document that follows. -/
inductive Directive
  | version (major minor : Nat)
  | tag (handle expansion : List Char)
  | other
  deriving DecidableEq, Repr

inductive Token
  | streamStart
  | streamEnd
  | directive (content : Directive)
  | documentStart
  | documentEnd
  | blockSequenceStart
  | blockMappingStart
  | blockEnd
  | flowSequenceStart
  | flowSequenceEnd
  | flowMappingStart
  | flowMappingEnd
  | key
  | value
  | blockEntry
  | flowEntry
  | alias (name : List Char)
  | anchor (name : List Char)
  | tag (handle : Option (List Char)) (suffix : List Char)
  | scalar (text : List Letter) (plain : Bool)
  deriving DecidableEq, Repr

end LayeredConfig.Yaml
