import LayeredConfig.Fault

namespace LayeredConfig.Yaml

/-- The level of reading at which a source is refused. -/
inductive Refusal
  | characters
  | tokens
  | grammar
  | references
  | values
  deriving DecidableEq, Repr

/-- The text that stands for a refusal in messages. -/
def Refusal.text : Refusal → String
  | .characters => "<ReaderError>"
  | .tokens => "<ScannerError>"
  | .grammar => "<ParserError>"
  | .references => "<ComposerError>"
  | .values => "<ConstructorError>"

inductive Failure
  | refused (refusal : Refusal)
  | fault (fault : LayeredConfig.Fault)
  deriving DecidableEq, Repr

end LayeredConfig.Yaml
