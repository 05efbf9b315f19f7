import LayeredConfig.Digest
import LayeredConfig.Text.Encoding
import LayeredConfig.Value.Canonical

namespace LayeredConfig.Value

/-- The canonical text that a fingerprint is taken of; only documents have one. -/
def fingerprintText : Value → Except Fault (List Char)
  | .document type slots => do (← (Value.document type slots).plain?).canonical
  | other => .error (.notDocument other.typeName)

/-- The fingerprint of a document. A torn text anywhere in it leaves its canonical text without an
encoding. -/
def fingerprint (document : Value) : Except Fault String := do
  let text ← document.fingerprintText
  if document.isWhole then return Digest.sha256 (Text.encodeUtf8 text)
  else throw .unencodable

end LayeredConfig.Value
