import LayeredConfig.Resource.Files
import LayeredConfig.Text.Base64
import LayeredConfig.Text.Numeral
import LayeredConfig.Text.Percent

/-!
Addresses of resources: `file:` addresses of files on this machine, `data:` addresses, which hold their
content themselves, and addresses of other hosts, whose answers are given and not worked out. No other
scheme leads anywhere.
-/

namespace LayeredConfig

namespace Address

/-- An address without the wrapping that it may have in running text: angle brackets and a mark. -/
def unwrap (text : List Char) : List Char :=
  let text := Text.trimBoth Text.isBlank text
  let text :=
    if text.head? == some '<' && text.getLast? == some '>' then
      Text.trimBoth Text.isBlank text.tail.dropLast
    else text
  if "URL:".toList.isPrefixOf text then Text.trimBoth Text.isBlank (text.drop 4) else text

/-- The part before the last number sign, and the part after it if there is one. -/
def splitFragment (text : List Char) : List Char × Option (List Char) :=
  if text.contains '#' then
    let fragment := (text.reverse.takeWhile (· != '#')).reverse
    (text.take (text.length - fragment.length - 1), some fragment)
  else (text, none)

/-- The scheme in lower case, and the rest after the colon. -/
def splitScheme (text : List Char) : Option (List Char × List Char) :=
  let scheme := text.takeWhile (fun c => c != '/' && c != ':')
  match text.drop scheme.length with
  | ':' :: rest => if scheme.isEmpty then none else some (scheme.map Char.toLower, rest)
  | _ => none

/-- The host after two slashes, if there are any, and the path, which then starts with a slash. -/
def splitHost (text : List Char) : Option (List Char) × List Char :=
  match text with
  | '/' :: '/' :: rest =>
    let host := rest.takeWhile (fun c => c != '/' && c != '#' && c != '?')
    let path := rest.drop host.length
    (some host, if path.isEmpty || path.head? == some '/' then path else '/' :: path)
  | _ => (none, text)

/-- Opens the file of a `file:` address. A path that starts with two slashes is taken from no other
host than this one, unless there is a third. -/
def openFile (files : Files) (rest : List Char) : Except AddressFailure (List UInt8) :=
  let (host, path) := splitHost rest
  let host := Text.percentDecode (String.ofList (host.getD []))
  let hasBareRoot := match path with
    | '/' :: '/' :: '/' :: _ => false
    | '/' :: '/' :: _ => true
    | _ => false
  if hasBareRoot && !host.isEmpty && host != Network.localName then .error .unreachable
  else
    match files.findText (Text.percentDecode (String.ofList path)) with
    | .ok (.file bytes) =>
      if host.isEmpty || files.network.isLocalHost host then .ok bytes else .error .unreachable
    | .error .unnameable => .error .faulty
    | _ => .error .unreachable

/-- Whether a description of data ends with the mark of Base64. -/
def isBase64 (description : List Char) : Bool :=
  ";base64".toList.isSuffixOf description

/-- The content of a `data:` address: after the first comma, behind a description of it. -/
def openData (rest : List Char) : Except AddressFailure (List UInt8) :=
  let description := rest.takeWhile (· != ',')
  match rest.drop description.length with
  | [] => .error .faulty
  | _ :: content =>
    let bytes := Text.percentDecodeBytes content
    if isBase64 description then
      match Text.decodeBase64? (bytes.map fun byte => Char.ofNat byte.toNat) with
      | some bytes => .ok bytes
      | none => .error .garbled
    else .ok bytes

/-- The content at an address. -/
def read (files : Files) (url : String) : Except AddressFailure (List UInt8) :=
  let (address, fragment) := splitFragment (unwrap url.toList)
  match splitScheme address with
  | none => .error .faulty
  | some (scheme, rest) =>
    if scheme == "file".toList then openFile files rest
    else if scheme == "data".toList then
      openData (match fragment with
        | some (c :: fragment) => rest ++ '#' :: c :: fragment
        | _ => rest)
    else if Network.schemes.contains (String.ofList scheme) then files.network.read url
    else .error .unreachable

end Address

end LayeredConfig
