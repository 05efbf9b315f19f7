import LayeredConfig.Container.Entries
import LayeredConfig.Text.Base64
import LayeredConfig.Tree
import LayeredConfig.Value.Equality
import LayeredConfig.Yaml.Graph

/-!
The data that a graph of nodes stands for. Scalars are read at once; the content of a collection is
read after all that came before it, level by level, which decides what fault comes first.
-/

namespace LayeredConfig.Yaml

/-- A scalar, or the number of a collection. -/
inductive Datum
  | scalar (value : Scalar)
  | collection (number : Nat)
  deriving Repr, Inhabited

/-- The content of a collection. -/
inductive Body
  | list (items : List Datum)
  | pairs (items : List (Datum × Datum))
  | map (entries : List (Scalar × Datum))
  | set (members : List Scalar)
  deriving Repr

/-- The nodes, what has been read of them, and the collections whose content is still to be read. -/
structure Builder where
  nodes : Array Node
  read : List (Nat × Datum)
  waiting : List Nat
  bodies : List (Nat × Body)

abbrev Build := StateT Builder (Except Failure)

namespace Build

def refuse : Build α :=
  throw (.refused .values)

def fail (fault : Fault) : Build α :=
  throw (.fault fault)

/-- A node by its number. -/
def node (number : Nat) : Build Node := do
  return ((← get).nodes[number]?).getD ⟨.unknown, .scalar []⟩

/-- Two keys are one when they are equal as numbers, or the same otherwise. -/
def sameKey (a b : Scalar) : Bool :=
  a.key == b.key

/-- The text of a node that should be a scalar. A mapping lends the text of its value `=`. -/
def scalarText (number : Nat) : Nat → Build (List Letter)
  | 0 => fail .nesting
  | fuel + 1 => do
    match (← node number).content with
    | .scalar text => return text
    | .sequence _ => refuse
    | .mapping pairs =>
      let nodes := (← get).nodes
      let isValue (pair : Nat × Nat) : Bool := nodes[pair.1]?.any (fun n => n.tag == .value)
      match pairs.find? isValue with
      | some (_, value) => scalarText value fuel
      | none => refuse

/-- Words for truth, in any case. -/
def readBool (text : List Char) : Build Scalar := do
  let word := String.ofList (text.map Char.toLower)
  if ["yes", "true", "on"].contains word then return .bool true
  else if ["no", "false", "off"].contains word then return .bool false
  else fail .absent

/-- A number without its underscores and its sign. -/
def splitNumber (text : List Char) : Build (Bool × List Char) := do
  match text.filter (· != '_') with
  | [] => fail .position
  | '-' :: rest => return (true, rest)
  | '+' :: rest => return (false, rest)
  | rest => return (false, rest)

def integer (base : Nat) (text : List Char) : Build Int :=
  match Text.readInteger? base text with
  | some n => return n
  | none => fail .content

/-- The parts between colons. -/
def colonParts (text : List Char) : List (List Char) :=
  match text with
  | [] => [[]]
  | c :: rest =>
    match colonParts rest with
    | [] => [[c]]
    | part :: parts => if c == ':' then [] :: part :: parts else (c :: part) :: parts

/-- Whole numbers: binary, octal, hexadecimal, decimal or in base 60. -/
def readInt (text : List Char) : Build Scalar := do
  let (negative, body) ← splitNumber text
  let size ←
    match body with
    | [] => fail .position
    | ['0'] => pure 0
    | '0' :: 'b' :: digits => integer 2 digits
    | '0' :: 'x' :: digits => integer 16 digits
    | '0' :: _ => integer 8 body
    | _ =>
      if body.contains ':' then
        let parts ← (colonParts body).mapM (integer 10)
        pure (parts.foldl (fun sum part => sum * 60 + part) 0)
      else integer 10 body
  return .int (if negative then -size else size)

def fraction (origin : Nat) (text : List Char) : Build Binary64 :=
  match Text.readFraction? text with
  | some (.decimal negative digits exponent) => return .ofDecimal negative digits exponent
  | some (.infinite negative) => return .infinite negative
  | some .notANumber => return .notANumber origin
  | none => fail .content

/-- Adds places of base 60, the lowest first; each step rounds. -/
def addPlaces (sum : Binary64) (base : Nat) : List Binary64 → Build Binary64
  | [] => return sum
  | place :: places =>
    match Binary64.ofInt? base with
    | some factor => addPlaces (sum.add (place.mul factor)) (base * 60) places
    | none => fail .magnitude

/-- Fractions. All plain results that are not numbers are one object. -/
def readFloat (origin : Nat) (text : List Char) : Build Scalar := do
  let (negative, body) ← splitNumber text
  let word := String.ofList (body.map Char.toLower)
  let size ←
    if word == ".inf" then pure (Binary64.infinite false)
    else if body.contains ':' then
      let parts ← (colonParts body).mapM (fraction origin)
      addPlaces (.zero false) 1 parts.reverse
    else if word == ".nan" then pure (Binary64.notANumber 0)
    else fraction origin body
  return .float (if negative then size.negate else size)

def number (digits : List Char) : Nat :=
  digits.foldl (fun sum c => sum * 10 + (c.toNat - '0'.toNat)) 0

/-- The six digits of a fraction of a second; further ones are cut off. -/
def microseconds (digits : List Char) : Nat :=
  number ((digits ++ List.replicate 6 '0').take 6)

/-- A distance from universal time in seconds. -/
def distance : Option (Bool × List Char × List Char) → Int
  | none => 0
  | some (negative, hours, minutes) =>
    let size : Int := number hours * 3600 + number minutes * 60
    if negative then -size else size

/-- Dates and moments. -/
def readTimestamp (text : List Char) : Build Scalar := do
  match Form.stamp? (Form.withoutLastBreak text) with
  | none => fail .method
  | some stamp =>
    match Date.of? (number stamp.year) (number stamp.month) (number stamp.day), stamp.time with
    | some date, none => return .date date
    | some date, some (hour, minute, second, fraction) =>
      let moment? := Moment.of? date (number hour) (number minute) (number second)
        (microseconds fraction) (stamp.zone.map distance)
      match moment? with
      | some moment => return .moment moment
      | none => fail .content
    | none, _ => fail .content

def readBinary (text : List Char) : Build Scalar := do
  if text.any (fun c => 0x80 ≤ c.toNat) then refuse
  match Text.decodeBase64? text with
  | some bytes => return .bytes bytes
  | none => refuse

/-- The datum of a node. Collections are only noted; their content is read later. -/
def datum (number : Nat) : Build Datum := do
  match (← get).read.lookup number with
  | some datum => return datum
  | none =>
    let node ← node number
    let letters := do scalarText number ((← get).nodes.size + 1)
    let text := do return (← letters).map Letter.shown
    let datum ←
      match node.tag with
      | .null => do
        let _ ← text
        pure (.scalar .null)
      | .bool => do pure (.scalar (← readBool (← text)))
      | .int => do pure (.scalar (← readInt (← text)))
      | .float => do pure (.scalar (← readFloat (number + 1) (← text)))
      | .binary => do pure (.scalar (← readBinary (← text)))
      | .timestamp => do
        let text ← text
        match node.content with
        | .scalar _ => pure (.scalar (← readTimestamp text))
        | _ => fail .kind
      | .str => do pure (.scalar (.str (.ofLetters (← letters))))
      | .seq | .map | .set | .omap | .pairs => do
        modify fun s => { s with waiting := s.waiting ++ [number] }
        pure (.collection number)
      | .merge | .value | .unknown => refuse
    modify fun s => { s with read := (number, datum) :: s.read }
    return datum

def changeNode (number : Nat) (change : Node → Node) : Build Unit :=
  modify fun s => { s with nodes := s.nodes.modify number change }

def setPairs (number : Nat) (pairs : List (Nat × Nat)) : Build Unit :=
  changeNode number fun n => { n with content := .mapping pairs }

/-- Turns the keys `=` into texts. -/
def settleValueKeys : List (Nat × Nat) → Build Unit
  | [] => return
  | (key, _) :: pairs => do
    changeNode key fun n => if n.tag == .value then { n with tag := .str } else n
    settleValueKeys pairs

def pairsOf (number : Nat) : Build (List (Nat × Nat)) := do
  match (← node number).content with
  | .mapping pairs => return pairs
  | _ => refuse

/-- Replaces the merge keys of a mapping by the pairs of what they name. Those come first, and of a
sequence of mappings the first comes last. Pairs before `start` are settled. -/
def flatten (number : Nat) (start : Nat) (merged : List (Nat × Nat)) : Nat → Build Unit
  | 0 => fail .nesting
  | fuel + 1 => do
    let pairs ← pairsOf number
    let nodes := (← get).nodes
    let isPlain (pair : Nat × Nat) : Bool := !nodes[pair.1]?.any (fun n => n.tag == .merge)
    let unsettled := pairs.drop start
    let before := unsettled.takeWhile isPlain
    settleValueKeys before
    match unsettled.drop before.length with
    | [] =>
      if !merged.isEmpty then
        setPairs number (merged ++ pairs)
    | (_, value) :: after =>
      setPairs number (pairs.take start ++ before ++ after)
      let added ←
        match (← node value).content with
        | .mapping _ =>
          flatten value 0 [] fuel
          pairsOf value
        | .sequence items =>
          let parts ← items.mapM fun item => do
            let _ ← pairsOf item
            flatten item 0 [] fuel
            pairsOf item
          pure parts.reverse.flatten
        | .scalar _ => refuse
      flatten number (start + before.length) (merged ++ added) fuel

/-- The entries of a mapping. Keys have to be scalars; of equal keys the last value counts. -/
def entries : List (Nat × Nat) → List (Scalar × Datum) → Build (List (Scalar × Datum))
  | [], read => return read
  | (key, value) :: pairs, read => do
    match ← datum key with
    | .collection _ => refuse
    | .scalar key =>
      let value ← datum value
      entries pairs (Entries.put sameKey key value read)

/-- The only pair of each item of a sequence. -/
def singlePairs : List Nat → Build (List (Datum × Datum))
  | [] => return []
  | item :: items => do
    match (← node item).content with
    | .mapping [(key, value)] =>
      let key ← datum key
      let value ← datum value
      return (key, value) :: (← singlePairs items)
    | _ => refuse

/-- The content of a collection. -/
def body (mergeBound : Nat) (number : Nat) : Build Body := do
  let node ← node number
  match node.tag, node.content with
  | .seq, .sequence items => return .list (← items.mapM datum)
  | .omap, .sequence items => return .pairs (← singlePairs items)
  | .pairs, .sequence items => return .pairs (← singlePairs items)
  | .set, .mapping _ =>
    flatten number 0 [] mergeBound
    return .set ((← entries (← pairsOf number) []).map (·.1))
  | .map, .mapping _ =>
    flatten number 0 [] mergeBound
    return .map (← entries (← pairsOf number) [])
  | _, _ => refuse

/-- Reads the content of the collections that wait, and of those that they bring. -/
def bodies (mergeBound : Nat) : Nat → Build Unit
  | 0 => return
  | fuel + 1 => do
    match (← get).waiting with
    | [] => return
    | number :: waiting =>
      modify fun s => { s with waiting := waiting }
      let content ← body mergeBound number
      modify fun s => { s with bodies := (number, content) :: s.bodies }
      bodies mergeBound fuel

end Build

/-- The data of a source: its root, and the content of each collection. -/
structure Data where
  root : Datum
  bodies : List (Nat × Body)
  deriving Repr

/-- How many pairs there are in all mappings, which bounds the merges. -/
def Graph.pairCount (graph : Graph) : Nat :=
  graph.nodes.foldl (fun count node =>
    match node.content with
    | .mapping pairs => count + pairs.length
    | _ => count) 0

/-- The data that a graph stands for. -/
def Data.ofGraph? (graph : Graph) : Except Failure Data := do
  let build : Build Datum := do
    let root ← Build.datum graph.root
    Build.bodies (2 * graph.pairCount + 2) (graph.nodes.size + 1)
    return root
  let (root, s) ← build.run ⟨graph.nodes, [], [], []⟩
  return ⟨root, s.bodies⟩

/-- The tree below a datum. A collection inside itself is unfolded until it has occurred `limit` times
on the way down. -/
def Data.unfold (data : Data) (limit : Nat) (above : List Nat) : Nat → Datum → Tree
  | _, .scalar value => .scalar value
  | 0, .collection number => .seq (some number) []
  | fuel + 1, .collection number =>
    let mark := some number
    let deeper := limit ≤ above.count number
    let below := data.unfold limit (number :: above) fuel
    match data.bodies.lookup number with
    | some (.list items) => .seq mark (if deeper then [] else items.map below)
    | some (.pairs items) =>
      .seq mark (if deeper then [] else items.map fun (key, value) =>
        .tuple [below key, below value])
    | some (.map entries) =>
      .map mark (if deeper then [] else entries.map fun (key, value) => (key, below value))
    | some (.set members) => .set members
    | none => .seq mark []

/-- The tree of the data, deep enough for any walk of at most `depth` steps and for displaying what
is found at its end. -/
def Data.toTree (data : Data) (depth : Nat) : Tree :=
  let limit := depth + 2
  data.unfold limit [] (limit * data.bodies.length + 1) data.root

/-- The tree of a source; an empty source has none. -/
def read? (depth : Nat) (bytes : List UInt8) : Except Failure (Option Tree) := do
  let characters ← readCharacters bytes
  match ← Graph.ofTokens? (.ofCharacters characters) with
  | none => return none
  | some graph => return some ((← Data.ofGraph? graph).toTree depth)

end LayeredConfig.Yaml
