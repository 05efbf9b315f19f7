/-!
What lies beyond the files of this machine: the resources of other hosts, and the names under which a host
is this machine. Both are given as they are at one moment. What breaks off while it is read is like what
cannot be opened any more.
-/

namespace LayeredConfig

/-- Why an address cannot be opened. -/
inductive AddressFailure
  /-- The text is no address, or not one of its scheme. -/
  | faulty
  /-- Nothing can be read at the address. -/
  | unreachable
  /-- The content is not what its encoding demands. -/
  | garbled
  /-- The address or the answer of the host is against the rules of the exchange with it. -/
  | protocol
  deriving DecidableEq, Repr

/-- The mark of a failure in messages. -/
def AddressFailure.text : AddressFailure → String
  | .faulty => "<ValueError>"
  | .unreachable => "<URLError>"
  | .garbled => "<Error>"
  | .protocol => "<HTTPException>"

/-- What other hosts have at some addresses, and the names that lead back to this machine beside its own. -/
structure Network where
  resources : List (String × Except AddressFailure (List UInt8)) := []
  ownNames : List String := []
  deriving Repr

namespace Network

/-- The name of this machine, for itself. -/
def localName : String := "localhost"

/-- The schemes of addresses on other hosts. -/
def schemes : List String := ["http", "https", "ftp"]

/-- The content at the address of another host. -/
def read (network : Network) (url : String) : Except AddressFailure (List UInt8) :=
  (network.resources.lookup url).getD (.error .unreachable)

/-- Whether a host stands for this machine, by its name, by its loopback address or by another name that
leads there. A colon may follow, but no number after it. -/
def isLocalHost (network : Network) (host : String) : Bool :=
  let host := host.toList
  let host := if host.getLast? == some ':' then host.dropLast else host
  let host := String.ofList (host.map Char.toLower)
  host == localName || host == "127.0.0.1" || network.ownNames.contains host

end Network

end LayeredConfig
