import Dtn.Framework.Cbor
import Dtn.Framework.Text

/-!
# Endpoints (`bp7/src/endpoint.rs`)

An endpoint is a `dtn` name or an `ipn` pair of numbers, and belongs to the
node that `getNodeEndpoint` gives. `Endpoint` and
`DTNEndpoint` have hand-written serde code, embedded here. `IPNEndpoint`
derives it: what serde generates and `serde_cbor` runs is not part of the
repository, so its decoder is a parameter (`Serde`), with what the rest of
the code relies on as its laws.
-/

namespace Dtn.Bp7

open Dtn.Cbor

/-- The `dtn` scheme: the part of the URI after `dtn:`. -/
structure DTNEndpoint where
  uri : String
  deriving DecidableEq

/-- The `ipn` scheme. -/
structure IPNEndpoint where
  node : UInt64
  service : UInt64
  deriving DecidableEq

inductive Endpoint where
  | dtn (e : DTNEndpoint)
  | ipn (e : IPNEndpoint)
  deriving DecidableEq

/-- `EndpointType`, with its `repr(u64)` numbers. -/
inductive EndpointType where
  | dtn
  | ipn
  deriving DecidableEq

def EndpointType.toU64 : EndpointType → UInt64
  | dtn => 1
  | ipn => 2

/-! ## Encoding -/

def DTNEndpoint.isNullEndpoint (e : DTNEndpoint) : Bool := e.uri == "none"

def DTNEndpoint.serialize (e : DTNEndpoint) : List UInt8 :=
  if e.isNullEndpoint then encU64 0 else encText e.uri

/-- The derived encoder: a map from the fields' names. -/
def IPNEndpoint.serialize (e : IPNEndpoint) : List UInt8 :=
  head 5 2 ++ encText "node" ++ encU64 e.node ++ encText "service" ++ encU64 e.service

/-- The form RFC 9171 gives an `ipn` endpoint: an array of its two numbers. -/
def IPNEndpoint.asArray (e : IPNEndpoint) : List UInt8 := head 4 2 ++ (encU64 e.node ++ encU64 e.service)

def Endpoint.serialize : Endpoint → List UInt8
  | dtn e => head 4 2 ++ encU64 EndpointType.dtn.toU64 ++ e.serialize
  | ipn e => head 4 2 ++ encU64 EndpointType.ipn.toU64 ++ e.serialize

/-! ## Decoding -/

/-- What the decoder takes from outside the repository: the `Deserialize` that
serde derives for `IPNEndpoint`, as `serde_cbor` runs it, the size of a
`CanonicalBlock` in memory, and the largest number of bytes that the allocator
grants. -/
structure Serde where
  ipnEndpoint : Decoder IPNEndpoint
  ipn_safe {levels : Nat} : (ipnEndpoint levels).Safe
  /-- A derived struct is accepted as a map of its fields' names, which is one level of nesting. -/
  ipn_reads_map (levels : Nat) (e : IPNEndpoint) : (ipnEndpoint (levels + 1)).Reads e.serialize e
  /-- A derived struct is accepted as an array of its fields. -/
  ipn_reads_array (levels : Nat) (e : IPNEndpoint) : (ipnEndpoint (levels + 1)).Reads e.asArray e
  canonicalBlockSize : Nat
  maxAllocation : Nat

/-- `Deserialize_repr`; the text of its error is the library's and left out. -/
def EndpointType.deserialize : Decoder EndpointType := fun d => do
  let n ← u64 d
  if n = 1 then pure .dtn
  else if n = 2 then pure .ipn
  else .fail (.custom "")

def DTNEndpoint.deserialize : Decoder DTNEndpoint := fun d => do
  match (← item d).1 with
  | .uint n =>
    if n = 0 then pure ⟨"none"⟩
    else .fail (.invalidValue n "DTN Endpoints may only have 0 as a value")
  | .text n => do return ⟨← textOf n⟩
  | _ => .fail .reader

/-- `EndpointVisitor::visit_seq`. -/
def Endpoint.visitSeq (S : Serde) (s : Seq) : Parser Error (Endpoint × Seq) := do
  let (endpointType, s) ← s.field EndpointType.deserialize "Error for field 'endpoint_type'"
  match endpointType with
  | .dtn => do
    let (e, s) ← s.field DTNEndpoint.deserialize "Error for field 'dtn_endpoint'"
    return (.dtn e, s)
  | .ipn => do
    let (e, s) ← s.field S.ipnEndpoint "Error for field 'ipn_endpoint'"
    return (.ipn e, s)

def Endpoint.deserialize (S : Serde) : Decoder Endpoint := seq (Endpoint.visitSeq S)

/-! ## Validation -/

def DTNEndpoint.validate (e : DTNEndpoint) : Bool := e.uri == "none" || "//".toList.isPrefixOf e.uri.toList

def IPNEndpoint.validate (_ : IPNEndpoint) : Bool := true

def Endpoint.validate : Endpoint → Bool
  | dtn e => e.validate
  | ipn e => e.validate

/-! ## Nodes -/

variable {ε : Type}

/-- `&s[n..]` on the characters of a string. A slice panics if it starts inside a character or behind the end. -/
def sliceFrom : Nat → List Char → Outcome ε (List Char)
  | 0, cs => .ok cs
  | _ + 1, [] => .panic
  | n + 1, c :: cs => if c.utf8Size ≤ n + 1 then sliceFrom (n + 1 - c.utf8Size) cs else .panic

namespace DTNEndpoint

/-- What stands before the first `/`, behind two bytes that are taken for `//`. -/
def nodeName (e : DTNEndpoint) : Outcome ε String := do
  let name ← sliceFrom 2 e.uri.toList
  return String.ofList (name.takeWhile (· ≠ '/'))

def matchesNode (e other : DTNEndpoint) : Outcome ε Bool := do
  let name ← e.nodeName
  let otherName ← other.nodeName
  return name == otherName

def getNodeEndpoint (e : DTNEndpoint) : Outcome ε DTNEndpoint := do
  let name ← e.nodeName
  return ⟨"//" ++ name⟩

end DTNEndpoint

namespace IPNEndpoint

def matchesNode (e other : IPNEndpoint) : Bool := e.node == other.node

def getNodeEndpoint (e : IPNEndpoint) : IPNEndpoint := ⟨e.node, 0⟩

end IPNEndpoint

namespace Endpoint

def matchesNode : Endpoint → Endpoint → Outcome ε Bool
  | dtn e, dtn other => e.matchesNode other
  | ipn e, ipn other => .ok (e.matchesNode other)
  | _, _ => .ok false

def getNodeEndpoint : Endpoint → Outcome ε Endpoint
  | dtn e => do return dtn (← e.getNodeEndpoint)
  | ipn e => .ok (ipn e.getNodeEndpoint)

/-- The `Display` of an endpoint. -/
def display : Endpoint → String
  | dtn e => "dtn:" ++ e.uri
  | ipn e => "ipn:" ++ toString e.node ++ "." ++ toString e.service

end Endpoint

/-! ## Text -/

def DTNEndpoint.fromStr (uri : String) : Option DTNEndpoint :=
  if "//".toList.isPrefixOf uri.toList then some ⟨uri⟩ else none

/-- The scheme is looked for once more, in what stands behind it. -/
def IPNEndpoint.fromStr (uri : String) : Option IPNEndpoint := do
  let (schema, hier) ← splitOnce ':' uri
  if schema ≠ "ipn" then none
  else do
    let (node, service) ← splitOnce '.' hier
    let nodeId ← parseU64 node
    let serviceId ← parseU64 service
    return ⟨nodeId, serviceId⟩

def Endpoint.new (uri : String) : Option Endpoint := do
  let (schema, content) ← splitOnce ':' uri
  if schema = "dtn" then return dtn (← DTNEndpoint.fromStr content)
  else if schema = "ipn" then return ipn (← IPNEndpoint.fromStr content)
  else none

def Endpoint.isNullEndpoint : Endpoint → Bool
  | dtn e => e.isNullEndpoint
  | ipn _ => false

end Dtn.Bp7
