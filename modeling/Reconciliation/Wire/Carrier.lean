import Reconciliation.Wire.Service

namespace Reconciliation.Wire

/-!
# Carriers

What is between a client and a service:

* `Carrier` — how a request gets to a service and its answer back;
* `Request.unsendable?`, `Request.isAscii` — which requests are refused on the way;
* `Request.arrive` — a request as it reaches the service at an origin;
* `Carrier.unreachable`, `Carrier.toService` — carriers that check what they are given: one that has no
  connection, and one to a service.

The requests of a client carry the whole address.  What follows the origin in it is what the service is
asked for.
-/

/-- How a request is answered in a state of the world; if none is brought back, why. -/
abbrev Carrier (σ : Type) := Request → σ → Except String Response × σ

/-- Whether a byte may stand in an address that is sent. -/
def isAddressByte (byte : UInt8) : Bool :=
  byte = 0x21 || byte = 0x22 || (0x24 ≤ byte && byte ≤ 0x3b) || byte = 0x3d ||
    (0x3f ≤ byte && byte ≤ 0x5f) || 0x61 ≤ byte

/-- Whether a byte may stand in the value of a header that is sent. -/
def isHeaderByte (byte : UInt8) : Bool :=
  (0x20 ≤ byte && byte ≠ 0x7f) || byte = 0x09

/-- What an address asks for behind an origin: a path that is not empty, with its query. -/
def target? (origin address : String) : Option String :=
  (Text.after? origin address).bind fun rest =>
    match rest.toList with
    | '/' :: _ => some rest
    | [] | '?' :: _ => some ("/" ++ rest)
    | _ => none

namespace Request

/-- Why a request is not sent, if it is not.  Addresses are checked before headers. -/
def unsendable? (request : Request) : Option String :=
  if !(Text.bytes request.address).all isAddressByte then some "http: invalid uri character"
  else if !request.headers.all fun header => (Text.bytes header.2).all isHeaderByte then
    some "http: failed to parse header value"
  else none

/-- Whether a service takes a request in: up to its body, it is written in ASCII. -/
def isAscii (request : Request) : Bool :=
  (Text.bytes request.address).all (· < 0x80) &&
    request.headers.all fun header => (Text.bytes header.2).all (· < 0x80)

/-- A request as it reaches the service at an origin; if it does not, why. -/
def arrive (origin : String) (request : Request) : Except String Request :=
  match request.unsendable?, target? origin request.address with
  | some reason, _ => .error reason
  | none, none => .error "io: Connection refused (os error 111)"
  | none, some address =>
    if request.isAscii then .ok { request with address } else .error "io: Peer disconnected"

end Request

namespace Carrier

variable {σ : Type}

/-- A carrier that brings no request anywhere. -/
def unreachable (reason : String) : Carrier σ :=
  fun request state => (.error (request.unsendable?.getD reason), state)

/-- A carrier to the service at an origin. -/
def toService (origin : String) (serve : Request → σ → Response × σ) : Carrier σ :=
  fun request state =>
    match request.arrive origin with
    | .error reason => (.error reason, state)
    | .ok arrived =>
      let (response, state) := serve arrived state
      (.ok response, state)

end Carrier

end Reconciliation.Wire
