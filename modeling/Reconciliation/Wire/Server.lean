import Reconciliation.Store.Config
import Reconciliation.Store.Memory
import Reconciliation.Text.Natural

namespace Reconciliation.Wire

/-!
# Starting a server

What comes before the first request:

* `ServerError` — why a server does not start;
* `loadSeed` — puts the objects of a file into the store in memory;
* `splitAddress` — the host to listen at, and the number that goes with it.
-/

/-- Why a server does not start. -/
inductive ServerError where
  | bind (address reason : String)
  | seed (detail : String)
  | store (error : StoreError)
  | io (detail : String)
deriving DecidableEq, Repr

namespace ServerError

/-- What went wrong, in one word. -/
def tag : ServerError → String
  | bind _ _ => "Bind"
  | seed _ => "Seed"
  | store _ => "Store"
  | io _ => "Io"

/-- The wording of a server error. -/
def message : ServerError → String
  | bind address reason => "failed to bind " ++ address ++ ": " ++ reason
  | seed detail => "failed to load seed objects: " ++ detail
  | store error => "store error: " ++ error.message
  | io detail => "I/O error: " ++ detail

end ServerError

/-- Seeds the objects one after the other, up to the first that is refused. -/
def insertAll (stamp : Stamp) : List Object → Memory → Except StoreError Unit × Memory
  | [], m => (.ok (), m)
  | object :: rest, m =>
    match m.insert stamp object with
    | (.ok _, m) => insertAll stamp rest m
    | (.error error, m) => (.error error, m)

/-- Seeds the objects that a file lists; the answer is their number. -/
def loadSeed (stamp : Stamp) (file : FileContent) (m : Memory) : Except ServerError Nat × Memory :=
  match file with
  | .error reason => (.error (.io reason), m)
  | .ok content =>
    match Json.ofText (Json.list Object.decoder) content with
    | .error problem => (.error (.seed problem.detail), m)
    | .ok objects =>
      match insertAll stamp objects m with
      | (.ok (), m) => (.ok objects.length, m)
      | (.error error, m) => (.error (.store error), m)

/-- The host of an address, and the number after the last colon. -/
def splitAddress (address : String) : Except String (String × Nat) :=
  match Text.cutLast? ':' address with
  | none => .error "invalid socket address"
  | some (host, digits) =>
    match Text.natural? UInt16.size digits with
    | some number => .ok (host, number)
    | none => .error "invalid port value"

end Reconciliation.Wire
