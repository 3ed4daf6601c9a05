import TittyBackend.Graphql.Error
import TittyBackend.Isolation
import TittyBackend.Service

/-!
# The HTTP handler

`graphql_handler` of `main.rs`: the global limit, the session of the request, and its fields one
after the other.
-/

namespace TittyBackend

open Numerals Programs Resolver

/-! ### Headers -/

/-- The bytes of a header value. -/
abbrev HeaderValue := List UInt8

/-- Header names in lower case with their values, in order. -/
abbrev HeaderMap := List (Text × HeaderValue)

/-- `HeaderMap::get`: the first value. -/
def HeaderMap.get (headers : HeaderMap) (name : Text) : Option HeaderValue := headers.lookup name

/-- The character of a byte of ASCII. -/
def asciiChar (b : UInt8) : Char := Char.ofNat b.toNat

/-- A byte that `HeaderValue::to_str` takes: visible ASCII, a space or a tab. -/
def isVisible (b : UInt8) : Bool := (32 ≤ b && b < 127) || b == 9

/-- `HeaderValue::to_str` -/
def HeaderValue.toStr (value : HeaderValue) : Option Text :=
  if value.all isVisible then some (value.map asciiChar) else none

/-- `request_source`, which is `client_key` as well. `normaliseIp` trims a text, parses it as an
IP address and prints that. -/
def requestSource (normaliseIp : Text → Option Text) (headers : HeaderMap) : Text :=
  (((headers.get "x-forwarded-for".toList).bind HeaderValue.toStr
        |>.map fun value => value.takeWhile (· ≠ ','))
      |>.or ((headers.get "x-real-ip".toList).bind HeaderValue.toStr)
      |>.bind normaliseIp).getD "unknown".toList

/-! ### Fields -/

/-- What the client gets for one field of its request. -/
inductive Outcome where
  | data (x : Answer)
  | error (g : GraphqlError)
  /-- The resolver panicked, and its request gets no answer. -/
  | panic
  deriving DecidableEq

/-- A response as the client sees it, when errors are converted in this way. -/
def Outcome.of (via : Conversion) : Response → Outcome
  | .ok x => .data x
  | .error (.api e) => .error (via.carry e)
  | .error .panic => .panic

variable (D : Deployment) (via : Conversion)

def Op.field (op : Op) : Program Outcome := (op.resolver D).run >>= fun r => .ret (.of via r)

/-- `Schema::execute` -/
def execute : List Op → Program (List Outcome)
  | [] => .ret []
  | op :: ops => op.field D via >>= fun x => execute ops >>= fun xs => .ret (x :: xs)

/-! ### The handler -/

inductive Reply where
  | tooManyRequests
  /-- Status 401. -/
  | unauthorized
  | graphql (fields : List Outcome)
  deriving DecidableEq

/-- Whether the handler runs the fields of a request, and for which account. -/
inductive Verdict where
  | refuse
  | run (account : Option Text)
  deriving DecidableEq

/-- The `Authorization` header as the handler hands it to `authenticate_bearer`. -/
def authorization (headers : HeaderMap) : Option Text :=
  (headers.get "authorization".toList).bind HeaderValue.toStr

def verdict (now : ℤ) (headers : HeaderMap) : Verdict :=
  match authenticateBearer D now (authorization headers) with
  | .ok account => .run account
  | .error _ => .refuse

/-- The handler after the global limit; `now` is what `jsonwebtoken::decode` reads. A request is
its fields, given their context. -/
def respond (now : ℤ) (headers : HeaderMap) (clientKey : Text) (request : List (Context → Op)) :
    Program Reply :=
  match verdict D now headers with
  | .refuse => .ret .unauthorized
  | .run account =>
    execute D via (request.map fun field => field ⟨clientKey, account⟩) >>= fun xs =>
      .ret (.graphql xs)

def graphqlHandler (normaliseIp : Text → Option Text) (headers : HeaderMap)
    (request : List (Context → Op)) : Program Reply :=
  let clientKey := requestSource normaliseIp headers
  .call (.check (bucketKey clientKey "graphql".toList) 120 minute) fun admitted =>
    if admitted then .call .now fun now => respond D via now headers clientKey request
    else .ret .tooManyRequests

end TittyBackend
