import DeviceLedger.Http.MediaType
import DeviceLedger.Http.Message
import DeviceLedger.Http.Target
import DeviceLedger.Server.Service

/-!
From requests to queries and back to responses. A path is matched as it is written, before its
percent signs are resolved. A parameter that ends the path may not be empty. The head of every
answer to `GET` can be asked for with `HEAD`.
-/

namespace DeviceLedger.Http

/-- A path that is served, with its parameters as they were written. -/
inductive Route where
  | health
  | info
  | project (id : String)
  | update (id : String)
  | verify (id : String)
  | balances
  | balance (address asset : String)
  | asset (id : String)
  | order (id : String)
  | loan (asset destination : String)
  deriving DecidableEq, Repr

namespace Route

/-- The route of the parts of a path. -/
def ofParts? : List String → Option Route
  | ["v1", "health"] => some health
  | ["v1", "info"] => some info
  | ["v1", "projects", id] => if id = "" then none else some (project id)
  | ["v1", "updates", id] => if id = "" then none else some (update id)
  | ["v1", "updates", id, "verify"] => some (verify id)
  | ["v1", "balances"] => some balances
  | ["v1", "balances", address, held] => if held = "" then none else some (balance address held)
  | ["v1", "assets", id] => if id = "" then none else some (asset id)
  | ["v1", "orders", id] => if id = "" then none else some (order id)
  | ["v1", "loans", lent, destination] =>
    if destination = "" then none else some (loan lent destination)
  | _ => none

/-- Whether a route takes requests of a method. -/
def allows (route : Route) (method : String) : Bool :=
  if route = balances then method == "POST" else method == "GET" || method == "HEAD"

end Route

/-- The greatest size of a body. -/
def bodyLimit : Nat := 2097152

/-- The only value that a form gives a name; several values are refused. -/
def onlyValue? (name query : String) : Except Nat (Option String) :=
  match (formFields query).filter fun field => field.1 == name with
  | [] => .ok none
  | [field] => .ok (some field.2)
  | _ => .error 400

/-- The batch in the body of a request: it needs a JSON type, a size within the limit, text that
is JSON, and the shape of a batch. -/
def batchOf (request : Request) : Except Nat BalanceBatch :=
  if ((request.contentType.bind MediaType.parse?).map MediaType.isJson).getD false = false then
    .error 415
  else if bodyLimit < request.body.length then .error 413
  else
    match JsonFormat.parseAtStart BalanceBatch request.body with
    | .ok batch => .ok batch
    | .error .grammar => .error 400
    | .error .shape => .error 422

def parameter (written : String) : Except Nat String :=
  match pathText? written with
  | some text => .ok text
  | none => .error 400

/-- The query of a request on a route, or the status of its refusal. -/
def queryOf (request : Request) (target : Target) : Route → Except Nat Query
  | .health => .ok .health
  | .info => .ok .info
  | .project id => (parameter id).map .project
  | .update id => (parameter id).map .update
  | .verify id => do
    let id ← parameter id
    let hash ← onlyValue? "hash" target.query
    return .verify id hash
  | .balances => (batchOf request).map .balances
  | .balance address asset => do
    let address ← parameter address
    let asset ← parameter asset
    return .balance address asset
  | .asset id => (parameter id).map .asset
  | .order id => (parameter id).map .order
  | .loan asset destination => do
    let asset ← parameter asset
    let destination ← parameter destination
    return .loan asset destination

/-- The response that carries an answer or an error. -/
def Response.ofAnswer : Except ServerError Answer → Response
  | .ok (.json value) => .json 200 value.compact
  | .ok .valid => .plain 200 "VALID"
  | .error error => .json error.status error.body.compact

end DeviceLedger.Http

namespace DeviceLedger.Service

open Http

/-- The response to a request. Any `OPTIONS` request is granted. -/
def respond (service : Service) (request : Request) : Response :=
  let target := Target.parse request.target
  if request.method = "OPTIONS" then .refusal 200
  else
    match target.parts?.bind Route.ofParts? with
    | none => .refusal 404
    | some route =>
      if route.allows request.method = false then .refusal 405
      else
        let response :=
          match queryOf request target route with
          | .error status => .refusal status
          | .ok query => .ofAnswer (service.answer query)
        if request.method = "HEAD" then response.withoutBody else response

end DeviceLedger.Service
