import DeviceLedger.Bytes

/-!
Requests and responses as far as the service sees them.
-/

namespace DeviceLedger.Http

/-- A request. -/
structure Request where
  method : String
  target : String
  contentType : Option String
  body : Bytes

/-- A response. Where the transport refuses a request before the service sees it, there is neither
a type nor a body. -/
structure Response where
  status : Nat
  contentType : Option String
  body : String
  deriving DecidableEq, Repr

namespace Response

/-- A refusal by the transport. -/
def refusal (status : Nat) : Response := ⟨status, none, ""⟩

def json (status : Nat) (body : String) : Response := ⟨status, some "application/json", body⟩

def plain (status : Nat) (body : String) : Response :=
  ⟨status, some "text/plain; charset=utf-8", body⟩

/-- The same response without its body. -/
def withoutBody (response : Response) : Response := { response with body := "" }

end Response

end DeviceLedger.Http
