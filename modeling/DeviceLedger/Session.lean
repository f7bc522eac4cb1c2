import DeviceLedger.Genesis
import DeviceLedger.Ledger.Operation
import DeviceLedger.Server.Route

/-!
A session on one store: operations, calls below them and requests above them, while failures are
switched on and off. Writing goes through a view that may fail and reading through a reader that
may misbehave. A step that fails does not end the session.
-/

namespace DeviceLedger

/-- A session: the view of the store, how its reader misbehaves, and the limit of batches. -/
structure Session where
  view : View
  distortion : Reader.Distortion
  maxBatchKeys : Nat

/-- A step of a session. -/
inductive Step where
  | get (key : Bytes)
  | insert (key value : Bytes)
  | remove (key : Bytes)
  | readOne (key : Bytes)
  | readBatch (keys : List Bytes)
  | summarize
  | permit (policy : OverwritePolicy) (key : Bytes) (entity : String)
  | operate (operation : Operation)
  | look (lookup : Lookup)
  | found (genesis : Bytes)
  | inject (kind : CallKind) (failure : Option StateError) (skip : Nat)
  | distort (distortion : Reader.Distortion)
  | request (request : Http.Request)

namespace Step

/-- Why a step failed. -/
inductive Failure where
  | state (failure : StateError)
  | storage (error : StorageError)
  | server (error : ServerError)
  deriving DecidableEq

def Failure.message : Failure → String
  | .state failure => failure.message
  | .storage error => error.message
  | .server error => error.message

/-- What a step answers. -/
inductive Result where
  | outcome (outcome : Outcome)
  | value (value : Option Bytes)
  | replies (replies : List Reply)
  | summary (size : Nat) (text : String)
  | response (response : Http.Response)

end Step

namespace Session

/-- A session on an empty store without failures. -/
def start (maxBatchKeys : Nat) : Session := ⟨View.ofStore ∅, .none, maxBatchKeys⟩

def reader (session : Session) : Reader :=
  (Reader.ofStore session.view.store).distort session.distortion

def service (session : Session) : Service := ⟨session.reader, session.maxBatchKeys⟩

def call {α : Type} (session : Session) (result : Except StateError α × View)
    (present : α → Step.Result) : Except Step.Failure Step.Result × Session :=
  ((result.1.map present).mapError .state, { session with view := result.2 })

def carryOut {α : Type} (session : Session) (action : Action α) (fail : StorageError → Step.Failure)
    (present : α → Step.Result) : Except Step.Failure Step.Result × Session :=
  let (result, view) := action session.view
  ((result.map present).mapError fail, { session with view })

/-- Read first balances and give them out. -/
def found (session : Session) (source : Bytes) :
    Except Step.Failure Step.Result × Session :=
  match JsonFormat.parse Genesis source with
  | .ok genesis =>
    session.carryOut genesis.apply (fun error => .server (.storage error)) fun _ => .outcome .done
  | .error _ => (.error (.server (.genesis "the text does not hold allocations")), session)

/-- What a step answers, and the session after it. -/
def step (session : Session) : Step → Except Step.Failure Step.Result × Session
  | .get key => session.call (session.view.get key) .value
  | .insert key value => session.call (session.view.insert key value) fun _ => .outcome .done
  | .remove key => session.call (session.view.remove key) fun _ => .outcome .done
  | .readOne key => (((session.reader.one key).map .value).mapError .state, session)
  | .readBatch keys => (.ok (.replies (session.reader keys)), session)
  | .summarize => (.ok (.summary session.view.store.size session.view.store.summary), session)
  | .permit policy key entity =>
    session.carryOut (policy.permit key entity) .storage fun _ => .outcome .done
  | .operate operation => session.carryOut operation.run .storage .outcome
  | .look lookup => (((lookup.run session.reader).map .outcome).mapError .storage, session)
  | .found genesis => session.found genesis
  | .inject kind failure skip =>
    (.ok (.outcome .done), { session with view := session.view.inject kind failure skip })
  | .distort distortion => (.ok (.outcome .done), { session with distortion })
  | .request request => (.ok (.response (session.service.respond request)), session)

/-- What is reported of a step: its answer, the number of stored keys after it, and what it
changed. -/
structure Report where
  answer : Except Step.Failure Step.Result
  size : Nat
  changes : List (Bytes × Option Bytes)

def report (session : Session) (step : Step) : Report × Session :=
  let (answer, next) := session.step step
  (⟨answer, next.view.store.size, Store.difference session.view.store next.view.store⟩, next)

/-- The reports of steps in order. -/
def run (session : Session) : List Step → List Report
  | [] => []
  | step :: steps =>
    let (report, next) := session.report step
    report :: next.run steps

end Session

end DeviceLedger
