import Std.Data.ExtTreeMap
import DeviceLedger.Bytes

/-!
The flat key-value store under the ledger and the two ways to reach it. A `View` may write: it
takes one call at a time, and any call may fail by a schedule. A `Reader` answers a list of keys
with a list of replies and promises nothing about them. A key that is not there is no failure.
-/

namespace DeviceLedger

/-- Why the store did not answer a call. -/
inductive StateError where
  | backend (reason : String)
  | poisoned
  deriving DecidableEq, Repr

def StateError.message : StateError → String
  | .backend reason => "backend failure: " ++ reason
  | .poisoned => "state lock poisoned"

/-- The stored pairs in the order of their keys. -/
abbrev Store := Std.ExtTreeMap Bytes Bytes compare

namespace Store

/-- A summary of the store for logs. -/
def summary (store : Store) : String :=
  "InMemoryState \x7b key_count: Some(" ++ toString store.size ++ ") \x7d"

/-- The keys whose values differ between two lists of pairs in key order, each with its value in
the second list. -/
def changes : List (Bytes × Bytes) → List (Bytes × Bytes) → List (Bytes × Option Bytes)
  | [], after => after.map fun (key, value) => (key, some value)
  | before, [] => before.map fun (key, _) => (key, none)
  | (key, value) :: before, (key', value') :: after =>
    match compare key key' with
    | .lt => (key, none) :: changes before ((key', value') :: after)
    | .gt => (key', some value') :: changes ((key, value) :: before) after
    | .eq =>
      if value = value' then changes before after
      else (key, some value') :: changes before after

/-- What has changed from one store to another, in the order of the keys. -/
def difference (before after : Store) : List (Bytes × Option Bytes) :=
  changes before.toList after.toList

end Store

/-- The three sorts of call that a view takes. -/
inductive CallKind where
  | get
  | insert
  | remove
  deriving DecidableEq, Repr

/-- A call that was made, and how it failed if it did. -/
structure Call where
  kind : CallKind
  key : Bytes
  failure : Option StateError

/-- The failures to come: of each sort of call, which one by number fails, and how. -/
abbrev Schedule := CallKind → Nat → Option StateError

namespace Schedule

/-- No call fails. -/
def faultless : Schedule := fun _ _ => none

/-- From call number `start` on, the calls of one sort fail as given, or all of them succeed. -/
def replace (schedule : Schedule) (kind : CallKind) (start : Nat) (failure : Option StateError) :
    Schedule :=
  fun other number =>
    if other = kind then (if number < start then none else failure) else schedule other number

end Schedule

/-- A store that may be written, with the failures to come and the calls made so far, the latest
first. -/
structure View where
  store : Store
  schedule : Schedule
  calls : List Call

namespace View

/-- A view of a store in which no call fails. -/
def ofStore (store : Store) : View := ⟨store, Schedule.faultless, []⟩

/-- How many calls of one sort were made. -/
def count (view : View) (kind : CallKind) : Nat :=
  view.calls.countP fun call => call.kind == kind

/-- The failure that the next call of one sort meets. -/
def nextFailure (view : View) (kind : CallKind) : Option StateError :=
  view.schedule kind (view.count kind)

/-- The view after a call that reads or fails, which leaves the store as it was. -/
def record (view : View) (kind : CallKind) (key : Bytes) : View :=
  { view with calls := ⟨kind, key, view.nextFailure kind⟩ :: view.calls }

/-- Replace the failures of one sort: after `skip` more calls that succeed, all fail as given. -/
def inject (view : View) (kind : CallKind) (failure : Option StateError) (skip : Nat) : View :=
  { view with schedule := view.schedule.replace kind (view.count kind + skip) failure }

def get (view : View) (key : Bytes) : Except StateError (Option Bytes) × View :=
  match view.nextFailure .get with
  | some failure => (.error failure, view.record .get key)
  | none => (.ok view.store[key]?, view.record .get key)

/-- Write a value at a key. A call that fails changes nothing. -/
def insert (view : View) (key value : Bytes) : Except StateError Unit × View :=
  match view.nextFailure .insert with
  | some failure => (.error failure, view.record .insert key)
  | none => (.ok (), { view.record .insert key with store := view.store.insert key value })

/-- Remove a key. A call that fails changes nothing. -/
def remove (view : View) (key : Bytes) : Except StateError Unit × View :=
  match view.nextFailure .remove with
  | some failure => (.error failure, view.record .remove key)
  | none => (.ok (), { view.record .remove key with store := view.store.erase key })

end View

/-- What a reader says about one key. -/
abbrev Reply := Except StateError (Option Bytes)

/-- A batched read-only view: any function from lists of keys to lists of replies. -/
abbrev Reader := List Bytes → List Reply

namespace Reader

/-- The reader that answers each key with the truth. -/
def ofStore (store : Store) : Reader :=
  fun keys => keys.map fun key => .ok store[key]?

/-- Read one key as a batch of one, which needs exactly one reply. -/
def one (reader : Reader) (key : Bytes) : Reply :=
  match reader [key] with
  | [reply] => reply
  | replies =>
    .error (.backend ("expected 1 result for 1 key, got " ++ toString replies.length))

/-- How a reader misbehaves. -/
inductive Distortion where
  | none
  | empty
  | short
  | extra
  | all (failure : StateError)
  | at (index : Nat) (failure : StateError)

/-- The replies of a reader that misbehaves: no reply, the last one missing, one too many, every
one a failure, or one of them. -/
def Distortion.distort : Distortion → List Reply → List Reply
  | .none, replies => replies
  | .empty, _ => []
  | .short, replies => replies.dropLast
  | .extra, replies => replies ++ [.ok Option.none]
  | .all failure, replies => replies.map fun _ => .error failure
  | .at index failure, replies => replies.set index (.error failure)

/-- A reader that misbehaves. -/
def distort (reader : Reader) (distortion : Distortion) : Reader :=
  fun keys => distortion.distort (reader keys)

end Reader

end DeviceLedger
