import Mathlib.Data.List.Basic

/-!
The journal interface of the actor crate: logs named by a persistence id, opaque
byte events numbered from one, one snapshot per log. Serialization is a pair of
functions that reads back what it wrote.
-/
namespace October

abbrev Bytes := List UInt8

structure PersistenceId where
  kind : String
  id : String
  deriving DecidableEq, Repr

def PersistenceId.display (pid : PersistenceId) : String := pid.kind ++ "/" ++ pid.id

inductive JournalError where
  | backend (message : String)
  | serialization (message : String)
  deriving DecidableEq, Repr

def JournalError.display : JournalError → String
  | .backend message => "journal backend error: " ++ message
  | .serialization message => "journal serialization error: " ++ message

abbrev JournalResult := Except JournalError

/-- Append-only event log with snapshot support. A mutating call returns its
result together with the journal after the call. -/
class Journal (J : Type) where
  persist : PersistenceId → List Bytes → J → JournalResult Unit × J
  replay : PersistenceId → ℕ → J → List (JournalResult Bytes)
  saveSnapshot : PersistenceId → Bytes → ℕ → J → JournalResult Unit × J
  latestSnapshot : PersistenceId → J → JournalResult (Option (Bytes × ℕ))
  deleteEventsBefore : PersistenceId → ℕ → J → JournalResult Unit × J
  copySnapshot : PersistenceId → PersistenceId → J → JournalResult Unit × J
  clear : PersistenceId → J → JournalResult Unit × J

/-- Serialization that may refuse a value but reads back every value it writes. -/
structure Serde (A : Type) where
  toVec : A → Except String Bytes
  fromSlice : Bytes → Except String A
  lossless : ∀ a bytes, toVec a = .ok bytes → fromSlice bytes = .ok a

inductive CommandEffect (E : Type) where
  | persist (events : List E)
  | persistAndSnapshot (events : List E)
  | snapshot
  | none
  | stop
  | persistAndStop (events : List E)

namespace CommandEffect

variable {E : Type}

def events : CommandEffect E → List E
  | .persist events => events
  | .persistAndSnapshot events => events
  | .persistAndStop events => events
  | _ => []

def stops : CommandEffect E → Bool
  | .stop => true
  | .persistAndStop _ => true
  | _ => false

def snapshots : CommandEffect E → Bool
  | .snapshot => true
  | .persistAndSnapshot _ => true
  | _ => false

@[simp] theorem events_persist (es : List E) : (persist es).events = es := rfl
@[simp] theorem events_persistAndSnapshot (es : List E) :
    (persistAndSnapshot es).events = es := rfl
@[simp] theorem events_snapshot : (snapshot : CommandEffect E).events = [] := rfl
@[simp] theorem events_none : (none : CommandEffect E).events = [] := rfl
@[simp] theorem events_stop : (stop : CommandEffect E).events = [] := rfl
@[simp] theorem events_persistAndStop (es : List E) : (persistAndStop es).events = es := rfl

@[simp] theorem stops_persist (es : List E) : (persist es).stops = false := rfl
@[simp] theorem stops_persistAndSnapshot (es : List E) :
    (persistAndSnapshot es).stops = false := rfl
@[simp] theorem stops_snapshot : (snapshot : CommandEffect E).stops = false := rfl
@[simp] theorem stops_none : (none : CommandEffect E).stops = false := rfl
@[simp] theorem stops_stop : (stop : CommandEffect E).stops = true := rfl
@[simp] theorem stops_persistAndStop (es : List E) : (persistAndStop es).stops = true := rfl

end CommandEffect

/-- The part of an actor the runtime folds: its initial state, its pure event
fold, and how state and events are serialized. -/
structure EventSourcedActor (S E : Type) where
  initialState : S
  applyEvent : S → E → S
  stateSerde : Serde S
  eventSerde : Serde E

end October
