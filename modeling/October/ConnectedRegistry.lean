import Mathlib.Data.List.AList
import October.RuntimeProtocol
import October.LinkTable
import October.Machine

/-!
The executor's registry of connected runtimes and the tasks that fill it: one for each
accepted link, which registers the link's transport under the id its peer announces and
removes the id when the link is closed. Transports, waiters and tasks are known by number;
a task registers the transport of its own number.
-/
namespace October

structure ConnectedRuntimeRegistry where
  transports : AList (fun _ : String => ℕ)
  pending : AList (fun _ : String => ℕ)

namespace ConnectedRuntimeRegistry

def new : ConnectedRuntimeRegistry := ⟨∅, ∅⟩

/-- Register a runtime's transport; returns the waiter that this resolves. -/
def registerTransport (runtimeId : String) (transport : ℕ) (r : ConnectedRuntimeRegistry) :
    Option ℕ × ConnectedRuntimeRegistry :=
  (r.pending.lookup runtimeId,
    ⟨r.transports.insert runtimeId transport, r.pending.erase runtimeId⟩)

def notifyWhenReady (runtimeId : String) (waiter : ℕ) (r : ConnectedRuntimeRegistry) :
    ConnectedRuntimeRegistry := { r with pending := r.pending.insert runtimeId waiter }

def runtimeTransport (runtimeId : String) (r : ConnectedRuntimeRegistry) : Option ℕ :=
  r.transports.lookup runtimeId

def remove (runtimeId : String) (r : ConnectedRuntimeRegistry) : ConnectedRuntimeRegistry :=
  { r with transports := r.transports.erase runtimeId }

end ConnectedRuntimeRegistry

inductive ConnectionPhase where
  | handshaking
  | registering (runtimeId : String)
  | serving (runtimeId : String)
  | finished
  deriving DecidableEq

structure Connection where
  phase : ConnectionPhase
  closed : Bool

inductive RegistryEvent where
  | registered (runtimeId : String) (connection : ℕ)
  | stopped (runtimeId : String)

structure RuntimeLinks where
  registry : ConnectedRuntimeRegistry
  connections : ℕ → Option Connection
  ready : List ℕ
  log : List RegistryEvent

inductive LinksLabel where
  | accept (i : ℕ)
  | handshake (i : ℕ) (item : Option (Arrival RuntimeOutboundMessage))
  | register (i : ℕ)
  | closed (i : ℕ)
  | cleanUp (i : ℕ)
  | stop (runtimeId : String)
  | notifyWhenReady (runtimeId : String) (waiter : ℕ)

namespace RuntimeLinks

def init : RuntimeLinks := ⟨ConnectedRuntimeRegistry.new, fun _ => none, [], []⟩

def setConnection (i : ℕ) (c : Connection) (s : RuntimeLinks) : RuntimeLinks :=
  { s with connections := fun j => if j = i then some c else s.connections j }

/-- The handshake goes on, ends the task or finds the id; `none` is its timeout. -/
def handshake (item : Option (Arrival RuntimeOutboundMessage)) : ConnectionPhase :=
  match item with
  | some (.text (some (.ready runtimeId))) => .registering runtimeId
  | some (.text _) => .handshaking
  | _ => .finished

def next (s : RuntimeLinks) : LinksLabel → Option RuntimeLinks
  | .accept i =>
    match s.connections i with
    | some _ => none
    | none => some (s.setConnection i ⟨.handshaking, false⟩)
  | .handshake i item =>
    match s.connections i with
    | some ⟨.handshaking, closed⟩ => some (s.setConnection i ⟨handshake item, closed⟩)
    | _ => none
  | .register i =>
    match s.connections i with
    | some ⟨.registering runtimeId, closed⟩ =>
      let r := s.registry.registerTransport runtimeId i
      some { s.setConnection i ⟨.serving runtimeId, closed⟩ with
        registry := r.2
        ready := s.ready ++ r.1.toList
        log := s.log ++ [.registered runtimeId i] }
    | _ => none
  | .closed i =>
    match s.connections i with
    | some ⟨.registering runtimeId, false⟩ =>
      some (s.setConnection i ⟨.registering runtimeId, true⟩)
    | some ⟨.serving runtimeId, false⟩ => some (s.setConnection i ⟨.serving runtimeId, true⟩)
    | _ => none
  | .cleanUp i =>
    match s.connections i with
    | some ⟨.serving runtimeId, true⟩ =>
      some { s.setConnection i ⟨.finished, true⟩ with registry := s.registry.remove runtimeId }
    | _ => none
  | .stop runtimeId =>
    some { s with
      registry := s.registry.remove runtimeId
      log := s.log ++ [.stopped runtimeId] }
  | .notifyWhenReady runtimeId waiter =>
    some { s with registry := s.registry.notifyWhenReady runtimeId waiter }

/-- One event's part in which connection was registered last and not stopped since. -/
def latestStep (runtimeId : String) (latest : Option ℕ) : RegistryEvent → Option ℕ
  | .registered id i => if id = runtimeId then some i else latest
  | .stopped id => if id = runtimeId then none else latest

def latest (s : RuntimeLinks) (runtimeId : String) : Option ℕ :=
  s.log.foldl (latestStep runtimeId) none

def hasClosed (s : RuntimeLinks) (i : ℕ) : Bool := (s.connections i).any Connection.closed

/-- A connection that cleans up finds the link registered last for its id closed. -/
def staleOnly (s : RuntimeLinks) : LinksLabel → Bool
  | .cleanUp i =>
    match s.connections i with
    | some ⟨.serving runtimeId, _⟩ => (s.latest runtimeId).all s.hasClosed
    | _ => true
  | _ => true

def StaleOnly (s : RuntimeLinks) (l : LinksLabel) : Prop := s.staleOnly l = true

instance (s : RuntimeLinks) (l : LinksLabel) : Decidable (StaleOnly s l) :=
  inferInstanceAs (Decidable (_ = true))

end RuntimeLinks

end October
