import Mathlib.Data.List.AList
import October.RuntimeProtocol
import October.Machine

/-!
The direct tool-call transport of a runtime link. Invokes file the sender of their reply
under the call id, a reader task answers them and, when it stops reading, resolves those
that are left with Disconnected and signals that the link is closed. Every await point is
a step, so invokes and reader interleave at each of them.
-/
namespace October

inductive InvokePhase where
  | inserting
  | sending
  | removing (reason : String)
  | waiting
  | returned (result : Except TransportError ToolResult)
  deriving DecidableEq

structure Invoke where
  callId : String
  call : Value
  phase : InvokePhase
  reply : Oneshot (Except TransportError ToolResult)

inductive ReaderPhase where
  | reading
  | answering (callId : String) (result : ToolResult)
  | draining
  | signalling
  | ended
  deriving DecidableEq

structure SocketRuntimeTransport where
  pending : AList (fun _ : String => ℕ)
  calls : ℕ → Option Invoke
  reader : ReaderPhase
  closed : Bool
  arrived : List (Arrival RuntimeOutboundMessage)

inductive SocketLabel where
  | invoke (i : ℕ) (callId : String) (call : Value)
  | insert (i : ℕ)
  | send (i : ℕ) (outcome : SendOutcome)
  | remove (i : ℕ)
  | receive (i : ℕ)
  | arrive (item : Arrival RuntimeOutboundMessage)
  | answer
  | drain
  | signal

namespace SocketRuntimeTransport

def init : SocketRuntimeTransport := ⟨∅, fun _ => none, .reading, false, []⟩

def setPhase (i : ℕ) (phase : InvokePhase) (s : SocketRuntimeTransport) :
    SocketRuntimeTransport :=
  { s with
    calls := fun j =>
      if j = i then (s.calls j).map (fun c => { c with phase := phase }) else s.calls j }

def setReplies (p : ℕ → Bool)
    (f : Oneshot (Except TransportError ToolResult) → Oneshot (Except TransportError ToolResult))
    (s : SocketRuntimeTransport) : SocketRuntimeTransport :=
  { s with
    calls := fun j =>
      if p j then (s.calls j).map (fun c => { c with reply := f c.reply }) else s.calls j }

def filed (s : SocketRuntimeTransport) (callId : String) : Option ℕ := s.pending.lookup callId

def forget (callId : String) (s : SocketRuntimeTransport) : SocketRuntimeTransport :=
  { s.setReplies (fun j => s.filed callId == some j) Oneshot.dropSender with
    pending := s.pending.erase callId }

/-- File the sender of an invoke; one that was filed under the id before is dropped. -/
def file (i : ℕ) (callId : String) (s : SocketRuntimeTransport) : SocketRuntimeTransport :=
  { s.setReplies (fun j => s.filed callId == some j) Oneshot.dropSender with
    pending := s.pending.insert callId i }

/-- Remove the sender under a call id from the map and send a reply through it. -/
def resolve (callId : String) (result : ToolResult) (s : SocketRuntimeTransport) :
    SocketRuntimeTransport :=
  { s.setReplies (fun j => s.filed callId == some j) (Oneshot.send (.ok result)) with
    pending := s.pending.erase callId }

def drain (s : SocketRuntimeTransport) : SocketRuntimeTransport :=
  { s.setReplies (fun j => s.pending.entries.any (fun e => e.2 == j))
      (Oneshot.send (.error .disconnected)) with pending := ∅ }

def read (item : Arrival RuntimeOutboundMessage) : ReaderPhase :=
  match item with
  | .text (some (.toolCallResponse callId result)) => .answering callId result
  | .text _ => .reading
  | _ => .draining

def next (s : SocketRuntimeTransport) : SocketLabel → Option SocketRuntimeTransport
  | .invoke i callId call =>
    match s.calls i with
    | some _ => none
    | none => some { s with
        calls := fun j =>
          if j = i then some ⟨callId, call, .inserting, .empty⟩ else s.calls j }
  | .insert i =>
    match s.calls i with
    | some ⟨callId, _, .inserting, _⟩ => some ((s.file i callId).setPhase i .sending)
    | _ => none
  | .send i outcome =>
    match s.calls i with
    | some ⟨_, _, .sending, _⟩ =>
      match outcome with
      | .sent => some (s.setPhase i .waiting)
      | .failed reason => some (s.setPhase i (.removing reason))
      | .notSerialized reason => some (s.setPhase i (.returned (.error (.serialization reason))))
    | _ => none
  | .remove i =>
    match s.calls i with
    | some ⟨callId, _, .removing reason, _⟩ =>
      some ((s.forget callId).setPhase i (.returned (.error (.sendFailed reason))))
    | _ => none
  | .receive i =>
    match s.calls i with
    | some ⟨_, _, .waiting, .filled reply⟩ => some (s.setPhase i (.returned reply))
    | some ⟨_, _, .waiting, .dropped⟩ =>
      some (s.setPhase i (.returned (.error .disconnected)))
    | _ => none
  | .arrive item =>
    match s.reader with
    | .reading => some { s with reader := read item, arrived := s.arrived ++ [item] }
    | _ => none
  | .answer =>
    match s.reader with
    | .answering callId result => some { s.resolve callId result with reader := .reading }
    | _ => none
  | .drain =>
    match s.reader with
    | .draining => some { s.drain with reader := .signalling }
    | _ => none
  | .signal =>
    match s.reader with
    | .signalling => some { s with reader := .ended, closed := true }
    | _ => none

def drained (s : SocketRuntimeTransport) : Bool :=
  match s.reader with
  | .signalling => true
  | .ended => true
  | _ => false

def onEntry (s : SocketRuntimeTransport) (i : ℕ) : Bool :=
  (s.calls i).any (fun c => s.filed c.callId == some i)

/-- The reader is given text until the link closes, and no request is sent whose sender
was filed after the drain. -/
def heeds (s : SocketRuntimeTransport) : SocketLabel → Bool
  | .arrive item => item.isText || item.closes
  | .send i .sent => !(s.drained && s.onEntry i)
  | _ => true

def Heeds (s : SocketRuntimeTransport) (l : SocketLabel) : Prop := s.heeds l = true

instance (s : SocketRuntimeTransport) (l : SocketLabel) : Decidable (Heeds s l) :=
  inferInstanceAs (Decidable (_ = true))

end SocketRuntimeTransport

end October
