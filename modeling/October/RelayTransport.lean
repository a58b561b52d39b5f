import October.ConnectedRegistry
import October.Executor

/-!
A tool call relayed through the executor. The client's invokes share one map of pending
requests and one reader with the lifecycle requests of the same connection; the executor
dispatches one command at a time and runs each tool call on a task of its own. The link
carries commands one way and events the other until it is lost.
-/
namespace October

inductive RelayedCommand where
  | toolCall (runtimeId : String) (call : ToolCallRequest)
  | cancelToolCall (runtimeId callId : String)
  | lifecycle (command : ExecutorCommand)

structure RelayedInbound where
  requestId : String
  command : RelayedCommand

inductive RelayedEvent where
  | registered (executorId : String)
  | toolResult (runtimeId callId : String) (result : ToolResult)
  | lifecycle (event : ExecutorEvent)

structure RelayedOutbound where
  requestId : String
  event : RelayedEvent

inductive RelayPhase where
  | inserting
  | sending
  | receiving
  | answered (result : ToolResult)
  | unanswered
  | returned (result : Except TransportError ToolResult)

/-- A relayed invoke and what is in its channel. -/
structure RelayedCall where
  runtimeId : String
  callId : String
  call : Value
  phase : RelayPhase
  inbox : List RelayedEvent

/-- Where the client's reader is; it holds the lock of the map while it delivers, to a
relayed invoke or to another caller. -/
inductive RelayReader where
  | reading
  | routing (msg : RelayedOutbound)
  | delivering (owner : Option ℕ) (event : RelayedEvent)
  | ended

inductive DispatchPhase where
  | idle
  | running (msg : RelayedInbound)
  | failing (requestId message : String)

structure ToolTask where
  runtimeId : String
  callId : String
  deriving DecidableEq

structure Relay where
  calls : List RelayedCall
  pending : AList (fun _ : String => Option ℕ)
  reader : RelayReader
  toExecutor : List RelayedInbound
  toClient : List RelayedOutbound
  linkOpen : Bool
  dispatching : DispatchPhase
  tools : List ToolTask
  connected : Option ConnectedRuntimeRegistry

inductive RelayLabel where
  | invoke (runtimeId callId : String) (call : Value)
  | insert (i : ℕ)
  | send (i : ℕ) (outcome : SendOutcome)
  | receive (i : ℕ)
  | finish (i : ℕ)
  | request (requestId : String)
  | forward (msg : RelayedInbound)
  | read
  | readerEnds
  | route
  | deliver
  | dispatch
  | lookUp
  | complete (result : Except RuntimeError Unit)
  | fail
  | toolDone (task : ToolTask) (outcome : Except TransportError ToolResult)
  | emit (requestId : String) (event : ExecutorEvent)
  | register (runtimeId : String) (transport : ℕ)
  | remove (runtimeId : String)
  | lose (arriving : ℕ)

namespace Relay

def channelCapacity : ℕ := 16

def init (connected : Option ConnectedRuntimeRegistry) : Relay :=
  ⟨[], ∅, .reading, [], [], true, .idle, [], connected⟩

def setCall (i : ℕ) (c : RelayedCall) (s : Relay) : Relay := { s with calls := s.calls.set i c }

def sendOutbound (msg : RelayedOutbound) (s : Relay) : Relay :=
  { s with toClient := if s.linkOpen then s.toClient ++ [msg] else s.toClient }

def sendInbound (msg : RelayedInbound) (s : Relay) : Relay :=
  { s with toExecutor := if s.linkOpen then s.toExecutor ++ [msg] else s.toExecutor }

def unlocked (s : Relay) : Bool :=
  match s.reader with
  | .delivering _ _ => false
  | _ => true

/-- The sender of an invoke is in the map. -/
def onEntry (s : Relay) (i : ℕ) (callId : String) : Bool :=
  s.pending.lookup callId == some (some i)

def resultFor (callId : String) : RelayedEvent → Option ToolResult
  | .toolResult _ id result => if id = callId then some result else none
  | _ => none

/-- What an invoke that receives does next; it waits if its channel is empty and its
sender is in the map. -/
def receive (s : Relay) (i : ℕ) (c : RelayedCall) : Option RelayedCall :=
  match c.inbox with
  | [] => if s.onEntry i c.callId then none else some { c with phase := .unanswered }
  | e :: rest =>
    match resultFor c.callId e with
    | some result => some { c with phase := .answered result, inbox := rest }
    | none => some { c with inbox := rest }

def sendCall (i : ℕ) (c : RelayedCall) (s : Relay) : SendOutcome → Relay
  | .sent =>
    (s.sendInbound ⟨c.callId, .toolCall c.runtimeId ⟨c.callId, c.call⟩⟩).setCall i
      { c with phase := .receiving }
  | .failed reason =>
    s.setCall i { c with phase := .returned (.error (.sendFailed ("send failed: " ++ reason))) }
  | .notSerialized reason =>
    s.setCall i
      { c with phase := .returned (.error (.sendFailed ("serialization error: " ++ reason))) }

def findTransport (connected : Option ConnectedRuntimeRegistry) (runtimeId : String) :
    Except RuntimeError ℕ :=
  match connected with
  | none => .error (.provider "no runtime listener configured")
  | some registry =>
    match registry.runtimeTransport runtimeId with
    | none => .error (.provider ("runtime '" ++ runtimeId ++ "' not connected"))
    | some transport => .ok transport

def doToolCall (requestId runtimeId : String) (call : ToolCallRequest) (s : Relay) : Relay :=
  match findTransport s.connected runtimeId with
  | .error e => { s with dispatching := .failing requestId e.display }
  | .ok _ => { s with dispatching := .idle, tools := s.tools ++ [⟨runtimeId, call.callId⟩] }

def toolResult (task : ToolTask) (outcome : Except TransportError ToolResult) : RelayedOutbound :=
  ⟨task.callId, .toolResult task.runtimeId task.callId
    (match outcome with
    | .ok result => result
    | .error e => .err e.display)⟩

/-- Hand an event to the channel of an invoke: it is lost if the invoke has returned, and
has to wait while the channel is full. -/
def deliverTo (i : ℕ) (event : RelayedEvent) (s : Relay) : Option Relay :=
  match s.calls[i]? with
  | none => none
  | some c =>
    match c.phase with
    | .returned _ => some { s with reader := .reading }
    | _ =>
      if c.inbox.length < channelCapacity then
        some { s.setCall i { c with inbox := c.inbox ++ [event] } with reader := .reading }
      else none

def stepCall (s : Relay) (i : ℕ) (f : RelayedCall → Option Relay) : Option Relay :=
  s.calls[i]?.bind f

def next (s : Relay) : RelayLabel → Option Relay
  | .invoke runtimeId callId call =>
    some { s with calls := s.calls ++ [⟨runtimeId, callId, call, .inserting, []⟩] }
  | .insert i => s.stepCall i fun c =>
    match c.phase with
    | .inserting =>
      if s.unlocked then
        some { s.setCall i { c with phase := .sending } with
          pending := s.pending.insert c.callId (some i) }
      else none
    | _ => none
  | .send i outcome => s.stepCall i fun c =>
    match c.phase with
    | .sending => some (s.sendCall i c outcome)
    | _ => none
  | .receive i => s.stepCall i fun c =>
    match c.phase with
    | .receiving => (s.receive i c).map (fun c' => s.setCall i c')
    | _ => none
  | .finish i => s.stepCall i fun c =>
    match c.phase with
    | .answered result =>
      if s.unlocked then
        some { s.setCall i { c with phase := .returned (.ok result) } with
          pending := s.pending.erase c.callId }
      else none
    | .unanswered =>
      if s.unlocked then
        some { s.setCall i { c with phase := .returned (.error .disconnected) } with
          pending := s.pending.erase c.callId }
      else none
    | _ => none
  | .request requestId =>
    if s.unlocked then some { s with pending := s.pending.insert requestId none } else none
  | .forward msg =>
    match msg.command with
    | .toolCall _ _ => none
    | _ => some (s.sendInbound msg)
  | .read =>
    match s.reader, s.toClient with
    | .reading, ⟨_, .registered _⟩ :: rest => some { s with toClient := rest }
    | .reading, msg :: rest => some { s with reader := .routing msg, toClient := rest }
    | _, _ => none
  | .readerEnds =>
    match s.reader with
    | .reading => some { s with reader := .ended }
    | _ => none
  | .route =>
    match s.reader with
    | .routing msg =>
      match s.pending.lookup msg.requestId with
      | some owner => some { s with reader := .delivering owner msg.event }
      | none => some { s with reader := .reading }
    | _ => none
  | .deliver =>
    match s.reader with
    | .delivering (some i) event => s.deliverTo i event
    | .delivering none _ => some { s with reader := .reading }
    | _ => none
  | .dispatch =>
    match s.dispatching, s.toExecutor with
    | .idle, msg :: rest => some { s with dispatching := .running msg, toExecutor := rest }
    | _, _ => none
  | .lookUp =>
    match s.dispatching with
    | .running ⟨requestId, .toolCall runtimeId call⟩ =>
      some (s.doToolCall requestId runtimeId call)
    | _ => none
  | .complete result =>
    match s.dispatching with
    | .running ⟨_, .toolCall _ _⟩ => none
    | .running msg =>
      match result with
      | .ok () => some { s with dispatching := .idle }
      | .error e => some { s with dispatching := .failing msg.requestId e.display }
    | _ => none
  | .fail =>
    match s.dispatching with
    | .failing requestId message =>
      some { s.sendOutbound ⟨requestId, .lifecycle (.commandFailed message)⟩ with
        dispatching := .idle }
    | _ => none
  | .toolDone task outcome =>
    if task ∈ s.tools then
      some { s.sendOutbound (toolResult task outcome) with tools := s.tools.erase task }
    else none
  | .emit requestId event => some (s.sendOutbound ⟨requestId, .lifecycle event⟩)
  | .register runtimeId transport =>
    some { s with
      connected := s.connected.map (fun r => (r.registerTransport runtimeId transport).2) }
  | .remove runtimeId =>
    some { s with connected := s.connected.map (ConnectedRuntimeRegistry.remove runtimeId) }
  | .lose arriving =>
    some { s with linkOpen := false, toClient := s.toClient.take arriving }

def settled (s : Relay) (i : ℕ) (c : RelayedCall) : Bool :=
  match c.phase with
  | .receiving => !s.onEntry i c.callId || c.inbox.any (fun e => (resultFor c.callId e).isSome)
  | _ => true

/-- A tool call that is dispatched finds its runtime, the reader ends when every invoke
has its result, and no request is sent after that by an invoke on its entry. -/
def answers (s : Relay) : RelayLabel → Bool
  | .lookUp =>
    match s.dispatching with
    | .running ⟨_, .toolCall runtimeId _⟩ => (findTransport s.connected runtimeId).isOk
    | _ => true
  | .readerEnds => s.calls.zipIdx.all (fun e => s.settled e.2 e.1)
  | .send i .sent =>
    match s.reader with
    | .ended => (s.calls[i]?).all (fun c => !s.onEntry i c.callId)
    | _ => true
  | _ => true

def Answers (s : Relay) (l : RelayLabel) : Prop := s.answers l = true

instance (s : Relay) (l : RelayLabel) : Decidable (Answers s l) :=
  inferInstanceAs (Decidable (_ = true))

end Relay

end October
