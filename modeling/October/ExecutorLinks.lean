import Mathlib.Data.List.AList
import October.Executor
import October.RuntimeProtocol

/-!
The server's registry of connected executors and the tasks that fill it: one for each
accepted connection, which waits for the executor to tell its id, registers a sink under
it, serves what arrives, and removes the id when the connection ends. Connections are known
by number; the sink of a connection has its number. A command holds the lock of the
registry until its sink has taken it.
-/
namespace October

inductive ServerError where
  | executorNotFound (executorId : String)
  | sendFailed (reason : String)
  | bindFailed (reason : String)
  | serialization (reason : String)
  deriving DecidableEq

def ServerError.display : ServerError → String
  | .executorNotFound executorId => "executor not found: " ++ executorId
  | .sendFailed reason => "send failed: " ++ reason
  | .bindFailed reason => "bind failed: " ++ reason
  | .serialization reason => "serialization error: " ++ reason

/-- An event as the server receives it: beside those of the runtimes' lifecycle, the
registration and the results of tool calls. -/
inductive ServerEvent where
  | registered (executorId : String)
  | toolResult (runtimeId callId : String) (result : ToolResult)
  | lifecycle (event : ExecutorEvent)

structure ExecutorReport where
  requestId : String
  event : ServerEvent

structure ExecutorConn where
  executorId : String
  sink : ℕ
  deriving DecidableEq

def wsCommandSink : SendOutcome → Except ServerError Unit
  | .sent => .ok ()
  | .failed reason => .error (.sendFailed reason)
  | .notSerialized reason => .error (.serialization reason)

structure ExecutorRegistry where
  conns : AList (fun _ : String => ExecutorConn)

namespace ExecutorRegistry

def new : ExecutorRegistry := ⟨∅⟩

def register (conn : ExecutorConn) (r : ExecutorRegistry) : ExecutorRegistry :=
  ⟨r.conns.insert conn.executorId conn⟩

def remove (executorId : String) (r : ExecutorRegistry) : ExecutorRegistry :=
  ⟨r.conns.erase executorId⟩

/-- The answer to a command, when the sinks do what `sinks` says with it. -/
def sendCommand (sinks : ℕ → ExecutorInboundMessage → SendOutcome) (executorId requestId : String)
    (command : ExecutorCommand) (r : ExecutorRegistry) : Except ServerError Unit :=
  match r.conns.lookup executorId with
  | some conn => wsCommandSink (sinks conn.sink ⟨requestId, command⟩)
  | none => .error (.executorNotFound executorId)

end ExecutorRegistry

inductive ExecutorPhase where
  | handshaking
  | registering (executorId : String)
  | serving (executorId : String)
  | removing (executorId : String)
  | finished
  deriving DecidableEq

def ExecutorPhase.hasEnded : ExecutorPhase → Bool
  | .removing _ => true
  | .finished => true
  | _ => false

structure ExecutorLinks where
  registry : ExecutorRegistry
  /-- The sink that a command holding the lock awaits. -/
  sending : Option ExecutorConn
  tasks : ℕ → Option ExecutorPhase
  handled : List (String × ExecutorReport)
  log : List ExecutorConn

inductive ExecutorLinksLabel where
  | accept (i : ℕ) (upgraded : Bool)
  | receive (i : ℕ) (item : Arrival ExecutorReport)
  | register (i : ℕ)
  | remove (i : ℕ)
  | command (executorId : String)
  | sent

namespace ExecutorLinks

def init : ExecutorLinks := ⟨ExecutorRegistry.new, none, fun _ => none, [], []⟩

def setTask (i : ℕ) (phase : ExecutorPhase) (s : ExecutorLinks) : ExecutorLinks :=
  { s with tasks := fun j => if j = i then some phase else s.tasks j }

/-- The first message must be Registered: other text is passed over, all else ends the task. -/
def handshake : Arrival ExecutorReport → ExecutorPhase
  | .text (some ⟨_, .registered executorId⟩) => .registering executorId
  | .text _ => .handshaking
  | _ => .finished

def serve (executorId : String) (item : Arrival ExecutorReport) : ExecutorPhase :=
  if item.closes then .removing executorId else .serving executorId

def onEvent (executorId : String) : Arrival ExecutorReport → List (String × ExecutorReport)
  | .text (some outbound) => [(executorId, outbound)]
  | _ => []

def next (s : ExecutorLinks) : ExecutorLinksLabel → Option ExecutorLinks
  | .accept i upgraded =>
    match s.tasks i with
    | none => some (s.setTask i (if upgraded then .handshaking else .finished))
    | some _ => none
  | .receive i item =>
    match s.tasks i with
    | some .handshaking => some (s.setTask i (handshake item))
    | some (.serving executorId) =>
      some { s.setTask i (serve executorId item) with
        handled := s.handled ++ onEvent executorId item }
    | _ => none
  | .register i =>
    match s.tasks i, s.sending with
    | some (.registering executorId), none =>
      some { s.setTask i (.serving executorId) with
        registry := s.registry.register ⟨executorId, i⟩
        log := s.log ++ [⟨executorId, i⟩] }
    | _, _ => none
  | .remove i =>
    match s.tasks i, s.sending with
    | some (.removing executorId), none =>
      some { s.setTask i .finished with registry := s.registry.remove executorId }
    | _, _ => none
  | .command executorId =>
    match s.sending with
    | none => some { s with sending := s.registry.conns.lookup executorId }
    | some _ => none
  | .sent =>
    match s.sending with
    | none => none
    | some _ => some { s with sending := none }

def latest (s : ExecutorLinks) (executorId : String) : Option ℕ :=
  s.log.foldl (fun last conn => if conn.executorId = executorId then some conn.sink else last) none

def hasEnded (s : ExecutorLinks) (i : ℕ) : Bool := (s.tasks i).any ExecutorPhase.hasEnded

/-- A connection that removes its id finds the one registered last for it ended. -/
def staleOnly (s : ExecutorLinks) : ExecutorLinksLabel → Bool
  | .remove i =>
    match s.tasks i with
    | some (.removing executorId) => (s.latest executorId).all s.hasEnded
    | _ => true
  | _ => true

def StaleOnly (s : ExecutorLinks) (l : ExecutorLinksLabel) : Prop := s.staleOnly l = true

instance (s : ExecutorLinks) (l : ExecutorLinksLabel) : Decidable (StaleOnly s l) :=
  inferInstanceAs (Decidable (_ = true))

end ExecutorLinks

end October
