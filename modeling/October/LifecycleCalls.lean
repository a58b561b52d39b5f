import October.RelayTransport

/-!
The calls that create and destroy runtimes, through either executor transport. In process
the transport works on the registry itself and answers with one event. Over the WebSocket
the command goes to the executor's dispatch loop, whose events come back over the link to
a reader that routes them by request id to the channel of the call. The provider and the
handles answer by what was asked of them before, or never return.
-/
namespace October.LifecycleCalls

open Await Executor

inductive ClientError where
  | sendFailed (reason : String)
  | serialization (reason : String)
  | commandFailed (message : String)
  | disconnected
  deriving DecidableEq, Repr

abbrev CallResult := Except ClientError Unit

inductive Request where
  | createRuntime (id : String) (config : RuntimeConfig)
  | destroyRuntime (id : String)

namespace Request

def command : Request → ExecutorCommand
  | .createRuntime id config => .createRuntime id config
  | .destroyRuntime id => .destroyRuntime id

def sought : Request → RuntimeState
  | .createRuntime _ _ => .running
  | .destroyRuntime _ => .stopped

def onEvent (request : Request) : ExecutorEvent → Option CallResult
  | .runtimeStateChanged _ state => if state = request.sought then some (.ok ()) else none
  | .commandFailed message => some (.error (.commandFailed message))
  | .runtimesListed _ => none

def receiveAll (request : Request) : List ExecutorEvent → CallResult
  | [] => .error .disconnected
  | event :: rest => (request.onEvent event).getD (request.receiveAll rest)

end Request

inductive OutsideCall where
  | create (id : String) (config : RuntimeConfig)
  | stop (handle : RuntimeHandle)

/-- How the provider and the handles behave, given the calls that returned before. -/
structure Outside where
  create : List OutsideCall → String → RuntimeConfig → Option (Except RuntimeError RuntimeHandle)
  stop : List OutsideCall → RuntimeHandle → Option (Except RuntimeError Unit)

structure Host where
  registry : RuntimeRegistry
  calls : List OutsideCall

/-- What decides an await over a live link; the health check has no part in these calls. -/
def Outside.choice (outside : Outside) (h : Host) : Op → Option Choice
  | .send _ => some (.sent true)
  | .create id config => (outside.create h.calls id config).map .created
  | .stop handle => (outside.stop h.calls handle).map .stopped
  | .list => some (.listed h.registry.list)
  | .newUuid => none
  | .runningHandles => none
  | .healthCheck _ _ => none
  | _ => some .proceed

def outsideCalls : Op → List OutsideCall
  | .create id config => [.create id config]
  | .stop handle => [.stop handle]
  | _ => []

def Host.answer (outside : Outside) (h : Host) (o : Op) : Option (Ans o × Host) :=
  (outside.choice h o).bind (fun choice =>
    (Executor.perform ⟨h.registry, [], [], []⟩ o choice).map
      (fun r => (r.1, ⟨r.2.registry, h.calls ++ outsideCalls o⟩)))

/-- What a sequence of calls comes to; `hangs` is the operation that does not return. -/
structure Conduct where
  results : List CallResult
  host : Host
  hangs : Option Op

def Conduct.after (results : List CallResult) (c : Conduct) : Conduct :=
  { c with results := results ++ c.results }

def carryOut {α : Type} (outside : Outside) (rest : α → Host → Conduct) :
    Program α → Host → Conduct
  | .done a, h => rest a h
  | .call o k, h =>
    match h.answer outside o with
    | none => ⟨[], h, some o⟩
    | some (a, h') => carryOut outside rest (k a) h'

def InMemExecutorTransport.send : ExecutorCommand → Program ExecutorEvent
  | .createRuntime id config => do
    match ← createCore id config with
    | .ok () => return .runtimeStateChanged id .running
    | .error e => return .commandFailed e.display
  | .destroyRuntime id => do
    match ← await (.beginStop id) with
    | .ok handle =>
      stopHandle handle
      let _ ← await (.completeStop id)
      return .runtimeStateChanged id .stopped
    | .error e => return .commandFailed e.display
  | .restartRuntime _ => return .commandFailed "command not supported by in-process executor"
  | .queryRuntimes => return .commandFailed "command not supported by in-process executor"

def inProcess (outside : Outside) : List Request → Host → Conduct
  | [], h => ⟨[], h, none⟩
  | request :: rest, h =>
    carryOut outside
      (fun event h' => (inProcess outside rest h').after [request.receiveAll [event]])
      (InMemExecutorTransport.send request.command) h

inductive Calling where
  | idle
  | inserted (requestId : String) (request : Request)
  | receiving (request : Request)

/-- The client's calls over the WebSocket, with the request ids they draw. The calls are
numbered, and `pending` says whose channel a request id stands for; `inbox` is the channel
of the call in progress. The reader holds the lock of the map while it delivers. -/
structure Remote where
  todo : List (String × Request)
  calling : Calling
  pending : AList (fun _ : String => ℕ)
  toExecutor : List ExecutorInboundMessage
  dispatching : Program Unit
  host : Host
  toClient : List ExecutorOutboundMessage
  delivering : Option (ℕ × ExecutorEvent)
  inbox : List ExecutorEvent
  results : List CallResult

inductive RemoteLabel where
  | call
  | send
  | receive
  | dispatch
  | perform
  | read
  | deliver

namespace Remote

def start (registry : RuntimeRegistry) (requests : List (String × Request)) : Remote :=
  ⟨requests, .idle, ∅, [], .done (), ⟨registry, []⟩, [], none, [], []⟩

def sentBy : Op → List ExecutorOutboundMessage
  | .send msg => [msg]
  | _ => []

/-- Draw a request id and file the channel of the call under it. -/
def call (s : Remote) : Option Remote :=
  match s.calling, s.todo, s.delivering with
  | .idle, (requestId, request) :: rest, none =>
    some { s with
      todo := rest
      calling := .inserted requestId request
      pending := s.pending.insert requestId s.results.length }
  | _, _, _ => none

def send (s : Remote) : Option Remote :=
  match s.calling with
  | .inserted requestId request =>
    some { s with
      calling := .receiving request
      toExecutor := s.toExecutor ++ [⟨requestId, request.command⟩] }
  | _ => none

def receive (s : Remote) : Option Remote :=
  match s.calling, s.inbox with
  | .receiving request, event :: rest =>
    match request.onEvent event with
    | none => some { s with inbox := rest }
    | some result =>
      some { s with calling := .idle, inbox := [], results := s.results ++ [result] }
  | _, _ => none

def dispatch (s : Remote) : Option Remote :=
  match s.dispatching, s.toExecutor with
  | .done (), msg :: rest =>
    some { s with toExecutor := rest, dispatching := Executor.dispatch msg }
  | _, _ => none

def perform (outside : Outside) (s : Remote) : Option Remote :=
  match s.dispatching with
  | .done () => none
  | .call o k =>
    (s.host.answer outside o).map (fun r =>
      { s with dispatching := k r.1, host := r.2, toClient := s.toClient ++ sentBy o })

def read (s : Remote) : Option Remote :=
  match s.delivering, s.toClient with
  | none, msg :: rest =>
    some { s with
      toClient := rest
      delivering := (s.pending.lookup msg.requestId).map (fun number => (number, msg.event)) }
  | _, _ => none

/-- The channel of a call is open until the call returns, and bounded. -/
def deliver (s : Remote) : Option Remote :=
  match s.delivering with
  | none => none
  | some (number, event) =>
    match s.calling with
    | .idle => some { s with delivering := none }
    | _ =>
      if number = s.results.length then
        if s.inbox.length < Relay.channelCapacity then
          some { s with delivering := none, inbox := s.inbox ++ [event] }
        else none
      else some { s with delivering := none }

def next (outside : Outside) (s : Remote) : RemoteLabel → Option Remote
  | .call => s.call
  | .send => s.send
  | .receive => s.receive
  | .dispatch => s.dispatch
  | .perform => s.perform outside
  | .read => s.read
  | .deliver => s.deliver

def conduct (s : Remote) : Conduct := ⟨s.results, s.host, s.dispatching.awaits⟩

end Remote

end October.LifecycleCalls
