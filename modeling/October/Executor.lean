import October.Await
import October.RuntimeRegistry
import October.Machine

/-!
The executor: a dispatch loop that carries out one command at a time and a health
check that runs beside it. Each of their functions is a program whose operations are
the await points of the source: a critical section of the registry, a message to the
server, a call of the provider or of a handle. Tool calls do not touch the registry
of runtimes and have their own module.
-/
namespace October

open Await

inductive ExecutorCommand where
  | createRuntime (runtimeId : String) (config : RuntimeConfig)
  | destroyRuntime (runtimeId : String)
  | restartRuntime (runtimeId : String)
  | queryRuntimes

structure ExecutorInboundMessage where
  requestId : String
  command : ExecutorCommand

inductive ExecutorEvent where
  | runtimeStateChanged (runtimeId : String) (state : RuntimeState)
  | runtimesListed (runtimes : List RuntimeInfo)
  | commandFailed (message : String)

structure ExecutorOutboundMessage where
  requestId : String
  event : ExecutorEvent

inductive HealthStatus where
  | healthy
  | unhealthy (reason : String)
  deriving DecidableEq, Repr

namespace Executor

inductive Cause where
  | unhealthy
  | notCreated
  deriving DecidableEq, Repr

/-- The await points. A health check also names the id its handle was listed under, and
a mark what it is for. -/
inductive Op where
  | send (msg : ExecutorOutboundMessage)
  | newUuid
  | beginCreate (id : String) (config : RuntimeConfig)
  | completeCreate (id : String) (handle : RuntimeHandle)
  | markFailed (id : String) (cause : Cause)
  | beginStop (id : String)
  | completeStop (id : String)
  | beginRestart (id : String)
  | list
  | runningHandles
  | getConfig (id : String)
  | getRestartCount (id : String)
  | create (id : String) (config : RuntimeConfig)
  | stop (handle : RuntimeHandle)
  | healthCheck (id : String) (handle : RuntimeHandle)

abbrev Ans : Op → Type
  | .send _ => Unit
  | .newUuid => String
  | .beginCreate _ _ => Except RuntimeError Unit
  | .completeCreate _ _ => Except RuntimeError Unit
  | .markFailed _ _ => Except RuntimeError Unit
  | .beginStop _ => Except RuntimeError (Option RuntimeHandle)
  | .completeStop _ => Except RuntimeError Unit
  | .beginRestart _ => Except RuntimeError (Option RuntimeHandle)
  | .list => List RuntimeInfo
  | .runningHandles => List (String × RuntimeHandle)
  | .getConfig _ => Option RuntimeConfig
  | .getRestartCount _ => Option UInt32
  | .create _ _ => Except RuntimeError RuntimeHandle
  | .stop _ => Except RuntimeError Unit
  | .healthCheck _ _ => Except RuntimeError HealthStatus

abbrev Program := Prog Op Ans

def await (o : Op) : Program (Ans o) := Prog.perform o

def emitState (requestId runtimeId : String) (state : RuntimeState) : Program Unit :=
  await (.send ⟨requestId, .runtimeStateChanged runtimeId state⟩)

def createCore (id : String) (config : RuntimeConfig) : Program (Except RuntimeError Unit) := do
  match ← await (.beginCreate id config) with
  | .error e => return .error e
  | .ok () =>
    match ← await (.create id config) with
    | .ok handle => await (.completeCreate id handle)
    | .error e =>
      let _ ← await (.markFailed id .notCreated)
      return .error e

def doCreate (id : String) (config : RuntimeConfig) (req : String) :
    Program (Except RuntimeError Unit) := do
  emitState req id .creating
  match ← createCore id config with
  | .ok () =>
    emitState req id .running
    return .ok ()
  | .error e =>
    emitState req id .failed
    return .error e

def stopHandle : Option RuntimeHandle → Program Unit
  | none => return ()
  | some handle => do
    let _ ← await (.stop handle)
    return ()

def doDestroy (id req : String) : Program (Except RuntimeError Unit) := do
  match ← await (.beginStop id) with
  | .error e => return .error e
  | .ok handle =>
    emitState req id .stopping
    stopHandle handle
    match ← await (.completeStop id) with
    | .error e => return .error e
    | .ok () =>
      emitState req id .stopped
      return .ok ()

def doRestart (id req : String) : Program (Except RuntimeError Unit) := do
  match ← await (.getConfig id) with
  | none => return .error (.notFound id)
  | some config =>
    match ← await (.beginRestart id) with
    | .error e => return .error e
    | .ok oldHandle =>
      emitState req id .creating
      stopHandle oldHandle
      match ← await (.create id config) with
      | .ok handle =>
        match ← await (.completeCreate id handle) with
        | .error e => return .error e
        | .ok () =>
          emitState req id .running
          return .ok ()
      | .error e =>
        let _ ← await (.markFailed id .notCreated)
        emitState req id .failed
        return .error e

def runCommand (req : String) : ExecutorCommand → Program (Except RuntimeError Unit)
  | .createRuntime id config => doCreate id config req
  | .destroyRuntime id => doDestroy id req
  | .restartRuntime id => doRestart id req
  | .queryRuntimes => do
    let runtimes ← await .list
    await (.send ⟨req, .runtimesListed runtimes⟩)
    return .ok ()

def dispatch (msg : ExecutorInboundMessage) : Program Unit := do
  match ← runCommand msg.requestId msg.command with
  | .ok () => return ()
  | .error e => await (.send ⟨msg.requestId, .commandFailed e.display⟩)

def reviveRuntime (id unsolicited : String) (config : RuntimeConfig) : Program Unit := do
  match ← await (.beginRestart id) with
  | .error _ => return ()
  | .ok old =>
    emitState unsolicited id .creating
    stopHandle old
    match ← await (.create id config) with
    | .ok newHandle =>
      let _ ← await (.completeCreate id newHandle)
      emitState unsolicited id .running
    | .error _ =>
      let _ ← await (.markFailed id .notCreated)
      emitState unsolicited id .failed

def onUnhealthy (maxRestarts : UInt32) (id : String) : Program Unit := do
  let _ ← await (.markFailed id .unhealthy)
  let unsolicited ← await .newUuid
  emitState unsolicited id .failed
  let count ← await (.getRestartCount id)
  if maxRestarts ≤ count.getD 4294967295 then return ()
  else
    match ← await (.getConfig id) with
    | none => return ()
    | some config => reviveRuntime id unsolicited config

def isHealthy : Except RuntimeError HealthStatus → Bool
  | .ok .healthy => true
  | _ => false

def checkHandles (maxRestarts : UInt32) : List (String × RuntimeHandle) → Program Unit
  | [] => return ()
  | (id, handle) :: rest => do
    let answer ← await (.healthCheck id handle)
    if isHealthy answer then checkHandles maxRestarts rest
    else
      onUnhealthy maxRestarts id
      checkHandles maxRestarts rest

def runHealthCheck (maxRestarts : UInt32) : Program Unit := do
  let handles ← await .runningHandles
  checkHandles maxRestarts handles

inductive LinkEvent where
  | received (msg : ExecutorInboundMessage)
  | sent (msg : ExecutorOutboundMessage)

/-- What the tasks share, with the handles the provider returned under each id, those
whose stop was called, and the traffic of the link. -/
structure Memory where
  registry : RuntimeRegistry
  created : List (String × RuntimeHandle)
  stopped : List RuntimeHandle
  log : List LinkEvent

def Memory.init : Memory := ⟨RuntimeRegistry.new, [], [], []⟩

inductive Choice where
  | proceed
  | sent (ok : Bool)
  | drawn (uuid : String)
  | listed (runtimes : List RuntimeInfo)
  | handles (order : List (String × RuntimeHandle))
  | created (result : Except RuntimeError RuntimeHandle)
  | stopped (result : Except RuntimeError Unit)
  | checked (result : Except RuntimeError HealthStatus)

def Memory.section {α : Type} (f : RuntimeRegistry → α × RuntimeRegistry) (m : Memory) :
    α × Memory := ((f m.registry).1, { m with registry := (f m.registry).2 })

def perform (m : Memory) : (o : Op) → Choice → Option (Ans o × Memory)
  | .send msg, .sent ok => some ((), if ok then { m with log := m.log ++ [.sent msg] } else m)
  | .newUuid, .drawn uuid => some (uuid, m)
  | .beginCreate id config, .proceed =>
    some (m.section (RuntimeRegistry.beginCreate id config))
  | .completeCreate id handle, .proceed =>
    some (m.section (RuntimeRegistry.completeCreate id handle))
  | .markFailed id _, .proceed => some (m.section (RuntimeRegistry.markFailed id))
  | .beginStop id, .proceed => some (m.section (RuntimeRegistry.beginStop id))
  | .completeStop id, .proceed => some (m.section (RuntimeRegistry.completeStop id))
  | .beginRestart id, .proceed => some (m.section (RuntimeRegistry.beginRestart id))
  | .list, .listed order => if order.isPerm m.registry.list then some (order, m) else none
  | .runningHandles, .handles order =>
    if order.isPerm m.registry.runningHandles then some (order, m) else none
  | .getConfig id, .proceed => some (m.registry.getConfig id, m)
  | .getRestartCount id, .proceed => some (m.registry.getRestartCount id, m)
  | .create id _, .created (.ok handle) =>
    some (.ok handle, { m with created := m.created ++ [(id, handle)] })
  | .create _ _, .created (.error e) => some (.error e, m)
  | .stop handle, .stopped result =>
    some (result, { m with stopped := m.stopped ++ [handle] })
  | .healthCheck _ _, .checked result => some (result, m)
  | _, _ => none

end Executor

/-- The executor while it is connected: the two loops and what they share. -/
structure Executor where
  memory : Executor.Memory
  dispatching : Executor.Program Unit
  checking : Executor.Program Unit

inductive ExecutorLabel where
  | receive (msg : ExecutorInboundMessage)
  | tick
  | dispatch (choice : Executor.Choice)
  | check (choice : Executor.Choice)

namespace Executor

def init : Executor := ⟨Memory.init, .done (), .done ()⟩

def stepTask (m : Memory) (choice : Choice) : Program Unit → Option (Program Unit × Memory)
  | .done _ => none
  | .call o k => (perform m o choice).map (fun r => (k r.1, r.2))

/-- The steps of the executor: either loop takes up work when it is idle, and either
task goes on from its await point. -/
def next (maxRestarts : UInt32) (s : Executor) : ExecutorLabel → Option Executor
  | .receive msg =>
    if s.dispatching.isDone then
      some { s with
        memory := { s.memory with log := s.memory.log ++ [.received msg] }
        dispatching := dispatch msg }
    else none
  | .tick =>
    if s.checking.isDone then some { s with checking := runHealthCheck maxRestarts } else none
  | .dispatch choice =>
    (stepTask s.memory choice s.dispatching).map
      (fun r => { s with dispatching := r.1, memory := r.2 })
  | .check choice =>
    (stepTask s.memory choice s.checking).map (fun r => { s with checking := r.1, memory := r.2 })

end Executor

end October
