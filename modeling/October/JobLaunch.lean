import October.Capabilities
import October.Fallible
import October.FileTools
import October.JobActor
import October.LifecycleCalls

/-!
The launch of a job: the listener its runtime will connect to, the capability file, the
runtime in its process and the workflow actor, each taken hold of before the next one is
tried. What the launch holds is given to the caller in its success alone. Memory that goes
out of scope is freed on every way out, and a runtime's process is killed with its handle;
a task that was spawned runs on.
-/
namespace October

open Fallible LifecycleCalls

def LifecycleCalls.ClientError.display : ClientError → String
  | .sendFailed reason => "send failed: " ++ reason
  | .serialization reason => "serialization error: " ++ reason
  | .commandFailed message => "command failed: " ++ message
  | .disconnected => "disconnected"

namespace JobLaunch

/-- What a launch meets outside: the answers of the file system, of the listener, of the
provider that is built for the socket and the capability file, and of its runtime.
`acceptFails` says that a connection fails to be accepted before the launch is over, and
`workflowEnds` that the workflow actor stops before it is told its first command. -/
structure Surroundings where
  tempDir : String
  token : String
  macos : Bool
  stateDir : String
  createDirAll : String → Except String Unit
  setPermissions : String → Except String Unit
  bindSocket : String → Except String Unit
  acceptFails : Bool
  toVecPretty : CapabilitySpec → Except String (List UInt8)
  write : String → List UInt8 → Except String Unit
  provider : String → String → Outside
  connected : String → Bool
  workflowEnds : Bool

structure LaunchParams where
  jobId : String
  spec : JobSpec
  capabilities : CapabilitySpec
  kickoff : Kickoff

/-- Whether an accept loop runs, the registry of the client and the calls of its provider,
and the mailbox of the workflow actor while that runs. -/
structure Held where
  accepting : Bool
  host : Host
  workflow : Option (List WorkflowCommand)

def Held.nothing : Held := ⟨false, ⟨.new, []⟩, none⟩

/-- The runtimes whose process is alive: a handle of the registry keeps it so. -/
def Held.handles (held : Held) : List RuntimeHandle :=
  held.host.registry.entries.entries.filterMap (fun e => e.2.handle)

/-- A client has a registry of its own, which is dropped with it. -/
def Held.withoutClient (held : Held) : Held := { held with host := ⟨.new, []⟩ }

variable (s : Surroundings) (p : LaunchParams)

def socketPath : Except String String :=
  let path := joinPath (joinPath s.tempDir
    ("october-" ++ String.ofList (s.token.toList.take 12))) "rt.sock"
  let max := if s.macos then 103 else 107
  if max < path.utf8ByteSize then
    .error ("unix socket path too long (" ++ toString path.utf8ByteSize ++ " bytes, max " ++
      toString max ++ "): " ++ path)
  else .ok path

def parent (path : String) : String :=
  trimSlashes (String.ofList (path.toList.rdropWhile (· ≠ '/')))

def bind (sock : String) : Except String Unit := do
  (s.createDirAll (parent sock)).mapError ("bind failed: " ++ ·)
  (s.setPermissions (parent sock)).mapError ("bind failed: " ++ ·)
  (s.bindSocket sock).mapError ("bind failed: " ++ ·)

def serveRuntimeConnections : Fallible Held String Unit :=
  update (fun held => { held with accepting := !s.acceptFails })

def call (client : Outside) (request : Request) : Fallible Held String CallResult := fun held =>
  let conduct := inProcess client [request] held.host
  conduct.results.head?.map (fun result => (.ok result, { held with host := conduct.host }))

def createRuntime (client : Outside) (id : String) (config : RuntimeConfig) :
    Fallible Held String Unit := do
  let result ← call client (.createRuntime id config)
  attempt (result.mapError ClientError.display)

def runtimeTransport (id : String) : Except ClientError Unit :=
  if s.connected id then .ok ()
  else .error (.commandFailed ("runtime '" ++ id ++ "' not connected"))

def spawnWorkflow : Fallible Held String Unit :=
  update (fun held => { held with workflow := if s.workflowEnds then none else some [] })

def tell (command : WorkflowCommand) : Fallible Held String Unit := fun held =>
  match held.workflow with
  | none => some (.error "actor mailbox closed", held)
  | some mailbox => some (.ok (), { held with workflow := some (mailbox ++ [command]) })

def sendKickoff (kickoff : Kickoff) (input : String) : Fallible Held String Unit :=
  match kickoff.command input with
  | some command => tell command
  | none => pure ()

structure ProcessShutdown where
  client : Outside
  runtimeId : String

namespace LaunchParams

def jobDir : String := joinPath (joinPath s.stateDir "jobs") p.jobId

def capsPath : String := joinPath (p.jobDir s) "capabilities.json"

end LaunchParams

/-- The part of a launch that has a client, which is dropped with an early return. -/
def launchWorkflow (client : Outside) : Fallible Held String ProcessShutdown := do
  createRuntime client p.jobId ⟨p.spec.workdir⟩
  attempt ((runtimeTransport s p.jobId).mapError ClientError.display)
  spawnWorkflow s
  sendKickoff p.kickoff p.spec.input
  return ⟨client, p.jobId⟩

/-- An early return drops the cancellation token, and that cancels nothing. -/
def launch : Fallible Held String ProcessShutdown := do
  let sock ← attempt (socketPath s)
  attempt (bind s sock)
  serveRuntimeConnections s
  attempt (s.createDirAll (p.jobDir s))
  let bytes ← attempt (s.toVecPretty p.capabilities)
  attempt (s.write (p.capsPath s) bytes)
  guarded Held.withoutClient (launchWorkflow s p (s.provider sock (p.capsPath s)))

def ProcessShutdown.shutdown (job : ProcessShutdown) : Fallible Held String Unit := do
  let _ ← call job.client (.destroyRuntime job.runtimeId)
  update (fun held => { held with accepting := false })

end JobLaunch

end October
