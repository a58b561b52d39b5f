import October.Broadcast
import October.Capabilities
import October.DaemonFrames
import October.RenderedHistory
import October.SupervisorActor

/-!
Both ends of the daemon's control socket. A connection carries one request; the daemon
turns it into commands to the supervisor and its answers into responses, and the client
turns the responses into what its caller asked for. What the supervisor answers, and the
state of the process, are the `Answers` of a connection. A job's id is the same name on
the wire and in the registry.
-/
namespace October

open RenderedHistory DaemonFrames

inductive DaemonRequest where
  | submit (workflow : WorkflowDefinition) (workdir input : String)
      (capabilities : Option CapabilitySpec) (workflowName : String)
  | list
  | logs (jobId : JobId) (follow : Bool)
  | stop (jobId : JobId)
  | resume (jobId : JobId) (message : String)
  | remove (jobId : JobId)
  | status
  | shutdown (drain : Bool)

structure StatusInfo where
  pid : UInt32
  uptimeSecs : ℕ
  running : UInt32
  suspended : UInt32
  finished : UInt32
  failed : UInt32
  deriving DecidableEq, Repr

inductive DaemonResponse where
  | submitted (jobId : JobId)
  | jobList (jobs : List JobSummary)
  | ack
  | status (info : StatusInfo)
  | logFrame (frame : JobEventFrame)
  | error (message : String)
  | ended

namespace DaemonConnection

/-- What one connection is answered. A reply that never comes is `none`; `listed n` is
what listing number `n` returned, `history` what the journals of a job show and `live`
what the subscription to a job with a live actor received until it was closed. -/
structure Answers where
  home : Option String
  defaultCaps : CapabilitySpec
  nowMillis : ℕ
  pid : UInt32
  uptimeSecs : ℕ
  submitted : Option JobId
  listed : ℕ → List JobSummary
  removed : Option (Except String Unit)
  history : List JobEventFrame
  live : Option (List (Broadcast.Handed JobEventFrame))

/-- What a connection did: the commands it told the supervisor, the capabilities of the
job it submitted, the responses it wrote, and whether the daemon exits behind it. -/
structure Served where
  told : List SupervisorCommand
  capabilities : Option CapabilitySpec
  responses : List DaemonResponse
  exits : Bool

def Served.nothing : Served := ⟨[], none, [], false⟩

def countJob (info : StatusInfo) (j : JobSummary) : StatusInfo :=
  match j.status with
  | .running => { info with running := info.running + 1 }
  | .suspended => { info with suspended := info.suspended + 1 }
  | .awaitingUserInput => { info with suspended := info.suspended + 1 }
  | .finished => { info with finished := info.finished + 1 }
  | .failed => { info with failed := info.failed + 1 }

def runningCount (jobs : List JobSummary) : ℕ :=
  (jobs.filter (fun j => j.status == .running)).length

/-- List again and again until no job is running: the number of listings it took, if the
given number of them was enough. -/
def drainRunning (listed : ℕ → List JobSummary) : ℕ → ℕ → Option ℕ
  | 0, _ => none
  | polls + 1, n =>
    if runningCount (listed n) = 0 then some (n + 1) else drainRunning listed polls (n + 1)

def liveFrames (received : List (Broadcast.Handed JobEventFrame)) : List JobEventFrame :=
  Broadcast.values received

def streamLogs (a : Answers) (jobId : JobId) (follow : Bool) : Served :=
  let tail := if follow then liveFrames (a.live.getD []) else []
  ⟨if follow then [.subscribe jobId] else [], none,
    (a.history ++ tail).map .logFrame ++ [.ended], false⟩

def handleConn (a : Answers) (polls : ℕ) : DaemonRequest → Option Served
  | .submit workflow workdir input capabilities workflowName =>
    let caps := resolveUserPathsWith (capabilities.getD a.defaultCaps) a.home
    let spec : JobSpec := ⟨workflow, workflowName, workdir, input⟩
    some ⟨[.submit spec a.nowMillis], some caps,
      [match a.submitted with
        | some jobId => .submitted jobId
        | none => .error "submit failed"], false⟩
  | .list => some ⟨[.list], none, [.jobList (a.listed 0)], false⟩
  | .status =>
    let info := (a.listed 0).foldl countJob ⟨a.pid, a.uptimeSecs, 0, 0, 0, 0⟩
    some ⟨[.list], none, [.status info], false⟩
  | .stop jobId => some ⟨[.stop jobId], none, [.ack], false⟩
  | .resume jobId message => some ⟨[.resume jobId message], none, [.ack], false⟩
  | .remove jobId =>
    some ⟨[.remove jobId], none,
      [match a.removed with
        | some (.ok ()) => .ack
        | some (.error msg) => .error msg
        | none => .error "remove failed"], false⟩
  | .logs jobId follow => some (streamLogs a jobId follow)
  | .shutdown drain =>
    (if drain then drainRunning a.listed polls 0 else some 0).map (fun listings =>
      ⟨List.replicate listings .list ++ [.shutdown], none, [.ack], true⟩)

section Ends

variable (readRequest : Bytes → Except String DaemonRequest)
  (readResponse : Bytes → Except String DaemonResponse)

def serveConnection (a : Answers) (polls : ℕ) (pieces : List Bytes) : Option Served :=
  match (readFrame readRequest (ChunkedReads.arrivals pieces)).1 with
  | .ok (some request) => handleConn a polls request
  | .ok none => some Served.nothing
  | .error _ => some Served.nothing

def ioText : IoError → String
  | .unexpectedEof => "early eof"
  | .other message => message

structure ClientError where
  message : String
  deriving DecidableEq, Repr

def response (pieces : List Bytes) : Except ClientError DaemonResponse :=
  match (readFrame readResponse (ChunkedReads.arrivals pieces)).1 with
  | .ok (some resp) => .ok resp
  | .ok none => .error ⟨"daemon closed connection"⟩
  | .error e => .error ⟨ioText e⟩

def unexpected : DaemonResponse → ClientError
  | .error message => ⟨message⟩
  | .submitted _ => ⟨"unexpected daemon response: submitted"⟩
  | .jobList _ => ⟨"unexpected daemon response: job-list"⟩
  | .ack => ⟨"unexpected daemon response: ack"⟩
  | .status _ => ⟨"unexpected daemon response: status"⟩
  | .logFrame _ => ⟨"unexpected daemon response: log-frame"⟩
  | .ended => ⟨"unexpected daemon response: end"⟩

def expecting {A : Type} (expected : DaemonResponse → Option A) (pieces : List Bytes) :
    Except ClientError A :=
  match response readResponse pieces with
  | .error e => .error e
  | .ok resp =>
    match expected resp with
    | some a => .ok a
    | none => .error (unexpected resp)

def asSubmitted : DaemonResponse → Option JobId
  | .submitted jobId => some jobId
  | _ => none

def asJobList : DaemonResponse → Option (List JobSummary)
  | .jobList jobs => some jobs
  | _ => none

def asStatus : DaemonResponse → Option StatusInfo
  | .status info => some info
  | _ => none

def asAck : DaemonResponse → Option Unit
  | .ack => some ()
  | _ => none

def submit (pieces : List Bytes) : Except ClientError JobId :=
  expecting readResponse asSubmitted pieces

def list (pieces : List Bytes) : Except ClientError (List JobSummary) :=
  expecting readResponse asJobList pieces

def status (pieces : List Bytes) : Except ClientError StatusInfo :=
  expecting readResponse asStatus pieces

def stop (pieces : List Bytes) : Except ClientError Unit := expecting readResponse asAck pieces

def resume (pieces : List Bytes) : Except ClientError Unit := expecting readResponse asAck pieces

def remove (pieces : List Bytes) : Except ClientError Unit := expecting readResponse asAck pieces

def shutdown (pieces : List Bytes) : Except ClientError Unit := expecting readResponse asAck pieces

/-- The loop of `logs` over what its reads return: the texts it prints and, once it has
ended, its result. -/
def logsLoop : List (Except IoError (Option DaemonResponse)) →
    List String × Option (Except ClientError Unit)
  | [] => ([], none)
  | .error e :: _ => ([], some (.error ⟨ioText e⟩))
  | .ok none :: _ => ([], some (.ok ()))
  | .ok (some (.logFrame f)) :: rest =>
    let later := logsLoop rest
    (f.text :: later.1, later.2)
  | .ok (some .ended) :: _ => ([], some (.ok ()))
  | .ok (some (.error message)) :: _ => ([], some (.error ⟨message⟩))
  | .ok (some (.submitted _)) :: _ => ([], some (.error ⟨"unexpected frame in log stream"⟩))
  | .ok (some (.jobList _)) :: _ => ([], some (.error ⟨"unexpected frame in log stream"⟩))
  | .ok (some .ack) :: _ => ([], some (.error ⟨"unexpected frame in log stream"⟩))
  | .ok (some (.status _)) :: _ => ([], some (.error ⟨"unexpected frame in log stream"⟩))

def logs (reads : ℕ) (pieces : List Bytes) : List String × Option (Except ClientError Unit) :=
  logsLoop (readFrames readResponse reads (ChunkedReads.arrivals pieces))

/-- The exit code of a job that was run attached, from the listing after its stream. -/
def exitCode (jobId : JobId) (jobs : List JobSummary) : ℕ :=
  match (jobs.find? (fun j => j.jobId == jobId)).map JobSummary.status with
  | some .failed => 1
  | some .running => 0
  | some .suspended => 0
  | some .awaitingUserInput => 0
  | some .finished => 0
  | none => 0

end Ends

end DaemonConnection

end October
