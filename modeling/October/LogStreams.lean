import October.Broadcast
import October.DaemonConnection
import October.StreamedRuns

/-!
The live log of a job and the connections that follow it. A run's sink hands an event to
the run's forwarder first and to the log behind that; the log renders it into a broadcast
channel. A connection replays the journals, one after another, and only then asks the job
actor for a subscription. The channel closes once nobody is left who could send. What the
workflow journals is not part of this system.
-/
namespace October.LogStreams

open StreamedRuns RenderedHistory
open SessionLifetime (Setup)

def logBroadcastCapacity : ℕ := 256

def renderEvent : AgentEvent → Option String
  | .stream (.textChunk _ _ text) => some text
  | .stream (.toolCallStart _ _ toolCallId name) =>
    some ("\n· tool " ++ name ++ " [" ++ toolCallId ++ "]\n")
  | .toolComplete _ toolCallId _ isError =>
    some ("· tool " ++ toolCallId ++ " → " ++ (if isError then "error" else "ok") ++ "\n")
  | .runComplete _ usage iterations =>
    some ("\n· run complete (" ++ toString iterations ++ " iterations, " ++
      toString usage.inputTokens ++ "/" ++ toString usage.outputTokens ++ " tokens)\n")
  | .inputMessage _ _ => none
  | .messageStart _ _ => none
  | .messageStop _ => none
  | .messageComplete _ _ => none
  | .stream (.thinkingChunk _ _ _) => none
  | .stream (.toolCallInputDelta _ _ _ _) => none
  | .stream (.toolCallInputDone _ _ _) => none
  | .toolExecuting _ _ => none

structure Emission where
  session : ℕ
  run : ℕ
  event : AgentEvent

def Emission.comesFrom (session run : ℕ) (e : Emission) : Bool :=
  e.session == session && e.run == run

/-- What a connection replays at a time: an event of the workflow's journal, or the journal
of a session, that is what its actor recovered and the events persisted since. -/
inductive Piece where
  | workflow (event : WorkflowDomainEvent)
  | session (place : ℕ) (recovered : AgentState) (events : List AgentDomainEvent)

def Piece.lines : Piece → List String
  | .workflow event => eventLines (fun _ => []) event
  | .session _ recovered events => sessionLines (events.foldl AgentActor.applyEvent recovered)

/-- A connection that streams logs: `cursor` is where its subscription reads next. -/
structure Follower where
  history : List Piece
  cursor : Option ℕ
  received : List (Broadcast.Handed JobEventFrame)
  ended : Bool

/-- `publishing` holds what a sink has handed to its forwarder and not yet to the log. The
job actor and the workflow hold a sender of the log each until they are gone. -/
structure LiveJob where
  jobId : String
  jobActor : Bool
  workflow : Bool
  sessions : List Session
  publishing : List Emission
  published : List Emission
  logs : Broadcast.Channel JobEventFrame
  followers : ℕ → Option Follower

inductive LogLabel where
  | session (place : ℕ) (label : StreamLabel)
  | spawn (setup : Setup) (recovered : AgentState)
  | publish (session run : ℕ)
  | jobActorGone
  | workflowGone
  | connect (follower : ℕ)
  | replayEvent (follower : ℕ) (event : WorkflowDomainEvent)
  | replaySession (follower place : ℕ)
  | subscribe (follower : ℕ)
  | receive (follower : ℕ)

def launched (jobId : String) : LiveJob :=
  ⟨jobId, true, true, [], [], [], ⟨logBroadcastCapacity, []⟩, fun _ => none⟩

def frame (jobId : String) (e : Emission) : Option JobEventFrame :=
  (renderEvent e.event).map (fun text => ⟨jobId, text⟩)

def nextEvent (s : Session) (run : ℕ) : Option AgentEvent :=
  s.runs[run]?.bind (fun r => r.toEmit.head?)

namespace LiveJob

def busy (job : LiveJob) (session run : ℕ) : Bool :=
  job.publishing.any (Emission.comesFrom session run)

def closed (job : LiveJob) : Bool :=
  !job.jobActor && !job.workflow &&
    job.sessions.all (fun s => s.phase.isStopped && s.runs.all (fun r => !r.sinkOpen))

def setSession (job : LiveJob) (place : ℕ) (s : Session) : LiveJob :=
  { job with sessions := job.sessions.set place s }

def setFollower (job : LiveJob) (follower : ℕ) (f : Follower) : LiveJob :=
  { job with followers := Function.update job.followers follower (some f) }

/-- A step of a session. A sink that emits has to be done with its last event, and is not
dropped before. -/
def stepSession (job : LiveJob) (place : ℕ) (label : StreamLabel) : Option LiveJob :=
  match job.sessions[place]? with
  | none => none
  | some s =>
    match label with
    | .emit run =>
      if job.busy place run then none
      else
        match nextEvent s run, StreamedRuns.next s (.emit run) with
        | some event, some t =>
          some { job.setSession place t with
            publishing := job.publishing ++ [⟨place, run, event⟩] }
        | _, _ => none
    | .drop run =>
      if job.busy place run then none
      else (StreamedRuns.next s (.drop run)).map (job.setSession place)
    | other => (StreamedRuns.next s other).map (job.setSession place)

def publish (job : LiveJob) (session run : ℕ) : Option LiveJob :=
  (job.publishing.find? (Emission.comesFrom session run)).map (fun e =>
    { job with
      publishing := job.publishing.eraseP (Emission.comesFrom session run)
      published := job.published ++ [e]
      logs := match frame job.jobId e with
        | some f => job.logs.send f
        | none => job.logs })

def replay (job : LiveJob) (follower : ℕ) (piece : Piece) : Option LiveJob :=
  match job.followers follower with
  | some ⟨history, none, received, false⟩ =>
    some (job.setFollower follower ⟨history ++ [piece], none, received, false⟩)
  | _ => none

/-- The job actor answers with a receiver, at the end of what was sent. Without a live job
actor the stream ends behind the history. -/
def subscribe (job : LiveJob) (follower : ℕ) : Option LiveJob :=
  match job.followers follower with
  | some ⟨history, none, _, false⟩ =>
    some (job.setFollower follower (if job.jobActor
      then ⟨history, some job.logs.sent.length, [], false⟩
      else ⟨history, none, [], true⟩))
  | _ => none

/-- The next read of a subscription; it waits while there is nothing to read and the
channel is open. -/
def receive (job : LiveJob) (follower : ℕ) : Option LiveJob :=
  match job.followers follower with
  | some ⟨history, some cursor, received, false⟩ =>
    match job.logs.recv cursor with
    | some (handed, next) =>
      some (job.setFollower follower ⟨history, some next, received ++ [handed], false⟩)
    | none =>
      if job.closed then
        some (job.setFollower follower ⟨history, some cursor, received, true⟩)
      else none
  | _ => none

end LiveJob

open LiveJob

def next (job : LiveJob) : LogLabel → Option LiveJob
  | .session place label => job.stepSession place label
  | .spawn setup recovered =>
    if job.workflow then some { job with sessions := job.sessions ++ [spawned setup recovered] }
    else none
  | .publish session run => job.publish session run
  | .jobActorGone => some { job with jobActor := false }
  | .workflowGone => some { job with workflow := false }
  | .connect follower =>
    if (job.followers follower).isSome then none
    else some (job.setFollower follower ⟨[], none, [], false⟩)
  | .replayEvent follower event => job.replay follower (.workflow event)
  | .replaySession follower place =>
    job.sessions[place]?.bind (fun s =>
      job.replay follower (.session place s.recovered (persisted s.log)))
  | .subscribe follower => job.subscribe follower
  | .receive follower => job.receive follower

def Follower.written (jobId : String) (f : Follower) : List JobEventFrame :=
  f.history.flatMap (fun piece => piece.lines.map (fun text => ⟨jobId, text⟩)) ++
    DaemonConnection.liveFrames f.received

end October.LogStreams
