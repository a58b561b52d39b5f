import October.JobActor
import Mathlib.Data.List.AList

/-!
The supervisor actor: the registry of all jobs, folded from its own journal, and one
job actor for each live job. A job id stands for the UUID drawn when the job is
submitted. Listing is the registry's own order, not the order of the ids' text.
-/
namespace October

abbrev JobId := ℕ

inductive SupervisorCommand where
  | submit (spec : JobSpec) (submittedAt : ℕ)
  | list
  | stop (jobId : JobId)
  | resume (jobId : JobId) (message : String)
  | remove (jobId : JobId)
  | subscribe (jobId : JobId)
  | shutdown
  | jobStatusChanged (jobId : JobId) (status : JobStatus)

inductive SupervisorEvent where
  | jobSubmitted (id : JobId) (spec : JobSpec) (submittedAt : ℕ)
  | jobStatusChanged (id : JobId) (status : JobStatus)
  | jobRemoved (id : JobId)

structure JobRecord where
  spec : JobSpec
  status : JobStatus
  submittedAt : ℕ

structure SupervisorState where
  jobs : AList (fun _ : JobId => JobRecord)

structure JobSummary where
  jobId : JobId
  workflowName : String
  status : JobStatus
  submittedAt : ℕ
  workdir : String

/-- What a requester is answered; `subscribed` says whether the job has a live actor. -/
inductive SupervisorAnswer where
  | submitted (id : JobId)
  | jobs (rows : List JobSummary)
  | removed (result : Except String Unit)
  | subscribed (live : Bool)

/-- What the supervisor did: the children it now holds, the job it spawned, the commands
it told its children, its answer, the children whose acknowledgement it awaits before it
goes on, its effect. -/
structure SupervisorReply where
  children : List JobId
  spawned : Option (JobId × JobSpec)
  told : List (JobId × JobCommand)
  answer : Option SupervisorAnswer
  awaited : List JobId
  effect : CommandEffect SupervisorEvent

def JobStatus.display : JobStatus → String
  | .running => "Running"
  | .suspended => "Suspended"
  | .awaitingUserInput => "AwaitingUserInput"
  | .finished => "Finished"
  | .failed => "Failed"

namespace SupervisorActor

def initialState : SupervisorState := ⟨∅⟩

def applyEvent (state : SupervisorState) : SupervisorEvent → SupervisorState
  | .jobSubmitted id spec submittedAt => ⟨state.jobs.insert id ⟨spec, .running, submittedAt⟩⟩
  | .jobStatusChanged id status =>
    match state.jobs.lookup id with
    | none => state
    | some record => ⟨state.jobs.insert id { record with status := status }⟩
  | .jobRemoved id => ⟨state.jobs.erase id⟩

def fold (log : List SupervisorEvent) : SupervisorState := log.foldl applyEvent initialState

def isTerminal : JobStatus → Bool
  | .finished => true
  | .failed => true
  | _ => false

def summary (id : JobId) (record : JobRecord) : JobSummary :=
  ⟨id, record.spec.workflowName, record.status, record.submittedAt, record.spec.workdir⟩

def listed (state : SupervisorState) : List JobSummary :=
  state.jobs.entries.map (fun e => summary e.1 e.2)

def toChild (children : List JobId) (jobId : JobId) (command : JobCommand) :
    List (JobId × JobCommand) :=
  if jobId ∈ children then [(jobId, command)] else []

/-- `id` is the fresh id a submitted job is given. -/
def handleCommand (id : JobId) (children : List JobId) (state : SupervisorState) :
    SupervisorCommand → SupervisorReply
  | .submit spec submittedAt =>
    ⟨children.insert id, some (id, spec), [(id, .start)], some (.submitted id), [],
      .persist [.jobSubmitted id spec submittedAt]⟩
  | .list => ⟨children, none, [], some (.jobs (listed state)), [], .none⟩
  | .stop jobId => ⟨children, none, toChild children jobId .stop, none, [], .none⟩
  | .resume jobId message =>
    ⟨children, none, toChild children jobId (.resume message), none, [], .none⟩
  | .remove jobId =>
    match state.jobs.lookup jobId with
    | none =>
      ⟨children, none, [], some (.removed (.error ("no such job: " ++ toString jobId))), [], .none⟩
    | some record =>
      if isTerminal record.status then
        ⟨children.erase jobId, none, [], some (.removed (.ok ())), [],
          .persist [.jobRemoved jobId]⟩
      else
        ⟨children, none, [], some (.removed (.error ("job " ++ toString jobId ++ " is " ++
          record.status.display ++ "; stop it before removing"))), [], .none⟩
  | .subscribe jobId =>
    ⟨children, none, toChild children jobId .subscribe, some (.subscribed (jobId ∈ children)), [],
      .none⟩
  | .shutdown => ⟨[], none, children.map (fun c => (c, .shutdown)), none, children, .none⟩
  | .jobStatusChanged jobId status =>
    ⟨children, none, [], none, [], .persist [.jobStatusChanged jobId status]⟩

/-- The jobs re-spawned after recovery: every one that has not ended. -/
def toSpawn (state : SupervisorState) (id : JobId) : Option JobSpec :=
  match state.jobs.lookup id with
  | none => none
  | some record => if isTerminal record.status then none else some record.spec

def onRecoveryComplete (state : SupervisorState) : List JobId :=
  state.jobs.keys.filter (fun id => (toSpawn state id).isSome)

end SupervisorActor

end October
