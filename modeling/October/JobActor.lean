import October.WorkflowActor

/-!
The job actor: it launches the workflow of one job, hands commands on to it and turns
its notifications into the job's status, which it reports before it persists. A
handler is a function of whether the actor holds a live workflow and of what a
launch, if it makes one, returns.
-/
namespace October

inductive JobStatus where
  | running
  | suspended
  | awaitingUserInput
  | finished
  | failed
  deriving DecidableEq, Repr

structure JobSpec where
  workflow : WorkflowDefinition
  workflowName : String
  workdir : String
  input : String

inductive Kickoff where
  | start
  | resume (message : String)
  | recover

def Kickoff.command (input : String) : Kickoff → Option WorkflowCommand
  | .start => some (.start input)
  | .resume message => some (.resume message)
  | .recover => none

inductive JobCommand where
  | start
  | resume (message : String)
  | stop
  | subscribe
  | shutdown
  | workflowEvent (notification : WorkflowNotification)

inductive JobDomainEvent where
  | jobStarted
  | jobConcluded (output : Value)
  | jobSuspended
  | jobAwaitingInput
  | jobFailed (error : String)

structure JobState where
  status : Option JobStatus
  deriving DecidableEq, Repr

/-- What a job actor did: whether it now holds a workflow, the kickoff it launched one
with, the command it told the one it held, the status it reported, its effect. -/
structure JobReply where
  holds : Bool
  launched : Option Kickoff
  told : Option WorkflowCommand
  reported : Option JobStatus
  effect : CommandEffect JobDomainEvent

namespace JobActor

def initialState : JobState := ⟨none⟩

def eventStatus : JobDomainEvent → JobStatus
  | .jobStarted => .running
  | .jobConcluded _ => .finished
  | .jobSuspended => .suspended
  | .jobAwaitingInput => .awaitingUserInput
  | .jobFailed _ => .failed

def applyEvent (_ : JobState) (event : JobDomainEvent) : JobState := ⟨some (eventStatus event)⟩

def fold (log : List JobDomainEvent) : JobState := log.foldl applyEvent initialState

/-- Launch the workflow; a failure is reported and ends the job. -/
def launchWorkflow (launch : Except String Unit) (holds : Bool) (kickoff : Kickoff)
    (effect : CommandEffect JobDomainEvent) : JobReply :=
  match launch with
  | .ok () => ⟨true, some kickoff, none, none, effect⟩
  | .error error => ⟨holds, none, none, some .failed, .persistAndStop [.jobFailed error]⟩

/-- The finished workflow and its resources are released. -/
def onWorkflowEvent (holds : Bool) : WorkflowNotification → JobReply
  | .finished output =>
    ⟨false, none, none, some .finished, .persistAndStop [.jobConcluded output]⟩
  | .failed error => ⟨false, none, none, some .failed, .persistAndStop [.jobFailed error]⟩
  | .suspended => ⟨holds, none, none, some .suspended, .persist [.jobSuspended]⟩
  | .awaitingUserInput _ =>
    ⟨holds, none, none, some .awaitingUserInput, .persist [.jobAwaitingInput]⟩

def handleCommand (launch : Except String Unit) (holds : Bool) : JobCommand → JobReply
  | .start => launchWorkflow launch holds .start (.persist [.jobStarted])
  | .resume message =>
    if holds then ⟨holds, none, some (.resume message), none, .none⟩
    else launchWorkflow launch holds (.resume message) .none
  | .stop => ⟨holds, none, if holds then some .cancel else none, none, .none⟩
  | .subscribe => ⟨holds, none, none, none, .none⟩
  | .shutdown => ⟨false, none, none, none, .stop⟩
  | .workflowEvent notification => onWorkflowEvent holds notification

/-- Re-launch a job that was running; a failure to do so is only logged. -/
def onRecoveryComplete (launch : Except String Unit) (state : JobState) : Option Kickoff :=
  match state.status, launch with
  | some .running, .ok () => some .recover
  | _, _ => none

theorem onRecoveryComplete_ok (state : JobState) :
    onRecoveryComplete (.ok ()) state =
      if state.status = some .running then some .recover else none := by
  unfold onRecoveryComplete
  split
  · rename_i hstatus _
    rw [if_pos hstatus]
  · rename_i hnot
    rw [if_neg (fun hstatus => hnot hstatus rfl)]

end JobActor

end October
