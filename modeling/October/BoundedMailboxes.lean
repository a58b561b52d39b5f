import October.Machine
import October.SupervisorSystem

/-!
The supervisor and its job actors with the bounded mailboxes of the runtime. A `tell`
waits while its target's mailbox is full, so a handler is not one step: it works out its
reply, and what it has still to send or to await stays with the actor until the last of
it is done. Clients and the forwarders of notifications only wait for a free slot.
-/
namespace October

def mailboxCapacity : ℕ := 64

def hasSpace {C : Type} (mailbox : List C) : Bool := decide (mailbox.length < mailboxCapacity)

/-- A job actor; `forwards` says that it launched a workflow, whose notifications a
forwarder tells it, `report` is the status that its handler has still to report. -/
structure BoundedJob where
  state : JobState
  holds : Bool
  forwards : Bool
  mailbox : List JobCommand
  report : Option JobStatus
  phase : Phase JobDomainEvent

/-- The supervisor, with the children its handler has still to tell and to await. -/
structure BoundedSupervisor where
  state : SupervisorState
  children : List JobId
  mailbox : List SupervisorCommand
  telling : List (JobId × JobCommand)
  awaiting : List JobId
  phase : Phase SupervisorEvent

structure Tree where
  supervisor : BoundedSupervisor
  jobs : JobId → Option BoundedJob
  nextJob : JobId

inductive TreeLabel where
  | request (command : SupervisorCommand)
  | take
  | tell
  | acknowledged
  | persist (ok : Bool)
  | jobUnreadable (id : JobId)
  | jobRecover (id : JobId) (launch : Except String Unit)
  | jobTake (id : JobId) (launch : Except String Unit)
  | jobReport (id : JobId)
  | jobPersist (id : JobId) (ok : Bool)
  | notify (id : JobId) (notification : WorkflowNotification)

namespace BoundedJob

def spawned (state : JobState) : BoundedJob := ⟨state, false, false, [], none, .recovering⟩

def push (command : JobCommand) (job : BoundedJob) : BoundedJob :=
  { job with mailbox := job.mailbox ++ [command] }

def unreadable (job : BoundedJob) : Option BoundedJob :=
  match job.phase with
  | .recovering => some { job with phase := .stopped }
  | _ => none

def recover (launch : Except String Unit) (job : BoundedJob) : Option BoundedJob :=
  match job.phase with
  | .recovering =>
    let kickoff := JobActor.onRecoveryComplete launch job.state
    some { job with
      holds := kickoff.isSome
      forwards := kickoff.isSome
      phase := .waiting }
  | _ => none

def take (launch : Except String Unit) (job : BoundedJob) : Option BoundedJob :=
  match job.phase, job.report, job.mailbox with
  | .waiting, none, command :: rest =>
    let reply := JobActor.handleCommand launch job.holds command
    some { job with
      holds := reply.holds
      forwards := job.forwards || reply.launched.isSome
      mailbox := rest
      report := reply.reported
      phase := Phase.handled reply.effect }
  | _, _, _ => none

def sent (job : BoundedJob) : BoundedJob := { job with report := none }

def persist (ok : Bool) (job : BoundedJob) : Option BoundedJob :=
  match job.phase, job.report with
  | .performing effect, none =>
    let events := if ok then effect.events else []
    some { job with
      state := events.foldl JobActor.applyEvent job.state
      phase := Phase.called effect }
  | _, _ => none

def notify (notification : WorkflowNotification) (job : BoundedJob) : Option BoundedJob :=
  if job.forwards && !job.phase.isStopped && hasSpace job.mailbox then
    some (job.push (.workflowEvent notification))
  else none

end BoundedJob

namespace Tree

def start (state : SupervisorState) (journaled : JobId → JobState) (nextJob : JobId) : Tree where
  supervisor := ⟨state, SupervisorActor.onRecoveryComplete state, [], [], [], .waiting⟩
  jobs id := (SupervisorActor.toSpawn state id).map (fun _ => BoundedJob.spawned (journaled id))
  nextJob := nextJob

def push (command : SupervisorCommand) (t : Tree) : Tree :=
  { t with supervisor := { t.supervisor with mailbox := t.supervisor.mailbox ++ [command] } }

def setJob (id : JobId) (job : BoundedJob) (t : Tree) : Tree :=
  { t with jobs := Function.update t.jobs id (some job) }

def spawns (spawned : Option (JobId × JobSpec)) (jobs : JobId → Option BoundedJob) :
    JobId → Option BoundedJob :=
  match spawned with
  | none => jobs
  | some (id, _) => Function.update jobs id (some (BoundedJob.spawned JobActor.initialState))

def take (t : Tree) : Option Tree :=
  let p := t.supervisor
  match p.phase, p.telling, p.awaiting, p.mailbox with
  | .waiting, [], [], command :: rest =>
    let reply := SupervisorActor.handleCommand t.nextJob p.children p.state command
    some {
      supervisor := { p with
        children := reply.children
        mailbox := rest
        telling := reply.told
        awaiting := reply.awaited
        phase := Phase.handled reply.effect }
      jobs := spawns reply.spawned t.jobs
      nextJob := t.nextJob + 1 }
  | _, _, _, _ => none

def tell (t : Tree) : Option Tree :=
  let p := t.supervisor
  match p.telling with
  | [] => none
  | (id, command) :: rest =>
    let told := { t with supervisor := { p with telling := rest } }
    match t.jobs id with
    | none => some told
    | some job =>
      if job.phase.isStopped then some told
      else if hasSpace job.mailbox then some (told.setJob id (job.push command))
      else none

def acknowledged (t : Tree) : Option Tree :=
  let p := t.supervisor
  match p.telling, p.awaiting with
  | [], id :: rest =>
    if (t.jobs id).all (fun job => job.phase.isStopped) then
      some { t with supervisor := { p with awaiting := rest } }
    else none
  | _, _ => none

def persist (ok : Bool) (t : Tree) : Option Tree :=
  let p := t.supervisor
  match p.phase, p.telling, p.awaiting with
  | .performing effect, [], [] =>
    let events := if ok then effect.events else []
    some { t with
      supervisor := { p with
        state := events.foldl SupervisorActor.applyEvent p.state
        phase := Phase.called effect } }
  | _, _, _ => none

def stepJob (id : JobId) (step : BoundedJob → Option BoundedJob) (t : Tree) : Option Tree :=
  ((t.jobs id).bind step).map (fun job => t.setJob id job)

def jobReport (id : JobId) (t : Tree) : Option Tree :=
  match t.jobs id with
  | none => none
  | some job =>
    match job.report with
    | none => none
    | some status =>
      if hasSpace t.supervisor.mailbox then
        some ((t.setJob id job.sent).push (.jobStatusChanged id status))
      else none

def next (t : Tree) : TreeLabel → Option Tree
  | .request command =>
    if Daemon.requestable command && hasSpace t.supervisor.mailbox then some (t.push command)
    else none
  | .take => t.take
  | .tell => t.tell
  | .acknowledged => t.acknowledged
  | .persist ok => t.persist ok
  | .jobUnreadable id => t.stepJob id BoundedJob.unreadable
  | .jobRecover id launch => t.stepJob id (BoundedJob.recover launch)
  | .jobTake id launch => t.stepJob id (BoundedJob.take launch)
  | .jobReport id => t.jobReport id
  | .jobPersist id ok => t.stepJob id (BoundedJob.persist ok)
  | .notify id notification => t.stepJob id (BoundedJob.notify notification)

end Tree

end October
