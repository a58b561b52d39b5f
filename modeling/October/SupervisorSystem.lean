import October.SupervisorActor
import October.WorkflowSystem

/-!
The daemon: the supervisor, one job actor for each live job and the workflow system
the job launched, over durable journals. A job's notifications pass a forwarder from
the workflow's channel to the job's mailbox. A crash leaves the journals only; the
next process boots a supervisor, and everything else follows from its recovery.
-/
namespace October

structure SupervisorProc where
  state : SupervisorState
  children : List JobId
  mailbox : List SupervisorCommand
  awaited : List JobId
  phase : Phase SupervisorEvent

structure JobProc where
  state : JobState
  holds : Bool
  mailbox : List JobCommand
  phase : Phase JobDomainEvent

/-- One job: the spec its actors were spawned with, its journal, its actor, and the
workflow it launched with that workflow's journals. -/
structure JobSlot where
  spec : Option JobSpec
  log : List JobDomainEvent
  proc : Option JobProc
  system : System

structure Setting where
  hasProvider : String → Bool
  evalCondition : String → Value → Except String Value
  backend : Backend
  notifyCapacity : ℕ

def Setting.config (setting : Setting) (spec : JobSpec) : Config where
  workflow := ⟨spec.workflow, setting.hasProvider, setting.evalCondition⟩
  backend := setting.backend
  notifyCapacity := setting.notifyCapacity

structure Daemon where
  log : List SupervisorEvent
  supervisor : Option SupervisorProc
  jobs : JobId → JobSlot
  nextJob : JobId
  answers : List SupervisorAnswer

def SupervisorProc.tell (command : SupervisorCommand) (p : SupervisorProc) : SupervisorProc :=
  if p.phase.isStopped then p else { p with mailbox := p.mailbox ++ [command] }

def JobProc.tell (command : JobCommand) (p : JobProc) : JobProc :=
  if p.phase.isStopped then p else { p with mailbox := p.mailbox ++ [command] }

namespace JobSlot

def empty : JobSlot := ⟨none, [], none, System.init⟩

def spawn (spec : JobSpec) (slot : JobSlot) : JobSlot :=
  { slot with spec := some spec, proc := some ⟨JobActor.initialState, false, [], .recovering⟩ }

def tell (command : JobCommand) (slot : JobSlot) : JobSlot :=
  { slot with proc := slot.proc.map (JobProc.tell command) }

/-- A job actor launches at most one workflow in its process. -/
def launch (kickoff : Option Kickoff) (slot : JobSlot) : JobSlot :=
  match kickoff, slot.spec with
  | some kickoff, some spec =>
    { slot with system := (slot.system.launch (kickoff.command spec.input)).getD slot.system }
  | _, _ => slot

def tellWorkflow (told : Option WorkflowCommand) (slot : JobSlot) : JobSlot :=
  match told with
  | none => slot
  | some command => { slot with system := slot.system.tellWorkflow command }

def stopped (slot : JobSlot) : Bool := slot.proc.all (fun p => p.phase.isStopped)

def recover (launch : Except String Unit) (slot : JobSlot) : Option JobSlot :=
  match slot.proc with
  | none => none
  | some p =>
    match p.phase with
    | .recovering =>
      let state := JobActor.fold slot.log
      let kickoff := JobActor.onRecoveryComplete launch state
      some { slot.launch kickoff with
        proc := some { p with state := state, holds := kickoff.isSome, phase := .waiting } }
    | _ => none

def handle (launch : Except String Unit) (slot : JobSlot) : Option (JobSlot × Option JobStatus) :=
  match slot.proc with
  | none => none
  | some p =>
    match p.phase, p.mailbox with
    | .waiting, command :: rest =>
      let reply := JobActor.handleCommand launch p.holds command
      some ({ (slot.launch reply.launched).tellWorkflow reply.told with
        proc := some { p with
          holds := reply.holds, mailbox := rest, phase := Phase.handled reply.effect } },
        reply.reported)
    | _, _ => none

def persist (ok : Bool) (slot : JobSlot) : Option JobSlot :=
  match slot.proc with
  | none => none
  | some p =>
    match p.phase with
    | .performing effect =>
      let events := if ok then effect.events else []
      some { slot with
        log := slot.log ++ events
        proc := some { p with
          state := events.foldl JobActor.applyEvent p.state
          phase := Phase.called effect } }
    | _ => none

def forward (slot : JobSlot) : Option JobSlot :=
  match slot.system.channel with
  | [] => none
  | n :: rest =>
    some ({ slot with system := { slot.system with channel := rest } }.tell (.workflowEvent n))

def crash (slot : JobSlot) : JobSlot := { slot with proc := none, system := slot.system.crash }

end JobSlot

/-- The steps a workflow system takes by itself; the others are its job's or the daemon's. -/
def internal : Label → Bool
  | .launch _ => false
  | .deliver _ => false
  | .drain => false
  | .crash => false
  | _ => true

inductive DaemonLabel where
  | boot
  | request (command : SupervisorCommand)
  | supervisorRecover
  | supervisorHandle
  | supervisorPersist (ok : Bool)
  | jobRecover (id : JobId) (launch : Except String Unit)
  | jobHandle (id : JobId) (launch : Except String Unit)
  | jobPersist (id : JobId) (ok : Bool)
  | forward (id : JobId)
  | workflow (id : JobId) (label : Label)
  | crash

namespace Daemon

def init : Daemon := ⟨[], none, fun _ => JobSlot.empty, 0, []⟩

def setJob (id : JobId) (slot : JobSlot) (d : Daemon) : Daemon :=
  { d with jobs := Function.update d.jobs id slot }

def tellSupervisor (command : SupervisorCommand) (d : Daemon) : Daemon :=
  { d with supervisor := d.supervisor.map (SupervisorProc.tell command) }

def report (id : JobId) (status : Option JobStatus) (d : Daemon) : Daemon :=
  match status with
  | none => d
  | some status => d.tellSupervisor (.jobStatusChanged id status)

def requestable : SupervisorCommand → Bool
  | .jobStatusChanged _ _ => false
  | _ => true

def boot (d : Daemon) : Option Daemon :=
  match d.supervisor with
  | some _ => none
  | none =>
    some { d with supervisor := some ⟨SupervisorActor.initialState, [], [], [], .recovering⟩ }

def respawned (state : SupervisorState) (jobs : JobId → JobSlot) (id : JobId) : JobSlot :=
  match SupervisorActor.toSpawn state id with
  | none => jobs id
  | some spec => (jobs id).spawn spec

def supervisorRecover (d : Daemon) : Option Daemon :=
  match d.supervisor with
  | none => none
  | some p =>
    match p.phase with
    | .recovering =>
      let state := SupervisorActor.fold d.log
      some { d with
        supervisor := some { p with
          state := state
          children := SupervisorActor.onRecoveryComplete state
          phase := .waiting }
        jobs := respawned state d.jobs }
    | _ => none

def spawns (spawned : Option (JobId × JobSpec)) (jobs : JobId → JobSlot) : JobId → JobSlot :=
  match spawned with
  | none => jobs
  | some (id, spec) => Function.update jobs id ((jobs id).spawn spec)

def tells (told : List (JobId × JobCommand)) (jobs : JobId → JobSlot) : JobId → JobSlot :=
  told.foldl (fun jobs t => Function.update jobs t.1 ((jobs t.1).tell t.2)) jobs

def supervisorHandle (d : Daemon) : Option Daemon :=
  match d.supervisor with
  | none => none
  | some p =>
    match p.phase, p.mailbox with
    | .waiting, command :: rest =>
      if p.awaited.all (fun id => (d.jobs id).stopped) then
        let reply := SupervisorActor.handleCommand d.nextJob p.children p.state command
        some { d with
          supervisor := some { p with
            children := reply.children
            mailbox := rest
            awaited := reply.awaited
            phase := Phase.handled reply.effect }
          jobs := tells reply.told (spawns reply.spawned d.jobs)
          nextJob := d.nextJob + 1
          answers := d.answers ++ reply.answer.toList }
      else none
    | _, _ => none

def supervisorPersist (ok : Bool) (d : Daemon) : Option Daemon :=
  match d.supervisor with
  | none => none
  | some p =>
    match p.phase with
    | .performing effect =>
      let events := if ok then effect.events else []
      some { d with
        log := d.log ++ events
        supervisor := some { p with
          state := events.foldl SupervisorActor.applyEvent p.state
          phase := Phase.called effect } }
    | _ => none

def workflowStep (setting : Setting) (id : JobId) (label : Label) (d : Daemon) : Option Daemon :=
  match (d.jobs id).spec with
  | none => none
  | some spec =>
    if internal label then
      (October.next (setting.config spec) (d.jobs id).system label).map
        (fun system => d.setJob id { d.jobs id with system := system })
    else none

def crash (d : Daemon) : Daemon :=
  { d with supervisor := none, jobs := fun id => (d.jobs id).crash }

def next (setting : Setting) (d : Daemon) : DaemonLabel → Option Daemon
  | .boot => d.boot
  | .request command => if requestable command then some (d.tellSupervisor command) else none
  | .supervisorRecover => d.supervisorRecover
  | .supervisorHandle => d.supervisorHandle
  | .supervisorPersist ok => d.supervisorPersist ok
  | .jobRecover id launch => ((d.jobs id).recover launch).map (fun slot => d.setJob id slot)
  | .jobHandle id launch =>
    ((d.jobs id).handle launch).map (fun r => (d.setJob id r.1).report id r.2)
  | .jobPersist id ok => ((d.jobs id).persist ok).map (fun slot => d.setJob id slot)
  | .forward id => (d.jobs id).forward.map (fun slot => d.setJob id slot)
  | .workflow id label => d.workflowStep setting id label
  | .crash => some d.crash

end Daemon

end October
