import October.SupervisorSystem

/-!
What each step of the daemon can come to, said once: the step of the supervisor, of one
job actor, of a forwarder or of one workflow system. The later modules derive their
invariants from these cases and unfold no step function.
-/
namespace October

open Daemon

namespace SupervisorProc

variable (command : SupervisorCommand) (p : SupervisorProc)

@[simp] theorem tell_state : (p.tell command).state = p.state := by
  unfold tell
  split <;> rfl

@[simp] theorem tell_phase : (p.tell command).phase = p.phase := by
  unfold tell
  split <;> rfl

@[simp] theorem tell_children : (p.tell command).children = p.children := by
  unfold tell
  split <;> rfl

@[simp] theorem tell_awaited : (p.tell command).awaited = p.awaited := by
  unfold tell
  split <;> rfl

theorem tell_mailbox (h : p.phase.isStopped = false) :
    (p.tell command).mailbox = p.mailbox ++ [command] := by
  unfold tell
  rw [if_neg (by simp [h])]

end SupervisorProc

@[simp] theorem JobProc.tell_phase (command : JobCommand) (p : JobProc) :
    (p.tell command).phase = p.phase := by
  unfold tell
  split <;> rfl

namespace JobSlot

variable {slot slot' : JobSlot}

def recovered (kickoff : Option Kickoff) (p : JobProc) (slot : JobSlot) : JobSlot :=
  { slot.launch kickoff with
    proc := some { p with
      state := JobActor.fold slot.log, holds := kickoff.isSome, phase := .waiting } }

def answered (p : JobProc) (rest : List JobCommand) (reply : JobReply) (slot : JobSlot) :
    JobSlot :=
  { (slot.launch reply.launched).tellWorkflow reply.told with
    proc := some { p with
      holds := reply.holds, mailbox := rest, phase := Phase.handled reply.effect } }

/-- The workflow system apart, launching and telling a workflow leave the slot as it is. -/
@[simp] theorem launch_log (kickoff : Option Kickoff) (slot : JobSlot) :
    (slot.launch kickoff).log = slot.log := by
  unfold launch
  split <;> rfl

@[simp] theorem tellWorkflow_log (told : Option WorkflowCommand) (slot : JobSlot) :
    (slot.tellWorkflow told).log = slot.log := by
  unfold tellWorkflow
  split <;> rfl

@[simp] theorem recovered_log (kickoff : Option Kickoff) (p : JobProc) (slot : JobSlot) :
    (slot.recovered kickoff p).log = slot.log := launch_log kickoff slot

@[simp] theorem answered_log (p : JobProc) (rest : List JobCommand) (reply : JobReply)
    (slot : JobSlot) : (slot.answered p rest reply).log = slot.log :=
  (tellWorkflow_log reply.told _).trans (launch_log reply.launched slot)

/-- A slot's spec is set by spawning its job actor only. -/
@[simp] theorem launch_spec (kickoff : Option Kickoff) (slot : JobSlot) :
    (slot.launch kickoff).spec = slot.spec := by
  unfold launch
  split <;> rfl

@[simp] theorem tellWorkflow_spec (told : Option WorkflowCommand) (slot : JobSlot) :
    (slot.tellWorkflow told).spec = slot.spec := by
  unfold tellWorkflow
  split <;> rfl

@[simp] theorem recovered_spec (kickoff : Option Kickoff) (p : JobProc) (slot : JobSlot) :
    (slot.recovered kickoff p).spec = slot.spec := launch_spec kickoff slot

@[simp] theorem answered_spec (p : JobProc) (rest : List JobCommand) (reply : JobReply)
    (slot : JobSlot) : (slot.answered p rest reply).spec = slot.spec :=
  (tellWorkflow_spec reply.told _).trans (launch_spec reply.launched slot)

theorem recover_cases {launch : Except String Unit} (h : slot.recover launch = some slot') :
    ∃ p, slot.proc = some p ∧ p.phase = .recovering ∧
      slot' = slot.recovered (JobActor.onRecoveryComplete launch (JobActor.fold slot.log)) p := by
  unfold recover at h
  split at h
  · contradiction
  · rename_i p hproc
    split at h
    · rename_i hphase
      exact ⟨p, hproc, hphase, (Option.some.inj h).symm⟩
    · contradiction

theorem handle_cases {launch : Except String Unit} {status : Option JobStatus}
    (h : slot.handle launch = some (slot', status)) :
    ∃ p command rest, slot.proc = some p ∧ p.phase = .waiting ∧ p.mailbox = command :: rest ∧
      slot' = slot.answered p rest (JobActor.handleCommand launch p.holds command) ∧
      status = (JobActor.handleCommand launch p.holds command).reported := by
  unfold handle at h
  split at h
  · contradiction
  · rename_i p hproc
    split at h
    · rename_i command rest hphase hmailbox
      obtain ⟨hslot, hstatus⟩ := Prod.mk.inj (Option.some.inj h)
      exact ⟨p, command, rest, hproc, hphase, hmailbox, hslot.symm, hstatus.symm⟩
    · contradiction

theorem persist_cases {ok : Bool} (h : slot.persist ok = some slot') :
    ∃ p effect events, slot.proc = some p ∧ p.phase = .performing effect ∧
      events = (if ok then effect.events else []) ∧
      slot' = { slot with
        log := slot.log ++ events
        proc := some { p with
          state := events.foldl JobActor.applyEvent p.state
          phase := Phase.called effect } } := by
  unfold persist at h
  split at h
  · contradiction
  · rename_i p hproc
    split at h
    · rename_i effect hphase
      exact ⟨p, effect, _, hproc, hphase, rfl, (Option.some.inj h).symm⟩
    · contradiction

theorem forward_cases (h : slot.forward = some slot') :
    ∃ n rest, slot.system.channel = n :: rest ∧
      slot' = { slot with
        system := { slot.system with channel := rest } }.tell (.workflowEvent n) := by
  unfold forward at h
  split at h
  · contradiction
  · rename_i n rest hchannel
    exact ⟨n, rest, hchannel, (Option.some.inj h).symm⟩

end JobSlot

/-- What telling one such command keeps of a slot, the commands told to all children keep. -/
theorem tells_kept_of (P : JobSlot → Prop) (ok : JobCommand → Prop)
    (hkeep : ∀ slot command, ok command → P slot → P (slot.tell command))
    (told : List (JobId × JobCommand)) (hok : ∀ t ∈ told, ok t.2) (jobs : JobId → JobSlot)
    (id : JobId) (h : P (jobs id)) : P (tells told jobs id) := by
  induction told generalizing jobs with
  | nil => exact h
  | cons t rest ih =>
    refine ih (fun t' ht' => hok t' (List.mem_cons_of_mem t ht')) _ ?_
    by_cases hid : id = t.1
    · subst hid
      simpa using hkeep _ t.2 (hok t List.mem_cons_self) h
    · simpa [Function.update_of_ne hid] using h

theorem tells_kept (P : JobSlot → Prop) (hkeep : ∀ slot command, P slot → P (slot.tell command))
    (told : List (JobId × JobCommand)) (jobs : JobId → JobSlot) (id : JobId) (h : P (jobs id)) :
    P (tells told jobs id) :=
  tells_kept_of P (fun _ => True) (fun slot command _ => hkeep slot command) told
    (fun _ _ => trivial) jobs id h

theorem setJob_same (id : JobId) (slot : JobSlot) (d : Daemon) :
    (d.setJob id slot).jobs id = slot := by simp [Daemon.setJob]

theorem setJob_other {id i : JobId} (slot : JobSlot) (d : Daemon) (h : i ≠ id) :
    (d.setJob id slot).jobs i = d.jobs i := by simp [Daemon.setJob, Function.update_of_ne h]

/-- What holds of the new slot, and of the other jobs as they were, holds of every job. -/
theorem setJob_all (P : JobId → JobSlot → Prop) {id : JobId} {slot : JobSlot} {d : Daemon}
    (hslot : P id slot) (hothers : ∀ i, i ≠ id → P i (d.jobs i)) (i : JobId) :
    P i ((d.setJob id slot).jobs i) := by
  by_cases hid : i = id
  · subst hid
    rw [setJob_same]
    exact hslot
  · rw [setJob_other slot d hid]
    exact hothers i hid

namespace Daemon

def booted (d : Daemon) : Daemon :=
  { d with supervisor := some ⟨SupervisorActor.initialState, [], [], [], .recovering⟩ }

def recovered (p : SupervisorProc) (d : Daemon) : Daemon :=
  { d with
    supervisor := some { p with
      state := SupervisorActor.fold d.log
      children := SupervisorActor.onRecoveryComplete (SupervisorActor.fold d.log)
      phase := .waiting }
    jobs := respawned (SupervisorActor.fold d.log) d.jobs }

def answered (p : SupervisorProc) (rest : List SupervisorCommand) (reply : SupervisorReply)
    (d : Daemon) : Daemon :=
  { d with
    supervisor := some { p with
      children := reply.children
      mailbox := rest
      awaited := reply.awaited
      phase := Phase.handled reply.effect }
    jobs := tells reply.told (spawns reply.spawned d.jobs)
    nextJob := d.nextJob + 1
    answers := d.answers ++ reply.answer.toList }

def persisted (p : SupervisorProc) (effect : CommandEffect SupervisorEvent)
    (events : List SupervisorEvent) (d : Daemon) : Daemon :=
  { d with
    log := d.log ++ events
    supervisor := some { p with
      state := events.foldl SupervisorActor.applyEvent p.state
      phase := Phase.called effect } }

end Daemon

section Recovering

variable {d : Daemon} {p : SupervisorProc}

/-- A supervisor that handled a command or made a journal call has recovered. -/
theorem answered_up {rest : List SupervisorCommand} {reply : SupervisorReply} :
    ¬ ∀ q, (d.answered p rest reply).supervisor = some q → q.phase.isRecovering = true := by
  intro hdown
  have h := hdown _ rfl
  rw [show (Phase.handled reply.effect).isRecovering = false from
    Phase.isRecovering_handled reply.effect] at h
  contradiction

theorem persisted_up {effect : CommandEffect SupervisorEvent} {events : List SupervisorEvent} :
    ¬ ∀ q, (d.persisted p effect events).supervisor = some q → q.phase.isRecovering = true := by
  intro hdown
  have h := hdown _ rfl
  rw [show (Phase.called effect).isRecovering = false from Phase.isRecovering_called effect] at h
  contradiction

theorem tell_down {command : SupervisorCommand}
    (hdown : ∀ q, (d.tellSupervisor command).supervisor = some q → q.phase.isRecovering = true) :
    ∀ q, d.supervisor = some q → q.phase.isRecovering = true := by
  intro q hq
  have h := hdown (q.tell command) (by simp [Daemon.tellSupervisor, hq])
  rwa [SupervisorProc.tell_phase] at h

end Recovering

inductive DaemonStep (setting : Setting) (d : Daemon) : DaemonLabel → Daemon → Prop
  | booted : d.supervisor = none → DaemonStep setting d .boot d.booted
  | requested (command : SupervisorCommand) : requestable command = true →
      DaemonStep setting d (.request command) (d.tellSupervisor command)
  | recovered (p : SupervisorProc) : d.supervisor = some p → p.phase = .recovering →
      DaemonStep setting d .supervisorRecover (d.recovered p)
  | handled (p : SupervisorProc) (command : SupervisorCommand) (rest : List SupervisorCommand)
      (reply : SupervisorReply) : d.supervisor = some p → p.phase = .waiting →
      p.mailbox = command :: rest →
      reply = SupervisorActor.handleCommand d.nextJob p.children p.state command →
      DaemonStep setting d .supervisorHandle (d.answered p rest reply)
  | persisted (p : SupervisorProc) (effect : CommandEffect SupervisorEvent)
      (events : List SupervisorEvent) (ok : Bool) : d.supervisor = some p →
      p.phase = .performing effect → events = (if ok then effect.events else []) →
      DaemonStep setting d (.supervisorPersist ok) (d.persisted p effect events)
  | jobRecovered (id : JobId) (launch : Except String Unit) (slot : JobSlot) :
      (d.jobs id).recover launch = some slot →
      DaemonStep setting d (.jobRecover id launch) (d.setJob id slot)
  | jobHandled (id : JobId) (launch : Except String Unit) (slot : JobSlot)
      (status : Option JobStatus) : (d.jobs id).handle launch = some (slot, status) →
      DaemonStep setting d (.jobHandle id launch) ((d.setJob id slot).report id status)
  | jobPersisted (id : JobId) (ok : Bool) (slot : JobSlot) :
      (d.jobs id).persist ok = some slot →
      DaemonStep setting d (.jobPersist id ok) (d.setJob id slot)
  | forwarded (id : JobId) (slot : JobSlot) : (d.jobs id).forward = some slot →
      DaemonStep setting d (.forward id) (d.setJob id slot)
  | worked (id : JobId) (label : Label) (spec : JobSpec) (system : System) :
      (d.jobs id).spec = some spec → internal label = true →
      October.next (setting.config spec) (d.jobs id).system label = some system →
      DaemonStep setting d (.workflow id label) (d.setJob id { d.jobs id with system := system })
  | crashed : DaemonStep setting d .crash d.crash

variable {setting : Setting} {d d' : Daemon}

theorem supervisorHandle_step (h : d.supervisorHandle = some d') :
    DaemonStep setting d .supervisorHandle d' := by
  unfold Daemon.supervisorHandle at h
  split at h
  · contradiction
  · rename_i p hp
    split at h
    · rename_i command rest hphase hmailbox
      split at h
      · cases Option.some.inj h
        exact DaemonStep.handled p command rest _ hp hphase hmailbox rfl
      · contradiction
    · contradiction

theorem supervisorPersist_step {ok : Bool} (h : d.supervisorPersist ok = some d') :
    DaemonStep setting d (.supervisorPersist ok) d' := by
  unfold Daemon.supervisorPersist at h
  split at h
  · contradiction
  · rename_i p hp
    split at h
    · rename_i effect hphase
      cases Option.some.inj h
      exact DaemonStep.persisted p effect _ ok hp hphase rfl
    · contradiction

theorem supervisorRecover_step (h : d.supervisorRecover = some d') :
    DaemonStep setting d .supervisorRecover d' := by
  unfold Daemon.supervisorRecover at h
  split at h
  · contradiction
  · rename_i p hp
    split at h
    · rename_i hphase
      cases Option.some.inj h
      exact DaemonStep.recovered p hp hphase
    · contradiction

theorem daemon_step {l : DaemonLabel} (h : Daemon.next setting d l = some d') :
    DaemonStep setting d l d' := by
  cases l with
  | boot =>
    simp only [Daemon.next, Daemon.boot] at h
    split at h
    · contradiction
    · rename_i hnone
      cases Option.some.inj h
      exact DaemonStep.booted hnone
  | request command =>
    simp only [Daemon.next] at h
    split at h
    · rename_i hrequestable
      cases Option.some.inj h
      exact DaemonStep.requested command hrequestable
    · contradiction
  | supervisorRecover => exact supervisorRecover_step h
  | supervisorHandle => exact supervisorHandle_step h
  | supervisorPersist ok => exact supervisorPersist_step h
  | jobRecover id launch =>
    obtain ⟨slot, hslot, rfl⟩ := Option.map_eq_some_iff.mp h
    exact DaemonStep.jobRecovered id launch slot hslot
  | jobHandle id launch =>
    obtain ⟨⟨slot, status⟩, hslot, rfl⟩ := Option.map_eq_some_iff.mp h
    exact DaemonStep.jobHandled id launch slot status hslot
  | jobPersist id ok =>
    obtain ⟨slot, hslot, rfl⟩ := Option.map_eq_some_iff.mp h
    exact DaemonStep.jobPersisted id ok slot hslot
  | forward id =>
    obtain ⟨slot, hslot, rfl⟩ := Option.map_eq_some_iff.mp h
    exact DaemonStep.forwarded id slot hslot
  | workflow id label =>
    simp only [Daemon.next, Daemon.workflowStep] at h
    split at h
    · contradiction
    · rename_i spec hspec
      split at h
      · rename_i hinternal
        obtain ⟨system, hsystem, rfl⟩ := Option.map_eq_some_iff.mp h
        exact DaemonStep.worked id label spec system hspec hinternal hsystem
      · contradiction
  | crash =>
    cases Option.some.inj h
    exact DaemonStep.crashed

end October
