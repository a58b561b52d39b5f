import October.SupervisorInvariants

/-!
The registry's journal, the events about to be persisted and the job ids drawn, over one
step of the daemon. A frame lemma says which steps leave all three as they are.
-/
namespace October

open Daemon SupervisorInvariants

variable {setting : Setting} {d d' : Daemon}

def pending (d : Daemon) : List SupervisorEvent :=
  (d.supervisor.map (fun p => p.phase.events)).getD []

theorem registryRecord_eq (d : Daemon) : registryRecord d = d.log ++ pending d := rfl

theorem pending_some {p : SupervisorProc} (hp : d.supervisor = some p) :
    pending d = p.phase.events := by simp [pending, hp]

theorem pending_tell (command : SupervisorCommand) (d : Daemon) :
    pending (d.tellSupervisor command) = pending d := by
  have h := registryRecord_tell command d
  exact List.append_cancel_left h

section Record

variable (p : SupervisorProc) (rest : List SupervisorCommand) (reply : SupervisorReply)
  (effect : CommandEffect SupervisorEvent) (events : List SupervisorEvent) (d : Daemon)

@[simp] theorem registryRecord_booted : registryRecord d.booted = d.log := by
  simp [registryRecord, Daemon.booted]

@[simp] theorem registryRecord_recovered : registryRecord (d.recovered p) = d.log := by
  simp [registryRecord, Daemon.recovered]

@[simp] theorem registryRecord_answered :
    registryRecord (d.answered p rest reply) = d.log ++ reply.effect.events := by
  simp [registryRecord, Daemon.answered]

@[simp] theorem registryRecord_persisted :
    registryRecord (d.persisted p effect events) = d.log ++ events := by
  simp [registryRecord, Daemon.persisted]

@[simp] theorem registryRecord_crash : registryRecord d.crash = d.log := by
  simp [registryRecord, Daemon.crash]

/-- A supervisor that waits or recovers has nothing to write. -/
theorem registryRecord_idle {d : Daemon} {p : SupervisorProc} (hp : d.supervisor = some p)
    (hphase : p.phase.events = []) : registryRecord d = d.log := by
  simp [registryRecord, hp, hphase]

end Record

/-- The steps that may change the registry's journal, the events about to be persisted or
the job ids drawn. -/
def registers : DaemonLabel → Bool
  | .supervisorHandle => true
  | .supervisorPersist _ => true
  | .crash => true
  | _ => false

/-- While the supervisor is told something, its state and its phase stay. -/
theorem tellSupervisor_some {command : SupervisorCommand} {p : SupervisorProc}
    (h : (d.tellSupervisor command).supervisor = some p) :
    ∃ q, d.supervisor = some q ∧ p = q.tell command := by
  obtain ⟨q, hq, htell⟩ := Option.map_eq_some_iff.mp h
  exact ⟨q, hq, htell.symm⟩

theorem report_some {id : JobId} {status : Option JobStatus} {p : SupervisorProc}
    (h : (d.report id status).supervisor = some p) :
    ∃ q, d.supervisor = some q ∧ p.state = q.state ∧ p.phase = q.phase := by
  cases status with
  | none => exact ⟨p, h, rfl, rfl⟩
  | some status =>
    obtain ⟨q, hq, rfl⟩ := tellSupervisor_some h
    exact ⟨q, hq, SupervisorProc.tell_state _ q, SupervisorProc.tell_phase _ q⟩

structure RegistryFrame (d d' : Daemon) : Prop where
  log : d'.log = d.log
  pending : pending d' = pending d
  nextJob : d'.nextJob = d.nextJob

theorem registryFrame_tell (command : SupervisorCommand) (d : Daemon) :
    RegistryFrame d (d.tellSupervisor command) := ⟨rfl, pending_tell command d, rfl⟩

theorem DaemonStep.frame {l : DaemonLabel} (h : DaemonStep setting d l d')
    (hl : registers l = false) : RegistryFrame d d' := by
  cases h with
  | booted hnone => exact ⟨rfl, by simp [October.pending, Daemon.booted, hnone], rfl⟩
  | requested command _ => exact registryFrame_tell command d
  | recovered p hp hphase =>
    exact ⟨rfl, by simp [October.pending, Daemon.recovered, hp, hphase], rfl⟩
  | jobHandled id launch slot status _ =>
    cases status with
    | none => exact ⟨rfl, rfl, rfl⟩
    | some status =>
      exact ⟨rfl, pending_tell (.jobStatusChanged id status) (d.setJob id slot), rfl⟩
  | jobRecovered _ _ _ _ | jobPersisted _ _ _ _ | forwarded _ _ _ | worked _ _ _ _ _ _ _ =>
    exact ⟨rfl, rfl, rfl⟩
  | handled _ _ _ _ _ _ _ _ | persisted _ _ _ _ _ _ _ | crashed => contradiction

theorem RegistryFrame.record (h : RegistryFrame d d') : registryRecord d' = registryRecord d := by
  rw [registryRecord_eq, registryRecord_eq, h.log, h.pending]

def Tracked (d : Daemon) : Prop :=
  ∀ p, d.supervisor = some p → p.phase.isRecovering = false →
    p.state = SupervisorActor.fold d.log

theorem Tracked.step (hd : Tracked d) {l : DaemonLabel} (h : DaemonStep setting d l d') :
    Tracked d' := by
  intro p hp hphase
  cases h with
  | booted _ =>
    cases Option.some.inj hp
    contradiction
  | requested command _ =>
    obtain ⟨q, hq, rfl⟩ := tellSupervisor_some hp
    rw [SupervisorProc.tell_phase] at hphase
    rw [SupervisorProc.tell_state]
    exact hd q hq hphase
  | recovered q _ _ =>
    cases Option.some.inj hp
    rfl
  | handled q command rest reply hq hwaiting _ _ =>
    cases Option.some.inj hp
    exact hd q hq (by rw [hwaiting]; rfl)
  | persisted q effect events ok hq hperforming _ =>
    cases Option.some.inj hp
    have hstate := hd q hq (by rw [hperforming]; rfl)
    change events.foldl SupervisorActor.applyEvent q.state = SupervisorActor.fold (d.log ++ events)
    rw [SupervisorActor.fold, List.foldl_append, hstate]
    rfl
  | jobHandled id launch slot status _ =>
    obtain ⟨q, hq, hstate, hsame⟩ := report_some hp
    rw [hstate]
    have hlog : ((d.setJob id slot).report id status).log = d.log := by cases status <;> rfl
    rw [hlog]
    exact hd q hq (by rw [← hsame]; exact hphase)
  | jobRecovered _ _ _ _ | jobPersisted _ _ _ _ | forwarded _ _ _ | worked _ _ _ _ _ _ _ =>
    exact hd p hp hphase
  | crashed => contradiction

theorem tracked_init : Tracked Daemon.init := fun _ hp => by contradiction

end October
