import October.RegistryRows

/-!
The status reports that job actors have sent and the supervisor has not taken yet. A
job actor whose report says that its job has ended stops with the effect of the same
handler, so that report is its last.
-/
namespace October.StatusReports

open SupervisorInvariants

/-- The job actor is gone, has stopped, or stops with its pending effect. -/
def Over (slot : JobSlot) : Prop := slot.proc.all (fun p => p.phase.stopping) = true

/-- An actor that has not stopped and will not takes what it is told. -/
theorem not_stopped {E : Type} {phase : Phase E} (h : phase.stopping = false) :
    phase.isStopped = false := by
  cases phase <;> simp_all [Phase.isStopped, Phase.stopping]

def mailbox (d : Daemon) : List SupervisorCommand :=
  (d.supervisor.map SupervisorProc.mailbox).getD []

def reported (id : JobId) : SupervisorCommand → Option JobStatus
  | .jobStatusChanged id' status => if id' = id then some status else none
  | _ => none

def reports (d : Daemon) (id : JobId) : List JobStatus := (mailbox d).filterMap (reported id)

section Slots

variable {slot slot' : JobSlot} {p : JobProc}

theorem over_none (h : slot.proc = none) : Over slot := by
  unfold Over
  rw [h]
  rfl

theorem over_some (h : slot.proc = some p) : Over slot ↔ p.phase.stopping = true := by
  unfold Over
  rw [h, Option.all_some]

/-- An actor that is gone or has stopped reports nothing more. -/
theorem over_stopped (h : slot.stopped = true) : Over slot := by
  unfold JobSlot.stopped at h
  unfold Over
  cases hproc : slot.proc with
  | none => rfl
  | some p =>
    rw [hproc, Option.all_some] at h
    rw [Option.all_some]
    cases hphase : p.phase <;> simp_all [Phase.isStopped, Phase.stopping]

/-- An actor that recovers or waits can still report. -/
theorem not_over_recovering (h : slot.proc = some p) (hphase : p.phase = .recovering) :
    ¬ Over slot := by
  rw [over_some h, hphase]
  simp [Phase.stopping]

theorem not_over_waiting (h : slot.proc = some p) (hphase : p.phase = .waiting) :
    ¬ Over slot := by
  rw [over_some h, hphase]
  simp [Phase.stopping]

theorem Over.tell (h : Over slot) (command : JobCommand) : Over (slot.tell command) := by
  unfold Over JobSlot.tell at *
  cases hproc : slot.proc with
  | none => rfl
  | some p =>
    rw [hproc, Option.all_some] at h
    simpa using h

theorem Over.persist (h : Over slot) {ok : Bool} (hpersist : slot.persist ok = some slot') :
    Over slot' := by
  obtain ⟨p, effect, events, hproc, hphase, _, rfl⟩ := JobSlot.persist_cases hpersist
  rw [over_some hproc, hphase] at h
  have hstops : effect.stops = true := h
  simpa [Over] using hstops

/-- A job actor that reports an end stops. -/
theorem reported_stops {launch : Except String Unit} {holds : Bool} {command : JobCommand}
    {status : JobStatus} (h : (JobActor.handleCommand launch holds command).reported = some status)
    (hterminal : SupervisorActor.isTerminal status = true) :
    (JobActor.handleCommand launch holds command).effect.stops = true := by
  cases command with
  | start =>
    cases launch with
    | ok _ => contradiction
    | error _ => rfl
  | resume message =>
    cases holds with
    | true => contradiction
    | false =>
      cases launch with
      | ok _ => contradiction
      | error _ => rfl
  | workflowEvent notification =>
    cases notification with
    | finished _ | failed _ => rfl
    | suspended | awaitingUserInput _ =>
      cases Option.some.inj h
      contradiction
  | stop | subscribe | shutdown => contradiction

end Slots

section Reports

variable {d : Daemon} {id : JobId}

/-- What the supervisor is told it finds at the end of its mailbox. -/
theorem mailbox_tell {p : SupervisorProc} (hp : d.supervisor = some p)
    (hphase : p.phase.isStopped = false) (command : SupervisorCommand) :
    mailbox (d.tellSupervisor command) = mailbox d ++ [command] := by
  simp [mailbox, Daemon.tellSupervisor, hp, SupervisorProc.tell_mailbox command p hphase]

theorem mailbox_none (h : d.supervisor = none) : mailbox d = [] := by simp [mailbox, h]

theorem reports_none (h : d.supervisor = none) : reports d id = [] := by
  simp [reports, mailbox_none h]

theorem reports_tell {p : SupervisorProc} (hp : d.supervisor = some p)
    (hphase : p.phase.isStopped = false) (command : SupervisorCommand) :
    reports (d.tellSupervisor command) id = reports d id ++ (reported id command).toList := by
  unfold reports
  rw [mailbox_tell hp hphase, List.filterMap_append]
  cases h : reported id command <;> simp [h]

/-- Clients report nothing. -/
theorem reported_request {command : SupervisorCommand} (h : Daemon.requestable command = true) :
    reported id command = none := by
  cases command with
  | jobStatusChanged _ _ => contradiction
  | _ => rfl

/-- What reports nothing of a job leaves the reports on it. -/
theorem reports_untold {command : SupervisorCommand} (h : reported id command = none) :
    reports (d.tellSupervisor command) id = reports d id := by
  cases hp : d.supervisor with
  | none =>
    rw [reports_none hp]
    exact reports_none (by simp [Daemon.tellSupervisor, hp])
  | some p =>
    cases hphase : p.phase.isStopped with
    | true => simp [reports, mailbox, Daemon.tellSupervisor, hp, SupervisorProc.tell, hphase]
    | false =>
      rw [reports_tell hp hphase, h]
      simp

theorem reports_requested {command : SupervisorCommand}
    (h : Daemon.requestable command = true) :
    reports (d.tellSupervisor command) id = reports d id :=
  reports_untold (reported_request h)

/-- A report is taken from the front. -/
theorem reports_answered {p : SupervisorProc} {command : SupervisorCommand}
    {rest : List SupervisorCommand} (hp : d.supervisor = some p)
    (hmailbox : p.mailbox = command :: rest) (reply : SupervisorReply) :
    reports d id = (reported id command).toList ++ reports (d.answered p rest reply) id := by
  simp only [reports, mailbox, hp, hmailbox, Daemon.answered, Option.map_some, Option.getD_some,
    List.filterMap_cons]
  cases reported id command <;> rfl

theorem reports_persisted {p : SupervisorProc} (hp : d.supervisor = some p)
    (effect : CommandEffect SupervisorEvent) (events : List SupervisorEvent) :
    reports (d.persisted p effect events) id = reports d id := by
  simp [reports, mailbox, Daemon.persisted, hp]

theorem reports_recovered {p : SupervisorProc} (hp : d.supervisor = some p) :
    reports (d.recovered p) id = reports d id := by
  simp [reports, mailbox, Daemon.recovered, hp]

end Reports

section Handled

inductive Leaves (fresh : JobId) (state : SupervisorState) :
    SupervisorCommand → List SupervisorEvent → Prop
  | nothing (command : SupervisorCommand) : (∀ id, reported id command = none) →
      Leaves fresh state command []
  | submission (spec : JobSpec) (submittedAt : ℕ) :
      Leaves fresh state (.submit spec submittedAt) [.jobSubmitted fresh spec submittedAt]
  | report (id : JobId) (status : JobStatus) :
      Leaves fresh state (.jobStatusChanged id status) [.jobStatusChanged id status]
  | removal (id : JobId) (record : JobRecord) : state.jobs.lookup id = some record →
      SupervisorActor.isTerminal record.status = true →
      Leaves fresh state (.remove id) [.jobRemoved id]

variable {fresh : JobId} {children : List JobId} {state : SupervisorState}
  {command : SupervisorCommand} {reply : SupervisorReply}

theorem handled_leaves (h : reply = SupervisorActor.handleCommand fresh children state command) :
    Leaves fresh state command reply.effect.events := by
  subst h
  cases command with
  | submit spec submittedAt => exact Leaves.submission spec submittedAt
  | remove id =>
    simp only [SupervisorActor.handleCommand]
    cases hrow : state.jobs.lookup id with
    | none => exact Leaves.nothing _ (fun _ => rfl)
    | some record =>
      by_cases hterminal : SupervisorActor.isTerminal record.status = true
      · simp only [hterminal, if_true]
        exact Leaves.removal id record hrow hterminal
      · simp only [if_neg hterminal]
        exact Leaves.nothing _ (fun _ => rfl)
  | jobStatusChanged id status => exact Leaves.report id status
  | list | stop _ | resume _ _ | subscribe _ | shutdown => exact Leaves.nothing _ (fun _ => rfl)

/-- A report is left to be written exactly if it was taken. -/
theorem Leaves.report_iff {events : List SupervisorEvent} (h : Leaves fresh state command events)
    (id : JobId) (status : JobStatus) :
    .jobStatusChanged id status ∈ events ↔ reported id command = some status := by
  cases h with
  | nothing _ hnone =>
    rw [hnone id]
    simp
  | submission spec submittedAt | removal id' record _ _ => simp [reported]
  | report id' status' =>
    unfold reported
    by_cases hid : id' = id
    · subst hid
      simp [eq_comm]
    · simp [hid, Ne.symm hid]

theorem Leaves.length_le {events : List SupervisorEvent}
    (h : Leaves fresh state command events) : events.length ≤ 1 := by
  cases h <;> simp

/-- The supervisor never stops by itself. -/
theorem handled_continues (h : reply = SupervisorActor.handleCommand fresh children state command) :
    reply.effect.stops = false := by
  subst h
  cases command with
  | remove id =>
    simp only [SupervisorActor.handleCommand]
    cases state.jobs.lookup id with
    | none => rfl
    | some record =>
      by_cases hterminal : SupervisorActor.isTerminal record.status = true
      · simp only [hterminal, if_true]
        rfl
      · simp only [if_neg hterminal]
        rfl
  | _ => rfl

/-- Only the job with the fresh id is spawned. -/
theorem handled_spawns (h : reply = SupervisorActor.handleCommand fresh children state command)
    (jobs : JobId → JobSlot) {id : JobId} (hid : id ≠ fresh) :
    Daemon.spawns reply.spawned jobs id = jobs id := by
  have hsubmits := handled_submits fresh children state command
  rw [← h] at hsubmits
  rcases hsubmits with ⟨spec, _, hspawned, _⟩ | ⟨hspawned, _⟩
  · rw [hspawned]
    simp [Daemon.spawns, Function.update_of_ne hid]
  · rw [hspawned]
    rfl

/-- The job with the fresh id is spawned exactly if its submission is to be written. -/
theorem handled_spawned (h : reply = SupervisorActor.handleCommand fresh children state command)
    (jobs : JobId → JobSlot) (id : JobId) : Daemon.spawns reply.spawned jobs id = jobs id ∨
      ∃ spec submittedAt, Daemon.spawns reply.spawned jobs id = (jobs id).spawn spec ∧
        .jobSubmitted id spec submittedAt ∈ reply.effect.events := by
  have hsubmits := handled_submits fresh children state command
  rw [← h] at hsubmits
  rcases hsubmits with ⟨spec, submittedAt, hspawned, heffect⟩ | ⟨hspawned, _⟩
  · by_cases hid : id = fresh
    · subst hid
      exact Or.inr ⟨spec, submittedAt, by simp [hspawned, Daemon.spawns], by simp [heffect]⟩
    · exact Or.inl (handled_spawns h jobs hid)
  · rw [hspawned]
    exact Or.inl rfl

/-- What each tell keeps, a handled command keeps of every job but a submitted one. -/
theorem answered_kept (P : JobSlot → Prop) (hkeep : ∀ slot command, P slot → P (slot.tell command))
    {d : Daemon} {p : SupervisorProc} {rest : List SupervisorCommand} {id : JobId}
    (hreply : reply = SupervisorActor.handleCommand d.nextJob p.children p.state command)
    (hid : id ≠ d.nextJob) (h : P (d.jobs id)) : P ((d.answered p rest reply).jobs id) := by
  refine tells_kept P hkeep reply.told _ id ?_
  rw [handled_spawns hreply d.jobs hid]
  exact h

/-- What neither spawning nor telling its actor changes of a job, a handled command does not. -/
theorem answered_same {β : Type} (f : JobSlot → β) (htell : ∀ slot command, f (slot.tell command) =
    f slot) (hspawn : ∀ slot spec, f (slot.spawn spec) = f slot) {d : Daemon} {p : SupervisorProc}
    {rest : List SupervisorCommand}
    (hreply : reply = SupervisorActor.handleCommand d.nextJob p.children p.state command)
    (id : JobId) : f ((d.answered p rest reply).jobs id) = f (d.jobs id) := by
  refine tells_kept (fun slot => f slot = f (d.jobs id))
    (fun slot command h => (htell slot command).trans h) reply.told _ id ?_
  rcases handled_spawned hreply d.jobs id with hsame | ⟨spec, _, hspawned, _⟩
  · rw [hsame]
  · rw [hspawned]
    exact hspawn _ spec

end Handled

end October.StatusReports
