import October.SupervisorInvariants

/-!
A restart of the daemon. Each level recovers from its own journal: the supervisor
spawns the jobs its registry lists as not ended, a job launches its workflow if its
own journal folds to Running, and a workflow spawns its agent if its journal does.
So a job that is listed as Running is driven after a restart exactly if the journals
of the job and of its workflow both fold to Running when the process dies.
-/
namespace October.OrphanedJobs

open WorkflowActor WorkflowInvariants SupervisorInvariants

def isRecovery : DaemonLabel → Bool
  | .boot => true
  | .supervisorRecover => true
  | .jobRecover _ (.ok _) => true
  | .workflow _ .workflowRecover => true
  | .workflow _ (.agentRecover _ _) => true
  | _ => false

def Recovery (_ : Daemon) (l : DaemonLabel) : Prop := isRecovery l = true

instance (d : Daemon) (l : DaemonLabel) : Decidable (Recovery d l) :=
  inferInstanceAs (Decidable (_ = true))

structure Recovered (d : Daemon) : Prop where
  supervisor : ∃ p, d.supervisor = some p ∧ p.phase.isRecovering = false
  jobs : ∀ id p, (d.jobs id).proc = some p → p.phase.isRecovering = false
  workflows : ∀ id wf, (d.jobs id).system.workflow = some wf → wf.phase.isRecovering = false
  agents : ∀ id p, p ∈ (d.jobs id).system.agents → p.phase.isRecovering = false

def settled (slot : JobSlot) : Bool :=
  slot.proc.all (fun p => !p.phase.isRecovering) &&
    slot.system.workflow.all (fun wf => !wf.phase.isRecovering) &&
      slot.system.agents.all (fun p => !p.phase.isRecovering)

theorem recovered_of_settled {d : Daemon}
    (hsupervisor : d.supervisor.any (fun p => !p.phase.isRecovering) = true)
    (hsettled : ∀ id, settled (d.jobs id) = true) : Recovered d := by
  have hall : ∀ id, (((d.jobs id).proc.all (fun p => !p.phase.isRecovering)) = true ∧
      ((d.jobs id).system.workflow.all (fun wf => !wf.phase.isRecovering)) = true) ∧
      ((d.jobs id).system.agents.all (fun p => !p.phase.isRecovering)) = true := by
    intro id
    simpa only [settled, Bool.and_eq_true] using hsettled id
  refine ⟨?_, fun id p hp => ?_, fun id wf hwf => ?_, fun id p hp => ?_⟩
  · obtain ⟨p, hp, hphase⟩ := (Option.any_eq_true _ _).mp hsupervisor
    exact ⟨p, hp, by simpa using hphase⟩
  · simpa [hp] using (hall id).1.1
  · simpa [hwf] using (hall id).1.2
  · simpa using List.all_eq_true.mp (hall id).2 p hp

def Restarted (setting : Setting) (s t : Daemon) : Prop :=
  Machine.Run (Daemon.next setting) Recovery s.crash t ∧ Recovered t

def ListedRunning (d : Daemon) (id : JobId) : Prop :=
  (row d.log id).map JobRecord.status = some .running

instance (d : Daemon) (id : JobId) : Decidable (ListedRunning d id) :=
  inferInstanceAs (Decidable (_ = _))

def JournalsRunning (slot : JobSlot) : Prop :=
  (JobActor.fold slot.log).status = some .running ∧
    (fold slot.system.workflowLog).status = .running

instance (slot : JobSlot) : Decidable (JournalsRunning slot) :=
  inferInstanceAs (Decidable (_ ∧ _))

/-- The job has a live running workflow whose current session has a live agent. -/
def Driven (slot : JobSlot) : Prop :=
  ∃ (wf : WorkflowProc) (ref : ActorRef) (p : AgentProc), slot.system.workflow = some wf ∧
    wf.phase.isStopped = false ∧ wf.state.status = .running ∧ wf.child = some ref ∧
    slot.system.agents[ref]? = some p ∧
    wf.state.currentSessionId = some p.actor.sessionId ∧ p.phase.isStopped = false

/-- What a recovered workflow holds. -/
def Holds (wf : WorkflowProc) (agents : List AgentProc) :
    Option (WorkflowAgentDef × Uuid) → Prop
  | none => wf.child = none ∧ agents = []
  | some (_, sessionId) => wf.child = some 0 ∧ ∃ p, agents = [p] ∧
      p.actor.sessionId = sessionId ∧ p.mailbox = [] ∧ p.phase.isStopped = false

inductive Stage (setting : Setting) (slot : JobSlot) : Prop
  | down : slot.proc = none → slot.system.workflow = none → slot.system.agents = [] →
      Stage setting slot
  | spawned (p : JobProc) (spec : JobSpec) : slot.proc = some p → slot.spec = some spec →
      p.phase = .recovering → p.mailbox = [] → slot.system.workflow = none →
      slot.system.agents = [] → Stage setting slot
  | idle (p : JobProc) : slot.proc = some p → p.phase = .waiting → p.mailbox = [] →
      (JobActor.fold slot.log).status ≠ some .running → slot.system.workflow = none →
      slot.system.agents = [] → Stage setting slot
  | launched (p : JobProc) (wf : WorkflowProc) : slot.proc = some p → p.phase = .waiting →
      p.mailbox = [] → (JobActor.fold slot.log).status = some .running →
      slot.system.workflow = some wf → wf.phase = .recovering → wf.mailbox = [] →
      slot.system.agents = [] → Stage setting slot
  | recovered (p : JobProc) (spec : JobSpec) (wf : WorkflowProc) : slot.proc = some p →
      slot.spec = some spec → p.phase = .waiting → p.mailbox = [] →
      (JobActor.fold slot.log).status = some .running → slot.system.workflow = some wf →
      wf.phase = .waiting → wf.mailbox = [] → wf.state = fold slot.system.workflowLog →
      Holds wf slot.system.agents
        (onRecoveryComplete (setting.config spec).workflow (fold slot.system.workflowLog)) →
      Stage setting slot

/-- A slot during a restart, with the journals of the slot that died. -/
structure Rebuilt (setting : Setting) (old new : JobSlot) : Prop where
  log : new.log = old.log
  spec : new.spec = old.spec
  workflowLog : new.system.workflowLog = old.system.workflowLog
  stage : Stage setting new

structure Inv (setting : Setting) (s u : Daemon) : Prop where
  log : u.log = s.log
  slots : ∀ id, Rebuilt setting (s.jobs id) (u.jobs id)
  mailbox : ∀ p, u.supervisor = some p → p.mailbox = []
  down : (∀ p, u.supervisor = some p → p.phase = .recovering) → ∀ id, (u.jobs id).proc = none
  up : ∀ p, u.supervisor = some p → p.phase.isRecovering = false →
    ∀ id spec, SupervisorActor.toSpawn (SupervisorActor.fold s.log) id = some spec →
      (u.jobs id).proc ≠ none

variable {setting : Setting} {s u v : Daemon}

theorem inv_crash (setting : Setting) (s : Daemon) : Inv setting s s.crash where
  log := rfl
  slots _ := ⟨rfl, rfl, rfl, Stage.down rfl rfl rfl⟩
  mailbox _ hp := by contradiction
  down _ _ := rfl
  up _ hp := by contradiction

/-- A step within a spawned slot. -/
theorem Inv.setJob (hu : Inv setting s u) {id : JobId} {slot : JobSlot}
    (hslot : Rebuilt setting (s.jobs id) slot) (hold : (u.jobs id).proc ≠ none)
    (hnew : slot.proc ≠ none) : Inv setting s (u.setJob id slot) := by
  refine ⟨hu.log, ?_, hu.mailbox, fun hdown => absurd (hu.down hdown id) hold,
    fun p hp hphase i spec hspawn => ?_⟩
  · exact setJob_all (fun i slot => Rebuilt setting (s.jobs i) slot) hslot
      (fun i _ => hu.slots i)
  · exact setJob_all (fun i slot => SupervisorActor.toSpawn (SupervisorActor.fold s.log) i =
      some spec → slot.proc ≠ none) (fun _ => hnew)
      (fun j _ hspawn => hu.up p hp hphase j spec hspawn) i hspawn

theorem Inv.booted (hu : Inv setting s u) (hnone : u.supervisor = none) :
    Inv setting s u.booted := by
  refine ⟨hu.log, hu.slots, fun p hp => ?_, fun _ => ?_, fun p hp hphase => ?_⟩
  · cases Option.some.inj hp
    rfl
  · exact hu.down (fun p hp => by rw [hnone] at hp; contradiction)
  · cases Option.some.inj hp
    contradiction

/-- A spawned slot is the old one, with its job actor about to recover. -/
theorem Rebuilt.respawned {old slot : JobSlot} (h : Rebuilt setting old slot)
    (hnone : slot.proc = none) {spec : JobSpec} (hspec : old.spec = some spec) :
    Rebuilt setting old (slot.spawn spec) := by
  obtain ⟨hlog, _, hworkflowLog, hstage⟩ := h
  refine ⟨hlog, hspec.symm, hworkflowLog, ?_⟩
  cases hstage with
  | down _ hworkflow hagents => exact Stage.spawned _ spec rfl rfl rfl rfl hworkflow hagents
  | spawned p' _ hproc _ _ _ _ _ | idle p' hproc _ _ _ _ _
  | launched p' _ hproc _ _ _ _ _ _ _ | recovered p' _ _ hproc _ _ _ _ _ _ _ _ _ =>
    rw [hnone] at hproc
    contradiction

theorem Inv.recovered (hs : Sound setting s) (hu : Inv setting s u) {p : SupervisorProc}
    (hp : u.supervisor = some p) (hphase : p.phase = .recovering) :
    Inv setting s (u.recovered p) := by
  have hnone : ∀ id, (u.jobs id).proc = none := by
    refine hu.down (fun q hq => ?_)
    cases Option.some.inj (hp.symm.trans hq)
    exact hphase
  refine ⟨hu.log, fun id => ?_, fun q hq => ?_, fun hdown => ?_, fun q hq _ id spec hspawn => ?_⟩
  · change Rebuilt setting (s.jobs id) (Daemon.respawned (SupervisorActor.fold u.log) u.jobs id)
    unfold Daemon.respawned
    split
    · exact hu.slots id
    · rename_i spec hspawn
      rw [hu.log] at hspawn
      exact (hu.slots id).respawned (hnone id) (hs.spawnable hspawn)
  · cases Option.some.inj hq
    exact hu.mailbox p hp
  · have h := hdown _ rfl
    contradiction
  · change (Daemon.respawned (SupervisorActor.fold u.log) u.jobs id).proc ≠ none
    rw [← hu.log] at hspawn
    unfold Daemon.respawned
    rw [hspawn]
    simp [JobSlot.spawn]

/-- A recovered job launches its workflow exactly if its own journal folds to Running. -/
theorem Rebuilt.recover {old slot slot' : JobSlot} (h : Rebuilt setting old slot)
    (hstep : slot.recover (.ok ()) = some slot') :
    Rebuilt setting old slot' ∧ slot.proc ≠ none ∧ slot'.proc ≠ none := by
  obtain ⟨p, hproc, hphase, rfl⟩ := JobSlot.recover_cases hstep
  obtain ⟨hlog, hspec, hworkflowLog, hstage⟩ := h
  refine ⟨?_, by rw [hproc]; simp, by simp [JobSlot.recovered]⟩
  cases hstage with
  | down hnone _ _ =>
    rw [hnone] at hproc
    contradiction
  | idle p' hproc' hphase' _ _ _ _ | launched p' _ hproc' hphase' _ _ _ _ _ _
  | recovered p' _ _ hproc' _ hphase' _ _ _ _ _ _ _ =>
    cases Option.some.inj (hproc.symm.trans hproc')
    rw [hphase] at hphase'
    contradiction
  | spawned p' spec hproc' hsome _ hmailbox hworkflow hagents =>
    cases Option.some.inj (hproc.symm.trans hproc')
    rw [JobActor.onRecoveryComplete_ok]
    by_cases hrunning : (JobActor.fold slot.log).status = some .running
    · rw [if_pos hrunning]
      have hlaunch : slot.launch (some .recover) = { slot with
          system := { slot.system with
            workflow := some ⟨WorkflowActor.initialState, none, [], .recovering⟩ } } := by
        unfold JobSlot.launch
        simp [hsome, System.launch, hworkflow, Kickoff.command]
      unfold JobSlot.recovered
      rw [hlaunch]
      exact ⟨hlog, hspec, hworkflowLog,
        Stage.launched _ _ rfl rfl hmailbox hrunning rfl rfl rfl hagents⟩
    · rw [if_neg hrunning]
      exact ⟨hlog, hspec, hworkflowLog,
        Stage.idle _ rfl rfl hmailbox hrunning hworkflow hagents⟩

/-- The steps of a workflow system during a restart. -/
theorem Rebuilt.workflow {old slot : JobSlot} (h : Rebuilt setting old slot) {spec : JobSpec}
    (hsome : slot.spec = some spec) {l : Label} {t : System}
    (hl : l = .workflowRecover ∨ ∃ ref messageId, l = .agentRecover ref messageId)
    (hstep : next (setting.config spec) slot.system l = some t) :
    Rebuilt setting old { slot with system := t } ∧ slot.proc ≠ none := by
  obtain ⟨hlog, hspec, hworkflowLog, hstage⟩ := h
  have hstep' := next_step hstep
  rcases hl with rfl | ⟨ref, messageId, rfl⟩
  · cases hstep' with
    | recovered wf held hwf hphase hheld =>
      cases hstage with
      | down _ hnone _ | spawned _ _ _ _ _ _ hnone _ | idle _ _ _ _ _ hnone _ =>
        rw [hnone] at hwf
        contradiction
      | recovered p _ wf' hproc _ _ _ _ hwf' hphase' _ _ _ =>
        cases Option.some.inj (hwf.symm.trans hwf')
        rw [hphase] at hphase'
        contradiction
      | launched p wf' hproc hwaiting hmailbox hrunning hwf' _ hempty hagents =>
        cases Option.some.inj (hwf.symm.trans hwf')
        refine ⟨?_, by rw [hproc]; simp⟩
        cases held with
        | none =>
          refine ⟨hlog, hspec, hworkflowLog, Stage.recovered p spec _ hproc hsome hwaiting hmailbox
            hrunning rfl rfl hempty rfl ?_⟩
          change Holds _ slot.system.agents
            (onRecoveryComplete (setting.config spec).workflow (fold slot.system.workflowLog))
          rw [← hheld]
          exact ⟨rfl, hagents⟩
        | some pair =>
          obtain ⟨d, sessionId⟩ := pair
          refine ⟨hlog, hspec, hworkflowLog, Stage.recovered p spec _ hproc hsome hwaiting hmailbox
            hrunning rfl rfl hempty rfl ?_⟩
          change Holds _ (slot.system.agents ++ [AgentProc.spawned d sessionId])
            (onRecoveryComplete (setting.config spec).workflow (fold slot.system.workflowLog))
          rw [← hheld, hagents]
          exact ⟨rfl, _, rfl, rfl, rfl, rfl⟩
  · have hset : ∃ p p' runs, slot.system.agents[ref]? = some p ∧
        p'.actor.sessionId = p.actor.sessionId ∧ p'.mailbox = p.mailbox ∧ p'.phase = .waiting ∧
        t = { slot.system with agents := slot.system.agents.set ref p', runs := runs } := by
      cases hstep' with
      | agentIdle _ _ p hp _ _ =>
        exact ⟨p, { p with
          state := (slot.system.sessions p.actor.sessionId).state, phase := .waiting },
          slot.system.runs, hp, rfl, rfl, rfl, rfl⟩
      | agentRedriven _ _ p hp _ _ =>
        exact ⟨p, { p with
          actor := { p.actor with running := some slot.system.runs.length }
          state := (slot.system.sessions p.actor.sessionId).state
          phase := .waiting }, _, hp, rfl, rfl, rfl, rfl⟩
    obtain ⟨p, p', runs, hp, hsession, hbox, hphase, rfl⟩ := hset
    cases hstage with
    | down _ _ hagents | spawned _ _ _ _ _ _ _ hagents | idle _ _ _ _ _ _ hagents
    | launched _ _ _ _ _ _ _ _ _ hagents =>
      rw [hagents] at hp
      contradiction
    | recovered q spec' wf hproc hsome' hwaiting hmailbox hrunning hwf hphase' hempty hstate
        hholds =>
      refine ⟨⟨hlog, hspec, hworkflowLog, Stage.recovered q spec' wf hproc hsome' hwaiting hmailbox
        hrunning hwf hphase' hempty hstate ?_⟩, by rw [hproc]; simp⟩
      change Holds wf (slot.system.agents.set ref p')
        (onRecoveryComplete (setting.config spec').workflow (fold slot.system.workflowLog))
      revert hholds
      cases onRecoveryComplete (setting.config spec').workflow (fold slot.system.workflowLog) with
      | none =>
        rintro ⟨_, hagents⟩
        rw [hagents] at hp
        contradiction
      | some pair =>
        rintro ⟨hchild, p₀, hagents, hsession₀, hbox₀, hopen⟩
        rw [hagents, List.getElem?_singleton] at hp
        split at hp
        · rename_i hzero
          cases Option.some.inj hp
          subst hzero
          rw [hagents]
          exact ⟨hchild, p', rfl, hsession.trans hsession₀, hbox.trans hbox₀, by rw [hphase]; rfl⟩
        · contradiction

theorem Inv.step (hs : Sound setting s) (hu : Inv setting s u) {l : DaemonLabel}
    (hl : Recovery u l) (hstep : Daemon.next setting u l = some v) : Inv setting s v := by
  cases daemon_step hstep with
  | booted hnone => exact hu.booted hnone
  | recovered p hp hphase => exact hu.recovered hs hp hphase
  | jobRecovered id launch slot hslot =>
    cases launch with
    | error _ => contradiction
    | ok _ =>
      obtain ⟨hrebuilt, hold, hnew⟩ := (hu.slots id).recover hslot
      exact hu.setJob hrebuilt hold hnew
  | worked id label spec system hspec _ hnext =>
    have hlabel : label = .workflowRecover ∨
        ∃ ref messageId, label = .agentRecover ref messageId := by
      cases label with
      | workflowRecover => exact Or.inl rfl
      | agentRecover ref messageId => exact Or.inr ⟨ref, messageId, rfl⟩
      | _ => contradiction
    obtain ⟨hrebuilt, hold⟩ := (hu.slots id).workflow hspec hlabel hnext
    exact hu.setJob hrebuilt hold hold
  | _ => contradiction

theorem inv_restarted {t : Daemon} (hs : Sound setting s) (h : Restarted setting s t) :
    Inv setting s t :=
  h.1.invariant (Inv setting s) (fun _ _ _ hu hl hstep => hu.step hs hl hstep)
    (inv_crash setting s)

/-- The recovery hooks send nothing: every mailbox is empty. -/
theorem restarted_drained {t : Daemon} (hs : Sound setting s) (h : Restarted setting s t) :
    (∀ p, t.supervisor = some p → p.mailbox = []) ∧
      ∀ id, (∀ p, (t.jobs id).proc = some p → p.mailbox = []) ∧
        ∀ wf, (t.jobs id).system.workflow = some wf → wf.mailbox = [] := by
  have hinv := inv_restarted hs h
  refine ⟨hinv.mailbox, fun id => ?_⟩
  cases (hinv.slots id).stage with
  | down hproc hworkflow _ => simp [hproc, hworkflow]
  | spawned p _ hproc _ _ hmailbox hworkflow _ => simp [hproc, hworkflow, hmailbox]
  | idle p hproc _ hmailbox _ hworkflow _ => simp [hproc, hworkflow, hmailbox]
  | launched p wf hproc _ hmailbox _ hworkflow _ hempty _ =>
    simp [hproc, hworkflow, hmailbox, hempty]
  | recovered p _ wf hproc _ _ hmailbox _ hworkflow _ hempty _ _ =>
    simp [hproc, hworkflow, hmailbox, hempty]

/-- A workflow that recovered to Running holds the agent of its current session. -/
theorem holds_driven {wf : Workflow} {proc : WorkflowProc} {agents : List AgentProc}
    {log : List WorkflowDomainEvent} (hmanned : Manned wf log)
    (hrunning : (fold log).status = .running)
    (hholds : Holds proc agents (onRecoveryComplete wf (fold log))) :
    ∃ p, proc.child = some 0 ∧ agents[0]? = some p ∧
      (fold log).currentSessionId = some p.actor.sessionId ∧ p.phase.isStopped = false := by
  obtain ⟨agentName, sessionId, hagent, hsession, hspawnable⟩ := hmanned hrunning
  obtain ⟨d, hspawned⟩ := onRecoveryComplete_running hrunning hsession hagent hspawnable
  rw [hspawned] at hholds
  obtain ⟨hchild, p, rfl, hsame, _, hopen⟩ := hholds
  exact ⟨p, hchild, rfl, by rw [hsame]; exact hsession, hopen⟩

/-- A slot whose recovery is complete is driven exactly if both its journals are running. -/
theorem driven_iff {old slot : JobSlot} (hsound : SlotSound setting old)
    (h : Rebuilt setting old slot) (hup : slot.proc ≠ none)
    (hproc : ∀ p, slot.proc = some p → p.phase.isRecovering = false)
    (hworkflow : ∀ wf, slot.system.workflow = some wf → wf.phase.isRecovering = false) :
    Driven slot ↔ JournalsRunning old := by
  obtain ⟨hlog, hspec, hworkflowLog, hstage⟩ := h
  unfold JournalsRunning
  rw [← hlog, ← hworkflowLog]
  cases hstage with
  | down hnone _ _ => exact absurd hnone hup
  | spawned p _ hsome _ hphase _ _ _ =>
    have hnot := hproc p hsome
    rw [hphase] at hnot
    contradiction
  | idle p _ _ _ hidle hnone _ =>
    constructor
    · rintro ⟨wf, _, _, hwf, _⟩
      rw [hnone] at hwf
      contradiction
    · rintro ⟨hrunning, _⟩
      exact absurd hrunning hidle
  | launched p wf _ _ _ _ hwf hphase _ _ =>
    have hnot := hworkflow wf hwf
    rw [hphase] at hnot
    contradiction
  | recovered p spec wf _ hsome _ _ hrunning hwf hphase _ hstate hholds =>
    constructor
    · rintro ⟨wf', _, _, hwf', _, hstatus, _⟩
      cases Option.some.inj (hwf.symm.trans hwf')
      exact ⟨hrunning, hstate ▸ hstatus⟩
    · rintro ⟨_, hstatus⟩
      have hmanned := (hsound.staffed spec (hspec.symm.trans hsome)).1
      rw [← hworkflowLog] at hmanned
      obtain ⟨p', hchild, hagent, hsession, hopen⟩ := holds_driven hmanned hstatus hholds
      exact ⟨wf, 0, p', hwf, by rw [hphase]; rfl, hstate ▸ hstatus, hchild, hagent,
        hstate ▸ hsession, hopen⟩

theorem toSpawn_running {log : List SupervisorEvent} {id : JobId}
    (h : (row log id).map JobRecord.status = some .running) :
    ∃ spec, SupervisorActor.toSpawn (SupervisorActor.fold log) id = some spec := by
  obtain ⟨record, hrow, hstatus⟩ := Option.map_eq_some_iff.mp h
  refine ⟨record.spec, ?_⟩
  unfold SupervisorActor.toSpawn
  rw [show (SupervisorActor.fold log).jobs.lookup id = some record from hrow]
  simp [hstatus, SupervisorActor.isTerminal]

/-- A job listed as Running is driven after a restart exactly if its own journal and its
workflow's fold to Running when the process dies. -/
theorem listed_driven_iff (setting : Setting) (s t : Daemon) (id : JobId)
    (hrun : Machine.Run (Daemon.next setting) Machine.free Daemon.init s)
    (hrestart : Restarted setting s t) :
    (ListedRunning t id → Driven (t.jobs id)) ↔
      (ListedRunning s id → JournalsRunning (s.jobs id)) := by
  have hsound := sound_reachable hrun
  have hinv := inv_restarted hsound hrestart
  obtain ⟨⟨p, hp, hphase⟩, hjobs, hworkflows, _⟩ := hrestart.2
  unfold ListedRunning
  rw [hinv.log]
  refine forall_congr' (fun hlisted => ?_)
  obtain ⟨spec, hspawn⟩ := toSpawn_running hlisted
  exact driven_iff (hsound.slots id) (hinv.slots id) (hinv.up p hp hphase id spec hspawn)
    (hjobs id) (hworkflows id)

def soloSetting : Setting := ⟨fun _ => true, fun _ _ => .ok .null, .inMemory, 256⟩

def soloSpec : JobSpec := ⟨(solo .inMemory).workflow.definition, "solo", "/tmp", "go"⟩

def submitting : List DaemonLabel :=
  [.boot, .supervisorRecover, .request (.submit soloSpec 0), .supervisorHandle,
    .supervisorPersist true]

def failing : List DaemonLabel :=
  submitting ++ [.jobRecover 0 (.ok ()), .jobHandle 0 (.error "no runtime")]

def starting : List DaemonLabel :=
  [.jobRecover 0 (.ok ()), .jobHandle 0 (.ok ()), .jobPersist 0 true,
    .workflow 0 .workflowRecover, .workflow 0 .workflowHandle, .workflow 0 (.workflowPersist true)]

def restarting : List DaemonLabel := [.boot, .supervisorRecover, .jobRecover 0 (.ok ())]

def redriving : List DaemonLabel :=
  [.workflow 0 .workflowRecover, .workflow 0 (.agentRecover 0 "m")]

def startedJob : Daemon :=
  Machine.final (Daemon.next soloSetting) Machine.free Daemon.init (submitting ++ starting)

def startedJobRestarted : Daemon :=
  Machine.final (Daemon.next soloSetting) Recovery startedJob.crash (restarting ++ redriving)

theorem restarted_startedJob : Restarted soloSetting startedJob startedJobRestarted := by
  refine ⟨Machine.run_final _ (by decide +kernel),
    recovered_of_settled (by decide +kernel) (fun id => ?_)⟩
  cases id with
  | zero => decide +kernel
  | succ _ => rfl

theorem listed_driven_startedJob :
    (ListedRunning startedJobRestarted 0 → Driven (startedJobRestarted.jobs 0)) ↔
      (ListedRunning startedJob 0 → JournalsRunning (startedJob.jobs 0)) :=
  listed_driven_iff soloSetting startedJob startedJobRestarted 0
    (Machine.run_final _ (by decide +kernel)) restarted_startedJob

def submittedJob : Daemon :=
  Machine.final (Daemon.next soloSetting) Machine.free Daemon.init submitting

def submittedJobRestarted : Daemon :=
  Machine.final (Daemon.next soloSetting) Recovery submittedJob.crash restarting

theorem restarted_submittedJob : Restarted soloSetting submittedJob submittedJobRestarted := by
  refine ⟨Machine.run_final _ (by decide +kernel),
    recovered_of_settled (by decide +kernel) (fun id => ?_)⟩
  cases id with
  | zero => decide +kernel
  | succ _ => rfl

/-- A crash between the registry's write and the job's leaves a job that nothing drives. -/
theorem submitted_job_orphaned :
    ¬ ∀ (setting : Setting) (s t : Daemon) (id : JobId),
      Machine.Run (Daemon.next setting) Machine.free Daemon.init s → Restarted setting s t →
        ListedRunning t id → Driven (t.jobs id) := by
  intro h
  obtain ⟨wf, _, _, hwf, _⟩ := h soloSetting submittedJob submittedJobRestarted 0
    (Machine.run_final _ (by decide +kernel)) restarted_submittedJob (by decide +kernel)
  have hnone : (submittedJobRestarted.jobs 0).system.workflow = none := rfl
  rw [hnone] at hwf
  contradiction

end October.OrphanedJobs
