import October.DaemonSteps
import October.WorkflowInvariants

/-!
Invariants of every run of the daemon: a running workflow names an agent that can be
spawned, the registry lists a job with the spec its actors were spawned with, and job
ids are drawn once.
-/
namespace October.SupervisorInvariants

open WorkflowActor WorkflowInvariants

/-- If the journal folds to Running, its current agent can be spawned. -/
def Manned (wf : Workflow) (log : List WorkflowDomainEvent) : Prop :=
  (fold log).status = .running → ∃ agentName sessionId,
    (fold log).currentAgent = some agentName ∧ (fold log).currentSessionId = some sessionId ∧
      spawnable wf agentName = true

def Staffed (wf : Workflow) (s : System) : Prop :=
  Manned wf s.workflowLog ∧ Manned wf (record s)

section Workflow

variable {cfg : Config} {s t : System}

theorem manned_nil (wf : Workflow) : Manned wf [] := fun h => by contradiction

theorem handled_manned {wf : Workflow} {fresh : Fresh} {child : Option ActorRef}
    {state : WorkflowState} {command : WorkflowCommand} {reply : Reply}
    (h : Handled wf fresh child state command reply) {log : List WorkflowDomainEvent}
    (hlog : Manned wf log) : Manned wf (log ++ reply.effect.events) := by
  cases h with
  | started input d hspawnable =>
    intro _
    rw [fold_append]
    exact ⟨_, _, rfl, rfl, hspawnable.spawnable⟩
  | transitioned sessionId output source target condition d _ hspawnable =>
    intro _
    rw [fold_append]
    exact ⟨_, _, rfl, rfl, hspawnable.spawnable⟩
  | forked source message agentName d _ _ hspawnable _ =>
    intro _
    rw [fold_append]
    exact ⟨_, _, rfl, rfl, hspawnable.spawnable⟩
  | failed _ _ _ _ _ | finished _ _ _ | cancelled | suspended _ _ _ | paused _ _ _ _ =>
    intro hrunning
    rw [fold_append] at hrunning
    contradiction
  | stale _ _ _ _ | unresumed _ | unforked _ _ | resumed _ _ _ _ _
  | respawned _ _ _ _ _ _ _ _ _ _ =>
    change Manned wf (log ++ [])
    rw [List.append_nil]
    exact hlog

theorem Staffed.step (hs : Staffed cfg.workflow s) {l : Label} (hstep : Step cfg s l t) :
    Staffed cfg.workflow t := by
  obtain ⟨hlog, hrecord⟩ := hs
  have hframe := step_frame hstep
  cases hstep with
  | launched kickoff _ _ => exact ⟨hlog, by simpa [record] using hlog⟩
  | recovered wf spawned _ _ _ =>
    have hsame : (s.spawns spawned).workflowLog = s.workflowLog := by cases spawned <;> rfl
    refine ⟨by rw [hsame]; exact hlog, ?_⟩
    simpa [record, hsame] using hlog
  | handled wf command rest reply channel hwf hphase hmailbox hreply =>
    have hmanned := handled_manned (hreply ▸ handleCommand_handled command) hlog
    exact ⟨hlog, by simpa [record, System.answered] using hmanned⟩
  | persisted wf effect events ok hwf hphase hevents =>
    have hrecords : record s = s.workflowLog ++ effect.events := by simp [record, hwf, hphase]
    have hmanned : Manned cfg.workflow (s.workflowLog ++ events) := by
      subst hevents
      cases ok with
      | true => exact hrecords ▸ hrecord
      | false => simpa using hlog
    exact ⟨hmanned, by simpa [record] using hmanned⟩
  | crashed => exact ⟨hlog, by simpa [record, System.crash] using hlog⟩
  | _ =>
    have hframe' := hframe rfl
    unfold Staffed
    rw [hframe'.log, record_frame hframe']
    exact ⟨hlog, hrecord⟩

theorem Staffed.crash (hs : Staffed cfg.workflow s) : Staffed cfg.workflow s.crash :=
  hs.step Step.crashed

end Workflow

open Daemon

def registryRecord (d : Daemon) : List SupervisorEvent :=
  d.log ++ (d.supervisor.map (fun p => p.phase.events)).getD []

def row (log : List SupervisorEvent) (id : JobId) : Option JobRecord :=
  (SupervisorActor.fold log).jobs.lookup id

structure SlotSound (setting : Setting) (slot : JobSlot) : Prop where
  staffed : ∀ spec, slot.spec = some spec → Staffed (setting.config spec).workflow slot.system
  unused : slot.spec = none → slot.system.workflowLog = [] ∧ slot.system.workflow = none

structure Sound (setting : Setting) (d : Daemon) : Prop where
  slots : ∀ id, SlotSound setting (d.jobs id)
  fresh : ∀ id, d.nextJob ≤ id → (d.jobs id).spec = none
  stored : ∀ id record, row d.log id = some record → (d.jobs id).spec = some record.spec
  recorded : ∀ id record, row (registryRecord d) id = some record →
    (d.jobs id).spec = some record.spec

section Rows

variable {state : SupervisorState} {id : JobId} {record : JobRecord}

/-- A row keeps the spec it was submitted with. -/
theorem lookup_applyEvent {e : SupervisorEvent}
    (h : (SupervisorActor.applyEvent state e).jobs.lookup id = some record) :
    (∃ old, state.jobs.lookup id = some old ∧ old.spec = record.spec) ∨
      ∃ submittedAt, e = .jobSubmitted id record.spec submittedAt := by
  cases e with
  | jobSubmitted id' spec submittedAt =>
    by_cases hid : id = id'
    · subst hid
      rw [SupervisorActor.applyEvent, AList.lookup_insert] at h
      cases Option.some.inj h
      exact Or.inr ⟨submittedAt, rfl⟩
    · rw [SupervisorActor.applyEvent, AList.lookup_insert_ne hid] at h
      exact Or.inl ⟨record, h, rfl⟩
  | jobStatusChanged id' status =>
    unfold SupervisorActor.applyEvent at h
    dsimp only at h
    split at h
    · exact Or.inl ⟨record, h, rfl⟩
    · rename_i old hold
      by_cases hid : id = id'
      · subst hid
        rw [AList.lookup_insert] at h
        cases Option.some.inj h
        exact Or.inl ⟨old, hold, rfl⟩
      · rw [AList.lookup_insert_ne hid] at h
        exact Or.inl ⟨record, h, rfl⟩
  | jobRemoved id' =>
    by_cases hid : id = id'
    · subst hid
      rw [SupervisorActor.applyEvent, AList.lookup_erase] at h
      contradiction
    · rw [SupervisorActor.applyEvent, AList.lookup_erase_ne hid] at h
      exact Or.inl ⟨record, h, rfl⟩

theorem row_append {log events : List SupervisorEvent} (h : row (log ++ events) id = some record) :
    (∃ old, row log id = some old ∧ old.spec = record.spec) ∨
      ∃ submittedAt, .jobSubmitted id record.spec submittedAt ∈ events := by
  induction events using List.reverseRecOn generalizing record with
  | nil => exact Or.inl ⟨record, by simpa using h, rfl⟩
  | append_singleton events e ih =>
    have hstep : row (log ++ (events ++ [e])) id =
        (SupervisorActor.applyEvent (SupervisorActor.fold (log ++ events)) e).jobs.lookup id := by
      rw [← List.append_assoc, row, SupervisorActor.fold, List.foldl_append]
      rfl
    rw [hstep] at h
    rcases lookup_applyEvent h with ⟨old, hold, hspec⟩ | ⟨submittedAt, rfl⟩
    · rw [← hspec]
      rcases ih hold with ⟨older, holder, hspec'⟩ | ⟨submittedAt, hmem⟩
      · exact Or.inl ⟨older, holder, hspec'⟩
      · exact Or.inr ⟨submittedAt, List.mem_append_left _ hmem⟩
    · exact Or.inr ⟨submittedAt, by simp⟩

end Rows

section Slots

variable {setting : Setting} {slot : JobSlot} {d d' : Daemon}

theorem slotSound_empty : SlotSound setting JobSlot.empty :=
  ⟨fun spec h => by contradiction, fun _ => ⟨rfl, rfl⟩⟩

/-- Only the workflow system and the spec of a slot matter. -/
theorem SlotSound.congr {slot' : JobSlot} (h : SlotSound setting slot)
    (hspec : slot'.spec = slot.spec) (hsystem : slot'.system = slot.system) :
    SlotSound setting slot' := by
  constructor
  · rw [hspec, hsystem]
    exact h.staffed
  · rw [hspec, hsystem]
    exact h.unused

theorem SlotSound.step (h : SlotSound setting slot) {spec : JobSpec} {l : Label} {t : System}
    (hspec : slot.spec = some spec) (hstep : Step (setting.config spec) slot.system l t) :
    SlotSound setting { slot with system := t } := by
  refine ⟨fun spec' hspec' => ?_, fun hnone => ?_⟩
  · cases Option.some.inj (hspec.symm.trans hspec')
    exact (h.staffed spec hspec).step hstep
  · have hnone' : slot.spec = none := hnone
    rw [hspec] at hnone'
    contradiction

theorem SlotSound.spawn (h : SlotSound setting slot) {spec : JobSpec}
    (hspec : slot.spec = none ∨ slot.spec = some spec) : SlotSound setting (slot.spawn spec) := by
  refine ⟨fun spec' hspec' => ?_, fun hnone => by contradiction⟩
  cases Option.some.inj hspec'
  rcases hspec with hnone | hsome
  · obtain ⟨hlog, hworkflow⟩ := h.unused hnone
    refine ⟨?_, ?_⟩
    · change Manned _ slot.system.workflowLog
      rw [hlog]
      exact manned_nil _
    · change Manned _ (record slot.system)
      rw [record, hlog, hworkflow]
      exact manned_nil _
  · exact h.staffed spec hsome

theorem SlotSound.launch (h : SlotSound setting slot) (kickoff : Option Kickoff) :
    SlotSound setting (slot.launch kickoff) := by
  unfold JobSlot.launch
  split
  · rename_i kickoff spec hspec
    cases hlaunch : slot.system.launch (kickoff.command spec.input) with
    | none => exact h
    | some t =>
      unfold System.launch at hlaunch
      split at hlaunch
      · contradiction
      · rename_i hnone
        cases Option.some.inj hlaunch
        refine h.step hspec (Step.launched (kickoff.command spec.input) ?_ hnone)
        cases kickoff <;> simp [Kickoff.command, operator]
  · exact h

/-- A job actor sends its workflow operators' commands only. -/
theorem told_operator {launch : Except String Unit} {holds : Bool} {command : JobCommand}
    {told : WorkflowCommand}
    (h : (JobActor.handleCommand launch holds command).told = some told) :
    operator told = true := by
  unfold JobActor.handleCommand at h
  cases command with
  | start =>
    cases launch <;> contradiction
  | resume message =>
    dsimp only at h
    split at h
    · cases Option.some.inj h
      rfl
    · cases launch <;> contradiction
  | stop =>
    dsimp only at h
    split at h
    · cases Option.some.inj h
      rfl
    · contradiction
  | workflowEvent notification => cases notification <;> contradiction
  | _ => contradiction

theorem SlotSound.tellWorkflow (h : SlotSound setting slot) {told : Option WorkflowCommand}
    (htold : ∀ command, told = some command → operator command = true) :
    SlotSound setting (slot.tellWorkflow told) := by
  unfold JobSlot.tellWorkflow
  cases told with
  | none => exact h
  | some command =>
    rcases Option.eq_none_or_eq_some slot.spec with hspec | ⟨spec, hspec⟩
    · refine ⟨fun spec hspec' => ?_, fun _ => ?_⟩
      · have hspec'' : slot.spec = some spec := hspec'
        rw [hspec] at hspec''
        contradiction
      · obtain ⟨hlog, hworkflow⟩ := h.unused hspec
        exact ⟨hlog, by simp [System.tellWorkflow, hworkflow]⟩
    · exact h.step hspec (Step.delivered command (htold command rfl))

theorem SlotSound.recover (h : SlotSound setting slot) {launch : Except String Unit}
    {slot' : JobSlot} (hrecover : slot.recover launch = some slot') :
    SlotSound setting slot' := by
  obtain ⟨p, _, _, rfl⟩ := JobSlot.recover_cases hrecover
  exact (h.launch _).congr rfl rfl

theorem SlotSound.handle (h : SlotSound setting slot) {launch : Except String Unit}
    {slot' : JobSlot} {status : Option JobStatus}
    (hhandle : slot.handle launch = some (slot', status)) : SlotSound setting slot' := by
  obtain ⟨p, command, rest, _, _, _, rfl, _⟩ := JobSlot.handle_cases hhandle
  exact ((h.launch _).tellWorkflow (fun _ => told_operator)).congr rfl rfl

theorem SlotSound.persist (h : SlotSound setting slot) {ok : Bool} {slot' : JobSlot}
    (hpersist : slot.persist ok = some slot') : SlotSound setting slot' := by
  obtain ⟨p, effect, events, _, _, _, rfl⟩ := JobSlot.persist_cases hpersist
  exact h.congr rfl rfl

theorem SlotSound.forward (h : SlotSound setting slot) {slot' : JobSlot}
    (hforward : slot.forward = some slot') : SlotSound setting slot' := by
  obtain ⟨n, rest, _, rfl⟩ := JobSlot.forward_cases hforward
  exact ⟨h.staffed, h.unused⟩

theorem SlotSound.crash (h : SlotSound setting slot) : SlotSound setting slot.crash := by
  refine ⟨fun spec hspec => (h.staffed spec hspec).crash, fun hnone => ⟨(h.unused hnone).1, rfl⟩⟩

/-- Steps within one slot that leave its spec as it is. -/
theorem Sound.setJob (hd : Sound setting d) {id : JobId} (hslot : SlotSound setting slot)
    (hspec : slot.spec = (d.jobs id).spec) : Sound setting (d.setJob id slot) := by
  have hsame : ∀ i, ((d.setJob id slot).jobs i).spec = (d.jobs i).spec :=
    setJob_all (fun i slot => slot.spec = (d.jobs i).spec) hspec (fun _ _ => rfl)
  exact ⟨setJob_all (fun _ slot => SlotSound setting slot) hslot (fun i _ => hd.slots i),
    fun i hle => (hsame i).trans (hd.fresh i hle),
    fun i record h => (hsame i).trans (hd.stored i record h),
    fun i record h => (hsame i).trans (hd.recorded i record h)⟩

theorem registryRecord_tell (command : SupervisorCommand) (d : Daemon) :
    registryRecord (d.tellSupervisor command) = registryRecord d := by
  unfold registryRecord Daemon.tellSupervisor
  cases d.supervisor with
  | none => rfl
  | some p =>
    simp only [Option.map_some, SupervisorProc.tell]
    split <;> rfl

theorem Sound.report (hd : Sound setting d) (id : JobId) (status : Option JobStatus) :
    Sound setting (d.report id status) := by
  unfold Daemon.report
  cases status with
  | none => exact hd
  | some status =>
    exact ⟨hd.slots, hd.fresh, hd.stored, by rw [registryRecord_tell]; exact hd.recorded⟩

theorem SlotSound.tell (h : SlotSound setting slot) (command : JobCommand) :
    SlotSound setting (slot.tell command) := h.congr rfl rfl

/-- Telling children changes no spec. -/
theorem tells_sound (told : List (JobId × JobCommand)) {jobs : JobId → JobSlot}
    (h : ∀ id, SlotSound setting (jobs id)) :
    (∀ id, SlotSound setting (tells told jobs id)) ∧
      ∀ id, (tells told jobs id).spec = (jobs id).spec := by
  refine ⟨fun id => ?_, fun id => ?_⟩
  · exact tells_kept (SlotSound setting) (fun slot command h => h.tell command) told jobs id (h id)
  · exact tells_kept (fun slot => slot.spec = (jobs id).spec) (fun _ _ h => h) told jobs id rfl

/-- A reply spawns a job at the fresh id and submits it with the same spec, or neither. -/
def Submits (id : JobId) (reply : SupervisorReply) : Prop :=
  (∃ spec submittedAt, reply.spawned = some (id, spec) ∧
    reply.effect = .persist [.jobSubmitted id spec submittedAt]) ∨
  (reply.spawned = none ∧
    ∀ i spec submittedAt, .jobSubmitted i spec submittedAt ∉ reply.effect.events)

theorem handled_submits (id : JobId) (children : List JobId) (state : SupervisorState)
    (command : SupervisorCommand) :
    Submits id (SupervisorActor.handleCommand id children state command) := by
  cases command with
  | submit spec submittedAt => exact Or.inl ⟨spec, submittedAt, rfl, rfl⟩
  | remove jobId =>
    refine Or.inr ?_
    unfold SupervisorActor.handleCommand
    dsimp only
    split
    · exact ⟨rfl, by simp⟩
    · split <;> exact ⟨rfl, by simp⟩
  | _ => exact Or.inr ⟨rfl, by simp [SupervisorActor.handleCommand]⟩

/-- What spawning a submitted job does to the slots. -/
theorem spawns_sound (hd : Sound setting d) {reply : SupervisorReply}
    (hsubmits : Submits d.nextJob reply) :
    (∀ id, SlotSound setting (spawns reply.spawned d.jobs id)) ∧
      (∀ id, id ≠ d.nextJob → (spawns reply.spawned d.jobs id).spec = (d.jobs id).spec) ∧
      ∀ id spec submittedAt, .jobSubmitted id spec submittedAt ∈ reply.effect.events →
        (spawns reply.spawned d.jobs id).spec = some spec := by
  rcases hsubmits with ⟨spec, submittedAt, hspawned, heffect⟩ | ⟨hspawned, hnone⟩
  · rw [hspawned, heffect]
    have hfresh := hd.fresh d.nextJob (Nat.le_refl _)
    refine ⟨fun id => ?_, fun id hid => ?_, fun id spec' submittedAt' hmem => ?_⟩
    · unfold spawns
      by_cases hid : id = d.nextJob
      · subst hid
        simpa using (hd.slots d.nextJob).spawn (Or.inl hfresh)
      · simpa [Function.update_of_ne hid] using hd.slots id
    · simp [spawns, Function.update_of_ne hid]
    · rw [CommandEffect.events_persist, List.mem_singleton] at hmem
      cases hmem
      simp [spawns, JobSlot.spawn]
  · rw [hspawned]
    exact ⟨hd.slots, fun _ _ => rfl, fun id spec submittedAt hmem =>
      absurd hmem (hnone id spec submittedAt)⟩

theorem Sound.answered (hd : Sound setting d) {reply : SupervisorReply} {p : SupervisorProc}
    (hsubmits : Submits d.nextJob reply) (answers : List SupervisorAnswer)
    (hphase : p.phase = Phase.handled reply.effect) :
    Sound setting { d with
      supervisor := some p
      jobs := tells reply.told (spawns reply.spawned d.jobs)
      nextJob := d.nextJob + 1
      answers := answers } := by
  obtain ⟨hslots, hkept, hsubmitted⟩ := spawns_sound hd hsubmits
  obtain ⟨hsound, hspec⟩ := tells_sound reply.told hslots
  have hold : ∀ id record, row d.log id = some record →
      (spawns reply.spawned d.jobs id).spec = some record.spec := by
    intro id record hrow
    have hspec' := hd.stored id record hrow
    have hne : id ≠ d.nextJob := by
      rintro rfl
      rw [hd.fresh d.nextJob (Nat.le_refl _)] at hspec'
      contradiction
    exact (hkept id hne).trans hspec'
  refine ⟨hsound, fun id hle => ?_, fun id record hrow => (hspec id).trans (hold id record hrow),
    fun id record hrow => (hspec id).trans ?_⟩
  · have hlt : d.nextJob < id := hle
    exact (hspec id).trans ((hkept id (Nat.ne_of_gt hlt)).trans (hd.fresh id (Nat.le_of_lt hlt)))
  · have hrow' : row (d.log ++ reply.effect.events) id = some record := by
      simpa [registryRecord, hphase] using hrow
    rcases row_append hrow' with ⟨old, hrow'', hsame⟩ | ⟨submittedAt, hmem⟩
    · rw [← hsame]
      exact hold id old hrow''
    · exact hsubmitted id record.spec submittedAt hmem

/-- A job that recovery spawns is listed with the spec it is spawned with. -/
theorem toSpawn_listed {state : SupervisorState} {id : JobId} {spec : JobSpec}
    (h : SupervisorActor.toSpawn state id = some spec) :
    ∃ record, state.jobs.lookup id = some record ∧ record.spec = spec ∧
      SupervisorActor.isTerminal record.status = false := by
  unfold SupervisorActor.toSpawn at h
  split at h
  · contradiction
  · rename_i record hrow
    split at h
    · contradiction
    · rename_i hlive
      exact ⟨record, hrow, Option.some.inj h, by simpa using hlive⟩

theorem Sound.spawnable (hd : Sound setting d) {id : JobId} {spec : JobSpec}
    (h : SupervisorActor.toSpawn (SupervisorActor.fold d.log) id = some spec) :
    (d.jobs id).spec = some spec := by
  obtain ⟨record, hrow, rfl, _⟩ := toSpawn_listed h
  exact hd.stored id record hrow

theorem Sound.recovered (hd : Sound setting d) (p : SupervisorProc) :
    Sound setting (d.recovered p) := by
  have hspec : ∀ id, (respawned (SupervisorActor.fold d.log) d.jobs id).spec =
      (d.jobs id).spec := by
    intro id
    unfold respawned
    split
    · rfl
    · rename_i spec hspawn
      exact (hd.spawnable hspawn).symm
  refine ⟨fun id => ?_, fun id hle => (hspec id).trans (hd.fresh id hle),
    fun id record h => (hspec id).trans (hd.stored id record h), fun id record h => ?_⟩
  · change SlotSound setting (respawned (SupervisorActor.fold d.log) d.jobs id)
    unfold respawned
    split
    · exact hd.slots id
    · rename_i spec hspawn
      exact (hd.slots id).spawn (Or.inr (hd.spawnable hspawn))
  · refine (hspec id).trans (hd.stored id record ?_)
    simpa [registryRecord, Daemon.recovered] using h

theorem Sound.persisted (hd : Sound setting d) {p : SupervisorProc}
    {effect : CommandEffect SupervisorEvent} {events : List SupervisorEvent} {ok : Bool}
    (hp : d.supervisor = some p) (hphase : p.phase = .performing effect)
    (hevents : events = if ok then effect.events else []) :
    Sound setting (d.persisted p effect events) := by
  have hrecord : registryRecord d = d.log ++ effect.events := by
    simp [registryRecord, hp, hphase]
  have hrows : ∀ id record, row (d.log ++ events) id = some record →
      (d.jobs id).spec = some record.spec := by
    subst hevents
    cases ok with
    | true => exact hrecord ▸ hd.recorded
    | false => simpa using hd.stored
  exact ⟨hd.slots, hd.fresh, hrows, by simpa [registryRecord, Daemon.persisted] using hrows⟩

theorem Sound.step (hd : Sound setting d) {l : DaemonLabel}
    (hstep : Daemon.next setting d l = some d') : Sound setting d' := by
  cases daemon_step hstep with
  | booted _ =>
    exact ⟨hd.slots, hd.fresh, hd.stored, by simpa [registryRecord, Daemon.booted] using hd.stored⟩
  | requested command _ =>
    exact ⟨hd.slots, hd.fresh, hd.stored, by rw [registryRecord_tell]; exact hd.recorded⟩
  | recovered p _ _ => exact hd.recovered p
  | handled p command rest reply _ _ _ hreply =>
    have hsubmits := handled_submits d.nextJob p.children p.state command
    rw [← hreply] at hsubmits
    exact hd.answered hsubmits _ rfl
  | persisted p effect events ok hp hphase hevents => exact hd.persisted hp hphase hevents
  | jobRecovered id launch slot hslot =>
    refine hd.setJob ((hd.slots id).recover hslot) ?_
    obtain ⟨p, _, _, rfl⟩ := JobSlot.recover_cases hslot
    exact JobSlot.recovered_spec _ p (d.jobs id)
  | jobHandled id launch slot status hslot =>
    refine (hd.setJob ((hd.slots id).handle hslot) ?_).report id status
    obtain ⟨p, command, rest, _, _, _, rfl, _⟩ := JobSlot.handle_cases hslot
    exact JobSlot.answered_spec p rest _ (d.jobs id)
  | jobPersisted id ok slot hslot =>
    refine hd.setJob ((hd.slots id).persist hslot) ?_
    obtain ⟨p, effect, events, _, _, _, rfl⟩ := JobSlot.persist_cases hslot
    rfl
  | forwarded id slot hslot =>
    refine hd.setJob ((hd.slots id).forward hslot) ?_
    obtain ⟨n, rest, _, rfl⟩ := JobSlot.forward_cases hslot
    rfl
  | worked id label spec system hspec _ hnext =>
    exact hd.setJob ((hd.slots id).step hspec (next_step hnext)) rfl
  | crashed =>
    refine ⟨fun id => (hd.slots id).crash, hd.fresh, hd.stored, fun id record h => ?_⟩
    exact hd.stored id record (by simpa [registryRecord, Daemon.crash] using h)

theorem sound_init : Sound setting Daemon.init :=
  ⟨fun _ => slotSound_empty, fun _ _ => rfl, fun _ _ h => by contradiction,
    fun _ _ h => by contradiction⟩

theorem sound_reachable {ok : Daemon → DaemonLabel → Prop}
    (h : Machine.Run (Daemon.next setting) ok Daemon.init d) : Sound setting d :=
  h.invariant (Sound setting) (fun _ _ _ hs _ hstep => hs.step hstep) sound_init

end Slots

end October.SupervisorInvariants
