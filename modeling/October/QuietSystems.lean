import October.WorkflowInvariants
import October.SupervisorSystem

/-!
Workflow systems that journal nothing more. Nothing tells the workflow and its agents
that their job is torn down, so they go on with what is queued, pending or in flight. A
quiet system has only what its handlers ignore: commands for another state or session,
cancels, and ends of runs that the workflow does not hear of. It stays quiet and its
journals stay as they are.
-/
namespace October.QuietSystems

open WorkflowActor WorkflowInvariants

def ignores (state : WorkflowState) : WorkflowCommand → Bool
  | .start _ => false
  | .cancel => false
  | .resume _ => !resumable state
  | .fork _ _ => state.status != .suspended
  | .agentConcluded sessionId _ => state.currentSessionId != some sessionId
  | .agentAsked sessionId _ _ => state.currentSessionId != some sessionId
  | .agentFailed sessionId _ _ => state.currentSessionId != some sessionId

def silenced (s : System) : Bool := s.workflow.all (fun wf => wf.phase.isStopped)

def heeds (s : System) (sessionId : Uuid) : Bool :=
  !silenced s && (fold s.workflowLog).currentSessionId == some sessionId

/-- An agent's handler of the command has nothing to persist, nor has anybody for it. -/
def harmless (heeded : Bool) : AgentCommand → Bool
  | .run _ => false
  | .injectToolResult _ _ => false
  | .cancel => true
  | .persistProgress events => events.isEmpty
  | .runFinished .cancelled => false
  | .runFinished _ => !heeded

def emptySession (s : System) (sessionId : Uuid) : Bool :=
  (s.sessions sessionId).state.messages.isEmpty

/-- A workflow that has nothing to persist, to re-drive or to heed. -/
def restful (cfg : Config) (s : System) (wf : WorkflowProc) : Bool :=
  wf.phase.events.isEmpty && wf.mailbox.all (ignores (fold s.workflowLog)) &&
    (!wf.phase.isRecovering ||
      (onRecoveryComplete cfg.workflow (fold s.workflowLog)).all (fun d => emptySession s d.2))

def idle (s : System) (p : AgentProc) : Bool :=
  p.phase.events.isEmpty && p.mailbox.all (harmless (heeds s p.actor.sessionId)) &&
    (!p.phase.isRecovering || emptySession s p.actor.sessionId)

def spent (s : System) (task : RunTask) : Bool :=
  task.finished || (s.agents[task.agent]?).any (fun p => p.phase.isStopped)

def quiet (cfg : Config) (s : System) : Bool :=
  s.workflow.all (fun wf => wf.phase.isStopped || restful cfg s wf) &&
    s.agents.all (fun p => p.phase.isStopped || idle s p) && s.runs.all (spent s)

structure Quiet (cfg : Config) (s : System) : Prop where
  workflow : ∀ wf, s.workflow = some wf → wf.phase.isStopped = true ∨ restful cfg s wf = true
  agents : ∀ p ∈ s.agents, p.phase.isStopped = true ∨ idle s p = true
  runs : ∀ task ∈ s.runs, spent s task = true

structure SameJournals (s t : System) : Prop where
  workflowLog : t.workflowLog = s.workflowLog
  base : ∀ sessionId, (t.sessions sessionId).base = (s.sessions sessionId).base
  events : ∀ sessionId, (t.sessions sessionId).events = (s.sessions sessionId).events

variable {cfg : Config} {s t : System}

theorem quiet_iff : quiet cfg s = true ↔ Quiet cfg s := by
  simp only [quiet, Bool.and_eq_true, List.all_eq_true]
  constructor
  · rintro ⟨⟨hworkflow, hagents⟩, hruns⟩
    refine ⟨fun wf hwf => ?_, fun p hp => by simpa using hagents p hp, hruns⟩
    simpa [hwf] using hworkflow
  · intro h
    refine ⟨⟨?_, fun p hp => by simpa using h.agents p hp⟩, h.runs⟩
    cases hwf : s.workflow with
    | none => rfl
    | some wf => simpa using h.workflow wf hwf

theorem SameJournals.refl (s : System) : SameJournals s s :=
  ⟨rfl, fun _ => rfl, fun _ => rfl⟩

theorem SameJournals.emptySession (h : SameJournals s t) (sessionId : Uuid) :
    emptySession t sessionId = emptySession s sessionId := by
  unfold QuietSystems.emptySession SessionLog.state
  rw [h.base, h.events]

section Handlers

variable {wf : Workflow} {fresh : Fresh} {child : Option ActorRef} {state : WorkflowState}

/-- A Resume that is not handed on is ignored. -/
theorem unresumable_ignored (message : String) (h : resumable state = false) :
    onResume wf fresh child state message = ignored child := by
  unfold onResume resumable at *
  cases hstatus : state.status with
  | awaitingUserInput =>
    rw [hstatus] at h
    simp only [Option.isSome_eq_false_iff, Option.isNone_iff_eq_none] at h
    rw [h]
  | suspended =>
    rw [hstatus] at h
    contradiction
  | pending | running | finished | failed => rfl

theorem handleCommand_ignored {command : WorkflowCommand} (h : ignores state command = true) :
    handleCommand wf fresh child state command = ignored child := by
  cases command with
  | start input | cancel => contradiction
  | resume message => exact unresumable_ignored message (by simpa [ignores] using h)
  | fork source message =>
    have hstatus : state.status ≠ .suspended := by simpa [ignores] using h
    simp only [handleCommand, onFork, if_pos hstatus]
  | agentConcluded sessionId output =>
    have hstale : state.currentSessionId ≠ some sessionId := by simpa [ignores] using h
    simp only [handleCommand, onConcluded, if_pos hstale]
  | agentAsked sessionId toolCallId question =>
    have hstale : state.currentSessionId ≠ some sessionId := by simpa [ignores] using h
    simp only [handleCommand, if_pos hstale]
  | agentFailed sessionId error recoverable =>
    have hstale : state.currentSessionId ≠ some sessionId := by simpa [ignores] using h
    simp only [handleCommand, if_pos hstale]

/-- A report of a session that is not the current one is ignored. -/
theorem stale_ignored {report : WorkflowCommand} {sessionId : Uuid}
    (hreports : report.reports = some sessionId)
    (hstale : state.currentSessionId ≠ some sessionId) : ignores state report = true := by
  cases report with
  | agentConcluded other _ | agentAsked other _ _ | agentFailed other _ _ =>
    cases Option.some.inj hreports
    simpa [ignores] using hstale
  | start _ | cancel | resume _ | fork _ _ => contradiction

end Handlers

section Frame

theorem silenced_some {wf : WorkflowProc} (hwf : s.workflow = some wf) :
    silenced s = wf.phase.isStopped := by
  rw [silenced, hwf, Option.all_some]

/-- With the same journals, the workflow heeds no more sessions once it is silenced. -/
theorem heeds_mono (hlog : t.workflowLog = s.workflowLog)
    (hsilenced : silenced s = true → silenced t = true) {sessionId : Uuid}
    (h : heeds s sessionId = false) : heeds t sessionId = false := by
  unfold heeds at *
  rw [hlog]
  cases hs : silenced s with
  | true => rw [hsilenced hs, Bool.not_true, Bool.false_and]
  | false =>
    rw [hs, Bool.not_false, Bool.true_and] at h
    rw [h, Bool.and_false]

theorem harmless_mono {heeded heeded' : Bool} (hheeded : heeded = false → heeded' = false)
    {command : AgentCommand} (h : harmless heeded command = true) :
    harmless heeded' command = true := by
  cases command with
  | runFinished outcome =>
    cases outcome with
    | cancelled => contradiction
    | completed _ | concluded _ _ | failed _ _ =>
      have hfalse : heeded' = false := hheeded (by simpa [harmless] using h)
      simp [harmless, hfalse]
  | run _ | injectToolResult _ _ => contradiction
  | cancel | persistProgress _ => exact h

theorem idle_iff {p : AgentProc} : idle s p = true ↔ p.phase.events = [] ∧
    (∀ c ∈ p.mailbox, harmless (heeds s p.actor.sessionId) c = true) ∧
      (p.phase.isRecovering = true → emptySession s p.actor.sessionId = true) := by
  simp [idle, and_assoc, or_iff_not_imp_left]

theorem restful_iff {wf : WorkflowProc} : restful cfg s wf = true ↔ wf.phase.events = [] ∧
    (∀ c ∈ wf.mailbox, ignores (fold s.workflowLog) c = true) ∧
      (wf.phase.isRecovering = true → ∀ d sessionId,
        onRecoveryComplete cfg.workflow (fold s.workflowLog) = some (d, sessionId) →
        emptySession s sessionId = true) := by
  simp [restful, and_assoc, or_iff_not_imp_left, Option.all_eq_true]

theorem idle_mono (hsame : SameJournals s t) (hsilenced : silenced s = true → silenced t = true)
    {p : AgentProc} (h : idle s p = true) : idle t p = true := by
  obtain ⟨hevents, hmailbox, hrecovering⟩ := idle_iff.mp h
  refine idle_iff.mpr ⟨hevents, fun c hc => ?_, fun hphase => ?_⟩
  · exact harmless_mono (heeds_mono hsame.workflowLog hsilenced) (hmailbox c hc)
  · rw [hsame.emptySession]
    exact hrecovering hphase

theorem restful_mono (hsame : SameJournals s t) {wf : WorkflowProc}
    (h : restful cfg s wf = true) : restful cfg t wf = true := by
  obtain ⟨hevents, hmailbox, hrecovering⟩ := restful_iff.mp h
  refine restful_iff.mpr ⟨hevents, ?_, fun hphase d sessionId hspawn => ?_⟩
  · rw [hsame.workflowLog]
    exact hmailbox
  · rw [hsame.emptySession]
    rw [hsame.workflowLog] at hspawn
    exact hrecovering hphase d sessionId hspawn

def KeepsStopped (agents agents' : List AgentProc) : Prop :=
  ∀ (ref : ActorRef) (p : AgentProc), agents[ref]? = some p → p.phase.isStopped = true →
    ∃ q : AgentProc, agents'[ref]? = some q ∧ q.phase.isStopped = true

theorem keepsStopped_refl (agents : List AgentProc) : KeepsStopped agents agents :=
  fun _ p hp hstopped => ⟨p, hp, hstopped⟩

theorem keepsStopped_set {agents : List AgentProc} {ref : ActorRef} {p p' : AgentProc}
    (hp : agents[ref]? = some p) (hlive : p.phase.isStopped = false) :
    KeepsStopped agents (agents.set ref p') := by
  intro other q hq hstopped
  refine ⟨q, ?_, hstopped⟩
  have hne : ref ≠ other := by
    rintro rfl
    cases Option.some.inj (hp.symm.trans hq)
    rw [hlive] at hstopped
    contradiction
  rw [List.getElem?_set_ne hne]
  exact hq

theorem keepsStopped_append (agents more : List AgentProc) :
    KeepsStopped agents (agents ++ more) := by
  intro ref p hp hstopped
  refine ⟨p, ?_, hstopped⟩
  rw [List.getElem?_append_left (List.getElem?_eq_some_iff.mp hp).1]
  exact hp

theorem spent_kept {task : RunTask} (h : spent s task = true)
    (hkept : KeepsStopped s.agents t.agents) : spent t task = true := by
  unfold spent at *
  rw [Bool.or_eq_true] at h ⊢
  refine h.imp_right (fun hstopped => ?_)
  obtain ⟨p, hp, hphase⟩ := (Option.any_eq_true _ _).mp hstopped
  obtain ⟨q, hq, hq'⟩ := hkept task.agent p hp hphase
  exact (Option.any_eq_true _ _).mpr ⟨q, hq, hq'⟩

/-- Each agent is an old one or rests, and each run is an old one or is spent. -/
theorem Quiet.frame (h : Quiet cfg s) (hsame : SameJournals s t)
    (hsilenced : silenced s = true → silenced t = true)
    (hworkflow : ∀ wf, t.workflow = some wf → wf.phase.isStopped = true ∨ restful cfg t wf = true)
    (hagents : ∀ p ∈ t.agents, p ∈ s.agents ∨ p.phase.isStopped = true ∨ idle t p = true)
    (hkept : KeepsStopped s.agents t.agents)
    (hruns : ∀ task ∈ t.runs, task ∈ s.runs ∨ spent t task = true) : Quiet cfg t := by
  refine ⟨hworkflow, fun p hp => ?_, fun task htask => ?_⟩
  · rcases hagents p hp with hold | hrests
    · exact (h.agents p hold).imp_right (idle_mono hsame hsilenced)
    · exact hrests
  · rcases hruns task htask with hold | hspent
    · exact spent_kept (h.runs task hold) hkept
    · exact hspent

theorem Quiet.sameWorkflow (h : Quiet cfg s) (hsame : SameJournals s t)
    (hworkflow : t.workflow = s.workflow) :
    ∀ wf, t.workflow = some wf → wf.phase.isStopped = true ∨ restful cfg t wf = true := by
  intro wf hwf
  rw [hworkflow] at hwf
  exact (h.workflow wf hwf).imp_right (restful_mono hsame)

end Frame

section Agents

variable {ref : ActorRef} {p p' : AgentProc}

/-- A command is told to an agent that has stopped. -/
theorem tellAgent_stopped (hp : s.agents[ref]? = some p) (hstopped : p.phase.isStopped = true)
    (command : AgentCommand) : s.tellAgent ref command = s := by
  have hsame : s.agents.modify ref (AgentProc.tell command) = s.agents := by
    apply List.ext_getElem?
    intro i
    rw [getElem?_modify_tell]
    cases hq : s.agents[i]? with
    | none => rfl
    | some q =>
      rw [Option.map_some]
      split
      · rename_i hi
        subst hi
        cases Option.some.inj (hp.symm.trans hq)
        rw [AgentProc.tell, if_pos hstopped]
      · rfl
  rw [System.tellAgent, hsame]

/-- A run that has not ended belongs to an agent that has stopped. -/
theorem Quiet.unfinished (h : Quiet cfg s) {run : ℕ} {task : RunTask}
    (htask : s.runs[run]? = some task) (hlive : task.finished = false) :
    ∃ q, s.agents[task.agent]? = some q ∧ q.phase.isStopped = true := by
  have hspent := h.runs task (List.mem_of_getElem? htask)
  rw [spent, hlive, Bool.false_or] at hspent
  exact (Option.any_eq_true _ _).mp hspent

/-- What a live agent of a quiet system has queued, pending or to re-drive. -/
theorem Quiet.idle (h : Quiet cfg s) (hp : s.agents[ref]? = some p)
    (hlive : p.phase.isStopped = false) : p.phase.events = [] ∧
      (∀ c ∈ p.mailbox, harmless (heeds s p.actor.sessionId) c = true) ∧
        (p.phase.isRecovering = true → emptySession s p.actor.sessionId = true) := by
  rcases h.agents p (List.mem_of_getElem? hp) with hstopped | hidle
  · rw [hlive] at hstopped
    contradiction
  · exact idle_iff.mp hidle

/-- One agent takes a step and rests, or stops; the workflow may be told something that it
ignores. -/
theorem Quiet.agent (h : Quiet cfg s) (hsame : SameJournals s t)
    (hp : s.agents[ref]? = some p) (hlive : p.phase.isStopped = false)
    (hagents : t.agents = s.agents.set ref p')
    (hrests : p'.phase.isStopped = true ∨ QuietSystems.idle t p' = true)
    (hworkflow : t.workflow = s.workflow) (hruns : t.runs = s.runs) : Quiet cfg t := by
  refine h.frame hsame ?_ (h.sameWorkflow hsame hworkflow) (fun q hq => ?_) ?_
    (fun task htask => ?_)
  · unfold silenced
    rw [hworkflow]
    exact fun hsilenced => hsilenced
  · rw [hagents] at hq
    rcases List.mem_or_eq_of_mem_set hq with hold | rfl
    · exact Or.inl hold
    · exact Or.inr hrests
  · rw [hagents]
    exact keepsStopped_set hp hlive
  · rw [hruns] at htask
    exact Or.inl htask

theorem sameJournals_setAgent (s : System) (ref : ActorRef) (p : AgentProc) :
    SameJournals s (s.setAgent ref p) := ⟨rfl, fun _ => rfl, fun _ => rfl⟩

/-- The workflow is told a report that it ignores, if it takes any. -/
theorem Quiet.tellWorkflow (h : Quiet cfg s) {report : WorkflowCommand} {sessionId : Uuid}
    (hreports : report.reports = some sessionId) (hheeds : heeds s sessionId = false) :
    Quiet cfg (s.tellWorkflow report) := by
  have hsame : SameJournals s (s.tellWorkflow report) := ⟨rfl, fun _ => rfl, fun _ => rfl⟩
  refine h.frame hsame ?_ (fun wf hwf => ?_) (fun p hp => Or.inl hp) (keepsStopped_refl _)
    (fun task htask => Or.inl htask)
  · intro hsilenced
    unfold silenced System.tellWorkflow at *
    cases hwf : s.workflow with
    | none => rfl
    | some wf =>
      rw [hwf] at hsilenced
      simpa using hsilenced
  · obtain ⟨old, hold, rfl⟩ := Option.map_eq_some_iff.mp hwf
    cases hstopped : old.phase.isStopped with
    | true =>
      rw [WorkflowProc.tell_phase]
      exact Or.inl hstopped
    | false =>
      refine Or.inr (restful_iff.mpr ?_)
      rcases h.workflow old hold with hstop | hrestful
      · rw [hstopped] at hstop
        contradiction
      · obtain ⟨hevents, hmailbox, hrecovering⟩ := restful_iff.mp hrestful
        rw [WorkflowProc.tell_phase]
        refine ⟨hevents, fun c hc => ?_, hrecovering⟩
        rcases WorkflowProc.mem_tell report old hc with hmem | rfl
        · exact hmailbox c hmem
        · refine stale_ignored hreports (fun hcurrent => ?_)
          have hcurrent' : (fold s.workflowLog).currentSessionId = some sessionId := hcurrent
          rw [heeds, silenced_some hold, hstopped, hcurrent'] at hheeds
          simp at hheeds

end Agents

section Workflow

variable {wf : WorkflowProc}

/-- What a live workflow of a quiet system has queued, pending or to re-drive. -/
theorem Quiet.restful (h : Quiet cfg s) (hwf : s.workflow = some wf)
    (hlive : wf.phase.isStopped = false) : wf.phase.events = [] ∧
      (∀ c ∈ wf.mailbox, ignores (fold s.workflowLog) c = true) ∧
        (wf.phase.isRecovering = true → ∀ d sessionId,
          onRecoveryComplete cfg.workflow (fold s.workflowLog) = some (d, sessionId) →
          emptySession s sessionId = true) := by
  rcases h.workflow wf hwf with hstopped | hrestful
  · rw [hlive] at hstopped
    contradiction
  · exact restful_iff.mp hrestful

/-- The workflow takes a step and rests, or stops, and the agents it spawned rest. -/
theorem Quiet.workflowStep (h : Quiet cfg s) (hsame : SameJournals s t) {wf' : WorkflowProc}
    (hwf : s.workflow = some wf) (hlive : wf.phase.isStopped = false)
    (hwf' : t.workflow = some wf') (hrests : wf'.phase.isStopped = true ∨
      QuietSystems.restful cfg t wf' = true)
    (more : List AgentProc) (hagents : t.agents = s.agents ++ more)
    (hmore : ∀ p ∈ more, QuietSystems.idle t p = true) (hruns : t.runs = s.runs) :
    Quiet cfg t := by
  refine h.frame hsame ?_ (fun q hq => ?_) (fun p hp => ?_) ?_ (fun task htask => ?_)
  · rw [silenced_some hwf, hlive]
    intro hsilenced
    contradiction
  · rw [hwf'] at hq
    cases Option.some.inj hq
    exact hrests
  · rw [hagents] at hp
    exact (List.mem_append.mp hp).imp_right (fun hmem => Or.inr (hmore p hmem))
  · rw [hagents]
    exact keepsStopped_append s.agents more
  · rw [hruns] at htask
    exact Or.inl htask

theorem Quiet.recovered (h : Quiet cfg s) (hwf : s.workflow = some wf)
    (hphase : wf.phase = .recovering) {spawned : Option (WorkflowAgentDef × Uuid)}
    (hspawned : spawned = onRecoveryComplete cfg.workflow (fold s.workflowLog)) :
    Quiet cfg { s.spawns spawned with
      workflow := some { wf with
        state := fold s.workflowLog
        child := spawned.map (fun _ => s.agents.length)
        phase := .waiting } } := by
  obtain ⟨_, hmailbox, hrecovering⟩ := h.restful hwf (by rw [hphase]; rfl)
  have hempty := hrecovering (by rw [hphase]; rfl)
  have hlive : wf.phase.isStopped = false := by
    rw [hphase]
    rfl
  cases hspawn : spawned with
  | none =>
    refine h.workflowStep ⟨rfl, fun _ => rfl, fun _ => rfl⟩ hwf hlive rfl (Or.inr ?_) []
      (List.append_nil _).symm (fun p hp => by contradiction) rfl
    exact restful_iff.mpr ⟨rfl, hmailbox, fun hphase => by contradiction⟩
  | some pair =>
    obtain ⟨d, sessionId⟩ := pair
    refine h.workflowStep ⟨rfl, fun _ => rfl, fun _ => rfl⟩ hwf hlive rfl (Or.inr ?_)
      [AgentProc.spawned d sessionId] rfl (fun p hp => ?_) rfl
    · exact restful_iff.mpr ⟨rfl, hmailbox, fun hphase => by contradiction⟩
    · rw [List.mem_singleton.mp hp]
      refine idle_iff.mpr ⟨rfl, fun c hc => by contradiction, fun _ => ?_⟩
      exact hempty d sessionId (hspawned.symm.trans hspawn)

/-- The workflow takes a command, which it ignores. -/
theorem Quiet.handled (h : Quiet cfg s) (hs : Base s) {command : WorkflowCommand}
    {rest : List WorkflowCommand} {reply : Reply} (channel : List WorkflowNotification)
    (hwf : s.workflow = some wf) (hphase : wf.phase = .waiting)
    (hmailbox : wf.mailbox = command :: rest)
    (hreply : reply = handleCommand cfg.workflow (s.fresh cfg command) wf.child wf.state command) :
    Quiet cfg (s.answered cfg wf rest reply channel) ∧
      SameJournals s (s.answered cfg wf rest reply channel) := by
  have hlive : wf.phase.isStopped = false := by
    rw [hphase]
    rfl
  obtain ⟨_, hignored, _⟩ := h.restful hwf hlive
  rw [hmailbox] at hignored
  rw [(hs.placed wf hwf).folded (by rw [hphase]; rfl),
    handleCommand_ignored (hignored command List.mem_cons_self)] at hreply
  subst hreply
  have hsame : SameJournals s (s.answered cfg wf rest (ignored wf.child) channel) :=
    ⟨rfl, fun _ => rfl, fun _ => rfl⟩
  refine ⟨h.workflowStep hsame hwf hlive rfl (Or.inr ?_) [] ?_ (fun p hp => by contradiction) rfl,
    hsame⟩
  · exact restful_iff.mpr ⟨rfl, fun c hc => hignored c (List.mem_cons_of_mem _ hc),
      fun hphase => by contradiction⟩
  · simp [System.repliedAgents, ignored]

/-- A journal call of the workflow that stores nothing. -/
theorem Quiet.persisted (h : Quiet cfg s) {effect : CommandEffect WorkflowDomainEvent}
    {events : List WorkflowDomainEvent} {ok : Bool} (hwf : s.workflow = some wf)
    (hphase : wf.phase = .performing effect) (hevents : events = if ok then effect.events else []) :
    Quiet cfg { s with
        workflowLog := s.workflowLog ++ events
        workflow := some { wf with
          state := events.foldl WorkflowActor.applyEvent wf.state
          phase := Phase.called effect } } ∧ events = [] := by
  have hlive : wf.phase.isStopped = false := by
    rw [hphase]
    rfl
  obtain ⟨hnone, hmailbox, _⟩ := h.restful hwf hlive
  rw [hphase, Phase.events_performing] at hnone
  have hempty : events = [] := by
    rw [hevents, hnone, ite_self]
  subst hempty
  have hsame : SameJournals s { s with
      workflowLog := s.workflowLog ++ []
      workflow := some { wf with state := wf.state, phase := Phase.called effect } } :=
    ⟨List.append_nil _, fun _ => rfl, fun _ => rfl⟩
  refine ⟨h.workflowStep hsame hwf hlive rfl (Or.inr ?_) [] (List.append_nil _).symm
    (fun p hp => by contradiction) rfl, rfl⟩
  refine restful_iff.mpr ⟨Phase.events_called effect, ?_, fun hrecovering => ?_⟩
  · rw [hsame.workflowLog]
    exact hmailbox
  · rw [Phase.isRecovering_called] at hrecovering
    contradiction

end Workflow

section Steps

variable {ref : ActorRef} {p : AgentProc}

/-- An agent that goes on waits, or performs an effect without events. -/
theorem Quiet.goesOn (h : Quiet cfg s) (hp : s.agents[ref]? = some p)
    (hphase : p.phase = .waiting) {command : AgentCommand} {rest : List AgentCommand}
    (hmailbox : p.mailbox = command :: rest) (actor : AgentActor)
    (hactor : actor.sessionId = p.actor.sessionId) (phase : Phase AgentDomainEvent)
    (hevents : phase.events = []) (hrecovering : phase.isRecovering = false) :
    Quiet cfg (s.setAgent ref { p with actor := actor, mailbox := rest, phase := phase }) := by
  have hlive : p.phase.isStopped = false := by
    rw [hphase]
    rfl
  obtain ⟨_, hharmless, _⟩ := h.idle hp hlive
  rw [hmailbox] at hharmless
  refine h.agent (sameJournals_setAgent s ref _) hp hlive rfl (Or.inr (idle_iff.mpr ?_)) rfl rfl
  refine ⟨hevents, fun c hc => ?_, fun hphase => ?_⟩
  · rw [hactor]
    exact hharmless c (List.mem_cons_of_mem command hc)
  · rw [hrecovering] at hphase
    contradiction

theorem Quiet.agentStopped (h : Quiet cfg s) (hp : s.agents[ref]? = some p)
    (hphase : p.phase = .waiting) (actor : AgentActor) (rest : List AgentCommand) :
    Quiet cfg (s.setAgent ref { p with actor := actor, mailbox := rest, phase := .stopped }) := by
  have hlive : p.phase.isStopped = false := by
    rw [hphase]
    rfl
  exact h.agent (sameJournals_setAgent s ref _) hp hlive rfl (Or.inl rfl) rfl rfl

/-- The head of a waiting agent's mailbox is harmless. -/
theorem Quiet.head (h : Quiet cfg s) (hp : s.agents[ref]? = some p) (hphase : p.phase = .waiting)
    {command : AgentCommand} {rest : List AgentCommand} (hmailbox : p.mailbox = command :: rest) :
    harmless (heeds s p.actor.sessionId) command = true := by
  obtain ⟨_, hharmless, _⟩ := h.idle hp (by rw [hphase]; rfl)
  exact hharmless command (by rw [hmailbox]; exact List.mem_cons_self)

/-- The end of a run is harmless if it was not cancelled and is not heeded. -/
theorem harmless_end {heeded : Bool} {outcome : RunOutcome}
    (h : harmless heeded (.runFinished outcome) = true) :
    outcome ≠ .cancelled ∧ heeded = false := by
  cases outcome with
  | cancelled => contradiction
  | completed _ | concluded _ _ | failed _ _ =>
    exact ⟨by simp, by simpa [harmless] using h⟩

theorem Quiet.cancelled (h : Quiet cfg s) (runs : List RunTask)
    (hruns : ∃ run, runs = s.runs ∨
      runs = s.runs.modify run (fun r => { r with cancelled := true })) :
    Quiet cfg { s with runs := runs } := by
  refine h.frame ⟨rfl, fun _ => rfl, fun _ => rfl⟩ (fun hs => hs) h.workflow
    (fun p hp => Or.inl hp) (keepsStopped_refl _) (fun task htask => ?_)
  obtain ⟨run, rfl | rfl⟩ := hruns
  · exact Or.inl htask
  · obtain ⟨i, hi⟩ := List.mem_iff_getElem?.mp htask
    rw [List.getElem?_modify] at hi
    obtain ⟨old, hold, rfl⟩ := Option.map_eq_some_iff.mp hi
    have hspent := h.runs old (List.mem_of_getElem? hold)
    refine Or.inr ?_
    split
    · exact hspent
    · exact hspent

/-- A journal call of an agent that stores no event. -/
theorem Quiet.called (h : Quiet cfg s) {effect : CommandEffect AgentDomainEvent}
    {events : List AgentDomainEvent} {ok : Bool} (hp : s.agents[ref]? = some p)
    (hphase : p.phase = .performing effect) :
    Quiet cfg { s.setAgent ref
        { p with
          state := events.foldl AgentActor.applyEvent p.state
          phase := Phase.called effect } with
      sessions := Function.update s.sessions p.actor.sessionId
        (System.journalCall cfg.backend ok effect p.state (s.sessions p.actor.sessionId)) } ∧
      SameJournals s { s.setAgent ref
        { p with
          state := events.foldl AgentActor.applyEvent p.state
          phase := Phase.called effect } with
      sessions := Function.update s.sessions p.actor.sessionId
        (System.journalCall cfg.backend ok effect p.state (s.sessions p.actor.sessionId)) } := by
  have hlive : p.phase.isStopped = false := by
    rw [hphase]
    rfl
  obtain ⟨hnone, hmailbox, _⟩ := h.idle hp hlive
  rw [hphase, Phase.events_performing] at hnone
  have hcall : ∀ log, (System.journalCall cfg.backend ok effect p.state log).base = log.base ∧
      (System.journalCall cfg.backend ok effect p.state log).events = log.events := by
    intro log
    unfold System.journalCall
    split
    · exact ⟨rfl, rfl⟩
    · split <;> exact ⟨rfl, rfl⟩
    · rw [hnone]
      exact ⟨rfl, List.append_nil _⟩
  have hsame : SameJournals s { s.setAgent ref
        { p with
          state := events.foldl AgentActor.applyEvent p.state
          phase := Phase.called effect } with
      sessions := Function.update s.sessions p.actor.sessionId
        (System.journalCall cfg.backend ok effect p.state (s.sessions p.actor.sessionId)) } := by
    refine ⟨rfl, fun sessionId => ?_, fun sessionId => ?_⟩
    all_goals
      by_cases hid : sessionId = p.actor.sessionId
      · subst hid
        simp only [Function.update_self]
        first
        | exact (hcall _).1
        | exact (hcall _).2
      · simp only [Function.update_of_ne hid]
  refine ⟨h.agent hsame hp hlive rfl (Or.inr (idle_iff.mpr ?_)) rfl rfl, hsame⟩
  refine ⟨Phase.events_called effect, fun c hc => ?_, fun hrecovering => ?_⟩
  · exact harmless_mono (heeds_mono hsame.workflowLog (fun hs => hs)) (hmailbox c hc)
  · rw [Phase.isRecovering_called] at hrecovering
    contradiction

theorem Quiet.ended (h : Quiet cfg s) {run : ℕ} {task : RunTask} (htask : s.runs[run]? = some task)
    (hlive : task.finished = false) (command : AgentCommand) :
    Quiet cfg (({ s with runs := s.runs.set run { task with finished := true } }).tellAgent
      task.agent command) ∧
      SameJournals s (({ s with
        runs := s.runs.set run { task with finished := true } }).tellAgent task.agent command) := by
  obtain ⟨q, hq, hstopped⟩ := h.unfinished htask hlive
  have hq' : ({ s with runs := s.runs.set run { task with finished := true } } :
      System).agents[task.agent]? = some q := hq
  rw [tellAgent_stopped hq' hstopped]
  refine ⟨h.frame ⟨rfl, fun _ => rfl, fun _ => rfl⟩ (fun hs => hs) h.workflow
    (fun p hp => Or.inl hp) (keepsStopped_refl _) (fun other hother => ?_),
    ⟨rfl, fun _ => rfl, fun _ => rfl⟩⟩
  refine (List.mem_or_eq_of_mem_set hother).imp_right (fun heq => ?_)
  rw [heq]
  rfl

/-- A quiet system that takes a step of its own is quiet, and its journals are the same. -/
theorem Quiet.step (h : Quiet cfg s) (hs : Base s) {l : Label} (hinternal : internal l = true)
    (hstep : Step cfg s l t) : Quiet cfg t ∧ SameJournals s t := by
  cases hstep with
  | launched | delivered | drained | crashed => contradiction
  | recovered wf spawned hwf hphase hspawned =>
    refine ⟨h.recovered hwf hphase hspawned, ?_⟩
    cases spawned with
    | none => exact ⟨rfl, fun _ => rfl, fun _ => rfl⟩
    | some pair => exact ⟨rfl, fun _ => rfl, fun _ => rfl⟩
  | handled wf command rest reply channel hwf hphase hmailbox hreply =>
    exact h.handled hs channel hwf hphase hmailbox hreply
  | persisted wf effect events ok hwf hphase hevents =>
    obtain ⟨hquiet, hnone⟩ := h.persisted hwf hphase hevents
    refine ⟨hquiet, ?_, fun _ => rfl, fun _ => rfl⟩
    rw [hnone]
    exact List.append_nil _
  | agentIdle ref messageId p hp hphase hmessages =>
    obtain ⟨_, hmailbox, _⟩ := h.idle hp (by rw [hphase]; rfl)
    have hsame := sameJournals_setAgent s ref
      { p with state := (s.sessions p.actor.sessionId).state, phase := .waiting }
    refine ⟨h.agent hsame hp (by rw [hphase]; rfl) rfl (Or.inr (idle_iff.mpr ?_)) rfl rfl, hsame⟩
    exact ⟨rfl, hmailbox, fun hphase => by contradiction⟩
  | agentRedriven ref messageId p hp hphase hmessages =>
    obtain ⟨_, _, hempty⟩ := h.idle hp (by rw [hphase]; rfl)
    exact absurd (List.isEmpty_iff.mp (hempty (by rw [hphase]; rfl))) hmessages
  | agentRan ref messageId p command rest input hp hphase hmailbox hinput =>
    have hhead := h.head hp hphase hmailbox
    cases command <;> contradiction
  | agentNoted ref messageId p events rest hp hphase hmailbox =>
    have hhead := h.head hp hphase hmailbox
    exact ⟨h.goesOn hp hphase hmailbox p.actor rfl (.performing (.persist events))
      (List.isEmpty_iff.mp hhead) rfl, sameJournals_setAgent s ref _⟩
  | agentCancelled ref messageId p rest runs hp hphase hmailbox hruns =>
    have hset := h.goesOn hp hphase hmailbox p.actor rfl .waiting rfl rfl
    refine ⟨hset.cancelled runs ?_, ⟨rfl, fun _ => rfl, fun _ => rfl⟩⟩
    rw [hruns]
    cases p.actor.running with
    | none => exact ⟨0, Or.inl rfl⟩
    | some run => exact ⟨run, Or.inr rfl⟩
  | agentEnded ref messageId p rest hp hphase hmailbox =>
    have hhead := h.head hp hphase hmailbox
    contradiction
  | agentReported ref messageId p outcome rest report hp hphase hmailbox hreports hfinal =>
    obtain ⟨_, hheeds⟩ := harmless_end (h.head hp hphase hmailbox)
    refine ⟨(h.agentStopped hp hphase _ rest).tellWorkflow hreports hheeds, ?_⟩
    exact ⟨rfl, fun _ => rfl, fun _ => rfl⟩
  | agentAsked ref messageId p outcome rest toolCallId question hp hphase hmailbox =>
    obtain ⟨_, hheeds⟩ := harmless_end (h.head hp hphase hmailbox)
    have hset := h.goesOn hp hphase hmailbox { p.actor with running := none } rfl
      (.performing .snapshot) rfl rfl
    exact ⟨hset.tellWorkflow rfl hheeds, ⟨rfl, fun _ => rfl, fun _ => rfl⟩⟩
  | agentCalled ref ok p effect events hp hphase hevents => exact h.called hp hphase
  | runStreamed run event task htask hlive hstreamed =>
    obtain ⟨q, hq, hstopped⟩ := h.unfinished htask hlive
    rw [tellAgent_stopped hq hstopped]
    exact ⟨h, SameJournals.refl s⟩
  | runEnded run outcome task htask hlive => exact h.ended htask hlive (.runFinished outcome)

end Steps

end October.QuietSystems
