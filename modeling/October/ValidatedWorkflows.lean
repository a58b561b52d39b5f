import October.ForkedConversation
import October.OpenSystem
import October.RunOutcomes
import October.SessionLifetime
import October.WorkflowConfig

/-!
What the static check of a workflow is worth at run time. With a definition that passes
the check and the registry of its configuration every agent that a handler looks up is
defined and has a provider: the start agent, the targets of transitions and the current
agent of the journal, which only the handlers' own events name. So no lookup fails, and
every failure is one that a run or a copied snapshot reported.
-/
namespace October.ValidatedWorkflows

open WorkflowActor WorkflowInvariants ForkedConversation RunOutcomes

def LookupError (error : String) : Prop :=
  (∃ name, error = "start agent '" ++ name ++ "' not found") ∨
  (∃ name, error = "transition target agent '" ++ name ++ "' not found") ∨
  ∃ model, error = "no provider registered for model '" ++ model ++ "'"

/-- The lookups of a handler miss the definition of the current agent. -/
inductive Missed (wf : Workflow) (child : Option ActorRef) (state : WorkflowState) :
    WorkflowCommand → Prop
  | concluded (sessionId : Uuid) (output : Value) (agentName : String) :
      state.currentSessionId = some sessionId → state.currentAgent = some agentName →
      agentDef wf agentName = none → Missed wf child state (.agentConcluded sessionId output)
  | answered (message toolCallId : String) (sessionId : Uuid) (agentName : String) :
      state.status = .awaitingUserInput → state.pendingToolCall = some toolCallId →
      state.currentSessionId = some sessionId → state.currentAgent = some agentName →
      child = none → agentDef wf agentName = none → Missed wf child state (.resume message)
  | resumed (message : String) (sessionId : Uuid) (agentName : String) :
      state.status = .suspended → state.currentSessionId = some sessionId →
      state.currentAgent = some agentName → child = none → agentDef wf agentName = none →
      Missed wf child state (.resume message)
  | forked (fromSessionId : Uuid) (message agentName : String) :
      state.status = .suspended → state.currentAgent = some agentName →
      agentDef wf agentName = none → Missed wf child state (.fork fromSessionId message)

def MissedOnRecovery (wf : Workflow) (state : WorkflowState) : Prop :=
  state.status = .running ∧ ∃ agentName sessionId, state.currentAgent = some agentName ∧
    state.currentSessionId = some sessionId ∧ onRecoveryComplete wf state = none

/-- Every agent that a handler may look up can be spawned, but for the current one. -/
structure Complete (wf : Workflow) : Prop where
  start : ∃ d, Spawnable wf wf.definition.start d
  targets : ∀ name d, agentDef wf name = some d → ∀ t ∈ d.transitions.getD [],
    ∃ d', Spawnable wf t.target d'

def workflowOf (evalCondition : String → Value → Except String Value) (d : WorkflowDefinition)
    (reg : ProviderRegistry) : Workflow where
  definition := d
  hasProvider model := decide (model ∈ reg)
  evalCondition := evalCondition

section Checked

variable {evalCondition : String → Value → Except String Value} {d : WorkflowDefinition}
  {cfg : OctoberConfig}

/-- What a workflow without errors meets. -/
theorem validate_nil (h : validate evalCondition d cfg = []) :
    d.start ∈ d.names ∧ (∀ a ∈ d.agents, a.model ∈ cfg.models) ∧
      ∀ a ∈ d.agents, ∀ t ∈ a.transitions.getD [], t.target ∈ d.names := by
  unfold validate at h
  obtain ⟨h, -⟩ := List.append_eq_nil_iff.mp h
  obtain ⟨hstart, hagents⟩ := List.append_eq_nil_iff.mp h
  have hagent : ∀ a ∈ d.agents, agentErrors evalCondition d cfg a = [] :=
    List.flatMap_eq_nil_iff.mp hagents
  refine ⟨?_, fun a ha => ?_, fun a ha t ht => ?_⟩
  · by_contra hnot
    rw [if_neg hnot] at hstart
    cases hstart
  · obtain ⟨hmodel, -⟩ := List.append_eq_nil_iff.mp (hagent a ha)
    by_contra hnot
    rw [if_neg hnot] at hmodel
    cases hmodel
  · obtain ⟨-, htransitions⟩ := List.append_eq_nil_iff.mp (hagent a ha)
    obtain ⟨htarget, -⟩ := List.append_eq_nil_iff.mp
      (List.flatMap_eq_nil_iff.mp htransitions t ht)
    by_contra hnot
    rw [if_neg hnot] at htarget
    cases htarget

theorem spawnable_of_name {reg : ProviderRegistry} (hmodels : ∀ a ∈ d.agents, a.model ∈ reg)
    {name : String} (hname : name ∈ d.names) :
    ∃ a, Spawnable (workflowOf evalCondition d reg) name a := by
  obtain ⟨a, ha, rfl⟩ := List.mem_map.mp hname
  cases hfind : agentDef (workflowOf evalCondition d reg) a.name with
  | none =>
    have hnot := List.find?_eq_none.mp hfind a ha
    exact absurd (beq_self_eq_true a.name) hnot
  | some found =>
    refine ⟨found, hfind, ?_⟩
    exact decide_eq_true (hmodels found (List.mem_of_find?_eq_some hfind))

/-- The check and the registry agree on the keys that the handlers look up. -/
theorem complete_of_validate {host : ProviderHost} {reg : ProviderRegistry}
    (h : validate evalCondition d cfg = []) (hreg : buildRegistry host cfg = .ok reg) :
    Complete (workflowOf evalCondition d reg) := by
  obtain ⟨hstart, hmodels, htargets⟩ := validate_nil h
  have hproviders : ∀ a ∈ d.agents, a.model ∈ reg := fun a ha =>
    (buildRegistry_keys hreg a.model).mpr (hmodels a ha)
  refine ⟨spawnable_of_name hproviders hstart, fun name a ha t ht => ?_⟩
  exact spawnable_of_name hproviders (htargets a (List.mem_of_find?_eq_some ha) t ht)

end Checked

section Handlers

variable {wf : Workflow} {fresh : Fresh} {child : Option ActorRef} {state : WorkflowState}

theorem spawnAgent_spawnable {name : String} {a : WorkflowAgentDef} (h : Spawnable wf name a) :
    spawnAgent wf a = .ok () := if_pos h.2

theorem findNextTransition_mem {output : Value} {transitions : List WorkflowTransition}
    {target : String} {condition : Option String}
    (h : findNextTransition wf output transitions = some (target, condition)) :
    ∃ t ∈ transitions, t.target = target ∧ t.condition = condition := by
  induction transitions with
  | nil => cases h
  | cons t rest ih =>
    have hrest : findNextTransition wf output rest = some (target, condition) →
        ∃ t' ∈ t :: rest, t'.target = target ∧ t'.condition = condition := by
      intro h
      obtain ⟨t', ht', heq⟩ := ih h
      exact ⟨t', List.mem_cons_of_mem _ ht', heq⟩
    unfold findNextTransition at h
    cases hcondition : t.condition with
    | none =>
      rw [hcondition] at h
      cases h
      exact ⟨t, List.mem_cons_self .., rfl, hcondition⟩
    | some c =>
      rw [hcondition] at h
      dsimp only at h
      split at h
      · split at h
        · cases h
          exact ⟨t, List.mem_cons_self .., rfl, hcondition⟩
        · exact hrest h
      · exact hrest h

def Reported (command : WorkflowCommand) (error : String) : Prop :=
  (∃ e, error = "fork failed: " ++ e) ∨
    ∃ sessionId recoverable, command = .agentFailed sessionId error recoverable

theorem resumeWith_reported (hcurrent : ∀ name, state.currentAgent = some name →
      ∃ a, Spawnable wf name a) {agentName : String} (hagent : state.currentAgent = some agentName)
    {sessionId : Uuid} {command : AgentCommand} {notify : Bool} {error : String}
    {recoverable : Bool} :
    .workflowFailed error recoverable ∉
      (resumeWith wf fresh child agentName sessionId command notify).effect.events := by
  obtain ⟨a, ha⟩ := hcurrent agentName hagent
  unfold resumeWith
  cases child with
  | some ref => exact List.not_mem_nil
  | none =>
    simp only [ha.1, spawnAgent_spawnable ha, entered]
    exact List.not_mem_nil

/-- With complete definitions the handlers pass on failures and find none of their own. -/
theorem handleCommand_reported (hwf : Complete wf)
    (hcurrent : ∀ name, state.currentAgent = some name → ∃ a, Spawnable wf name a)
    {command : WorkflowCommand} {error : String} {recoverable : Bool}
    (h : .workflowFailed error recoverable ∈
      (handleCommand wf fresh child state command).effect.events) : Reported command error := by
  cases command with
  | start input =>
    obtain ⟨a, ha⟩ := hwf.start
    simp only [handleCommand, onStart, ha.1, spawnAgent_spawnable ha, entered,
      CommandEffect.events_persist] at h
    simp at h
  | cancel => simp [handleCommand] at h
  | resume message =>
    exfalso
    simp only [handleCommand, onResume] at h
    split at h
    · split at h
      next hagent => exact resumeWith_reported hcurrent hagent h
      next => exact List.not_mem_nil h
    · split at h
      next hagent => exact resumeWith_reported hcurrent hagent h
      next => exact List.not_mem_nil h
    all_goals exact List.not_mem_nil h
  | fork source message =>
    simp only [handleCommand, onFork] at h
    split at h
    · exact absurd h List.not_mem_nil
    · cases hagent : state.currentAgent with
      | none =>
        simp only [hagent] at h
        exact absurd h List.not_mem_nil
      | some agentName =>
        obtain ⟨a, ha⟩ := hcurrent agentName hagent
        simp only [hagent, ha.1] at h
        cases hcopied : fresh.copied with
        | error e =>
          simp only [hcopied, failed] at h
          obtain ⟨rfl, -⟩ : error = _ ∧ recoverable = false := by simpa using h
          exact .inl ⟨_, rfl⟩
        | ok _ =>
          simp only [hcopied, spawnAgent_spawnable ha, entered, CommandEffect.events_persist] at h
          simp at h
  | agentConcluded sessionId output =>
    simp only [handleCommand, onConcluded] at h
    split at h
    · exact absurd h List.not_mem_nil
    · cases hagent : state.currentAgent with
      | none =>
        simp only [hagent, finished] at h
        simp at h
      | some fromAgent =>
        simp only [hagent] at h
        obtain ⟨source, hsource⟩ := hcurrent fromAgent hagent
        split at h
        · simp [finished] at h
        · rename_i target condition hnext
          simp only [hsource.1, Option.bind_some] at hnext
          obtain ⟨t, ht, rfl, -⟩ := findNextTransition_mem hnext
          obtain ⟨a, ha⟩ := hwf.targets fromAgent source hsource.1 t ht
          simp only [ha.1, spawnAgent_spawnable ha, entered, CommandEffect.events_persist] at h
          simp at h
  | agentFailed sessionId e r =>
    simp only [handleCommand] at h
    split at h
    · exact absurd h List.not_mem_nil
    · split at h
      · simp at h
      · obtain ⟨rfl, -⟩ : error = e ∧ recoverable = r := by simpa using h
        exact .inr ⟨sessionId, r, rfl⟩
  | agentAsked sessionId toolCallId question =>
    simp only [handleCommand] at h
    split at h
    · exact absurd h List.not_mem_nil
    · simp at h

theorem resumeWith_told {agentName : String} {sessionId : Uuid} {command : AgentCommand}
    {notify : Bool} {told : ActorRef × AgentCommand}
    (h : (resumeWith wf fresh child agentName sessionId command notify).told = some told) :
    told.2 = command := by
  unfold resumeWith at h
  cases child with
  | some ref =>
    cases h
    rfl
  | none =>
    dsimp only at h
    split at h
    · cases h
    · split at h
      · cases h
      · cases h
        rfl

/-- The workflow tells its agent what no run of the agent reports. -/
theorem handleCommand_told {command : WorkflowCommand} {told : ActorRef × AgentCommand}
    (h : (handleCommand wf fresh child state command).told = some told) :
    fromOutside told.2 = true := by
  cases command with
  | start input =>
    simp only [handleCommand, onStart] at h
    split at h
    · cases h
    · split at h
      · cases h
      · cases h
        rfl
  | cancel =>
    simp only [handleCommand, Option.map_eq_some_iff] at h
    obtain ⟨ref, -, rfl⟩ := h
    rfl
  | resume message =>
    simp only [handleCommand, onResume] at h
    split at h
    · split at h
      · rw [resumeWith_told h]
        rfl
      · cases h
    · split at h
      · rw [resumeWith_told h]
        rfl
      · cases h
    all_goals cases h
  | fork source message =>
    simp only [handleCommand, onFork] at h
    split at h
    · cases h
    · split at h
      · cases h
      · split at h
        · cases h
        · split at h
          · cases h
          · split at h
            · cases h
            · cases h
              rfl
  | agentConcluded sessionId output =>
    simp only [handleCommand, onConcluded] at h
    split at h
    · cases h
    · split at h
      · cases h
      · split at h
        · cases h
        · split at h
          · cases h
          · split at h
            · cases h
            · cases h
              rfl
  | agentFailed sessionId e r =>
    simp only [handleCommand] at h
    split at h
    · cases h
    · split at h <;> cases h
  | agentAsked sessionId toolCallId question =>
    simp only [handleCommand] at h
    split at h <;> cases h

end Handlers

inductive Held (error : String) (s : System) : Prop
  | recorded (recoverable : Bool) :
      .workflowFailed error recoverable ∈ record s → Held error s
  | reported (wf : WorkflowProc) (sessionId : Uuid) (recoverable : Bool) :
      s.workflow = some wf → .agentFailed sessionId error recoverable ∈ wf.mailbox → Held error s
  | ended (p : AgentProc) (recoverable : Bool) :
      p ∈ s.agents → .runFinished (.failed error recoverable) ∈ p.mailbox → Held error s

section Held

variable {error : String} {s t : System}

/-- What the workflow is told is not new, or from its operator. -/
def OldReports (s t : System) : Prop :=
  ∀ wf', t.workflow = some wf' → ∀ command ∈ wf'.mailbox,
    operator command = true ∨ ∃ wf, s.workflow = some wf ∧ command ∈ wf.mailbox

def OldEnds (agents agents' : List AgentProc) : Prop :=
  ∀ p' ∈ agents', ∀ command ∈ p'.mailbox,
    fromOutside command = true ∨ ∃ p ∈ agents, command ∈ p.mailbox

/-- Fewer places hold fewer texts. -/
theorem Held.of_old (h : Held error t) (hrecord : ∀ e ∈ record t, e ∈ record s)
    (hreports : OldReports s t) (hends : OldEnds s.agents t.agents) : Held error s := by
  cases h with
  | recorded recoverable he => exact .recorded recoverable (hrecord _ he)
  | reported wf' sessionId recoverable hwf' hcommand =>
    rcases hreports wf' hwf' _ hcommand with hoperator | ⟨wf, hwf, hold⟩
    · cases hoperator
    · exact .reported wf sessionId recoverable hwf hold
  | ended p' recoverable hp' hcommand =>
    rcases hends p' hp' _ hcommand with houtside | ⟨p, hp, hold⟩
    · cases houtside
    · exact .ended p recoverable hp hold

theorem oldReports_same (h : t.workflow = s.workflow) : OldReports s t :=
  fun wf' hwf' _ hc => .inr ⟨wf', h ▸ hwf', hc⟩

theorem oldEnds_refl {agents : List AgentProc} : OldEnds agents agents :=
  fun p' hp' _ hc => .inr ⟨p', hp', hc⟩

theorem oldEnds_set {agents : List AgentProc} {ref : ActorRef} {p q : AgentProc}
    (hp : agents[ref]? = some p) (hmailbox : ∀ command ∈ q.mailbox, command ∈ p.mailbox) :
    OldEnds agents (agents.set ref q) := by
  intro p' hp' command hc
  rcases List.mem_or_eq_of_mem_set hp' with hold | rfl
  · exact .inr ⟨p', hold, hc⟩
  · exact .inr ⟨p, List.mem_of_getElem? hp, hmailbox command hc⟩

theorem mem_modify_tell {agents : List AgentProc} {ref : ActorRef} {told : AgentCommand}
    {p' : AgentProc} (h : p' ∈ agents.modify ref (AgentProc.tell told)) {command : AgentCommand}
    (hc : command ∈ p'.mailbox) : command = told ∨ ∃ p ∈ agents, command ∈ p.mailbox := by
  obtain ⟨i, hi⟩ := List.getElem?_of_mem h
  rw [getElem?_modify_tell] at hi
  obtain ⟨p, hp, rfl⟩ := Option.map_eq_some_iff.mp hi
  have hmem := List.mem_of_getElem? hp
  split at hc
  · unfold AgentProc.tell at hc
    split at hc
    · exact .inr ⟨p, hmem, hc⟩
    · rcases List.mem_append.mp hc with hc | hc
      · exact .inr ⟨p, hmem, hc⟩
      · exact .inl (List.mem_singleton.mp hc)
  · exact .inr ⟨p, hmem, hc⟩

theorem oldEnds_tell {agents : List AgentProc} {ref : ActorRef} {told : AgentCommand}
    (houtside : fromOutside told = true) :
    OldEnds agents (agents.modify ref (AgentProc.tell told)) := by
  intro p' hp' command hc
  rcases mem_modify_tell hp' hc with rfl | hold
  · exact .inl houtside
  · exact .inr hold

theorem OldEnds.append {agents agents' : List AgentProc} (h : OldEnds agents agents')
    {d : Option AgentProc} (hd : ∀ p ∈ d, p.mailbox = []) :
    OldEnds agents (agents' ++ d.toList) := by
  intro p' hp' command hc
  rcases List.mem_append.mp hp' with hp' | hp'
  · exact h p' hp' command hc
  · rw [hd p' (Option.mem_toList.mp hp')] at hc
    cases hc

theorem OldEnds.trans {agents agents' agents'' : List AgentProc} (h : OldEnds agents agents')
    (h' : OldEnds agents' agents'') : OldEnds agents agents'' := by
  intro p' hp' command hc
  rcases h' p' hp' command hc with houtside | ⟨p, hp, hc⟩
  · exact .inl houtside
  · exact h p hp command hc

theorem oldEnds_replied {agents : List AgentProc} {reply : Reply}
    (htold : ∀ told, reply.told = some told → fromOutside told.2 = true) :
    OldEnds agents (System.repliedAgents reply agents) := by
  have hspawned : OldEnds agents (agents ++
      (reply.spawned.map (fun p => AgentProc.spawned p.1 p.2)).toList) := by
    refine oldEnds_refl.append (fun p hp => ?_)
    obtain ⟨_, -, rfl⟩ := Option.map_eq_some_iff.mp (Option.mem_def.mp hp)
    rfl
  unfold System.repliedAgents
  dsimp only
  cases htold' : reply.told with
  | none => exact hspawned
  | some told => exact hspawned.trans (oldEnds_tell (htold told htold'))

@[simp] theorem record_tellWorkflow (command : WorkflowCommand) :
    record (s.tellWorkflow command) = record s := by
  unfold record System.tellWorkflow
  cases s.workflow <;> simp

theorem held_tellWorkflow {command : WorkflowCommand} (h : Held error (s.tellWorkflow command)) :
    Held error s ∨ ∃ sessionId recoverable, command = .agentFailed sessionId error recoverable := by
  cases h with
  | recorded recoverable he => exact .inl (.recorded recoverable (by simpa using he))
  | reported wf' sessionId recoverable hwf' hcommand =>
    obtain ⟨wf, hwf, rfl⟩ := Option.map_eq_some_iff.mp hwf'
    rcases wf.mem_tell command hcommand with hold | heq
    · exact .inl (.reported wf sessionId recoverable hwf hold)
    · exact .inr ⟨sessionId, recoverable, heq.symm⟩
  | ended p recoverable hp hcommand => exact .inl (.ended p recoverable hp hcommand)

/-- What an agent's handler does holds a failure text only if it tells it. -/
theorem held_performed {ref : ActorRef} {sessionId : Uuid} {actions : List AgentAction}
    (h : Held error (actions.foldl (System.performAgent ref sessionId) s)) :
    Held error s ∨ ∃ sender recoverable,
      .tellParent (.agentFailed sender error recoverable) ∈ actions := by
  induction actions generalizing s with
  | nil => exact .inl h
  | cons action rest ih =>
    rcases ih h with h | ⟨sender, recoverable, htold⟩
    · cases action with
      | startRun input history =>
        exact .inl (h.of_old (fun _ he => he) (oldReports_same rfl) oldEnds_refl)
      | cancelRun run =>
        exact .inl (h.of_old (fun _ he => he) (oldReports_same rfl) oldEnds_refl)
      | tellParent command =>
        rcases held_tellWorkflow h with h | ⟨sender, recoverable, rfl⟩
        · exact .inl h
        · exact .inr ⟨sender, recoverable, List.mem_cons_self ..⟩
    · exact .inr ⟨sender, recoverable, List.mem_cons_of_mem _ htold⟩

/-- An agent reports a failure of the run that it finishes. -/
theorem handleCommand_fails {actor : AgentActor} {state : AgentState} {run : ℕ}
    {messageId : String} {command : AgentCommand} {sender : Uuid} {recoverable : Bool}
    (h : .tellParent (.agentFailed sender error recoverable) ∈
      (actor.handleCommand state run messageId command).2.1) :
    command = .runFinished (.failed error recoverable) := by
  cases command with
  | run input => simp [AgentActor.handleCommand, AgentActor.startRun] at h
  | injectToolResult toolCallId content =>
    simp [AgentActor.handleCommand, AgentActor.startRun] at h
  | cancel => simp [AgentActor.handleCommand] at h
  | persistProgress events => simp [AgentActor.handleCommand] at h
  | runFinished outcome =>
    cases outcome with
    | completed text => simp [AgentActor.handleCommand, AgentActor.handleFinished] at h
    | cancelled => simp [AgentActor.handleCommand, AgentActor.handleFinished] at h
    | failed e r =>
      obtain ⟨-, rfl, rfl⟩ : _ ∧ error = e ∧ recoverable = r := by
        simpa [AgentActor.handleCommand, AgentActor.handleFinished] using h
      rfl
    | concluded data toolCallId =>
      simp only [AgentActor.handleCommand, AgentActor.handleFinished] at h
      cases hconclusion : AgentActor.interpret actor.params data toolCallId with
      | output output => simp [hconclusion] at h
      | ask toolCallId question => simp [hconclusion] at h

theorem held_agentHandle {cfg : Config} {ref : ActorRef} {messageId : String}
    (hnext : next cfg s (.agentHandle ref messageId) = some t) (h : Held error t) :
    Held error s := by
  simp only [next, System.agentHandle] at hnext
  split at hnext
  · cases hnext
  · rename_i p hp
    split at hnext
    · rename_i command rest hphase hmailbox
      cases hnext
      rcases held_performed h with h | ⟨sender, recoverable, htold⟩
      · refine h.of_old (fun _ he => he) (oldReports_same rfl) (oldEnds_set hp (fun c hc => ?_))
        rw [hmailbox]
        exact List.mem_cons_of_mem _ hc
      · refine .ended p recoverable (List.mem_of_getElem? hp) ?_
        rw [hmailbox, handleCommand_fails htold]
        exact List.mem_cons_self ..
    · cases hnext

/-- Where a failure text can come from in one step: nowhere, a copied snapshot or a run. -/
theorem held_step {cfg : Config} (hcomplete : Complete cfg.workflow)
    (hcurrent : ∀ wf, s.workflow = some wf → wf.phase = .waiting →
      ∀ name, wf.state.currentAgent = some name → ∃ a, Spawnable cfg.workflow name a)
    {l : Label} (hnext : next cfg s l = some t) (h : Held error t) :
    Held error s ∨ (∃ e, error = "fork failed: " ++ e) ∨
      ∃ run recoverable, l = .runFinish run (.failed error recoverable) := by
  have hstep := next_step hnext
  cases hstep with
  | launched kickoff hoperator hnone =>
    refine .inl (h.of_old (fun e he => ?_) (fun wf' hwf' command hc => ?_) oldEnds_refl)
    · simpa [record, hnone] using he
    · cases hwf'
      exact .inl (hoperator command hc)
  | delivered command hoperator =>
    rcases held_tellWorkflow h with h | ⟨sessionId, recoverable, rfl⟩
    · exact .inl h
    · cases hoperator
  | recovered wf spawned hwf hphase _ =>
    refine .inl (h.of_old (fun e he => ?_) (fun wf' hwf' command hc => ?_) ?_)
    · cases spawned <;> simpa [record, System.spawns, System.spawnAgent, hwf, hphase] using he
    · cases hwf'
      exact .inr ⟨wf, hwf, hc⟩
    · cases spawned with
      | none => exact oldEnds_refl
      | some d =>
        exact oldEnds_refl.append (d := some (AgentProc.spawned d.1 d.2)) (fun p hp => by
          cases hp
          rfl)
  | handled wf command rest reply channel hwf hphase hmailbox hreply =>
    cases h with
    | recorded recoverable he =>
      have hmem : .workflowFailed error recoverable ∈ s.workflowLog ++ reply.effect.events := by
        simpa [record, System.answered] using he
      rcases List.mem_append.mp hmem with hold | hnew
      · exact .inl (.recorded recoverable (List.mem_append_left _ hold))
      · rw [hreply] at hnew
        rcases handleCommand_reported hcomplete (hcurrent wf hwf hphase) hnew with
          hfork | ⟨sessionId, r, rfl⟩
        · exact .inr (.inl hfork)
        · refine .inl (.reported wf sessionId r hwf ?_)
          rw [hmailbox]
          exact List.mem_cons_self ..
    | reported wf' sessionId recoverable hwf' hcommand =>
      cases hwf'
      refine .inl (.reported wf sessionId recoverable hwf ?_)
      rw [hmailbox]
      exact List.mem_cons_of_mem _ hcommand
    | ended p' recoverable hp' hcommand =>
      have htold : ∀ told, reply.told = some told → fromOutside told.2 = true := by
        intro told htold
        rw [hreply] at htold
        exact handleCommand_told htold
      rcases oldEnds_replied htold p' hp' _ hcommand with houtside | ⟨p, hp, hc⟩
      · cases houtside
      · exact .inl (.ended p recoverable hp hc)
  | persisted wf effect events ok hwf hphase hevents =>
    refine .inl (h.of_old (fun e he => ?_) (fun wf' hwf' command hc => ?_) oldEnds_refl)
    · rcases (by simpa [record] using he : e ∈ s.workflowLog ∨ e ∈ events) with hold | hnew
      · exact List.mem_append_left _ hold
      · rw [hevents] at hnew
        cases ok with
        | false => cases hnew
        | true => simpa [record, hwf, hphase] using Or.inr hnew
    · cases hwf'
      exact .inr ⟨wf, hwf, hc⟩
  | agentIdle ref messageId p hp _ _ =>
    exact .inl (h.of_old (fun _ he => he) (oldReports_same rfl) (oldEnds_set hp (fun _ hc => hc)))
  | agentRedriven ref messageId p hp _ _ =>
    exact .inl (h.of_old (fun _ he => he) (oldReports_same rfl) (oldEnds_set hp (fun _ hc => hc)))
  | agentCalled ref ok p effect events hp _ _ =>
    exact .inl (h.of_old (fun _ he => he) (oldReports_same rfl) (oldEnds_set hp (fun _ hc => hc)))
  | runStreamed run event task _ _ _ =>
    exact .inl (h.of_old (fun _ he => he) (oldReports_same rfl) (oldEnds_tell rfl))
  | runEnded run outcome task _ _ =>
    cases h with
    | recorded recoverable he => exact .inl (.recorded recoverable he)
    | reported wf sessionId recoverable hwf hc =>
      exact .inl (.reported wf sessionId recoverable hwf hc)
    | ended p' recoverable hp' hc =>
      rcases mem_modify_tell hp' hc with heq | ⟨p, hp, hc⟩
      · cases heq
        exact .inr (.inr ⟨run, recoverable, rfl⟩)
      · exact .inl (.ended p recoverable hp hc)
  | drained => exact .inl (h.of_old (fun _ he => he) (oldReports_same rfl) oldEnds_refl)
  | crashed =>
    refine .inl (h.of_old (fun e he => ?_) (fun wf' hwf' => by cases hwf')
      (fun p' hp' => by cases hp'))
    exact List.mem_append_left _ (by simpa [record, System.crash] using he)
  | _ => exact .inl (held_agentHandle hnext h)

end Held

section Texts

def start (s : String) : List Char := s.toList.take 3

theorem start_append {a b : String} (h : 3 ≤ a.toList.length) : start (a ++ b) = start a := by
  rw [start, String.toList_append, List.take_append_of_le_length h]
  rfl

def lookupStarts : List (List Char) := [['s', 't', 'a'], ['t', 'r', 'a'], ['n', 'o', ' ']]

theorem lookupError_start {error : String} (h : LookupError error) :
    start error ∈ lookupStarts := by
  rcases h with ⟨name, rfl⟩ | ⟨name, rfl⟩ | ⟨model, rfl⟩ <;>
    rw [String.append_assoc, start_append (by decide +kernel)] <;> decide +kernel

def Distinct (s : String) : Prop := 3 ≤ s.toList.length ∧ start s ∉ lookupStarts

instance (s : String) : Decidable (Distinct s) := inferInstanceAs (Decidable (_ ∧ _))

theorem Distinct.not_lookup {s : String} (h : Distinct s) : ¬ LookupError s :=
  fun hlookup => h.2 (lookupError_start hlookup)

/-- Only the start of a text matters. -/
theorem Distinct.append {a b : String} (h : Distinct a) : Distinct (a ++ b) := by
  refine ⟨?_, start_append h.1 ▸ h.2⟩
  rw [String.toList_append, List.length_append]
  exact Nat.le_trans h.1 (Nat.le_add_right _ _)

theorem agentError_distinct (e : AgentError) : Distinct e.display := by
  cases e with
  | maxIterationsExceeded max => exact .append (.append (by decide +kernel))
  | stuckInLoop toolName count => exact .append (.append (.append (.append (by decide +kernel))))
  | provider e => exact .append (by decide +kernel)
  | handoffValidationFailed tool reason =>
    exact .append (.append (.append (by decide +kernel)))
  | cancelled => decide +kernel

theorem llmError_distinct (e : LlmError) : Distinct e.display := by
  cases e with
  | rateLimit retryAfter =>
    cases retryAfter with
    | none => decide +kernel
    | some after => exact .append (.append (by decide +kernel))
  | overloaded => decide +kernel
  | apiError status message => exact .append (.append (.append (by decide +kernel)))
  | network message => exact .append (by decide +kernel)

theorem buildError_distinct (e : AgentBuildError) : Distinct e.display := by
  cases e with
  | invalidConfig nudge stuck =>
    exact .append (.append (.append (.append (by decide +kernel))))
  | handoffToolNotRegistered tool => exact .append (.append (by decide +kernel))
  | invalidHandoffSchema tool reason => exact .append (.append (.append (by decide +kernel)))

theorem forkError_distinct (e : String) : Distinct ("fork failed: " ++ e) :=
  .append (by decide +kernel)

end Texts

/-- Runs end as a run with retries does. -/
def Returned (_ : System) : Label → Prop
  | .runFinish _ outcome => ∃ cfg history input attempts,
      (AgentActor.runWithRetries cfg history input attempts).outcome = outcome
  | _ => True

theorem returned_not_lookup {s : System} {run : ℕ} {error : String} {recoverable : Bool}
    (h : Returned s (.runFinish run (.failed error recoverable))) : ¬ LookupError error := by
  obtain ⟨cfg, history, input, attempts, houtcome⟩ := h
  rcases runWithRetries_outcome cfg history input attempts with
    ⟨_, captured, result, -, -, hresult⟩ | hcancelled | ⟨e, _, hfailed, htext⟩
  · rw [houtcome] at hresult
    cases result <;> cases hresult
  · cases houtcome.symm.trans hcancelled
  · obtain ⟨rfl, -⟩ := RunOutcome.failed.inj (houtcome.symm.trans hfailed)
    rcases htext with ⟨e, rfl⟩ | ⟨e, rfl⟩ | ⟨e, rfl⟩
    · exact (buildError_distinct e).not_lookup
    · exact (llmError_distinct e).not_lookup
    · exact (agentError_distinct e).not_lookup

section Current

variable {wf : Workflow} {child : Option ActorRef} {state : WorkflowState}

/-- A current agent that can be spawned is found by every handler. -/
theorem not_missed (hcurrent : ∀ name, state.currentAgent = some name → ∃ a, Spawnable wf name a)
    (command : WorkflowCommand) : ¬ Missed wf child state command := by
  intro h
  have hfound : ∀ agentName, state.currentAgent = some agentName →
      agentDef wf agentName ≠ none := by
    intro agentName hagent hnone
    obtain ⟨a, ha⟩ := hcurrent agentName hagent
    cases ha.1.symm.trans hnone
  cases h with
  | concluded sessionId output agentName _ hagent hnone => exact hfound agentName hagent hnone
  | answered message toolCallId sessionId agentName _ _ _ hagent _ hnone =>
    exact hfound agentName hagent hnone
  | resumed message sessionId agentName _ _ hagent _ hnone => exact hfound agentName hagent hnone
  | forked source message agentName _ hagent hnone => exact hfound agentName hagent hnone

theorem not_missedOnRecovery
    (hcurrent : ∀ name, state.currentAgent = some name → ∃ a, Spawnable wf name a) :
    ¬ MissedOnRecovery wf state := by
  rintro ⟨hstatus, agentName, sessionId, hagent, hsession, hnone⟩
  obtain ⟨a, ha⟩ := hcurrent agentName hagent
  obtain ⟨d, hspawned⟩ := onRecoveryComplete_running hstatus hsession hagent ha.spawnable
  cases hspawned.symm.trans hnone

end Current

/-- In every run of a workflow with complete definitions no lookup fails it or silently ends
a handler. -/
theorem complete_succeeds {cfg : Config} (hcomplete : Complete cfg.workflow) {s : System}
    (hrun : Machine.Run (next cfg) Returned System.init s) :
    (∀ error, Held error s → ¬ LookupError error) ∧
      ∀ name, (fold s.workflowLog).currentAgent = some name →
        ∃ a, Spawnable cfg.workflow name a := by
  have hnamed : ∀ t, Machine.Run (next cfg) Returned System.init t → ∀ name,
      (fold t.workflowLog).currentAgent = some name → ∃ a, Spawnable cfg.workflow name a := by
    intro t hrun name hname
    obtain ⟨e, he, hnames⟩ := fold_named hname
    exact (reachable_inv hrun).2.2 e (List.mem_append_left _ he) name hnames
  refine ⟨?_, hnamed s hrun⟩
  refine (hrun.invariant (fun t => Machine.Run (next cfg) Returned System.init t ∧
    ∀ error, Held error t → ¬ LookupError error) ?_ ⟨.refl _, ?_⟩).2
  · rintro t l u ⟨hreach, hclean⟩ hreturned hnext
    refine ⟨.tail hreach hreturned hnext, fun error hheld => ?_⟩
    have hcurrent : ∀ wf, t.workflow = some wf → wf.phase = .waiting → ∀ name,
        wf.state.currentAgent = some name → ∃ a, Spawnable cfg.workflow name a := by
      intro wf hwf hphase name hname
      have hfolded := ((reachable_inv hreach).1.placed wf hwf).folded (by rw [hphase]; rfl)
      exact hnamed t hreach name (hfolded ▸ hname)
    rcases held_step hcomplete hcurrent hnext hheld with hold | ⟨e, rfl⟩ | ⟨run, r, rfl⟩
    · exact hclean error hold
    · exact (forkError_distinct e).not_lookup
    · exact returned_not_lookup hreturned
  · intro error hheld
    cases hheld with
    | recorded recoverable he => simp [record, System.init] at he
    | reported wf _ _ hwf _ => cases hwf
    | ended p _ hp _ => cases hp

/-- A workflow that the check accepts, with the registry of its configuration: in every run
of it no lookup fails the workflow or silently ends a handler. -/
theorem lookups_succeed (evalCondition : String → Value → Except String Value)
    (d : WorkflowDefinition) (config : OctoberConfig) (host : ProviderHost)
    (reg : ProviderRegistry) (hvalid : validate evalCondition d config = [])
    (hreg : buildRegistry host config = .ok reg) (backend : Backend) (notifyCapacity : ℕ)
    (s : System)
    (hrun : Machine.Run (next ⟨workflowOf evalCondition d reg, backend, notifyCapacity⟩)
      Returned System.init s) :
    (∀ error recoverable, .workflowFailed error recoverable ∈ record s → ¬ LookupError error) ∧
    (∀ wf, s.workflow = some wf → wf.phase = .waiting → ∀ command,
      ¬ Missed (workflowOf evalCondition d reg) wf.child wf.state command) ∧
    ¬ MissedOnRecovery (workflowOf evalCondition d reg) (fold s.workflowLog) := by
  obtain ⟨hclean, hcurrent⟩ := complete_succeeds (complete_of_validate hvalid hreg) hrun
  refine ⟨fun error recoverable he => hclean error (.recorded recoverable he),
    fun wf hwf hphase command => not_missed (fun name hname => ?_) command,
    not_missedOnRecovery hcurrent⟩
  have hfolded := ((reachable_inv hrun).1.placed wf hwf).folded (by rw [hphase]; rfl)
  exact hcurrent name (hfolded ▸ hname)

def localConfig : OctoberConfig where
  providers := AList.singleton "local" (.anthropic none none (some "http://localhost:1"))
  models := AList.singleton "m" ⟨"local", "id", none⟩

def bareHost : ProviderHost := ⟨fun _ => none, fun _ _ => .ok ()⟩

def relay : WorkflowDefinition :=
  ⟨"a", [⟨"a", none, "m", none, false, some [⟨"b", none⟩], none, none, none⟩,
    ⟨"b", none, "m", none, false, none, none, none, none⟩]⟩

def relayRegistry : ProviderRegistry :=
  AList.singleton "m" ⟨"id", none, some "http://localhost:1", none⟩

def relayConfig : Config :=
  ⟨workflowOf (fun _ _ => .ok .null) relay relayRegistry, .file, 256⟩

def relayed : List Label :=
  [.launch (some (.start "go")), .workflowRecover, .workflowHandle, .workflowPersist true,
    .agentRecover 0 "m0", .agentHandle 0 "m1", .agentPersist 0 true,
    .runFinish 0 (.completed "done"), .agentHandle 0 "m2", .workflowHandle,
    .workflowPersist true, .agentRecover 1 "m3", .agentHandle 1 "m4", .agentPersist 1 true,
    .runFinish 1 (.completed "done"), .agentHandle 1 "m5", .crash, .launch none,
    .workflowRecover]

def endsDone : Label → Bool
  | .runFinish _ (.completed text) => text == "done"
  | .runFinish _ _ => false
  | _ => true

def EndsDone (_ : System) (l : Label) : Prop := endsDone l = true

instance (s : System) (l : Label) : Decidable (EndsDone s l) :=
  inferInstanceAs (Decidable (_ = true))

/-- A run of a model that only says so. -/
theorem returned_done :
    (AgentActor.runWithRetries SessionLifetime.plainSetup.config [] (.userMessage "m" "go")
      SessionLifetime.textOnly).outcome = .completed "done" := by
  have hdone : endsDone (.runFinish 0 (AgentActor.runWithRetries
      SessionLifetime.plainSetup.config [] (.userMessage "m" "go")
      SessionLifetime.textOnly).outcome) = true := by decide +kernel
  revert hdone
  generalize (AgentActor.runWithRetries SessionLifetime.plainSetup.config []
    (.userMessage "m" "go") SessionLifetime.textOnly).outcome = outcome
  cases outcome with
  | completed text => simp [endsDone]
  | _ => exact fun h => by cases h

theorem EndsDone.returned {s : System} {l : Label} (h : EndsDone s l) : Returned s l := by
  cases l with
  | runFinish run outcome =>
    cases outcome with
    | completed text =>
      obtain rfl : text = "done" := by simpa [EndsDone, endsDone] using h
      exact ⟨SessionLifetime.plainSetup.config, [], .userMessage "m" "go",
        SessionLifetime.textOnly, returned_done⟩
    | _ => cases h
  | _ => trivial

def afterRelay : System := Machine.final (next relayConfig) EndsDone System.init relayed

theorem lookups_succeed_relay :
    (∀ error recoverable, .workflowFailed error recoverable ∈ record afterRelay →
      ¬ LookupError error) ∧
    (∀ wf, afterRelay.workflow = some wf → wf.phase = .waiting → ∀ command,
      ¬ Missed relayConfig.workflow wf.child wf.state command) ∧
    ¬ MissedOnRecovery relayConfig.workflow (fold afterRelay.workflowLog) :=
  lookups_succeed (fun _ _ => .ok .null) relay localConfig bareHost relayRegistry
    (by decide +kernel) rfl .file 256 afterRelay
    ((Machine.run_final relayed (by decide +kernel)).mono (fun _ _ => EndsDone.returned))

end October.ValidatedWorkflows
