import October.WorkflowInvariants

/-!
What a crash leaves of a running task. The workflow's journal names the input of the
current session, the session's own journal holds the message, and the two are
written by different actors. Recovery re-drives a conversation that is not empty and
sends no command, so the task continues exactly when the session's journal already
holds the input at the crash.
-/
namespace October.ContinuedTask

open AgentActor WorkflowActor WorkflowInvariants

def isInput (input : String) (m : Message) : Bool :=
  m.role == .user && match m.parts with
    | [.text text] => text == input
    | _ => false

def holdsInput (input : String) (messages : List Message) : Bool := messages.any (isInput input)

def journaled (s : System) (sessionId : Uuid) (input : String) : Bool :=
  holdsInput input (s.sessions sessionId).state.messages

/-- Whether an event records an input for the current session that is not journaled. -/
def unjournaled (s : System) (current : Option Uuid) : WorkflowDomainEvent → Bool
  | .agentStarted _ sessionId input => current == some sessionId && !journaled s sessionId input
  | _ => false

/-- If the workflow's journal folds to Running, the recorded input of its session is journaled. -/
def kept (s : System) : Bool :=
  (fold s.workflowLog).status != .running ||
    s.workflowLog.all (fun e => !unjournaled s (fold s.workflowLog).currentSessionId e)

def restart (messageId : String) : List Label :=
  [.crash, .launch none, .workflowRecover, .agentRecover 0 messageId]

/-- After a restart here, the agent of the current session of a running workflow starts a
run whose history holds the input recorded for the session. -/
def Continues (cfg : Config) (s : System) : Prop :=
  ∀ agentName sessionId input messageId, (fold s.workflowLog).status = .running →
    (fold s.workflowLog).currentSessionId = some sessionId →
    .agentStarted agentName sessionId input ∈ s.workflowLog →
    ∃ t task, Machine.exec (next cfg) Machine.free s (restart messageId) = some t ∧
      task ∈ t.runs ∧ task.session = sessionId ∧ holdsInput input task.history = true

structure Tasked (cfg : Config) (log : List WorkflowDomainEvent) (agentName : String)
    (sessionId : Uuid) (input : String) : Prop where
  agent : (fold log).currentAgent = some agentName
  session : (fold log).currentSessionId = some sessionId
  spawnable : spawnable cfg.workflow agentName = true
  recorded : ∀ name input', .agentStarted name sessionId input' ∈ log → input' = input
  started : .agentStarted agentName sessionId input ∈ log

def Driven (cfg : Config) (log : List WorkflowDomainEvent) : Prop :=
  (fold log).status = .running → ∃ agentName sessionId input,
    Tasked cfg log agentName sessionId input

variable {cfg : Config} {s t : System}

theorem holdsInput_append (input : String) (messages more : List Message) :
    holdsInput input (messages ++ more) = (holdsInput input messages || holdsInput input more) :=
  List.any_append

/-- The synthetic results of a recovery are no input. -/
theorem holdsInput_sanitize (input : String) (messages : List Message) :
    holdsInput input (sanitizeForResume messages) = holdsInput input messages := by
  unfold sanitizeForResume
  dsimp only
  rw [holdsInput_append]
  have hnone : ∀ ids : List String, holdsInput input (ids.map (fun id =>
      Message.toolResult id "interrupted by shutdown, not completed" true)) = false := by
    intro ids
    unfold holdsInput
    rw [List.any_eq_false]
    intro m hm
    obtain ⟨id, _, rfl⟩ := List.mem_map.mp hm
    simp [isInput, Message.toolResult]
  rw [hnone, Bool.or_false]

theorem applyEvent_messages (state : AgentState) (e : AgentDomainEvent) :
    ∃ more, (AgentActor.applyEvent state e).messages = state.messages ++ more := by
  cases e with
  | inputMessage _ | messageComplete _ | toolComplete _ _ _ => exact ⟨_, rfl⟩
  | runComplete _ _ | runCancelled => exact ⟨[], (List.append_nil _).symm⟩

theorem foldl_messages (events : List AgentDomainEvent) (state : AgentState) :
    ∃ more, (events.foldl AgentActor.applyEvent state).messages = state.messages ++ more := by
  induction events generalizing state with
  | nil => exact ⟨[], (List.append_nil _).symm⟩
  | cons e rest ih =>
    obtain ⟨first, hfirst⟩ := applyEvent_messages state e
    obtain ⟨more, hmore⟩ := ih (AgentActor.applyEvent state e)
    exact ⟨first ++ more, by rw [List.foldl_cons, hmore, hfirst, List.append_assoc]⟩

/-- A journal call that succeeds appends the events of the effect. -/
theorem journalCall_state (backend : Backend) (effect : CommandEffect AgentDomainEvent)
    (state : AgentState) (log : SessionLog) :
    (System.journalCall backend true effect state log).state =
      effect.events.foldl AgentActor.applyEvent log.state := by
  cases effect with
  | snapshot => cases backend <;> rfl
  | _ => simp [System.journalCall, SessionLog.state]

/-- A handler that starts an agent records its input. -/
theorem driven_entered (hs : Base s) {agentName input : String}
    {events : List WorkflowDomainEvent} (hspawnable : spawnable cfg.workflow agentName = true)
    (hstarted : events.getLast? = some (.agentStarted agentName s.nextSession input))
    (honly : ∀ name input', .agentStarted name s.nextSession input' ∈ events → input' = input) :
    Driven cfg (s.workflowLog ++ events) := by
  intro _
  obtain ⟨before, rfl⟩ := List.getLast?_eq_some_iff.mp hstarted
  have hfold : fold (s.workflowLog ++ (before ++ [.agentStarted agentName s.nextSession input])) =
      WorkflowActor.applyEvent (fold (s.workflowLog ++ before))
        (.agentStarted agentName s.nextSession input) := by
    rw [← List.append_assoc, fold_append]
    rfl
  refine ⟨agentName, s.nextSession, input, by rw [hfold]; rfl, by rw [hfold]; rfl, hspawnable,
    fun name input' hmem => ?_, by simp⟩
  rcases List.mem_append.mp hmem with hold | hnew
  · exact absurd (hs.recorded _ (List.mem_append_left _ hold) _ rfl) (Nat.lt_irrefl _)
  · exact honly name input' hnew

theorem driven_answered (hs : Base s) (h : Driven cfg s.workflowLog) {wf : WorkflowProc}
    {command : WorkflowCommand} {reply : Reply}
    (hreply : WorkflowActor.Handled cfg.workflow (s.fresh cfg command) wf.child wf.state command
      reply) :
    Driven cfg (s.workflowLog ++ reply.effect.events) := by
  cases hreply with
  | started input d hspawnable =>
    exact driven_entered hs hspawnable.spawnable rfl (by simp [entered, System.fresh])
  | transitioned sessionId output source target condition d _ hspawnable =>
    exact driven_entered hs hspawnable.spawnable rfl (by simp [entered, System.fresh])
  | forked source message agentName d _ _ hspawnable _ =>
    exact driven_entered hs hspawnable.spawnable rfl (by simp [entered, System.fresh])
  | stale _ _ _ _ | unresumed _ | unforked _ _ | resumed _ _ _ _ _
  | respawned _ _ _ _ _ _ _ _ _ _ =>
    change Driven cfg (s.workflowLog ++ [])
    rw [List.append_nil]
    exact h
  | failed _ _ _ _ _ | finished _ _ _ | cancelled | suspended _ _ _ | paused _ _ _ _ =>
    intro hrunning
    rw [fold_append] at hrunning
    contradiction

structure Inv (cfg : Config) (s : System) : Prop where
  stored : Driven cfg s.workflowLog
  recorded : Driven cfg (record s)

theorem kept_journaled (hkept : kept s = true) {agentName input : String} {sessionId : Uuid}
    (hrunning : (fold s.workflowLog).status = .running)
    (hsession : (fold s.workflowLog).currentSessionId = some sessionId)
    (hstarted : .agentStarted agentName sessionId input ∈ s.workflowLog) :
    journaled s sessionId input = true := by
  unfold kept at hkept
  rw [hrunning, hsession] at hkept
  simp only [bne_self_eq_false, Bool.false_or, List.all_eq_true] at hkept
  have h := hkept _ hstarted
  simpa [unjournaled] using h

theorem Inv.step (hs : Base s) (h : Inv cfg s) {l : Label} (hstep : Step cfg s l t) :
    Inv cfg t := by
  obtain ⟨hlog, hrecord⟩ := h
  have hframe := step_frame hstep
  cases hstep with
  | crashed =>
    refine ⟨hlog, ?_⟩
    rw [show record s.crash = s.workflowLog from List.append_nil _]
    exact hlog
  | launched kickoff hop hnone => exact ⟨hlog, by rw [record]; simpa using hlog⟩
  | recovered wf spawned hwf hphase hspawned =>
    have hsame : (s.spawns spawned).workflowLog = s.workflowLog := by cases spawned <;> rfl
    refine ⟨by rw [hsame]; exact hlog, ?_⟩
    rw [record]
    simpa [hsame] using hlog
  | handled wf command rest reply channel hwf hphase hmailbox hreply =>
    refine ⟨hlog, ?_⟩
    have hdriven := driven_answered hs hlog
      (hreply ▸ WorkflowActor.handleCommand_handled command)
    rw [record]
    simpa [System.answered] using hdriven
  | persisted wf effect events ok hwf hphase hevents =>
    have hrecords : record s = s.workflowLog ++ effect.events := by simp [record, hwf, hphase]
    rw [hrecords] at hrecord
    cases ok with
    | true =>
      obtain rfl : events = effect.events := by simpa using hevents
      exact ⟨hrecord, by rw [record]; simpa using hrecord⟩
    | false =>
      obtain rfl : events = [] := by simpa using hevents
      rw [List.append_nil]
      exact ⟨hlog, by rw [record]; simpa using hlog⟩
  | _ =>
    have hframe' := hframe rfl
    exact ⟨by rw [hframe'.log]; exact hlog, by rw [record_frame hframe']; exact hrecord⟩

theorem inv_reachable (hrun : Machine.Run (next cfg) Machine.free System.init s) :
    Base s ∧ Inv cfg s :=
  hrun.invariant (fun s => Base s ∧ Inv cfg s)
    (fun _ _ _ hs _ hstep => ⟨hs.1.step (next_step hstep), hs.2.step hs.1 (next_step hstep)⟩)
    ⟨base_init, fun h => by contradiction, fun h => by contradiction⟩

def relaunched (s : System) : System :=
  { s.crash with workflow := some ⟨WorkflowActor.initialState, none, [], .recovering⟩ }

def respawned (s : System) (d : WorkflowAgentDef) (sessionId : Uuid) : System :=
  { s.crash with
    workflow := some ⟨fold s.workflowLog, some 0, [], .waiting⟩
    agents := [AgentProc.spawned d sessionId] }

theorem next_relaunched {d : WorkflowAgentDef} {sessionId : Uuid}
    (hspawned : WorkflowActor.onRecoveryComplete cfg.workflow (fold s.workflowLog) =
      some (d, sessionId)) :
    next cfg (relaunched s) .workflowRecover = some (respawned s d sessionId) := by
  simp [next, System.workflowRecover, relaunched, respawned, System.crash, hspawned,
    System.spawns, System.spawnAgent]

/-- The re-spawned agent re-drives a conversation that is not empty. -/
theorem next_respawned (cfg : Config) (s : System) (d : WorkflowAgentDef) (sessionId : Uuid)
    (messageId : String) :
    ∃ t, next cfg (respawned s d sessionId) (.agentRecover 0 messageId) = some t ∧
      t.runs = if (s.sessions sessionId).state.messages = [] then [] else
        [⟨0, sessionId, .userMessage messageId "continue the interrupted task",
          sanitizeForResume (s.sessions sessionId).state.messages, false, false⟩] := by
  refine ⟨_, rfl, ?_⟩
  simp only [AgentActor.onRecoveryComplete]
  cases hmessages : (s.sessions sessionId).state.messages with
  | nil => simp [respawned, AgentProc.spawned, System.crash, hmessages]
  | cons m ms =>
    simp [respawned, AgentProc.spawned, System.crash, hmessages, AgentActor.startRun,
      System.performAgent]

theorem restart_exec {d : WorkflowAgentDef} {sessionId : Uuid} (messageId : String)
    (hspawned : WorkflowActor.onRecoveryComplete cfg.workflow (fold s.workflowLog) =
      some (d, sessionId)) :
    ∃ t, Machine.exec (next cfg) Machine.free s (restart messageId) = some t ∧
      t.runs = if (s.sessions sessionId).state.messages = [] then [] else
        [⟨0, sessionId, .userMessage messageId "continue the interrupted task",
          sanitizeForResume (s.sessions sessionId).state.messages, false, false⟩] := by
  obtain ⟨t, ht, hruns⟩ := next_respawned cfg s d sessionId messageId
  have hlaunch : next cfg s.crash (.launch none) = some (relaunched s) := rfl
  refine ⟨t, ?_, hruns⟩
  unfold restart
  rw [Machine.exec_cons _ trivial rfl, Machine.exec_cons _ trivial hlaunch,
    Machine.exec_cons _ trivial (next_relaunched hspawned), Machine.exec_cons _ trivial ht]
  rfl

/-- The task continues after a crash exactly if the input of the current session is
journaled when the process dies. -/
theorem continues_iff_kept (cfg : Config) (s : System)
    (hrun : Machine.Run (next cfg) Machine.free System.init s) :
    Continues cfg s ↔ kept s = true := by
  obtain ⟨hbase, hinv⟩ := inv_reachable hrun
  constructor
  · intro hcontinues
    unfold kept
    by_cases hrunning : (fold s.workflowLog).status = .running
    · obtain ⟨agentName, sessionId, input, htasked⟩ := hinv.stored hrunning
      obtain ⟨t, task, hexec, htask, _, hholds⟩ := hcontinues agentName sessionId input "" hrunning
        htasked.session htasked.started
      obtain ⟨d, hspawned⟩ := onRecoveryComplete_running hrunning htasked.session htasked.agent
        htasked.spawnable
      obtain ⟨t', hexec', hruns⟩ := restart_exec "" hspawned
      cases Option.some.inj (hexec.symm.trans hexec')
      have hjournaled : journaled s sessionId input = true := by
        rw [hruns] at htask
        split at htask
        · simp at htask
        · rw [List.mem_singleton] at htask
          rw [htask, holdsInput_sanitize] at hholds
          exact hholds
      rw [hrunning, htasked.session]
      simp only [bne_self_eq_false, Bool.false_or, List.all_eq_true]
      intro e he
      cases e with
      | agentStarted name sid input' =>
        by_cases hsid : sessionId = sid
        · subst hsid
          rw [htasked.recorded name input' he]
          simp [unjournaled, hjournaled]
        · simp [unjournaled, hsid]
      | _ => rfl
    · simp [hrunning]
  · intro hkept agentName sessionId input messageId hrunning hsession hstarted
    have hjournaled := kept_journaled hkept hrunning hsession hstarted
    obtain ⟨name, sid, _, htasked⟩ := hinv.stored hrunning
    cases Option.some.inj (hsession.symm.trans htasked.session)
    obtain ⟨d, hspawned⟩ := onRecoveryComplete_running hrunning htasked.session htasked.agent
      htasked.spawnable
    obtain ⟨t, hexec, hruns⟩ := restart_exec messageId hspawned
    have hne : (s.sessions sessionId).state.messages ≠ [] := by
      intro hnil
      unfold journaled at hjournaled
      rw [hnil] at hjournaled
      contradiction
    rw [if_neg hne] at hruns
    refine ⟨t, _, hexec, by rw [hruns]; exact List.mem_singleton.mpr rfl, rfl, ?_⟩
    rw [holdsInput_sanitize]
    exact hjournaled

def redrivenOnce : System :=
  Machine.final (next (solo .inMemory)) Machine.free System.init (soloRunning ++ restart "m2")

theorem continues_redrivenOnce :
    Continues (solo .inMemory) redrivenOnce ↔ kept redrivenOnce = true :=
  continues_iff_kept (solo .inMemory) redrivenOnce (Machine.run_final _ (by decide +kernel))

def persists : Label → Bool
  | .agentPersist _ ok => ok
  | _ => true

def Persists (_ : System) (l : Label) : Prop := persists l = true

instance (s : System) (l : Label) : Decidable (Persists s l) :=
  inferInstanceAs (Decidable (_ = true))

def startedOnly : System :=
  Machine.final (next (solo .inMemory)) Persists System.init
    [.launch (some (.start "go")), .workflowRecover, .workflowHandle, .workflowPersist true]

/-- A crash between the two journals' writes leaves a running workflow with an idle agent. -/
theorem task_lost_after_crash :
    ¬ ∀ (cfg : Config) (s : System), Machine.Run (next cfg) Persists System.init s →
      Continues cfg s := by
  intro h
  obtain ⟨t, task, hexec, htask, _, _⟩ := h (solo .inMemory) startedOnly
    (Machine.run_final _ (by decide +kernel)) "solo" 0 "go" "m0" (by decide +kernel)
    (by decide +kernel) (List.mem_of_getElem? (i := 1) rfl)
  have hruns : (Machine.final (next (solo .inMemory)) Machine.free startedOnly
      (restart "m0")).runs.length = 0 := by decide +kernel
  rw [Machine.final, hexec, Option.getD_some, List.length_eq_zero_iff] at hruns
  rw [hruns] at htask
  simp at htask

end October.ContinuedTask
