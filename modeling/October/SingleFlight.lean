import October.WorkflowInvariants

/-!
Runs in flight per session. The load of a live agent counts its unfinished runs, the
commands in its mailbox that start one, and the run its recovery is about to start.
Resume and Fork add to the load without looking at it; if they are handled at rest,
no load ever exceeds one, and no session has two runs in flight.
-/
namespace October.SingleFlight

open AgentActor WorkflowActor WorkflowInvariants

def starts : AgentCommand → Bool
  | .run _ => true
  | .injectToolResult _ _ => true
  | _ => false

def inFlight (s : System) (sessionId : Uuid) : ℕ :=
  s.runs.countP (fun task => task.session == sessionId && !task.finished)

def runsOf (s : System) (ref : ActorRef) : ℕ :=
  s.runs.countP (fun task => task.agent == ref && !task.finished)

def emptySession (sessions : Uuid → SessionLog) (sessionId : Uuid) : Bool :=
  (sessions sessionId).state.messages.isEmpty

def redrives (sessions : Uuid → SessionLog) (p : AgentProc) : ℕ :=
  if p.phase.isRecovering && !emptySession sessions p.actor.sessionId then 1 else 0

def agentLoad (sessions : Uuid → SessionLog) (p : AgentProc) : ℕ :=
  p.mailbox.countP starts + redrives sessions p

def load (s : System) (ref : ActorRef) : ℕ :=
  runsOf s ref + ((s.agents[ref]?).map (agentLoad s.sessions)).getD 0

/-- Nothing is in flight or queued at the agent, or it has stopped. -/
def resting (s : System) (ref : ActorRef) : Bool :=
  load s ref == 0 || ((s.agents[ref]?).map (fun p => p.phase.isStopped)).getD true

def copiesNothing (backend : Backend) (s : System) (source : Uuid) : Bool :=
  emptySession (copySnapshot backend source s.nextSession s.sessions).2 s.nextSession

/-- A Resume that is handed on finds its agent at rest, or an empty session to spawn the
agent for; a Fork that spawns copies nothing. -/
def rests (cfg : Config) (s : System) (wf : WorkflowProc) : WorkflowCommand → Bool
  | .resume _ =>
    !resumable wf.state ||
      match wf.child with
      | some ref => resting s ref
      | none =>
        !wf.state.currentAgent.any (spawnable cfg.workflow) ||
          wf.state.currentSessionId.all (emptySession s.sessions)
  | .fork source _ =>
    wf.state.status != .suspended || !wf.state.currentAgent.any (spawnable cfg.workflow) ||
      copiesNothing cfg.backend s source
  | _ => true

def AtRest (cfg : Config) (s : System) (l : Label) : Prop := HandlesOnly (rests cfg s) s l

instance (cfg : Config) (s : System) (l : Label) : Decidable (AtRest cfg s l) :=
  inferInstanceAs (Decidable (HandlesOnly _ s l))

def Light (s : System) : Prop := ∀ ref, load s ref ≤ 1

variable {cfg : Config} {s t : System}

theorem starts_of_startsRun {messageId : String} {command : AgentCommand} {input : AgentInput}
    (h : startsRun messageId command = some input) : starts command = true := by
  cases command <;> first | rfl | contradiction

section Tell

variable (sessions : Uuid → SessionLog) (command : AgentCommand) (p : AgentProc)

theorem agentLoad_tell (h : starts command = false) :
    agentLoad sessions (p.tell command) = agentLoad sessions p := by
  unfold agentLoad redrives
  rw [AgentProc.tell_actor, AgentProc.tell_phase]
  unfold AgentProc.tell
  split
  · rfl
  · simp [h]

theorem agentLoad_tell_le : agentLoad sessions (p.tell command) ≤ agentLoad sessions p + 1 := by
  unfold agentLoad redrives
  rw [AgentProc.tell_actor, AgentProc.tell_phase]
  unfold AgentProc.tell
  split
  · omega
  · rw [List.countP_append, List.countP_singleton]
    split <;> omega

theorem agentLoad_tell_stopped (h : p.phase.isStopped = true) :
    agentLoad sessions (p.tell command) = agentLoad sessions p := by
  unfold AgentProc.tell
  rw [if_pos h]

end Tell

section Moves

variable {p p' : AgentProc} {command : AgentCommand} {rest : List AgentCommand}

/-- The load of an agent that has recovered is in its mailbox. -/
theorem agentLoad_live (sessions : Uuid → SessionLog) (h : p.phase.isRecovering = false) :
    agentLoad sessions p = p.mailbox.countP starts := by
  unfold agentLoad redrives
  rw [h]
  rfl

/-- An agent that recovers takes the run it starts off its load. -/
theorem agentLoad_recovered (sessions : Uuid → SessionLog) (hphase : p.phase = .recovering)
    (hmailbox : p'.mailbox = p.mailbox) (hlive : p'.phase.isRecovering = false) :
    agentLoad sessions p' + (if emptySession sessions p.actor.sessionId = true then 0 else 1) =
      agentLoad sessions p := by
  have hold : agentLoad sessions p = p.mailbox.countP starts + redrives sessions p := rfl
  rw [agentLoad_live sessions hlive, hold, hmailbox]
  unfold redrives
  rw [hphase]
  cases emptySession sessions p.actor.sessionId <;> rfl

theorem agentLoad_idle (sessions : Uuid → SessionLog) (hphase : p.phase = .recovering)
    (hmailbox : p'.mailbox = p.mailbox) (hlive : p'.phase.isRecovering = false) :
    agentLoad sessions p' ≤ agentLoad sessions p := by
  have hload := agentLoad_recovered sessions hphase hmailbox hlive
  omega

theorem agentLoad_redriven {sessions : Uuid → SessionLog} (hphase : p.phase = .recovering)
    (hmessages : (sessions p.actor.sessionId).state.messages ≠ [])
    (hmailbox : p'.mailbox = p.mailbox) (hlive : p'.phase.isRecovering = false) :
    agentLoad sessions p' + 1 ≤ agentLoad sessions p := by
  have hload := agentLoad_recovered sessions hphase hmailbox hlive
  have hnonempty : emptySession sessions p.actor.sessionId = false := by
    simpa [emptySession] using hmessages
  rw [hnonempty, if_neg (by simp)] at hload
  omega

/-- A command that an agent takes is off its load. -/
theorem agentLoad_taken (sessions : Uuid → SessionLog) (hphase : p.phase = .waiting)
    (hmailbox : p.mailbox = command :: rest) (hrest : p'.mailbox = rest)
    (hlive : p'.phase.isRecovering = false) :
    agentLoad sessions p' + (if starts command = true then 1 else 0) = agentLoad sessions p := by
  have hwaiting : p.phase.isRecovering = false := by rw [hphase]; rfl
  rw [agentLoad_live sessions hlive, agentLoad_live sessions hwaiting, hmailbox, hrest,
    List.countP_cons]

theorem agentLoad_started (sessions : Uuid → SessionLog) (hphase : p.phase = .waiting)
    (hmailbox : p.mailbox = command :: rest) (hstarts : starts command = true)
    (hrest : p'.mailbox = rest) (hlive : p'.phase.isRecovering = false) :
    agentLoad sessions p' + 1 ≤ agentLoad sessions p := by
  have hload := agentLoad_taken sessions hphase hmailbox hrest hlive
  rw [if_pos hstarts] at hload
  omega

theorem agentLoad_handled (sessions : Uuid → SessionLog) (hphase : p.phase = .waiting)
    (hmailbox : p.mailbox = command :: rest) (hrest : p'.mailbox = rest)
    (hlive : p'.phase.isRecovering = false) : agentLoad sessions p' ≤ agentLoad sessions p := by
  have hload := agentLoad_taken sessions hphase hmailbox hrest hlive
  omega

/-- A journal call leaves the load of its agent. -/
theorem agentLoad_called (sessions sessions' : Uuid → SessionLog)
    {effect : CommandEffect AgentDomainEvent} (hphase : p.phase = .performing effect)
    (hmailbox : p'.mailbox = p.mailbox) (hcalled : p'.phase = Phase.called effect) :
    agentLoad sessions' p' ≤ agentLoad sessions p := by
  have hold : p.phase.isRecovering = false := by rw [hphase]; rfl
  have hnew : p'.phase.isRecovering = false := by rw [hcalled, Phase.isRecovering_called]
  refine Nat.le_of_eq ?_
  rw [agentLoad_live sessions' hnew, agentLoad_live sessions hold, hmailbox]

end Moves

theorem agentLoad_congr {sessions sessions' : Uuid → SessionLog} {p : AgentProc}
    (h : sessions' p.actor.sessionId = sessions p.actor.sessionId) :
    agentLoad sessions' p = agentLoad sessions p := by
  unfold agentLoad redrives emptySession
  rw [h]

theorem load_eq {ref : ActorRef} {p : AgentProc} (hp : s.agents[ref]? = some p) :
    load s ref = runsOf s ref + agentLoad s.sessions p := by
  unfold load
  rw [hp, Option.map_some, Option.getD_some]

theorem load_none {ref : ActorRef} (h : s.agents[ref]? = none) : load s ref = runsOf s ref := by
  unfold load
  rw [h, Option.map_none, Option.getD_none, Nat.add_zero]

theorem runsOf_addRun (task : RunTask) (s : System) (ref : ActorRef) :
    runsOf (s.addRun task) ref =
      runsOf s ref + if (task.agent == ref && !task.finished) = true then 1 else 0 := by
  unfold runsOf System.addRun
  rw [List.countP_append, List.countP_singleton]

theorem runsOf_eq_zero (hs : Base s) {ref : ActorRef} (h : (agentSessions s).length ≤ ref) :
    runsOf s ref = 0 := by
  unfold runsOf
  rw [List.countP_eq_zero]
  intro task htask
  have hagent := (List.getElem?_eq_some_iff.mp (hs.tasks task htask)).1
  have hne : task.agent ≠ ref := Nat.ne_of_lt (Nat.lt_of_lt_of_le hagent h)
  simp [hne]

/-- A step of one agent keeps the loads of the others; its own does not grow. -/
theorem light_agent (hs : Base s) (hlight : Light s) {ref : ActorRef} {p p' : AgentProc}
    (hp : s.agents[ref]? = some p) (hagents : t.agents = s.agents.set ref p')
    (hsessions : ∀ sessionId, sessionId ≠ p.actor.sessionId →
      t.sessions sessionId = s.sessions sessionId)
    (hruns : ∀ r, r ≠ ref → runsOf t r = runsOf s r)
    (hload : runsOf t ref + agentLoad t.sessions p' ≤ runsOf s ref + agentLoad s.sessions p) :
    Light t := by
  intro r
  have h := hlight r
  by_cases hr : r = ref
  · subst hr
    have hp' : t.agents[r]? = some p' := by
      rw [hagents, List.getElem?_set_self (List.getElem?_eq_some_iff.mp hp).1]
    rw [load_eq hp] at h
    rw [load_eq hp']
    exact Nat.le_trans hload h
  · have hsame : t.agents[r]? = s.agents[r]? := by
      rw [hagents, List.getElem?_set_ne (Ne.symm hr)]
    cases hq : s.agents[r]? with
    | none =>
      rw [load_none hq] at h
      rw [load_none (hsame.trans hq), hruns r hr]
      exact h
    | some q =>
      have hne : q.actor.sessionId ≠ p.actor.sessionId := by
        intro heq
        have hq' := mem_agentSessions hq
        have hp' := mem_agentSessions hp
        rw [heq] at hq'
        exact hr ((List.getElem?_inj (List.getElem?_eq_some_iff.mp hq').1 hs.nodup).mp
          (hq'.trans hp'.symm))
      rw [load_eq hq] at h
      rw [load_eq (hsame.trans hq), hruns r hr, agentLoad_congr (hsessions _ hne)]
      exact h

/-- Telling an agent a command that starts no run changes no load. -/
theorem load_modify (s t : System) {command : AgentCommand} (h : starts command = false)
    (ref i : ActorRef)
    (hagents : t.agents = s.agents.modify i (AgentProc.tell command))
    (hsessions : t.sessions = s.sessions) (hruns : runsOf t ref ≤ runsOf s ref) :
    load t ref ≤ load s ref := by
  have hagent := (congrArg (fun l => l[ref]?) hagents).trans
    (getElem?_modify_tell s.agents i ref command)
  cases hp : s.agents[ref]? with
  | none =>
    rw [hp, Option.map_none] at hagent
    rw [load_none hp, load_none hagent]
    exact hruns
  | some p =>
    rw [hp, Option.map_some] at hagent
    rw [load_eq hp, load_eq hagent, hsessions]
    split
    · rw [agentLoad_tell _ _ _ h]
      exact Nat.add_le_add_right hruns _
    · exact Nat.add_le_add_right hruns _

section Answered

variable {wf : WorkflowProc} {command : WorkflowCommand} {rest : List WorkflowCommand}
  {reply : Reply} {channel : List WorkflowNotification}

/-- A command that starts a run is told to a live child by Resume only. -/
theorem handled_told {w : Workflow} {fresh : Fresh} {child : Option ActorRef}
    {state : WorkflowState} (h : Handled w fresh child state command reply)
    (hspawned : reply.spawned = none) {ref : ActorRef} {told : AgentCommand}
    (htold : reply.told = some (ref, told)) :
    starts told = false ∨
      (∃ message, command = .resume message) ∧ child = some ref ∧ resumable state = true := by
  cases h with
  | cancelled =>
    obtain ⟨r, _, heq⟩ := Option.map_eq_some_iff.mp htold
    cases heq
    exact Or.inl rfl
  | resumed message r told' hchild hresumable =>
    cases Option.some.inj htold
    exact Or.inr ⟨⟨message, rfl⟩, hchild, hresumable⟩
  | _ => contradiction

/-- The session a spawned agent recovers is fresh, a fork's copy or the current one. -/
theorem handled_entered {w : Workflow} {fresh : Fresh} {child : Option ActorRef}
    {state : WorkflowState} (h : Handled w fresh child state command reply)
    {d : WorkflowAgentDef} {sessionId : Uuid} (hspawned : reply.spawned = some (d, sessionId)) :
    (∃ told, reply.told = some (fresh.ref, told)) ∧
      ((sessionId = fresh.sessionId ∧ reply.copied = none) ∨
        (∃ source message, command = .fork source message ∧ state.status = .suspended ∧
          state.currentAgent.any (spawnable w) = true ∧
          sessionId = fresh.sessionId ∧ reply.copied = some (source, fresh.sessionId)) ∨
        (∃ message, command = .resume message) ∧ child = none ∧ resumable state = true ∧
          state.currentAgent.any (spawnable w) = true ∧
          state.currentSessionId = some sessionId ∧ reply.copied = none) := by
  cases h with
  | started _ _ _ | transitioned _ _ _ _ _ _ _ _ =>
    cases Option.some.inj hspawned
    exact ⟨⟨_, rfl⟩, Or.inl ⟨rfl, rfl⟩⟩
  | forked source message _ _ hstatus hagent hspawnable _ =>
    cases Option.some.inj hspawned
    exact ⟨⟨_, rfl⟩, Or.inr (Or.inl ⟨source, message, rfl, hstatus,
      by simpa [hagent] using hspawnable.spawnable, rfl, rfl⟩)⟩
  | respawned message _ _ _ _ hchild hresumable hsession hagent hspawnable =>
    cases Option.some.inj hspawned
    exact ⟨⟨_, rfl⟩, Or.inr (Or.inr ⟨⟨message, rfl⟩, hchild, hresumable,
      by simpa [hagent] using hspawnable.spawnable, hsession, rfl⟩)⟩
  | _ => contradiction

/-- A handled command leaves the load of a live agent as it is, up to what it tells it. -/
theorem answered_load (rest : List WorkflowCommand) (channel : List WorkflowNotification)
    (hs : Base s)
    (hreply : Handled cfg.workflow (s.fresh cfg command) wf.child wf.state command reply)
    {ref : ActorRef} {p : AgentProc} (hp : s.agents[ref]? = some p) :
    agentLoad (s.answered cfg wf rest reply channel).sessions p = agentLoad s.sessions p := by
  refine agentLoad_congr (copies_sessions (fun source target hcopied heq => ?_))
  rw [handled_copied hreply hcopied] at heq
  have hlt := hs.below _ (List.mem_of_getElem? (mem_agentSessions hp))
  exact Nat.lt_irrefl _ (heq ▸ hlt)

/-- The agents that were live before the handler stay light. -/
theorem light_live (hs : Base s) (hlight : Light s)
    (hreply : Handled cfg.workflow (s.fresh cfg command) wf.child wf.state command reply)
    (htold : ∀ ref told, reply.told = some (ref, told) → ref < s.agents.length →
      starts told = false ∨ resting s ref = true) {ref : ActorRef} {p : AgentProc}
    (hp : s.agents[ref]? = some p) : load (s.answered cfg wf rest reply channel) ref ≤ 1 := by
  have h := hlight ref
  have hsame := answered_load rest channel hs hreply hp
  obtain ⟨q, hq, hcase⟩ := repliedAgents_live reply hp
  rw [load_eq hp] at h
  rw [load_eq (s := s.answered cfg wf rest reply channel) hq]
  change runsOf s ref + _ ≤ 1
  rcases hcase with rfl | ⟨told, hreplied, rfl⟩
  · rw [hsame]
    exact h
  · rcases htold ref told hreplied (List.getElem?_eq_some_iff.mp hp).1 with hquiet | hrest
    · rw [agentLoad_tell _ _ _ hquiet, hsame]
      exact h
    · unfold resting at hrest
      rw [load_eq hp, hp] at hrest
      simp only [Option.map_some, Option.getD_some, Bool.or_eq_true, beq_iff_eq] at hrest
      rcases hrest with hzero | hstop
      · have hle := agentLoad_tell_le (s.answered cfg wf rest reply channel).sessions told p
        rw [hsame] at hle
        omega
      · rw [agentLoad_tell_stopped _ _ _ hstop, hsame]
        exact h

/-- A handler adds at most the agent it spawned, over a session without messages. -/
theorem light_answered (hs : Base s) (hlight : Light s)
    (hreply : Handled cfg.workflow (s.fresh cfg command) wf.child wf.state command reply)
    (htold : ∀ ref told, reply.told = some (ref, told) → ref < s.agents.length →
      starts told = false ∨ resting s ref = true)
    (hspawned : ∀ d sessionId, reply.spawned = some (d, sessionId) →
      emptySession (s.copies cfg reply.copied).sessions sessionId = true) :
    Light (s.answered cfg wf rest reply channel) := by
  intro ref
  cases hp : s.agents[ref]? with
  | some p => exact light_live hs hlight hreply htold hp
  | none =>
    have hle : s.agents.length ≤ ref := List.getElem?_eq_none_iff.mp hp
    have hruns : runsOf (s.answered cfg wf rest reply channel) ref = 0 :=
      runsOf_eq_zero hs (by simpa [agentSessions] using hle)
    cases hq : (s.answered cfg wf rest reply channel).agents[ref]? with
    | none =>
      rw [load_none hq, hruns]
      exact Nat.zero_le 1
    | some q =>
      have hlt := (List.getElem?_eq_some_iff.mp hq).1
      rw [System.answered_agents, repliedAgents_length] at hlt
      cases hcase : reply.spawned with
      | none =>
        rw [hcase] at hlt
        exact absurd hlt (Nat.not_lt.mpr hle)
      | some pair =>
        obtain ⟨d, sessionId⟩ := pair
        obtain rfl : ref = s.agents.length := by
          rw [hcase, Option.isSome_some, if_pos rfl] at hlt
          exact Nat.le_antisymm (Nat.le_of_lt_succ hlt) hle
        obtain ⟨⟨told, htold'⟩, _⟩ := handled_entered hreply hcase
        rw [System.answered_agents, repliedAgents_new hcase htold'] at hq
        cases Option.some.inj hq
        rw [load_eq (s := s.answered cfg wf rest reply channel) (repliedAgents_new hcase htold'),
          hruns]
        have hle := agentLoad_tell_le (s.answered cfg wf rest reply channel).sessions told
          (AgentProc.spawned d sessionId)
        have hzero : agentLoad (s.answered cfg wf rest reply channel).sessions
            (AgentProc.spawned d sessionId) = 0 := by
          simp [agentLoad, redrives, AgentProc.spawned, hspawned d sessionId hcase]
        omega

end Answered

theorem runsOf_modify (f : RunTask → RunTask) (runs : List RunTask) (i : ℕ) (ref : ActorRef)
    (h : ∀ task, (f task).agent = task.agent ∧ (f task).finished = task.finished) :
    (runs.modify i f).countP (fun task => task.agent == ref && !task.finished) =
      runs.countP (fun task => task.agent == ref && !task.finished) := by
  have hmap := map_modify_same (f := fun task : RunTask => task.agent == ref && !task.finished)
    (g := f) (fun task => by rw [(h task).1, (h task).2]) runs i
  have hcount := congrArg (List.countP id) hmap
  rwa [List.countP_map, List.countP_map] at hcount

theorem runsOf_finish {run : ℕ} {task : RunTask} (htask : s.runs[run]? = some task)
    (ref : ActorRef) :
    runsOf { s with runs := s.runs.set run { task with finished := true } } ref ≤ runsOf s ref := by
  obtain ⟨hlt, hget⟩ := List.getElem?_eq_some_iff.mp htask
  unfold runsOf
  rw [List.countP_set hlt]
  simp

/-- A command handled while its agent is at rest leads to no second run of it. -/
theorem Light.handled (hs : Base s) (hlight : Light s) {wf : WorkflowProc}
    {command : WorkflowCommand} {rest : List WorkflowCommand} {reply : Reply}
    {channel : List WorkflowNotification} (hrests : rests cfg s wf command = true)
    (hhandled : Handled cfg.workflow (s.fresh cfg command) wf.child wf.state command reply) :
    Light (s.answered cfg wf rest reply channel) := by
  refine light_answered hs hlight hhandled (fun ref told htold hlive => ?_)
    (fun d sessionId hspawned => ?_)
  · cases hcase : reply.spawned with
    | none =>
      rcases handled_told hhandled hcase htold with hquiet | ⟨⟨message, rfl⟩, hchild, hresumable⟩
      · exact Or.inl hquiet
      · exact Or.inr (by simpa [rests, hresumable, hchild] using hrests)
    | some pair =>
      obtain ⟨d, sessionId⟩ := pair
      obtain ⟨⟨told', htold'⟩, _⟩ := handled_entered hhandled hcase
      rw [htold'] at htold
      cases Option.some.inj htold
      exact absurd hlive (Nat.lt_irrefl _)
  · obtain ⟨_, hcases⟩ := handled_entered hhandled hspawned
    rcases hcases with ⟨rfl, hcopied⟩ | ⟨source, message, rfl, hstatus, hspawnable, rfl, hcopied⟩ |
      ⟨⟨message, rfl⟩, hchild, hresumable, hspawnable, hsession, hcopied⟩
    · rw [hcopied]
      change emptySession s.sessions s.nextSession = true
      unfold emptySession
      rw [hs.unused _ (Nat.le_refl _)]
      rfl
    · rw [hcopied]
      change copiesNothing cfg.backend s source = true
      simpa [rests, hstatus, hspawnable] using hrests
    · rw [hcopied]
      change emptySession s.sessions sessionId = true
      simpa [rests, hresumable, hspawnable, hchild, hsession] using hrests

theorem Light.step (hs : Base s) (hlight : Light s) {l : Label} (hrest : AtRest cfg s l)
    (hstep : Step cfg s l t) : Light t := by
  cases hstep with
  | launched _ _ _ | delivered _ _ | persisted _ _ _ _ _ _ _ | drained => exact hlight
  | crashed => exact fun _ => Nat.zero_le 1
  | recovered wf spawned hwf hphase hspawned =>
    have hagents := hs.agents_recovering hwf hphase
    have hnil : agentSessions s = [] := List.map_eq_nil_iff.mpr hagents
    intro ref
    have hruns : runsOf s ref = 0 := runsOf_eq_zero hs (by rw [hnil]; exact Nat.zero_le ref)
    cases spawned with
    | none => exact hlight ref
    | some pair =>
      obtain ⟨d, sessionId⟩ := pair
      change runsOf s ref + ((s.agents ++ [AgentProc.spawned d sessionId])[ref]?.map
        (agentLoad s.sessions)).getD 0 ≤ 1
      rw [hruns, hagents, List.nil_append, Nat.zero_add, List.getElem?_singleton]
      split
      · simp only [agentLoad, redrives, AgentProc.spawned, List.countP_nil, Nat.zero_add,
          Option.map_some, Option.getD_some]
        split <;> omega
      · exact Nat.zero_le 1
  | handled wf command rest reply channel hwf hphase hmailbox hreply =>
    exact hlight.handled hs (hrest.meets hwf hmailbox) (hreply ▸ handleCommand_handled command)
  | agentIdle ref messageId p hp hphase hmessages =>
    refine light_agent hs hlight hp rfl (fun _ _ => rfl) (fun _ _ => rfl) ?_
    refine Nat.add_le_add_left ?_ _
    exact agentLoad_idle s.sessions hphase rfl rfl
  | agentRedriven ref messageId p hp hphase hmessages =>
    refine light_agent hs hlight hp rfl (fun _ _ => rfl) (fun r hr => ?_) ?_
    · rw [runsOf_addRun]
      simp [Ne.symm hr, System.setAgent, runsOf]
    · rw [runsOf_addRun, if_pos (by simp), Nat.add_assoc, Nat.add_comm 1]
      refine Nat.add_le_add_left ?_ _
      exact agentLoad_redriven hphase hmessages rfl rfl
  | agentRan ref messageId p command rest input hp hphase hmailbox hinput =>
    refine light_agent hs hlight hp rfl (fun _ _ => rfl) (fun r hr => ?_) ?_
    · rw [runsOf_addRun]
      simp [Ne.symm hr, System.setAgent, runsOf]
    · rw [runsOf_addRun, if_pos (by simp), Nat.add_assoc, Nat.add_comm 1]
      refine Nat.add_le_add_left ?_ _
      exact agentLoad_started s.sessions hphase hmailbox (starts_of_startsRun hinput) rfl rfl
  | agentCancelled ref messageId p rest runs hp hphase hmailbox hruns =>
    have hsame : ∀ r, runsOf { s.setAgent ref { p with mailbox := rest, phase := .waiting } with
        runs := runs } r = runsOf s r := by
      intro r
      unfold runsOf
      rw [hruns]
      cases p.actor.running with
      | none => rfl
      | some run => exact runsOf_modify _ s.runs run r (fun _ => ⟨rfl, rfl⟩)
    refine light_agent hs hlight hp rfl (fun _ _ => rfl) (fun r _ => hsame r) ?_
    rw [hsame]
    refine Nat.add_le_add_left ?_ _
    exact agentLoad_handled s.sessions hphase hmailbox rfl rfl
  | agentNoted ref _ p _ _ hp hphase hmailbox | agentEnded ref _ p _ hp hphase hmailbox
  | agentReported ref _ p _ _ _ hp hphase hmailbox _ _
  | agentAsked ref _ p _ _ _ _ hp hphase hmailbox =>
    refine light_agent hs hlight hp rfl (fun _ _ => rfl) (fun _ _ => rfl) ?_
    refine Nat.add_le_add_left ?_ _
    exact agentLoad_handled s.sessions hphase hmailbox rfl rfl
  | agentCalled ref ok p effect events hp hphase _ =>
    refine light_agent hs hlight hp rfl (fun _ h => Function.update_of_ne h _ _)
      (fun _ _ => rfl) ?_
    refine Nat.add_le_add_left ?_ _
    exact agentLoad_called s.sessions _ hphase rfl rfl
  | runStreamed run event task _ _ _ =>
    exact fun ref => Nat.le_trans (load_modify s _ rfl ref task.agent rfl rfl (Nat.le_refl _))
      (hlight ref)
  | runEnded run outcome task htask _ =>
    intro ref
    refine Nat.le_trans (load_modify s _ rfl ref task.agent
      rfl rfl ?_) (hlight ref)
    exact runsOf_finish htask ref

theorem light_reachable (hrun : Machine.Run (next cfg) (AtRest cfg) System.init s) :
    Base s ∧ Light s :=
  hrun.invariant (fun s => Base s ∧ Light s)
    (fun _ _ _ hs hrest hstep =>
      ⟨hs.1.step (next_step hstep), hs.2.step hs.1 hrest (next_step hstep)⟩)
    ⟨base_init, fun _ => Nat.zero_le 1⟩

/-- The runs in flight for a session are runs of its one agent. -/
theorem inFlight_le_load (hs : Base s) (sessionId : Uuid) (hne : inFlight s sessionId ≠ 0) :
    ∃ ref, inFlight s sessionId ≤ load s ref := by
  unfold inFlight at hne
  rw [Ne, List.countP_eq_zero, not_forall] at hne
  obtain ⟨task, htask⟩ := hne
  obtain ⟨hmem, hcount⟩ := Classical.not_imp.mp htask
  have hsession : task.session = sessionId := by
    have h := of_not_not hcount
    simp only [Bool.and_eq_true, beq_iff_eq] at h
    exact h.1
  have hagent := hs.tasks task hmem
  rw [hsession] at hagent
  refine ⟨task.agent, Nat.le_trans ?_ (Nat.le_add_right _ _)⟩
  unfold inFlight runsOf
  refine List.countP_mono_left (fun other hother => ?_)
  simp only [Bool.and_eq_true, beq_iff_eq]
  rintro ⟨hsame, hlive⟩
  have hother' := hs.tasks other hother
  rw [hsame] at hother'
  exact ⟨(List.getElem?_inj (List.getElem?_eq_some_iff.mp hother').1 hs.nodup).mp
    (hother'.trans hagent.symm), hlive⟩

/-- If every Resume and Fork is handled at rest, no session ever has two runs in flight. -/
theorem single_flight (cfg : Config) (s : System)
    (hrun : Machine.Run (next cfg) (AtRest cfg) System.init s) (sessionId : Uuid) :
    inFlight s sessionId ≤ 1 := by
  obtain ⟨hbase, hlight⟩ := light_reachable hrun
  by_cases hzero : inFlight s sessionId = 0
  · rw [hzero]
    exact Nat.zero_le 1
  · obtain ⟨ref, hle⟩ := inFlight_le_load hbase sessionId hzero
    exact Nat.le_trans hle (hlight ref)

def resumedAtRest : System :=
  Machine.final (next (solo .inMemory)) (AtRest (solo .inMemory)) System.init
    (soloRunning ++ [.deliver .cancel, .workflowHandle, .workflowPersist true,
      .agentHandle 0 "m2", .runFinish 0 .cancelled, .agentHandle 0 "m3", .agentPersist 0 true,
      .agentPersist 0 true, .deliver (.resume "more"), .workflowHandle, .agentHandle 0 "m4"])

theorem single_flight_resumedAtRest : inFlight resumedAtRest 0 ≤ 1 :=
  single_flight (solo .inMemory) resumedAtRest (Machine.run_final _ (by decide +kernel)) 0

/-- A suspended workflow is re-launched by a Resume: the agent re-drives its session
when it has recovered, and starts the run it was told to start. -/
theorem two_in_flight_after_restart :
    ¬ ∀ (cfg : Config) (s : System), Machine.Run (next cfg) Machine.free System.init s →
      ∀ sessionId, inFlight s sessionId ≤ 1 := by
  intro h
  have hle := h (solo .inMemory)
    (Machine.final (next (solo .inMemory)) Machine.free System.init
      (soloRunning ++ [.deliver .cancel, .workflowHandle, .workflowPersist true, .crash,
        .launch (some (.resume "more")), .workflowRecover, .workflowHandle, .agentRecover 0 "m2",
        .agentHandle 0 "m3"]))
    (Machine.run_final _ (by decide +kernel)) 0
  revert hle
  decide +kernel

end October.SingleFlight
