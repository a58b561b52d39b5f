import October.ContinuedTask

/-!
What a Fork carries over. The handler copies the latest snapshot of the source session
and spawns an agent that recovers from the copy; events journaled since the snapshot
stay behind. An agent snapshots only when its run asked or was cancelled, so the
conversation is carried over whole only if no message was journaled after that, and a
session that was never snapshotted fails the workflow.
-/
namespace October.ForkedConversation

open WorkflowActor WorkflowInvariants ContinuedTask

/-- The latest snapshot of a session has as many messages as the session. -/
def covered (log : SessionLog) : Bool :=
  log.snapshot.any (fun snapshot =>
    snapshot.messages.length == log.state.messages.length)

def succeeds : Label → Bool
  | .workflowPersist ok => ok
  | .agentPersist _ ok => ok
  | _ => true

def Succeeds (_ : System) (l : Label) : Prop := succeeds l = true

instance (s : System) (l : Label) : Decidable (Succeeds s l) :=
  inferInstanceAs (Decidable (_ = true))

def Alive (_ : System) (l : Label) : Prop := l ≠ .crash

/-- A Fork handled in `s` and leading to `t` does not fail the workflow and spawns an
agent for the new session, which recovers the state that the source session has in `s`. -/
structure Carries (cfg : Config) (source : Uuid) (s t : System) : Prop where
  unfailed : ∀ wf error recoverable, t.workflow = some wf →
    .workflowFailed error recoverable ∉ wf.phase.events
  spawned : ∃ p, t.agents[s.agents.length]? = some p ∧ p.actor.sessionId = s.nextSession ∧
    p.phase = .recovering
  recovers : ∀ u v messageId, Machine.Run (next cfg) Alive t u →
    next cfg u (.agentRecover s.agents.length messageId) = some v →
    ∃ p, v.agents[s.agents.length]? = some p ∧ p.actor.sessionId = s.nextSession ∧
      p.state = (s.sessions source).state

variable {cfg : Config} {s t : System}

section Named

def namesAgent : WorkflowDomainEvent → Option String
  | .agentStarted agentName _ _ => some agentName
  | .agentTransitioned _ target _ _ _ => some target
  | _ => none

def Names (wf : Workflow) (e : WorkflowDomainEvent) : Prop :=
  ∀ agentName, namesAgent e = some agentName → ∃ d, Spawnable wf agentName d

theorem fold_named {log : List WorkflowDomainEvent} {agentName : String}
    (h : (fold log).currentAgent = some agentName) :
    ∃ e ∈ log, namesAgent e = some agentName := by
  induction log using List.reverseRecOn with
  | nil => contradiction
  | append_singleton log e ih =>
    rw [fold_append] at h
    by_cases hnames : namesAgent e = some agentName
    · exact ⟨e, by simp, hnames⟩
    · have hlog : (fold log).currentAgent = some agentName := by
        cases e <;> first | exact h | exact absurd h hnames
      obtain ⟨e', he', hnames'⟩ := ih hlog
      exact ⟨e', List.mem_append_left _ he', hnames'⟩

theorem handled_names {wf : Workflow} {fresh : Fresh} {child : Option ActorRef}
    {state : WorkflowState} {command : WorkflowCommand} {reply : Reply}
    (h : Handled wf fresh child state command reply) : ∀ e ∈ reply.effect.events, Names wf e := by
  intro e he agentName hname
  cases h with
  | started input d hspawnable =>
    simp only [entered, CommandEffect.events_persist, List.mem_cons, List.not_mem_nil,
      or_false] at he
    rcases he with rfl | rfl
    · contradiction
    · exact ⟨d, Option.some.inj hname ▸ hspawnable⟩
  | transitioned sessionId output source target condition d _ hspawnable =>
    simp only [entered, CommandEffect.events_persist, List.mem_cons, List.not_mem_nil,
      or_false] at he
    rcases he with rfl | rfl
    · exact ⟨d, Option.some.inj hname ▸ hspawnable⟩
    · exact ⟨d, Option.some.inj hname ▸ hspawnable⟩
  | forked source message name d _ _ hspawnable _ =>
    simp only [entered, CommandEffect.events_persist, List.mem_singleton] at he
    subst he
    exact ⟨d, Option.some.inj hname ▸ hspawnable⟩
  | _ =>
    simp [ignored, failed, finished, entered] at he
    try (subst he; contradiction)

/-- What the handlers' events have in common holds of the whole record. -/
theorem record_step {P : WorkflowDomainEvent → Prop}
    (hP : ∀ fresh child state command reply,
      Handled cfg.workflow fresh child state command reply → ∀ e ∈ reply.effect.events, P e)
    (h : ∀ e ∈ record s, P e) {l : Label} (hstep : Step cfg s l t) : ∀ e ∈ record t, P e := by
  have hframe := step_frame hstep
  have hlog : ∀ e ∈ s.workflowLog, P e := fun e he => h e (List.mem_append_left _ he)
  cases hstep with
  | launched kickoff _ _ => simpa [record] using hlog
  | recovered wf spawned _ _ _ =>
    cases spawned <;> simpa [record, System.spawns, System.spawnAgent] using hlog
  | handled wf command rest reply channel _ _ _ hreply =>
    have hnew := hP _ _ _ _ _ (hreply ▸ handleCommand_handled command)
    intro e he
    have hmem : e ∈ s.workflowLog ++ reply.effect.events := by
      simpa [record, System.answered] using he
    rcases List.mem_append.mp hmem with hold | hmem
    · exact hlog e hold
    · exact hnew e hmem
  | persisted wf effect events ok hwf hphase hevents =>
    intro e he
    have hmem : e ∈ s.workflowLog ∨ e ∈ events := by simpa [record] using he
    rcases hmem with hold | hnew
    · exact hlog e hold
    · refine h e ?_
      rw [hevents] at hnew
      cases ok with
      | false => contradiction
      | true => simpa [record, hwf, hphase] using Or.inr hnew
  | crashed => simpa [record, System.crash] using hlog
  | _ =>
    rw [record_frame (hframe rfl)]
    exact h

end Named

/-- Snapshots are prefixes of their sessions, and an agent that has recovered has the
state of its session. -/
structure Snapped (s : System) : Prop where
  held : ∀ sessionId snapshot, (s.sessions sessionId).snapshot = some snapshot →
    snapshot.messages <+: (s.sessions sessionId).state.messages
  live : ∀ (ref : ActorRef) (p : AgentProc), s.agents[ref]? = some p →
    p.phase.isRecovering = false → p.state = (s.sessions p.actor.sessionId).state

theorem snapped_init : Snapped System.init := by
  constructor
  · intro sessionId snapshot hsnapshot
    contradiction
  · intro ref p hp
    contradiction

/-- A journal call keeps the snapshot a prefix of the session. -/
theorem journalCall_held (ok : Bool) (effect : CommandEffect AgentDomainEvent)
    (log : SessionLog)
    (h : ∀ snapshot, log.snapshot = some snapshot → snapshot.messages <+: log.state.messages) :
    ∀ snapshot, (System.journalCall cfg.backend ok effect log.state log).snapshot = some snapshot →
      snapshot.messages <+:
        (System.journalCall cfg.backend ok effect log.state log).state.messages := by
  intro snapshot hsnapshot
  cases ok with
  | false => exact h snapshot hsnapshot
  | true =>
    rw [journalCall_state]
    obtain ⟨more, hmore⟩ := foldl_messages effect.events log.state
    rw [hmore]
    have hgrown : ∀ older, log.snapshot = some older →
        older.messages <+: log.state.messages ++ more := fun older holder =>
      (h older holder).trans (List.prefix_append _ _)
    cases effect with
    | snapshot =>
      cases hbackend : cfg.backend with
      | file =>
        rw [hbackend] at hsnapshot
        exact hgrown snapshot hsnapshot
      | inMemory =>
        rw [hbackend] at hsnapshot
        obtain rfl : log.state = snapshot := Option.some.inj hsnapshot
        exact List.prefix_append _ _
    | none | stop | persist _ | persistAndSnapshot _ | persistAndStop _ =>
      exact hgrown snapshot hsnapshot

theorem called_state (ok : Bool) (effect : CommandEffect AgentDomainEvent)
    (log : SessionLog) :
    (System.journalCall cfg.backend ok effect log.state log).state =
      (if ok then effect.events else []).foldl AgentActor.applyEvent log.state := by
  cases ok with
  | false => rfl
  | true => exact journalCall_state _ _ _ _

/-- The process at a reference has yet to recover, or has its session and its state from
the process that was there. -/
def Kept (agents : List AgentProc) (ref : ActorRef) (q : AgentProc) : Prop :=
  q.phase.isRecovering = true ∨ ∃ p : AgentProc, agents[ref]? = some p ∧
    p.phase.isRecovering = false ∧ q.actor.sessionId = p.actor.sessionId ∧ q.state = p.state

/-- Agents that keep their state, and new ones that have yet to recover. -/
theorem Snapped.frame (h : Snapped s) (hsessions : t.sessions = s.sessions)
    (hagents : ∀ (ref : ActorRef) (q : AgentProc), t.agents[ref]? = some q →
      Kept s.agents ref q) : Snapped t := by
  constructor
  · rw [hsessions]
    exact h.held
  · intro ref q hq hphase
    rw [hsessions]
    rcases hagents ref q hq with hrecovering | ⟨p, hp, hlive, hsession, hstate⟩
    · rw [hrecovering] at hphase
      contradiction
    · rw [hstate, hsession]
      exact h.live ref p hp hlive

/-- A step of one agent that leaves its state with the session's. -/
theorem Snapped.agent (h : Snapped s) {ref : ActorRef} {p' : AgentProc}
    (hagents : t.agents = s.agents.set ref p') (hsessions : t.sessions = s.sessions)
    (hstate : p'.state = (s.sessions p'.actor.sessionId).state) : Snapped t := by
  constructor
  · rw [hsessions]
    exact h.held
  · intro other q hq hphase
    rw [hsessions]
    rw [hagents, List.getElem?_set] at hq
    split at hq
    · split at hq
      · obtain rfl := Option.some.inj hq
        exact hstate
      · contradiction
    · exact h.live other q hq hphase

theorem kept_self {agents : List AgentProc} {ref : ActorRef} {p : AgentProc}
    (hp : agents[ref]? = some p) : Kept agents ref p := by
  cases hphase : p.phase.isRecovering with
  | true => exact Or.inl hphase
  | false => exact Or.inr ⟨p, hp, hphase, rfl, rfl⟩

theorem kept_tell {agents : List AgentProc} {i ref : ActorRef} {command : AgentCommand}
    {q : AgentProc} (hq : (agents.modify i (AgentProc.tell command))[ref]? = some q) :
    Kept agents ref q := by
  rw [getElem?_modify_tell] at hq
  obtain ⟨p, hp, rfl⟩ := Option.map_eq_some_iff.mp hq
  split
  · rcases kept_self hp with hrecovering | ⟨p', hp', hlive, hsession, hstate⟩
    · exact Or.inl (by rw [AgentProc.tell_phase]; exact hrecovering)
    · exact Or.inr ⟨p', hp', hlive, by rw [AgentProc.tell_actor]; exact hsession,
        by rw [AgentProc.tell_state]; exact hstate⟩
  · exact kept_self hp

theorem kept_replied {reply : Reply} {ref : ActorRef} {q : AgentProc}
    (hq : (System.repliedAgents reply s.agents)[ref]? = some q) : Kept s.agents ref q := by
  cases hp : s.agents[ref]? with
  | none =>
    left
    rw [repliedAgents_recovering reply hp hq]
    rfl
  | some p =>
    obtain ⟨q', hq', hsame⟩ := repliedAgents_live reply hp
    obtain rfl := Option.some.inj (hq.symm.trans hq')
    rcases hsame with rfl | ⟨command, _, rfl⟩
    · exact kept_self hp
    · rcases kept_self hp with hrecovering | ⟨p', hp', hlive, hsession, hstate⟩
      · exact Or.inl (by rw [AgentProc.tell_phase]; exact hrecovering)
      · exact Or.inr ⟨p', hp', hlive, by rw [AgentProc.tell_actor]; exact hsession,
          by rw [AgentProc.tell_state]; exact hstate⟩

/-- A handler copies a session onto the new one, which no agent has yet. -/
theorem Snapped.answered (hs : Base s) (h : Snapped s) {wf : WorkflowProc}
    {command : WorkflowCommand} {rest : List WorkflowCommand} {reply : Reply}
    {channel : List WorkflowNotification}
    (hreply : Handled cfg.workflow (s.fresh cfg command) wf.child wf.state command reply) :
    Snapped (s.answered cfg wf rest reply channel) := by
  constructor
  · intro sessionId snapshot hsnapshot
    rw [System.answered_sessions] at hsnapshot ⊢
    unfold System.copies at hsnapshot ⊢
    split at hsnapshot
    · exact h.held sessionId snapshot hsnapshot
    · rename_i source target _
      unfold copySnapshot at hsnapshot ⊢
      split at hsnapshot
      · exact h.held sessionId snapshot hsnapshot
      · exact h.held sessionId snapshot hsnapshot
      · rename_i state _ _
        by_cases htarget : sessionId = target
        · subst htarget
          simp only [Function.update_self, Option.some.injEq] at hsnapshot ⊢
          subst hsnapshot
          exact List.prefix_rfl
        · simp only [Function.update_of_ne htarget] at hsnapshot ⊢
          exact h.held sessionId snapshot hsnapshot
  · intro ref q hq hphase
    rcases kept_replied hq with hrecovering | ⟨p, hp, hlive, hsession, hstate⟩
    · rw [hrecovering] at hphase
      contradiction
    · have hlt := hs.below _ (List.mem_of_getElem? (mem_agentSessions hp))
      have hkept : (s.copies cfg reply.copied).sessions p.actor.sessionId =
          s.sessions p.actor.sessionId := by
        refine copies_sessions ?_
        intro source target hcopied
        rw [handled_copied hreply hcopied]
        exact Nat.ne_of_gt hlt
      rw [System.answered_sessions, hstate, hsession, hkept]
      exact h.live ref p hp hlive

/-- One journal call of an agent, whose session no other agent has. -/
theorem Snapped.called (hs : Base s) (h : Snapped s) {ref : ActorRef} {p : AgentProc}
    (hp : s.agents[ref]? = some p) (effect : CommandEffect AgentDomainEvent) (ok : Bool)
    (hphase : p.phase = .performing effect) :
    Snapped { s.setAgent ref
        { p with
          state := (if ok then effect.events else []).foldl AgentActor.applyEvent p.state
          phase := Phase.called effect } with
      sessions := Function.update s.sessions p.actor.sessionId
        (System.journalCall cfg.backend ok effect p.state (s.sessions p.actor.sessionId)) } := by
  have hstate : p.state = (s.sessions p.actor.sessionId).state :=
    h.live ref p hp (by rw [hphase]; rfl)
  have hlt := (List.getElem?_eq_some_iff.mp hp).1
  constructor
  · intro sessionId snapshot hsnapshot
    by_cases hown : sessionId = p.actor.sessionId
    · subst hown
      simp only [Function.update_self] at hsnapshot ⊢
      rw [hstate] at hsnapshot ⊢
      exact journalCall_held ok effect _ (h.held _) snapshot hsnapshot
    · simp only [Function.update_of_ne hown] at hsnapshot ⊢
      exact h.held sessionId snapshot hsnapshot
  · intro other q hq hlive
    have hset : (s.agents.set ref _)[other]? = some q := hq
    rw [List.getElem?_set] at hset
    by_cases href : ref = other
    · rw [if_pos href, if_pos (href ▸ hlt)] at hset
      obtain rfl := Option.some.inj hset
      simp only [Function.update_self]
      rw [hstate, called_state]
    · rw [if_neg href] at hset
      have hapart : q.actor.sessionId ≠ p.actor.sessionId := by
        intro heq
        have hq' := mem_agentSessions hset
        have hp' := mem_agentSessions hp
        rw [heq] at hq'
        exact href ((List.getElem?_inj (List.getElem?_eq_some_iff.mp hp').1 hs.nodup).mp
          (hp'.trans hq'.symm))
      simp only [Function.update_of_ne hapart]
      exact h.live other q hset hlive

theorem Snapped.step (hs : Base s) (h : Snapped s) {l : Label} (hstep : Step cfg s l t) :
    Snapped t := by
  have hsame : ∀ (ref : ActorRef) (q : AgentProc), s.agents[ref]? = some q →
      Kept s.agents ref q := fun _ _ hq => kept_self hq
  cases hstep with
  | launched _ _ _ | delivered _ _ | persisted _ _ _ _ _ _ _ | drained => exact h.frame rfl hsame
  | recovered wf spawned _ _ _ =>
    cases spawned with
    | none => exact h.frame rfl hsame
    | some pair =>
      refine h.frame rfl ?_
      intro ref q hq
      have hconcat : (s.agents ++ [AgentProc.spawned pair.1 pair.2])[ref]? = some q := hq
      rw [List.getElem?_append] at hconcat
      split at hconcat
      · exact kept_self hconcat
      · left
        rw [List.mem_singleton.mp (List.mem_of_getElem? hconcat)]
        rfl
  | handled wf command rest reply channel _ _ _ hreply =>
    exact h.answered hs (hreply ▸ handleCommand_handled command)
  | agentIdle ref messageId p hp hphase _ => exact h.agent rfl rfl rfl
  | agentRedriven ref messageId p hp hphase _ => exact h.agent rfl rfl rfl
  | agentRan ref messageId p _ _ _ hp hphase _ _ =>
    exact h.agent rfl rfl (h.live ref p hp (by rw [hphase]; rfl))
  | agentNoted ref messageId p _ _ hp hphase _ =>
    exact h.agent rfl rfl (h.live ref p hp (by rw [hphase]; rfl))
  | agentCancelled ref messageId p _ _ hp hphase _ _ =>
    exact h.agent rfl rfl (h.live ref p hp (by rw [hphase]; rfl))
  | agentEnded ref messageId p _ hp hphase _ =>
    exact h.agent rfl rfl (h.live ref p hp (by rw [hphase]; rfl))
  | agentReported ref messageId p _ _ _ hp hphase _ _ _ =>
    exact h.agent rfl rfl (h.live ref p hp (by rw [hphase]; rfl))
  | agentAsked ref messageId p _ _ _ _ hp hphase _ =>
    exact h.agent rfl rfl (h.live ref p hp (by rw [hphase]; rfl))
  | agentCalled ref ok p effect events hp hphase hevents =>
    subst hevents
    exact h.called hs hp effect ok hphase
  | runStreamed run event task _ _ _ =>
    refine h.frame rfl ?_
    intro ref q hq
    exact kept_tell hq
  | runEnded run outcome task _ _ =>
    refine h.frame rfl ?_
    intro ref q hq
    exact kept_tell hq
  | crashed =>
    refine h.frame rfl ?_
    intro ref q hq
    contradiction

theorem reachable_inv {ok : System → Label → Prop}
    (hrun : Machine.Run (next cfg) ok System.init s) :
    Base s ∧ Snapped s ∧ ∀ e ∈ record s, Names cfg.workflow e := by
  refine hrun.invariant
    (fun s => Base s ∧ Snapped s ∧ ∀ e ∈ record s, Names cfg.workflow e) ?_ ?_
  · intro s l t h _ hnext
    obtain ⟨hs, hsnapped, hnames⟩ := h
    have hstep := next_step hnext
    exact ⟨hs.step hstep, hsnapped.step hs hstep,
      record_step (fun _ _ _ _ _ => handled_names) hnames hstep⟩
  · refine ⟨base_init, snapped_init, ?_⟩
    intro e he
    simp [record, System.init] at he

def Awaits (ref : ActorRef) (sessionId : Uuid) (log : SessionLog) (s : System) : Prop :=
  ∃ p : AgentProc, s.agents[ref]? = some p ∧ p.actor.sessionId = sessionId ∧
    (p.phase.isRecovering = true → s.sessions sessionId = log)

section Awaiting

variable {ref : ActorRef} {sessionId : Uuid} {log : SessionLog}

theorem Awaits.frame (h : Awaits ref sessionId log s)
    (hsessions : t.sessions sessionId = s.sessions sessionId)
    (hagents : ∀ p : AgentProc, s.agents[ref]? = some p → ∃ q : AgentProc,
      t.agents[ref]? = some q ∧ q.actor = p.actor ∧ q.phase = p.phase) :
    Awaits ref sessionId log t := by
  obtain ⟨p, hp, hsession, hlog⟩ := h
  obtain ⟨q, hq, hactor, hphase⟩ := hagents p hp
  refine ⟨q, hq, ?_, ?_⟩
  · rw [hactor]
    exact hsession
  · rw [hphase, hsessions]
    exact hlog

/-- An agent that has recovered takes a step: it is another, or the one that waits no more. -/
theorem Awaits.set (hs : Base s) (h : Awaits ref sessionId log s) {i : ActorRef}
    {p p' : AgentProc} (hp : s.agents[i]? = some p) (hagents : t.agents = s.agents.set i p')
    (hactor : p'.actor.sessionId = p.actor.sessionId) (hlive : p'.phase.isRecovering = false)
    (hsessions : ∀ other, other ≠ p.actor.sessionId → t.sessions other = s.sessions other) :
    Awaits ref sessionId log t := by
  obtain ⟨q, hq, hsession, hlog⟩ := h
  have hlt := (List.getElem?_eq_some_iff.mp hp).1
  by_cases href : i = ref
  · subst href
    obtain rfl := Option.some.inj (hp.symm.trans hq)
    refine ⟨p', ?_, hactor.trans hsession, ?_⟩
    · rw [hagents, List.getElem?_set_self hlt]
    · intro hrecovering
      rw [hlive] at hrecovering
      contradiction
  · refine ⟨q, ?_, hsession, ?_⟩
    · rw [hagents, List.getElem?_set_ne href]
      exact hq
    · intro hrecovering
      have hapart : sessionId ≠ p.actor.sessionId := by
        intro heq
        have hq' := mem_agentSessions hq
        have hp' := mem_agentSessions hp
        rw [hsession, heq] at hq'
        exact href ((List.getElem?_inj (List.getElem?_eq_some_iff.mp hp').1 hs.nodup).mp
          (hp'.trans hq'.symm))
      rw [hsessions sessionId hapart]
      exact hlog hrecovering

theorem tell_kept {agents : List AgentProc} (i : ActorRef) (command : AgentCommand)
    {p : AgentProc} (hp : agents[ref]? = some p) :
    ∃ q : AgentProc, (agents.modify i (AgentProc.tell command))[ref]? = some q ∧
      q.actor = p.actor ∧ q.phase = p.phase := by
  rw [getElem?_modify_tell, hp, Option.map_some]
  refine ⟨_, rfl, ?_, ?_⟩
  · split <;> simp
  · split <;> simp

theorem Awaits.step (hs : Base s) (h : Awaits ref sessionId log s) {l : Label} (hl : l ≠ .crash)
    (hstep : Step cfg s l t) : Awaits ref sessionId log t := by
  have hsame : ∀ p : AgentProc, s.agents[ref]? = some p → ∃ q : AgentProc,
      s.agents[ref]? = some q ∧ q.actor = p.actor ∧ q.phase = p.phase :=
    fun p hp => ⟨p, hp, rfl, rfl⟩
  cases hstep with
  | launched _ _ _ | delivered _ _ | persisted _ _ _ _ _ _ _ | drained => exact h.frame rfl hsame
  | recovered wf spawned _ _ _ =>
    cases spawned with
    | none => exact h.frame rfl hsame
    | some pair =>
      refine h.frame rfl (fun p hp => ⟨p, ?_, rfl, rfl⟩)
      exact (List.getElem?_append_left (List.getElem?_eq_some_iff.mp hp).1).trans hp
  | handled wf command rest reply channel _ _ _ hreply =>
    have hawaits := h
    obtain ⟨p, hp, hsession, _⟩ := hawaits
    have hlt := hs.below _ (List.mem_of_getElem? (mem_agentSessions hp))
    refine h.frame ?_ ?_
    · refine copies_sessions ?_
      intro source target hcopied
      rw [handled_copied (hreply ▸ handleCommand_handled command) hcopied, ← hsession]
      exact Nat.ne_of_gt hlt
    · intro p hp
      obtain ⟨q, hq, hq'⟩ := repliedAgents_live reply hp
      rcases hq' with rfl | ⟨command, _, rfl⟩
      · exact ⟨q, hq, rfl, rfl⟩
      · exact ⟨_, hq, AgentProc.tell_actor _ _, AgentProc.tell_phase _ _⟩
  | agentIdle _ _ p hp _ _ | agentRedriven _ _ p hp _ _ | agentRan _ _ p _ _ _ hp _ _ _
  | agentNoted _ _ p _ _ hp _ _ | agentCancelled _ _ p _ _ hp _ _ _ | agentEnded _ _ p _ hp _ _
  | agentReported _ _ p _ _ _ hp _ _ _ _ | agentAsked _ _ p _ _ _ _ hp _ _ =>
    exact h.set hs hp rfl rfl rfl (fun _ _ => rfl)
  | agentCalled _ ok p effect _ hp _ _ =>
    exact h.set hs hp rfl rfl (Phase.isRecovering_called effect)
      (fun other hother => Function.update_of_ne hother _ _)
  | runStreamed run event task _ _ _ => exact h.frame rfl (fun p hp => tell_kept _ _ hp)
  | runEnded run outcome task _ _ => exact h.frame rfl (fun p hp => tell_kept _ _ hp)
  | crashed => contradiction

/-- As long as the process lives, the agent recovers what the log folds to. -/
theorem Awaits.recovers {u v : System} {messageId : String} (hs : Base s)
    (h : Awaits ref sessionId log s) (hrun : Machine.Run (next cfg) Alive s u)
    (hnext : next cfg u (.agentRecover ref messageId) = some v) :
    ∃ p : AgentProc, v.agents[ref]? = some p ∧ p.actor.sessionId = sessionId ∧
      p.state = log.state := by
  have hinv := hrun.invariant (fun u => Base u ∧ Awaits ref sessionId log u)
    (fun u l v h hl hnext => ⟨h.1.step (next_step hnext), h.2.step h.1 hl (next_step hnext)⟩)
    ⟨hs, h⟩
  obtain ⟨_, q, hq, hsession, hlog⟩ := hinv
  have hlt := (List.getElem?_eq_some_iff.mp hq).1
  cases next_step hnext with
  | agentIdle _ _ p hp hphase _ =>
    obtain rfl := Option.some.inj (hp.symm.trans hq)
    refine ⟨_, List.getElem?_set_self hlt, hsession, ?_⟩
    rw [← hlog (by rw [hphase]; rfl), ← hsession]
  | agentRedriven _ _ p hp hphase _ =>
    obtain rfl := Option.some.inj (hp.symm.trans hq)
    refine ⟨_, List.getElem?_set_self hlt, hsession, ?_⟩
    rw [← hlog (by rw [hphase]; rfl), ← hsession]

end Awaiting

section Fork

variable {wf : Workflow} {fresh : Fresh} {child : Option ActorRef} {state : WorkflowState}

/-- The reply of a workflow that can fork. -/
theorem onFork_agent {agentName : String} {d : WorkflowAgentDef}
    (hsuspended : state.status = .suspended) (hagent : state.currentAgent = some agentName)
    (hspawnable : Spawnable wf agentName d) (source : Uuid) (message : String) :
    onFork wf fresh child state source message =
      match fresh.copied with
      | .error e => failed child ("fork failed: " ++ e.display) false
      | .ok () =>
        { entered fresh d fresh.sessionId (.run message)
            (.persist [.agentStarted agentName fresh.sessionId message]) with
          copied := some (source, fresh.sessionId) } := by
  have hnot : ¬ state.status ≠ .suspended := fun hne => hne hsuspended
  have hspawn : spawnAgent wf d = .ok () := by
    unfold spawnAgent
    exact if_pos hspawnable.2
  unfold onFork
  rw [if_neg hnot, hagent]
  dsimp only
  rw [hspawnable.1]
  dsimp only
  cases fresh.copied with
  | error e => rfl
  | ok copied => simp [hspawn]

end Fork

/-- A snapshot with as many messages as its session is the state of the session. -/
theorem covered_iff (h : Snapped s) (source : Uuid) :
    covered (s.sessions source) = true ↔
      (s.sessions source).snapshot = some (s.sessions source).state := by
  constructor
  · intro hcovered
    obtain ⟨snapshot, hsnapshot, hlen⟩ := (Option.any_eq_true _ _).mp hcovered
    have hprefix := h.held source snapshot hsnapshot
    have hmessages := hprefix.eq_of_length (of_decide_eq_true hlen)
    rw [hsnapshot]
    exact congrArg (fun messages => some (AgentState.mk messages)) hmessages
  · intro hsnapshot
    unfold covered
    rw [hsnapshot]
    simp

def silent : AgentDomainEvent → Bool
  | .runComplete _ _ => true
  | .runCancelled => true
  | _ => false

def isSnapshot : CommandEffect AgentDomainEvent → Bool
  | .snapshot => true
  | _ => false

theorem foldl_length (events : List AgentDomainEvent) (state : AgentState) :
    (events.foldl AgentActor.applyEvent state).messages.length =
      state.messages.length + events.countP (fun e => !silent e) := by
  induction events generalizing state with
  | nil => rfl
  | cons e rest ih =>
    rw [List.foldl_cons, ih]
    cases e <;> simp [AgentActor.applyEvent, silent] <;> omega

/-- A journal call leaves a session covered if it snapshots, or adds no message to one
that was covered. -/
theorem covered_call (effect : CommandEffect AgentDomainEvent) (log : SessionLog)
    (hheld : ∀ snapshot, log.snapshot = some snapshot →
      snapshot.messages <+: log.state.messages) :
    covered (System.journalCall .inMemory true effect log.state log) =
      (isSnapshot effect || covered log && effect.events.all silent) := by
  have hstate := journalCall_state .inMemory effect log.state log
  have hkept : ∀ after : SessionLog, after.snapshot = log.snapshot →
      after.state = effect.events.foldl AgentActor.applyEvent log.state →
      covered after = (covered log && effect.events.all silent) := by
    intro after hsnapshot hafter
    unfold covered
    rw [hsnapshot, hafter]
    cases hlog : log.snapshot with
    | none => rfl
    | some snapshot =>
      have hle := (hheld snapshot hlog).length_le
      simp only [Option.any_some, foldl_length]
      by_cases hsilent : effect.events.all silent = true
      · have hzero : effect.events.countP (fun e => !silent e) = 0 := by
          rw [List.countP_eq_zero]
          intro e he
          simpa using List.all_eq_true.mp hsilent e he
        rw [hzero, hsilent, Nat.add_zero, Bool.and_true]
      · have hpos : 0 < effect.events.countP (fun e => !silent e) := by
          rw [List.countP_pos_iff]
          simpa using hsilent
        have hlt : snapshot.messages.length ≠
            log.state.messages.length + effect.events.countP (fun e => !silent e) := by
          omega
        rw [Bool.eq_false_iff.mpr hsilent, Bool.and_false]
        simpa using hlt
  cases effect with
  | snapshot => simp [covered, System.journalCall, SessionLog.state, isSnapshot]
  | none | stop | persist _ | persistAndSnapshot _ | persistAndStop _ =>
    exact hkept (System.journalCall .inMemory true _ log.state log) rfl hstate

theorem recover_enabled (cfg : Config) {ref : ActorRef} {p : AgentProc}
    (hp : s.agents[ref]? = some p) (hphase : p.phase = .recovering) (messageId : String) :
    ∃ v, next cfg s (.agentRecover ref messageId) = some v := by
  simp only [next, System.agentRecover, hp, hphase]
  exact ⟨_, rfl⟩

/-- The new session after the workflow forked onto it. -/
theorem forked_awaits {wf : WorkflowProc} {rest : List WorkflowCommand} {reply : Reply}
    {channel : List WorkflowNotification} {source : Uuid} {d : WorkflowAgentDef}
    {command : AgentCommand} {snapshot : AgentState} (hbackend : cfg.backend = .inMemory)
    (hsnapshot : (s.sessions source).snapshot = some snapshot)
    (hcopied : reply.copied = some (source, s.nextSession))
    (hspawned : reply.spawned = some (d, s.nextSession))
    (htold : reply.told = some (s.agents.length, command)) :
    Awaits s.agents.length s.nextSession ⟨snapshot, [], some snapshot⟩
      (s.answered cfg wf rest reply channel) := by
  refine ⟨_, repliedAgents_new hspawned htold, ?_, ?_⟩
  · rw [AgentProc.tell_actor]
    rfl
  · intro _
    rw [System.answered_sessions, hcopied]
    simp only [System.copies, copySnapshot, hbackend, hsnapshot, Function.update_self]

/-- A fork that copied a snapshot carries the source session's state over exactly if the
snapshot is the whole of it. -/
theorem forked_carries_iff {wf : WorkflowProc} {rest : List WorkflowCommand} {reply : Reply}
    {channel : List WorkflowNotification} {source : Uuid} {d : WorkflowAgentDef}
    {message : String} {snapshot : AgentState} (hbackend : cfg.backend = .inMemory)
    (hbase : Base (s.answered cfg wf rest reply channel))
    (hsnapshot : (s.sessions source).snapshot = some snapshot)
    (hcopied : reply.copied = some (source, s.nextSession))
    (hspawned : reply.spawned = some (d, s.nextSession))
    (htold : reply.told = some (s.agents.length, .run message))
    (hunfailed : ∀ wf' error recoverable,
      (s.answered cfg wf rest reply channel).workflow = some wf' →
        .workflowFailed error recoverable ∉ wf'.phase.events) :
    Carries cfg source s (s.answered cfg wf rest reply channel) ↔
      snapshot = (s.sessions source).state := by
  have hawaits : Awaits s.agents.length s.nextSession ⟨snapshot, [], some snapshot⟩
      (s.answered cfg wf rest reply channel) :=
    forked_awaits hbackend hsnapshot hcopied hspawned htold
  have hnew : (s.answered cfg wf rest reply channel).agents[s.agents.length]? =
      some ((AgentProc.spawned d s.nextSession).tell (.run message)) :=
    repliedAgents_new hspawned htold
  constructor
  · intro h
    obtain ⟨v, hv⟩ := recover_enabled cfg hnew (by rw [AgentProc.tell_phase]; rfl) ""
    obtain ⟨p, hp, _, hstate⟩ := h.recovers _ v "" (Machine.Run.refl _) hv
    obtain ⟨p', hp', _, hstate'⟩ := hawaits.recovers hbase (Machine.Run.refl _) hv
    obtain rfl := Option.some.inj (hp.symm.trans hp')
    rw [← hstate, hstate']
    rfl
  · intro hsame
    refine ⟨hunfailed, ⟨_, hnew, ?_, ?_⟩, ?_⟩
    · rw [AgentProc.tell_actor]
      rfl
    · rw [AgentProc.tell_phase]
      rfl
    · intro u v messageId hafter hrecover
      obtain ⟨p, hp, hsession, hstate⟩ := hawaits.recovers hbase hafter hrecover
      refine ⟨p, hp, hsession, ?_⟩
      rw [hstate, ← hsame]
      rfl

/-- On the in-memory journal a Fork handled while the workflow is suspended carries the
whole conversation over exactly if the workflow has a current agent and no message of
the source session was journaled after its latest snapshot. -/
theorem fork_carries_iff (cfg : Config) (s t : System) (wf : WorkflowProc) (source : Uuid)
    (message : String) (rest : List WorkflowCommand) (ok : System → Label → Prop)
    (hbackend : cfg.backend = .inMemory) (hrun : Machine.Run (next cfg) ok System.init s)
    (hwf : s.workflow = some wf) (hmailbox : wf.mailbox = .fork source message :: rest)
    (hsuspended : wf.state.status = .suspended)
    (hnext : next cfg s .workflowHandle = some t) :
    Carries cfg source s t ↔
      wf.state.currentAgent.isSome = true ∧ covered (s.sessions source) = true := by
  obtain ⟨hs, hsnapped, hnames⟩ := reachable_inv hrun
  have hbase := hs.step (next_step hnext)
  cases next_step hnext with
  | handled wf' command rest' reply channel hwf' hphase hmailbox' hreply =>
    obtain rfl := Option.some.inj (hwf.symm.trans hwf')
    obtain ⟨rfl, rfl⟩ := List.cons.inj (hmailbox.symm.trans hmailbox')
    have hfolded : wf.state = fold s.workflowLog :=
      (hs.placed wf hwf).folded (by rw [hphase]; rfl)
    change reply = onFork _ _ _ _ source message at hreply
    cases hagent : wf.state.currentAgent with
    | none =>
      have hignored : reply = ignored wf.child := by
        rw [hreply]
        unfold onFork
        simp only [hsuspended, ne_eq, not_true_eq_false, if_false, hagent]
      subst hignored
      constructor
      · intro h
        obtain ⟨p, hp, _⟩ := h.spawned
        have hnone : (s.agents ++ [])[s.agents.length]? = some p := hp
        simp at hnone
      · intro h
        simp at h
    | some agentName =>
      obtain ⟨e, he, hname⟩ := fold_named (hfolded ▸ hagent)
      obtain ⟨d, hspawnable⟩ := hnames e (List.mem_append_left _ he) agentName hname
      rw [onFork_agent hsuspended hagent hspawnable] at hreply
      cases hsnapshot : (s.sessions source).snapshot with
      | none =>
        simp only [System.fresh, copySnapshot, hbackend, hsnapshot] at hreply
        subst hreply
        constructor
        · intro h
          exact (h.unfailed _ _ _ rfl (List.mem_singleton_self _)).elim
        · intro h
          simp [covered, hsnapshot] at h
      | some snapshot =>
        simp only [System.fresh, copySnapshot, hbackend, hsnapshot] at hreply
        subst hreply
        refine (forked_carries_iff hbackend hbase hsnapshot rfl rfl rfl ?_).trans ?_
        · intro wf' error recoverable hwf'' hfailed
          cases Option.some.inj hwf''
          simp [entered] at hfailed
        · rw [covered_iff hsnapped source, hsnapshot]
          simp

def cancelSnapshotted : List Label :=
  soloRunning ++
    [.deliver .cancel, .workflowHandle, .workflowPersist true, .agentHandle 0 "m2",
      .runFinish 0 .cancelled, .agentHandle 0 "m3", .agentPersist 0 true, .agentPersist 0 true,
      .deliver (.fork 0 "try again")]

def snapshotted : System :=
  Machine.final (next (solo .inMemory)) Succeeds System.init cancelSnapshotted

theorem fork_carries_iff_snapshotted :
    ∃ t wf, snapshotted.workflow = some wf ∧
      (Carries (solo .inMemory) 0 snapshotted t ↔
        wf.state.currentAgent.isSome = true ∧ covered (snapshotted.sessions 0) = true) := by
  have hrun : Machine.Run (next (solo .inMemory)) Succeeds System.init snapshotted :=
    Machine.run_final cancelSnapshotted (by decide +kernel)
  exact ⟨_, _, rfl, fork_carries_iff (solo .inMemory) snapshotted _ _ 0 "try again" [] Succeeds
    rfl hrun rfl rfl rfl rfl⟩

def forkedEarly : System :=
  Machine.final (next (solo .inMemory)) Succeeds System.init
    (soloRunning ++ [.deliver .cancel, .workflowHandle, .workflowPersist true,
      .agentHandle 0 "m2", .deliver (.fork 0 "try again")])

/-- The cancelled session has no snapshot yet, and the Fork fails the workflow. -/
theorem fork_fails_workflow :
    ¬ ∀ (cfg : Config) (s t : System) (wf : WorkflowProc) (source : Uuid) (message : String)
      (rest : List WorkflowCommand), cfg.backend = .inMemory →
        Machine.Run (next cfg) Succeeds System.init s → s.workflow = some wf →
        wf.mailbox = .fork source message :: rest → wf.state.status = .suspended →
        (s.sessions source).events ≠ [] → next cfg s .workflowHandle = some t →
        Carries cfg source s t := by
  intro h
  have hrun : Machine.Run (next (solo .inMemory)) Succeeds System.init forkedEarly :=
    Machine.run_final _ (by decide +kernel)
  have hhistory : (forkedEarly.sessions 0).events ≠ [] := by
    intro hnil
    exact absurd (congrArg List.length hnil) (by decide +kernel)
  have hcarries := h (solo .inMemory) forkedEarly _ _ 0 "try again" [] rfl hrun rfl rfl rfl
    hhistory rfl
  exact hcarries.unfailed _ _ _ rfl (List.mem_singleton_self _)

end October.ForkedConversation
