import October.WorkflowInvariants

/-!
Who a Resume is handed to. The workflow's handle names the agent of its current
session; once that agent has stopped, its last report is on the way to the workflow
or the workflow is stopping, unless the report was a recoverable failure, which
suspends the workflow and leaves the handle on the stopped agent.
-/
namespace October.ResumeReaches

open WorkflowActor WorkflowInvariants

def resumeCommand (state : WorkflowState) (message : String) : Option AgentCommand :=
  match state.status with
  | .suspended => some (.run message)
  | .awaitingUserInput => state.pendingToolCall.map (fun id => .injectToolResult id message)
  | _ => none

def isRecoverableFailure (sessionId : Option Uuid) : WorkflowCommand → Bool
  | .agentFailed failed _ recoverable => recoverable && sessionId == some failed
  | _ => false

def persists : Label → Bool
  | .workflowPersist ok => ok
  | _ => true

def Persists (_ : System) (l : Label) : Prop := persists l = true

instance (s : System) (l : Label) : Decidable (Persists s l) :=
  inferInstanceAs (Decidable (_ = true))

/-- No recoverable failure of the current session is handled. -/
def Unfailed : System → Label → Prop :=
  HandlesOnly (fun wf command => !isRecoverableFailure wf.state.currentSessionId command)

instance (s : System) (l : Label) : Decidable (Unfailed s l) :=
  inferInstanceAs (Decidable (HandlesOnly _ s l))

def guard (s : System) (l : Label) : Prop := Persists s l ∧ Unfailed s l

instance (s : System) (l : Label) : Decidable (guard s l) := inferInstanceAs (Decidable (_ ∧ _))

def lastReport (sessionId : Option Uuid) (mailbox : List WorkflowCommand) : Bool :=
  mailbox.any (fun c => c.isFinal && c.reports == sessionId)

/-- A command is the last in the open mailbox of the session's agent. -/
def Delivered (s : System) (sessionId : Option Uuid) (command : AgentCommand) : Prop :=
  ∃ (ref : ActorRef) (p : AgentProc), s.agents[ref]? = some p ∧
    some p.actor.sessionId = sessionId ∧ p.phase.isStopped = false ∧
    p.mailbox.getLast? = some command

/-- The handle names the agent of the current session, whose stop is on record. -/
structure Held (s : System) (wf : WorkflowProc) (ref : ActorRef) : Prop where
  current : (agentSessions s)[ref]? = (fold (record s)).currentSessionId
  stopped : ∀ p, s.agents[ref]? = some p → p.phase.isStopped = true →
    lastReport (some p.actor.sessionId) wf.mailbox = true ∨ wf.phase.stopping = true

structure Inv (s : System) : Prop where
  agents : ∀ p ∈ s.agents, p.phase.stopping = p.phase.isStopped
  held : ∀ wf ref, s.workflow = some wf → wf.child = some ref → Held s wf ref

variable {cfg : Config} {s t : System}

theorem stopping_of_isStopped {E : Type} {phase : Phase E} (h : phase.isStopped = true) :
    phase.stopping = true := by
  cases phase <;> first | rfl | contradiction

theorem lastReport_append {sessionId : Option Uuid} {mailbox : List WorkflowCommand}
    (h : lastReport sessionId mailbox = true) (command : WorkflowCommand) :
    lastReport sessionId (mailbox ++ [command]) = true := by
  unfold lastReport at h ⊢
  rw [List.any_append, h, Bool.true_or]

/-- What is on record stays on record when the workflow is told something. -/
theorem recorded_tell {wf : WorkflowProc} {sessionId : Option Uuid}
    (h : lastReport sessionId wf.mailbox = true ∨ wf.phase.stopping = true)
    (command : WorkflowCommand) :
    lastReport sessionId (wf.tell command).mailbox = true ∨
      (wf.tell command).phase.stopping = true := by
  unfold WorkflowProc.tell
  split
  · exact h
  · exact h.imp_left (fun hreport => lastReport_append hreport command)

theorem recorded_heard {wf : WorkflowProc} (hheard : Heard s t.workflow)
    (hwf : t.workflow = some wf) :
    ∃ old, s.workflow = some old ∧ wf.child = old.child ∧
      ∀ sessionId, lastReport sessionId old.mailbox = true ∨ old.phase.stopping = true →
        lastReport sessionId wf.mailbox = true ∨ wf.phase.stopping = true := by
  rcases hheard with hsame | ⟨command, _, htold⟩
  · exact ⟨wf, hsame.symm.trans hwf, rfl, fun _ h => h⟩
  · obtain ⟨old, hold, rfl⟩ := Option.map_eq_some_iff.mp (htold.symm.trans hwf)
    exact ⟨old, hold, old.tell_child command, fun _ h => recorded_tell h command⟩

/-- Steps of agents and runs keep the handle's record, if an agent that stops leaves its
report. -/
theorem Inv.frame (hs : Inv s) (hframe : Frame s t)
    (hagents : ∀ p ∈ t.agents, p.phase.stopping = p.phase.isStopped)
    (hstopped : ∀ (ref : ActorRef) (p : AgentProc), t.agents[ref]? = some p →
      p.phase.isStopped = true →
      (∃ q, s.agents[ref]? = some q ∧ q.phase.isStopped = true ∧
        q.actor.sessionId = p.actor.sessionId) ∨
      ∀ wf, t.workflow = some wf →
        lastReport (some p.actor.sessionId) wf.mailbox = true ∨ wf.phase.stopping = true) :
    Inv t := by
  refine ⟨hagents, fun wf ref hwf hchild => ?_⟩
  obtain ⟨old, hold, hkept, hrecorded⟩ := recorded_heard hframe.heard hwf
  obtain ⟨hcurrent, hreport⟩ := hs.held old ref hold (hkept.symm.trans hchild)
  refine ⟨by rw [hframe.sessions, record_frame hframe]; exact hcurrent, fun p hp hstop => ?_⟩
  rcases hstopped ref p hp hstop with ⟨q, hq, hqstop, hsession⟩ | hleft
  · rw [← hsession]
    exact hrecorded _ (hreport q hq hqstop)
  · exact hleft wf hwf

/-- A step that replaces one agent by one that has not stopped. -/
theorem Inv.set (hs : Inv s) (hframe : Frame s t) {ref : ActorRef} {p : AgentProc}
    (hagents : t.agents = s.agents.set ref p) (hphase : p.phase.stopping = false) : Inv t := by
  have hopen : p.phase.isStopped = false := by
    cases hstop : p.phase.isStopped with
    | false => rfl
    | true =>
      rw [stopping_of_isStopped hstop] at hphase
      contradiction
  refine hs.frame hframe (fun q hq => ?_) (fun r q hq hstop => Or.inl ?_)
  · rw [hagents] at hq
    rcases List.mem_or_eq_of_mem_set hq with hmem | rfl
    · exact hs.agents q hmem
    · rw [hphase, hopen]
  · rw [hagents, List.getElem?_set] at hq
    split at hq
    · split at hq
      · cases Option.some.inj hq
        rw [hopen] at hstop
        contradiction
      · contradiction
    · exact ⟨q, hq, hstop, rfl⟩

/-- A step that tells one agent a command. -/
theorem Inv.modify (hs : Inv s) (hframe : Frame s t) {i : ActorRef} {command : AgentCommand}
    (hagents : t.agents = s.agents.modify i (AgentProc.tell command)) : Inv t := by
  have hback : ∀ (ref : ActorRef) (q : AgentProc), t.agents[ref]? = some q →
      ∃ p, s.agents[ref]? = some p ∧
      q.phase = p.phase ∧ q.actor.sessionId = p.actor.sessionId := by
    intro ref q hq
    rw [hagents, getElem?_modify_tell] at hq
    obtain ⟨p, hp, heq⟩ := Option.map_eq_some_iff.mp hq
    refine ⟨p, hp, ?_⟩
    split at heq
    · subst heq
      exact ⟨p.tell_phase command, by rw [p.tell_actor command]⟩
    · subst heq
      exact ⟨rfl, rfl⟩
  refine hs.frame hframe (fun q hq => ?_) (fun ref q hq hstop => Or.inl ?_)
  · obtain ⟨ref, hget⟩ := List.mem_iff_getElem?.mp hq
    obtain ⟨p, hp, hphase, _⟩ := hback ref q hget
    rw [hphase]
    exact hs.agents p (List.mem_of_getElem? hp)
  · obtain ⟨p, hp, hphase, hsession⟩ := hback ref q hq
    exact ⟨p, hp, hphase ▸ hstop, hsession.symm⟩

theorem lastReport_cons {sessionId : Uuid} {command : WorkflowCommand}
    {rest : List WorkflowCommand} (h : lastReport (some sessionId) (command :: rest) = true) :
    (command.isFinal = true ∧ command.reports = some sessionId) ∨
      lastReport (some sessionId) rest = true := by
  simpa [lastReport] using h

section Answered

variable {wf : Workflow} {fresh : Fresh} {child : Option ActorRef} {state : WorkflowState}
  {command : WorkflowCommand} {reply : Reply}

/-- The current session follows the spawned agent. -/
theorem handled_session (h : Handled wf fresh child state command reply) :
    (reply.effect.events.foldl applyEvent state).currentSessionId =
      match reply.spawned with
      | some (_, sessionId) => some sessionId
      | none => state.currentSessionId := by
  cases h with
  | respawned _ _ _ _ _ _ _ hsession _ _ => exact hsession
  | _ => rfl

/-- The last report of the current session stops the workflow or is followed by a new agent. -/
theorem handled_final (h : Handled wf fresh child state command reply)
    (hfinal : command.isFinal = true) (hreports : command.reports = state.currentSessionId)
    (hfailure : isRecoverableFailure state.currentSessionId command = false) :
    reply.spawned ≠ none ∨ reply.effect.stops = true := by
  cases h with
  | stale _ sessionId hsession hcurrent => exact absurd (hreports ▸ hsession) hcurrent
  | failed _ _ _ _ _ | finished _ _ _ => exact Or.inr rfl
  | transitioned _ _ _ _ _ _ _ _ => exact Or.inl (by simp [entered])
  | suspended sessionId error hcurrent =>
    rw [hcurrent] at hfailure
    simp [isRecoverableFailure] at hfailure
  | _ => contradiction

end Answered

theorem Inv.answered (hbase : Base s) (hs : Inv s) {wf : WorkflowProc} {command : WorkflowCommand}
    {rest : List WorkflowCommand} {reply : Reply} {channel : List WorkflowNotification}
    (hwf : s.workflow = some wf) (hphase : wf.phase = .waiting)
    (hmailbox : wf.mailbox = command :: rest)
    (hfailure : isRecoverableFailure wf.state.currentSessionId command = false)
    (hreply : Handled cfg.workflow (s.fresh cfg command) wf.child wf.state command reply) :
    Inv (s.answered cfg wf rest reply channel) := by
  have hfolded : wf.state = fold s.workflowLog :=
    (hbase.placed wf hwf).folded (by rw [hphase]; rfl)
  have hbefore : fold (record s) = wf.state := by
    simp [record, hwf, hphase, hfolded]
  have hafter : (fold (record (s.answered cfg wf rest reply channel))).currentSessionId =
      match reply.spawned with
      | some (_, sessionId) => some sessionId
      | none => wf.state.currentSessionId := by
    rw [← handled_session hreply]
    simp [record, System.answered, fold_append, hfolded]
  have hsessions : agentSessions (s.answered cfg wf rest reply channel) =
      agentSessions s ++ (reply.spawned.map Prod.snd).toList := agentSessions_repliedAgents reply _
  refine ⟨fun q hq => ?_, fun wf' ref hwf' hchild => ?_⟩
  · obtain ⟨ref, hget⟩ := List.mem_iff_getElem?.mp hq
    cases hp : s.agents[ref]? with
    | some p =>
      obtain ⟨q', hq', hcase⟩ := repliedAgents_live reply hp
      cases Option.some.inj (hget.symm.trans hq')
      rcases hcase with rfl | ⟨told, _, rfl⟩
      · exact hs.agents q (List.mem_of_getElem? hp)
      · rw [AgentProc.tell_phase]
        exact hs.agents p (List.mem_of_getElem? hp)
    | none =>
      have hnew := repliedAgents_recovering reply hp hget
      rw [hnew]
      rfl
  · cases Option.some.inj hwf'
    have hchild' : reply.child = some ref := hchild
    cases hspawned : reply.spawned with
    | some pair =>
      obtain ⟨d, sessionId⟩ := pair
      have hfresh := (handled_spawned hreply hspawned).1
      rw [hfresh] at hchild'
      cases Option.some.inj hchild'
      have hlength : (s.fresh cfg command).ref = (agentSessions s).length := by
        simp [System.fresh, agentSessions]
      refine ⟨?_, fun p hp hstop => ?_⟩
      · rw [hafter, hsessions, hspawned, hlength]
        simp
      · have hnew := repliedAgents_recovering reply
          (List.getElem?_eq_none_iff.mpr (Nat.le_refl _)) hp
        rw [hnew] at hstop
        contradiction
    | none =>
      have hold : wf.child = some ref := (handled_kept hreply hspawned).symm.trans hchild'
      obtain ⟨hcurrent, hreport⟩ := hs.held wf ref hwf hold
      rw [hbefore] at hcurrent
      have hlive := (hbase.placed wf hwf).child ref hold
      refine ⟨?_, fun q hq hstop => ?_⟩
      · rw [hafter, hsessions, hspawned, List.getElem?_append_left hlive]
        exact hcurrent
      · obtain ⟨p, hp⟩ : ∃ p, s.agents[ref]? = some p :=
          ⟨_, List.getElem?_eq_getElem (by simpa [agentSessions] using hlive)⟩
        obtain ⟨q', hq', hcase⟩ := repliedAgents_live reply hp
        cases Option.some.inj (hq.symm.trans hq')
        have hsame : q.phase = p.phase ∧ q.actor = p.actor := by
          rcases hcase with rfl | ⟨told, _, rfl⟩
          · exact ⟨rfl, rfl⟩
          · exact ⟨p.tell_phase told, p.tell_actor told⟩
        rw [hsame.1] at hstop
        rw [hsame.2]
        have hsession := mem_agentSessions hp
        rw [hcurrent] at hsession
        rcases hreport p hp hstop with hmail | hstopping
        · rw [hmailbox] at hmail
          rcases lastReport_cons hmail with ⟨hfinal, hreports⟩ | hrest
          · refine Or.inr ?_
            rw [← hsession] at hreports
            have hdone := (handled_final hreply hfinal hreports hfailure).resolve_left
              (fun h => h hspawned)
            change (Phase.handled reply.effect).stopping = true
            rw [Phase.stopping_handled, hdone]
          · exact Or.inl hrest
        · rw [hphase] at hstopping
          contradiction

theorem Inv.step (hbase : Base s) (hs : Inv s) {l : Label} (hguard : guard s l)
    (hstep : Step cfg s l t) : Inv t := by
  have hframe := step_frame hstep
  cases hstep with
  | launched kickoff hop hnone =>
    refine ⟨hs.agents, fun wf ref hwf hchild => ?_⟩
    cases Option.some.inj hwf
    contradiction
  | delivered command hop =>
    exact hs.frame (hframe rfl) hs.agents (fun ref p hp hstop => Or.inl ⟨p, hp, hstop, rfl⟩)
  | drained =>
    exact hs.frame (hframe rfl) hs.agents (fun ref p hp hstop => Or.inl ⟨p, hp, hstop, rfl⟩)
  | crashed =>
    exact ⟨by simp [System.crash], fun wf ref hwf _ => by contradiction⟩
  | recovered wf spawned hwf hphase hspawned =>
    have hagents := hbase.agents_recovering hwf hphase
    cases spawned with
    | none =>
      refine ⟨hs.agents, fun wf' ref hwf' hchild => ?_⟩
      cases Option.some.inj hwf'
      contradiction
    | some pair =>
      obtain ⟨d, sessionId⟩ := pair
      have hspawn : ({ s.spawns (some (d, sessionId)) with
          workflow := some { wf with
            state := fold s.workflowLog
            child := (some (d, sessionId)).map (fun _ => s.agents.length)
            phase := .waiting } } : System).agents = [AgentProc.spawned d sessionId] := by
        simp [System.spawns, System.spawnAgent, hagents]
      refine ⟨fun p hp => ?_, fun wf' ref hwf' hchild => ?_⟩
      · rw [hspawn, List.mem_singleton] at hp
        rw [hp]
        rfl
      · cases Option.some.inj hwf'
        have href : s.agents.length = ref := by simpa using hchild
        rw [hagents, List.length_nil] at href
        subst href
        refine ⟨?_, fun p hp hstop => ?_⟩
        · unfold agentSessions
          rw [hspawn]
          simp [record, System.spawns, System.spawnAgent, AgentProc.spawned,
            (onRecoveryComplete_some hspawned.symm).2.1]
        · rw [hspawn] at hp
          cases Option.some.inj hp
          contradiction
  | handled wf command rest reply channel hwf hphase hmailbox hreply =>
    have hfailure : isRecoverableFailure wf.state.currentSessionId command = false := by
      simpa using hguard.2.meets hwf hmailbox
    exact hs.answered hbase hwf hphase hmailbox hfailure (hreply ▸ handleCommand_handled command)
  | persisted wf effect events ok hwf hphase hevents =>
    obtain rfl : ok = true := hguard.1
    obtain rfl : events = effect.events := by simpa using hevents
    refine ⟨hs.agents, fun wf' ref hwf' hchild => ?_⟩
    cases Option.some.inj hwf'
    obtain ⟨hcurrent, hreport⟩ := hs.held wf ref hwf hchild
    refine ⟨?_, fun p hp hstop => ?_⟩
    · have hrecord : record s = s.workflowLog ++ effect.events := by simp [record, hwf, hphase]
      rw [hrecord] at hcurrent
      simpa [record, agentSessions] using hcurrent
    · refine (hreport p hp hstop).imp_right (fun hstopping => ?_)
      rw [hphase] at hstopping
      rw [Phase.stopping_called]
      exact hstopping
  | agentIdle _ _ _ _ _ _ | agentRedriven _ _ _ _ _ _ | agentRan _ _ _ _ _ _ _ _ _ _
  | agentNoted _ _ _ _ _ _ _ _ | agentCancelled _ _ _ _ _ _ _ _ _ | agentEnded _ _ _ _ _ _ _
  | agentAsked _ _ _ _ _ _ _ _ _ _ =>
    exact hs.set (hframe rfl) rfl rfl
  | agentReported ref messageId p outcome rest report hp hphase hmailbox hreports hfinal =>
    refine hs.frame (hframe rfl) (fun q hq => ?_) (fun r q hq hstop => ?_)
    · rcases List.mem_or_eq_of_mem_set hq with hmem | rfl
      · exact hs.agents q hmem
      · rfl
    · have hget : (s.agents.set ref _)[r]? = some q := hq
      rw [List.getElem?_set] at hget
      split at hget
      · split at hget
        · cases Option.some.inj hget
          refine Or.inr (fun wf hwf => ?_)
          obtain ⟨old, hold, rfl⟩ := Option.map_eq_some_iff.mp hwf
          unfold WorkflowProc.tell
          split
          · exact Or.inr (stopping_of_isStopped (by assumption))
          · exact Or.inl (by simp [lastReport, hreports, hfinal])
        · contradiction
      · exact Or.inl ⟨q, hget, hstop, rfl⟩
  | agentCalled ref ok p effect events hp hphase _ =>
    refine hs.set (hframe rfl) rfl ?_
    have hnot := hs.agents p (List.mem_of_getElem? hp)
    rw [hphase] at hnot
    rw [Phase.stopping_called]
    exact hnot
  | runStreamed _ _ _ _ _ _ => exact hs.modify (hframe rfl) rfl
  | runEnded _ _ _ _ _ => exact hs.modify (hframe rfl) rfl

theorem inv_reachable (hrun : Machine.Run (next cfg) guard System.init s) : Base s ∧ Inv s :=
  hrun.invariant (fun s => Base s ∧ Inv s)
    (fun _ _ _ hs hguard hstep =>
      ⟨hs.1.step (next_step hstep), hs.2.step hs.1 hguard (next_step hstep)⟩)
    ⟨base_init, ⟨by simp [System.init], fun _ _ hwf _ => by contradiction⟩⟩

theorem onResume_command (wf : Workflow) (fresh : Fresh) (child : Option ActorRef)
    {state : WorkflowState} {message agentName : String} {sessionId : Uuid}
    {command : AgentCommand} (hcommand : resumeCommand state message = some command)
    (hsession : state.currentSessionId = some sessionId)
    (hagent : state.currentAgent = some agentName) :
    ∃ notify, onResume wf fresh child state message =
      resumeWith wf fresh child agentName sessionId command notify := by
  unfold resumeCommand at hcommand
  unfold onResume
  cases hstatus : state.status with
  | suspended =>
    rw [hstatus] at hcommand
    cases Option.some.inj hcommand
    exact ⟨false, by simp [hsession, hagent]⟩
  | awaitingUserInput =>
    rw [hstatus] at hcommand
    obtain ⟨toolCallId, hpending, rfl⟩ := Option.map_eq_some_iff.mp hcommand
    exact ⟨true, by simp [hpending, hsession, hagent]⟩
  | _ =>
    rw [hstatus] at hcommand
    contradiction

/-- The agent the workflow holds has not stopped, unless its last report is waiting. -/
theorem held_open {wf : WorkflowProc} {ref : ActorRef} (hbase : Base s) (hs : Inv s)
    (hwf : s.workflow = some wf) (hphase : wf.phase = .waiting) (hchild : wf.child = some ref)
    (hreport : lastReport wf.state.currentSessionId wf.mailbox = false) :
    ∃ p, s.agents[ref]? = some p ∧ some p.actor.sessionId = wf.state.currentSessionId ∧
      p.phase.isStopped = false := by
  have hplaced := hbase.placed wf hwf
  obtain ⟨hcurrent, hstopped⟩ := hs.held wf ref hwf hchild
  have hstate : fold (record s) = wf.state := by
    simp [record, hwf, hphase, hplaced.folded (by rw [hphase]; rfl)]
  obtain ⟨p, hp⟩ : ∃ p, s.agents[ref]? = some p :=
    ⟨_, List.getElem?_eq_getElem (by simpa [agentSessions] using hplaced.child ref hchild)⟩
  have hsession : some p.actor.sessionId = wf.state.currentSessionId := by
    rw [← hstate, ← hcurrent]
    exact (mem_agentSessions hp).symm
  refine ⟨p, hp, hsession, ?_⟩
  cases hstop : p.phase.isStopped with
  | false => rfl
  | true =>
    rcases hstopped p hp hstop with hmail | hstopping
    · rw [hsession, hreport] at hmail
      contradiction
    · rw [hphase] at hstopping
      contradiction

/-- A handled Resume reaches an agent of the current session that has not stopped. -/
theorem resume_reaches (cfg : Config) (s t : System) (wf : WorkflowProc) (message : String)
    (rest : List WorkflowCommand) (command : AgentCommand)
    (hrun : Machine.Run (next cfg) guard System.init s) (hwf : s.workflow = some wf)
    (hmailbox : wf.mailbox = .resume message :: rest)
    (hcommand : resumeCommand wf.state message = some command)
    (hspawnable : wf.state.currentAgent.any (spawnable cfg.workflow) = true)
    (hreport : lastReport wf.state.currentSessionId rest = false)
    (hstep : next cfg s .workflowHandle = some t) :
    Delivered t wf.state.currentSessionId command := by
  obtain ⟨hbase, hinv⟩ := inv_reachable hrun
  cases workflowHandle_step hstep with
  | handled wf' command' rest' reply channel hwf' hphase hmailbox' hreply =>
    cases Option.some.inj (hwf.symm.trans hwf')
    cases hmailbox.symm.trans hmailbox'
    obtain ⟨agentName, hagent, hname⟩ := (Option.any_eq_true _ _).mp hspawnable
    have hfolded := (hbase.placed wf hwf).folded (by rw [hphase]; rfl)
    have hsome := fold_current s.workflowLog
    rw [← hfolded, hagent, Option.isSome_some] at hsome
    obtain ⟨sessionId, hsession⟩ := Option.isSome_iff_exists.mp hsome.symm
    obtain ⟨notify, hresume⟩ := onResume_command cfg.workflow (s.fresh cfg (.resume message))
      wf.child hcommand hsession hagent
    rw [handleCommand, hresume] at hreply
    subst hreply
    unfold Delivered
    rw [System.answered_agents]
    cases hchild : wf.child with
    | some ref =>
      obtain ⟨p, hp, hcurrent, hopen⟩ := held_open hbase hinv hwf hphase hchild
        (by rw [hmailbox]; simpa [lastReport, WorkflowCommand.isFinal] using hreport)
      refine ⟨ref, p.tell command, ?_, by rw [p.tell_actor]; exact hcurrent,
        by rw [p.tell_phase]; exact hopen, by simp [AgentProc.tell, hopen]⟩
      simp only [resumeWith, System.repliedAgents, Option.map_none, Option.toList_none,
        List.append_nil]
      rw [getElem?_modify_tell, hp, Option.map_some, if_pos rfl]
    | none =>
      obtain ⟨d, hdef, hprovider⟩ := (Option.any_eq_true _ _).mp hname
      refine ⟨s.agents.length, (AgentProc.spawned d sessionId).tell command,
        repliedAgents_new ?_ ?_, by rw [hsession]; rfl, rfl, by simp [AgentProc.tell,
          AgentProc.spawned, Phase.isStopped]⟩
      · simp [resumeWith, hdef, spawnAgent, hprovider, entered]
      · simp [resumeWith, hdef, spawnAgent, hprovider, entered, System.fresh]

def resumeAfterCancel : System :=
  Machine.final (next (solo .inMemory)) guard System.init
    (soloRunning ++ [.deliver .cancel, .workflowHandle, .workflowPersist true,
      .deliver (.resume "more")])

theorem resume_reaches_afterCancel :
    Delivered (Machine.final (next (solo .inMemory)) Machine.free resumeAfterCancel
      [.workflowHandle]) (some 0) (.run "more") :=
  resume_reaches (solo .inMemory) resumeAfterCancel _ _ "more" [] (.run "more")
    (Machine.run_final _ (by decide +kernel)) rfl rfl rfl (by decide +kernel) rfl rfl

def resumeAfterFailure : System :=
  Machine.final (next (solo .inMemory)) Persists System.init
    (soloRunning ++ [.runFinish 0 (.failed "unreachable" true), .agentHandle 0 "m2",
      .workflowHandle, .workflowPersist true, .deliver (.resume "more")])

/-- After a recoverable failure a Resume is told to the stopped agent only. -/
theorem resume_dropped_after_failure :
    ¬ ∀ (cfg : Config) (s t : System) (wf : WorkflowProc) (message : String)
      (rest : List WorkflowCommand) (command : AgentCommand),
      Machine.Run (next cfg) Persists System.init s → s.workflow = some wf →
      wf.mailbox = .resume message :: rest → resumeCommand wf.state message = some command →
      wf.state.currentAgent.any (spawnable cfg.workflow) = true →
      next cfg s .workflowHandle = some t → Delivered t wf.state.currentSessionId command := by
  intro h
  obtain ⟨ref, p, hp, _, hopen, _⟩ := h (solo .inMemory) resumeAfterFailure
    (Machine.final (next (solo .inMemory)) Machine.free resumeAfterFailure [.workflowHandle]) _
    "more" [] (.run "more") (Machine.run_final _ (by decide +kernel)) rfl rfl rfl
    (by decide +kernel) rfl
  have hstopped : ∀ q ∈ (Machine.final (next (solo .inMemory)) Machine.free resumeAfterFailure
      [.workflowHandle]).agents, q.phase.isStopped = true := by decide +kernel
  rw [hstopped p (List.mem_of_getElem? hp)] at hopen
  contradiction

end October.ResumeReaches
