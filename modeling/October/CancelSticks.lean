import October.TerminalStatus

/-!
What follows a Cancel. A report of the agent is handled in every status, so a run
that ends or asks after the Cancel still moves the workflow on. The journal grows by
suspensions and failures only, as long as no command is handled that would advance
the workflow.
-/
namespace October.CancelSticks

open WorkflowActor WorkflowInvariants TerminalStatus

def advances : WorkflowDomainEvent → Bool
  | .agentStarted _ _ _ => true
  | .agentTransitioned _ _ _ _ _ => true
  | .workflowPaused _ _ => true
  | .workflowFinished _ => true
  | _ => false

def stays : WorkflowDomainEvent → Bool
  | .workflowSuspended => true
  | .workflowFailed _ _ => true
  | _ => false

def leadsOn (wf : Workflow) (state : WorkflowState) (output : Value) : Bool :=
  match state.currentAgent with
  | none => true
  | some source =>
    let transitions := ((agentDef wf source).bind WorkflowAgentDef.transitions).getD []
    match findNextTransition wf output transitions with
    | none => true
    | some (target, _) => spawnable wf target

/-- Whether a command moves the workflow on: a Start, or a report of the current session
that asks, ends the workflow or leads to an agent. -/
def advancing (wf : Workflow) (state : WorkflowState) : WorkflowCommand → Bool
  | .start _ => spawnable wf wf.definition.start
  | .agentConcluded sessionId output =>
    state.currentSessionId == some sessionId && leadsOn wf state output
  | .agentAsked sessionId _ _ => state.currentSessionId == some sessionId
  | _ => false

def revives : WorkflowCommand → Bool
  | .resume _ => true
  | .fork _ _ => true
  | _ => false

def Unrevived : System → Label → Prop := HandlesOnly (fun _ command => !revives command)

def Quiet (wf : Workflow) : System → Label → Prop :=
  HandlesOnly (fun proc command => !(revives command || advancing wf proc.state command))

instance (s : System) (l : Label) : Decidable (Unrevived s l) :=
  inferInstanceAs (Decidable (HandlesOnly _ s l))

instance (wf : Workflow) (s : System) (l : Label) : Decidable (Quiet wf s l) :=
  inferInstanceAs (Decidable (HandlesOnly _ s l))

def unpersisted : Label → Bool
  | .workflowPersist _ => false
  | .crash => false
  | _ => true

def Unpersisted (_ : System) (l : Label) : Prop := unpersisted l = true

instance (s : System) (l : Label) : Decidable (Unpersisted s l) :=
  inferInstanceAs (Decidable (_ = true))

/-- The workflow handles a Cancel in `s`, and `t` is the state after it was persisted. -/
def Cancelled (cfg : Config) (s t : System) : Prop :=
  ∃ handled persisting, (nextCommand s).map isCancel = some true ∧
    next cfg s .workflowHandle = some handled ∧
    Machine.Run (next cfg) Unpersisted handled persisting ∧
    next cfg persisting (.workflowPersist true) = some t

def pending (s : System) : List WorkflowDomainEvent :=
  (s.workflow.map (fun wf => wf.phase.events)).getD []

variable {cfg : Config} {s t : System}

theorem advances_of_stays {e : WorkflowDomainEvent} (h : stays e = true) : advances e = false := by
  cases e <;> first | rfl | contradiction

theorem spawn_fails (wf : Workflow) (d : WorkflowAgentDef) (h : wf.hasProvider d.model = false) :
    ∃ error, spawnAgent wf d = .error error := by
  unfold spawnAgent
  rw [h]
  exact ⟨_, rfl⟩

theorem not_spawnable {wf : Workflow} {name : String} (h : spawnable wf name = false) :
    agentDef wf name = none ∨
      ∃ d error, agentDef wf name = some d ∧ spawnAgent wf d = .error error := by
  unfold spawnable at h
  cases hdef : agentDef wf name with
  | none => exact Or.inl rfl
  | some d =>
    rw [hdef] at h
    obtain ⟨error, herror⟩ := spawn_fails wf d (by simpa using h)
    exact Or.inr ⟨d, error, rfl, herror⟩

theorem onStart_stays {wf : Workflow} {fresh : Fresh} {child : Option ActorRef} {input : String}
    (h : spawnable wf wf.definition.start = false) :
    ∀ e ∈ (onStart wf fresh child input).effect.events, stays e = true := by
  unfold onStart
  rcases not_spawnable h with hnone | ⟨d, error, hdef, herror⟩
  · simp [hnone, failed, stays]
  · simp [hdef, herror, failed, stays]

theorem onConcluded_stays {wf : Workflow} {fresh : Fresh} {child : Option ActorRef}
    {state : WorkflowState} {sessionId : Uuid} {output : Value}
    (h : state.currentSessionId = some sessionId → leadsOn wf state output = false) :
    ∀ e ∈ (onConcluded wf fresh child state sessionId output).effect.events, stays e = true := by
  unfold onConcluded
  split
  · simp [ignored]
  · rename_i hcurrent
    have hleads := h (by simpa using hcurrent)
    unfold leadsOn at hleads
    cases hagent : state.currentAgent with
    | none => simp [hagent] at hleads
    | some source =>
      simp only [hagent] at hleads ⊢
      generalize ((agentDef wf source).bind WorkflowAgentDef.transitions).getD [] = ts at hleads ⊢
      cases hnext : findNextTransition wf output ts with
      | none => simp [hnext] at hleads
      | some next =>
        obtain ⟨target, condition⟩ := next
        rw [hnext] at hleads
        rcases not_spawnable hleads with hnone | ⟨d, error, hdef, herror⟩
        · simp [hnone, failed, stays]
        · simp [hdef, herror, failed, stays]

/-- A command that does not move the workflow on persists suspensions and failures only. -/
theorem handle_stays {wf : Workflow} (fresh : Fresh) (child : Option ActorRef)
    {state : WorkflowState} {command : WorkflowCommand} (hrevives : revives command = false)
    (hadvancing : advancing wf state command = false) :
    ∀ e ∈ (handleCommand wf fresh child state command).effect.events, stays e = true := by
  cases command with
  | start input => exact onStart_stays hadvancing
  | cancel => simp [handleCommand, stays]
  | resume _ | fork _ _ => contradiction
  | agentConcluded sessionId output =>
    refine onConcluded_stays (fun hcurrent => ?_)
    simpa [advancing, hcurrent] using hadvancing
  | agentAsked sessionId toolCallId question =>
    have hstale : state.currentSessionId ≠ some sessionId := by
      simpa [advancing] using hadvancing
    simp [handleCommand, hstale, ignored]
  | agentFailed sessionId error recoverable =>
    simp only [handleCommand]
    split
    · simp [ignored]
    · cases recoverable <;> simp [stays]

theorem pending_heard (h : Heard s t.workflow) : pending t = pending s := by
  unfold pending
  rcases h with hsame | ⟨command, _, htold⟩
  · rw [hsame]
  · rw [htold]
    cases s.workflow <;> simp

/-- The journal grew from `log` by suspensions and failures, and so it will. -/
def Held (log : List WorkflowDomainEvent) (s : System) : Prop :=
  (∃ grown, s.workflowLog = log ++ grown ∧ ∀ e ∈ grown, stays e = true) ∧
    ∀ e ∈ pending s, stays e = true

theorem held_step {log : List WorkflowDomainEvent} {l : Label} (hs : Held log s)
    (hquiet : Quiet cfg.workflow s l) (hstep : Step cfg s l t) : Held log t := by
  obtain ⟨⟨grown, hlog, hgrown⟩, hpending⟩ := hs
  have hframe := step_frame hstep
  cases hstep with
  | launched kickoff _ _ => exact ⟨⟨grown, hlog, hgrown⟩, by simp [pending]⟩
  | recovered wf spawned _ _ _ =>
    refine ⟨⟨grown, ?_, hgrown⟩, by simp [pending]⟩
    cases spawned <;> exact hlog
  | handled wf command rest reply channel hwf hphase hmailbox hreply =>
    refine ⟨⟨grown, hlog, hgrown⟩, ?_⟩
    have hkind : revives command = false ∧ advancing cfg.workflow wf.state command = false := by
      simpa using hquiet.meets hwf hmailbox
    simp only [pending, System.answered, Option.map_some, Option.getD_some, Phase.events_handled,
      hreply]
    exact handle_stays _ _ hkind.1 hkind.2
  | persisted wf effect events ok hwf hphase hevents =>
    refine ⟨⟨grown ++ events, by rw [hlog, List.append_assoc], ?_⟩, by simp [pending]⟩
    refine List.forall_mem_append.mpr ⟨hgrown, fun e he => hpending e ?_⟩
    rw [hevents] at he
    simp only [pending, hwf, hphase, Option.map_some, Option.getD_some, Phase.events_performing]
    split at he
    · exact he
    · simp at he
  | crashed => exact ⟨⟨grown, hlog, hgrown⟩, by simp [pending, System.crash]⟩
  | _ =>
    obtain ⟨_, hlog', _, hheard⟩ := hframe rfl
    exact ⟨⟨grown, hlog'.trans hlog, hgrown⟩, by rw [pending_heard hheard]; exact hpending⟩

/-- Until it is persisted, the effect of a handled command stays the same. -/
theorem unpersisted_phase {effect : CommandEffect WorkflowDomainEvent}
    (hs : s.workflow.map WorkflowProc.phase = some (.performing effect))
    (hrun : Machine.Run (next cfg) Unpersisted s t) :
    t.workflow.map WorkflowProc.phase = some (.performing effect) ∧
      t.workflowLog = s.workflowLog := by
  refine hrun.invariant
    (fun u => u.workflow.map WorkflowProc.phase = some (.performing effect) ∧
      u.workflowLog = s.workflowLog)
    (fun u l v hu hok hstep => ?_) ⟨hs, rfl⟩
  obtain ⟨hphase, hlog⟩ := hu
  have hstep' := next_step hstep
  have hframe := step_frame hstep'
  cases hstep' with
  | persisted _ _ _ _ _ _ _ | crashed => contradiction
  | launched _ _ hnone => simp [hnone] at hphase
  | recovered wf _ hwf hrecovering _ => simp [hwf, hrecovering] at hphase
  | handled wf _ _ _ _ hwf hwaiting _ _ => simp [hwf, hwaiting] at hphase
  | _ =>
    obtain ⟨_, hlog', _, hheard⟩ := hframe rfl
    refine ⟨?_, hlog'.trans hlog⟩
    rcases hheard with hsame | ⟨command, _, htold⟩
    · rw [hsame]
      exact hphase
    · rw [htold, Option.map_map]
      rw [← hphase]
      congr 1
      funext wf
      exact wf.tell_phase command

/-- After a persisted Cancel the journal ends in the suspension and nothing is pending. -/
theorem cancelled_held (h : Cancelled cfg s t) :
    t.workflowLog = s.workflowLog ++ [.workflowSuspended] ∧ Held t.workflowLog t := by
  obtain ⟨handled, persisting, hcancel, hhandle, hrun, hpersist⟩ := h
  have hphase : handled.workflow.map WorkflowProc.phase =
      some (.performing (.persist [.workflowSuspended])) ∧
        handled.workflowLog = s.workflowLog := by
    cases workflowHandle_step hhandle with
    | handled wf command rest reply channel hwf _ hmailbox hreply =>
      have hcommand : isCancel command = true := by
        simpa [nextCommand, hwf, hmailbox] using hcancel
      cases command with
      | cancel =>
        subst hreply
        exact ⟨rfl, rfl⟩
      | _ => contradiction
  obtain ⟨hphase', hlog'⟩ := unpersisted_phase hphase.1 hrun
  cases workflowPersist_step hpersist with
  | persisted wf effect events ok hwf heffect hevents =>
    rw [hwf, Option.map_some, heffect] at hphase'
    cases hphase'
    subst hevents
    refine ⟨by simp [hlog', hphase.2], ⟨⟨[], by simp, by simp⟩, by simp [pending]⟩⟩

theorem fold_stays {state : WorkflowState} {events : List WorkflowDomainEvent}
    (hevents : ∀ e ∈ events, stays e = true)
    (hstate : state.status = .suspended ∨ state.status = .failed) :
    (events.foldl applyEvent state).status = .suspended ∨
      (events.foldl applyEvent state).status = .failed := by
  induction events generalizing state with
  | nil => exact hstate
  | cons e rest ih =>
    obtain ⟨hfirst, hrest⟩ := List.forall_mem_cons.mp hevents
    refine ih hrest ?_
    cases e with
    | workflowSuspended => exact Or.inl rfl
    | workflowFailed _ _ => exact Or.inr rfl
    | _ => contradiction

/-- After a persisted Cancel nothing that moves the workflow on is persisted, and the
workflow is suspended or failed. -/
theorem cancel_sticks (cfg : Config) (s t u : System) (hcancel : Cancelled cfg s t)
    (hrun : Machine.Run (next cfg) (Quiet cfg.workflow) t u) :
    (∀ e ∈ u.workflowLog.drop t.workflowLog.length, advances e = false) ∧
      (journalStatus u = .suspended ∨ journalStatus u = .failed) := by
  obtain ⟨hlog, hheld⟩ := cancelled_held hcancel
  obtain ⟨⟨grown, hgrown, hstays⟩, _⟩ := hrun.invariant (Held t.workflowLog)
    (fun _ _ _ hs hquiet hstep => held_step hs hquiet (next_step hstep)) hheld
  constructor
  · rw [hgrown, List.drop_left]
    exact fun e he => advances_of_stays (hstays e he)
  · rw [journalStatus, hgrown, fold_append]
    refine fold_stays hstays (Or.inl ?_)
    rw [hlog, fold_append]
    rfl

def cancelQueued : System :=
  Machine.final (next (solo .inMemory)) Machine.free System.init (soloRunning ++ [.deliver .cancel])

def cancelPersisted : System :=
  Machine.final (next (solo .inMemory)) Machine.free cancelQueued
    [.workflowHandle, .workflowPersist true]

theorem cancelled_solo : Cancelled (solo .inMemory) cancelQueued cancelPersisted :=
  ⟨_, _, by decide +kernel, rfl, Machine.Run.refl _, rfl⟩

def cancelledTwice : System :=
  Machine.final (next (solo .inMemory)) (Quiet (solo .inMemory).workflow) cancelPersisted
    [.agentHandle 0 "m2", .runFinish 0 .cancelled, .agentHandle 0 "m3", .deliver .cancel,
      .workflowHandle, .workflowPersist true]

theorem cancel_sticks_twice :
    (∀ e ∈ cancelledTwice.workflowLog.drop cancelPersisted.workflowLog.length,
        advances e = false) ∧
      (journalStatus cancelledTwice = .suspended ∨ journalStatus cancelledTwice = .failed) :=
  cancel_sticks (solo .inMemory) cancelQueued cancelPersisted _ cancelled_solo
    (Machine.run_final _ (by decide +kernel))

/-- The run answers after the Cancel was persisted, and the workflow finishes. -/
theorem finishes_after_cancel :
    ¬ ∀ (cfg : Config) (s t u : System), Machine.Run (next cfg) Machine.free System.init s →
      journalStatus s = .running → Cancelled cfg s t → Machine.Run (next cfg) Unrevived t u →
      ∀ e ∈ u.workflowLog.drop t.workflowLog.length, advances e = false := by
  intro h
  have hevents := h (solo .inMemory) cancelQueued cancelPersisted
    (Machine.final (next (solo .inMemory)) Unrevived cancelPersisted
      [.runFinish 0 (.completed "done"), .agentHandle 0 "m2", .agentHandle 0 "m3",
        .workflowHandle, .workflowPersist true])
    (Machine.run_final _ (by decide +kernel)) (by decide +kernel) cancelled_solo
    (Machine.run_final _ (by decide +kernel))
  revert hevents
  decide +kernel

end October.CancelSticks
