import October.WorkflowInvariants

/-!
A workflow whose journal folds to Finished or Failed. Its actor has stopped, or was
re-launched over the journal and holds no agent; then it ignores every Resume and
Fork and no agent reports to it. Cancel is handled in every status, so the journal
keeps its status exactly as long as no re-launched terminal workflow is cancelled.
-/
namespace October.TerminalStatus

open WorkflowActor WorkflowInvariants

def terminal : WorkflowStatus → Bool
  | .finished => true
  | .failed => true
  | _ => false

def ends : WorkflowDomainEvent → Bool
  | .workflowFinished _ => true
  | .workflowFailed _ _ => true
  | _ => false

def journalStatus (s : System) : WorkflowStatus := (fold s.workflowLog).status

def isStart : WorkflowCommand → Bool
  | .start _ => true
  | _ => false

def isCancel : WorkflowCommand → Bool
  | .cancel => true
  | _ => false

def StartFree (s : System) (l : Label) : Prop :=
  HandlesOnly (fun _ command => !(terminal (journalStatus s) && isStart command)) s l

def Uncancelled (s : System) (l : Label) : Prop :=
  HandlesOnly (fun _ command => !(terminal (journalStatus s) && isCancel command)) s l

instance (s : System) (l : Label) : Decidable (StartFree s l) :=
  inferInstanceAs (Decidable (HandlesOnly _ s l))

instance (s : System) (l : Label) : Decidable (Uncancelled s l) :=
  inferInstanceAs (Decidable (HandlesOnly _ s l))

def guard (s : System) (l : Label) : Prop := StartFree s l ∧ Uncancelled s l

instance (s : System) (l : Label) : Decidable (guard s l) :=
  inferInstanceAs (Decidable (_ ∧ _))

/-- A live actor over a terminal journal has stopped or idles without an agent. -/
def Idle (s : System) (wf : WorkflowProc) : Prop :=
  wf.phase.isStopped = true ∨
    (wf.phase = .recovering ∨ wf.phase = .waiting) ∧ wf.child = none ∧ agentSessions s = [] ∧
      ∀ c ∈ wf.mailbox, operator c = true

structure Settled (s : System) : Prop where
  idle : terminal (journalStatus s) = true → ∀ wf, s.workflow = some wf → Idle s wf
  pending : ∀ wf effect, s.workflow = some wf → wf.phase = .performing effect →
    Phase.called effect = .stopped ∨ ∀ e ∈ effect.events, ends e = false

variable {cfg : Config} {s t : System}

theorem foldl_terminal {state : WorkflowState} {events : List WorkflowDomainEvent}
    (h : terminal (events.foldl applyEvent state).status = true) :
    terminal state.status = true ∨ ∃ e ∈ events, ends e = true := by
  induction events generalizing state with
  | nil => exact Or.inl h
  | cons e rest ih =>
    rcases ih h with hfirst | ⟨e', he', hends⟩
    · cases e with
      | workflowFinished _ | workflowFailed _ _ => exact Or.inr ⟨_, List.mem_cons_self, rfl⟩
      | _ => contradiction
    · exact Or.inr ⟨e', List.mem_cons_of_mem _ he', hends⟩

/-- A handler that persists an ending event stops its actor. -/
theorem handled_ending {wf : Workflow} {fresh : Fresh} {child : Option ActorRef}
    {state : WorkflowState} {command : WorkflowCommand} {reply : Reply}
    (h : Handled wf fresh child state command reply) {effect : CommandEffect WorkflowDomainEvent}
    (heffect : Phase.handled reply.effect = .performing effect) :
    Phase.called effect = .stopped ∨ ∀ e ∈ effect.events, ends e = false := by
  cases h with
  | failed _ _ _ _ _ | finished _ _ _ =>
    cases heffect
    exact Or.inl rfl
  | started _ _ _ | transitioned _ _ _ _ _ _ _ _ | forked _ _ _ _ _ _ _ _ | cancelled
  | suspended _ _ _ | paused _ _ _ _ =>
    cases heffect
    exact Or.inr (by simp [ends])
  | _ => contradiction

/-- What a terminal workflow without an agent does with a command it is sent. -/
theorem handle_terminal (wf : Workflow) (fresh : Fresh) {state : WorkflowState}
    {command : WorkflowCommand} (hstate : terminal state.status = true)
    (hop : operator command = true) (hstart : isStart command = false)
    (hcancel : isCancel command = false) :
    handleCommand wf fresh none state command = ignored none := by
  cases command with
  | start _ | cancel | agentConcluded _ _ | agentAsked _ _ _ | agentFailed _ _ _ => contradiction
  | resume message =>
    simp only [handleCommand, onResume]
    cases hstatus : state.status with
    | finished | failed => rfl
    | _ => simp [hstatus, terminal] at hstate
  | fork source message =>
    simp only [handleCommand, onFork]
    rw [if_pos]
    intro hsuspended
    simp [hsuspended, terminal] at hstate

theorem Settled.frame (hs : Settled s) (hframe : Frame s t) : Settled t := by
  obtain ⟨hsessions, hlog, _, hheard⟩ := hframe
  have hstatus : journalStatus t = journalStatus s := by rw [journalStatus, hlog, journalStatus]
  constructor
  · rw [hstatus]
    intro hterminal wf hwf
    unfold Idle
    rw [hsessions]
    rcases hheard with hsame | ⟨command, hcommand, htold⟩
    · exact hs.idle hterminal wf (hsame.symm.trans hwf)
    · obtain ⟨old, hold, rfl⟩ := Option.map_eq_some_iff.mp (htold.symm.trans hwf)
      rw [WorkflowProc.tell_phase, WorkflowProc.tell_child]
      rcases hs.idle hterminal old hold with hstopped | ⟨hphase, hchild, hnil, hmailbox⟩
      · exact Or.inl hstopped
      · refine Or.inr ⟨hphase, hchild, hnil, fun c hc => ?_⟩
        rcases WorkflowProc.mem_tell command old hc with hc | rfl
        · exact hmailbox c hc
        · exact hcommand.resolve_right (fun hne => hne hnil)
  · intro wf effect hwf hphase
    rcases hheard with hsame | ⟨command, _, htold⟩
    · exact hs.pending wf effect (hsame.symm.trans hwf) hphase
    · obtain ⟨old, hold, rfl⟩ := Option.map_eq_some_iff.mp (htold.symm.trans hwf)
      rw [WorkflowProc.tell_phase] at hphase
      exact hs.pending old effect hold hphase

/-- Over a terminal journal every handled command is ignored. -/
theorem handled_idle (cfg : Config) (hbase : Base s) (hs : Settled s)
    (hterminal : terminal (journalStatus s) = true)
    (hguard : guard s .workflowHandle) {wf : WorkflowProc} {command : WorkflowCommand}
    {rest : List WorkflowCommand} (hwf : s.workflow = some wf) (hphase : wf.phase = .waiting)
    (hmailbox : wf.mailbox = command :: rest) (fresh : Fresh) :
    handleCommand cfg.workflow fresh wf.child wf.state command = ignored none ∧
      agentSessions s = [] ∧ ∀ c ∈ rest, operator c = true := by
  have hstart : isStart command = false := by
    simpa [hterminal] using hguard.1.meets hwf hmailbox
  have hcancel : isCancel command = false := by
    simpa [hterminal] using hguard.2.meets hwf hmailbox
  rcases hs.idle hterminal wf hwf with hstopped | ⟨_, hchild, hnil, hop⟩
  · rw [hphase] at hstopped
    contradiction
  · rw [hmailbox] at hop
    have hfolded : wf.state = fold s.workflowLog :=
      (hbase.placed wf hwf).folded (by rw [hphase]; rfl)
    rw [hchild]
    exact ⟨handle_terminal cfg.workflow fresh (hfolded ▸ hterminal) (hop command List.mem_cons_self)
      hstart hcancel, hnil, fun c hc => hop c (List.mem_cons_of_mem _ hc)⟩

theorem Settled.step (hbase : Base s) (hs : Settled s) {l : Label} (hguard : guard s l)
    (hstep : Step cfg s l t) : Settled t := by
  have hframe := step_frame hstep
  cases hstep with
  | launched kickoff hop hnone =>
    refine ⟨fun _ wf hwf => ?_, fun wf effect hwf hphase => ?_⟩
    · cases Option.some.inj hwf
      exact Or.inr ⟨Or.inl rfl, rfl, hbase.absent hnone, hop⟩
    · cases Option.some.inj hwf
      contradiction
  | recovered wf spawned hwf hphase hspawned =>
    refine ⟨fun hterminal wf' hwf' => ?_, fun wf' effect hwf' hphase' => ?_⟩
    · cases Option.some.inj hwf'
      have hnone : spawned = none := by
        rw [hspawned, onRecoveryComplete]
        have hstatus : terminal (fold s.workflowLog).status = true := by
          cases spawned <;> exact hterminal
        cases hcase : (fold s.workflowLog).status with
        | running => simp [hcase, terminal] at hstatus
        | _ => rfl
      subst hnone
      obtain ⟨hnil, _, hmailbox⟩ := (hbase.placed wf hwf).recovering (by rw [hphase]; rfl)
      exact Or.inr ⟨Or.inr rfl, rfl, hnil, hmailbox⟩
    · cases Option.some.inj hwf'
      contradiction
  | handled wf command rest reply channel hwf hphase hmailbox hreply =>
    refine ⟨fun hterminal wf' hwf' => ?_, fun wf' effect hwf' hphase' => ?_⟩
    · cases Option.some.inj hwf'
      obtain ⟨hignored, hnil, hrest⟩ :=
        handled_idle cfg hbase hs hterminal hguard hwf hphase hmailbox (s.fresh cfg command)
      rw [hreply, hignored]
      refine Or.inr ⟨Or.inr rfl, rfl, ?_, hrest⟩
      exact (agentSessions_repliedAgents (ignored none) s.agents).trans
        (by simpa [ignored, agentSessions] using hnil)
    · cases Option.some.inj hwf'
      exact handled_ending (hreply ▸ handleCommand_handled command) hphase'
  | persisted wf effect events ok hwf hphase hevents =>
    refine ⟨fun hterminal wf' hwf' => ?_, fun wf' effect' hwf' hphase' => ?_⟩
    · cases Option.some.inj hwf'
      have hfold : terminal (events.foldl applyEvent (fold s.workflowLog)).status = true := by
        rw [← fold_append]
        exact hterminal
      rcases hs.pending wf effect hwf hphase with hstop | hnone
      · exact Or.inl (by rw [hstop]; rfl)
      · rcases foldl_terminal hfold with hbefore | ⟨e, he, hends⟩
        · rcases hs.idle hbefore wf hwf with hstopped | ⟨hidle, _⟩
          · rw [hphase] at hstopped
            contradiction
          · rw [hphase] at hidle
            rcases hidle with hidle | hidle <;> contradiction
        · have he' : e ∈ effect.events := by
            rw [hevents] at he
            split at he
            · exact he
            · simp at he
          rw [hnone e he'] at hends
          contradiction
    · cases Option.some.inj hwf'
      have hcalled : Phase.called effect = .performing effect' := hphase'
      cases effect with
      | persistAndSnapshot _ =>
        cases hcalled
        exact Or.inr (by simp)
      | _ => contradiction
  | crashed =>
    exact ⟨fun _ wf hwf => by contradiction, fun wf effect hwf _ => by contradiction⟩
  | _ => exact hs.frame (hframe rfl)

theorem settled_init : Settled System.init :=
  ⟨fun h => by contradiction, fun wf effect hwf _ => by contradiction⟩

theorem settled_reachable (h : Machine.Run (next cfg) guard System.init s) : Base s ∧ Settled s :=
  h.invariant (fun s => Base s ∧ Settled s)
    (fun _ _ _ hs hguard hstep =>
      ⟨hs.1.step (next_step hstep), hs.2.step hs.1 hguard (next_step hstep)⟩)
    ⟨base_init, settled_init⟩

/-- A step of a settled terminal workflow leaves its journal as it is. -/
theorem terminal_log_step (hs : Settled s)
    (hterminal : terminal (journalStatus s) = true) {l : Label} (hstep : Step cfg s l t) :
    t.workflowLog = s.workflowLog := by
  have hframe := step_frame hstep
  cases hstep with
  | launched _ _ _ => rfl
  | recovered wf spawned _ _ _ => cases spawned <;> rfl
  | handled _ _ _ _ _ _ _ _ _ => rfl
  | persisted wf effect events ok hwf hphase hevents =>
    rcases hs.idle hterminal wf hwf with hstopped | ⟨hidle, _⟩
    · rw [hphase] at hstopped
      contradiction
    · rw [hphase] at hidle
      rcases hidle with hidle | hidle <;> contradiction
  | crashed => rfl
  | _ => exact (hframe rfl).log

theorem terminal_log (hreach : Machine.Run (next cfg) guard System.init s)
    (hterminal : terminal (journalStatus s) = true) (hrun : Machine.Run (next cfg) guard s t) :
    t.workflowLog = s.workflowLog := by
  have h := hrun.invariant
    (fun u => (Base u ∧ Settled u) ∧ u.workflowLog = s.workflowLog)
    (fun u l v hu hguard hstep => by
      obtain ⟨⟨hbase, hsettled⟩, hlog⟩ := hu
      have hstep' := next_step hstep
      have hterminal' : terminal (journalStatus u) = true := by
        rw [journalStatus, hlog]
        exact hterminal
      exact ⟨⟨hbase.step hstep', hsettled.step hbase hguard hstep'⟩,
        (terminal_log_step hsettled hterminal' hstep').trans hlog⟩)
    ⟨settled_reachable hreach, rfl⟩
  exact h.2

/-- Once the journal folds to Finished or Failed it always folds to the same status. -/
theorem terminal_status_stable (cfg : Config) (s t : System)
    (hreach : Machine.Run (next cfg) guard System.init s)
    (hterminal : terminal (journalStatus s) = true) (hrun : Machine.Run (next cfg) guard s t) :
    journalStatus t = journalStatus s := by
  rw [journalStatus, terminal_log hreach hterminal hrun, journalStatus]

def finishThenRelaunch : List Label :=
  soloRunning ++
    [.runFinish 0 (.completed "done"), .agentHandle 0 "m2", .workflowHandle,
      .workflowPersist true, .crash, .launch none, .workflowRecover]

def relaunched : System :=
  Machine.final (next (solo .inMemory)) guard System.init finishThenRelaunch

theorem run_relaunched : Machine.Run (next (solo .inMemory)) guard System.init relaunched :=
  Machine.run_final finishThenRelaunch (by decide +kernel)

theorem terminal_status_stable_resumed :
    journalStatus (Machine.final (next (solo .inMemory)) guard relaunched
      [.deliver (.resume "more"), .workflowHandle]) = journalStatus relaunched :=
  terminal_status_stable (solo .inMemory) relaunched _ run_relaunched (by decide +kernel)
    (Machine.run_final _ (by decide +kernel))

/-- Cancel turns the finished workflow into a suspended one. -/
theorem finished_not_absorbing :
    ¬ ∀ (cfg : Config) (s t : System), Machine.Run (next cfg) StartFree System.init s →
      terminal (journalStatus s) = true → Machine.Run (next cfg) StartFree s t →
      journalStatus t = journalStatus s := by
  intro h
  have hstatus := h (solo .inMemory) relaunched
    (Machine.final (next (solo .inMemory)) StartFree relaunched
      [.deliver .cancel, .workflowHandle, .workflowPersist true])
    (run_relaunched.mono (fun _ _ hguard => hguard.1)) (by decide +kernel)
    (Machine.run_final _ (by decide +kernel))
  revert hstatus
  decide +kernel

end October.TerminalStatus
