import October.Announcements
import October.SingleFlight
import October.SupervisorSystem

/-!
The work in flight in one workflow system. A run in flight, a command that starts one, the
end of a run and the report of one each count as one. A handler that starts an agent takes
the command or the report before it, so within the life of one process there is at most
one of them, as long as no Resume or Fork starts an agent and a Cancel finds no run.
-/
namespace October.RunTokens

open WorkflowActor WorkflowInvariants SingleFlight Announcements

def isStart : WorkflowCommand → Bool
  | .start _ => true
  | _ => false

def fromAgent (command : WorkflowCommand) : Bool := command.reports.isSome

def isCancel : WorkflowCommand → Bool
  | .cancel => true
  | _ => false

def isEnd : AgentCommand → Bool
  | .runFinished _ => true
  | _ => false

def ending (p : AgentProc) : ℕ := p.mailbox.countP isEnd

def total (f : AgentProc → ℕ) : List AgentProc → ℕ
  | [] => 0
  | p :: rest => f p + total f rest

def queued (f : WorkflowCommand → Bool) (s : System) : ℕ :=
  (s.workflow.map (fun wf => wf.mailbox.countP f)).getD 0

def unfinished (s : System) : ℕ := s.runs.countP (fun task => !task.finished)

def starting (s : System) : ℕ :=
  unfinished s + total (agentLoad s.sessions) s.agents + queued isStart s

def coming (s : System) : ℕ := total ending s.agents + queued fromAgent s

variable {cfg : Config} {s t : System}

section Totals

theorem total_congr {f g : AgentProc → ℕ} {agents : List AgentProc}
    (h : ∀ p ∈ agents, f p = g p) : total f agents = total g agents := by
  induction agents with
  | nil => rfl
  | cons p rest ih =>
    rw [total, total, h p (List.mem_cons_self ..), ih (fun q hq => h q (List.mem_cons_of_mem _ hq))]

theorem total_concat (f : AgentProc → ℕ) (agents : List AgentProc) (p : AgentProc) :
    total f (agents ++ [p]) = total f agents + f p := by
  induction agents with
  | nil => simp [total]
  | cons q rest ih =>
    rw [List.cons_append, total, total, ih]
    omega

theorem total_set {f g : AgentProc → ℕ} (agents : List AgentProc) {ref : ActorRef}
    {p p' : AgentProc} (hp : agents[ref]? = some p)
    (hothers : ∀ i q, i ≠ ref → agents[i]? = some q → g q = f q) :
    total g (agents.set ref p') + f p = total f agents + g p' := by
  induction agents generalizing ref with
  | nil => simp at hp
  | cons a rest ih =>
    cases ref with
    | zero =>
      obtain rfl : a = p := by simpa using hp
      have hrest : total g rest = total f rest := by
        refine total_congr (fun q hq => ?_)
        obtain ⟨i, hi⟩ := List.mem_iff_getElem?.mp hq
        exact hothers (i + 1) q (Nat.succ_ne_zero i) (by simpa using hi)
      rw [List.set_cons_zero, total, total, hrest]
      omega
    | succ i =>
      have hhead : g a = f a := hothers 0 a (Nat.succ_ne_zero i).symm (by simp)
      have htail := ih (by simpa using hp) (fun j q hj hq =>
        hothers (j + 1) q (fun h => hj (Nat.succ.inj h)) (by simpa using hq))
      rw [List.set_cons_succ, total, total, hhead]
      omega

theorem total_modify_same {f : AgentProc → ℕ} {g : AgentProc → AgentProc}
    (h : ∀ p, f (g p) = f p) (agents : List AgentProc) (ref : ActorRef) :
    total f (agents.modify ref g) = total f agents := by
  induction agents generalizing ref with
  | nil => simp
  | cons a rest ih =>
    cases ref with
    | zero => rw [List.modify_zero_cons, total, total, h]
    | succ i => rw [List.modify_succ_cons, total, total, ih]

theorem total_modify_le {f : AgentProc → ℕ} {g : AgentProc → AgentProc}
    (h : ∀ p, f (g p) ≤ f p + 1) (agents : List AgentProc) (ref : ActorRef) :
    total f (agents.modify ref g) ≤ total f agents + 1 := by
  induction agents generalizing ref with
  | nil => simp [total]
  | cons a rest ih =>
    cases ref with
    | zero =>
      have ha := h a
      rw [List.modify_zero_cons, total, total]
      omega
    | succ i =>
      have htail := ih i
      rw [List.modify_succ_cons, total, total]
      omega

/-- A step of one agent leaves the loads of the others. -/
theorem total_load (hs : Base s) {ref : ActorRef} {p p' : AgentProc}
    (hp : s.agents[ref]? = some p) (hagents : t.agents = s.agents.set ref p')
    (hsessions : ∀ sessionId, sessionId ≠ p.actor.sessionId →
      t.sessions sessionId = s.sessions sessionId) :
    total (agentLoad t.sessions) t.agents + agentLoad s.sessions p =
      total (agentLoad s.sessions) s.agents + agentLoad t.sessions p' := by
  rw [hagents]
  refine total_set s.agents hp (fun i q hi hq => agentLoad_congr (hsessions _ (fun heq => hi ?_)))
  have hq' := mem_agentSessions hq
  have hp' := mem_agentSessions hp
  rw [heq] at hq'
  exact (List.getElem?_inj (List.getElem?_eq_some_iff.mp hq').1 hs.nodup).mp (hq'.trans hp'.symm)

theorem ending_tell {command : AgentCommand} (h : isEnd command = false) (p : AgentProc) :
    ending (p.tell command) = ending p := by
  unfold ending AgentProc.tell
  split
  · rfl
  · simp [h]

theorem ending_tell_le (command : AgentCommand) (p : AgentProc) :
    ending (p.tell command) ≤ ending p + 1 := by
  unfold ending AgentProc.tell
  split
  · omega
  · rw [List.countP_append, List.countP_singleton]
    split <;> omega

theorem queued_tell (f : WorkflowCommand → Bool) (command : WorkflowCommand) (s : System) :
    queued f (s.tellWorkflow command) ≤ queued f s + (if f command = true then 1 else 0) := by
  unfold queued System.tellWorkflow
  cases s.workflow with
  | none => simp
  | some wf =>
    simp only [Option.map_some, Option.getD_some, WorkflowProc.tell]
    split
    · exact Nat.le_add_right _ _
    · exact Nat.le_of_eq (by rw [List.countP_append, List.countP_singleton])

theorem queued_tell_same {f : WorkflowCommand → Bool} {command : WorkflowCommand}
    (h : f command = false) (s : System) : queued f (s.tellWorkflow command) = queued f s := by
  unfold queued System.tellWorkflow
  cases s.workflow with
  | none => rfl
  | some wf =>
    simp only [Option.map_some, Option.getD_some, WorkflowProc.tell]
    split
    · rfl
    · rw [List.countP_append, List.countP_singleton, h]
      simp

end Totals

/-- A workflow that has not run before: it has journaled nothing before it recovers, and
entered no session before it has an agent. -/
structure FirstLife (s : System) : Prop where
  absent : s.workflow = none → s.workflowLog = [] ∧ s.channel = []
  blank : ∀ wf, s.workflow = some wf → wf.phase.isRecovering = true → s.workflowLog = []
  held : ∀ wf, s.workflow = some wf → wf.child = none → ∀ e ∈ record s, entersSession e = none

def hears (s : System) (ref : ActorRef) : Bool :=
  (s.agents[ref]?).any (fun p => !p.phase.isStopped)

/-- A command that starts no run besides those that a Start or the report of a run, which
is not cancelled, leads to: no Resume reaches an agent, no Fork spawns one, a Cancel finds
nothing that starts a run, and after a Cancel the workflow does not move on. -/
def drains (cfg : Config) (cancelled : Bool) (s : System) (wf : WorkflowProc) :
    WorkflowCommand → Bool
  | .resume _ => !resumable wf.state || !wf.child.any (hears s)
  | .fork source _ =>
    wf.state.status != .suspended || !wf.state.currentAgent.any (spawnable cfg.workflow) ||
      !(copySnapshot cfg.backend source s.nextSession s.sessions).1.isOk
  | .cancel => starting s == 0
  | .agentConcluded sessionId output =>
    !cancelled || wf.state.currentSessionId != some sessionId ||
      !movesOn cfg.workflow wf.state output
  | _ => true

def busy (cancelled : Bool) (s : System) : Prop :=
  0 < starting s ∨ (0 < coming s ∧ cancelled = false)

/-- A step that makes no more work than there was, and nothing busy that was not. -/
structure Spends (cancelled : Bool) (s t : System) : Prop where
  total : starting t + coming t ≤ starting s + coming s
  starts : starting t ≤ starting s ∨ (0 < coming s ∧ cancelled = false)

theorem Spends.busy {cancelled cancelled' : Bool} (h : Spends cancelled s t)
    (hcancelled : cancelled' = false → cancelled = false) (hbusy : busy cancelled' t) :
    busy cancelled s := by
  obtain ⟨htotal, hstarts⟩ := h
  unfold RunTokens.busy at *
  rcases hstarts with hstarts | hcoming
  · rcases hbusy with hstarting | ⟨hcoming, hnot⟩
    · exact Or.inl (Nat.lt_of_lt_of_le hstarting hstarts)
    · by_cases hzero : 0 < starting s
      · exact Or.inl hzero
      · exact Or.inr ⟨by omega, hcancelled hnot⟩
  · exact Or.inr hcoming

section Lives

theorem firstLife_init : FirstLife System.init where
  absent _ := ⟨rfl, rfl⟩
  blank wf hwf := by contradiction
  held wf hwf := by contradiction

/-- Only a handler that holds an agent enters a session. -/
theorem handled_holds {wf : Workflow} {fresh : Fresh} {child : Option ActorRef}
    {state : WorkflowState} {command : WorkflowCommand} {reply : Reply}
    (h : Handled wf fresh child state command reply) (hchild : reply.child = none) :
    child = none ∧ ∀ e ∈ reply.effect.events, entersSession e = none := by
  cases h with
  | started _ _ _ | transitioned _ _ _ _ _ _ _ _ | forked _ _ _ _ _ _ _ _
  | respawned _ _ _ _ _ _ _ _ _ _ => contradiction
  | _ =>
    refine ⟨hchild, fun e he => ?_⟩
    simp [ignored, failed, finished] at he
    try (subst he; rfl)

theorem FirstLife.frame (h : FirstLife s) (hframe : Frame s t)
    (hchannel : s.channel = [] → t.channel = []) : FirstLife t := by
  have hrecord := record_frame hframe
  obtain ⟨_, hlog, _, hheard⟩ := hframe
  have hworkflow : ∀ wf, t.workflow = some wf → ∃ wf', s.workflow = some wf' ∧
      wf.phase = wf'.phase ∧ wf.child = wf'.child := by
    intro wf hwf
    rcases hheard with hsame | ⟨command, _, htold⟩
    · exact ⟨wf, hsame.symm.trans hwf, rfl, rfl⟩
    · obtain ⟨wf', hwf', rfl⟩ := Option.map_eq_some_iff.mp (htold.symm.trans hwf)
      exact ⟨wf', hwf', WorkflowProc.tell_phase command wf', WorkflowProc.tell_child command wf'⟩
  refine ⟨fun hnone => ?_, fun wf hwf hphase => ?_, fun wf hwf hchild => ?_⟩
  · have hnone' : s.workflow = none := by
      rcases hheard with hsame | ⟨command, _, htold⟩
      · exact hsame.symm.trans hnone
      · exact Option.map_eq_none_iff.mp (htold.symm.trans hnone)
    obtain ⟨hnil, hempty⟩ := h.absent hnone'
    exact ⟨hlog.trans hnil, hchannel hempty⟩
  · obtain ⟨wf', hwf', hsame, _⟩ := hworkflow wf hwf
    rw [hlog]
    exact h.blank wf' hwf' (by rw [← hsame]; exact hphase)
  · obtain ⟨wf', hwf', _, hsame⟩ := hworkflow wf hwf
    rw [hrecord]
    exact h.held wf' hwf' (hsame.symm.trans hchild)

theorem FirstLife.step (h : FirstLife s) {l : Label} (hlive : l ≠ .crash)
    (hstep : Step cfg s l t) : FirstLife t := by
  have hframe := step_frame hstep
  cases hstep with
  | launched kickoff _ hnone =>
    obtain ⟨hnil, _⟩ := h.absent hnone
    refine ⟨fun hworkflow => by contradiction, fun _ _ _ => hnil, fun wf hwf _ e he => ?_⟩
    cases Option.some.inj hwf
    simp [record, hnil] at he
  | recovered wf spawned hwf hphase _ =>
    have hnil := h.blank wf hwf (by rw [hphase]; rfl)
    refine ⟨fun hworkflow => by contradiction, fun wf' hwf' hphase' => ?_,
      fun wf' hwf' _ e he => ?_⟩
    · cases Option.some.inj hwf'
      contradiction
    · have hlog : (s.spawns spawned).workflowLog = [] := by
        cases spawned <;> exact hnil
      simp [record, hlog] at he
  | handled wf command rest reply channel hwf hphase _ hreply =>
    have hhandled : Handled cfg.workflow (s.fresh cfg command) wf.child wf.state command reply :=
      hreply ▸ handleCommand_handled command
    refine ⟨fun hworkflow => by contradiction, fun wf' hwf' hphase' => ?_,
      fun wf' hwf' hchild e he => ?_⟩
    · cases Option.some.inj hwf'
      simp at hphase'
    · cases Option.some.inj hwf'
      obtain ⟨hnone, hevents⟩ := handled_holds hhandled hchild
      have hmem : e ∈ s.workflowLog ++ reply.effect.events := by
        simpa [record, System.answered] using he
      rcases List.mem_append.mp hmem with hold | hnew
      · exact h.held wf hwf hnone e (List.mem_append_left _ hold)
      · exact hevents e hnew
  | persisted wf effect events ok hwf hphase hevents =>
    refine ⟨fun hworkflow => by contradiction, fun wf' hwf' hphase' => ?_,
      fun wf' hwf' hchild e he => ?_⟩
    · cases Option.some.inj hwf'
      simp at hphase'
    · cases Option.some.inj hwf'
      have hmem : e ∈ s.workflowLog ∨ e ∈ events := by simpa [record] using he
      refine h.held wf hwf hchild e ?_
      unfold record
      rw [hwf, Option.map_some, hphase]
      rcases hmem with hold | hnew
      · exact List.mem_append_left _ hold
      · refine List.mem_append_right _ ?_
        rw [hevents] at hnew
        split at hnew
        · exact hnew
        · contradiction
  | drained => exact h.frame (hframe rfl) (fun hnil => by simp [hnil])
  | crashed => contradiction
  | _ => exact h.frame (hframe rfl) (fun hnil => hnil)

end Lives

section Agents

theorem spends_le {cancelled : Bool} (htotal : starting t + coming t ≤ starting s + coming s)
    (hstarts : starting t ≤ starting s) : Spends cancelled s t := ⟨htotal, Or.inl hstarts⟩

theorem spends_same {cancelled : Bool} (hstarts : starting t = starting s)
    (hcoming : coming t = coming s) : Spends cancelled s t :=
  spends_le (by omega) (by omega)

/-- What the step of one agent adds and takes away. -/
theorem spends_agent {cancelled : Bool} (hs : Base s) {ref : ActorRef} {p p' : AgentProc}
    (hp : s.agents[ref]? = some p) (hagents : t.agents = s.agents.set ref p')
    (hsessions : ∀ sessionId, sessionId ≠ p.actor.sessionId →
      t.sessions sessionId = s.sessions sessionId)
    (hstarts : queued isStart t = queued isStart s)
    (hload : unfinished t + agentLoad t.sessions p' ≤ unfinished s + agentLoad s.sessions p)
    (hends : ending p' + queued fromAgent t ≤ ending p + queued fromAgent s) :
    Spends cancelled s t := by
  have hloads := total_load hs hp hagents hsessions
  have hendings : total ending t.agents + ending p = total ending s.agents + ending p' := by
    rw [hagents]
    exact total_set s.agents hp (fun _ _ _ _ => rfl)
  have hstarting : starting t ≤ starting s := by
    unfold starting
    omega
  have hcoming : coming t ≤ coming s := by
    unfold coming
    omega
  exact spends_le (Nat.add_le_add hstarting hcoming) hstarting

theorem unfinished_addRun (task : RunTask) (s : System) (hlive : task.finished = false) :
    unfinished (s.addRun task) = unfinished s + 1 := by
  unfold unfinished System.addRun
  rw [List.countP_append, List.countP_singleton, hlive]
  rfl

theorem unfinished_cancel (runs : List RunTask) (run : ℕ) :
    (runs.modify run (fun r => { r with cancelled := true })).countP (fun task => !task.finished) =
      runs.countP (fun task => !task.finished) := by
  have hmap := map_modify_same (f := fun task : RunTask => !task.finished)
    (g := fun r => { r with cancelled := true }) (fun _ => rfl) runs run
  have hcount := congrArg (List.countP id) hmap
  rwa [List.countP_map, List.countP_map] at hcount

theorem unfinished_finish {run : ℕ} {task : RunTask} (htask : s.runs[run]? = some task)
    (hlive : task.finished = false) :
    (s.runs.set run { task with finished := true }).countP (fun task => !task.finished) + 1 =
      unfinished s := by
  obtain ⟨hlt, hget⟩ := List.getElem?_eq_some_iff.mp htask
  have hpos : 0 < s.runs.countP (fun task => !task.finished) :=
    List.countP_pos_iff.mpr ⟨task, List.mem_of_getElem? htask, by simp [hlive]⟩
  unfold unfinished
  rw [List.countP_set hlt, hget, hlive]
  simp
  omega

def ofAgents : Label → Bool
  | .agentRecover _ _ => true
  | .agentHandle _ _ => true
  | .agentPersist _ _ => true
  | .runProgress _ _ => true
  | .runFinish _ _ => true
  | _ => false

theorem isStart_of_reports {command : WorkflowCommand} {sessionId : Uuid}
    (h : command.reports = some sessionId) : isStart command = false := by
  cases command <;> first | rfl | contradiction

/-- Taking a command adds no end of a run. -/
theorem ending_taken {p p' : AgentProc} {command : AgentCommand} {rest : List AgentCommand}
    (hmailbox : p.mailbox = command :: rest) (hrest : p'.mailbox = rest) :
    ending p' ≤ ending p := by
  unfold ending
  rw [hmailbox, hrest, List.countP_cons]
  exact Nat.le_add_right _ _

theorem ending_end {p : AgentProc} {outcome : RunOutcome} {rest : List AgentCommand}
    (hmailbox : p.mailbox = .runFinished outcome :: rest) : ending p = rest.countP isEnd + 1 := by
  unfold ending
  rw [hmailbox, List.countP_cons_of_pos rfl]

/-- An agent takes the end of a run before it reports the run. -/
theorem reports_end {ref : ActorRef} {p p' : AgentProc} {outcome : RunOutcome}
    {rest : List AgentCommand} (report : WorkflowCommand)
    (hmailbox : p.mailbox = .runFinished outcome :: rest) (hrest : p'.mailbox = rest) :
    ending p' + queued fromAgent ((s.setAgent ref p').tellWorkflow report) ≤
      ending p + queued fromAgent s := by
  have hle := queued_tell fromAgent report (s.setAgent ref p')
  have hsame : queued fromAgent (s.setAgent ref p') = queued fromAgent s := rfl
  rw [ending_end hmailbox]
  unfold ending
  rw [hrest]
  split at hle <;> omega

theorem spends_agents {cancelled : Bool} (hs : Base s) {l : Label} (hl : ofAgents l = true)
    (hstep : Step cfg s l t) : Spends cancelled s t ∧ t.channel = s.channel := by
  cases hstep with
  | launched _ _ _ | delivered _ _ | recovered _ _ _ _ _ | handled _ _ _ _ _ _ _ _ _
  | persisted _ _ _ _ _ _ _ | drained | crashed => contradiction
  | agentIdle ref messageId p hp hphase hmessages =>
    refine ⟨spends_agent hs hp rfl (fun _ _ => rfl) rfl ?_ (Nat.le_refl _), rfl⟩
    refine Nat.add_le_add_left ?_ _
    exact agentLoad_idle s.sessions hphase rfl rfl
  | agentRedriven ref messageId p hp hphase hmessages =>
    refine ⟨spends_agent hs hp rfl (fun _ _ => rfl) rfl ?_ (Nat.le_refl _), rfl⟩
    rw [unfinished_addRun _ _ rfl, Nat.add_assoc, Nat.add_comm 1]
    refine Nat.add_le_add_left ?_ _
    exact agentLoad_redriven hphase hmessages rfl rfl
  | agentRan ref messageId p command rest input hp hphase hmailbox hinput =>
    have hstarts := starts_of_startsRun hinput
    refine ⟨spends_agent hs hp rfl (fun _ _ => rfl) rfl ?_ ?_, rfl⟩
    · rw [unfinished_addRun _ _ rfl, Nat.add_assoc, Nat.add_comm 1]
      refine Nat.add_le_add_left ?_ _
      exact agentLoad_started s.sessions hphase hmailbox hstarts rfl rfl
    · refine Nat.add_le_add_right ?_ _
      exact ending_taken hmailbox rfl
  | agentNoted ref _ p _ _ hp hphase hmailbox | agentEnded ref _ p _ hp hphase hmailbox =>
    refine ⟨spends_agent hs hp rfl (fun _ _ => rfl) rfl ?_ ?_, rfl⟩
    · refine Nat.add_le_add_left ?_ _
      exact agentLoad_handled s.sessions hphase hmailbox rfl rfl
    · refine Nat.add_le_add_right ?_ _
      exact ending_taken hmailbox rfl
  | agentCancelled ref messageId p rest runs hp hphase hmailbox hruns =>
    have hsame : runs.countP (fun task => !task.finished) = unfinished s := by
      rw [hruns]
      cases p.actor.running with
      | none => rfl
      | some run => exact unfinished_cancel s.runs run
    refine ⟨spends_agent hs hp rfl (fun _ _ => rfl) rfl ?_ ?_, rfl⟩
    · refine Nat.add_le_add (Nat.le_of_eq hsame) ?_
      exact agentLoad_handled s.sessions hphase hmailbox rfl rfl
    · refine Nat.add_le_add_right ?_ _
      exact ending_taken hmailbox rfl
  | agentReported ref messageId p outcome rest report hp hphase hmailbox hreports _ =>
    refine ⟨spends_agent hs hp rfl (fun _ _ => rfl)
      (queued_tell_same (isStart_of_reports hreports) _) ?_ ?_, rfl⟩
    · refine Nat.add_le_add_left ?_ _
      exact agentLoad_handled s.sessions hphase hmailbox rfl rfl
    · exact reports_end report hmailbox rfl
  | agentAsked ref messageId p outcome rest toolCallId question hp hphase hmailbox =>
    refine ⟨spends_agent hs hp rfl (fun _ _ => rfl) (queued_tell_same rfl _) ?_ ?_, rfl⟩
    · refine Nat.add_le_add_left ?_ _
      exact agentLoad_handled s.sessions hphase hmailbox rfl rfl
    · exact reports_end _ hmailbox rfl
  | agentCalled ref ok p effect events hp hphase _ =>
    refine ⟨spends_agent hs hp rfl (fun _ h => Function.update_of_ne h _ _) rfl ?_
      (Nat.le_refl _), rfl⟩
    refine Nat.add_le_add_left ?_ _
    exact agentLoad_called s.sessions _ hphase rfl rfl
  | runStreamed run event task _ _ _ =>
    have hload : total (agentLoad s.sessions) (s.agents.modify task.agent
        (AgentProc.tell (.persistProgress [event]))) = total (agentLoad s.sessions) s.agents :=
      total_modify_same (fun p => agentLoad_tell s.sessions _ p rfl) s.agents task.agent
    have hending : total ending (s.agents.modify task.agent
        (AgentProc.tell (.persistProgress [event]))) = total ending s.agents :=
      total_modify_same (fun p => ending_tell rfl p) s.agents task.agent
    refine ⟨spends_same ?_ ?_, rfl⟩
    · unfold starting
      rw [show total (agentLoad (s.tellAgent _ _).sessions) (s.tellAgent _ _).agents = _ from hload]
      rfl
    · unfold coming
      rw [show total ending (s.tellAgent _ _).agents = _ from hending]
      rfl
  | runEnded run outcome task htask hlive =>
    have hload : total (agentLoad s.sessions) (s.agents.modify task.agent
        (AgentProc.tell (.runFinished outcome))) = total (agentLoad s.sessions) s.agents :=
      total_modify_same (fun p => agentLoad_tell s.sessions _ p rfl) s.agents task.agent
    have hending : total ending (s.agents.modify task.agent
        (AgentProc.tell (.runFinished outcome))) ≤ total ending s.agents + 1 :=
      total_modify_le (fun p => ending_tell_le _ p) s.agents task.agent
    have hruns := unfinished_finish htask hlive
    have hstarting : starting (({ s with
        runs := s.runs.set run { task with finished := true } }).tellAgent task.agent
          (.runFinished outcome)) + 1 = starting s := by
      change _ + total (agentLoad s.sessions) (s.agents.modify task.agent
        (AgentProc.tell (.runFinished outcome))) + queued isStart s + 1 = _
      rw [hload]
      unfold starting
      rw [← hruns]
      change (s.runs.set run _).countP _ + _ + _ + 1 = _
      omega
    have hcoming : coming (({ s with
        runs := s.runs.set run { task with finished := true } }).tellAgent task.agent
          (.runFinished outcome)) ≤ coming s + 1 := by
      change total ending (s.agents.modify task.agent (AgentProc.tell (.runFinished outcome))) +
        queued fromAgent s ≤ _
      unfold coming
      omega
    exact ⟨spends_le (by omega) (by omega), rfl⟩

end Agents

section Handled

variable {cancelled : Bool} {wf : WorkflowProc} {command : WorkflowCommand}
  {rest : List WorkflowCommand} {reply : Reply} {channel : List WorkflowNotification}

/-- Without an agent there is no session to resume. -/
theorem no_session (hs : Base s) (hfirst : FirstLife s) (hwf : s.workflow = some wf)
    (hphase : wf.phase = .waiting) (hchild : wf.child = none) :
    wf.state.currentSessionId = none := by
  cases hsession : wf.state.currentSessionId with
  | none => rfl
  | some sessionId =>
    rw [(hs.placed wf hwf).folded (by rw [hphase]; rfl)] at hsession
    obtain ⟨e, he, henters⟩ := fold_entered hsession
    rw [hfirst.held wf hwf hchild e (List.mem_append_left _ he)] at henters
    contradiction

def Draws (s : System) (reply : Reply) : Prop :=
  reply.spawned = none ∧ ∀ ref told, reply.told = some (ref, told) →
    (starts told = false ∧ isEnd told = false) ∨ hears s ref = false

def Enters (s : System) (reply : Reply) : Prop :=
  reply.copied = none ∧ reply.notified = none ∧ ∃ d input,
    reply.spawned = some (d, s.nextSession) ∧ reply.told = some (s.agents.length, .run input)

theorem handled_draws (hs : Base s) (hfirst : FirstLife s) (hwf : s.workflow = some wf)
    (hphase : wf.phase = .waiting)
    (hreply : reply = handleCommand cfg.workflow (s.fresh cfg command) wf.child wf.state command)
    (hdrains : drains cfg cancelled s wf command = true) :
    Draws s reply ∨ (Enters s reply ∧
      (isStart command = true ∨ (fromAgent command = true ∧ cancelled = false))) := by
  have hhandled : Handled cfg.workflow (s.fresh cfg command) wf.child wf.state command reply :=
    hreply ▸ handleCommand_handled command
  have hsays : Says (silent cfg.workflow (s.fresh cfg command) wf.child wf.state command)
      (announces cfg.workflow wf.child wf.state command) (question command) reply :=
    hreply ▸ handleCommand_says command
  obtain ⟨_, _, hspoken⟩ := hsays
  cases hhandled with
  | started input d _ => exact Or.inr ⟨⟨rfl, rfl, d, input, rfl, rfl⟩, Or.inl rfl⟩
  | transitioned sessionId output source target condition d hcurrent _ =>
    refine Or.inr ⟨⟨rfl, rfl, d, _, rfl, rfl⟩, Or.inr ⟨rfl, ?_⟩⟩
    cases hmoves : movesOn cfg.workflow wf.state output with
    | true => simpa [drains, hcurrent, hmoves] using hdrains
    | false =>
      have hnotified := (hspoken rfl).mp (by simp [announces, hcurrent, hmoves])
      exact absurd rfl hnotified
  | forked source message agentName d hstatus hagent hspawnable hcopied =>
    have hok : (copySnapshot cfg.backend source s.nextSession s.sessions).1 = .ok () := hcopied
    simp [drains, hstatus, hagent, hspawnable.spawnable, hok] at hdrains
    contradiction
  | respawned message agentName sessionId told d hchild _ hsession _ _ =>
    rw [no_session hs hfirst hwf hphase hchild] at hsession
    contradiction
  | resumed message ref told hchild hresumable =>
    refine Or.inl ⟨rfl, fun ref' told' heq => Or.inr ?_⟩
    cases Option.some.inj heq
    simpa [drains, hchild, hresumable] using hdrains
  | cancelled =>
    refine Or.inl ⟨rfl, fun ref told heq => Or.inl ?_⟩
    obtain ⟨_, _, hsame⟩ := Option.map_eq_some_iff.mp heq
    cases hsame
    exact ⟨rfl, rfl⟩
  | _ => exact Or.inl ⟨rfl, fun ref told heq => by contradiction⟩

theorem repliedAgents_concat {agents : List AgentProc} {d : WorkflowAgentDef} {sessionId : Uuid}
    {told : AgentCommand} (hspawned : reply.spawned = some (d, sessionId))
    (htold : reply.told = some (agents.length, told)) :
    System.repliedAgents reply agents = agents ++ [(AgentProc.spawned d sessionId).tell told] := by
  unfold System.repliedAgents
  rw [hspawned, htold]
  simp only [Option.map_some, Option.toList_some]
  apply List.ext_getElem?
  intro i
  rw [getElem?_modify_tell]
  by_cases hlt : i < agents.length
  · rw [List.getElem?_append_left hlt, List.getElem?_append_left hlt, List.getElem?_eq_getElem hlt,
      Option.map_some, if_neg (Nat.ne_of_gt hlt)]
  · have hle := Nat.le_of_not_lt hlt
    rw [List.getElem?_append_right hle, List.getElem?_append_right hle]
    by_cases hi : agents.length = i
    · simp [hi]
    · have hbeyond : 1 ≤ i - agents.length := by omega
      rw [List.getElem?_eq_none (by simpa using hbeyond),
        List.getElem?_eq_none (by simpa using hbeyond)]
      rfl

/-- A deaf agent takes nothing. -/
theorem modify_deaf {ref : ActorRef} (h : hears s ref = false) (told : AgentCommand) :
    s.agents.modify ref (AgentProc.tell told) = s.agents := by
  apply List.ext_getElem?
  intro i
  rw [getElem?_modify_tell]
  cases hp : s.agents[i]? with
  | none => rfl
  | some p =>
    rw [Option.map_some]
    by_cases hi : ref = i
    · subst hi
      have hstopped : p.phase.isStopped = true := by simpa [hears, hp] using h
      rw [if_pos rfl, AgentProc.tell, if_pos hstopped]
    · rw [if_neg hi]

theorem draws_agents (h : Draws s reply) (sessions : Uuid → SessionLog) :
    total (agentLoad sessions) (System.repliedAgents reply s.agents) =
        total (agentLoad sessions) s.agents ∧
      total ending (System.repliedAgents reply s.agents) = total ending s.agents := by
  obtain ⟨hspawned, htold⟩ := h
  unfold System.repliedAgents
  rw [hspawned, Option.map_none, Option.toList_none, List.append_nil]
  cases hreplied : reply.told with
  | none => exact ⟨rfl, rfl⟩
  | some pair =>
    obtain ⟨ref, told⟩ := pair
    rcases htold ref told hreplied with ⟨hstarts, hends⟩ | hdeaf
    · exact ⟨total_modify_same (fun p => agentLoad_tell sessions told p hstarts) s.agents ref,
        total_modify_same (fun p => ending_tell hends p) s.agents ref⟩
    · dsimp only
      rw [modify_deaf hdeaf]
      exact ⟨rfl, rfl⟩

theorem queued_taken (cfg : Config) (reply : Reply) (channel : List WorkflowNotification)
    (f : WorkflowCommand → Bool) (hwf : s.workflow = some wf)
    (hmailbox : wf.mailbox = command :: rest) :
    queued f s = (if f command = true then 1 else 0) +
      queued f (s.answered cfg wf rest reply channel) := by
  unfold queued
  rw [hwf, Option.map_some, Option.getD_some, hmailbox, List.countP_cons, Nat.add_comm]
  rfl

theorem answered_loads (rest : List WorkflowCommand) (channel : List WorkflowNotification)
    (hs : Base s)
    (hreply : Handled cfg.workflow (s.fresh cfg command) wf.child wf.state command reply) :
    total (agentLoad (s.answered cfg wf rest reply channel).sessions) s.agents =
      total (agentLoad s.sessions) s.agents := by
  refine total_congr (fun p hmem => ?_)
  obtain ⟨ref, hp⟩ := List.mem_iff_getElem?.mp hmem
  exact answered_load rest channel hs hreply hp

/-- A handler that draws nothing spends the command it took. -/
theorem draws_spends (channel : List WorkflowNotification) (hs : Base s)
    (hwf : s.workflow = some wf) (hmailbox : wf.mailbox = command :: rest)
    (hreply : Handled cfg.workflow (s.fresh cfg command) wf.child wf.state command reply)
    (hdraws : Draws s reply) :
    starting (s.answered cfg wf rest reply channel) + (if isStart command = true then 1 else 0) =
        starting s ∧
      coming (s.answered cfg wf rest reply channel) + (if fromAgent command = true then 1 else 0) =
        coming s := by
  have hloads := answered_loads rest channel hs hreply
  obtain ⟨hload, hending⟩ := draws_agents hdraws (s.answered cfg wf rest reply channel).sessions
  have hstart := queued_taken cfg reply channel isStart hwf hmailbox
  have hreport := queued_taken cfg reply channel fromAgent hwf hmailbox
  have hruns : unfinished (s.answered cfg wf rest reply channel) = unfinished s := rfl
  unfold starting coming
  rw [System.answered_agents, hload, hloads, hending, hruns]
  omega

/-- A handler that enters a session puts its agent in the place of the command it took. -/
theorem enters_spends (channel : List WorkflowNotification) (hs : Base s)
    (hwf : s.workflow = some wf) (hmailbox : wf.mailbox = command :: rest)
    (hreply : Handled cfg.workflow (s.fresh cfg command) wf.child wf.state command reply)
    (henters : Enters s reply) :
    starting (s.answered cfg wf rest reply channel) + (if isStart command = true then 1 else 0) ≤
        starting s + 1 ∧
      coming (s.answered cfg wf rest reply channel) + (if fromAgent command = true then 1 else 0) =
        coming s := by
  obtain ⟨hcopied, _, d, input, hspawned, htold⟩ := henters
  have hloads := answered_loads rest channel hs hreply
  have hstart := queued_taken cfg reply channel isStart hwf hmailbox
  have hreport := queued_taken cfg reply channel fromAgent hwf hmailbox
  have hruns : unfinished (s.answered cfg wf rest reply channel) = unfinished s := rfl
  have hnew : agentLoad (s.answered cfg wf rest reply channel).sessions
      ((AgentProc.spawned d s.nextSession).tell (.run input)) ≤ 1 := by
    have hle := agentLoad_tell_le (s.answered cfg wf rest reply channel).sessions (.run input)
      (AgentProc.spawned d s.nextSession)
    have hempty : emptySession (s.copies cfg reply.copied).sessions s.nextSession = true := by
      rw [hcopied]
      unfold emptySession System.copies
      rw [hs.unused _ (Nat.le_refl _)]
      rfl
    have hzero : agentLoad (s.answered cfg wf rest reply channel).sessions
        (AgentProc.spawned d s.nextSession) = 0 := by
      simp [agentLoad, redrives, AgentProc.spawned, hempty]
    omega
  have hend : ending ((AgentProc.spawned d s.nextSession).tell (.run input)) = 0 := by
    rw [ending_tell rfl]
    rfl
  have happend : ∀ f : AgentProc → ℕ, total f (System.repliedAgents reply s.agents) =
      total f s.agents + f ((AgentProc.spawned d s.nextSession).tell (.run input)) := by
    intro f
    rw [repliedAgents_concat hspawned htold, total_concat]
  unfold starting coming
  rw [System.answered_agents, happend, happend, hloads, hend, hruns]
  omega

/-- Every command that is announced counts, or is a Cancel. -/
theorem announces_counts (hs : Base s) (hfirst : FirstLife s) (hwf : s.workflow = some wf)
    (hphase : wf.phase = .waiting)
    (h : announces cfg.workflow wf.child wf.state command = true) :
    isStart command = true ∨ fromAgent command = true ∨ isCancel command = true := by
  cases command with
  | start _ => exact Or.inl rfl
  | agentConcluded _ _ | agentAsked _ _ _ | agentFailed _ _ _ => exact Or.inr (Or.inl rfl)
  | cancel => exact Or.inr (Or.inr rfl)
  | resume message =>
    cases hchild : wf.child with
    | none =>
      have hsession := no_session hs hfirst hwf hphase hchild
      simp [announces, hsession] at h
    | some ref => simp [announces, hchild] at h
  | fork _ _ => contradiction

theorem spends_handled (channel : List WorkflowNotification) (hs : Base s) (hfirst : FirstLife s)
    (hwf : s.workflow = some wf) (hphase : wf.phase = .waiting)
    (hmailbox : wf.mailbox = command :: rest)
    (hreply : reply = handleCommand cfg.workflow (s.fresh cfg command) wf.child wf.state command)
    (hdrains : drains cfg cancelled s wf command = true) :
    Spends cancelled s (s.answered cfg wf rest reply channel) ∧
      (reply.notified ≠ none → starting s + coming s ≤ 1 →
        ¬ busy (cancelled || isCancel command) (s.answered cfg wf rest reply channel)) := by
  have hhandled : Handled cfg.workflow (s.fresh cfg command) wf.child wf.state command reply :=
    hreply ▸ handleCommand_handled command
  rcases handled_draws hs hfirst hwf hphase hreply hdrains with hdraws | ⟨henters, htaken⟩
  · obtain ⟨hstarting, hcoming⟩ := draws_spends channel hs hwf hmailbox hhandled hdraws
    refine ⟨spends_le (by omega) (by omega), fun hnotified hone => ?_⟩
    have hannounces : announces cfg.workflow wf.child wf.state command = true := by
      have hsays : Says (silent cfg.workflow (s.fresh cfg command) wf.child wf.state command)
          (announces cfg.workflow wf.child wf.state command) (question command) reply :=
        hreply ▸ handleCommand_says command
      obtain ⟨_, hunheard, hspoken⟩ := hsays
      cases hsilent : silent cfg.workflow (s.fresh cfg command) wf.child wf.state command with
      | true => exact absurd (hunheard hsilent).1 hnotified
      | false => exact (hspoken hsilent).mpr hnotified
    unfold busy
    rcases announces_counts hs hfirst hwf hphase hannounces with hstart | hreport | hcancel
    · rw [if_pos hstart] at hstarting
      omega
    · rw [if_pos hreport] at hcoming
      omega
    · cases command with
      | cancel =>
        have hidle : starting s = 0 := by simpa [drains] using hdrains
        rw [Bool.or_eq_false_iff]
        rintro (hbusy | ⟨_, _, hnot⟩)
        · omega
        · contradiction
      | _ => contradiction
  · obtain ⟨hstarting, hcoming⟩ := enters_spends channel hs hwf hmailbox hhandled henters
    refine ⟨?_, fun hnotified => absurd henters.2.1 hnotified⟩
    rcases htaken with hstart | ⟨hreport, hlive⟩
    · rw [if_pos hstart] at hstarting
      exact spends_le (by omega) (by omega)
    · rw [if_pos hreport] at hcoming
      exact ⟨by omega, Or.inr ⟨by omega, hlive⟩⟩

end Handled

def takesCancel (s : System) (l : Label) : Bool := (taken s l).any (fun t => isCancel t.2)

/-- A handler that notifies nobody leaves the channel. -/
theorem replied_channel {reply : Reply} (h : reply.notified = none) (s : System) :
    (s.replied cfg reply).channel = s.channel := by
  unfold System.replied System.notifies System.copies System.spawns System.tells
  rw [h]
  cases reply.copied <;> cases reply.spawned <;> cases reply.told <;> rfl

/-- Without a workflow the system takes no step by itself. -/
theorem present_of_step (hs : Base s) {l : Label} (hl : internal l = true)
    (hstep : Step cfg s l t) : s.workflow ≠ none := by
  intro hnone
  have hnil := hs.absent hnone
  have hruns := hs.no_runs hnil
  cases hstep with
  | recovered wf _ hwf _ _ | handled wf _ _ _ _ hwf _ _ _ | persisted wf _ _ _ hwf _ _ =>
    rw [hnone] at hwf
    contradiction
  | agentIdle _ _ p hp _ _ | agentRedriven _ _ p hp _ _ | agentRan _ _ p _ _ _ hp _ _ _
  | agentNoted _ _ p _ _ hp _ _ | agentCancelled _ _ p _ _ hp _ _ _ | agentEnded _ _ p _ hp _ _
  | agentReported _ _ p _ _ _ hp _ _ _ _ | agentAsked _ _ p _ _ _ _ hp _ _
  | agentCalled _ _ p _ _ hp _ _ => exact Base.ne_nil hp hnil
  | runStreamed _ _ task htask _ _ | runEnded _ _ task htask _ =>
    rw [hruns] at htask
    contradiction
  | launched _ _ _ | delivered _ _ | drained | crashed => contradiction

/-- A step of the system by itself leaves no more work than there was; if the workflow
speaks, the work is done or cancelled. -/
theorem spends_step {cancelled : Bool} (hs : Base s) (hfirst : FirstLife s) {l : Label}
    (hl : internal l = true) (hdrains : HandlesOnly (drains cfg cancelled s) s l)
    (h : next cfg s l = some t) :
    Spends cancelled s t ∧ (starting s + coming s ≤ 1 → t.channel = s.channel ∨
      ¬ busy (cancelled || takesCancel s l) t) := by
  have hstep := next_step h
  by_cases hagents : ofAgents l = true
  · obtain ⟨hspends, hchannel⟩ := spends_agents hs hagents hstep
    exact ⟨hspends, fun _ => Or.inl hchannel⟩
  · cases hstep with
    | recovered wf spawned hwf hphase hspawned =>
      have hnone : spawned = none := by
        rw [hspawned, hfirst.blank wf hwf (by rw [hphase]; rfl)]
        rfl
      subst hnone
      refine ⟨spends_same ?_ ?_, fun _ => Or.inl rfl⟩ <;>
        simp [starting, coming, queued, unfinished, System.spawns, hwf]
    | handled wf command rest reply channel hwf hphase hmailbox hreply =>
      obtain ⟨hspends, hspeaks⟩ := spends_handled channel hs hfirst hwf hphase hmailbox hreply
        (hdrains.meets hwf hmailbox)
      have htakes : takesCancel s .workflowHandle = isCancel command := by
        simp [takesCancel, taken, hwf, hmailbox]
      refine ⟨hspends, fun hone => ?_⟩
      rw [htakes]
      by_cases hnotified : reply.notified = none
      · refine Or.inl ?_
        simp only [next, System.workflowHandle, hwf, hphase, hmailbox, ← hreply] at h
        have hchannel := congrArg System.channel (Option.some.inj h)
        exact hchannel.symm.trans (replied_channel hnotified s)
      · exact Or.inr (hspeaks hnotified hone)
    | persisted wf effect events ok hwf _ _ =>
      refine ⟨spends_same ?_ ?_, fun _ => Or.inl rfl⟩ <;>
        simp [starting, coming, queued, unfinished, hwf]
    | launched _ _ _ | delivered _ _ | drained | crashed => contradiction
    | _ => exact absurd rfl hagents

end October.RunTokens
