import October.WorkflowSteps
import Mathlib.Data.List.Induction
import Mathlib.Data.List.Nodup

/-!
Invariants of every run of the workflow system: session ids are drawn once, each
live agent has its own, every run belongs to an agent, and the workflow actor's
state is what its journal folds to.
-/
namespace October.WorkflowInvariants

open WorkflowActor

def agentSessions (s : System) : List Uuid := s.agents.map (fun p => p.actor.sessionId)

def record (s : System) : List WorkflowDomainEvent :=
  s.workflowLog ++ (s.workflow.map (fun wf => wf.phase.events)).getD []

def entersSession : WorkflowDomainEvent → Option Uuid
  | .agentStarted _ sessionId _ => some sessionId
  | .agentTransitioned _ _ _ toSession _ => some toSession
  | _ => none

/-- Where the workflow actor stands with respect to its journal and its agents. -/
structure Placed (s : System) (wf : WorkflowProc) : Prop where
  recovering : wf.phase.isRecovering = true →
    agentSessions s = [] ∧ wf.child = none ∧ ∀ c ∈ wf.mailbox, operator c = true
  childless : wf.child = none → agentSessions s = []
  child : ∀ ref, wf.child = some ref → ref < (agentSessions s).length
  folded : wf.phase.isRecovering = false → wf.state = fold s.workflowLog

structure Base (s : System) : Prop where
  nodup : (agentSessions s).Nodup
  below : ∀ sessionId ∈ agentSessions s, sessionId < s.nextSession
  unused : ∀ sessionId, s.nextSession ≤ sessionId → s.sessions sessionId = SessionLog.empty
  recorded : ∀ e ∈ record s, ∀ sessionId, entersSession e = some sessionId →
    sessionId < s.nextSession
  tasks : ∀ task ∈ s.runs, (agentSessions s)[task.agent]? = some task.session
  absent : s.workflow = none → agentSessions s = []
  placed : ∀ wf, s.workflow = some wf → Placed s wf

theorem base_init : Base System.init := by
  constructor <;> simp [System.init, agentSessions, record]

/-- A workflow actor that is still recovering has spawned no agent. -/
theorem Base.agents_recovering {s : System} (hs : Base s) {wf : WorkflowProc}
    (hwf : s.workflow = some wf) (hphase : wf.phase = .recovering) : s.agents = [] := by
  obtain ⟨hnil, _, _⟩ := (hs.placed wf hwf).recovering (by rw [hphase]; rfl)
  exact List.map_eq_nil_iff.mp hnil

section Frame

variable {s t : System}

theorem map_modify_same {α β : Type} {f : α → β} {g : α → α} (h : ∀ a, f (g a) = f a)
    (l : List α) (i : ℕ) : (l.modify i g).map f = l.map f := by
  apply List.ext_getElem?
  intro n
  rw [List.getElem?_map, List.getElem?_map, List.getElem?_modify]
  cases l[n]? with
  | none => rfl
  | some a =>
    simp only [Option.map_eq_map, Option.map_some]
    split
    · rw [h]
    · rfl

theorem map_modify_tell (agents : List AgentProc) (ref : ActorRef) (command : AgentCommand) :
    (agents.modify ref (AgentProc.tell command)).map (fun p => p.actor.sessionId) =
      agents.map (fun p => p.actor.sessionId) :=
  map_modify_same (fun p => by rw [AgentProc.tell_actor]) agents ref

@[simp] theorem agentSessions_tellAgent (ref : ActorRef) (command : AgentCommand) (s : System) :
    agentSessions (s.tellAgent ref command) = agentSessions s :=
  map_modify_tell s.agents ref command

theorem agentSessions_setAgent {ref : ActorRef} {p p' : AgentProc} (hp : s.agents[ref]? = some p)
    (hsession : p'.actor.sessionId = p.actor.sessionId) :
    agentSessions (s.setAgent ref p') = agentSessions s := by
  unfold agentSessions System.setAgent
  rw [List.map_set, hsession]
  apply List.ext_getElem?
  intro i
  rw [List.getElem?_set]
  split
  · rename_i hi
    subst hi
    rw [List.getElem?_map, hp]
    simp [(List.getElem?_eq_some_iff.mp hp).1]
  · rfl

theorem agentSessions_repliedAgents (reply : Reply) (agents : List AgentProc) :
    (System.repliedAgents reply agents).map (fun p => p.actor.sessionId) =
      agents.map (fun p => p.actor.sessionId) ++ (reply.spawned.map Prod.snd).toList := by
  have hspawned : (agents ++ (reply.spawned.map (fun p => AgentProc.spawned p.1 p.2)).toList).map
      (fun p => p.actor.sessionId) =
        agents.map (fun p => p.actor.sessionId) ++ (reply.spawned.map Prod.snd).toList := by
    cases reply.spawned <;> simp [AgentProc.spawned]
  unfold System.repliedAgents
  cases reply.told with
  | none => exact hspawned
  | some told =>
    obtain ⟨ref, command⟩ := told
    exact (map_modify_tell _ ref command).trans hspawned

theorem getElem?_modify_tell (agents : List AgentProc) (i ref : ActorRef)
    (command : AgentCommand) :
    (agents.modify i (AgentProc.tell command))[ref]? =
      (agents[ref]?).map (fun p => if i = ref then p.tell command else p) := by
  rw [List.getElem?_modify]
  cases agents[ref]? with
  | none => rfl
  | some p =>
    rw [Option.map_eq_map, Option.map_some]

/-- A live agent is as it was before the handler, up to the command it was told. -/
theorem repliedAgents_live (reply : Reply) {agents : List AgentProc} {ref : ActorRef}
    {p : AgentProc} (hp : agents[ref]? = some p) :
    ∃ q, (System.repliedAgents reply agents)[ref]? = some q ∧
      (q = p ∨ ∃ command, reply.told = some (ref, command) ∧ q = p.tell command) := by
  have hlive : (agents ++ (reply.spawned.map
      (fun d => AgentProc.spawned d.1 d.2)).toList)[ref]? = some p := by
    rw [List.getElem?_append_left (List.getElem?_eq_some_iff.mp hp).1]
    exact hp
  unfold System.repliedAgents
  cases reply.told with
  | none => exact ⟨p, hlive, Or.inl rfl⟩
  | some told =>
    obtain ⟨i, command⟩ := told
    dsimp only
    rw [getElem?_modify_tell, hlive, Option.map_some]
    by_cases hi : i = ref
    · subst hi
      rw [if_pos rfl]
      exact ⟨_, rfl, Or.inr ⟨command, rfl, rfl⟩⟩
    · rw [if_neg hi]
      exact ⟨p, rfl, Or.inl rfl⟩

/-- The spawned agent, with the command it was told. -/
theorem repliedAgents_new {reply : Reply} {agents : List AgentProc} {d : WorkflowAgentDef}
    {sessionId : Uuid} {command : AgentCommand} (hspawned : reply.spawned = some (d, sessionId))
    (htold : reply.told = some (agents.length, command)) :
    (System.repliedAgents reply agents)[agents.length]? =
      some ((AgentProc.spawned d sessionId).tell command) := by
  unfold System.repliedAgents
  rw [hspawned, htold]
  dsimp only [Option.map_some, Option.toList_some]
  rw [getElem?_modify_tell, List.getElem?_concat_length, Option.map_some, if_pos rfl]

/-- An agent that a handler added has yet to recover. -/
theorem repliedAgents_recovering (reply : Reply) {ref : ActorRef} {p : AgentProc}
    (hnone : s.agents[ref]? = none)
    (hp : (System.repliedAgents reply s.agents)[ref]? = some p) : p.phase = .recovering := by
  have hle : s.agents.length ≤ ref := List.getElem?_eq_none_iff.mp hnone
  have hspawned : ∀ q, (s.agents ++ (reply.spawned.map
      (fun d => AgentProc.spawned d.1 d.2)).toList)[ref]? = some q → q.phase = .recovering := by
    intro q hq
    rw [List.getElem?_append_right hle] at hq
    have hmem := List.mem_of_getElem? hq
    rw [Option.mem_toList] at hmem
    obtain ⟨d, _, rfl⟩ := Option.map_eq_some_iff.mp hmem
    rfl
  unfold System.repliedAgents at hp
  split at hp
  · exact hspawned p hp
  · rw [getElem?_modify_tell] at hp
    obtain ⟨q, hq, rfl⟩ := Option.map_eq_some_iff.mp hp
    split
    · rw [AgentProc.tell_phase]
      exact hspawned q hq
    · exact hspawned q hq

theorem repliedAgents_length (reply : Reply) (agents : List AgentProc) :
    (System.repliedAgents reply agents).length =
      agents.length + (if reply.spawned.isSome then 1 else 0) := by
  have h := congrArg List.length (agentSessions_repliedAgents reply agents)
  rw [List.length_map, List.length_append, List.length_map] at h
  rw [h]
  cases reply.spawned <;> rfl

theorem mem_agentSessions {ref : ActorRef} {p : AgentProc} (hp : s.agents[ref]? = some p) :
    (agentSessions s)[ref]? = some p.actor.sessionId := by
  unfold agentSessions
  rw [List.getElem?_map, hp]
  rfl

end Frame

/-- The workflow actor as it was, or with one more command, which is an operator's or
comes from a live agent. -/
def Heard (s : System) (workflow : Option WorkflowProc) : Prop :=
  workflow = s.workflow ∨
    ∃ command, (operator command = true ∨ agentSessions s ≠ []) ∧
      workflow = s.workflow.map (WorkflowProc.tell command)

/-- What the steps of the agents and their runs leave of the workflow. -/
structure Frame (s t : System) : Prop where
  sessions : agentSessions t = agentSessions s
  log : t.workflowLog = s.workflowLog
  nextSession : t.nextSession = s.nextSession
  heard : Heard s t.workflow

section Frames

variable {s t : System}

theorem record_frame (hframe : Frame s t) : record t = record s := by
  obtain ⟨_, hlog, _, hheard⟩ := hframe
  unfold record
  rw [hlog]
  rcases hheard with hsame | ⟨command, _, htold⟩
  · rw [hsame]
  · rw [htold]
    cases s.workflow <;> simp

theorem Placed.congr {wf : WorkflowProc} (h : Placed s wf)
    (hsessions : agentSessions t = agentSessions s) (hlog : t.workflowLog = s.workflowLog) :
    Placed t wf := by
  constructor
  · rw [hsessions]
    exact h.recovering
  · rw [hsessions]
    exact h.childless
  · rw [hsessions]
    exact h.child
  · rw [hlog]
    exact h.folded

theorem Placed.tell {wf : WorkflowProc} (h : Placed s wf) (command : WorkflowCommand)
    (hcommand : operator command = true ∨ agentSessions s ≠ []) :
    Placed s (wf.tell command) := by
  constructor
  · rw [WorkflowProc.tell_phase, WorkflowProc.tell_child]
    intro hphase
    obtain ⟨hnone, hchild, hmailbox⟩ := h.recovering hphase
    refine ⟨hnone, hchild, fun c hc => ?_⟩
    rcases WorkflowProc.mem_tell command wf hc with hc | rfl
    · exact hmailbox c hc
    · exact hcommand.resolve_right (fun hne => hne hnone)
  · rw [WorkflowProc.tell_child]
    exact h.childless
  · rw [WorkflowProc.tell_child]
    exact h.child
  · rw [WorkflowProc.tell_phase, WorkflowProc.tell_state]
    exact h.folded

/-- Steps that leave the workflow's journal, the session ids and the journals of other
sessions as they are keep the invariants. -/
theorem Base.frame (hs : Base s) (hframe : Frame s t)
    (hother : ∀ sessionId, sessionId ∉ agentSessions s →
      t.sessions sessionId = s.sessions sessionId)
    (htasks : ∀ task ∈ t.runs, (agentSessions s)[task.agent]? = some task.session) : Base t := by
  have hrecord := record_frame hframe
  obtain ⟨hsessions, hlog, hnext, hheard⟩ := hframe
  constructor
  · rw [hsessions]
    exact hs.nodup
  · rw [hsessions, hnext]
    exact hs.below
  · rw [hnext]
    intro sessionId hle
    rw [hother sessionId (fun hmem => Nat.not_lt.mpr hle (hs.below _ hmem))]
    exact hs.unused sessionId hle
  · rw [hrecord, hnext]
    exact hs.recorded
  · rw [hsessions]
    exact htasks
  · rw [hsessions]
    intro hnone
    rcases hheard with hsame | ⟨command, _, htold⟩
    · exact hs.absent (hsame.symm.trans hnone)
    · exact hs.absent (Option.map_eq_none_iff.mp (htold.symm.trans hnone))
  · intro wf hwf
    refine Placed.congr ?_ hsessions hlog
    rcases hheard with hsame | ⟨command, hcommand, htold⟩
    · exact hs.placed wf (hsame.symm.trans hwf)
    · obtain ⟨wf', hwf', rfl⟩ := Option.map_eq_some_iff.mp (htold.symm.trans hwf)
      exact (hs.placed wf' hwf').tell command hcommand

/-- Without agents nothing runs. -/
theorem Base.no_runs (hs : Base s) (hnil : agentSessions s = []) : s.runs = [] := by
  apply List.eq_nil_iff_forall_not_mem.mpr
  intro task htask
  have h := hs.tasks task htask
  rw [hnil] at h
  simp at h

theorem Base.ne_nil {ref : ActorRef} {p : AgentProc} (hp : s.agents[ref]? = some p) :
    agentSessions s ≠ [] := by
  intro hnil
  have h := mem_agentSessions hp
  rw [hnil] at h
  simp at h

end Frames

def ofWorkflow : Label → Bool
  | .launch _ => true
  | .workflowRecover => true
  | .workflowHandle => true
  | .workflowPersist _ => true
  | .crash => true
  | _ => false

theorem step_frame {cfg : Config} {s t : System} {l : Label} (hstep : Step cfg s l t)
    (hl : ofWorkflow l = false) : Frame s t := by
  cases hstep with
  | launched _ _ _ | recovered _ _ _ _ _ | handled _ _ _ _ _ _ _ _ _ | persisted _ _ _ _ _ _ _
  | crashed => contradiction
  | delivered command hop => exact ⟨rfl, rfl, rfl, Or.inr ⟨command, Or.inl hop, rfl⟩⟩
  | agentIdle _ _ p hp _ _ | agentRedriven _ _ p hp _ _ | agentRan _ _ p _ _ _ hp _ _ _
  | agentNoted _ _ p _ _ hp _ _ | agentCancelled _ _ p _ _ hp _ _ _ | agentEnded _ _ p _ hp _ _
  | agentCalled _ _ p _ _ hp _ _ =>
    exact ⟨agentSessions_setAgent hp rfl, rfl, rfl, Or.inl rfl⟩
  | agentReported _ _ p _ _ report hp _ _ _ _ =>
    exact ⟨agentSessions_setAgent hp rfl, rfl, rfl, Or.inr ⟨report, Or.inr (Base.ne_nil hp), rfl⟩⟩
  | agentAsked _ _ p _ _ _ _ hp _ _ =>
    exact ⟨agentSessions_setAgent hp rfl, rfl, rfl, Or.inr ⟨_, Or.inr (Base.ne_nil hp), rfl⟩⟩
  | runStreamed _ _ _ _ _ _ | runEnded _ _ _ _ _ =>
    exact ⟨agentSessions_tellAgent _ _ _, rfl, rfl, Or.inl rfl⟩
  | drained => exact ⟨rfl, rfl, rfl, Or.inl rfl⟩

section Replies

variable {wf : Workflow} {fresh : Fresh} {child : Option ActorRef} {state : WorkflowState}
  {command : WorkflowCommand} {reply : Reply}

/-- A spawned agent gets the fresh session, or the current one if no handle is held. -/
theorem handled_spawned (h : Handled wf fresh child state command reply) {d : WorkflowAgentDef}
    {sessionId : Uuid} (hspawned : reply.spawned = some (d, sessionId)) :
    reply.child = some fresh.ref ∧
      (sessionId = fresh.sessionId ∨ child = none ∧ state.currentSessionId = some sessionId) := by
  cases h with
  | started _ _ _ | transitioned _ _ _ _ _ _ _ _ | forked _ _ _ _ _ _ _ _ =>
    cases Option.some.inj hspawned
    exact ⟨rfl, Or.inl rfl⟩
  | respawned _ _ _ _ _ hchild _ hsession _ _ =>
    cases Option.some.inj hspawned
    exact ⟨rfl, Or.inr ⟨hchild, hsession⟩⟩
  | _ => contradiction

theorem handled_kept (h : Handled wf fresh child state command reply)
    (hspawned : reply.spawned = none) : reply.child = child := by
  cases h with
  | started _ _ _ | transitioned _ _ _ _ _ _ _ _ | forked _ _ _ _ _ _ _ _
  | respawned _ _ _ _ _ _ _ _ _ _ => contradiction
  | _ => rfl

theorem handled_copied (h : Handled wf fresh child state command reply) {source target : Uuid}
    (hcopied : reply.copied = some (source, target)) : target = fresh.sessionId := by
  cases h with
  | failed command copied error notify hfresh => exact hfresh source target hcopied
  | forked _ _ _ _ _ _ _ _ =>
    cases Option.some.inj hcopied
    rfl
  | _ => contradiction

theorem handled_enters (h : Handled wf fresh child state command reply)
    {e : WorkflowDomainEvent} (he : e ∈ reply.effect.events) {sessionId : Uuid}
    (henters : entersSession e = some sessionId) : sessionId = fresh.sessionId := by
  cases h with
  | started input d _ =>
    simp only [entered, CommandEffect.events_persist, List.mem_cons, List.not_mem_nil,
      or_false] at he
    rcases he with rfl | rfl
    · contradiction
    · exact (Option.some.inj henters).symm
  | transitioned _ _ _ _ _ _ _ _ =>
    simp only [entered, CommandEffect.events_persist, List.mem_cons, List.not_mem_nil,
      or_false] at he
    rcases he with rfl | rfl <;> exact (Option.some.inj henters).symm
  | forked _ _ _ _ _ _ _ _ =>
    simp only [entered, CommandEffect.events_persist, List.mem_singleton] at he
    subst he
    exact (Option.some.inj henters).symm
  | _ =>
    simp [ignored, failed, finished, entered] at he
    try (subst he; contradiction)

end Replies

section Steps

variable {cfg : Config} {s t : System}

theorem copies_sessions {copied : Option (Uuid × Uuid)} {sessionId : Uuid}
    (h : ∀ source target, copied = some (source, target) → target ≠ sessionId) :
    (s.copies cfg copied).sessions sessionId = s.sessions sessionId := by
  unfold System.copies
  cases copied with
  | none => rfl
  | some pair =>
    obtain ⟨source, target⟩ := pair
    dsimp only [copySnapshot]
    split
    · rfl
    · rfl
    · exact Function.update_of_ne (h source target rfl).symm _ _

theorem fold_entered {log : List WorkflowDomainEvent} {sessionId : Uuid}
    (h : (fold log).currentSessionId = some sessionId) :
    ∃ e ∈ log, entersSession e = some sessionId := by
  induction log using List.reverseRecOn with
  | nil => contradiction
  | append_singleton log e ih =>
    rw [fold_append] at h
    by_cases henters : entersSession e = some sessionId
    · exact ⟨e, by simp, henters⟩
    · have hlog : (fold log).currentSessionId = some sessionId := by
        cases e <;> first | exact h | exact absurd h henters
      obtain ⟨e', he', henters'⟩ := ih hlog
      exact ⟨e', List.mem_append_left _ he', henters'⟩

/-- A journal names a current agent and its session together. -/
theorem fold_current (log : List WorkflowDomainEvent) :
    (fold log).currentAgent.isSome = (fold log).currentSessionId.isSome := by
  induction log using List.reverseRecOn with
  | nil => rfl
  | append_singleton log e ih =>
    rw [fold_append]
    cases e <;> first | exact ih | rfl

theorem Base.current_lt (hs : Base s) {sessionId : Uuid}
    (h : (fold s.workflowLog).currentSessionId = some sessionId) : sessionId < s.nextSession := by
  obtain ⟨e, he, henters⟩ := fold_entered h
  exact hs.recorded e (List.mem_append_left _ he) sessionId henters

theorem Base.answered (hs : Base s) {wf : WorkflowProc} {command : WorkflowCommand}
    {rest : List WorkflowCommand} {reply : Reply} {channel : List WorkflowNotification}
    (hwf : s.workflow = some wf) (hphase : wf.phase = .waiting)
    (hreply : Handled cfg.workflow (s.fresh cfg command) wf.child wf.state command reply) :
    Base (s.answered cfg wf rest reply channel) := by
  have hplaced := hs.placed wf hwf
  have hfolded : wf.state = fold s.workflowLog := hplaced.folded (by rw [hphase]; rfl)
  have hsessions : agentSessions (s.answered cfg wf rest reply channel) =
      agentSessions s ++ (reply.spawned.map Prod.snd).toList := agentSessions_repliedAgents reply _
  have hnew : ∀ sessionId ∈ (reply.spawned.map Prod.snd).toList,
      sessionId ∉ agentSessions s ∧ sessionId < s.nextSession + 1 := by
    intro sessionId hmem
    cases hspawned : reply.spawned with
    | none => simp [hspawned] at hmem
    | some pair =>
      obtain ⟨d, sid⟩ := pair
      obtain rfl : sessionId = sid := by simpa [hspawned] using hmem
      rcases (handled_spawned hreply hspawned).2 with rfl | ⟨hchild, hcurrent⟩
      · exact ⟨fun hmem => Nat.lt_irrefl _ (hs.below _ hmem), Nat.lt_succ_self _⟩
      · rw [hfolded] at hcurrent
        rw [hplaced.childless hchild]
        exact ⟨by simp, Nat.lt_succ_of_lt (hs.current_lt hcurrent)⟩
  constructor
  · rw [hsessions]
    refine List.nodup_append.mpr ⟨hs.nodup, by cases reply.spawned <;> simp, ?_⟩
    intro a ha b hb hab
    exact (hnew b hb).1 (hab ▸ ha)
  · rw [hsessions]
    intro sessionId hmem
    rcases List.mem_append.mp hmem with hmem | hmem
    · exact Nat.lt_succ_of_lt (hs.below _ hmem)
    · exact (hnew _ hmem).2
  · intro sessionId hle
    have hlt : s.nextSession < sessionId := hle
    refine (copies_sessions ?_).trans (hs.unused sessionId (Nat.le_of_lt hlt))
    intro source target hcopied
    rw [handled_copied hreply hcopied]
    exact Nat.ne_of_lt hlt
  · intro e he sessionId henters
    have hmem : e ∈ s.workflowLog ++ reply.effect.events := by
      simpa [record, System.answered] using he
    rcases List.mem_append.mp hmem with hmem | hmem
    · exact Nat.lt_succ_of_lt (hs.recorded e (List.mem_append_left _ hmem) sessionId henters)
    · rw [handled_enters hreply hmem henters]
      exact Nat.lt_succ_self _
  · rw [hsessions]
    intro task htask
    have h := hs.tasks task htask
    rw [List.getElem?_append_left (List.getElem?_eq_some_iff.mp h).1]
    exact h
  · intro hnone
    contradiction
  · intro wf' hwf'
    cases Option.some.inj hwf'
    have hchild : reply.spawned = none → reply.child = wf.child := handled_kept hreply
    constructor
    · intro hrecovering
      simp at hrecovering
    · intro hnone
      have hnone' : reply.child = none := hnone
      rw [hsessions]
      cases hspawned : reply.spawned with
      | none =>
        rw [hplaced.childless ((hchild hspawned).symm.trans hnone')]
        rfl
      | some pair =>
        rw [(handled_spawned hreply (by rw [hspawned])).1] at hnone'
        contradiction
    · intro ref href
      have href' : reply.child = some ref := href
      rw [hsessions, List.length_append]
      cases hspawned : reply.spawned with
      | none =>
        have h := hplaced.child ref ((hchild hspawned).symm.trans href')
        exact Nat.lt_add_right _ h
      | some pair =>
        rw [(handled_spawned hreply (by rw [hspawned])).1] at href'
        cases Option.some.inj href'
        simp [System.fresh, agentSessions]
    · intro _
      exact hfolded

theorem Base.recovered (hs : Base s) {wf : WorkflowProc}
    {spawned : Option (WorkflowAgentDef × Uuid)} (hwf : s.workflow = some wf)
    (hphase : wf.phase = .recovering)
    (hspawned : spawned = onRecoveryComplete cfg.workflow (fold s.workflowLog)) :
    Base { s.spawns spawned with
      workflow := some { wf with
        state := fold s.workflowLog
        child := spawned.map (fun _ => s.agents.length)
        phase := .waiting } } := by
  have hagents := hs.agents_recovering hwf hphase
  have hnil : agentSessions s = [] := List.map_eq_nil_iff.mpr hagents
  have hrecorded : ∀ e ∈ s.workflowLog, ∀ sessionId, entersSession e = some sessionId →
      sessionId < s.nextSession := fun e he => hs.recorded e (List.mem_append_left _ he)
  have htasks := hs.no_runs hnil
  cases spawned with
  | none =>
    refine ⟨hs.nodup, hs.below, hs.unused, ?_, hs.tasks, by simp, ?_⟩
    · simpa [record, System.spawns] using hrecorded
    intro wf' hwf'
    cases Option.some.inj hwf'
    exact ⟨by simp [Phase.isRecovering], fun _ => hnil, by simp, fun _ => rfl⟩
  | some pair =>
    obtain ⟨d, sessionId⟩ := pair
    have hlt : sessionId < s.nextSession :=
      hs.current_lt (onRecoveryComplete_some hspawned.symm).2.1
    have hsessions : agentSessions (s.spawnAgent d sessionId) = [sessionId] := by
      simp [agentSessions, System.spawnAgent, hagents, AgentProc.spawned]
    have hsessions' : ∀ w, agentSessions
        { s.spawns (some (d, sessionId)) with workflow := w } = [sessionId] := fun _ => hsessions
    refine ⟨by simp [hsessions'], ?_, hs.unused, ?_, ?_, by simp, ?_⟩
    · intro other hmem
      rw [hsessions', List.mem_singleton] at hmem
      rw [hmem]
      exact hlt
    · simpa [record, System.spawns, System.spawnAgent] using hrecorded
    · intro task htask
      rw [show ({ s.spawns (some (d, sessionId)) with workflow := _ } : System).runs = s.runs
        from rfl, htasks] at htask
      simp at htask
    · intro wf' hwf'
      cases Option.some.inj hwf'
      refine ⟨by simp [Phase.isRecovering], by simp, ?_, fun _ => rfl⟩
      simp [hsessions', hagents]

theorem Base.persisted (hs : Base s) {wf : WorkflowProc}
    {effect : CommandEffect WorkflowDomainEvent} {events : List WorkflowDomainEvent}
    (hwf : s.workflow = some wf) (hphase : wf.phase = .performing effect)
    (hevents : ∀ e ∈ events, e ∈ effect.events) :
    Base { s with
      workflowLog := s.workflowLog ++ events
      workflow := some { wf with
        state := events.foldl applyEvent wf.state
        phase := Phase.called effect } } := by
  have hplaced := hs.placed wf hwf
  refine ⟨hs.nodup, hs.below, hs.unused, ?_, hs.tasks, by simp, ?_⟩
  · intro e he sessionId henters
    have hmem : e ∈ s.workflowLog ∨ e ∈ events := by simpa [record] using he
    refine hs.recorded e ?_ sessionId henters
    unfold record
    rw [hwf, Option.map_some, hphase]
    rcases hmem with hmem | hmem
    · exact List.mem_append_left _ hmem
    · exact List.mem_append_right _ (hevents e hmem)
  · intro wf' hwf'
    cases Option.some.inj hwf'
    refine ⟨by simp, hplaced.childless, hplaced.child, fun _ => ?_⟩
    rw [fold_append, ← hplaced.folded (by rw [hphase]; rfl)]

theorem Base.step (hs : Base s) {l : Label} (hstep : Step cfg s l t) : Base t := by
  have hframe := step_frame hstep
  cases hstep with
  | launched kickoff hop hnone =>
    have hnil := hs.absent hnone
    refine ⟨hs.nodup, hs.below, hs.unused, ?_, hs.tasks, by simp, ?_⟩
    · simpa [record, hnone] using hs.recorded
    · intro wf hwf
      cases Option.some.inj hwf
      exact ⟨fun _ => ⟨hnil, rfl, hop⟩, fun _ => hnil, by simp, by simp [Phase.isRecovering]⟩
  | recovered wf spawned hwf hphase hspawned => exact hs.recovered hwf hphase hspawned
  | handled wf command rest reply channel hwf hphase _ hreply =>
    exact hs.answered hwf hphase (hreply ▸ handleCommand_handled command)
  | persisted wf effect events ok hwf hphase hevents =>
    refine hs.persisted hwf hphase ?_
    rw [hevents]
    split <;> simp
  | crashed =>
    refine ⟨by simp [agentSessions, System.crash], by simp [agentSessions, System.crash],
      hs.unused, ?_, by simp [System.crash], fun _ => rfl, by simp [System.crash]⟩
    intro e he
    exact hs.recorded e (List.mem_append_left _ (by simpa [record, System.crash] using he))
  | agentRedriven _ _ p hp _ _ | agentRan _ _ p _ _ _ hp _ _ _ =>
    refine hs.frame (hframe rfl) (fun _ _ => rfl) ?_
    exact List.forall_mem_append.mpr ⟨hs.tasks, by simpa using mem_agentSessions hp⟩
  | agentCancelled ref messageId p rest runs hp _ _ hruns =>
    refine hs.frame (hframe rfl) (fun _ _ => rfl) ?_
    rw [hruns]
    cases p.actor.running with
    | none => exact hs.tasks
    | some run =>
      intro task htask
      obtain ⟨i, hi⟩ := List.mem_iff_getElem?.mp htask
      rw [Option.map_some, Option.getD_some, List.getElem?_modify] at hi
      obtain ⟨old, hold, heq⟩ := Option.map_eq_some_iff.mp hi
      have h := hs.tasks old (List.mem_of_getElem? hold)
      split at heq <;> (subst heq; exact h)
  | agentCalled ref ok p effect events hp _ _ =>
    refine hs.frame (hframe rfl) ?_ hs.tasks
    intro sessionId hmem
    refine Function.update_of_ne ?_ _ _
    rintro rfl
    exact hmem (List.mem_of_getElem? (mem_agentSessions hp))
  | runEnded run outcome task htask _ =>
    refine hs.frame (hframe rfl) (fun _ _ => rfl) ?_
    intro other hother
    rcases List.mem_or_eq_of_mem_set hother with hmem | rfl
    · exact hs.tasks other hmem
    · exact hs.tasks task (List.mem_of_getElem? htask)
  | _ => exact hs.frame (hframe rfl) (fun _ _ => rfl) hs.tasks

end Steps

end October.WorkflowInvariants
