import October.OpenSystem
import October.WorkflowInvariants

/-!
The child a workflow holds and its current session. A handler spawns the agent of a
new session, tells it to run and holds it before the event that makes the session
current is persisted. While that write succeeds the child fits the session whenever
no command is being handled; once it fails the workflow keeps the old session, drops
the reports of the agent it drives and sends its commands to the new one.
-/
namespace October.LiveChild

open WorkflowActor WorkflowInvariants

/-- Whenever no command is being handled and the workflow has not stopped, the child it
holds, if any, is the agent of its current session, so that reports of the child pass
the check of the current session. -/
def ChildCurrent (s : System) : Prop :=
  ∀ wf ref, s.workflow = some wf → wf.phase = .waiting → wf.child = some ref →
    ∃ p, s.agents[ref]? = some p ∧ wf.state.currentSessionId = some p.actor.sessionId

def enters (events : List WorkflowDomainEvent) : Bool :=
  events.any (fun e => (entersSession e).isSome)

def entryStored (s : System) : OpenLabel → Bool
  | .step (.workflowPersist false) => !s.workflow.any (fun wf => enters wf.phase.events)
  | _ => true

def EntryStored (s : System) (l : OpenLabel) : Prop := entryStored s l = true

instance (s : System) (l : OpenLabel) : Decidable (EntryStored s l) :=
  inferInstanceAs (Decidable (_ = true))

/-- A handle, if there is one, is that of the agent of the session. -/
def Fits (sessions : List Uuid) (child : Option ActorRef) (session : Option Uuid) : Prop :=
  ∀ ref, child = some ref → ∃ sessionId, sessions[ref]? = some sessionId ∧
    session = some sessionId

def comingSession (wf : WorkflowProc) : Option Uuid :=
  (wf.phase.events.foldl applyEvent wf.state).currentSessionId

/-- Where the workflow stands: its child fits the coming session, and a pending write
that enters a session leaves it waiting with a child that does not fit the current one. -/
structure Placed (s : System) (wf : WorkflowProc) : Prop where
  folded : wf.phase.isRecovering = false → wf.state = fold s.workflowLog
  unheld : wf.phase.isRecovering = true → wf.child = none
  fits : Fits (agentSessions s) wf.child (comingSession wf)
  pending : ∀ effect, wf.phase = .performing effect → enters effect.events = true →
    Phase.called effect = (.waiting : Phase WorkflowDomainEvent) ∧ wf.child.isSome = true ∧
      comingSession wf ≠ wf.state.currentSessionId

structure Tracked (s : System) : Prop where
  recorded : ∀ e ∈ record s, ∀ sessionId, entersSession e = some sessionId →
    sessionId < s.nextSession
  placed : ∀ wf, s.workflow = some wf → Placed s wf

variable {cfg : Config} {s t : System}

section Sessions

theorem session_unentered {e : WorkflowDomainEvent} (h : (entersSession e).isSome = false)
    (state : WorkflowState) :
    (applyEvent state e).currentSessionId = state.currentSessionId := by
  cases e <;> first | rfl | contradiction

/-- Events that enter no session keep the current one. -/
theorem fold_unentered {events : List WorkflowDomainEvent} (h : enters events = false)
    (state : WorkflowState) :
    (events.foldl applyEvent state).currentSessionId = state.currentSessionId := by
  induction events generalizing state with
  | nil => rfl
  | cons e rest ih =>
    simp only [enters, List.any_cons, Bool.or_eq_false_iff] at h
    rw [List.foldl_cons, ih h.2, session_unentered h.1]

/-- A handler keeps its child and enters no session, or holds the agent it spawned for
the session that is then current. -/
theorem handled_child {wf : Workflow} {fresh : Fresh} {child : Option ActorRef}
    {state : WorkflowState} {command : WorkflowCommand} {reply : Reply}
    (h : Handled wf fresh child state command reply) :
    (reply.child = child ∧ reply.spawned = none ∧ enters reply.effect.events = false) ∨
      ∃ d sessionId, reply.child = some fresh.ref ∧ reply.spawned = some (d, sessionId) ∧
        (reply.effect.events.foldl applyEvent state).currentSessionId = some sessionId ∧
        (enters reply.effect.events = true → sessionId = fresh.sessionId ∧
          ∀ effect, Phase.handled reply.effect = .performing effect →
            Phase.called effect = (.waiting : Phase WorkflowDomainEvent)) := by
  cases h with
  | started input d _ =>
    refine Or.inr ⟨d, fresh.sessionId, rfl, rfl, rfl, fun _ => ⟨rfl, ?_⟩⟩
    intro effect heffect
    cases heffect
    rfl
  | transitioned _ _ _ _ _ d _ _ =>
    refine Or.inr ⟨d, fresh.sessionId, rfl, rfl, rfl, fun _ => ⟨rfl, ?_⟩⟩
    intro effect heffect
    cases heffect
    rfl
  | forked _ _ _ d _ _ _ _ =>
    refine Or.inr ⟨d, fresh.sessionId, rfl, rfl, rfl, fun _ => ⟨rfl, ?_⟩⟩
    intro effect heffect
    cases heffect
    rfl
  | respawned _ _ sessionId _ d _ _ hsession _ _ =>
    exact Or.inr ⟨d, sessionId, rfl, rfl, hsession, fun henters => by contradiction⟩
  | _ => exact Or.inl ⟨rfl, rfl, rfl⟩

end Sessions

theorem tracked_init : Tracked System.init := by
  constructor
  · intro e he
    simp [record, System.init] at he
  · intro wf hwf
    contradiction

theorem Fits.append {sessions : List Uuid} {child : Option ActorRef} {session : Option Uuid}
    (h : Fits sessions child session) (more : List Uuid) :
    Fits (sessions ++ more) child session := by
  intro ref href
  obtain ⟨sessionId, hget, hsession⟩ := h ref href
  refine ⟨sessionId, ?_, hsession⟩
  rw [List.getElem?_append_left (List.getElem?_eq_some_iff.mp hget).1]
  exact hget

/-- The agent added last fits its session. -/
theorem fits_spawned (sessions : List Uuid) (sessionId : Uuid) :
    Fits (sessions ++ [sessionId]) (some sessions.length) (some sessionId) := by
  intro ref href
  cases Option.some.inj href
  exact ⟨sessionId, List.getElem?_concat_length, rfl⟩

theorem Placed.tell {wf : WorkflowProc} (h : Placed s wf) (command : WorkflowCommand) :
    Placed s (wf.tell command) := by
  have hcoming : comingSession (wf.tell command) = comingSession wf := by
    simp only [comingSession, WorkflowProc.tell_phase, WorkflowProc.tell_state]
  constructor
  · rw [WorkflowProc.tell_phase, WorkflowProc.tell_state]
    exact h.folded
  · rw [WorkflowProc.tell_phase, WorkflowProc.tell_child]
    exact h.unheld
  · rw [WorkflowProc.tell_child, hcoming]
    exact h.fits
  · rw [WorkflowProc.tell_phase, WorkflowProc.tell_child, hcoming, WorkflowProc.tell_state]
    exact h.pending

/-- Steps that change nothing of the workflow but its mailbox. -/
theorem Tracked.frame (h : Tracked s) (hsessions : agentSessions t = agentSessions s)
    (hlog : t.workflowLog = s.workflowLog) (hnext : t.nextSession = s.nextSession)
    (hheard : t.workflow = s.workflow ∨
      ∃ command, t.workflow = s.workflow.map (WorkflowProc.tell command)) : Tracked t := by
  have hplaced : ∀ wf, Placed s wf → Placed t wf := by
    intro wf hwf
    refine ⟨hlog ▸ hwf.folded, hwf.unheld, ?_, hwf.pending⟩
    rw [hsessions]
    exact hwf.fits
  rcases hheard with hsame | ⟨command, htold⟩
  · constructor
    · unfold record
      rw [hsame, hlog, hnext]
      exact h.recorded
    · intro wf hwf
      exact hplaced wf (h.placed wf (hsame.symm.trans hwf))
  · constructor
    · have hrecord : record t = record s := by
        unfold record
        rw [htold, hlog]
        cases s.workflow <;> simp
      rw [hrecord, hnext]
      exact h.recorded
    · intro wf hwf
      obtain ⟨wf', hwf', rfl⟩ := Option.map_eq_some_iff.mp (htold.symm.trans hwf)
      exact hplaced _ ((h.placed wf' hwf').tell command)

theorem Tracked.of_frame (h : Tracked s) (hframe : Frame s t) : Tracked t := by
  refine h.frame hframe.sessions hframe.log hframe.nextSession ?_
  rcases hframe.heard with hsame | ⟨command, _, htold⟩
  · exact Or.inl hsame
  · exact Or.inr ⟨command, htold⟩

/-- The current session of the journal was drawn before. -/
theorem Tracked.current_lt (h : Tracked s) {sessionId : Uuid}
    (hcurrent : (fold s.workflowLog).currentSessionId = some sessionId) :
    sessionId < s.nextSession := by
  obtain ⟨e, he, henters⟩ := fold_entered hcurrent
  exact h.recorded e (List.mem_append_left _ he) sessionId henters

theorem Tracked.answered (h : Tracked s) {wf : WorkflowProc} {command : WorkflowCommand}
    {rest : List WorkflowCommand} {reply : Reply} {channel : List WorkflowNotification}
    (hwf : s.workflow = some wf) (hphase : wf.phase = .waiting)
    (hreply : Handled cfg.workflow (s.fresh cfg command) wf.child wf.state command reply) :
    Tracked (s.answered cfg wf rest reply channel) := by
  obtain ⟨hfolded, _, hfits, _⟩ := h.placed wf hwf
  have hstate : wf.state = fold s.workflowLog := hfolded (by rw [hphase]; rfl)
  have hcurrent : comingSession wf = wf.state.currentSessionId := by
    unfold comingSession
    rw [hphase]
    rfl
  rw [hcurrent] at hfits
  have hsessions : agentSessions (s.answered cfg wf rest reply channel) =
      agentSessions s ++ (reply.spawned.map Prod.snd).toList := agentSessions_repliedAgents reply _
  constructor
  · intro e he sessionId henters
    have hmem : e ∈ s.workflowLog ++ reply.effect.events := by
      simpa [record, System.answered] using he
    rcases List.mem_append.mp hmem with hold | hnew
    · exact Nat.lt_succ_of_lt (h.recorded e (List.mem_append_left _ hold) sessionId henters)
    · rw [handled_enters hreply hnew henters]
      exact Nat.lt_succ_self _
  · intro wf' hwf'
    cases Option.some.inj hwf'
    have hcoming : comingSession
        ({ wf with child := reply.child, mailbox := rest, phase := Phase.handled reply.effect } :
          WorkflowProc) = (reply.effect.events.foldl applyEvent wf.state).currentSessionId := by
      simp only [comingSession, Phase.events_handled]
    have hperforming : ∀ effect, Phase.handled reply.effect = .performing effect →
        effect.events = reply.effect.events := by
      intro effect heffect
      have hevents := congrArg Phase.events heffect
      rw [Phase.events_handled] at hevents
      exact hevents.symm
    refine ⟨fun _ => hstate, ?_, ?_, ?_⟩
    · intro hrecovering
      simp at hrecovering
    · rw [hcoming, hsessions]
      rcases handled_child hreply with ⟨hchild, hspawned, hkept⟩ |
        ⟨d, sessionId, hchild, hspawned, hsession, _⟩
      · rw [hspawned, fold_unentered hkept]
        change Fits _ reply.child _
        rw [hchild]
        exact hfits.append _
      · rw [hspawned, hsession]
        change Fits _ reply.child _
        rw [hchild]
        have hlen : (s.fresh cfg command).ref = (agentSessions s).length :=
          (List.length_map _).symm
        rw [hlen]
        exact fits_spawned (agentSessions s) sessionId
    · intro effect heffect henters
      rw [hperforming effect heffect] at henters
      rcases handled_child hreply with ⟨_, _, hkept⟩ |
        ⟨d, sessionId, hchild, _, hsession, hentered⟩
      · rw [hkept] at henters
        contradiction
      · obtain ⟨rfl, hcalled⟩ := hentered henters
        refine ⟨hcalled effect heffect, ?_, ?_⟩
        · change reply.child.isSome = true
          rw [hchild]
          rfl
        · rw [hcoming, hsession]
          intro heq
          have hlt := h.current_lt (hstate ▸ heq.symm)
          exact Nat.lt_irrefl _ hlt

theorem Tracked.recovered (h : Tracked s) {wf : WorkflowProc}
    {spawned : Option (WorkflowAgentDef × Uuid)}
    (hspawned : spawned = onRecoveryComplete cfg.workflow (fold s.workflowLog)) :
    Tracked { s.spawns spawned with
      workflow := some { wf with
        state := fold s.workflowLog
        child := spawned.map (fun _ => s.agents.length)
        phase := .waiting } } := by
  have hrecorded : ∀ e ∈ s.workflowLog, ∀ sessionId, entersSession e = some sessionId →
      sessionId < s.nextSession := fun e he => h.recorded e (List.mem_append_left _ he)
  cases spawned with
  | none =>
    refine ⟨?_, ?_⟩
    · simpa [record, System.spawns] using hrecorded
    · intro wf' hwf'
      cases Option.some.inj hwf'
      refine ⟨fun _ => rfl, fun _ => rfl, ?_, ?_⟩
      · intro ref href
        contradiction
      · intro effect heffect
        contradiction
  | some pair =>
    obtain ⟨d, sessionId⟩ := pair
    have hcurrent := (onRecoveryComplete_some hspawned.symm).2.1
    refine ⟨?_, ?_⟩
    · simpa [record, System.spawns, System.spawnAgent] using hrecorded
    · intro wf' hwf'
      cases Option.some.inj hwf'
      refine ⟨fun _ => rfl, fun hrecovering => by contradiction, ?_, ?_⟩
      · have hsessions : agentSessions (s.spawnAgent d sessionId) =
            agentSessions s ++ [sessionId] := List.map_append
        have hlen : s.agents.length = (agentSessions s).length := (List.length_map _).symm
        change Fits (agentSessions (s.spawnAgent d sessionId)) (some s.agents.length)
          (fold s.workflowLog).currentSessionId
        rw [hsessions, hcurrent, hlen]
        exact fits_spawned (agentSessions s) sessionId
      · intro effect heffect
        contradiction

/-- A write that succeeds, or that enters no session, leaves the child with its session. -/
theorem Tracked.persisted (h : Tracked s) {wf : WorkflowProc}
    {effect : CommandEffect WorkflowDomainEvent} {events : List WorkflowDomainEvent}
    (hwf : s.workflow = some wf) (hphase : wf.phase = .performing effect)
    (hevents : events = effect.events ∨ events = [] ∧ enters effect.events = false) :
    Tracked { s with
      workflowLog := s.workflowLog ++ events
      workflow := some { wf with
        state := events.foldl applyEvent wf.state
        phase := Phase.called effect } } := by
  obtain ⟨hfolded, _, hfits, _⟩ := h.placed wf hwf
  have hstate : wf.state = fold s.workflowLog := hfolded (by rw [hphase]; rfl)
  have hcoming : (events.foldl applyEvent wf.state).currentSessionId = comingSession wf := by
    unfold comingSession
    rw [hphase, Phase.events_performing]
    rcases hevents with rfl | ⟨rfl, hkept⟩
    · rfl
    · rw [fold_unentered hkept]
      rfl
  constructor
  · intro e he sessionId henters
    have hmem : e ∈ s.workflowLog ∨ e ∈ events := by simpa [record] using he
    refine h.recorded e ?_ sessionId henters
    unfold record
    rw [hwf, Option.map_some, hphase]
    rcases hmem with hold | hnew
    · exact List.mem_append_left _ hold
    · rcases hevents with rfl | ⟨rfl, _⟩
      · exact List.mem_append_right _ hnew
      · contradiction
  · intro wf' hwf'
    cases Option.some.inj hwf'
    refine ⟨?_, ?_, ?_, ?_⟩
    · intro _
      rw [fold_append, ← hstate]
    · intro hrecovering
      simp at hrecovering
    · simp only [comingSession, Phase.events_called, List.foldl_nil, hcoming]
      exact hfits
    · intro effect' heffect henters
      have hnone := congrArg Phase.events heffect
      rw [Phase.events_called, Phase.events_performing] at hnone
      rw [← hnone] at henters
      contradiction

theorem Tracked.step (h : Tracked s) {l : Label} (hstored : EntryStored s (.step l))
    (hstep : Step cfg s l t) : Tracked t := by
  have hframe := step_frame hstep
  cases hstep with
  | launched kickoff _ hnone =>
    constructor
    · simpa [record, hnone] using h.recorded
    · intro wf hwf
      cases Option.some.inj hwf
      refine ⟨fun hphase => by contradiction, fun _ => rfl, ?_, ?_⟩
      · intro ref href
        contradiction
      · intro effect heffect
        contradiction
  | recovered wf spawned hwf _ hspawned => exact h.recovered hspawned
  | handled wf command rest reply channel hwf hphase _ hreply =>
    exact h.answered hwf hphase (hreply ▸ handleCommand_handled command)
  | persisted wf effect events ok hwf hphase hevents =>
    refine h.persisted hwf hphase ?_
    cases ok with
    | true => exact Or.inl hevents
    | false =>
      refine Or.inr ⟨hevents, ?_⟩
      simpa [EntryStored, entryStored, hwf, hphase] using hstored
  | crashed =>
    constructor
    · intro e he
      exact h.recorded e (List.mem_append_left _ (by simpa [record, System.crash] using he))
    · intro wf hwf
      contradiction
  | _ => exact h.of_frame (hframe rfl)

theorem Tracked.openStep (h : Tracked s) {l : OpenLabel} (hstored : EntryStored s l)
    (hnext : openNext cfg s l = some t) : Tracked t := by
  cases openNext_step hnext with
  | stepped label t hstep => exact h.step hstored hstep
  | toldWorkflow command => exact h.frame rfl rfl rfl (Or.inr ⟨command, rfl⟩)
  | toldAgent ref command _ =>
    exact h.frame (agentSessions_tellAgent ref command s) rfl rfl (Or.inl rfl)

theorem Tracked.current (h : Tracked s) : ChildCurrent s := by
  intro wf ref hwf hphase href
  obtain ⟨sessionId, hget, hcoming⟩ := (h.placed wf hwf).fits ref href
  unfold agentSessions at hget
  rw [List.getElem?_map] at hget
  obtain ⟨p, hp, rfl⟩ := Option.map_eq_some_iff.mp hget
  refine ⟨p, hp, ?_⟩
  rw [← hcoming]
  unfold comingSession
  rw [hphase]
  rfl

/-- A failed write that was to enter a session leaves a child of another session. -/
theorem child_astray (h : Tracked s) {l : OpenLabel} (hstored : ¬ EntryStored s l)
    (hnext : openNext cfg s l = some t) : ¬ ChildCurrent t := by
  intro hcurrent
  have hbroken : entryStored s l = false := by
    unfold EntryStored at hstored
    simpa using hstored
  unfold entryStored at hbroken
  split at hbroken
  · cases openNext_step hnext with
    | stepped label t hstep =>
      cases hstep with
      | persisted wf effect events ok hwf hphase hevents =>
        have henters : enters effect.events = true := by
          simpa [hwf, hphase] using hbroken
        obtain ⟨_, _, hfits, hpending⟩ := h.placed wf hwf
        obtain ⟨hcalled, hsome, hapart⟩ := hpending effect hphase henters
        obtain ⟨ref, href⟩ := Option.isSome_iff_exists.mp hsome
        obtain ⟨sessionId, hget, hcoming⟩ := hfits ref href
        obtain ⟨p, hp, hsession⟩ := hcurrent _ ref rfl hcalled href
        have hagent := mem_agentSessions (s := s) hp
        have hid : p.actor.sessionId = sessionId := Option.some.inj (hagent.symm.trans hget)
        subst hevents
        exact hapart (hcoming.trans (hid ▸ hsession.symm))
  · contradiction

/-- Until a write of events that enter a session fails, the child held is the agent of
the current session whenever no command is being handled; then it no longer is. -/
theorem child_current_iff (cfg : Config) (s : System)
    (hrun : Machine.Run (openNext cfg) EntryStored System.init s) :
    ChildCurrent s ∧ ∀ l t, openNext cfg s l = some t → (ChildCurrent t ↔ EntryStored s l) := by
  have htracked : Tracked s := hrun.invariant Tracked
    (fun _ _ _ h hstored hnext => h.openStep hstored hnext) tracked_init
  refine ⟨htracked.current, ?_⟩
  intro l t hnext
  constructor
  · intro hcurrent
    by_cases hstored : EntryStored s l
    · exact hstored
    · exact (child_astray htracked hstored hnext hcurrent).elim
  · intro hstored
    exact (htracked.openStep hstored hnext).current

def startHandled : List OpenLabel :=
  [.step (.launch (some (.start "go"))), .step .workflowRecover, .step .workflowHandle]

theorem child_current_iff_started :
    let s := Machine.final (openNext (solo .file)) EntryStored System.init startHandled
    ChildCurrent s ∧ ∀ l t, openNext (solo .file) s l = some t →
      (ChildCurrent t ↔ EntryStored s l) :=
  child_current_iff (solo .file) _ (Machine.run_final startHandled (by decide +kernel))

/-- The start agent runs and the workflow has no current session. -/
theorem start_unrecorded :
    ¬ ∀ (cfg : Config) (s : System), Machine.Run (openNext cfg) Machine.free System.init s →
      ChildCurrent s := by
  intro h
  have hrun : Machine.Run (openNext (solo .file)) Machine.free System.init
      (Machine.final (openNext (solo .file)) Machine.free System.init
        (startHandled ++ [.step (.workflowPersist false)])) :=
    Machine.run_final _ (by decide +kernel)
  have hcurrent := h (solo .file) _ hrun
  have hheld : ((Machine.final (openNext (solo .file)) Machine.free System.init
      (startHandled ++ [.step (.workflowPersist false)])).workflow).any
        (fun wf => wf.child == some 0 && wf.state.currentSessionId.isNone) = true := by
    decide +kernel
  obtain ⟨wf, hwf, hany⟩ := (Option.any_eq_true _ _).mp hheld
  simp only [Bool.and_eq_true, beq_iff_eq, Option.isNone_iff_eq_none] at hany
  have hphase : wf.phase = .waiting := by
    cases Option.some.inj (hwf.symm.trans (rfl : _ = some _))
    rfl
  obtain ⟨p, _, hsession⟩ := hcurrent wf 0 hwf hphase hany.1
  rw [hany.2] at hsession
  contradiction

end October.LiveChild
