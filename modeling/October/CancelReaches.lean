import October.OpenSystem
import October.WorkflowInvariants

/-!
Whether a Cancel reaches the run in flight. An agent keeps the token of the run it
started last, and clears it whenever a run reports its end. The report does not say
which run ended, so the end of an earlier run, cancelled or not, also takes the token
of the later one, and nothing can cancel that one any more.
-/
namespace October.CancelReaches

open AgentActor WorkflowInvariants

def lastIndex (ref : ActorRef) : List ActorRef → Option ℕ
  | [] => none
  | a :: rest =>
    match lastIndex ref rest with
    | some i => some (i + 1)
    | none => if a = ref then some 0 else none

def undelivered (runs : List RunTask) (run : ℕ) : Bool :=
  (runs[run]?).any (fun task => !task.finished)

def inFlight (runs : List RunTask) (ref : ActorRef) : Option ℕ :=
  (lastIndex ref (runs.map RunTask.agent)).filter (undelivered runs)

def cancelledNow (messageId : String) (s : System) (ref : ActorRef) (p : AgentProc) : System :=
  (p.actor.handleCommand p.state s.runs.length messageId .cancel).2.1.foldl
    (System.performAgent ref p.actor.sessionId) s

/-- The actor holds the token of a run, so that a Cancel handled now cancels the run. -/
structure Controls (s : System) (ref : ActorRef) (p : AgentProc) (run : ℕ) : Prop where
  holds : p.actor.running = some run
  cancels : ∀ messageId,
    ((cancelledNow messageId s ref p).runs[run]?).map RunTask.cancelled = some true

def Reaches (s : System) : Prop :=
  ∀ ref p run, s.agents[ref]? = some p → p.phase.isStopped = false →
    inFlight s.runs ref = some run → Controls s ref p run

def goesOn (params : AgentParams) : RunOutcome → Bool
  | .completed _ => false
  | .concluded data toolCallId =>
    match interpret params data toolCallId with
    | .output _ => false
    | .ask _ _ => true
  | .cancelled => true
  | .failed _ _ => false

/-- The end of a run after which the actor goes on is handled only if the run started
last has delivered its own. -/
def endsLatest (s : System) : OpenLabel → Bool
  | .step (.agentHandle ref _) =>
    match s.agents[ref]? with
    | none => true
    | some p =>
      match p.mailbox with
      | .runFinished outcome :: _ =>
        !goesOn p.actor.params outcome || (inFlight s.runs ref).isNone
      | _ => true
  | _ => true

def EndsLatest (s : System) (l : OpenLabel) : Prop := endsLatest s l = true

instance (s : System) (l : OpenLabel) : Decidable (EndsLatest s l) :=
  inferInstanceAs (Decidable (_ = true))

section Latest

variable (ref : ActorRef)

theorem lastIndex_concat (l : List ActorRef) (a : ActorRef) :
    lastIndex ref (l ++ [a]) = if a = ref then some l.length else lastIndex ref l := by
  induction l with
  | nil => rfl
  | cons b rest ih =>
    rw [List.cons_append, lastIndex, ih]
    by_cases ha : a = ref
    · simp [ha]
    · simp only [ha, if_false]
      rfl

theorem lastIndex_getElem? (l : List ActorRef) (i : ℕ) (h : lastIndex ref l = some i) :
    l[i]? = some ref := by
  induction l generalizing i with
  | nil => contradiction
  | cons a rest ih =>
    simp only [lastIndex] at h
    split at h
    · rename_i j hj
      obtain rfl := Option.some.inj h
      exact ih j hj
    · split at h
      · rename_i ha
        obtain rfl := Option.some.inj h
        rw [ha]
        rfl
      · contradiction

variable {runs : List RunTask} {run : ℕ}

/-- The run in flight is a run of the agent that has not finished. -/
theorem inFlight_task (h : inFlight runs ref = some run) :
    ∃ task, runs[run]? = some task ∧ task.agent = ref ∧ task.finished = false := by
  obtain ⟨hlast, hlive⟩ := Option.filter_eq_some_iff.mp h
  have hagent := lastIndex_getElem? ref _ run hlast
  rw [List.getElem?_map] at hagent
  obtain ⟨task, htask, href⟩ := Option.map_eq_some_iff.mp hagent
  refine ⟨task, htask, href, ?_⟩
  simpa [undelivered, htask] using hlive

theorem inFlight_started (task : RunTask) (hlive : task.finished = false) :
    inFlight (runs ++ [task]) task.agent = some runs.length := by
  unfold inFlight
  rw [List.map_append, List.map_singleton, lastIndex_concat, if_pos rfl]
  simp [undelivered, hlive]

theorem inFlight_other (task : RunTask) (h : task.agent ≠ ref) :
    inFlight (runs ++ [task]) ref = inFlight runs ref := by
  unfold inFlight
  rw [List.map_append, List.map_singleton, lastIndex_concat, if_neg h]
  cases hlast : lastIndex ref (runs.map RunTask.agent) with
  | none => rfl
  | some i =>
    have hi := (List.getElem?_eq_some_iff.mp (lastIndex_getElem? ref _ i hlast)).1
    rw [List.length_map] at hi
    have hsame : undelivered (runs ++ [task]) i = undelivered runs i := by
      unfold undelivered
      rw [List.getElem?_append_left hi]
    simp only [Option.filter_some, hsame]

theorem inFlight_congr {runs' : List RunTask}
    (hagents : runs'.map RunTask.agent = runs.map RunTask.agent)
    (hfinished : runs'.map RunTask.finished = runs.map RunTask.finished) :
    inFlight runs' ref = inFlight runs ref := by
  have hlive : undelivered runs' = undelivered runs := by
    funext i
    have hi := congrArg (fun l : List Bool => l[i]?) hfinished
    simp only [List.getElem?_map] at hi
    unfold undelivered
    cases h : runs[i]? <;> cases h' : runs'[i]? <;> simp_all
  unfold inFlight
  rw [hagents, hlive]

/-- A run that delivers its end leaves no other run in flight than before. -/
theorem inFlight_finished {ended : ℕ} {task : RunTask} (htask : runs[ended]? = some task)
    (h : inFlight (runs.set ended { task with finished := true }) ref = some run) :
    inFlight runs ref = some run := by
  obtain ⟨hlast, hlive⟩ := Option.filter_eq_some_iff.mp h
  have hagents : (runs.set ended { task with finished := true }).map RunTask.agent =
      runs.map RunTask.agent := by
    have hlt := (List.getElem?_eq_some_iff.mp htask).1
    rw [List.map_set]
    apply List.ext_getElem?
    intro i
    rw [List.getElem?_set]
    split
    · rename_i hi
      subst hi
      rw [List.getElem?_map, htask]
      simp [hlt]
    · rfl
  rw [hagents] at hlast
  refine Option.filter_eq_some_iff.mpr ⟨hlast, ?_⟩
  unfold undelivered at hlive ⊢
  rw [List.getElem?_set] at hlive
  split at hlive
  · split at hlive <;> simp at hlive
  · exact hlive

end Latest

def slot (p : AgentProc) : Bool × Option ℕ := (p.phase.isStopped, p.actor.running)

/-- Every run belongs to an agent, and an agent that has not stopped holds the token of
its run in flight. -/
structure Held (s : System) : Prop where
  owned : ∀ task ∈ s.runs, task.agent < s.agents.length
  holds : ∀ ref p run, s.agents[ref]? = some p → p.phase.isStopped = false →
    inFlight s.runs ref = some run → p.actor.running = some run

variable {cfg : Config} {s t : System}

theorem held_init : Held System.init := by
  constructor
  · intro task htask
    contradiction
  · intro ref p run hp
    contradiction

theorem Held.reaches (h : Held s) : Reaches s := by
  intro ref p run hp hlive hrun
  have hholds := h.holds ref p run hp hlive hrun
  refine ⟨hholds, fun messageId => ?_⟩
  obtain ⟨task, htask, _, _⟩ := inFlight_task ref hrun
  have hruns : (cancelledNow messageId s ref p).runs =
      s.runs.modify run (fun r => { r with cancelled := true }) := by
    simp only [cancelledNow, handleCommand, hholds, Option.map_some, Option.toList_some,
      List.foldl_cons, List.foldl_nil, System.performAgent]
  rw [hruns, List.getElem?_modify, htask]
  simp

/-- Agents that keep their token, and new ones, stay in control of what is in flight. -/
theorem Held.frame (h : Held s) (more : List (Bool × Option ℕ))
    (hagents : t.agents.map slot = s.agents.map slot ++ more)
    (howned : ∀ task ∈ t.runs, task.agent < s.agents.length)
    (hruns : ∀ ref run, inFlight t.runs ref = some run → inFlight s.runs ref = some run) :
    Held t := by
  have hlen := congrArg List.length hagents
  rw [List.length_map, List.length_append, List.length_map] at hlen
  constructor
  · intro task htask
    exact Nat.lt_of_lt_of_le (howned task htask) (by omega)
  · intro ref p run hp hlive hrun
    have hold := hruns ref run hrun
    obtain ⟨task, htask, href, _⟩ := inFlight_task ref hold
    have hlt := h.owned task (List.mem_of_getElem? htask)
    rw [href] at hlt
    have hslot := congrArg (fun l : List (Bool × Option ℕ) => l[ref]?) hagents
    simp only [List.getElem?_map, hp] at hslot
    rw [List.getElem?_append_left (by rw [List.length_map]; exact hlt), List.getElem?_map,
      List.getElem?_eq_getElem hlt] at hslot
    simp only [Option.map_some, Option.some.injEq, slot, Prod.mk.injEq] at hslot
    rw [hslot.2]
    exact h.holds ref _ run (List.getElem?_eq_getElem hlt) (hslot.1.symm.trans hlive) hold

/-- One agent takes a step; the others and what they have in flight stay. -/
theorem Held.agent (h : Held s) {ref : ActorRef} {p p' : AgentProc} (hp : s.agents[ref]? = some p)
    (hagents : t.agents = s.agents.set ref p')
    (howned : ∀ task ∈ t.runs, task.agent < s.agents.length)
    (hothers : ∀ other run, other ≠ ref → inFlight t.runs other = some run →
      inFlight s.runs other = some run)
    (hown : ∀ run, p'.phase.isStopped = false → inFlight t.runs ref = some run →
      p'.actor.running = some run) : Held t := by
  have hlt := (List.getElem?_eq_some_iff.mp hp).1
  constructor
  · rw [hagents, List.length_set]
    exact howned
  · intro other q run hq hlive hrun
    rw [hagents, List.getElem?_set] at hq
    by_cases href : ref = other
    · subst href
      rw [if_pos rfl, if_pos hlt] at hq
      obtain rfl := Option.some.inj hq
      exact hown run hlive hrun
    · rw [if_neg href] at hq
      exact h.holds other q run hq hlive (hothers other run (fun heq => href heq.symm) hrun)

/-- An agent starts a run and holds its token. -/
theorem Held.started (h : Held s) {ref : ActorRef} {p p' : AgentProc}
    (hp : s.agents[ref]? = some p) (hrunning : p'.actor.running = some s.runs.length)
    (task : RunTask) (htask : task.agent = ref) (hlive : task.finished = false) :
    Held ((s.setAgent ref p').addRun task) := by
  have hlt := (List.getElem?_eq_some_iff.mp hp).1
  refine h.agent hp rfl ?_ ?_ ?_
  · exact List.forall_mem_append.mpr ⟨h.owned, by simpa [htask] using hlt⟩
  · intro other run hother hrun
    rw [← inFlight_other other task (fun heq => hother (heq.symm.trans htask))]
    exact hrun
  · intro run _ hrun
    have hstarted : inFlight (s.runs ++ [task]) task.agent = some s.runs.length :=
      inFlight_started task hlive
    rw [htask] at hstarted
    rw [hrunning, ← hstarted]
    exact hrun

/-- An agent that keeps its token and whether it has stopped. -/
theorem Held.kept (h : Held s) {ref : ActorRef} {p p' : AgentProc} (hp : s.agents[ref]? = some p)
    (hagents : t.agents = s.agents.set ref p') (hruns : t.runs = s.runs)
    (hlive : p.phase.isStopped = false) (hrunning : p'.actor.running = p.actor.running) :
    Held t := by
  refine h.agent hp hagents (hruns ▸ h.owned) (fun other run _ hrun => hruns ▸ hrun) ?_
  intro run _ hrun
  rw [hrunning]
  exact h.holds ref p run hp hlive (hruns ▸ hrun)

theorem map_slot_tell (agents : List AgentProc) (ref : ActorRef) (command : AgentCommand) :
    (agents.modify ref (AgentProc.tell command)).map slot = agents.map slot :=
  map_modify_same (fun p => by simp [slot]) agents ref

theorem map_slot_replied (reply : Reply) (agents : List AgentProc) :
    ∃ more, (System.repliedAgents reply agents).map slot = agents.map slot ++ more := by
  unfold System.repliedAgents
  cases reply.told with
  | none => exact ⟨_, List.map_append⟩
  | some told =>
    obtain ⟨ref, command⟩ := told
    exact ⟨_, (map_slot_tell _ ref command).trans List.map_append⟩

theorem Held.told (h : Held s) (hagents : t.agents.map slot = s.agents.map slot)
    (hruns : t.runs = s.runs) : Held t := by
  refine h.frame [] (by rw [List.append_nil, hagents]) (hruns ▸ h.owned) ?_
  intro ref run hrun
  exact hruns ▸ hrun

/-- At the end of a run the actor clears its token, and stops unless it goes on. -/
theorem handled_end {ref : ActorRef} {messageId : String} {p : AgentProc} {outcome : RunOutcome}
    {rest : List AgentCommand} (hp : s.agents[ref]? = some p)
    (hmailbox : p.mailbox = .runFinished outcome :: rest)
    (hnext : next cfg s (.agentHandle ref messageId) = some t) :
    ∃ p', t.agents = s.agents.set ref p' ∧ t.runs = s.runs ∧ p'.actor.running = none ∧
      p'.phase.isStopped = !goesOn p.actor.params outcome := by
  simp only [next, System.agentHandle, hp, hmailbox] at hnext
  split at hnext
  · rename_i command mailbox hphase hhead
    obtain ⟨rfl, rfl⟩ := List.cons.inj hhead
    cases outcome with
    | completed text =>
      cases Option.some.inj hnext
      exact ⟨_, rfl, rfl, rfl, rfl⟩
    | cancelled =>
      cases Option.some.inj hnext
      exact ⟨_, rfl, rfl, rfl, rfl⟩
    | failed error recoverable =>
      cases Option.some.inj hnext
      exact ⟨_, rfl, rfl, rfl, rfl⟩
    | concluded data toolCallId =>
      simp only [handleCommand, handleFinished, goesOn] at hnext ⊢
      cases hconclusion : interpret p.actor.params data toolCallId with
      | output output =>
        rw [hconclusion] at hnext
        cases Option.some.inj hnext
        exact ⟨_, rfl, rfl, rfl, rfl⟩
      | ask toolCallId question =>
        rw [hconclusion] at hnext
        cases Option.some.inj hnext
        exact ⟨_, rfl, rfl, rfl, rfl⟩
  · contradiction

/-- Taking the end of a run leaves the agent in control only if the guard is met. -/
theorem Held.ended (h : Held s) {ref : ActorRef} {messageId : String} {p : AgentProc}
    {outcome : RunOutcome} {rest : List AgentCommand} (hp : s.agents[ref]? = some p)
    (hmailbox : p.mailbox = .runFinished outcome :: rest)
    (hnext : next cfg s (.agentHandle ref messageId) = some t)
    (hends : EndsLatest s (.step (.agentHandle ref messageId))) : Held t := by
  obtain ⟨p', hagents, hruns, _, hstopped⟩ := handled_end hp hmailbox hnext
  refine h.agent hp hagents (hruns ▸ h.owned) (fun other run _ hrun => hruns ▸ hrun) ?_
  intro run hlive hrun
  simp only [EndsLatest, endsLatest, hp, hmailbox, Bool.or_eq_true] at hends
  rcases hends with hstops | hnone
  · rw [hstopped, hstops] at hlive
    contradiction
  · rw [hruns, Option.isNone_iff_eq_none.mp hnone] at hrun
    contradiction

theorem running_stopped {p : AgentProc} {phase : Phase AgentDomainEvent} (hphase : p.phase = phase)
    (h : phase.isStopped = false) : p.phase.isStopped = false := by
  rw [hphase]
  exact h

theorem map_cancelled {β : Type} (f : RunTask → β)
    (hf : ∀ r : RunTask, f { r with cancelled := true } = f r) (runs : List RunTask) (run : ℕ) :
    (runs.modify run (fun r => { r with cancelled := true })).map f = runs.map f :=
  map_modify_same hf runs run

/-- A Cancel marks the run whose token the agent holds, and ends none. -/
theorem inFlight_cancelled (running : Option ℕ) (runs : List RunTask) (ref : ActorRef) :
    inFlight ((running.map (fun run =>
        runs.modify run (fun r => { r with cancelled := true }))).getD runs) ref =
      inFlight runs ref := by
  cases running with
  | none => rfl
  | some run =>
    exact inFlight_congr ref (map_cancelled _ (fun _ => rfl) runs run)
      (map_cancelled _ (fun _ => rfl) runs run)

theorem owned_cancelled (h : Held s) (running : Option ℕ) :
    ∀ task ∈ (running.map (fun run =>
        s.runs.modify run (fun r => { r with cancelled := true }))).getD s.runs,
      task.agent < s.agents.length := by
  cases running with
  | none => exact h.owned
  | some run =>
    intro task htask
    have hmem : task.agent ∈ (s.runs.modify run (fun r => { r with cancelled := true })).map
        RunTask.agent := List.mem_map_of_mem htask
    rw [map_cancelled _ (fun _ => rfl)] at hmem
    obtain ⟨old, hold, heq⟩ := List.mem_map.mp hmem
    rw [← heq]
    exact h.owned old hold

theorem Held.step (h : Held s) {l : Label} (hends : EndsLatest s (.step l))
    (hnext : next cfg s l = some t) : Held t := by
  have hsame : ∀ ref run, inFlight s.runs ref = some run → inFlight s.runs ref = some run :=
    fun _ _ hrun => hrun
  cases next_step hnext with
  | launched kickoff _ _ => exact h.told rfl rfl
  | delivered command _ => exact h.told rfl rfl
  | recovered wf spawned _ _ _ =>
    cases spawned with
    | none => exact h.told rfl rfl
    | some pair => exact h.frame _ List.map_append h.owned hsame
  | handled wf command rest reply channel _ _ _ _ =>
    obtain ⟨more, hagents⟩ := map_slot_replied reply s.agents
    exact h.frame more hagents h.owned hsame
  | persisted wf effect events ok _ _ _ => exact h.told rfl rfl
  | agentIdle ref messageId p hp hphase _ =>
    exact h.kept hp rfl rfl (running_stopped hphase rfl) rfl
  | agentRedriven ref messageId p hp _ _ => exact h.started hp rfl _ rfl rfl
  | agentRan ref messageId p command rest input hp _ _ _ => exact h.started hp rfl _ rfl rfl
  | agentNoted ref messageId p events rest hp hphase _ =>
    exact h.kept hp rfl rfl (running_stopped hphase rfl) rfl
  | agentCancelled ref messageId p rest runs hp hphase _ hruns =>
    subst hruns
    refine h.agent hp rfl (owned_cancelled h p.actor.running) ?_ ?_
    · intro other run _ hrun
      rw [← inFlight_cancelled p.actor.running]
      exact hrun
    · intro run _ hrun
      refine h.holds ref p run hp (running_stopped hphase rfl) ?_
      rw [← inFlight_cancelled p.actor.running]
      exact hrun
  | agentEnded ref messageId p rest hp _ hmailbox => exact h.ended hp hmailbox hnext hends
  | agentReported ref messageId p outcome rest report hp _ hmailbox _ _ =>
    exact h.ended hp hmailbox hnext hends
  | agentAsked ref messageId p outcome rest toolCallId question hp _ hmailbox =>
    exact h.ended hp hmailbox hnext hends
  | agentCalled ref ok p effect events hp hphase _ =>
    exact h.kept hp rfl rfl (running_stopped hphase rfl) rfl
  | runStreamed run event task _ _ _ => exact h.told (map_slot_tell _ _ _) rfl
  | runEnded run outcome task htask _ =>
    refine h.frame [] ((map_slot_tell _ _ _).trans (List.append_nil _).symm) ?_ ?_
    · intro other hother
      rcases List.mem_or_eq_of_mem_set hother with hmem | rfl
      · exact h.owned other hmem
      · exact h.owned task (List.mem_of_getElem? htask)
    · intro ref run' hrun
      exact inFlight_finished ref htask hrun
  | drained => exact h.told rfl rfl
  | crashed =>
    constructor
    · intro task htask
      contradiction
    · intro ref p run hp
      contradiction

theorem Held.openStep (h : Held s) {l : OpenLabel} (hends : EndsLatest s l)
    (hnext : openNext cfg s l = some t) : Held t := by
  cases openNext_step hnext with
  | stepped label t _ => exact h.step hends hnext
  | toldWorkflow command => exact h.told rfl rfl
  | toldAgent ref command _ => exact h.told (map_slot_tell _ _ _) rfl

/-- A step that breaks the guard leaves a run in flight out of control. -/
theorem lost_control {l : OpenLabel} (hends : ¬ EndsLatest s l)
    (hnext : openNext cfg s l = some t) : ¬ Reaches t := by
  intro hreaches
  have hbroken : endsLatest s l = false := by
    unfold EndsLatest at hends
    simpa using hends
  unfold endsLatest at hbroken
  split at hbroken
  · rename_i ref messageId
    split at hbroken
    · contradiction
    · rename_i p hp
      split at hbroken
      · rename_i outcome rest hmailbox
        have hstep : next cfg s (.agentHandle ref messageId) = some t := hnext
        obtain ⟨p', hagents, hruns, hnone, hstopped⟩ := handled_end hp hmailbox hstep
        simp only [Bool.or_eq_false_iff, Bool.not_eq_false'] at hbroken
        obtain ⟨hgoes, hsome⟩ := hbroken
        obtain ⟨run, hrun⟩ := Option.isSome_iff_exists.mp (Option.isNone_eq_false_iff.mp hsome)
        have hlt := (List.getElem?_eq_some_iff.mp hp).1
        have hp' : t.agents[ref]? = some p' := by
          rw [hagents, List.getElem?_set_self hlt]
        have hlive : p'.phase.isStopped = false := by
          rw [hstopped, hgoes]
          rfl
        have hholds := (hreaches ref p' run hp' hlive (hruns ▸ hrun)).holds
        rw [hnone] at hholds
        contradiction
      · contradiction
  · contradiction

/-- Until an agent goes on after the end of an earlier run while the run it started last
has yet to deliver its own, a Cancel reaches the run in flight; then it no longer does. -/
theorem cancel_reaches_iff (cfg : Config) (s : System)
    (hrun : Machine.Run (openNext cfg) EndsLatest System.init s) :
    Reaches s ∧ ∀ l t, openNext cfg s l = some t → (Reaches t ↔ EndsLatest s l) := by
  have hheld : Held s := hrun.invariant Held (fun _ _ _ h hends hnext => h.openStep hends hnext)
    held_init
  refine ⟨hheld.reaches, ?_⟩
  intro l t hnext
  constructor
  · intro hreaches
    by_cases hends : EndsLatest s l
    · exact hends
    · exact (lost_control hends hnext hreaches).elim
  · intro hends
    exact (hheld.openStep hends hnext).reaches

def resumedAfterEnd : List OpenLabel :=
  soloRunning.map .step ++
    [.tellAgent 0 .cancel, .step (.agentHandle 0 "m2"), .step (.runFinish 0 .cancelled),
      .step (.agentHandle 0 "m3"), .step (.agentPersist 0 true), .step (.agentPersist 0 true),
      .tellAgent 0 (.run "carry on"), .step (.agentHandle 0 "m4")]

theorem cancel_reaches_iff_resumed :
    let s := Machine.final (openNext (solo .inMemory)) EndsLatest System.init resumedAfterEnd
    Reaches s ∧ ∀ l t, openNext (solo .inMemory) s l = some t → (Reaches t ↔ EndsLatest s l) :=
  cancel_reaches_iff (solo .inMemory) _ (Machine.run_final resumedAfterEnd (by decide +kernel))

def resumedBeforeEnd : List OpenLabel :=
  soloRunning.map .step ++
    [.step (.deliver .cancel), .step .workflowHandle, .step (.workflowPersist true),
      .step (.agentHandle 0 "m2"), .step (.deliver (.resume "carry on")), .step .workflowHandle,
      .step (.agentHandle 0 "m3"), .step (.agentPersist 0 true), .step (.runFinish 0 .cancelled),
      .step (.agentHandle 0 "m4")]

/-- The second run is in flight and the agent no longer holds its token. -/
theorem resumed_run_escapes :
    ¬ ∀ (cfg : Config) (s : System), Machine.Run (openNext cfg) Machine.free System.init s →
      Reaches s := by
  intro h
  have hrun : Machine.Run (openNext (solo .inMemory)) Machine.free System.init
      (Machine.final (openNext (solo .inMemory)) Machine.free System.init resumedBeforeEnd) :=
    Machine.run_final resumedBeforeEnd (by decide +kernel)
  have hreaches := h (solo .inMemory) _ hrun
  have hescaped : ((Machine.final (openNext (solo .inMemory)) Machine.free System.init
      resumedBeforeEnd).agents[0]?).any (fun p => !p.phase.isStopped && p.actor.running.isNone) =
        true ∧
      inFlight (Machine.final (openNext (solo .inMemory)) Machine.free System.init
        resumedBeforeEnd).runs 0 = some 1 := by
    decide +kernel
  obtain ⟨hagent, hflight⟩ := hescaped
  obtain ⟨p, hp, hany⟩ := (Option.any_eq_true _ _).mp hagent
  simp only [Bool.and_eq_true, Bool.not_eq_true'] at hany
  have hcontrols := hreaches 0 p 1 hp hany.1 hflight
  rw [hcontrols.holds] at hany
  simp at hany

end October.CancelReaches
