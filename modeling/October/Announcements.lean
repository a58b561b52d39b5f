import October.WorkflowSystem

/-!
What a workflow tells its observer. Each status event is to be paired with one
notification, and the observer learns of outcomes from these only. The failing paths
of a Resume of a suspended workflow and of a Fork persist the failure in silence;
everywhere else a handler pushes what its events announce, unless the channel is full
or closed.
-/
namespace October.Announcements

open WorkflowActor

def question : WorkflowCommand → String
  | .agentAsked _ _ question => question
  | _ => ""

def announcement (question : String) : WorkflowDomainEvent → Option WorkflowNotification
  | .workflowFinished output => some (.finished output)
  | .workflowFailed error _ => some (.failed error)
  | .workflowSuspended => some .suspended
  | .workflowPaused _ _ => some (.awaitingUserInput question)
  | _ => none

def announcements (question : String) (events : List WorkflowDomainEvent) :
    List WorkflowNotification := events.filterMap (announcement question)

def pushed (accepts : Bool) (reply : Reply) : List WorkflowNotification :=
  if accepts then reply.notified.toList else []

theorem notifies_channel (cfg : Config) (s : System) (reply : Reply) :
    (s.notifies cfg reply.notified).channel =
      s.channel ++ pushed (decide (s.channel.length < cfg.notifyCapacity)) reply := by
  unfold System.notifies pushed
  cases reply.notified with
  | none => simp
  | some n =>
    unfold System.notify
    by_cases hroom : s.channel.length < cfg.notifyCapacity <;> simp [hroom]

def unprovided (wf : Workflow) (name : String) : Bool :=
  (agentDef wf name).any (fun d => !wf.hasProvider d.model)

/-- A suspended workflow that cannot re-spawn its agent, or cannot fork it. -/
def silent (wf : Workflow) (fresh : Fresh) (child : Option ActorRef) (state : WorkflowState) :
    WorkflowCommand → Bool
  | .resume _ =>
    decide (state.status = .suspended) && state.currentSessionId.isSome && child.isNone &&
      state.currentAgent.any (unprovided wf)
  | .fork _ _ =>
    decide (state.status = .suspended) && state.currentAgent.any (fun name =>
      (agentDef wf name).isSome && (!fresh.copied.isOk || unprovided wf name))
  | _ => false

def movesOn (wf : Workflow) (state : WorkflowState) (output : Value) : Bool :=
  state.currentAgent.any (fun source =>
    (findNextTransition wf output
      (((agentDef wf source).bind WorkflowAgentDef.transitions).getD [])).any
        (fun t => spawnable wf t.1))

def announces (wf : Workflow) (child : Option ActorRef) (state : WorkflowState) :
    WorkflowCommand → Bool
  | .start _ => !spawnable wf wf.definition.start
  | .cancel => true
  | .resume _ =>
    decide (state.status = .awaitingUserInput) && state.pendingToolCall.isSome &&
      state.currentSessionId.isSome && child.isNone && state.currentAgent.any (unprovided wf)
  | .fork _ _ => false
  | .agentConcluded sessionId output =>
    state.currentSessionId == some sessionId && !movesOn wf state output
  | .agentFailed sessionId _ _ => state.currentSessionId == some sessionId
  | .agentAsked sessionId _ _ => state.currentSessionId == some sessionId

/-- What a reply says and persists, given whether it is silent and whether it announces. -/
structure Says (quiet speaks : Bool) (question : String) (reply : Reply) : Prop where
  paired : quiet = false → reply.notified.toList = announcements question reply.effect.events
  unheard : quiet = true → reply.notified = none ∧ announcements question reply.effect.events ≠ []
  spoken : quiet = false → (speaks = true ↔ reply.notified ≠ none)

section Replies

variable {wf : Workflow} {fresh : Fresh} {child : Option ActorRef} {state : WorkflowState}
  {question : String}

theorem says_ignored : Says false false question (ignored child) :=
  ⟨fun _ => rfl, fun h => by contradiction, fun _ => by simp [ignored]⟩

theorem says_failed (error : String) : Says false true question (failed child error true) :=
  ⟨fun _ => rfl, fun h => by contradiction, fun _ => by simp [failed]⟩

theorem says_unheard (error : String) (speaks : Bool) (copied : Option (Uuid × Uuid)) :
    Says true speaks question { failed child error false with copied := copied } :=
  ⟨fun h => by contradiction, fun _ => ⟨rfl, by simp [failed, announcements, announcement]⟩,
    fun h => by contradiction⟩

theorem says_finished (output : Value) : Says false true question (finished child output) :=
  ⟨fun _ => rfl, fun h => by contradiction, fun _ => by simp [finished]⟩

/-- Nothing pushed, and nothing to push. -/
theorem says_nothing {reply : Reply} (hnotified : reply.notified = none)
    (hnone : announcements question reply.effect.events = []) :
    Says false false question reply :=
  ⟨fun _ => by rw [hnotified, hnone]; rfl, fun h => by contradiction, fun _ => by simp [hnotified]⟩

theorem spawnAgent_provided {d : WorkflowAgentDef} (h : wf.hasProvider d.model = true) :
    spawnAgent wf d = .ok () := by
  simp [spawnAgent, h]

theorem spawnAgent_unprovided {d : WorkflowAgentDef} (h : wf.hasProvider d.model = false) :
    ∃ error, spawnAgent wf d = .error error := by
  simp [spawnAgent, h]

theorem unprovided_eq {name : String} {d : WorkflowAgentDef} (hdef : agentDef wf name = some d) :
    unprovided wf name = !wf.hasProvider d.model := by
  simp [unprovided, hdef]

theorem spawnable_eq {name : String} {d : WorkflowAgentDef} (hdef : agentDef wf name = some d) :
    spawnable wf name = wf.hasProvider d.model := by
  simp [spawnable, hdef]

/-- Entering an agent says nothing, unless its provider is not there. -/
theorem spawn_says {d : WorkflowAgentDef} (quiet speaks : Bool) {reply : Reply}
    {failure : String → Reply} (hreply : Says false false question reply)
    (hfailure : ∀ error, Says quiet speaks question (failure error)) :
    Says (quiet && !wf.hasProvider d.model) (speaks && !wf.hasProvider d.model) question
      (match spawnAgent wf d with
        | .error error => failure error
        | .ok () => reply) := by
  cases hprovider : wf.hasProvider d.model with
  | true =>
    rw [spawnAgent_provided hprovider, Bool.not_true, Bool.and_false, Bool.and_false]
    exact hreply
  | false =>
    obtain ⟨error, hspawn⟩ := spawnAgent_unprovided hprovider
    rw [hspawn, Bool.not_false, Bool.and_true, Bool.and_true]
    exact hfailure error

theorem onStart_says (input : String) :
    Says false (!spawnable wf wf.definition.start) question (onStart wf fresh child input) := by
  unfold onStart
  dsimp only
  cases hdef : agentDef wf wf.definition.start with
  | none =>
    have hnot : spawnable wf wf.definition.start = false := by simp [spawnable, hdef]
    rw [hnot]
    exact says_failed _
  | some d =>
    rw [spawnable_eq hdef]
    exact spawn_says false true (says_nothing rfl rfl) says_failed

theorem onConcluded_says (sessionId : Uuid) (output : Value) :
    Says false (state.currentSessionId == some sessionId && !movesOn wf state output) question
      (onConcluded wf fresh child state sessionId output) := by
  unfold onConcluded
  split
  · rename_i hstale
    rw [beq_eq_false_iff_ne.mpr hstale]
    exact says_ignored
  · rename_i hcurrent
    rw [not_not.mp hcurrent, beq_self_eq_true, Bool.true_and]
    unfold movesOn
    cases state.currentAgent with
    | none => exact says_finished output
    | some source =>
      simp only [Option.any_some]
      generalize ((agentDef wf source).bind WorkflowAgentDef.transitions).getD [] = transitions
      cases findNextTransition wf output transitions with
      | none => exact says_finished output
      | some t =>
        obtain ⟨target, condition⟩ := t
        simp only [Option.any_some]
        cases hdef : agentDef wf target with
        | none =>
          have hnot : spawnable wf target = false := by simp [spawnable, hdef]
          rw [hnot]
          exact says_failed _
        | some d =>
          rw [spawnable_eq hdef]
          exact spawn_says false true (says_nothing rfl rfl) says_failed

/-- Resuming fails aloud or in silence, if it fails. -/
theorem resumeWith_says (agentName : String) (sessionId : Uuid) (command : AgentCommand)
    (notify : Bool) :
    Says (!notify && (child.isNone && unprovided wf agentName))
      (notify && (child.isNone && unprovided wf agentName)) question
      (resumeWith wf fresh child agentName sessionId command notify) := by
  unfold resumeWith
  cases child with
  | some ref =>
    rw [Option.isNone_some, Bool.false_and, Bool.and_false, Bool.and_false]
    exact ⟨fun _ => rfl, fun h => by contradiction, fun _ => by simp⟩
  | none =>
    rw [Option.isNone_none, Bool.true_and]
    cases hdef : agentDef wf agentName with
    | none =>
      have hnot : unprovided wf agentName = false := by simp [unprovided, hdef]
      rw [hnot, Bool.and_false, Bool.and_false]
      exact says_ignored
    | some d =>
      rw [unprovided_eq hdef]
      refine spawn_says (!notify) notify (says_nothing rfl rfl) (fun error => ?_)
      cases notify with
      | true => exact says_failed error
      | false => exact says_unheard error false none

theorem onResume_says (message : String) :
    Says (silent wf fresh child state (.resume message))
      (announces wf child state (.resume message)) question
      (onResume wf fresh child state message) := by
  unfold onResume silent announces
  cases state.status with
  | awaitingUserInput =>
    cases state.pendingToolCall with
    | none => simpa using says_ignored
    | some toolCallId =>
      cases state.currentSessionId with
      | none => simpa using says_ignored
      | some sessionId =>
        cases state.currentAgent with
        | none => simpa using says_ignored
        | some agentName =>
          simpa using
            resumeWith_says agentName sessionId (.injectToolResult toolCallId message) true
  | suspended =>
    cases state.currentSessionId with
    | none => simpa using says_ignored
    | some sessionId =>
      cases state.currentAgent with
      | none => simpa using says_ignored
      | some agentName => simpa using resumeWith_says agentName sessionId (.run message) false
  | _ => simpa using says_ignored

theorem onFork_says (source : Uuid) (message : String) :
    Says (silent wf fresh child state (.fork source message)) false question
      (onFork wf fresh child state source message) := by
  unfold onFork silent
  dsimp only
  by_cases hstatus : state.status = .suspended
  · rw [if_neg (not_not.mpr hstatus), decide_eq_true hstatus, Bool.true_and]
    cases state.currentAgent with
    | none => exact says_ignored
    | some agentName =>
      simp only [Option.any_some]
      cases hdef : agentDef wf agentName with
      | none => exact says_ignored
      | some d =>
        rw [unprovided_eq hdef]
        cases fresh.copied with
        | error e => exact says_unheard _ false none
        | ok _ =>
          exact spawn_says true false (says_nothing rfl rfl)
            (fun error => says_unheard error false (some (source, fresh.sessionId)))
  · rw [if_pos hstatus, decide_eq_false hstatus]
    exact says_ignored

theorem handleCommand_says (command : WorkflowCommand) :
    Says (silent wf fresh child state command) (announces wf child state command)
      (Announcements.question command) (handleCommand wf fresh child state command) := by
  cases command with
  | start input => exact onStart_says input
  | cancel =>
    exact ⟨fun _ => rfl, fun h => by contradiction, fun _ => by simp [announces, handleCommand]⟩
  | resume message => exact onResume_says message
  | fork source message => exact onFork_says source message
  | agentConcluded sessionId output => exact onConcluded_says sessionId output
  | agentAsked sessionId toolCallId asked =>
    simp only [handleCommand, announces, silent]
    split
    · rename_i hstale
      rw [beq_eq_false_iff_ne.mpr hstale]
      exact says_ignored
    · rename_i hcurrent
      rw [not_not.mp hcurrent, beq_self_eq_true]
      exact ⟨fun _ => rfl, fun h => by contradiction, fun _ => by simp⟩
  | agentFailed sessionId error recoverable =>
    simp only [handleCommand, announces, silent]
    split
    · rename_i hstale
      rw [beq_eq_false_iff_ne.mpr hstale]
      exact says_ignored
    · rename_i hcurrent
      rw [not_not.mp hcurrent, beq_self_eq_true]
      cases recoverable with
      | true => exact ⟨fun _ => rfl, fun h => by contradiction, fun _ => by simp⟩
      | false => exact ⟨fun _ => rfl, fun h => by contradiction, fun _ => by simp⟩

end Replies

/-- A handled command pushes what its events announce, exactly if it is not one of the
silent failures and the channel takes the notification, if there is one. -/
theorem pushed_iff (wf : Workflow) (fresh : Fresh) (child : Option ActorRef)
    (state : WorkflowState) (command : WorkflowCommand) (accepts : Bool) :
    pushed accepts (handleCommand wf fresh child state command) =
        announcements (question command)
          (handleCommand wf fresh child state command).effect.events ↔
      silent wf fresh child state command = false ∧
        (announces wf child state command = true → accepts = true) := by
  have hsays : Says (silent wf fresh child state command) (announces wf child state command)
      (question command) (handleCommand wf fresh child state command) :=
    handleCommand_says command
  obtain ⟨hpaired, hunheard, hspoken⟩ := hsays
  unfold pushed
  cases hsilent : silent wf fresh child state command with
  | true =>
    obtain ⟨hnone, hevents⟩ := hunheard hsilent
    rw [hnone]
    simp [Ne.symm hevents]
  | false =>
    rw [← hpaired hsilent, hspoken hsilent]
    cases accepts with
    | true => simp
    | false => simp

def stranded : WorkflowState := ⟨.suspended, some "solo", some 0, none⟩

theorem failure_unheard :
    ¬ ∀ (wf : Workflow) (fresh : Fresh) (child : Option ActorRef) (state : WorkflowState)
        (command : WorkflowCommand),
      pushed true (handleCommand wf fresh child state command) =
        announcements (question command)
          (handleCommand wf fresh child state command).effect.events := by
  intro h
  have hpushed := h { (solo .inMemory).workflow with hasProvider := fun _ => false } ⟨1, 0, .ok ()⟩
    none stranded (.resume "more")
  have hlength := congrArg List.length hpushed
  contradiction

end October.Announcements
