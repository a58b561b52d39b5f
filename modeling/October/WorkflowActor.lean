import October.AgentActor

/-!
The workflow actor: it spawns one agent actor per session, routes an agent's output
along the transitions of the graph and records the status of the run. A handler is
a function of the persisted state, the child it holds and the fresh names it may
use; what it does besides its effect is at most one of each kind, in the order of
the fields of `Reply`.
-/
namespace October

abbrev ActorRef := ℕ

inductive WorkflowDomainEvent where
  | workflowStarted
  | agentStarted (agentName : String) (sessionId : Uuid) (input : String)
  | agentTransitioned (source target : String) (fromSession toSession : Uuid)
      (condition : Option String)
  | workflowFinished (output : Value)
  | workflowSuspended
  | workflowFailed (error : String) (recoverable : Bool)
  | workflowPaused (sessionId : Uuid) (toolCallId : Option String)
  | workflowResumed

inductive WorkflowStatus where
  | pending
  | running
  | suspended
  | awaitingUserInput
  | finished
  | failed
  deriving DecidableEq, Repr

inductive WorkflowNotification where
  | awaitingUserInput (question : String)
  | suspended
  | finished (output : Value)
  | failed (error : String)

structure WorkflowState where
  status : WorkflowStatus
  currentAgent : Option String
  currentSessionId : Option Uuid
  pendingToolCall : Option String
  deriving DecidableEq, Repr

/-- What a workflow actor is constructed with. `hasProvider` is the provider registry;
`evalCondition` evaluates a transition condition with `output` bound to a value. -/
structure Workflow where
  definition : WorkflowDefinition
  hasProvider : String → Bool
  evalCondition : String → Value → Except String Value

/-- The names a handler may draw, and what copying a snapshot returned. -/
structure Fresh where
  sessionId : Uuid
  ref : ActorRef
  copied : JournalResult Unit

/-- What a handler did: the child it now holds, the snapshot it copied, the agent it
spawned at the fresh reference, the command it told, its notification, its effect. -/
structure Reply where
  child : Option ActorRef
  copied : Option (Uuid × Uuid)
  spawned : Option (WorkflowAgentDef × Uuid)
  told : Option (ActorRef × AgentCommand)
  notified : Option WorkflowNotification
  effect : CommandEffect WorkflowDomainEvent

namespace WorkflowActor

def initialState : WorkflowState := ⟨.pending, none, none, none⟩

def applyEvent (state : WorkflowState) : WorkflowDomainEvent → WorkflowState
  | .workflowStarted => { state with status := .running }
  | .agentStarted agentName sessionId _ =>
    { state with
      currentAgent := some agentName, currentSessionId := some sessionId, status := .running }
  | .agentTransitioned _ target _ toSession _ =>
    { state with
      currentAgent := some target, currentSessionId := some toSession, status := .running }
  | .workflowFinished _ => { state with status := .finished }
  | .workflowSuspended => { state with status := .suspended }
  | .workflowFailed _ _ => { state with status := .failed }
  | .workflowPaused _ toolCallId =>
    { state with status := .awaitingUserInput, pendingToolCall := toolCallId }
  | .workflowResumed => { state with status := .running, pendingToolCall := none }

def fold (log : List WorkflowDomainEvent) : WorkflowState := log.foldl applyEvent initialState

theorem fold_append (log events : List WorkflowDomainEvent) :
    fold (log ++ events) = events.foldl applyEvent (fold log) := List.foldl_append

def outputAsInput (output : Value) : String := output.asStr.getD output.display

variable (wf : Workflow)

def agentDef (name : String) : Option WorkflowAgentDef :=
  wf.definition.agents.find? (fun a => a.name == name)

def spawnAgent (d : WorkflowAgentDef) : Except String Unit :=
  if wf.hasProvider d.model then .ok ()
  else .error ("no provider registered for model '" ++ d.model ++ "'")

def findNextTransition (output : Value) :
    List WorkflowTransition → Option (String × Option String)
  | [] => none
  | t :: rest =>
    match t.condition with
    | none => some (t.target, none)
    | some condition =>
      match wf.evalCondition condition output with
      | .ok v =>
        if v.asBool = some true then some (t.target, some condition)
        else findNextTransition output rest
      | .error _ => findNextTransition output rest

def ignored (child : Option ActorRef) : Reply := ⟨child, none, none, none, none, .none⟩

/-- The workflow fails for good; some paths notify the observer and some do not. -/
def failed (child : Option ActorRef) (error : String) (notify : Bool) : Reply :=
  ⟨child, none, none, none, if notify then some (.failed error) else none,
    .persistAndStop [.workflowFailed error false]⟩

def finished (child : Option ActorRef) (output : Value) : Reply :=
  ⟨child, none, none, none, some (.finished output), .persistAndStop [.workflowFinished output]⟩

def entered (fresh : Fresh) (d : WorkflowAgentDef) (sessionId : Uuid) (command : AgentCommand)
    (effect : CommandEffect WorkflowDomainEvent) : Reply :=
  ⟨some fresh.ref, none, some (d, sessionId), some (fresh.ref, command), none, effect⟩

def onStart (fresh : Fresh) (child : Option ActorRef) (input : String) : Reply :=
  let startName := wf.definition.start
  match agentDef wf startName with
  | none => failed child ("start agent '" ++ startName ++ "' not found") true
  | some d =>
    match spawnAgent wf d with
    | .error error => failed child error true
    | .ok () =>
      entered fresh d fresh.sessionId (.run input)
        (.persist [.workflowStarted, .agentStarted startName fresh.sessionId input])

def onConcluded (fresh : Fresh) (child : Option ActorRef) (state : WorkflowState)
    (sessionId : Uuid) (output : Value) : Reply :=
  if state.currentSessionId ≠ some sessionId then ignored child
  else
    match state.currentAgent with
    | none => finished child output
    | some fromAgent =>
      let transitions := ((agentDef wf fromAgent).bind WorkflowAgentDef.transitions).getD []
      match findNextTransition wf output transitions with
      | none => finished child output
      | some (target, condition) =>
        match agentDef wf target with
        | none => failed child ("transition target agent '" ++ target ++ "' not found") true
        | some d =>
          let input := outputAsInput output
          match spawnAgent wf d with
          | .error error => failed child error true
          | .ok () =>
            entered fresh d fresh.sessionId (.run input)
              (.persist
                [.agentTransitioned fromAgent target sessionId fresh.sessionId condition,
                  .agentStarted target fresh.sessionId input])

/-- Hand a command to the child, or re-spawn the current agent when no handle is held. -/
def resumeWith (fresh : Fresh) (child : Option ActorRef) (agentName : String)
    (sessionId : Uuid) (command : AgentCommand) (notify : Bool) : Reply :=
  match child with
  | some ref => ⟨child, none, none, some (ref, command), none, .none⟩
  | none =>
    match agentDef wf agentName with
    | none => ignored child
    | some d =>
      match spawnAgent wf d with
      | .error error => failed child error notify
      | .ok () => entered fresh d sessionId command .none

def onResume (fresh : Fresh) (child : Option ActorRef) (state : WorkflowState)
    (message : String) : Reply :=
  match state.status with
  | .awaitingUserInput =>
    match state.pendingToolCall, state.currentSessionId, state.currentAgent with
    | some toolCallId, some sessionId, some agentName =>
      resumeWith wf fresh child agentName sessionId (.injectToolResult toolCallId message) true
    | _, _, _ => ignored child
  | .suspended =>
    match state.currentSessionId, state.currentAgent with
    | some sessionId, some agentName =>
      resumeWith wf fresh child agentName sessionId (.run message) false
    | _, _ => ignored child
  | .pending => ignored child
  | .running => ignored child
  | .finished => ignored child
  | .failed => ignored child

def onFork (fresh : Fresh) (child : Option ActorRef) (state : WorkflowState)
    (fromSessionId : Uuid) (message : String) : Reply :=
  if state.status ≠ .suspended then ignored child
  else
    match state.currentAgent with
    | none => ignored child
    | some agentName =>
      match agentDef wf agentName with
      | none => ignored child
      | some d =>
        match fresh.copied with
        | .error e => failed child ("fork failed: " ++ e.display) false
        | .ok () =>
          let copied := some (fromSessionId, fresh.sessionId)
          match spawnAgent wf d with
          | .error error => { failed child error false with copied := copied }
          | .ok () =>
            { entered fresh d fresh.sessionId (.run message)
                (.persist [.agentStarted agentName fresh.sessionId message]) with
              copied := copied }

def handleCommand (fresh : Fresh) (child : Option ActorRef) (state : WorkflowState) :
    WorkflowCommand → Reply
  | .start input => onStart wf fresh child input
  | .cancel =>
    ⟨child, none, none, child.map (fun ref => (ref, .cancel)), some .suspended,
      .persist [.workflowSuspended]⟩
  | .resume message => onResume wf fresh child state message
  | .fork fromSessionId message => onFork wf fresh child state fromSessionId message
  | .agentConcluded sessionId output => onConcluded wf fresh child state sessionId output
  | .agentFailed sessionId error recoverable =>
    if state.currentSessionId ≠ some sessionId then ignored child
    else if recoverable then
      ⟨child, none, none, none, some .suspended, .persist [.workflowSuspended]⟩
    else
      ⟨child, none, none, none, some (.failed error),
        .persistAndStop [.workflowFailed error recoverable]⟩
  | .agentAsked sessionId toolCallId question =>
    if state.currentSessionId ≠ some sessionId then ignored child
    else
      ⟨child, none, none, none, some (.awaitingUserInput question),
        .persist [.workflowPaused sessionId toolCallId]⟩

/-- Re-spawn the current agent of a workflow that was running; no command is sent. -/
def onRecoveryComplete (state : WorkflowState) : Option (WorkflowAgentDef × Uuid) :=
  match state.status with
  | .running =>
    match state.currentAgent, state.currentSessionId with
    | some agentName, some sessionId =>
      match agentDef wf agentName with
      | none => none
      | some d =>
        match spawnAgent wf d with
        | .error _ => none
        | .ok () => some (d, sessionId)
    | _, _ => none
  | _ => none

def resumable (state : WorkflowState) : Bool :=
  match state.status with
  | .suspended => true
  | .awaitingUserInput => state.pendingToolCall.isSome
  | _ => false

def spawnable (name : String) : Bool :=
  (agentDef wf name).any (fun d => wf.hasProvider d.model)

def Spawnable (name : String) (d : WorkflowAgentDef) : Prop :=
  agentDef wf name = some d ∧ wf.hasProvider d.model = true

inductive Handled (fresh : Fresh) (child : Option ActorRef) (state : WorkflowState) :
    WorkflowCommand → Reply → Prop
  | stale (command : WorkflowCommand) (sessionId : Uuid) :
      command.reports = some sessionId → state.currentSessionId ≠ some sessionId →
      Handled fresh child state command (ignored child)
  | unresumed (message : String) : Handled fresh child state (.resume message) (ignored child)
  | unforked (source : Uuid) (message : String) :
      Handled fresh child state (.fork source message) (ignored child)
  | failed (command : WorkflowCommand) (copied : Option (Uuid × Uuid)) (error : String)
      (notify : Bool) :
      (∀ source target, copied = some (source, target) → target = fresh.sessionId) →
      Handled fresh child state command { failed child error notify with copied := copied }
  | finished (sessionId : Uuid) (output : Value) :
      state.currentSessionId = some sessionId →
      Handled fresh child state (.agentConcluded sessionId output) (finished child output)
  | started (input : String) (d : WorkflowAgentDef) :
      Spawnable wf wf.definition.start d →
      Handled fresh child state (.start input)
        (entered fresh d fresh.sessionId (.run input) (.persist
          [.workflowStarted, .agentStarted wf.definition.start fresh.sessionId input]))
  | transitioned (sessionId : Uuid) (output : Value) (source target : String)
      (condition : Option String) (d : WorkflowAgentDef) :
      state.currentSessionId = some sessionId → Spawnable wf target d →
      Handled fresh child state (.agentConcluded sessionId output)
        (entered fresh d fresh.sessionId (.run (outputAsInput output)) (.persist
          [.agentTransitioned source target sessionId fresh.sessionId condition,
            .agentStarted target fresh.sessionId (outputAsInput output)]))
  | forked (source : Uuid) (message agentName : String) (d : WorkflowAgentDef) :
      state.status = .suspended → state.currentAgent = some agentName →
      Spawnable wf agentName d → fresh.copied = .ok () →
      Handled fresh child state (.fork source message)
        { entered fresh d fresh.sessionId (.run message)
            (.persist [.agentStarted agentName fresh.sessionId message]) with
          copied := some (source, fresh.sessionId) }
  | resumed (message : String) (ref : ActorRef) (command : AgentCommand) :
      child = some ref → resumable state = true →
      Handled fresh child state (.resume message)
        ⟨child, none, none, some (ref, command), none, .none⟩
  | respawned (message agentName : String) (sessionId : Uuid) (command : AgentCommand)
      (d : WorkflowAgentDef) :
      child = none → resumable state = true → state.currentSessionId = some sessionId →
      state.currentAgent = some agentName → Spawnable wf agentName d →
      Handled fresh child state (.resume message) (entered fresh d sessionId command .none)
  | cancelled :
      Handled fresh child state .cancel
        ⟨child, none, none, child.map (fun ref => (ref, .cancel)), some .suspended,
          .persist [.workflowSuspended]⟩
  | suspended (sessionId : Uuid) (error : String) :
      state.currentSessionId = some sessionId →
      Handled fresh child state (.agentFailed sessionId error true)
        ⟨child, none, none, none, some .suspended, .persist [.workflowSuspended]⟩
  | paused (sessionId : Uuid) (toolCallId : Option String) (question : String) :
      state.currentSessionId = some sessionId →
      Handled fresh child state (.agentAsked sessionId toolCallId question)
        ⟨child, none, none, none, some (.awaitingUserInput question),
          .persist [.workflowPaused sessionId toolCallId]⟩

variable {wf} {fresh : Fresh} {child : Option ActorRef} {state : WorkflowState}

theorem Spawnable.spawnable {name : String} {d : WorkflowAgentDef} (h : Spawnable wf name d) :
    spawnable wf name = true := by
  unfold WorkflowActor.spawnable
  rw [h.1]
  simpa using h.2

theorem spawnAgent_ok {d : WorkflowAgentDef} (h : spawnAgent wf d = .ok ()) :
    wf.hasProvider d.model = true := by
  unfold spawnAgent at h
  split at h
  · assumption
  · contradiction

theorem onStart_handled (input : String) :
    Handled wf fresh child state (.start input) (onStart wf fresh child input) := by
  unfold onStart
  dsimp only
  cases hdef : agentDef wf wf.definition.start with
  | none => exact Handled.failed _ none _ true (by simp)
  | some d =>
    dsimp only
    cases hspawn : spawnAgent wf d with
    | error error => exact Handled.failed _ none _ true (by simp)
    | ok _ => exact Handled.started input d ⟨hdef, spawnAgent_ok hspawn⟩

theorem onConcluded_handled (sessionId : Uuid) (output : Value) :
    Handled wf fresh child state (.agentConcluded sessionId output)
      (onConcluded wf fresh child state sessionId output) := by
  unfold onConcluded
  split
  · rename_i hstale
    exact Handled.stale _ sessionId rfl hstale
  · rename_i hcurrent
    have hsession : state.currentSessionId = some sessionId := by simpa using hcurrent
    cases state.currentAgent with
    | none => exact Handled.finished sessionId output hsession
    | some fromAgent =>
      dsimp only
      split
      · exact Handled.finished sessionId output hsession
      · rename_i target condition _
        cases hdef : agentDef wf target with
        | none => exact Handled.failed _ none _ true (by simp)
        | some d =>
          dsimp only
          cases hspawn : spawnAgent wf d with
          | error error => exact Handled.failed _ none _ true (by simp)
          | ok _ =>
            exact Handled.transitioned sessionId output fromAgent target condition d hsession
              ⟨hdef, spawnAgent_ok hspawn⟩

theorem resumeWith_handled (message agentName : String) (sessionId : Uuid)
    (command : AgentCommand) (notify : Bool) (hresumable : resumable state = true)
    (hsession : state.currentSessionId = some sessionId)
    (hagent : state.currentAgent = some agentName) :
    Handled wf fresh child state (.resume message)
      (resumeWith wf fresh child agentName sessionId command notify) := by
  unfold resumeWith
  cases child with
  | some ref => exact Handled.resumed message ref command rfl hresumable
  | none =>
    cases hdef : agentDef wf agentName with
    | none => exact Handled.unresumed message
    | some d =>
      dsimp only
      cases hspawn : spawnAgent wf d with
      | error error => exact Handled.failed _ none _ notify (by simp)
      | ok _ =>
        exact Handled.respawned message agentName sessionId command d rfl hresumable hsession
          hagent ⟨hdef, spawnAgent_ok hspawn⟩

theorem onResume_handled (message : String) :
    Handled wf fresh child state (.resume message) (onResume wf fresh child state message) := by
  unfold onResume
  cases hstatus : state.status with
  | awaitingUserInput =>
    dsimp only
    split
    · rename_i toolCallId sessionId agentName hpending hsession hagent
      exact resumeWith_handled message agentName sessionId _ true
        (by simp [resumable, hstatus, hpending]) hsession hagent
    · exact Handled.unresumed message
  | suspended =>
    dsimp only
    split
    · rename_i sessionId agentName hsession hagent
      exact resumeWith_handled message agentName sessionId _ false
        (by simp [resumable, hstatus]) hsession hagent
    · exact Handled.unresumed message
  | _ => exact Handled.unresumed message

theorem onFork_handled (source : Uuid) (message : String) :
    Handled wf fresh child state (.fork source message)
      (onFork wf fresh child state source message) := by
  unfold onFork
  split
  · exact Handled.unforked source message
  · rename_i hstatus
    cases hagent : state.currentAgent with
    | none => exact Handled.unforked source message
    | some agentName =>
      cases hdef : agentDef wf agentName with
      | none =>
        simp only [hdef]
        exact Handled.unforked source message
      | some d =>
        simp only [hdef]
        cases hcopied : fresh.copied with
        | error e => exact Handled.failed _ none _ false (by simp)
        | ok _ =>
          dsimp only
          cases hspawn : spawnAgent wf d with
          | error error => exact 
              Handled.failed _ (some (source, fresh.sessionId)) error false (by simp)
          | ok _ =>
            exact Handled.forked source message agentName d (by simpa using hstatus) hagent
              ⟨hdef, spawnAgent_ok hspawn⟩ hcopied

theorem handleCommand_handled (command : WorkflowCommand) :
    Handled wf fresh child state command (handleCommand wf fresh child state command) := by
  cases command with
  | start input => exact onStart_handled input
  | cancel => exact Handled.cancelled
  | resume message => exact onResume_handled message
  | fork source message => exact onFork_handled source message
  | agentConcluded sessionId output => exact onConcluded_handled sessionId output
  | agentAsked sessionId toolCallId question =>
    simp only [handleCommand]
    split
    · rename_i hstale
      exact Handled.stale _ sessionId rfl hstale
    · rename_i hcurrent
      exact Handled.paused sessionId toolCallId question (by simpa using hcurrent)
  | agentFailed sessionId error recoverable =>
    simp only [handleCommand]
    split
    · rename_i hstale
      exact Handled.stale _ sessionId rfl hstale
    · rename_i hcurrent
      cases recoverable with
      | true => exact Handled.suspended sessionId error (by simpa using hcurrent)
      | false => exact Handled.failed _ none error true (by simp)

theorem onRecoveryComplete_some {d : WorkflowAgentDef} {sessionId : Uuid}
    (h : onRecoveryComplete wf state = some (d, sessionId)) :
    state.status = .running ∧ state.currentSessionId = some sessionId ∧
      ∃ agentName, state.currentAgent = some agentName ∧ Spawnable wf agentName d := by
  unfold onRecoveryComplete at h
  split at h
  · rename_i hstatus
    split at h
    · rename_i agentName current hagent hsession
      split at h
      · contradiction
      · rename_i d' hdef
        split at h
        · contradiction
        · rename_i hspawn
          cases Option.some.inj h
          exact ⟨hstatus, hsession, agentName, hagent, hdef, spawnAgent_ok hspawn⟩
    · contradiction
  · contradiction

theorem onRecoveryComplete_running {agentName : String} {sessionId : Uuid}
    (hstatus : state.status = .running) (hsession : state.currentSessionId = some sessionId)
    (hagent : state.currentAgent = some agentName) (hspawnable : spawnable wf agentName = true) :
    ∃ d, onRecoveryComplete wf state = some (d, sessionId) := by
  obtain ⟨d, hdef, hprovider⟩ := (Option.any_eq_true _ _).mp hspawnable
  refine ⟨d, ?_⟩
  simp [onRecoveryComplete, hstatus, hsession, hagent, hdef, spawnAgent, hprovider]

end WorkflowActor

end October
