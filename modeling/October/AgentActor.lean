import October.AgentLoop
import October.Journal
import October.WorkflowDefinition

/-!
The agent actor: one conversation, journaled as coarse events. A command either
starts a background run of the agent loop or records what a run did; a finished
run is reported to the workflow. A run is retried on provider errors, each attempt
with a new agent over the same history.
-/
namespace October

def concludeTool : String := "conclude"

structure AgentParams where
  systemPrompt : Option String
  hasOutputSchema : Bool
  allowAskUser : Bool
  maxIterations : Option ℕ
  maxRetries : ℕ

namespace AgentParams

def fromDef (d : WorkflowAgentDef) : AgentParams where
  systemPrompt := d.systemPrompt
  hasOutputSchema := d.outputSchema.isSome
  allowAskUser := d.allowAskUser
  maxIterations := d.maxIterations
  maxRetries := d.maxRetries.getD 0

def handoffTool (p : AgentParams) : Option String :=
  if p.hasOutputSchema || p.allowAskUser then some concludeTool else none

end AgentParams

inductive AgentDomainEvent where
  | inputMessage (message : Message)
  | messageComplete (message : Message)
  | toolComplete (toolCallId output : String) (isError : Bool)
  | runComplete (usage : Usage) (iterations : ℕ)
  | runCancelled

structure AgentState where
  messages : List Message

inductive RunOutcome where
  | completed (text : String)
  | concluded (data : Value) (toolCallId : Option String)
  | cancelled
  | failed (error : String) (recoverable : Bool)

inductive AgentCommand where
  | run (input : String)
  | injectToolResult (toolCallId content : String)
  | cancel
  | persistProgress (events : List AgentDomainEvent)
  | runFinished (outcome : RunOutcome)

namespace AgentActor

def initialState : AgentState := ⟨[]⟩

def applyEvent (state : AgentState) : AgentDomainEvent → AgentState
  | .inputMessage message => ⟨state.messages ++ [message]⟩
  | .messageComplete message => ⟨state.messages ++ [message]⟩
  | .toolComplete toolCallId output isError =>
    ⟨state.messages ++ [Message.toolResult toolCallId output isError]⟩
  | .runComplete _ _ => state
  | .runCancelled => state

def coarseEvent : AgentEvent → Option AgentDomainEvent
  | .messageComplete _ message => some (.messageComplete message)
  | .toolComplete _ toolCallId output isError => some (.toolComplete toolCallId output isError)
  | .runComplete _ usage iterations => some (.runComplete usage iterations)
  | .inputMessage _ _ => none
  | .messageStart _ _ => none
  | .messageStop _ => none
  | .stream _ => none
  | .toolExecuting _ _ => none

def resultIds (parts : List ContentPart) : List String :=
  parts.filterMap (fun p => match p with
    | .toolResult toolCallId _ _ => some toolCallId
    | _ => none)

def callIds (parts : List ContentPart) : List String :=
  (extractToolCalls parts).map ToolCall.id

def sanitizeForResume (messages : List Message) : List Message :=
  let answered := messages.flatMap (fun m => resultIds m.parts)
  let dangling := match messages.reverse.find? (fun m => m.role == .assistant) with
    | none => []
    | some m => (callIds m.parts).filter (fun id => decide (id ∉ answered))
  messages ++ dangling.map (fun id =>
    Message.toolResult id "interrupted by shutdown, not completed" true)

def findToolCallId (events : List AgentEvent) (toolName : String) : Option String :=
  events.reverse.findSome? (fun e => match e with
    | .messageComplete _ message =>
      ((extractToolCalls message.parts).find? (fun c => c.name == toolName)).map ToolCall.id
    | _ => none)

structure RunConfig where
  validatorFor : Value → Except String Validator
  tools : List ToolSpec
  systemPrompt : String
  handoffTool : Option String
  maxIterations : Option ℕ
  maxRetries : ℕ

def RunConfig.build (cfg : RunConfig) (history : List Message) : Except AgentBuildError Agent :=
  Agent.build cfg.validatorFor cfg.tools cfg.systemPrompt cfg.handoffTool
    { AgentConfig.default with
      maxIterations := cfg.maxIterations.getD AgentConfig.default.maxIterations }
    history

/-- What the world does during one attempt, with the attempt's fresh run id. -/
structure Attempt where
  runId : String
  turns : ℕ → Turn

/-- A background run that returned: its outcome, all events it emitted and requests
it made, and the history of the agent instance that produced the outcome. -/
structure RunResult where
  outcome : RunOutcome
  emitted : List AgentEvent
  requests : List CompletionRequest
  finalHistory : Option (List Message)

def RunResult.after (result : RunResult) (earlier : RunState) : RunResult :=
  { result with
    emitted := earlier.emitted ++ result.emitted
    requests := earlier.requests ++ result.requests }

def returned (s : RunState) (outcome : RunOutcome) : RunResult :=
  ⟨outcome, s.emitted, s.requests, some s.history⟩

def outcomeOf (captured : List AgentEvent) : AgentResult → RunOutcome
  | .completed text => .completed text
  | .handoff toolName data => .concluded data (findToolCallId captured toolName)

/-- The retry loop; `retries` are left when attempt number `n` starts. -/
def attemptLoop (cfg : RunConfig) (history : List Message) (input : AgentInput)
    (attempts : ℕ → Attempt) : ℕ → ℕ → RunResult
  | retries, n =>
    match cfg.build history with
    | .error e => ⟨.failed e.display false, [], [], none⟩
    | .ok agent =>
      let ran := agent.run input (attempts n).runId (attempts n).turns
      match ran.2 with
      | .ok output => returned ran.1 (outcomeOf ran.1.emitted output.result)
      | .error .cancelled => returned ran.1 .cancelled
      | .error (.provider e) =>
        match retries with
        | 0 => returned ran.1 (.failed e.display true)
        | retries + 1 => (attemptLoop cfg history input attempts retries (n + 1)).after ran.1
      | .error e => returned ran.1 (.failed e.display false)

def runWithRetries (cfg : RunConfig) (history : List Message) (input : AgentInput)
    (attempts : ℕ → Attempt) : RunResult :=
  attemptLoop cfg history input attempts cfg.maxRetries 0

section Attempts

variable {cfg : RunConfig} {history : List Message} (input : AgentInput) (attempts : ℕ → Attempt)

theorem build_ok (agent : Agent) (h : cfg.build history = .ok agent) :
    agent.history = history ∧ 0 < agent.config.handoffMaxRetries := by
  unfold RunConfig.build Agent.build at h
  split at h
  · contradiction
  · split at h
    · cases Except.ok.inj h
      exact ⟨rfl, Nat.succ_pos 1⟩
    · split at h
      · contradiction
      · split at h
        · contradiction
        · cases Except.ok.inj h
          exact ⟨rfl, Nat.succ_pos 1⟩

def ran (agent : Agent) (n : ℕ) : RunState × Except AgentError AgentOutput :=
  agent.run input (attempts n).runId (attempts n).turns

def decided (s : RunState) : Except AgentError AgentOutput → RunOutcome
  | .ok output => outcomeOf s.emitted output.result
  | .error .cancelled => .cancelled
  | .error (.provider e) => .failed e.display true
  | .error e => .failed e.display false

/-- An attempt is followed by a retry or decides the outcome. -/
theorem attemptLoop_cases (agent : Agent) (hbuild : cfg.build history = .ok agent)
    (retries n : ℕ) :
    (∃ e left, (ran input attempts agent n).2 = .error (.provider e) ∧ retries = left + 1 ∧
      attemptLoop cfg history input attempts retries n =
        (attemptLoop cfg history input attempts left (n + 1)).after
          (ran input attempts agent n).1) ∨
    (((∃ e, (ran input attempts agent n).2 = .error (.provider e)) → retries = 0) ∧
      attemptLoop cfg history input attempts retries n =
        returned (ran input attempts agent n).1
          (decided (ran input attempts agent n).1 (ran input attempts agent n).2)) := by
  rw [attemptLoop, hbuild]
  unfold ran
  dsimp only
  generalize agent.run input (attempts n).runId (attempts n).turns = r
  obtain ⟨s, result⟩ := r
  cases result with
  | ok output => exact Or.inr ⟨by simp, rfl⟩
  | error e =>
    cases e with
    | provider e =>
      cases retries with
      | zero => exact Or.inr ⟨fun _ => rfl, rfl⟩
      | succ left => exact Or.inl ⟨e, left, rfl, rfl, rfl⟩
    | _ => exact Or.inr ⟨by simp, rfl⟩

/-- What holds of the attempt that decides, and is kept by the retries before it, holds
of the whole loop. -/
theorem attemptLoop_induction {P : ℕ → RunResult → Prop} (agent : Agent)
    (hbuild : cfg.build history = .ok agent)
    (hlast : ∀ n, P n (returned (ran input attempts agent n).1
      (decided (ran input attempts agent n).1 (ran input attempts agent n).2)))
    (hretry : ∀ n e result, (ran input attempts agent n).2 = .error (.provider e) →
      P (n + 1) result → P n (result.after (ran input attempts agent n).1))
    (retries n : ℕ) : P n (attemptLoop cfg history input attempts retries n) := by
  induction retries generalizing n with
  | zero =>
    rcases attemptLoop_cases input attempts agent hbuild 0 n with
      ⟨_, _, _, hretries, _⟩ | ⟨_, hloop⟩
    · cases hretries
    · rw [hloop]
      exact hlast n
  | succ retries ih =>
    rcases attemptLoop_cases input attempts agent hbuild (retries + 1) n with
      ⟨e, left, hfailed, hretries, hloop⟩ | ⟨_, hloop⟩
    · cases hretries
      rw [hloop]
      exact hretry n e _ hfailed (ih (n + 1))
    · rw [hloop]
      exact hlast n

end Attempts

inductive Conclusion where
  | output (output : Value)
  | ask (toolCallId : Option String) (question : String)

def extractQuestion (data : Value) : String := ((data.get "question").bind Value.asStr).getD ""

/-- Whether a conclude payload is a final output or an ask. -/
def interpret (p : AgentParams) (data : Value) (toolCallId : Option String) : Conclusion :=
  match p.hasOutputSchema, p.allowAskUser with
  | true, true =>
    if ((data.get "kind").bind Value.asStr).getD "submit" = "ask" then
      .ask toolCallId (extractQuestion data)
    else .output ((data.get "output").getD .null)
  | true, false => .output data
  | false, true => .ask toolCallId (extractQuestion data)
  | false, false => .output data

end AgentActor

open AgentActor

/-- The in-memory part of an agent actor; `running` is the run whose token it holds. -/
structure AgentActor where
  sessionId : Uuid
  params : AgentParams
  running : Option ℕ

/-- What a handler does besides the effect it returns. -/
inductive AgentAction where
  | startRun (input : AgentInput) (history : List Message)
  | cancelRun (run : ℕ)
  | tellParent (command : WorkflowCommand)

namespace AgentActor

def runConfig (validatorFor : Value → Except String Validator) (tools : List ToolSpec)
    (p : AgentParams) : RunConfig where
  validatorFor := validatorFor
  tools := tools
  systemPrompt := p.systemPrompt.getD ""
  handoffTool := p.handoffTool
  maxIterations := p.maxIterations
  maxRetries := p.maxRetries

/-- The input message is persisted by the handler that starts the run. -/
def startRun (actor : AgentActor) (run : ℕ) (input : AgentInput) (history : List Message) :
    AgentActor × List AgentAction :=
  ({ actor with running := some run }, [.startRun input history])

def handleFinished (actor : AgentActor) (outcome : RunOutcome) :
    AgentActor × List AgentAction × CommandEffect AgentDomainEvent :=
  let actor := { actor with running := none }
  match outcome with
  | .completed text =>
    (actor, [.tellParent (.agentConcluded actor.sessionId (.string text))], .stop)
  | .concluded data toolCallId =>
    match interpret actor.params data toolCallId with
    | .output output => (actor, [.tellParent (.agentConcluded actor.sessionId output)], .stop)
    | .ask toolCallId question =>
      (actor, [.tellParent (.agentAsked actor.sessionId toolCallId question)], .snapshot)
  | .cancelled => (actor, [], .persistAndSnapshot [.runCancelled])
  | .failed error recoverable =>
    (actor, [.tellParent (.agentFailed actor.sessionId error recoverable)], .stop)

/-- `run` numbers a run started here, `messageId` is a fresh message id. -/
def handleCommand (actor : AgentActor) (state : AgentState) (run : ℕ) (messageId : String) :
    AgentCommand → AgentActor × List AgentAction × CommandEffect AgentDomainEvent
  | .run input =>
    let agentInput := AgentInput.userMessage messageId input
    let started := actor.startRun run agentInput state.messages
    (started.1, started.2, .persist [.inputMessage agentInput.toMessage])
  | .injectToolResult toolCallId content =>
    let agentInput := AgentInput.toolResult toolCallId content false
    let started := actor.startRun run agentInput state.messages
    (started.1, started.2, .persist [.inputMessage agentInput.toMessage])
  | .persistProgress events => (actor, [], .persist events)
  | .cancel => (actor, (actor.running.map AgentAction.cancelRun).toList, .none)
  | .runFinished outcome => actor.handleFinished outcome

def onRecoveryComplete (actor : AgentActor) (state : AgentState) (run : ℕ)
    (messageId : String) : AgentActor × List AgentAction :=
  match state.messages with
  | [] => (actor, [])
  | _ :: _ =>
    actor.startRun run (.userMessage messageId "continue the interrupted task")
      (sanitizeForResume state.messages)

def startsRun (messageId : String) : AgentCommand → Option AgentInput
  | .run input => some (.userMessage messageId input)
  | .injectToolResult toolCallId content => some (.toolResult toolCallId content false)
  | _ => none

inductive Handled (actor : AgentActor) (state : AgentState) (run : ℕ) (messageId : String) :
    AgentCommand → AgentActor × List AgentAction × CommandEffect AgentDomainEvent → Prop
  | started (command : AgentCommand) (input : AgentInput) :
      startsRun messageId command = some input →
      Handled actor state run messageId command
        ({ actor with running := some run }, [.startRun input state.messages],
          .persist [.inputMessage input.toMessage])
  | progressed (events : List AgentDomainEvent) :
      Handled actor state run messageId (.persistProgress events) (actor, [], .persist events)
  | cancelled :
      Handled actor state run messageId .cancel
        (actor, (actor.running.map AgentAction.cancelRun).toList, .none)
  | ended :
      Handled actor state run messageId (.runFinished .cancelled)
        ({ actor with running := none }, [], .persistAndSnapshot [.runCancelled])
  | reported (outcome : RunOutcome) (report : WorkflowCommand) :
      report.reports = some actor.sessionId → report.isFinal = true →
      Handled actor state run messageId (.runFinished outcome)
        ({ actor with running := none }, [.tellParent report], .stop)
  | asked (outcome : RunOutcome) (toolCallId : Option String) (question : String) :
      Handled actor state run messageId (.runFinished outcome)
        ({ actor with running := none },
          [.tellParent (.agentAsked actor.sessionId toolCallId question)], .snapshot)

theorem handleCommand_handled (actor : AgentActor) (state : AgentState) (run : ℕ)
    (messageId : String) (command : AgentCommand) :
    Handled actor state run messageId command
      (actor.handleCommand state run messageId command) := by
  cases command with
  | run input => exact Handled.started _ _ rfl
  | injectToolResult toolCallId content => exact Handled.started _ _ rfl
  | cancel => exact Handled.cancelled
  | persistProgress events => exact Handled.progressed events
  | runFinished outcome =>
    cases outcome with
    | completed text => exact Handled.reported _ _ rfl rfl
    | cancelled => exact Handled.ended
    | failed error recoverable => exact Handled.reported _ _ rfl rfl
    | concluded data toolCallId =>
      simp only [handleCommand, handleFinished]
      split
      · exact Handled.reported _ _ rfl rfl
      · exact Handled.asked _ _ _

end AgentActor

end October
