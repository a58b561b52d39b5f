import October.Messages

/-!
The agent loop. A run alternates provider calls with tool executions until the
model ends its turn, hands off, fails or is cancelled. What the world does during
one iteration (the provider's answer, the tools' results, the cancellation token)
is a `Turn`; the loop counts down the iterations its configuration allows.
-/
namespace October

inductive LlmError where
  | rateLimit (retryAfter : Option String)
  | overloaded
  | apiError (status : UInt16) (message : String)
  | network (message : String)
  deriving DecidableEq, Repr

def LlmError.display : LlmError → String
  | .rateLimit none => "rate limited (retry after None)"
  | .rateLimit (some after) => "rate limited (retry after Some(" ++ after ++ "))"
  | .overloaded => "provider overloaded"
  | .apiError status message => "api error " ++ toString status.toNat ++ ": " ++ message
  | .network message => "network error: " ++ message

inductive ToolCallError where
  | invalidInput (message : String)
  | execution (message : String)
  | executionFailed (message : String)
  deriving DecidableEq, Repr

def ToolCallError.display : ToolCallError → String
  | .invalidInput message => "invalid input: " ++ message
  | .execution message => "execution error: " ++ message
  | .executionFailed message => "execution failed: " ++ message

inductive AgentBuildError where
  | invalidConfig (nudge stuck : ℕ)
  | handoffToolNotRegistered (tool : String)
  | invalidHandoffSchema (tool reason : String)
  deriving DecidableEq, Repr

def AgentBuildError.display : AgentBuildError → String
  | .invalidConfig nudge stuck => "nudge_threshold (" ++ toString nudge ++
      ") must be less than stuck_threshold (" ++ toString stuck ++ ")"
  | .handoffToolNotRegistered tool =>
      "handoff tool '" ++ tool ++ "' is not present in the toolbox"
  | .invalidHandoffSchema tool reason =>
      "handoff tool '" ++ tool ++ "' has an invalid input schema: " ++ reason

inductive AgentError where
  | maxIterationsExceeded (max : ℕ)
  | stuckInLoop (toolName : String) (count : ℕ)
  | provider (e : LlmError)
  | handoffValidationFailed (tool reason : String)
  | cancelled
  deriving DecidableEq, Repr

def AgentError.display : AgentError → String
  | .maxIterationsExceeded max => "max iterations exceeded (max=" ++ toString max ++ ")"
  | .stuckInLoop toolName count =>
      "stuck in loop: tool '" ++ toolName ++ "' called identically " ++ toString count ++ " times"
  | .provider e => "provider error: " ++ e.display
  | .handoffValidationFailed tool reason =>
      "handoff tool '" ++ tool ++ "' validation failed after retries: " ++ reason
  | .cancelled => "cancelled"

inductive StreamEvent where
  | textChunk (messageId : String) (index : UInt32) (text : String)
  | thinkingChunk (messageId : String) (index : UInt32) (text : String)
  | toolCallStart (messageId : String) (index : UInt32) (toolCallId name : String)
  | toolCallInputDelta (messageId : String) (index : UInt32) (toolCallId delta : String)
  | toolCallInputDone (messageId : String) (index : UInt32) (toolCallId : String)

inductive AgentEvent where
  | inputMessage (messageId : String) (input : AgentInput)
  | messageStart (messageId : String) (role : Role)
  | messageStop (messageId : String)
  | messageComplete (messageId : String) (message : Message)
  | stream (event : StreamEvent)
  | toolExecuting (messageId toolCallId : String)
  | toolComplete (messageId toolCallId output : String) (isError : Bool)
  | runComplete (messageId : String) (usage : Usage) (iterations : ℕ)

structure ToolSpec where
  name : String
  description : String
  inputSchema : Value

inductive ToolChoice where
  | auto
  | any
  | required (name : String)
  deriving DecidableEq, Repr

structure CompletionRequest where
  messages : List Message
  system : Option String
  tools : List ToolSpec
  toolChoice : ToolChoice
  maxTokens : Option ℕ

inductive StopReason where
  | endTurn
  | toolUse
  | maxTokens
  deriving DecidableEq, Repr

structure CompletionResponse where
  parts : List ContentPart
  stopReason : StopReason
  usage : Usage

/-- A compiled JSON schema: whether a value is valid and the text of the first error. -/
structure Validator where
  isValid : Value → Bool
  firstError : Value → Option String

structure AgentConfig where
  maxIterations : ℕ
  stuckThreshold : ℕ
  nudgeThreshold : ℕ
  maxTokens : Option ℕ
  handoffMaxRetries : ℕ

def AgentConfig.default : AgentConfig := ⟨100, 5, 3, none, 2⟩

structure Agent where
  systemPrompt : String
  tools : List ToolSpec
  handoffTool : Option String
  handoffValidator : Option Validator
  config : AgentConfig
  history : List Message

def Agent.build (validatorFor : Value → Except String Validator) (tools : List ToolSpec)
    (systemPrompt : String) (handoffTool : Option String) (config : AgentConfig)
    (history : List Message) : Except AgentBuildError Agent :=
  if config.stuckThreshold ≤ config.nudgeThreshold then
    .error (.invalidConfig config.nudgeThreshold config.stuckThreshold)
  else
    match handoffTool with
    | none => .ok ⟨systemPrompt, tools, none, none, config, history⟩
    | some name =>
      match tools.find? (fun t => t.name == name) with
      | none => .error (.handoffToolNotRegistered name)
      | some spec =>
        match validatorFor spec.inputSchema with
        | .error reason => .error (.invalidHandoffSchema name reason)
        | .ok validator =>
          .ok ⟨systemPrompt, tools, some name, some validator, config, history⟩

structure ToolCall where
  id : String
  name : String
  input : Value

def extractToolCalls (parts : List ContentPart) : List ToolCall :=
  parts.filterMap (fun p => match p with
    | .toolCall id name input => some ⟨id, name, input⟩
    | _ => none)

def extractText (parts : List ContentPart) : String :=
  String.join (parts.filterMap (fun p => match p with
    | .text text => some text
    | _ => none))

def toolFingerprint (calls : List ToolCall) : String :=
  String.intercalate "|" (calls.map (fun c => c.name ++ ":" ++ c.input.display))

inductive AgentResult where
  | completed (text : String)
  | handoff (toolName : String) (data : Value)

structure AgentOutput where
  result : AgentResult
  usage : Usage

/-- What the world does during one iteration of the loop: the cancellation token at
the top and before the tools run, the fresh id of the assistant message, the
provider's stream and answer, and the result of the i-th tool call. -/
structure Turn where
  cancelled : Bool
  msgId : String
  stream : List StreamEvent
  response : Except LlmError CompletionResponse
  cancelledBeforeTools : Bool
  execute : ℕ → Except ToolCallError Value

/-- The loop's variables, with the events emitted and the requests made so far. -/
structure RunState where
  history : List Message
  totalUsage : Usage
  iteration : ℕ
  recentFingerprints : List String
  handoffRetries : ℕ
  handoffMissingRetries : ℕ
  emitted : List AgentEvent
  requests : List CompletionRequest

namespace RunState

def emit (s : RunState) (e : AgentEvent) : RunState := { s with emitted := s.emitted ++ [e] }

def push (s : RunState) (m : Message) : RunState := { s with history := s.history ++ [m] }

end RunState

inductive Flow where
  | next (s : RunState)
  | done (s : RunState) (result : Except AgentError AgentOutput)

def Flow.state : Flow → RunState
  | .next s => s
  | .done s _ => s

namespace Agent

variable (agent : Agent)

def validateHandoff (handoffName : String) (calls : List ToolCall) (data : Value) :
    Option String :=
  if 1 < calls.length then
    some ("The '" ++ handoffName ++ "' tool must be called on its own, " ++
      "with no other tool calls in the same turn.")
  else
    match agent.handoffValidator with
    | none => none
    | some validator =>
      if validator.isValid data then none
      else some ("Invalid '" ++ handoffName ++ "' input: " ++
        (validator.firstError data).getD "input does not match the tool's schema")

def handoffCall (calls : List ToolCall) : Option (String × Value) :=
  match agent.handoffTool with
  | none => none
  | some name => (calls.find? (fun c => c.name == name)).map (fun c => (name, c.input))

def finish (runId : String) (result : AgentResult) (s : RunState) : Flow :=
  .done (s.emit (.runComplete runId s.totalUsage s.iteration)) (.ok ⟨result, s.totalUsage⟩)

def missingHandoffNudge (handoffName : String) (iteration : ℕ) : Message :=
  Message.user ("nudge-handoff-missing:" ++ toString iteration)
    ("You ended your turn without finishing. Call the '" ++ handoffName ++ "' tool to " ++
      "deliver your output or ask the user; if there is more work to do, call a tool to do it.")

def answerText (runId : String) (response : CompletionResponse) (s : RunState) : Flow :=
  match agent.handoffTool with
  | none => finish runId (.completed (extractText response.parts)) s
  | some name =>
    if agent.config.handoffMaxRetries ≤ s.handoffMissingRetries then
      .done s (.error (.handoffValidationFailed name
        "model ended its turn with text instead of calling the handoff tool"))
    else
      .next (({ s with handoffMissingRetries := s.handoffMissingRetries + 1 }).push
        (missingHandoffNudge name s.iteration))

def rejectionResult (handoffName reason : String) (call : ToolCall) : Message :=
  Message.toolResult call.id
    (if call.name == handoffName then reason
      else "Ignored: call '" ++ handoffName ++ "' on its own to finish, with no other tools.")
    true

def answerHandoff (runId handoffName : String) (data : Value) (calls : List ToolCall)
    (s : RunState) : Flow :=
  match agent.validateHandoff handoffName calls data with
  | none => finish runId (.handoff handoffName data) s
  | some reason =>
    if agent.config.handoffMaxRetries ≤ s.handoffRetries then
      .done s (.error (.handoffValidationFailed handoffName reason))
    else
      .next ({ s with
        handoffRetries := s.handoffRetries + 1
        history := s.history ++ calls.map (rejectionResult handoffName reason) })

def nudgeResult (call : ToolCall) : Message :=
  ⟨"nudge:" ++ call.id, .tool, [.toolResult call.id
    ("You have called this tool with identical arguments multiple times. " ++
      "Please try a different approach.") false]⟩

def toolOutput : Except ToolCallError Value → String × Bool
  | .ok v => (v.display, false)
  | .error e => (e.display, true)

def executeTool (call : ToolCall) (outcome : Except ToolCallError Value) (s : RunState) :
    RunState :=
  let resultMsgId := "result:" ++ call.id
  let output := (toolOutput outcome).1
  let isError := (toolOutput outcome).2
  ((s.emit (.toolExecuting resultMsgId call.id)).emit
    (.toolComplete resultMsgId call.id output isError)).push
      ⟨resultMsgId, .tool, [.toolResult call.id output isError]⟩

def executeTools (execute : ℕ → Except ToolCallError Value) :
    ℕ → List ToolCall → RunState → RunState
  | _, [], s => s
  | i, call :: rest, s => executeTools execute (i + 1) rest (executeTool call (execute i) s)

def toolResults (execute : ℕ → Except ToolCallError Value) : ℕ → List ToolCall → List Message
  | _, [] => []
  | i, call :: rest =>
    Message.toolResult call.id (toolOutput (execute i)).1 (toolOutput (execute i)).2 ::
      toolResults execute (i + 1) rest

def toolEvents (execute : ℕ → Except ToolCallError Value) : ℕ → List ToolCall → List AgentEvent
  | _, [] => []
  | i, call :: rest =>
    .toolExecuting ("result:" ++ call.id) call.id ::
      .toolComplete ("result:" ++ call.id) call.id (toolOutput (execute i)).1
        (toolOutput (execute i)).2 ::
      toolEvents execute (i + 1) rest

/-- Executing tools touches nothing but the history and the events. -/
theorem executeTools_eq (execute : ℕ → Except ToolCallError Value) (i : ℕ)
    (calls : List ToolCall) (s : RunState) :
    executeTools execute i calls s =
      { s with
        history := s.history ++ toolResults execute i calls
        emitted := s.emitted ++ toolEvents execute i calls } := by
  induction calls generalizing i s with
  | nil => simp [executeTools, toolResults, toolEvents]
  | cons call rest ih =>
    rw [executeTools, ih]
    simp [executeTool, toolResults, toolEvents, RunState.emit, RunState.push,
      Message.toolResult]

/-- Remember a fingerprint; at most `stuckThreshold` of them are kept. -/
def remember (fingerprint : String) (recent : List String) : List String :=
  let pushed := recent ++ [fingerprint]
  if agent.config.stuckThreshold < pushed.length then pushed.tail else pushed

def repeats (threshold : ℕ) (fingerprint : String) (recent : List String) : Bool :=
  decide (threshold ≤ recent.length) && recent.all (fun f => f == fingerprint)

def answerTools (turn : Turn) (first : ToolCall) (rest : List ToolCall) (s : RunState) : Flow :=
  let calls := first :: rest
  let fingerprint := toolFingerprint calls
  let recent := agent.remember fingerprint s.recentFingerprints
  let s := { s with recentFingerprints := recent }
  if repeats agent.config.stuckThreshold fingerprint recent then
    .done s (.error (.stuckInLoop first.name agent.config.stuckThreshold))
  else if repeats agent.config.nudgeThreshold fingerprint recent then
    .next { s with history := s.history ++ calls.map nudgeResult }
  else if turn.cancelledBeforeTools then
    .done s (.error .cancelled)
  else
    .next (executeTools turn.execute 0 calls s)

def answer (runId : String) (turn : Turn) (response : CompletionResponse) (s : RunState) : Flow :=
  match extractToolCalls response.parts with
  | [] => agent.answerText runId response s
  | first :: rest =>
    match agent.handoffCall (first :: rest) with
    | some (name, data) => agent.answerHandoff runId name data (first :: rest) s
    | none => agent.answerTools turn first rest s

def request (s : RunState) : CompletionRequest where
  messages := s.history
  system := if agent.systemPrompt = "" then none else some agent.systemPrompt
  tools := agent.tools
  toolChoice := if agent.handoffTool.isSome then .any else .auto
  maxTokens := agent.config.maxTokens

def send (turn : Turn) (s : RunState) : RunState :=
  { s with
    iteration := s.iteration + 1
    requests := s.requests ++ [agent.request s]
    emitted := s.emitted ++ .messageStart turn.msgId .assistant :: turn.stream.map .stream }

def receive (turn : Turn) (response : CompletionResponse) (s : RunState) : RunState :=
  let message : Message := ⟨turn.msgId, .assistant, response.parts⟩
  { s with
    totalUsage := s.totalUsage.add response.usage
    emitted := s.emitted ++ [.messageStop turn.msgId, .messageComplete turn.msgId message]
    history := s.history ++ [message] }

/-- One iteration of the loop after its two entry checks. -/
def iterate (runId : String) (turn : Turn) (s : RunState) : Flow :=
  let sent := agent.send turn s
  match turn.response with
  | .error e => .done sent (.error (.provider e))
  | .ok response => agent.answer runId turn response (receive turn response sent)

def loop (runId : String) (turns : ℕ → Turn) :
    ℕ → RunState → RunState × Except AgentError AgentOutput
  | 0, s =>
    if (turns s.iteration).cancelled then (s, .error .cancelled)
    else (s, .error (.maxIterationsExceeded agent.config.maxIterations))
  | remaining + 1, s =>
    if (turns s.iteration).cancelled then (s, .error .cancelled)
    else
      match agent.iterate runId (turns s.iteration) s with
      | .next s' => loop runId turns remaining s'
      | .done s' result => (s', result)

def entry (input : AgentInput) : RunState where
  history := agent.history ++ [input.toMessage]
  totalUsage := ⟨0, 0⟩
  iteration := 0
  recentFingerprints := []
  handoffRetries := 0
  handoffMissingRetries := 0
  emitted := [.inputMessage input.messageId input]
  requests := []

def run (input : AgentInput) (runId : String) (turns : ℕ → Turn) :
    RunState × Except AgentError AgentOutput :=
  agent.loop runId turns agent.config.maxIterations (agent.entry input)

end Agent

end October
