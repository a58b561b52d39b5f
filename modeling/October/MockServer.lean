import Mathlib.Data.List.AList
import October.Machine
import October.MockStreams

/-!
The mock server as a service: a queue of responses, scenarios, and sessions that are bound
to a scenario and keep a place in it. A request takes its response at once; what was queued
behind a gate is sent when the gate is released. What each response is on the wire follows.
-/
namespace October.MockServer

open MockStreams

inductive MockResponse where
  | text (content : String)
  | toolCall (name : String) (input : Value)
  | error (status : ℕ) (message : String)
  | textStream (chunks : List String)
  | toolCallStream (name id : String) (input : Value)
  | thinking (text signature : String)

/-- `gate` is the handle that holds the response back. -/
structure QueueEntry where
  response : MockResponse
  gate : Option ℕ

def QueueEntry.immediate (response : MockResponse) : QueueEntry := ⟨response, none⟩

structure Scenario where
  responses : List MockResponse

structure ScenarioState where
  responses : List MockResponse
  cursor : ℕ

def ScenarioState.fromScenario (s : Scenario) : ScenarioState := ⟨s.responses, 0⟩

def ScenarioState.nextResponse (s : ScenarioState) : Option MockResponse × ScenarioState :=
  match s.responses[s.cursor]? with
  | none => (none, s)
  | some response => (some response, { s with cursor := s.cursor + 1 })

structure QueueRequest where
  responseType : String
  content : Option String
  toolName : Option String
  toolInput : Option Value

def QueueRequest.response (req : QueueRequest) : MockResponse :=
  if req.responseType = "text" then .text (req.content.getD "")
  else if req.responseType = "tool_call" then
    .toolCall (req.toolName.getD "") (req.toolInput.getD (.object []))
  else .text "Unknown type"

section Wire

def startMessage (msgId : String) (outputTokens : ℕ) : Value :=
  .object [("type", .string "message_start"),
    ("message", .object [("id", .string msgId), ("type", .string "message"),
      ("role", .string "assistant"), ("content", .array []), ("model", .string "mock-model"),
      ("stop_reason", .null),
      ("usage", .object [("input_tokens", .number "10"),
        ("output_tokens", .number (toString outputTokens))])])]

def startBlock (contentBlock : Value) : Value :=
  .object [("type", .string "content_block_start"), ("index", .number "0"),
    ("content_block", contentBlock)]

def blockDelta (delta : Value) : Value :=
  .object [("type", .string "content_block_delta"), ("index", .number "0"), ("delta", delta)]

def endMessage (stopReason : String) (outputTokens : ℕ) : Value :=
  .object [("type", .string "message_delta"),
    ("delta", .object [("stop_reason", .string stopReason), ("stop_sequence", .null)]),
    ("usage", .object [("output_tokens", .number (toString outputTokens))])]

def textBlock : Value := .object [("type", .string "text"), ("text", .string "")]

def toolUseBlock (id name : String) : Value :=
  .object [("type", .string "tool_use"), ("id", .string id), ("name", .string name),
    ("input", .object [])]

def thinkingBlock : Value :=
  .object [("type", .string "thinking"), ("thinking", .string ""), ("signature", .string "")]

def textDelta (text : String) : Value :=
  .object [("type", .string "text_delta"), ("text", .string text)]

def jsonDelta (json : String) : Value :=
  .object [("type", .string "input_json_delta"), ("partial_json", .string json)]

def thinkingDelta (text : String) : Value :=
  .object [("type", .string "thinking_delta"), ("thinking", .string text)]

def signatureDelta (signature : String) : Value :=
  .object [("type", .string "signature_delta"), ("signature", .string signature)]

/-- The events of a message with one content block. -/
def messageSse (msgId : String) (started : ℕ) (contentBlock : Value) (deltas : List Value)
    (stopReason : String) (outputTokens : ℕ) : List (String × Value) :=
  [("message_start", startMessage msgId started),
    ("content_block_start", startBlock contentBlock)] ++
    deltas.map (fun delta => ("content_block_delta", blockDelta delta)) ++
    [("content_block_stop", blockStop), ("message_delta", endMessage stopReason outputTokens),
      ("message_stop", messageStop)]

def textTokens (text : String) : ℕ := min (text.utf8ByteSize / 4) 4294967295

def textSse (msgId text : String) : List (String × Value) :=
  messageSse msgId 1 textBlock [textDelta text] "end_turn" (textTokens text)

def toolSse (msgId toolId name : String) (input : Value) : List (String × Value) :=
  messageSse msgId 1 (toolUseBlock toolId name) [jsonDelta input.display] "tool_use" 20

def thinkingSse (msgId text signature : String) : List (String × Value) :=
  messageSse msgId 1 thinkingBlock [thinkingDelta text, signatureDelta signature] "end_turn" 5

def textStreamSse (msgId : String) (chunks : List String) : List (String × Value) :=
  messageSse msgId 0 textBlock (chunks.map textDelta) "end_turn" chunks.length

def overloadedError (message : String) : Value :=
  .object [("type", .string "overloaded_error"), ("message", .string message)]

def placeholder : String := "No mock response queued"

def contentJson (msgId : String) (block : Value) (stopReason : String) (outputTokens : ℕ) : Value :=
  .object [("type", .string "message"), ("id", .string msgId), ("role", .string "assistant"),
    ("content", .array [block]), ("model", .string "mock-model"),
    ("stop_reason", .string stopReason),
    ("usage", .object [("input_tokens", .number "10"),
      ("output_tokens", .number (toString outputTokens))])]

def textJson (msgId text : String) : Value :=
  contentJson msgId (.object [("type", .string "text"), ("text", .string text)]) "end_turn"
    (text.utf8ByteSize / 4)

def toolJson (msgId toolId name : String) (input : Value) : Value :=
  contentJson msgId (.object [("type", .string "tool_use"), ("id", .string toolId),
    ("name", .string name), ("input", input)]) "tool_use" 20

def thinkingJson (msgId text signature : String) : Value :=
  contentJson msgId (.object [("type", .string "thinking"), ("thinking", .string text),
    ("signature", .string signature)]) "end_turn" 5

def errorJson (message : String) : Value :=
  .object [("type", .string "error"),
    ("error", .object [("type", .string "api_error"), ("message", .string message)])]

inductive ResponseKind where
  | json (body : Value)
  | sse (pairs : List (String × Value))
  | httpError (status : ℕ) (body : Value)

def statusCode (status : ℕ) : ℕ := if 100 ≤ status ∧ status < 1000 then status else 500

/-- What a request is answered; `msgId` and `toolId` are drawn for it. -/
def respond (isStream : Bool) (msgId toolId : String) : Option MockResponse → ResponseKind
  | some (.textStream chunks) => .sse (textStreamSse msgId chunks)
  | some (.toolCallStream name id input) => .sse (toolCallStreamSse msgId name id input)
  | some (.text content) =>
    if isStream then .sse (textSse msgId content) else .json (textJson msgId content)
  | some (.toolCall name input) =>
    if isStream then .sse (toolSse msgId toolId name input)
    else .json (toolJson msgId toolId name input)
  | some (.thinking text signature) =>
    if isStream then .sse (thinkingSse msgId text signature)
    else .json (thinkingJson msgId text signature)
  | some (.error status message) =>
    if isStream then .sse [("error", overloadedError message)]
    else .httpError (statusCode status) (errorJson message)
  | none =>
    if isStream then .sse (textSse msgId placeholder) else .json (textJson msgId placeholder)

end Wire

structure MockState where
  queue : List QueueEntry
  scenarios : AList (fun _ : String => Scenario)
  sessionBindings : AList (fun _ : String => String)
  sessionStates : AList (fun _ : String => ScenarioState)

inductive Origin where
  | script
  | queue
  deriving DecidableEq

namespace MockState

def build (responses : List MockResponse) (scenarios : AList (fun _ : String => Scenario)) :
    MockState :=
  ⟨responses.map QueueEntry.immediate, scenarios, ∅, ∅⟩

def dequeueEntry (s : MockState) : Option QueueEntry × MockState :=
  (s.queue.head?, { s with queue := s.queue.tail })

def takeEntry (s : MockState) (session : Option String) :
    Origin × Option QueueEntry × MockState :=
  match session.bind (fun sid => (s.sessionStates.lookup sid).map (fun state => (sid, state))) with
  | some (sid, state) =>
    let (response, state') := state.nextResponse
    (.script, response.map QueueEntry.immediate,
      { s with sessionStates := s.sessionStates.insert sid state' })
  | none => (.queue, s.dequeueEntry)

def push (entry : QueueEntry) (s : MockState) : MockState := { s with queue := s.queue ++ [entry] }

def loadScenarios (config : List (String × Scenario)) (s : MockState) : MockState :=
  { s with scenarios := config.foldl (fun m c => m.insert c.1 c.2) s.scenarios }

def registerSession (scenarioName sessionId : String) (s : MockState) : Option MockState :=
  (s.scenarios.lookup scenarioName).map (fun scenario =>
    { s with
      sessionStates := s.sessionStates.insert sessionId (ScenarioState.fromScenario scenario)
      sessionBindings := s.sessionBindings.insert sessionId scenarioName })

end MockState

structure Request where
  session : Option String
  isStream : Bool
  origin : Origin
  entry : Option QueueEntry
  msgId : String
  toolId : String

def Request.answer (r : Request) : ResponseKind :=
  respond r.isStream r.msgId r.toolId (r.entry.map QueueEntry.response)

def Request.gate (r : Request) : Option ℕ := r.entry.bind QueueEntry.gate

/-- The server at work: its requests in the order in which they took their entries, which
of them are answered, the entries queued so far and the gates released. -/
structure Server where
  state : MockState
  requests : List Request
  answered : List ℕ
  queued : List QueueEntry
  gates : ℕ
  released : List ℕ

inductive ServerLabel where
  | message (session : Option String) (isStream : Bool) (msgId toolId : String)
  | answer (request : ℕ)
  | queue (req : QueueRequest)
  | queueResponse (text : String)
  | queueToolCall (name : String) (input : Value)
  | blockingResponse (text : String)
  | release (gate : ℕ)
  | loadScenarios (config : List (String × Scenario))
  | registerSession (scenarioName sessionId : String)

namespace Server

def start (state : MockState) : Server := ⟨state, [], [], state.queue, 0, []⟩

def push (entry : QueueEntry) (s : Server) : Server :=
  { s with state := s.state.push entry, queued := s.queued ++ [entry] }

def mayAnswer (s : Server) (i : ℕ) : Bool :=
  s.requests[i]?.any (fun r => r.gate.all (fun gate => decide (gate ∈ s.released))) &&
    decide (i ∉ s.answered)

def next (s : Server) : ServerLabel → Option Server
  | .message session isStream msgId toolId =>
    let (origin, entry, state) := s.state.takeEntry session
    some { s with
      state := state
      requests := s.requests ++ [⟨session, isStream, origin, entry, msgId, toolId⟩] }
  | .answer i => if s.mayAnswer i then some { s with answered := i :: s.answered } else none
  | .queue req => some (s.push (QueueEntry.immediate req.response))
  | .queueResponse text => some (s.push (QueueEntry.immediate (.text text)))
  | .queueToolCall name input => some (s.push (QueueEntry.immediate (.toolCall name input)))
  | .blockingResponse text =>
    some { s.push ⟨.text text, some s.gates⟩ with gates := s.gates + 1 }
  | .release gate => some { s with released := gate :: s.released }
  | .loadScenarios config => some { s with state := s.state.loadScenarios config }
  | .registerSession scenarioName sessionId =>
    some { s with state := (s.state.registerSession scenarioName sessionId).getD s.state }

end Server

end October.MockServer
