import Mathlib.Data.List.AList
import Mathlib.Data.List.Destutter
import Mathlib.Data.List.Infix
import October.AgentLoop

/-!
The Anthropic provider's `complete`, from the point where the API request is built.
The answer arrives as a stream of events about content blocks, each with an index;
three maps keyed by that index collect them, and the parts are assembled in index
order. A stream that fails before any content is tried again.
-/

namespace October.AnthropicProvider

/-- Errors of the client library; an error that wraps another one carries its text. -/
inductive AnthropicError where
  | networkError (text : String)
  | unauthorized
  | badRequest (message : String)
  | apiError (message : String)
  | unknown (message : String)
  | deserializationError (text : String)
  | unexpectedError
  | streamError (text : String)

def maxStreamRetries : ℕ := 6

def contains (msg needle : String) : Bool := decide (needle.toList <:+: msg.toList)

def isRetryable (msg : String) : Bool :=
  contains msg "overloaded_error" || contains msg "overloaded" ||
    contains msg "rate_limit_error" || contains msg "529" || contains msg "Too Many Requests"

/-- `display` is the client library's text of an error. -/
def toLlmError (display : AnthropicError → String) (e : AnthropicError) : LlmError :=
  let msg := display e
  if contains msg "overloaded_error" || contains msg "overloaded" || contains msg "529" then
    .overloaded
  else if contains msg "rate_limit_error" || contains msg "Too Many Requests" ||
      contains msg "429" then
    .rateLimit none
  else
    match e with
    | .networkError text => .network text
    | .unauthorized => .apiError 401 "Unauthorized"
    | .badRequest m => .network m
    | .apiError m => .network m
    | .unknown m => .network m
    | .deserializationError text => .network text
    | .unexpectedError => .network "unexpected error"
    | .streamError text => .network text

inductive MessageContent where
  | text
  | toolUse (id name : String)
  | thinking
  | toolResult

inductive ContentBlockDelta where
  | textDelta (text : String)
  | inputJsonDelta (partialJson : String)
  | thinkingDelta (thinking : String)
  | signatureDelta (signature : String)

structure ApiUsage where
  inputTokens : Option UInt32
  outputTokens : Option UInt32

inductive MessagesStreamEvent where
  | messageStart (usage : Option ApiUsage)
  | contentBlockStart (index : ℕ) (contentBlock : MessageContent)
  | contentBlockDelta (index : ℕ) (delta : ContentBlockDelta)
  | contentBlockStop (index : ℕ)
  | messageDelta (stopReason : Option String) (usage : Option ApiUsage)
  | messageStop

def MessagesStreamEvent.index? : MessagesStreamEvent → Option ℕ
  | .messageStart _ => none
  | .contentBlockStart index _ => some index
  | .contentBlockDelta index _ => some index
  | .contentBlockStop index => some index
  | .messageDelta _ _ => none
  | .messageStop => none

/-- What `complete` collects from a stream, with the events it emitted so far. -/
structure Accumulators where
  textBlocks : AList (fun _ : ℕ => String)
  toolBlocks : AList (fun _ : ℕ => String × String × String)
  thinkingBlocks : AList (fun _ : ℕ => String × String)
  stopReason : StopReason
  inputTokens : UInt32
  outputTokens : UInt32
  emitted : List StreamEvent

namespace Accumulators

def init : Accumulators := ⟨∅, ∅, ∅, .endTurn, 0, 0, []⟩

def cleared (s : Accumulators) : Accumulators := { init with emitted := s.emitted }

def emit (s : Accumulators) (e : StreamEvent) : Accumulators :=
  { s with emitted := s.emitted ++ [e] }

def isEmpty (s : Accumulators) : Bool :=
  s.textBlocks.keys.isEmpty && s.toolBlocks.keys.isEmpty && s.thinkingBlocks.keys.isEmpty

end Accumulators

section Events

variable (messageId : String)

def startBlock (index : ℕ) (contentBlock : MessageContent) (s : Accumulators) : Accumulators :=
  match contentBlock with
  | .text => { s with textBlocks := s.textBlocks.insert index "" }
  | .toolUse id name =>
    { s.emit (.toolCallStart messageId (UInt32.ofNat index) id name) with
      toolBlocks := s.toolBlocks.insert index (id, name, "") }
  | .thinking => { s with thinkingBlocks := s.thinkingBlocks.insert index ("", "") }
  | .toolResult => s

def applyDelta (index : ℕ) (delta : ContentBlockDelta) (s : Accumulators) : Accumulators :=
  match delta with
  | .textDelta text =>
    let s := match s.textBlocks.lookup index with
      | some acc => { s with textBlocks := s.textBlocks.insert index (acc ++ text) }
      | none => s
    s.emit (.textChunk messageId (UInt32.ofNat index) text)
  | .inputJsonDelta partialJson =>
    match s.toolBlocks.lookup index with
    | some (id, name, acc) =>
      { s.emit (.toolCallInputDelta messageId (UInt32.ofNat index) id partialJson) with
        toolBlocks := s.toolBlocks.insert index (id, name, acc ++ partialJson) }
    | none => s
  | .thinkingDelta thinking =>
    let s := match s.thinkingBlocks.lookup index with
      | some (acc, sig) =>
        { s with thinkingBlocks := s.thinkingBlocks.insert index (acc ++ thinking, sig) }
      | none => s
    s.emit (.thinkingChunk messageId (UInt32.ofNat index) thinking)
  | .signatureDelta signature =>
    match s.thinkingBlocks.lookup index with
    | some (acc, sig) =>
      { s with thinkingBlocks := s.thinkingBlocks.insert index (acc, sig ++ signature) }
    | none => s

def stopBlock (index : ℕ) (s : Accumulators) : Accumulators :=
  match s.toolBlocks.lookup index with
  | some (id, _, _) => s.emit (.toolCallInputDone messageId (UInt32.ofNat index) id)
  | none => s

def stopReasonOf : Option String → StopReason
  | some "tool_use" => .toolUse
  | some "max_tokens" => .maxTokens
  | _ => .endTurn

def handleEvent (s : Accumulators) : MessagesStreamEvent → Accumulators
  | .messageStart usage =>
    match usage with
    | some u => { s with inputTokens := u.inputTokens.getD 0 }
    | none => s
  | .contentBlockStart index contentBlock => startBlock messageId index contentBlock s
  | .contentBlockDelta index delta => applyDelta messageId index delta s
  | .contentBlockStop index => stopBlock messageId index s
  | .messageDelta stopReason usage =>
    let s := { s with stopReason := stopReasonOf stopReason }
    match usage with
    | some u => { s with outputTokens := u.outputTokens.getD s.outputTokens }
    | none => s
  | .messageStop => s

end Events

inductive StreamEnd where
  | finished
  | retry (e : LlmError)
  | failed (e : LlmError)

section Complete

variable (display : AnthropicError → String) (fromStr : String → Except String Value)
  (messageId : String)

def readStream (s : Accumulators) :
    List (Except AnthropicError MessagesStreamEvent) → StreamEnd × Accumulators
  | [] => (.finished, s)
  | .error e :: _ =>
    if isRetryable (display e) && s.isEmpty then (.retry (toLlmError display e), s)
    else (.failed (toLlmError display e), s)
  | .ok event :: stream => readStream (handleEvent messageId s event) stream

/-- The attempts from number `attempt` on, of which `remaining` are left: the error
that ends the call, or the last error kept and what the last attempt collected. -/
def retryLoop (streams : ℕ → List (Except AnthropicError MessagesStreamEvent)) :
    ℕ → ℕ → Option LlmError → Accumulators → Except LlmError (Option LlmError) × Accumulators
  | 0, _, lastError, s => (.ok lastError, s)
  | remaining + 1, attempt, lastError, s =>
    let s := if 0 < attempt then s.cleared else s
    match readStream display messageId s (streams attempt) with
    | (.finished, s) => (.ok lastError, s)
    | (.retry e, s) => retryLoop streams remaining (attempt + 1) (some e) s
    | (.failed e, s) => (.error e, s)

def toolInput (jsonStr : String) : Value :=
  match fromStr jsonStr with
  | .ok v => v
  | .error _ => .object []

def assemblePart (s : Accumulators) (idx : ℕ) : Option ContentPart :=
  match s.textBlocks.lookup idx with
  | some text => if text = "" then none else some (.text text)
  | none =>
    match s.toolBlocks.lookup idx with
    | some (id, name, jsonStr) => some (.toolCall id name (toolInput fromStr jsonStr))
    | none =>
      match s.thinkingBlocks.lookup idx with
      | some (thinking, signature) =>
        if thinking = "" then none
        else some (.thinking thinking (if signature = "" then none else some signature))
      | none => none

def allIndices (s : Accumulators) : List ℕ :=
  ((s.textBlocks.keys ++ s.toolBlocks.keys ++ s.thinkingBlocks.keys).mergeSort
    (fun i j => decide (i ≤ j))).destutter (· ≠ ·)

def assemble (s : Accumulators) : CompletionResponse :=
  ⟨(allIndices s).filterMap (assemblePart fromStr s), s.stopReason,
    ⟨s.inputTokens, s.outputTokens⟩⟩

/-- The provider's answer when the n-th attempt receives `streams n`, with the events
emitted on the way. -/
def complete (streams : ℕ → List (Except AnthropicError MessagesStreamEvent)) :
    Except LlmError CompletionResponse × List StreamEvent :=
  match retryLoop display messageId streams (maxStreamRetries + 1) 0 none Accumulators.init with
  | (.error e, s) => (.error e, s.emitted)
  | (.ok lastError, s) =>
    match lastError with
    | some e => if s.isEmpty then (.error e, s.emitted) else (.ok (assemble fromStr s), s.emitted)
    | none => (.ok (assemble fromStr s), s.emitted)

end Complete

def readEvents (messageId : String) (s : Accumulators) (events : List MessagesStreamEvent) :
    Accumulators :=
  events.foldl (handleEvent messageId) s

theorem readStream_append (display : AnthropicError → String) (messageId : String)
    (s : Accumulators) (events : List MessagesStreamEvent)
    (rest : List (Except AnthropicError MessagesStreamEvent)) :
    readStream display messageId s (events.map .ok ++ rest) =
      readStream display messageId (readEvents messageId s events) rest := by
  induction events generalizing s with
  | nil => rfl
  | cons event events ih => exact ih (handleEvent messageId s event)

/-- A stream without errors is read to its end. -/
theorem readStream_ok (display : AnthropicError → String) (messageId : String)
    (s : Accumulators) (events : List MessagesStreamEvent) :
    readStream display messageId s (events.map .ok) =
      (.finished, readEvents messageId s events) := by
  have h := readStream_append display messageId s events []
  rwa [List.append_nil] at h

end October.AnthropicProvider
