import October.Messages

/-!
What executor and runtime say to each other about tool calls, the errors of a transport,
and what a task sees of a WebSocket stream. A tool call stands in its serialized form,
and a text frame brings what it parses to.
-/
namespace October

structure ToolOutput where
  stdout : String
  stderr : String
  exitCode : Int32
  deriving DecidableEq

inductive ToolResult where
  | ok (output : ToolOutput)
  | err (reason : String)
  deriving DecidableEq

structure ToolCallRequest where
  callId : String
  call : Value

inductive RuntimeInboundMessage where
  | toolCall (request : ToolCallRequest)
  | cancelCall (callId : String)

inductive RuntimeOutboundMessage where
  | ready (runtimeId : String)
  | toolCallResponse (callId : String) (result : ToolResult)
  deriving DecidableEq

inductive TransportError where
  | sendFailed (reason : String)
  | serialization (reason : String)
  | disconnected
  deriving DecidableEq

def TransportError.display : TransportError → String
  | .sendFailed reason => "send failed: " ++ reason
  | .serialization reason => "serialization error: " ++ reason
  | .disconnected => "disconnected"

inductive SendOutcome where
  | sent
  | failed (reason : String)
  | notSerialized (reason : String)
  deriving DecidableEq

inductive Arrival (Msg : Type) where
  | text (parsed : Option Msg)
  | binary
  | ping
  | pong
  | rawFrame
  | close
  | error
  | ended
  deriving DecidableEq

namespace Arrival

variable {Msg : Type}

def isText : Arrival Msg → Bool
  | .text _ => true
  | _ => false

def closes : Arrival Msg → Bool
  | .close => true
  | .error => true
  | .ended => true
  | _ => false

end Arrival

/-- A oneshot channel as its receiver finds it. -/
inductive Oneshot (α : Type) where
  | empty
  | filled (a : α)
  | dropped
  deriving DecidableEq

namespace Oneshot

variable {α : Type}

def send (a : α) : Oneshot α → Oneshot α
  | .empty => .filled a
  | o => o

def dropSender : Oneshot α → Oneshot α
  | .empty => .dropped
  | o => o

end Oneshot

end October
