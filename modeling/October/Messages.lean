import Mathlib.Data.List.Basic

/-!
JSON values and conversation messages. A value prints as compact JSON text, with
object fields in stored order. A conversation is a list of messages whose parts
are text, thinking, tool calls and tool results.
-/
namespace October

/-- A JSON value; a number is kept as its text. -/
inductive Value where
  | null
  | bool (b : Bool)
  | number (text : String)
  | string (s : String)
  | array (items : List Value)
  | object (fields : List (String × Value))

namespace Value

def asStr : Value → Option String
  | .string s => some s
  | _ => none

def asBool : Value → Option Bool
  | .bool b => some b
  | _ => none

def get (key : String) : Value → Option Value
  | .object fields => (fields.find? (fun f => f.1 == key)).map Prod.snd
  | _ => none

def hexDigit (n : ℕ) : Char := if n < 10 then Char.ofNat (48 + n) else Char.ofNat (87 + n)

def escapeChar (c : Char) : List Char :=
  if c = '"' then ['\\', '"']
  else if c = '\\' then ['\\', '\\']
  else if c.toNat = 8 then ['\\', 'b']
  else if c.toNat = 9 then ['\\', 't']
  else if c.toNat = 10 then ['\\', 'n']
  else if c.toNat = 12 then ['\\', 'f']
  else if c.toNat = 13 then ['\\', 'r']
  else if c.toNat < 32 then ['\\', 'u', '0', '0', hexDigit (c.toNat / 16), hexDigit (c.toNat % 16)]
  else [c]

def quote (s : String) : String := "\"" ++ String.ofList (s.toList.flatMap escapeChar) ++ "\""

mutual

def display : Value → String
  | .null => "null"
  | .bool b => if b then "true" else "false"
  | .number text => text
  | .string s => quote s
  | .array items => "[" ++ String.intercalate "," (displayItems items) ++ "]"
  | .object fields => "\x7b" ++ String.intercalate "," (displayFields fields) ++ "\x7d"

def displayItems : List Value → List String
  | [] => []
  | v :: rest => display v :: displayItems rest

def displayFields : List (String × Value) → List String
  | [] => []
  | f :: rest => displayField f :: displayFields rest

def displayField : String × Value → String
  | (key, v) => quote key ++ ":" ++ display v

end

end Value

inductive Role where
  | user
  | assistant
  | tool
  deriving DecidableEq, Repr

inductive ContentPart where
  | text (text : String)
  | toolCall (id name : String) (input : Value)
  | toolResult (toolCallId output : String) (isError : Bool)
  | thinking (text : String) (signature : Option String)

structure Message where
  id : String
  role : Role
  parts : List ContentPart

def Message.user (id text : String) : Message := ⟨id, .user, [.text text]⟩

def Message.toolResult (toolCallId output : String) (isError : Bool) : Message :=
  ⟨"result:" ++ toolCallId, .tool, [.toolResult toolCallId output isError]⟩

structure Usage where
  inputTokens : UInt32
  outputTokens : UInt32
  deriving DecidableEq, Repr

def Usage.add (u v : Usage) : Usage :=
  ⟨u.inputTokens + v.inputTokens, u.outputTokens + v.outputTokens⟩

inductive AgentInput where
  | userMessage (id text : String)
  | toolResult (toolCallId output : String) (isError : Bool)

def AgentInput.messageId : AgentInput → String
  | .userMessage id _ => id
  | .toolResult toolCallId _ _ => "result:" ++ toolCallId

def AgentInput.toMessage : AgentInput → Message
  | .userMessage id text => ⟨id, .user, [.text text]⟩
  | .toolResult toolCallId output isError =>
    ⟨"result:" ++ toolCallId, .tool, [.toolResult toolCallId output isError]⟩

end October
