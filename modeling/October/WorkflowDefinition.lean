import October.Messages

/-!
The workflow graph, and the commands a workflow actor accepts: four from the
operator, three by which agents report their outcome. A session id stands for the
UUID drawn when the session is created.
-/
namespace October

abbrev Uuid := ℕ

structure WorkflowTransition where
  target : String
  condition : Option String
  deriving DecidableEq, Repr

structure WorkflowAgentDef where
  name : String
  systemPrompt : Option String
  model : String
  outputSchema : Option Value
  allowAskUser : Bool
  transitions : Option (List WorkflowTransition)
  maxIterations : Option ℕ
  maxRetries : Option ℕ
  allowedTools : Option (List String)

structure WorkflowDefinition where
  start : String
  agents : List WorkflowAgentDef

inductive WorkflowCommand where
  | start (input : String)
  | cancel
  | resume (message : String)
  | fork (fromSessionId : Uuid) (message : String)
  | agentConcluded (sessionId : Uuid) (output : Value)
  | agentAsked (sessionId : Uuid) (toolCallId : Option String) (question : String)
  | agentFailed (sessionId : Uuid) (error : String) (recoverable : Bool)

namespace WorkflowCommand

def reports : WorkflowCommand → Option Uuid
  | agentConcluded sessionId _ => some sessionId
  | agentAsked sessionId _ _ => some sessionId
  | agentFailed sessionId _ _ => some sessionId
  | start _ => none
  | cancel => none
  | resume _ => none
  | fork _ _ => none

def isFinal : WorkflowCommand → Bool
  | agentConcluded _ _ => true
  | agentFailed _ _ _ => true
  | _ => false

end WorkflowCommand

end October
