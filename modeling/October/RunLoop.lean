import Mathlib.Data.List.AList
import October.RuntimeProtocol
import October.Machine

/-!
The runtime's side of tool calls: a loop that reads the link and a task for each call. The
task answers its call and takes its handle out of the map of those in flight, the loop
puts the handle in after it has spawned the task, and a cancel takes the handle out,
aborts the task and answers in its place. Every await point is a step. An aborted task is
dropped at one of its await points, until then it goes on. When the loop has ended the
process does too, and every task that is not done by then is dropped.
-/
namespace October

inductive CallTaskPhase where
  | running
  | answering (result : ToolResult)
  | removing
  | ended
  deriving DecidableEq

structure CallTask where
  callId : String
  call : Value
  phase : CallTaskPhase
  aborted : Bool

def CallTask.hasAnswered (c : CallTask) : Bool :=
  match c.phase with
  | .removing => true
  | .ended => true
  | _ => false

inductive LoopPhase where
  | reading
  | inserting (callId : String) (task : ℕ)
  | cancelling (callId : String)
  | answering (callId : String)
  | ended
  deriving DecidableEq

/-- The loop and its tasks, the ids that were requested and cancelled, and the
ToolCallResponses that were given to the sink. Their JSON holds strings and numbers only,
so serializing one never fails. -/
structure RunLoop where
  phase : LoopPhase
  inFlight : AList (fun _ : String => ℕ)
  tasks : ℕ → Option CallTask
  requested : List String
  cancelled : List String
  responses : List (String × ToolResult)

/-- `task` is the number of the task that a tool call spawns. -/
inductive LoopLabel where
  | receive (item : Arrival RuntimeInboundMessage) (task : ℕ)
  | insert
  | takeHandle
  | answerCancel
  | finish (i : ℕ) (result : ToolResult)
  | answer (i : ℕ)
  | remove (i : ℕ)
  | drop (i : ℕ)

namespace RunLoop

def init : RunLoop := ⟨.reading, ∅, fun _ => none, [], [], []⟩

def setTask (i : ℕ) (c : CallTask) (s : RunLoop) : RunLoop :=
  { s with tasks := fun j => if j = i then some c else s.tasks j }

def receive (task : ℕ) (s : RunLoop) : RuntimeInboundMessage → RunLoop
  | .toolCall request =>
    { s.setTask task ⟨request.callId, request.call, .running, false⟩ with
      phase := .inserting request.callId task
      requested := s.requested ++ [request.callId] }
  | .cancelCall callId =>
    { s with
      phase := .cancelling callId
      cancelled := s.cancelled ++ [callId] }

def abort (i : ℕ) (s : RunLoop) : RunLoop :=
  { s with
    tasks := fun j =>
      if j = i then (s.tasks j).map (fun c => { c with aborted := true }) else s.tasks j }

def abortHandle : Option ℕ → RunLoop → RunLoop
  | none, s => s
  | some i, s => s.abort i

def next (s : RunLoop) : LoopLabel → Option RunLoop
  | .receive item task =>
    match s.phase, s.tasks task with
    | .reading, none =>
      match item with
      | .text (some inbound) => some (s.receive task inbound)
      | _ => some (if item.closes then { s with phase := .ended } else s)
    | _, _ => none
  | .insert =>
    match s.phase with
    | .inserting callId task =>
      some { s with
        phase := .reading
        inFlight := s.inFlight.insert callId task }
    | _ => none
  | .takeHandle =>
    match s.phase with
    | .cancelling callId =>
      some { s.abortHandle (s.inFlight.lookup callId) with
        phase := .answering callId
        inFlight := s.inFlight.erase callId }
    | _ => none
  | .answerCancel =>
    match s.phase with
    | .answering callId =>
      some { s with
        phase := .reading
        responses := s.responses ++ [(callId, .err "cancelled")] }
    | _ => none
  | .finish i result =>
    match s.tasks i with
    | some ⟨callId, call, .running, aborted⟩ =>
      some (s.setTask i ⟨callId, call, .answering result, aborted⟩)
    | _ => none
  | .answer i =>
    match s.tasks i with
    | some ⟨callId, call, .answering result, aborted⟩ =>
      some { s.setTask i ⟨callId, call, .removing, aborted⟩ with
        responses := s.responses ++ [(callId, result)] }
    | _ => none
  | .remove i =>
    match s.tasks i with
    | some ⟨callId, call, .removing, aborted⟩ =>
      some { s.setTask i ⟨callId, call, .ended, aborted⟩ with
        inFlight := s.inFlight.erase callId }
    | _ => none
  | .drop i =>
    match s.tasks i with
    | some c =>
      if c.aborted = true ∨ s.phase = .ended then some (s.setTask i { c with phase := .ended })
      else none
    | none => none

/-- How often a call id was answered. -/
def answersTo (s : RunLoop) (callId : String) : ℕ := (s.responses.map Prod.fst).count callId

structure Settled (s : RunLoop) : Prop where
  loop : s.phase = .reading ∨ s.phase = .ended
  tasks : ∀ i c, s.tasks i = some c → c.phase = .ended

def asked (s : RunLoop) : LoopLabel → Bool
  | .receive (.text (some (.toolCall request))) _ => !(s.requested.contains request.callId)
  | .receive (.text (some (.cancelCall callId))) _ =>
    s.requested.contains callId && !(s.cancelled.contains callId)
  | _ => true

/-- A cancel takes effect on a call that was not answered yet, a task that was aborted
answers no more, and one that was not is dropped only behind its answer. -/
def inTime (s : RunLoop) : LoopLabel → Bool
  | .takeHandle =>
    match s.phase with
    | .cancelling callId => s.answersTo callId == 0
    | _ => true
  | .answer i => (s.tasks i).all (fun c => !c.aborted)
  | .drop i => (s.tasks i).all (fun c => c.aborted || c.hasAnswered)
  | _ => true

def Asked (s : RunLoop) (l : LoopLabel) : Prop := s.asked l = true

instance (s : RunLoop) (l : LoopLabel) : Decidable (Asked s l) :=
  inferInstanceAs (Decidable (_ = true))

def InTime (s : RunLoop) (l : LoopLabel) : Prop := s.asked l = true ∧ s.inTime l = true

instance (s : RunLoop) (l : LoopLabel) : Decidable (InTime s l) :=
  inferInstanceAs (Decidable (_ ∧ _))

end RunLoop

end October
