import October.Runtime
import October.WorkflowActor
import Mathlib.Data.List.DropRight

/-!
The history of a job, rendered from its journals: one or two lines for every event of
the workflow, and behind each agent that was started the conversation of its session.
A session is folded from its snapshot and the events after it; what cannot be read is
passed over.
-/
namespace October.RenderedHistory

def maxOutputChars : ℕ := 500

/-- `char::is_whitespace`: the property White_Space of Unicode. -/
def isWhitespace (c : Char) : Bool :=
  let n := c.toNat
  (9 ≤ n && n ≤ 13) || n == 0x20 || n == 0x85 || n == 0xA0 || n == 0x1680 ||
    (0x2000 ≤ n && n ≤ 0x200A) || n == 0x2028 || n == 0x2029 || n == 0x202F || n == 0x205F ||
    n == 0x3000

def trim (text : String) : String :=
  String.ofList ((text.toList.dropWhile isWhitespace).rdropWhile isWhitespace)

def truncate (s : String) : String :=
  if s.length ≤ maxOutputChars then s
  else String.ofList (s.toList.take maxOutputChars) ++ "… (" ++ toString s.length ++ " chars)"

/-- Compact a JSON value to a single-line, length-bounded string. -/
def compact (value : Value) : String := truncate value.display

def renderPart (role : Role) : ContentPart → String
  | .text text =>
    let text := trim text
    if text = "" then "" else (if role = .user then "» " else "") ++ text ++ "\n"
  | .toolCall _ name input => "· tool " ++ name ++ " " ++ compact input ++ "\n"
  | .toolResult _ output isError =>
    "· result [" ++ (if isError then "error" else "ok") ++ "] " ++ truncate output ++ "\n"
  | .thinking _ _ => ""

def renderMessage (m : Message) : Option String :=
  let out := m.parts.foldl (fun out part => out ++ renderPart m.role part) ""
  if out = "" then none else some out

def sessionLines (state : AgentState) : List String := state.messages.filterMap renderMessage

def eventLines (session : Uuid → List String) : WorkflowDomainEvent → List String
  | .workflowStarted => ["● workflow started\n"]
  | .agentStarted agentName sessionId _ =>
    ("\n▸ agent " ++ agentName ++ "\n") :: session sessionId
  | .agentTransitioned source target _ _ condition =>
    let cond := (condition.map (fun c => " [" ++ c ++ "]")).getD ""
    ["↳ " ++ source ++ " → " ++ target ++ cond ++ "\n"]
  | .workflowPaused _ _ => ["⏸ awaiting user input\n"]
  | .workflowResumed => ["▶ resumed\n"]
  | .workflowSuspended => ["⏸ suspended\n"]
  | .workflowFinished output => ["\n✓ finished: " ++ compact output ++ "\n"]
  | .workflowFailed error _ => ["\n✗ failed: " ++ error ++ "\n"]

/-- How the two kinds of actors write their states and events, and session ids. -/
structure JobSerde where
  workflowState : Serde WorkflowState
  workflowEvent : Serde WorkflowDomainEvent
  agentState : Serde AgentState
  agentEvent : Serde AgentDomainEvent
  sessionText : Uuid → String

namespace JobSerde

variable (d : JobSerde)

def workflowActor : EventSourcedActor WorkflowState WorkflowDomainEvent :=
  ⟨WorkflowActor.initialState, WorkflowActor.applyEvent, d.workflowState, d.workflowEvent⟩

def agentActor : EventSourcedActor AgentState AgentDomainEvent :=
  ⟨AgentActor.initialState, AgentActor.applyEvent, d.agentState, d.agentEvent⟩

def workflowPid (jobId : String) : PersistenceId := ⟨"workflow", jobId⟩

def agentPid (sessionId : Uuid) : PersistenceId := ⟨"agent", d.sessionText sessionId⟩

end JobSerde

def readItem {E : Type} (serde : Serde E) : JournalResult Bytes → Option E
  | .ok bytes =>
    match serde.fromSlice bytes with
    | .ok event => some event
    | .error _ => none
  | .error _ => none

def readable {E : Type} (serde : Serde E) (items : List (JournalResult Bytes)) : List E :=
  items.filterMap (readItem serde)

structure JobEventFrame where
  jobId : String
  text : String
  deriving DecidableEq, Repr

section Journals

variable {J : Type} [Journal J] (d : JobSerde)

def snapshotSeq (pid : PersistenceId) (j : J) : ℕ :=
  match Journal.latestSnapshot pid j with
  | .ok (some (_, seq)) => seq
  | .ok none => 0
  | .error _ => 0

def workflowEvents (jobId : String) (j : J) : List WorkflowDomainEvent :=
  let pid := JobSerde.workflowPid jobId
  readable d.workflowEvent (Journal.replay pid (snapshotSeq pid j) j)

def agentSessionState (sessionId : Uuid) (j : J) : AgentState :=
  let pid := d.agentPid sessionId
  let start := match Journal.latestSnapshot pid j with
    | .ok (some (bytes, seq)) =>
      match d.agentState.fromSlice bytes with
      | .ok snap => (snap, seq)
      | .error _ => (AgentActor.initialState, 0)
    | .ok none => (AgentActor.initialState, 0)
    | .error _ => (AgentActor.initialState, 0)
  (readable d.agentEvent (Journal.replay pid start.2 j)).foldl AgentActor.applyEvent start.1

def agentSessionLines (sessionId : Uuid) (j : J) : List String :=
  sessionLines (agentSessionState d sessionId j)

def renderHistory (jobId : String) (j : J) : List JobEventFrame :=
  ((workflowEvents d jobId j).flatMap
    (eventLines (fun sessionId => agentSessionLines d sessionId j))).map
      (fun text => ⟨jobId, text⟩)

/-- The replay loop of recovery, when it ends well, folds the events that can be read. -/
theorem replayInto_readable {S E : Type} (a : EventSourcedActor S E)
    (items : List (JournalResult Bytes)) (state : S) (seqNr : ℕ) {recovered : S × ℕ}
    (h : replayInto a items state seqNr = .ok recovered) :
    recovered.1 = (readable a.eventSerde items).foldl a.applyEvent state := by
  induction items generalizing state seqNr with
  | nil =>
    cases Except.ok.inj h
    rfl
  | cons item rest ih =>
    cases item with
    | error e => contradiction
    | ok bytes =>
      simp only [replayInto] at h
      split at h
      · contradiction
      · rename_i event hread
        have hitem : readItem a.eventSerde (.ok bytes) = some event := by simp [readItem, hread]
        rw [ih _ _ h, readable, readable, List.filterMap_cons_some hitem, List.foldl_cons]

/-- The conversation shown for a session is the one its actor recovers, from any
journal that the actor can recover from. -/
theorem agentSessionState_recovered {sessionId : Uuid} {j : J} {recovered : AgentState × ℕ}
    (h : recover d.agentActor (d.agentPid sessionId) j = .ok recovered) :
    agentSessionState d sessionId j = recovered.1 := by
  unfold recover at h
  unfold agentSessionState
  split at h
  · contradiction
  · rename_i hsnap
    rw [replayInto_readable d.agentActor _ _ _ h]
    simp only [hsnap]
    rfl
  · rename_i bytes seq hsnap
    split at h
    · contradiction
    · rename_i snap hread
      have hread' : d.agentState.fromSlice bytes = .ok snap := hread
      rw [replayInto_readable d.agentActor _ _ _ h]
      simp only [hsnap, hread']
      rfl

end Journals

end October.RenderedHistory
