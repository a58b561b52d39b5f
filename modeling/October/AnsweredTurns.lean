import Mathlib.Data.List.TakeWhile
import October.LoopTurns
import October.ToolConversation

/-!
The agent loop answers its own calls. Every call of an assistant message is answered by
exactly one result among the tool messages that directly follow it; a turn after which
the loop goes on adds its answer together with the results of all its calls, so the
history is in this shape whenever the provider is called.
-/

namespace October.AnsweredTurns

open AgentActor LoopTurns

def resultsIn (messages : List Message) : List String :=
  messages.flatMap (fun m => resultIds m.parts)

def isTool (m : Message) : Bool := decide (m.role = .tool)

/-- Every call of an assistant message is answered by exactly one result before the next
user or assistant message. -/
def WellAnswered : List Message → Prop
  | [] => True
  | m :: rest =>
    (m.role = .assistant →
      ∀ id ∈ callIds m.parts, (resultsIn (rest.takeWhile isTool)).count id = 1) ∧
      WellAnswered rest

/-- The only unanswered call is `id`, and the assistant message that makes it is followed
by tool messages only. -/
def Awaits (history : List Message) (id : String) : Prop :=
  ∃ before m after, history = before ++ m :: after ∧ m.role = .assistant ∧
    (∀ x ∈ after, x.role = .tool) ∧ WellAnswered before ∧
    id ∈ callIds m.parts ∧ (resultsIn after).count id = 0 ∧
    ∀ other ∈ callIds m.parts, other ≠ id → (resultsIn after).count other = 1

/-- A history a run may start from with its input: every call is answered before a user
message, every call but the one that a tool result answers before that result. -/
def Ready (history : List Message) : AgentInput → Prop
  | .userMessage _ _ => WellAnswered history
  | .toolResult toolCallId _ _ => Awaits history toolCallId

def RequestsAnswered (requests : List CompletionRequest) : Prop :=
  ∀ r ∈ requests, WellAnswered r.messages

section Histories

@[simp] theorem resultsIn_append (ms ms' : List Message) :
    resultsIn (ms ++ ms') = resultsIn ms ++ resultsIn ms' := List.flatMap_append

theorem resultsIn_cons (m : Message) (ms : List Message) :
    resultsIn (m :: ms) = resultIds m.parts ++ resultsIn ms := rfl

/-- Tool messages alone make no calls. -/
theorem wellAnswered_tools {ms : List Message} (h : ∀ m ∈ ms, m.role = .tool) :
    WellAnswered ms := by
  induction ms with
  | nil => trivial
  | cons m rest ih =>
    refine ⟨fun hrole => ?_, ih (fun x hx => h x (List.mem_cons_of_mem _ hx))⟩
    rw [h m List.mem_cons_self] at hrole
    cases hrole

/-- What begins with a user or assistant message does not answer earlier calls. -/
theorem takeWhile_append_barrier (ms ms' : List Message) (m : Message) (h : m.role ≠ .tool) :
    (ms ++ m :: ms').takeWhile isTool = ms.takeWhile isTool := by
  have hm : isTool m = false := decide_eq_false h
  rw [List.takeWhile_append, List.takeWhile_cons_of_neg (by simp [hm]), List.append_nil]
  split
  · rename_i hlength
    exact ((List.takeWhile_prefix _).eq_of_length hlength).symm
  · rfl

theorem WellAnswered.append {ms ms' : List Message} {m : Message} (h : WellAnswered ms)
    (hm : m.role ≠ .tool) (h' : WellAnswered (m :: ms')) : WellAnswered (ms ++ m :: ms') := by
  induction ms with
  | nil => exact h'
  | cons x rest ih =>
    refine ⟨fun hrole id hid => ?_, ih h.2⟩
    have hcount := h.1 hrole id hid
    rwa [← takeWhile_append_barrier rest ms' m hm] at hcount

/-- A message whose calls the following tool messages answer once each. -/
theorem wellAnswered_answer {m : Message} {results : List Message}
    (htools : ∀ x ∈ results, x.role = .tool)
    (h : ∀ id ∈ callIds m.parts, (resultsIn results).count id = 1) :
    WellAnswered (m :: results) := by
  have hall : results.takeWhile isTool = results :=
    List.takeWhile_eq_self_iff.mpr (fun x hx => decide_eq_true (htools x hx))
  exact ⟨fun _ id hid => by rw [hall]; exact h id hid, wellAnswered_tools htools⟩

/-- With its input the history of a run is in order. -/
theorem Ready.wellAnswered {history : List Message} {input : AgentInput}
    (h : Ready history input) : WellAnswered (history ++ [input.toMessage]) := by
  cases input with
  | userMessage id text =>
    refine WellAnswered.append h (by simp [AgentInput.toMessage]) ⟨fun hrole => ?_, trivial⟩
    cases hrole
  | toolResult toolCallId output isError =>
    obtain ⟨before, m, after, rfl, hrole, hafter, hbefore, _, hnone, hother⟩ := h
    rw [List.append_assoc, List.cons_append]
    refine hbefore.append (by rw [hrole]; simp) (wellAnswered_answer ?_ ?_)
    · intro x hx
      rcases List.mem_append.mp hx with hx | hx
      · exact hafter x hx
      · rw [List.mem_singleton.mp hx]
        rfl
    · intro id hid
      have hresult : resultsIn [AgentInput.toMessage (.toolResult toolCallId output isError)] =
          [toolCallId] := rfl
      rw [resultsIn_append, hresult, List.count_append, List.count_singleton]
      by_cases hsame : toolCallId = id
      · subst hsame
        simp [hnone]
      · rw [hother id hid (fun heq => hsame heq.symm)]
        simp [hsame]

end Histories

section Turns

variable {agent : Agent} {runId : String} {turns : ℕ → Turn} {input : AgentInput}

/-- Results of the tool role, one for each of a list of calls. -/
theorem results_map {α : Type} (xs : List α) (f : α → Message) (id : α → String)
    (hrole : ∀ x, (f x).role = .tool) (hid : ∀ x, resultIds (f x).parts = [id x]) :
    (∀ m ∈ xs.map f, m.role = .tool) ∧ resultsIn (xs.map f) = xs.map id := by
  constructor
  · intro m hm
    obtain ⟨x, _, rfl⟩ := List.mem_map.mp hm
    exact hrole x
  · induction xs with
    | nil => rfl
    | cons x rest ih => rw [List.map_cons, resultsIn_cons, hid, ih, List.map_cons]; rfl

theorem results_toolResults (execute : ℕ → Except ToolCallError Value) (i : ℕ)
    (calls : List ToolCall) :
    (∀ m ∈ Agent.toolResults execute i calls, m.role = .tool) ∧
      resultsIn (Agent.toolResults execute i calls) = calls.map ToolCall.id := by
  induction calls generalizing i with
  | nil => exact ⟨by simp [Agent.toolResults], rfl⟩
  | cons call rest ih =>
    obtain ⟨hroles, hids⟩ := ih (i + 1)
    refine ⟨fun m hm => ?_, congrArg (call.id :: ·) hids⟩
    rcases List.mem_cons.mp hm with rfl | hm
    · rfl
    · exact hroles m hm

/-- The history after an answer and the results of its calls. -/
theorem wellAnswered_turn {turn : Turn} {s : RunState} {response : CompletionResponse}
    {results : List Message} (hs : WellAnswered s.history)
    (hfresh : (callIds response.parts).Nodup)
    (hresults : (∀ m ∈ results, m.role = .tool) ∧ resultsIn results = callIds response.parts) :
    WellAnswered ((answered agent turn s response).history ++ results) := by
  have hhistory : (answered agent turn s response).history ++ results =
      s.history ++ ⟨turn.msgId, .assistant, response.parts⟩ :: results := by
    simp [answered, Agent.receive, Agent.send]
  rw [hhistory]
  refine hs.append (by simp) (wellAnswered_answer hresults.1 (fun id hid => ?_))
  rw [hresults.2]
  exact List.nodup_iff_count_eq_one.mp hfresh id hid

/-- A turn after which the loop goes on answers all its calls once. -/
theorem iterate_next_answered {turn : Turn} {s s' : RunState}
    (hfresh : ∀ response, turn.response = .ok response → (callIds response.parts).Nodup)
    (hs : WellAnswered s.history) (h : agent.iterate runId turn s = .next s') :
    WellAnswered s'.history := by
  have hcomes := iterate_comesTo agent runId turn s
  rw [h] at hcomes
  cases hcomes with
  | textNudged response name hresponse hcalls htool hretries =>
    have hnone : callIds response.parts = [] := by rw [callIds, hcalls]; rfl
    have hanswer : WellAnswered ((answered agent turn s response).history ++ []) :=
      wellAnswered_turn hs (hfresh response hresponse) ⟨by simp, hnone.symm⟩
    rw [List.append_nil] at hanswer
    refine hanswer.append (by simp [Agent.missingHandoffNudge, Message.user]) ⟨?_, trivial⟩
    intro hrole
    cases hrole
  | rejected response name data reason hresponse hhandoff hinvalid hretries =>
    exact wellAnswered_turn hs (hfresh response hresponse)
      (results_map _ (Agent.rejectionResult name reason) ToolCall.id (fun _ => rfl)
        (fun _ => rfl))
  | nudged response first rest hresponse hcalls hhandoff hstuck hnudge =>
    refine wellAnswered_turn hs (hfresh response hresponse) ?_
    rw [callIds, hcalls]
    exact results_map _ Agent.nudgeResult ToolCall.id (fun _ => rfl) (fun _ => rfl)
  | executed response first rest hresponse hcalls hhandoff hstuck hnudge hcancelled =>
    refine wellAnswered_turn hs (hfresh response hresponse) ?_
    rw [callIds, hcalls]
    exact results_toolResults turn.execute 0 (first :: rest)

/-- An iteration makes one request, with the history it starts from. -/
theorem iterate_requests (agent : Agent) (runId : String) (turn : Turn) (s : RunState) :
    (agent.iterate runId turn s).state.requests = s.requests ++ [agent.request s] := by
  have hcomes := iterate_comesTo agent runId turn s
  generalize agent.iterate runId turn s = flow at hcomes
  cases hcomes <;> rfl

theorem iterate_requests_answered (agent : Agent) (runId : String) (turn : Turn) {s : RunState}
    (hs : WellAnswered s.history) (hrequests : RequestsAnswered s.requests) :
    RequestsAnswered (agent.iterate runId turn s).state.requests := by
  intro r hr
  rw [iterate_requests] at hr
  rcases List.mem_append.mp hr with hr | hr
  · exact hrequests r hr
  · rw [List.mem_singleton.mp hr]
    exact hs

end Turns

/-- Whenever a run calls the provider, every call of an assistant message of the history
is answered by exactly one result before the next user or assistant message, if that
holds of the history it starts from and no answer uses a call id twice. -/
theorem run_requests_answered (agent : Agent) (input : AgentInput) (runId : String)
    (turns : ℕ → Turn) (hready : Ready agent.history input)
    (hfresh : ∀ k response, (turns k).response = .ok response →
      (callIds response.parts).Nodup) :
    RequestsAnswered (agent.run input runId turns).1.requests := by
  have hstates : ∀ k s, stateAt agent runId turns input k = some s →
      WellAnswered s.history ∧ RequestsAnswered s.requests := by
    refine stateAt_induct ⟨hready.wellAnswered, by simp [Agent.entry, RequestsAnswered]⟩ ?_
    rintro k s s' - ⟨hhistory, hrequests⟩ hflow
    have hsent := iterate_requests_answered agent runId (turns k) hhistory hrequests
    rw [hflow] at hsent
    exact ⟨iterate_next_answered (hfresh k) hhistory hflow, hsent⟩
  obtain ⟨k, s, hstate, hrun⟩ := run_cases agent runId turns input
  obtain ⟨hhistory, hrequests⟩ := hstates k s hstate
  rcases hrun with hrun | hrun | ⟨s', result, _, hflow, hrun⟩
  · rw [hrun]
    exact hrequests
  · rw [hrun]
    exact hrequests
  · have hsent := iterate_requests_answered agent runId (turns k) hhistory hrequests
    rw [hflow] at hsent
    rw [hrun]
    exact hsent

def askedAgent : Agent :=
  ⟨"", [], none, none, AgentConfig.default,
    [Message.user "u" "go", ⟨"m", .assistant, [.toolCall "ask" "conclude" .null]⟩]⟩

theorem askedAgent_ready : Ready askedAgent.history (.toolResult "ask" "yes" false) := by
  refine ⟨[Message.user "u" "go"], ⟨"m", .assistant, [.toolCall "ask" "conclude" .null]⟩, [],
    rfl, rfl, by simp, ⟨fun hrole => (by cases hrole), trivial⟩, List.mem_cons_self, rfl, ?_⟩
  intro other hother hne
  exact absurd (List.mem_singleton.mp hother) hne

/-- The calls of a run that goes on from the awaited result are answered in place. -/
theorem run_requests_answered_asked :
    RequestsAnswered (askedAgent.run (.toolResult "ask" "yes" false) "run" (fun _ =>
      ⟨false, "m", [],
        .ok ⟨[.toolCall "a" "ls" .null, .toolCall "b" "cat" .null], .toolUse, ⟨1, 1⟩⟩,
        false, fun _ => .ok .null⟩)).1.requests := by
  refine run_requests_answered askedAgent _ "run" _ askedAgent_ready (fun k response h => ?_)
  cases h
  decide

end October.AnsweredTurns
