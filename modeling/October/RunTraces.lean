import October.LoopTurns

/-!
The events of a run. The input comes first; a turn announces a message, passes on what the
provider streams, stops and completes the message with the provider's answer under one id,
and then announces and completes each of its tool calls or none of them. A run that
returns a result ends with one event that says so; one that fails stops behind a turn, or
where the provider did.
-/

namespace October.RunTraces

open LoopTurns

/-- Each call is announced and completed under its id with what its tool came to, in order,
from call number `i` on. -/
inductive ToolPairs (execute : ℕ → Except ToolCallError Value) :
    ℕ → List ToolCall → List AgentEvent → Prop
  | nil (i : ℕ) : ToolPairs execute i [] []
  | cons (i : ℕ) (call : ToolCall) (rest : List ToolCall) (output : String) (isError : Bool)
    (events : List AgentEvent) (houtput : Agent.toolOutput (execute i) = (output, isError))
    (h : ToolPairs execute (i + 1) rest events) :
    ToolPairs execute i (call :: rest) (.toolExecuting ("result:" ++ call.id) call.id ::
      .toolComplete ("result:" ++ call.id) call.id output isError :: events)

def opened (turn : Turn) : List AgentEvent :=
  .messageStart turn.msgId .assistant :: turn.stream.map .stream

def turnMessage (turn : Turn) (response : CompletionResponse) : Message :=
  ⟨turn.msgId, .assistant, response.parts⟩

def messageEvents (turn : Turn) (response : CompletionResponse) : List AgentEvent :=
  opened turn ++
    [.messageStop turn.msgId, .messageComplete turn.msgId (turnMessage turn response)]

inductive TurnTrace (turn : Turn) : List AgentEvent → Prop
  | mk (response : CompletionResponse) (tools : List AgentEvent)
    (hresponse : turn.response = .ok response)
    (htools : tools = [] ∨
      ToolPairs turn.execute 0 (extractToolCalls response.parts) tools) :
    TurnTrace turn (messageEvents turn response ++ tools)

inductive TurnsTrace (turns : ℕ → Turn) : ℕ → List AgentEvent → Prop
  | nil : TurnsTrace turns 0 []
  | snoc (n : ℕ) (events last : List AgentEvent) (h : TurnsTrace turns n events)
    (hlast : TurnTrace (turns n) last) : TurnsTrace turns (n + 1) (events ++ last)

def isMessageComplete : AgentEvent → Bool
  | .messageComplete _ _ => true
  | _ => false

def isRunComplete : AgentEvent → Bool
  | .runComplete _ _ _ => true
  | _ => false

section Counts

theorem ToolPairs.counts {execute : ℕ → Except ToolCallError Value} {i : ℕ}
    {calls : List ToolCall} {events : List AgentEvent} (h : ToolPairs execute i calls events) :
    events.countP isMessageComplete = 0 ∧ events.countP isRunComplete = 0 := by
  induction h with
  | nil i => exact ⟨rfl, rfl⟩
  | cons i call rest output isError events houtput h ih =>
    simpa [List.countP_cons, isMessageComplete, isRunComplete] using ih

theorem opened_counts (turn : Turn) :
    (opened turn).countP isMessageComplete = 0 ∧ (opened turn).countP isRunComplete = 0 := by
  simp [opened, isMessageComplete, isRunComplete]

theorem TurnTrace.counts {turn : Turn} {events : List AgentEvent} (h : TurnTrace turn events) :
    events.countP isMessageComplete = 1 ∧ events.countP isRunComplete = 0 := by
  obtain ⟨response, tools, _, htools⟩ := h
  have htools : tools.countP isMessageComplete = 0 ∧ tools.countP isRunComplete = 0 := by
    rcases htools with rfl | htools
    · exact ⟨rfl, rfl⟩
    · exact htools.counts
  have hopened := opened_counts turn
  simp only [messageEvents, List.countP_append, List.countP_cons, List.countP_nil,
    isMessageComplete, isRunComplete, hopened, htools]
  exact ⟨rfl, rfl⟩

/-- A trace of `n` turns completes `n` messages and no run. -/
theorem TurnsTrace.counts {turns : ℕ → Turn} {n : ℕ} {events : List AgentEvent}
    (h : TurnsTrace turns n events) :
    events.countP isMessageComplete = n ∧ events.countP isRunComplete = 0 := by
  induction h with
  | nil => exact ⟨rfl, rfl⟩
  | snoc n events last h hlast ih =>
    have hcounts := hlast.counts
    rw [List.countP_append, List.countP_append]
    omega

end Counts

section Turns

variable {agent : Agent} {runId : String} {turns : ℕ → Turn} {input : AgentInput}

theorem toolEvents_pairs (execute : ℕ → Except ToolCallError Value) (i : ℕ)
    (calls : List ToolCall) : ToolPairs execute i calls (Agent.toolEvents execute i calls) := by
  induction calls generalizing i with
  | nil => exact .nil i
  | cons call rest ih => exact .cons i call rest _ _ _ rfl (ih (i + 1))

theorem answered_emitted (agent : Agent) (turn : Turn) (s : RunState)
    (response : CompletionResponse) :
    (answered agent turn s response).emitted = s.emitted ++ messageEvents turn response := by
  simp [answered, Agent.receive, Agent.send, messageEvents, opened, turnMessage]

theorem turnTrace_silent {turn : Turn} {response : CompletionResponse}
    (h : turn.response = .ok response) : TurnTrace turn (messageEvents turn response) := by
  have htrace := TurnTrace.mk response [] h (Or.inl rfl)
  rwa [List.append_nil] at htrace

/-- A turn after which the run goes on emits its events. -/
theorem iterate_next_emitted {turn : Turn} {s s' : RunState}
    (h : agent.iterate runId turn s = .next s') :
    ∃ events, TurnTrace turn events ∧ s'.emitted = s.emitted ++ events := by
  have hcomes := iterate_comesTo agent runId turn s
  rw [h] at hcomes
  cases hcomes with
  | textNudged response name hresponse hcalls htool hretries =>
    exact ⟨_, turnTrace_silent hresponse, answered_emitted agent turn s response⟩
  | rejected response name data reason hresponse hhandoff hinvalid hretries =>
    exact ⟨_, turnTrace_silent hresponse, answered_emitted agent turn s response⟩
  | nudged response first rest hresponse hcalls hhandoff hstuck hnudge =>
    exact ⟨_, turnTrace_silent hresponse, answered_emitted agent turn s response⟩
  | executed response first rest hresponse hcalls hhandoff hstuck hnudge hcancelled =>
    refine ⟨_, .mk response (Agent.toolEvents turn.execute 0 (first :: rest)) hresponse
      (Or.inr ?_), ?_⟩
    · rw [hcalls]
      exact toolEvents_pairs turn.execute 0 (first :: rest)
    · rw [← List.append_assoc, ← answered_emitted agent turn s response]

/-- At the start of turn `k` the events are the input and those of `k` turns. -/
theorem stateAt_emitted {k : ℕ} {s : RunState}
    (h : stateAt agent runId turns input k = some s) :
    ∃ events, TurnsTrace turns k events ∧
      s.emitted = .inputMessage input.messageId input :: events := by
  refine stateAt_induct (P := fun k s => ∃ events, TurnsTrace turns k events ∧
    s.emitted = .inputMessage input.messageId input :: events) ⟨[], .nil, rfl⟩ ?_ k s h
  rintro k s s' - ⟨events, htrace, hs⟩ hflow
  obtain ⟨last, hlast, hs'⟩ := iterate_next_emitted hflow
  refine ⟨events ++ last, .snoc k events last htrace hlast, ?_⟩
  rw [hs', hs, List.cons_append]

/-- How the last turn of a run ends. -/
inductive LastTurn (runId : String) (turn : Turn) (s s' : RunState) :
    Except AgentError AgentOutput → Prop
  | completed (out : AgentOutput) (events : List AgentEvent) (h : TurnTrace turn events)
    (hemitted : s'.emitted =
      s.emitted ++ events ++ [.runComplete runId out.usage (s.iteration + 1)]) :
    LastTurn runId turn s s' (.ok out)
  | stopped (e : AgentError) (events : List AgentEvent) (h : TurnTrace turn events)
    (hemitted : s'.emitted = s.emitted ++ events) : LastTurn runId turn s s' (.error e)
  | cut (e : LlmError) (h : turn.response = .error e)
    (hemitted : s'.emitted = s.emitted ++ opened turn) :
    LastTurn runId turn s s' (.error (.provider e))

theorem iterate_done_emitted {turn : Turn} {s s' : RunState}
    {result : Except AgentError AgentOutput}
    (h : agent.iterate runId turn s = .done s' result) : LastTurn runId turn s s' result := by
  have hcomes := iterate_comesTo agent runId turn s
  rw [h] at hcomes
  cases hcomes with
  | providerFailed e hresponse => exact .cut e hresponse rfl
  | completed response hresponse hcalls htool =>
    refine .completed _ _ (turnTrace_silent hresponse) ?_
    rw [← answered_emitted agent turn s response]
    rfl
  | handedOff response name data hresponse hhandoff hvalid =>
    refine .completed _ _ (turnTrace_silent hresponse) ?_
    rw [← answered_emitted agent turn s response]
    rfl
  | textFailed response name hresponse hcalls htool hretries =>
    exact .stopped _ _ (turnTrace_silent hresponse) (answered_emitted agent turn s response)
  | rejectionFailed response name data reason hresponse hhandoff hinvalid hretries =>
    exact .stopped _ _ (turnTrace_silent hresponse) (answered_emitted agent turn s response)
  | stuck response first rest hresponse hcalls hhandoff hstuck =>
    exact .stopped _ _ (turnTrace_silent hresponse) (answered_emitted agent turn s response)
  | cancelled response first rest hresponse hcalls hhandoff hstuck hnudge hcancelled =>
    exact .stopped _ _ (turnTrace_silent hresponse) (answered_emitted agent turn s response)

def inputEvent (input : AgentInput) : AgentEvent := .inputMessage input.messageId input

/-- The trace of a run over these turns: the input and some turns, and then the end of the
run, or nothing, or what the provider had streamed when it failed. -/
inductive RunTrace (input : AgentInput) (runId : String) (maxIterations : ℕ)
    (turns : ℕ → Turn) : List AgentEvent → Except AgentError AgentOutput → Prop
  | completed (n : ℕ) (events : List AgentEvent) (out : AgentOutput)
    (hturns : TurnsTrace turns n events) (hn : n ≤ maxIterations) :
    RunTrace input runId maxIterations turns
      (inputEvent input :: (events ++ [.runComplete runId out.usage n])) (.ok out)
  | stopped (n : ℕ) (events : List AgentEvent) (e : AgentError)
    (hturns : TurnsTrace turns n events) (hn : n ≤ maxIterations) :
    RunTrace input runId maxIterations turns (inputEvent input :: events) (.error e)
  | cut (n : ℕ) (events : List AgentEvent) (e : LlmError)
    (hturns : TurnsTrace turns n events) (hn : n < maxIterations)
    (hresponse : (turns n).response = .error e) :
    RunTrace input runId maxIterations turns
      (inputEvent input :: (events ++ opened (turns n))) (.error (.provider e))

section Run

variable {maxIterations : ℕ} {emitted : List AgentEvent} {result : Except AgentError AgentOutput}

/-- The completed messages of a run are at most as many as the iterations it is allowed, and
without a result it has no `RunComplete`. -/
theorem RunTrace.counts (h : RunTrace input runId maxIterations turns emitted result) :
    emitted.countP isMessageComplete ≤ maxIterations ∧
      ((∃ out, result = .ok out) ∨ emitted.countP isRunComplete = 0) := by
  cases h with
  | completed n events out hturns hn =>
    refine ⟨?_, Or.inl ⟨out, rfl⟩⟩
    simpa [List.countP_cons, List.countP_append, hturns.counts.1, inputEvent,
      isMessageComplete] using hn
  | stopped n events e hturns hn =>
    refine ⟨?_, Or.inr ?_⟩
    · simpa [List.countP_cons, hturns.counts.1, inputEvent, isMessageComplete] using hn
    · simpa [List.countP_cons, inputEvent, isRunComplete] using
        List.countP_eq_zero.mp hturns.counts.2
  | cut n events e hturns hn hresponse =>
    have hopened := opened_counts (turns n)
    refine ⟨?_, Or.inr ?_⟩
    · rw [List.countP_cons, List.countP_append, hturns.counts.1, hopened.1]
      exact Nat.le_of_lt hn
    · rw [List.countP_cons, List.countP_append, hturns.counts.2, hopened.2]
      rfl

/-- A run ends with `RunComplete`, and has no other, exactly if it returns a result. -/
theorem RunTrace.runComplete_iff (h : RunTrace input runId maxIterations turns emitted result) :
    (∃ out, result = .ok out) ↔ ∃ before last, emitted = before ++ [last] ∧
      isRunComplete last = true ∧ before.countP isRunComplete = 0 := by
  constructor
  · rintro ⟨out, rfl⟩
    cases h with
    | completed n events out hturns hn =>
      refine ⟨inputEvent input :: events, _, rfl, rfl, ?_⟩
      rw [List.countP_cons, hturns.counts.2]
      rfl
  · rintro ⟨before, last, hemitted, hlast, -⟩
    refine h.counts.2.resolve_right (fun hnone => ?_)
    rw [hemitted, List.countP_append, List.countP_singleton, hlast] at hnone
    simp at hnone

/-- The turns in which the provider's failures are answers that say nothing. -/
def answeredTurns (turns : ℕ → Turn) (k : ℕ) : Turn :=
  { turns k with
    response := .ok (match (turns k).response with
      | .ok response => response
      | .error _ => ⟨[], .endTurn, ⟨0, 0⟩⟩) }

theorem TurnsTrace.answered {n : ℕ} {events : List AgentEvent}
    (h : TurnsTrace turns n events) : TurnsTrace (answeredTurns turns) n events := by
  induction h with
  | nil => exact .nil
  | snoc n events last h hlast ih =>
    refine .snoc n events last ih ?_
    obtain ⟨response, tools, hresponse, htools⟩ := hlast
    have hanswered : (answeredTurns turns n).response = .ok response := by
      rw [answeredTurns, hresponse]
    exact TurnTrace.mk response tools hanswered htools

/-- The trace of a run that fails is the front of one in which the provider did not. -/
theorem RunTrace.front {e : AgentError}
    (h : RunTrace input runId maxIterations turns emitted (.error e)) :
    ∃ n events, n ≤ maxIterations ∧ TurnsTrace (answeredTurns turns) n events ∧
      emitted <+: inputEvent input :: events := by
  cases h with
  | stopped n events e hturns hn =>
    exact ⟨n, events, hn, hturns.answered, List.prefix_rfl⟩
  | cut n events e hturns hn hresponse =>
    refine ⟨n + 1, _, hn, .snoc n events _ hturns.answered (turnTrace_silent rfl), ?_⟩
    rw [List.cons_prefix_cons, List.prefix_append_right_inj]
    exact ⟨rfl, List.prefix_append _ _⟩

/-- A run that returns a result has the one `RunComplete` it ends with. -/
theorem runComplete_of_mem {events : List AgentEvent} {runId id : String}
    {usage usage' : Usage} {n m : ℕ} (hevents : events.countP isRunComplete = 0)
    (hmem : .runComplete id usage' m ∈
      inputEvent input :: (events ++ [.runComplete runId usage n])) :
    id = runId ∧ usage' = usage ∧ m = n := by
  rcases List.mem_cons.mp hmem with heq | hmem
  · cases heq
  · rcases List.mem_append.mp hmem with hmem | hmem
    · exact absurd rfl (List.countP_eq_zero.mp hevents _ hmem)
    · cases List.mem_singleton.mp hmem
      exact ⟨rfl, rfl, rfl⟩

/-- The iterations a run reports are its completed messages. -/
theorem RunTrace.iterations (h : RunTrace input runId maxIterations turns emitted result) :
    ∀ id usage n, .runComplete id usage n ∈ emitted →
      n = emitted.countP isMessageComplete := by
  intro id usage n hmem
  rcases h.counts.2 with ⟨out, rfl⟩ | hnone
  · cases h with
    | completed m events out hturns hm =>
      obtain ⟨-, -, rfl⟩ := runComplete_of_mem hturns.counts.2 hmem
      simp [List.countP_append, hturns.counts.1, inputEvent, isMessageComplete]
  · exact absurd rfl (List.countP_eq_zero.mp hnone _ hmem)

end Run

/-- The events of every run follow the protocol of a trace with its result. -/
theorem run_runTrace (agent : Agent) (input : AgentInput) (runId : String) (turns : ℕ → Turn) :
    RunTrace input runId agent.config.maxIterations turns
      (agent.run input runId turns).1.emitted (agent.run input runId turns).2 := by
  obtain ⟨k, s, hstate, hrun⟩ := run_cases agent runId turns input
  obtain ⟨events, htrace, hemitted⟩ := stateAt_emitted hstate
  have hk := stateAt_le hstate
  rcases hrun with hrun | hrun | ⟨s', result, htakes, hflow, hrun⟩
  · rw [hrun, hemitted]
    exact .stopped k events _ htrace hk
  · rw [hrun, hemitted]
    exact .stopped k events _ htrace hk
  · have hlast := htakes.allowed
    rw [hrun]
    dsimp only
    cases iterate_done_emitted hflow with
    | completed out last hturn hs' =>
      rw [hs', hemitted, stateAt_iteration hstate]
      exact .completed (k + 1) (events ++ last) out (.snoc k events last htrace hturn) hlast
    | stopped e last hturn hs' =>
      rw [hs', hemitted]
      exact .stopped (k + 1) (events ++ last) e (.snoc k events last htrace hturn) hlast
    | cut e hresponse hs' =>
      rw [hs', hemitted]
      exact .cut k events e htrace hlast hresponse

end Turns

/-- Every run emits its input, then turns, each with what the provider streamed and
answered and one message id, and `RunComplete` exactly once and last if and only if it
returns a result; that event counts the messages, of which there are at most as many as
iterations are allowed. If it fails it has emitted the front of such a trace. -/
theorem run_trace (agent : Agent) (input : AgentInput) (runId : String) (turns : ℕ → Turn) :
    RunTrace input runId agent.config.maxIterations turns
        (agent.run input runId turns).1.emitted (agent.run input runId turns).2 ∧
      ((∃ out, (agent.run input runId turns).2 = .ok out) ↔
        ∃ before last, (agent.run input runId turns).1.emitted = before ++ [last] ∧
          isRunComplete last = true ∧ before.countP isRunComplete = 0) ∧
      (agent.run input runId turns).1.emitted.countP isMessageComplete ≤
        agent.config.maxIterations ∧
      (∀ id usage n, .runComplete id usage n ∈ (agent.run input runId turns).1.emitted →
        n = (agent.run input runId turns).1.emitted.countP isMessageComplete) ∧
      ∀ e, (agent.run input runId turns).2 = .error e →
        (agent.run input runId turns).1.emitted.countP isRunComplete = 0 ∧
        ∃ n events, n ≤ agent.config.maxIterations ∧
          TurnsTrace (answeredTurns turns) n events ∧
          (agent.run input runId turns).1.emitted <+: inputEvent input :: events := by
  have htrace := run_runTrace agent input runId turns
  refine ⟨htrace, htrace.runComplete_iff, htrace.counts.1, htrace.iterations, fun e he => ?_⟩
  refine ⟨htrace.counts.2.resolve_left (by simp [he]), ?_⟩
  rw [he] at htrace
  exact htrace.front

end October.RunTraces
