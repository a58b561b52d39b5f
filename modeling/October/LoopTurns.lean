import October.AgentLoop

/-!
The turns of one run of the agent loop. An iteration comes to one of eleven ends,
each with the state it leaves; the state at the start of turn `k`, if the run gets
that far, is a function of the turns before it, and the run returns what the turn
it gets to last comes to.
-/

namespace October.LoopTurns

section Iteration

variable (agent : Agent) (runId : String) (turn : Turn) (s : RunState)

def answered (response : CompletionResponse) : RunState :=
  Agent.receive turn response (agent.send turn s)

def remembered (response : CompletionResponse) (calls : List ToolCall) : RunState :=
  { answered agent turn s response with
    recentFingerprints := agent.remember (toolFingerprint calls) s.recentFingerprints }

def Repeated (threshold : ℕ) (calls : List ToolCall) : Prop :=
  Agent.repeats threshold (toolFingerprint calls)
    (agent.remember (toolFingerprint calls) s.recentFingerprints) = true

instance (threshold : ℕ) (calls : List ToolCall) : Decidable (Repeated agent s threshold calls) :=
  inferInstanceAs (Decidable (_ = true))

/-- Everything an iteration can come to. -/
inductive ComesTo : Flow → Prop
  | providerFailed (e : LlmError) (hresponse : turn.response = .error e) :
    ComesTo (.done (agent.send turn s) (.error (.provider e)))
  | completed (response : CompletionResponse) (hresponse : turn.response = .ok response)
    (hcalls : extractToolCalls response.parts = []) (htool : agent.handoffTool = none) :
    ComesTo (Agent.finish runId (.completed (extractText response.parts))
      (answered agent turn s response))
  | textNudged (response : CompletionResponse) (name : String)
    (hresponse : turn.response = .ok response) (hcalls : extractToolCalls response.parts = [])
    (htool : agent.handoffTool = some name)
    (hretries : s.handoffMissingRetries < agent.config.handoffMaxRetries) :
    ComesTo (.next (({ answered agent turn s response with
      handoffMissingRetries := s.handoffMissingRetries + 1 }).push
        (Agent.missingHandoffNudge name (s.iteration + 1))))
  | textFailed (response : CompletionResponse) (name : String)
    (hresponse : turn.response = .ok response) (hcalls : extractToolCalls response.parts = [])
    (htool : agent.handoffTool = some name)
    (hretries : agent.config.handoffMaxRetries ≤ s.handoffMissingRetries) :
    ComesTo (.done (answered agent turn s response) (.error (.handoffValidationFailed name
      "model ended its turn with text instead of calling the handoff tool")))
  | handedOff (response : CompletionResponse) (name : String) (data : Value)
    (hresponse : turn.response = .ok response)
    (hhandoff : agent.handoffCall (extractToolCalls response.parts) = some (name, data))
    (hvalid : agent.validateHandoff name (extractToolCalls response.parts) data = none) :
    ComesTo (Agent.finish runId (.handoff name data) (answered agent turn s response))
  | rejected (response : CompletionResponse) (name : String) (data : Value) (reason : String)
    (hresponse : turn.response = .ok response)
    (hhandoff : agent.handoffCall (extractToolCalls response.parts) = some (name, data))
    (hinvalid : agent.validateHandoff name (extractToolCalls response.parts) data = some reason)
    (hretries : s.handoffRetries < agent.config.handoffMaxRetries) :
    ComesTo (.next { answered agent turn s response with
      handoffRetries := s.handoffRetries + 1
      history := (answered agent turn s response).history ++
        (extractToolCalls response.parts).map (Agent.rejectionResult name reason) })
  | rejectionFailed (response : CompletionResponse) (name : String) (data : Value)
    (reason : String) (hresponse : turn.response = .ok response)
    (hhandoff : agent.handoffCall (extractToolCalls response.parts) = some (name, data))
    (hinvalid : agent.validateHandoff name (extractToolCalls response.parts) data = some reason)
    (hretries : agent.config.handoffMaxRetries ≤ s.handoffRetries) :
    ComesTo (.done (answered agent turn s response)
      (.error (.handoffValidationFailed name reason)))
  | stuck (response : CompletionResponse) (first : ToolCall) (rest : List ToolCall)
    (hresponse : turn.response = .ok response)
    (hcalls : extractToolCalls response.parts = first :: rest)
    (hhandoff : agent.handoffCall (first :: rest) = none)
    (hstuck : Repeated agent s agent.config.stuckThreshold (first :: rest)) :
    ComesTo (.done (remembered agent turn s response (first :: rest))
      (.error (.stuckInLoop first.name agent.config.stuckThreshold)))
  | nudged (response : CompletionResponse) (first : ToolCall) (rest : List ToolCall)
    (hresponse : turn.response = .ok response)
    (hcalls : extractToolCalls response.parts = first :: rest)
    (hhandoff : agent.handoffCall (first :: rest) = none)
    (hstuck : ¬ Repeated agent s agent.config.stuckThreshold (first :: rest))
    (hnudge : Repeated agent s agent.config.nudgeThreshold (first :: rest)) :
    ComesTo (.next { remembered agent turn s response (first :: rest) with
      history := (answered agent turn s response).history ++
        (first :: rest).map Agent.nudgeResult })
  | cancelled (response : CompletionResponse) (first : ToolCall) (rest : List ToolCall)
    (hresponse : turn.response = .ok response)
    (hcalls : extractToolCalls response.parts = first :: rest)
    (hhandoff : agent.handoffCall (first :: rest) = none)
    (hstuck : ¬ Repeated agent s agent.config.stuckThreshold (first :: rest))
    (hnudge : ¬ Repeated agent s agent.config.nudgeThreshold (first :: rest))
    (hcancelled : turn.cancelledBeforeTools = true) :
    ComesTo (.done (remembered agent turn s response (first :: rest)) (.error .cancelled))
  | executed (response : CompletionResponse) (first : ToolCall) (rest : List ToolCall)
    (hresponse : turn.response = .ok response)
    (hcalls : extractToolCalls response.parts = first :: rest)
    (hhandoff : agent.handoffCall (first :: rest) = none)
    (hstuck : ¬ Repeated agent s agent.config.stuckThreshold (first :: rest))
    (hnudge : ¬ Repeated agent s agent.config.nudgeThreshold (first :: rest))
    (hcancelled : turn.cancelledBeforeTools = false) :
    ComesTo (.next { remembered agent turn s response (first :: rest) with
      history := (answered agent turn s response).history ++
        Agent.toolResults turn.execute 0 (first :: rest)
      emitted := (answered agent turn s response).emitted ++
        Agent.toolEvents turn.execute 0 (first :: rest) })

end Iteration

section Inversion

variable {agent : Agent} {runId : String} {turn : Turn} {s : RunState}

theorem answerText_comesTo {response : CompletionResponse}
    (hresponse : turn.response = .ok response) (hcalls : extractToolCalls response.parts = []) :
    ComesTo agent runId turn s
      (agent.answerText runId response (answered agent turn s response)) := by
  unfold Agent.answerText
  cases htool : agent.handoffTool with
  | none => exact .completed response hresponse hcalls htool
  | some name =>
    dsimp only
    split
    · exact .textFailed response name hresponse hcalls htool ‹_›
    · exact .textNudged response name hresponse hcalls htool (Nat.lt_of_not_le ‹_›)

theorem answerHandoff_comesTo {response : CompletionResponse} {name : String} {data : Value}
    (hresponse : turn.response = .ok response)
    (hhandoff : agent.handoffCall (extractToolCalls response.parts) = some (name, data)) :
    ComesTo agent runId turn s (agent.answerHandoff runId name data
      (extractToolCalls response.parts) (answered agent turn s response)) := by
  unfold Agent.answerHandoff
  cases hvalid : agent.validateHandoff name (extractToolCalls response.parts) data with
  | none => exact .handedOff response name data hresponse hhandoff hvalid
  | some reason =>
    dsimp only
    split
    · exact .rejectionFailed response name data reason hresponse hhandoff hvalid ‹_›
    · exact .rejected response name data reason hresponse hhandoff hvalid (Nat.lt_of_not_le ‹_›)

theorem answerTools_comesTo {response : CompletionResponse} {first : ToolCall}
    {rest : List ToolCall} (hresponse : turn.response = .ok response)
    (hcalls : extractToolCalls response.parts = first :: rest)
    (hhandoff : agent.handoffCall (first :: rest) = none) :
    ComesTo agent runId turn s
      (agent.answerTools turn first rest (answered agent turn s response)) := by
  simp only [Agent.answerTools, Agent.executeTools_eq]
  split
  · exact .stuck response first rest hresponse hcalls hhandoff ‹_›
  · split
    · exact .nudged response first rest hresponse hcalls hhandoff ‹_› ‹_›
    · split
      · exact .cancelled response first rest hresponse hcalls hhandoff ‹_› ‹_› ‹_›
      · exact .executed response first rest hresponse hcalls hhandoff ‹_› ‹_›
          (Bool.eq_false_iff.mpr ‹_›)

/-- An iteration comes to one of the listed ends. -/
theorem iterate_comesTo (agent : Agent) (runId : String) (turn : Turn) (s : RunState) :
    ComesTo agent runId turn s (agent.iterate runId turn s) := by
  unfold Agent.iterate
  cases hresponse : turn.response with
  | error e => exact .providerFailed e hresponse
  | ok response =>
    dsimp only [Agent.answer]
    cases hcalls : extractToolCalls response.parts with
    | nil => exact answerText_comesTo hresponse hcalls
    | cons first rest =>
      dsimp only
      cases hhandoff : agent.handoffCall (first :: rest) with
      | some call =>
        rw [← hcalls] at hhandoff ⊢
        exact answerHandoff_comesTo hresponse hhandoff
      | none => exact answerTools_comesTo hresponse hcalls hhandoff

end Inversion

section Handoff

variable {agent : Agent}

/-- What counts as a handoff call names the handoff tool and has the input of the call. -/
theorem handoffCall_some {calls : List ToolCall} {name : String} {data : Value}
    (h : agent.handoffCall calls = some (name, data)) :
    agent.handoffTool = some name ∧ ∃ call ∈ calls, call.name = name ∧ call.input = data := by
  unfold Agent.handoffCall at h
  cases htool : agent.handoffTool with
  | none =>
    rw [htool] at h
    cases h
  | some handoffName =>
    rw [htool] at h
    obtain ⟨call, hfind, hcall⟩ := Option.map_eq_some_iff.mp h
    cases hcall
    have hname : (call.name == name) = true := by simpa using List.find?_some hfind
    exact ⟨rfl, call, List.mem_of_find?_eq_some hfind, beq_iff_eq.mp hname, rfl⟩

theorem accepted_valid {validator : Validator}
    (hvalidator : agent.handoffValidator = some validator) {calls : List ToolCall}
    {name : String} {data : Value}
    (hvalid : agent.validateHandoff name calls data = none) : validator.isValid data = true := by
  rw [Agent.validateHandoff, hvalidator] at hvalid
  split at hvalid
  · cases hvalid
  · dsimp only at hvalid
    split at hvalid
    · assumption
    · cases hvalid

end Handoff

section Run

variable (agent : Agent) (runId : String) (turns : ℕ → Turn) (input : AgentInput)

/-- The loop's variables at the start of turn `k`, if the run gets that far. -/
def stateAt : ℕ → Option RunState
  | 0 => some (agent.entry input)
  | k + 1 =>
    match stateAt k with
    | none => none
    | some s =>
      if k < agent.config.maxIterations ∧ (turns k).cancelled = false then
        match agent.iterate runId (turns k) s with
        | .next s' => some s'
        | .done _ _ => none
      else none

structure Takes (k : ℕ) (s : RunState) : Prop where
  state : stateAt agent runId turns input k = some s
  allowed : k < agent.config.maxIterations
  notCancelled : (turns k).cancelled = false

variable {agent runId turns input}

theorem stateAt_succ_iff {k : ℕ} {s' : RunState} :
    stateAt agent runId turns input (k + 1) = some s' ↔
      ∃ s, Takes agent runId turns input k s ∧ agent.iterate runId (turns k) s = .next s' := by
  constructor
  · intro h
    unfold stateAt at h
    cases hs : stateAt agent runId turns input k with
    | none => simp [hs] at h
    | some s =>
      simp only [hs] at h
      split at h
      · rename_i htaken
        cases hflow : agent.iterate runId (turns k) s with
        | next t =>
          simp only [hflow, Option.some.injEq] at h
          exact ⟨s, ⟨hs, htaken.1, htaken.2⟩, h ▸ hflow⟩
        | done t result => simp [hflow] at h
      · cases h
  · rintro ⟨s, htakes, hflow⟩
    simp only [stateAt, htakes.state]
    rw [if_pos ⟨htakes.allowed, htakes.notCancelled⟩, hflow]

/-- What holds at the entry and is kept by every turn holds at the start of each turn. -/
theorem stateAt_induct {P : ℕ → RunState → Prop} (hentry : P 0 (agent.entry input))
    (hstep : ∀ k s s', Takes agent runId turns input k s → P k s →
      agent.iterate runId (turns k) s = .next s' → P (k + 1) s')
    (k : ℕ) (s : RunState) (h : stateAt agent runId turns input k = some s) : P k s := by
  induction k generalizing s with
  | zero =>
    cases Option.some.inj h
    exact hentry
  | succ k ih =>
    obtain ⟨t, htakes, hflow⟩ := stateAt_succ_iff.mp h
    exact hstep k t s htakes (ih t htakes.state) hflow

/-- An iteration counts itself. -/
theorem iterate_iteration (agent : Agent) (runId : String) (turn : Turn) (s : RunState) :
    (agent.iterate runId turn s).state.iteration = s.iteration + 1 := by
  have hcomes := iterate_comesTo agent runId turn s
  generalize agent.iterate runId turn s = flow at hcomes
  cases hcomes <;> rfl

theorem iteration_next {turn : Turn} {s s' : RunState}
    (h : agent.iterate runId turn s = .next s') : s'.iteration = s.iteration + 1 := by
  rw [← iterate_iteration agent runId turn s, h]
  rfl

theorem iteration_done {turn : Turn} {s s' : RunState} {result : Except AgentError AgentOutput}
    (h : agent.iterate runId turn s = .done s' result) : s'.iteration = s.iteration + 1 := by
  rw [← iterate_iteration agent runId turn s, h]
  rfl

theorem stateAt_iteration {k : ℕ} {s : RunState}
    (h : stateAt agent runId turns input k = some s) : s.iteration = k := by
  refine stateAt_induct (P := fun k s => s.iteration = k) rfl ?_ k s h
  intro k s s' _ hs hflow
  rw [iteration_next hflow, hs]

theorem stateAt_le {k : ℕ} {s : RunState} (h : stateAt agent runId turns input k = some s) :
    k ≤ agent.config.maxIterations := by
  cases k with
  | zero => exact Nat.zero_le _
  | succ k =>
    obtain ⟨_, htakes, _⟩ := stateAt_succ_iff.mp h
    exact htakes.allowed

/-- From the start of any turn on, the run is the loop with the iterations left. -/
theorem run_eq_loop {k : ℕ} {s : RunState} (h : stateAt agent runId turns input k = some s) :
    agent.run input runId turns = agent.loop runId turns (agent.config.maxIterations - k) s := by
  refine stateAt_induct (P := fun k s => agent.run input runId turns =
    agent.loop runId turns (agent.config.maxIterations - k) s) rfl ?_ k s h
  intro k s s' htakes hrun hflow
  have hleft : agent.config.maxIterations - k = (agent.config.maxIterations - (k + 1)) + 1 := by
    have := htakes.allowed
    omega
  have hiteration := stateAt_iteration htakes.state
  rw [hrun, hleft, Agent.loop, hiteration, htakes.notCancelled, hflow]
  rfl

/-- A turn that ends the run decides what it returns. -/
theorem Takes.run_eq {k : ℕ} {s s' : RunState} {result : Except AgentError AgentOutput}
    (h : Takes agent runId turns input k s)
    (hflow : agent.iterate runId (turns k) s = .done s' result) :
    agent.run input runId turns = (s', result) := by
  have hleft : agent.config.maxIterations - k = (agent.config.maxIterations - (k + 1)) + 1 := by
    have := h.allowed
    omega
  rw [run_eq_loop h.state, hleft, Agent.loop, stateAt_iteration h.state, h.notCancelled, hflow]
  rfl

variable (agent runId turns input)

/-- How a run returns: cancelled or out of iterations at the start of a turn, or with
what its last turn came to. -/
theorem run_cases :
    ∃ k s, stateAt agent runId turns input k = some s ∧
      (agent.run input runId turns = (s, .error .cancelled) ∨
        agent.run input runId turns =
          (s, .error (.maxIterationsExceeded agent.config.maxIterations)) ∨
        ∃ s' result, Takes agent runId turns input k s ∧
          agent.iterate runId (turns k) s = .done s' result ∧
          agent.run input runId turns = (s', result)) := by
  have hfrom : ∀ remaining k s, stateAt agent runId turns input k = some s →
      k + remaining = agent.config.maxIterations →
      ∃ k s, stateAt agent runId turns input k = some s ∧
        (agent.run input runId turns = (s, .error .cancelled) ∨
          agent.run input runId turns =
            (s, .error (.maxIterationsExceeded agent.config.maxIterations)) ∨
          ∃ s' result, Takes agent runId turns input k s ∧
            agent.iterate runId (turns k) s = .done s' result ∧
            agent.run input runId turns = (s', result)) := by
    intro remaining
    induction remaining with
    | zero =>
      intro k s hs hk
      refine ⟨k, s, hs, ?_⟩
      rw [run_eq_loop hs, show agent.config.maxIterations - k = 0 by omega, Agent.loop]
      split
      · exact Or.inl rfl
      · exact Or.inr (Or.inl rfl)
    | succ remaining ih =>
      intro k s hs hk
      by_cases hcancelled : (turns k).cancelled = true
      · refine ⟨k, s, hs, Or.inl ?_⟩
        rw [run_eq_loop hs, show agent.config.maxIterations - k = remaining + 1 by omega,
          Agent.loop, stateAt_iteration hs, hcancelled]
        rfl
      · have htakes : Takes agent runId turns input k s :=
          ⟨hs, by omega, Bool.eq_false_iff.mpr hcancelled⟩
        cases hflow : agent.iterate runId (turns k) s with
        | next s' =>
          exact ih (k + 1) s' (stateAt_succ_iff.mpr ⟨s, htakes, hflow⟩) (by omega)
        | done s' result =>
          exact ⟨k, s, hs, Or.inr (Or.inr ⟨s', result, htakes, hflow, htakes.run_eq hflow⟩)⟩
  exact hfrom _ 0 _ rfl (Nat.zero_add _)

end Run

end October.LoopTurns
