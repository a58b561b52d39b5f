import October.PermittedCalls
import October.RepeatedTurns
import October.RunOutcomes

/-!
The discipline of a handoff agent. The run ends only by a call of the handoff tool on
its own with a valid input; the toolbox is never asked to execute that tool or a call
made next to it; and rejected or missing handoff calls are tolerated as often as the
configuration allows, counted separately over all turns of the run.
-/

namespace October.HandoffDiscipline

open JournaledTurns LoopTurns RepeatedTurns

section Executed

variable (agent : Agent) (turn : Turn) (s : RunState)

/-- The calls an iteration passes to the toolbox, in order. -/
def executedCalls : List ToolCall :=
  if (agent.handoffCall (turnCalls turn)).isSome = true ∨
      Repeated agent s agent.config.stuckThreshold (turnCalls turn) ∨
      Repeated agent s agent.config.nudgeThreshold (turnCalls turn) ∨
      turn.cancelledBeforeTools = true then []
  else turnCalls turn

def executingId : AgentEvent → Option String
  | .toolExecuting _ toolCallId => some toolCallId
  | _ => none

variable {agent turn s}

theorem executedCalls_handoff {call : String × Value}
    (h : agent.handoffCall (turnCalls turn) = some call) : executedCalls agent turn s = [] := by
  rw [executedCalls, h]
  exact if_pos (Or.inl rfl)

theorem executedCalls_nil (h : turnCalls turn = []) : executedCalls agent turn s = [] := by
  rw [executedCalls, h]
  exact ite_self _

theorem executedCalls_none
    (h : Repeated agent s agent.config.stuckThreshold (turnCalls turn) ∨
      Repeated agent s agent.config.nudgeThreshold (turnCalls turn) ∨
      turn.cancelledBeforeTools = true) : executedCalls agent turn s = [] :=
  if_pos (Or.inr h)

theorem executedCalls_all {response : CompletionResponse} {calls : List ToolCall}
    (hresponse : turn.response = .ok response) (hcalls : extractToolCalls response.parts = calls)
    (hhandoff : agent.handoffCall calls = none)
    (hstuck : ¬ Repeated agent s agent.config.stuckThreshold calls)
    (hnudge : ¬ Repeated agent s agent.config.nudgeThreshold calls)
    (hcancelled : ¬ turn.cancelledBeforeTools = true) : executedCalls agent turn s = calls := by
  rw [executedCalls, turnCalls_eq hresponse, hcalls, hhandoff]
  refine if_neg ?_
  rintro (h | h | h | h)
  · cases h
  · exact hstuck h
  · exact hnudge h
  · exact hcancelled h

theorem toolEvents_executing (execute : ℕ → Except ToolCallError Value) (i : ℕ)
    (calls : List ToolCall) :
    (Agent.toolEvents execute i calls).filterMap executingId = calls.map ToolCall.id := by
  induction calls generalizing i with
  | nil => rfl
  | cons call rest ih => exact congrArg _ (ih (i + 1))

theorem send_executing :
    (agent.send turn s).emitted.filterMap executingId = s.emitted.filterMap executingId := by
  have hstream : (turn.stream.map AgentEvent.stream).filterMap executingId = [] := by
    rw [List.filterMap_map, List.filterMap_eq_nil_iff]
    intro e _
    rfl
  rw [Agent.send, List.filterMap_append, List.filterMap_cons_none rfl, hstream, List.append_nil]

theorem answered_executing (response : CompletionResponse) :
    (answered agent turn s response).emitted.filterMap executingId =
      s.emitted.filterMap executingId := by
  rw [answered, Agent.receive, List.filterMap_append, send_executing]
  exact List.append_nil _

/-- The executions an iteration announces are those of `executedCalls`. -/
theorem iterate_executing (runId : String) :
    (agent.iterate runId turn s).state.emitted.filterMap executingId =
      s.emitted.filterMap executingId ++ (executedCalls agent turn s).map ToolCall.id := by
  have hcomes := iterate_comesTo agent runId turn s
  generalize agent.iterate runId turn s = flow at hcomes
  have hnone (response : CompletionResponse) (hexecuted : executedCalls agent turn s = []) :
      (answered agent turn s response).emitted.filterMap executingId =
        s.emitted.filterMap executingId ++ (executedCalls agent turn s).map ToolCall.id := by
    rw [answered_executing, hexecuted, List.map_nil, List.append_nil]
  have hfinish (t : RunState) (result : AgentResult) :
      (Agent.finish runId result t).state.emitted.filterMap executingId =
        t.emitted.filterMap executingId := by
    rw [Agent.finish, Flow.state, RunState.emit, List.filterMap_append]
    exact List.append_nil _
  cases hcomes with
  | providerFailed e hresponse =>
    have hcalls : turnCalls turn = [] := by rw [turnCalls, hresponse]
    rw [Flow.state, send_executing, executedCalls_nil hcalls, List.map_nil, List.append_nil]
  | completed response hresponse hcalls htool =>
    rw [hfinish]
    exact hnone response (executedCalls_nil (by rw [turnCalls_eq hresponse, hcalls]))
  | textNudged response name hresponse hcalls htool hretries =>
    exact hnone response (executedCalls_nil (by rw [turnCalls_eq hresponse, hcalls]))
  | textFailed response name hresponse hcalls htool hretries =>
    exact hnone response (executedCalls_nil (by rw [turnCalls_eq hresponse, hcalls]))
  | handedOff response name data hresponse hhandoff hvalid =>
    rw [← turnCalls_eq hresponse] at hhandoff
    rw [hfinish]
    exact hnone response (executedCalls_handoff hhandoff)
  | rejected response name data reason hresponse hhandoff hinvalid hretries =>
    rw [← turnCalls_eq hresponse] at hhandoff
    exact hnone response (executedCalls_handoff hhandoff)
  | rejectionFailed response name data reason hresponse hhandoff hinvalid hretries =>
    rw [← turnCalls_eq hresponse] at hhandoff
    exact hnone response (executedCalls_handoff hhandoff)
  | stuck response first rest hresponse hcalls hhandoff hstuck =>
    rw [← hcalls, ← turnCalls_eq hresponse] at hstuck
    exact hnone response (executedCalls_none (Or.inl hstuck))
  | nudged response first rest hresponse hcalls hhandoff hstuck hnudge =>
    rw [← hcalls, ← turnCalls_eq hresponse] at hnudge
    exact hnone response (executedCalls_none (Or.inr (Or.inl hnudge)))
  | cancelled response first rest hresponse hcalls hhandoff hstuck hnudge hcancelled =>
    exact hnone response (executedCalls_none (Or.inr (Or.inr hcancelled)))
  | executed response first rest hresponse hcalls hhandoff hstuck hnudge hcancelled =>
    have hexecuted := executedCalls_all hresponse hcalls hhandoff hstuck hnudge
      (by simp [hcancelled])
    rw [Flow.state, List.filterMap_append, answered_executing, toolEvents_executing, hexecuted]

theorem executeTools_congr {execute execute' : ℕ → Except ToolCallError Value} {i : ℕ}
    {calls : List ToolCall}
    (h : ∀ j < calls.length, execute (i + j) = execute' (i + j)) (s : RunState) :
    Agent.executeTools execute i calls s = Agent.executeTools execute' i calls s := by
  induction calls generalizing i s with
  | nil => rfl
  | cons call rest ih =>
    have hfirst : execute i = execute' i := h 0 (Nat.succ_pos _)
    have hrest : ∀ j < rest.length, execute (i + 1 + j) = execute' (i + 1 + j) := by
      intro j hj
      have hj' := h (j + 1) (Nat.succ_lt_succ hj)
      rwa [Nat.add_comm j 1, ← Nat.add_assoc] at hj'
    rw [Agent.executeTools, Agent.executeTools, hfirst, ih hrest]

/-- An iteration depends on the toolbox's answers to `executedCalls` only. -/
theorem iterate_congr (runId : String) (execute : ℕ → Except ToolCallError Value)
    (h : ∀ i < (executedCalls agent turn s).length, execute i = turn.execute i) :
    agent.iterate runId { turn with execute := execute } s = agent.iterate runId turn s := by
  obtain ⟨cancelled, msgId, stream, answer, cancelledBeforeTools, execute'⟩ := turn
  cases answer with
  | error e => rfl
  | ok response =>
    cases hcalls : extractToolCalls response.parts with
    | nil => simp only [Agent.iterate, Agent.answer, Agent.send, Agent.receive, hcalls]
    | cons first rest =>
      cases hhandoff : agent.handoffCall (first :: rest) with
      | some call =>
        simp only [Agent.iterate, Agent.answer, Agent.send, Agent.receive, hcalls, hhandoff]
      | none =>
        have hanswered : answered agent
            ⟨cancelled, msgId, stream, .ok response, cancelledBeforeTools, execute⟩ s response =
              answered agent
                ⟨cancelled, msgId, stream, .ok response, cancelledBeforeTools, execute'⟩ s
                response := rfl
        rw [iterate_tools rfl hcalls hhandoff, iterate_tools rfl hcalls hhandoff, hanswered]
        simp only [Agent.answerTools]
        split
        · rfl
        · split
          · rfl
          · split
            · rfl
            · rename_i hstuck hnudge hcancelled
              have hexecuted : executedCalls agent
                  ⟨cancelled, msgId, stream, .ok response, cancelledBeforeTools, execute'⟩ s =
                    first :: rest :=
                executedCalls_all rfl hcalls hhandoff hstuck hnudge hcancelled
              rw [hexecuted] at h
              exact congrArg Flow.next
                (executeTools_congr (fun j hj => by simpa using h j hj) _)

variable {toolbox toolbox' : Toolbox}

theorem executeToolsWith_congr {calls : List ToolCall} (s : RunState)
    (h : ∀ call ∈ calls,
      toolbox.execute call.name call.input = toolbox'.execute call.name call.input) :
    Agent.executeToolsWith toolbox calls s = Agent.executeToolsWith toolbox' calls s := by
  induction calls generalizing s with
  | nil => rfl
  | cons call rest ih =>
    rw [Agent.executeToolsWith, Agent.executeToolsWith, h call List.mem_cons_self]
    congr 1
    funext outcome
    exact ih _ (fun other hother => h other (List.mem_cons_of_mem _ hother))

/-- An iteration asks the toolbox to execute `executedCalls` and nothing else. -/
theorem iterateWith_congr (runId : String)
    (h : ∀ call ∈ executedCalls agent turn s,
      toolbox.execute call.name call.input = toolbox'.execute call.name call.input) :
    agent.iterateWith toolbox runId turn s = agent.iterateWith toolbox' runId turn s := by
  unfold Agent.iterateWith
  cases hresponse : turn.response with
  | error e => rfl
  | ok response =>
    dsimp only
    unfold Agent.answerWith
    cases hcalls : extractToolCalls response.parts with
    | nil => rfl
    | cons first rest =>
      dsimp only
      cases hhandoff : agent.handoffCall (first :: rest) with
      | some call => rfl
      | none =>
        simp only [Agent.answerToolsWith]
        split
        · rfl
        · split
          · rfl
          · split
            · rfl
            · rename_i hstuck hnudge hcancelled
              have hexecuted :=
                executedCalls_all hresponse hcalls hhandoff hstuck hnudge hcancelled
              rw [executeToolsWith_congr _ (hexecuted ▸ h)]

/-- An answer with a handoff call goes past the toolbox. -/
theorem iterateWith_handoff (runId : String) {call : String × Value}
    (h : agent.handoffCall (turnCalls turn) = some call) :
    agent.iterateWith toolbox runId turn s = pure (agent.iterate runId turn s) := by
  unfold Agent.iterateWith Agent.iterate
  cases hresponse : turn.response with
  | error e => rfl
  | ok response =>
    rw [turnCalls_eq hresponse] at h
    dsimp only
    unfold Agent.answerWith Agent.answer
    cases hcalls : extractToolCalls response.parts with
    | nil => rfl
    | cons first rest =>
      rw [hcalls] at h
      simp only [h]

/-- A run whose iterations never ask about a name does not depend on what is behind it. -/
theorem runWith_congr (input : AgentInput) (runId : String) (turns : ℕ → Turn)
    (h : ∀ k s, ∀ call ∈ executedCalls agent (turns k) s,
      toolbox.execute call.name call.input = toolbox'.execute call.name call.input) :
    agent.runWith toolbox input runId turns = agent.runWith toolbox' input runId turns := by
  unfold Agent.runWith
  generalize agent.config.maxIterations = remaining, agent.entry input = s
  induction remaining generalizing s with
  | zero => rfl
  | succ remaining ih =>
    rw [Agent.loopWith, Agent.loopWith, iterateWith_congr runId (h s.iteration s)]
    simp only [ih]

end Executed

section Counters

def isRejected (agent : Agent) (turn : Turn) : Bool :=
  match agent.handoffCall (turnCalls turn) with
  | none => false
  | some (name, data) => (agent.validateHandoff name (turnCalls turn) data).isSome

def isText (turn : Turn) : Bool :=
  match turn.response with
  | .error _ => false
  | .ok response => (extractToolCalls response.parts).isEmpty

def countTurns (p : Turn → Bool) (turns : ℕ → Turn) (k : ℕ) : ℕ :=
  (List.range k).countP (fun i => p (turns i))

theorem countTurns_succ (p : Turn → Bool) (turns : ℕ → Turn) (k : ℕ) :
    countTurns p turns (k + 1) = countTurns p turns k + if p (turns k) then 1 else 0 := by
  rw [countTurns, List.range_succ, List.countP_append, List.countP_singleton]
  rfl

/-- The retry counters count the rejected and the missing handoff calls of all turns so
far, and neither exceeds its limit. -/
structure Counters (agent : Agent) (turns : ℕ → Turn) (k : ℕ) (s : RunState) : Prop where
  rejected : s.handoffRetries = countTurns (isRejected agent) turns k
  missing : s.handoffMissingRetries = countTurns isText turns k
  rejected_le : s.handoffRetries ≤ agent.config.handoffMaxRetries
  missing_le : s.handoffMissingRetries ≤ agent.config.handoffMaxRetries

variable {agent : Agent} {runId : String} {turns : ℕ → Turn} {input : AgentInput}

theorem handoffCall_nil (agent : Agent) : agent.handoffCall [] = none := by
  unfold Agent.handoffCall
  cases agent.handoffTool <;> rfl

theorem isRejected_none {turn : Turn} (h : agent.handoffCall (turnCalls turn) = none) :
    isRejected agent turn = false := by
  rw [isRejected, h]

theorem isRejected_some {turn : Turn} {name reason : String} {data : Value}
    (h : agent.handoffCall (turnCalls turn) = some (name, data))
    (hinvalid : agent.validateHandoff name (turnCalls turn) data = some reason) :
    isRejected agent turn = true := by
  simp only [isRejected, h, hinvalid]
  rfl

theorem isText_eq {turn : Turn} {response : CompletionResponse}
    (h : turn.response = .ok response) : isText turn = (turnCalls turn).isEmpty := by
  rw [isText, turnCalls_eq h, h]

theorem isText_handoff {turn : Turn} {response : CompletionResponse} {call : String × Value}
    (hresponse : turn.response = .ok response)
    (h : agent.handoffCall (turnCalls turn) = some call) : isText turn = false := by
  rw [isText_eq hresponse]
  cases hcalls : turnCalls turn with
  | nil =>
    rw [hcalls, handoffCall_nil] at h
    cases h
  | cons first rest => rfl

theorem stateAt_counters {k : ℕ} {s : RunState}
    (h : stateAt agent runId turns input k = some s) : Counters agent turns k s := by
  refine stateAt_induct (P := Counters agent turns)
    ⟨rfl, rfl, Nat.zero_le _, Nat.zero_le _⟩ ?_ k s h
  intro k s s' _ hs hflow
  have hkept {t : RunState} (hrejected : isRejected agent (turns k) = false)
      (htext : isText (turns k) = false) (ht : t.handoffRetries = s.handoffRetries)
      (ht' : t.handoffMissingRetries = s.handoffMissingRetries) :
      Counters agent turns (k + 1) t := by
    refine ⟨?_, ?_, ht ▸ hs.rejected_le, ht' ▸ hs.missing_le⟩
    · rw [countTurns_succ, hrejected, ht, hs.rejected]
      rfl
    · rw [countTurns_succ, htext, ht', hs.missing]
      rfl
  have hcomes := iterate_comesTo agent runId (turns k) s
  rw [hflow] at hcomes
  cases hcomes with
  | textNudged response name hresponse hcalls htool hretries =>
    rw [← turnCalls_eq hresponse] at hcalls
    refine ⟨?_, ?_, hs.rejected_le, hretries⟩
    · rw [countTurns_succ, isRejected_none (by rw [hcalls, handoffCall_nil]), ← hs.rejected]
      rfl
    · rw [countTurns_succ, isText_eq hresponse, hcalls, ← hs.missing]
      rfl
  | rejected response name data reason hresponse hhandoff hinvalid hretries =>
    rw [← turnCalls_eq hresponse] at hhandoff hinvalid
    refine ⟨?_, ?_, hretries, hs.missing_le⟩
    · rw [countTurns_succ, isRejected_some hhandoff hinvalid, ← hs.rejected]
      rfl
    · rw [countTurns_succ, isText_handoff hresponse hhandoff, ← hs.missing]
      rfl
  | nudged response first rest hresponse hcalls hhandoff hstuck hnudge =>
    rw [← hcalls, ← turnCalls_eq hresponse] at hhandoff
    exact hkept (isRejected_none hhandoff)
      (by rw [isText_eq hresponse, turnCalls_eq hresponse, hcalls]; rfl) rfl rfl
  | executed response first rest hresponse hcalls hhandoff hstuck hnudge hcancelled =>
    rw [← hcalls, ← turnCalls_eq hresponse] at hhandoff
    exact hkept (isRejected_none hhandoff)
      (by rw [isText_eq hresponse, turnCalls_eq hresponse, hcalls]; rfl) rfl rfl

end Counters

section Discipline

/-- What a run of an agent with a handoff tool keeps to: it never ends with a text; a
handoff is the only call of the last answer and has a valid input; the toolbox is asked to
execute no call of an answer with a handoff call, in no iteration another call than the
announced ones, and in the whole run never the handoff tool; and rejected handoff calls as
well as answers without a call are tolerated up to the limit, the next one of either kind
failing the run. Which calls a toolbox is asked to execute shows in the program of the run:
where it asks about no others, toolboxes that agree on these make it the same program. -/
structure Disciplined (agent : Agent) (handoffName : String) (validator : Validator)
    (input : AgentInput) (runId : String) (turns : ℕ → Turn) : Prop where
  not_completed : ∀ text usage, (agent.run input runId turns).2 ≠ .ok ⟨.completed text, usage⟩
  handed_off : ∀ name data usage,
    (agent.run input runId turns).2 = .ok ⟨.handoff name data, usage⟩ →
    name = handoffName ∧ validator.isValid data = true ∧ ∃ k response id,
      (agent.run input runId turns).1.iteration = k + 1 ∧ (turns k).response = .ok response ∧
        extractToolCalls response.parts = [⟨id, handoffName, data⟩]
  not_executed : ∀ k s, Takes agent runId turns input k s →
    ∀ call ∈ executedCalls agent (turns k) s, call.name ≠ handoffName ∧
      ∀ c ∈ turnCalls (turns k), c.name ≠ handoffName
  only_executed : ∀ k s, Takes agent runId turns input k s →
    ∀ execute : ℕ → Except ToolCallError Value,
      (∀ i < (executedCalls agent (turns k) s).length, execute i = (turns k).execute i) →
      agent.iterate runId { turns k with execute := execute } s = agent.iterate runId (turns k) s
  announced : ∀ k s, Takes agent runId turns input k s →
    (agent.iterate runId (turns k) s).state.emitted.filterMap executingId =
      s.emitted.filterMap executingId ++ (executedCalls agent (turns k) s).map ToolCall.id
  only_called : ∀ k s (toolbox toolbox' : Toolbox),
    (∀ call ∈ executedCalls agent (turns k) s,
      toolbox.execute call.name call.input = toolbox'.execute call.name call.input) →
    agent.iterateWith toolbox runId (turns k) s = agent.iterateWith toolbox' runId (turns k) s
  nothing_called : ∀ k s (toolbox : Toolbox),
    (∃ call ∈ turnCalls (turns k), call.name = handoffName) →
    agent.iterateWith toolbox runId (turns k) s = pure (agent.iterate runId (turns k) s)
  never_called : ∀ toolbox toolbox' : Toolbox,
    (∀ name data, name ≠ handoffName →
      toolbox.execute name data = toolbox'.execute name data) →
    agent.runWith toolbox input runId turns = agent.runWith toolbox' input runId turns
  rejected_le : ∀ k s, stateAt agent runId turns input k = some s →
    countTurns (isRejected agent) turns k ≤ agent.config.handoffMaxRetries
  rejected_fails : ∀ k s, Takes agent runId turns input k s → isRejected agent (turns k) = true →
    countTurns (isRejected agent) turns k = agent.config.handoffMaxRetries →
    ∃ reason, (agent.run input runId turns).2 =
      .error (.handoffValidationFailed handoffName reason)
  missing_le : ∀ k s, stateAt agent runId turns input k = some s →
    countTurns isText turns k ≤ agent.config.handoffMaxRetries
  missing_fails : ∀ k s, Takes agent runId turns input k s → isText (turns k) = true →
    countTurns isText turns k = agent.config.handoffMaxRetries →
    ∃ reason, (agent.run input runId turns).2 =
      .error (.handoffValidationFailed handoffName reason)

variable {agent : Agent} {handoffName : String} {validator : Validator} {runId : String}
  {turns : ℕ → Turn} {input : AgentInput}

/-- An agent built with a handoff tool has the compiled schema of that tool. -/
theorem build_handoff {validatorFor : Value → Except String Validator} {tools : List ToolSpec}
    {systemPrompt : String} {config : AgentConfig} {history : List Message}
    (hbuild : Agent.build validatorFor tools systemPrompt (some handoffName) config history =
      .ok agent) :
    ∃ spec validator, tools.find? (fun t => t.name == handoffName) = some spec ∧
      validatorFor spec.inputSchema = .ok validator ∧
      agent.handoffTool = some handoffName ∧ agent.handoffValidator = some validator := by
  unfold Agent.build at hbuild
  split at hbuild
  · cases hbuild
  · dsimp only at hbuild
    cases hspec : tools.find? (fun t => t.name == handoffName) with
    | none =>
      rw [hspec] at hbuild
      cases hbuild
    | some spec =>
      rw [hspec] at hbuild
      dsimp only at hbuild
      cases hvalidator : validatorFor spec.inputSchema with
      | error reason =>
        rw [hvalidator] at hbuild
        cases hbuild
      | ok validator =>
        rw [hvalidator] at hbuild
        cases hbuild
        exact ⟨spec, validator, rfl, hvalidator, rfl, rfl⟩

theorem handoffCall_none (htool : agent.handoffTool = some handoffName) {calls : List ToolCall}
    (h : agent.handoffCall calls = none) : ∀ call ∈ calls, call.name ≠ handoffName := by
  rw [Agent.handoffCall, htool] at h
  intro call hcall hname
  have hnot := List.find?_eq_none.mp (Option.map_eq_none_iff.mp h) call hcall
  exact hnot (beq_iff_eq.mpr hname)

/-- An accepted handoff call is the only one of its answer. -/
theorem accepted_alone {calls : List ToolCall} {name : String} {data : Value}
    (hhandoff : agent.handoffCall calls = some (name, data))
    (hvalid : agent.validateHandoff name calls data = none) :
    ∃ id, calls = [⟨id, name, data⟩] := by
  obtain ⟨_, call, hcall, rfl, rfl⟩ := handoffCall_some hhandoff
  have hlength : calls.length ≤ 1 := by
    rw [Agent.validateHandoff] at hvalid
    split at hvalid
    · cases hvalid
    · exact Nat.le_of_not_lt ‹_›
  obtain ⟨only, honly⟩ := List.length_eq_one_iff.mp
    (Nat.le_antisymm hlength (List.length_pos_of_mem hcall))
  rw [honly] at hcall ⊢
  exact ⟨call.id, by rw [← List.mem_singleton.mp hcall]⟩

/-- A run that hands off ends at the answer with the accepted call. -/
theorem run_handoff {name : String} {data : Value} {usage : Usage}
    (h : (agent.run input runId turns).2 = .ok ⟨.handoff name data, usage⟩) :
    ∃ k s response, Takes agent runId turns input k s ∧ (turns k).response = .ok response ∧
      agent.handoffCall (extractToolCalls response.parts) = some (name, data) ∧
      agent.validateHandoff name (extractToolCalls response.parts) data = none ∧
      (agent.run input runId turns).1 = (answered agent (turns k) s response).emit
        (.runComplete runId usage (k + 1)) := by
  obtain ⟨k, s, hstate, hrun | hrun | ⟨s', result, htakes, hflow, hrun⟩⟩ :=
    run_cases agent runId turns input
  · rw [hrun] at h
    cases h
  · rw [hrun] at h
    cases h
  · rw [hrun] at h ⊢
    obtain rfl : result = .ok ⟨.handoff name data, usage⟩ := h
    have hcomes := iterate_comesTo agent runId (turns k) s
    rw [hflow] at hcomes
    cases hcomes with
    | handedOff response name data hresponse hhandoff hvalid =>
      refine ⟨k, s, response, htakes, hresponse, hhandoff, hvalid, ?_⟩
      rw [← stateAt_iteration hstate]
      rfl

theorem run_handedOff (htool : agent.handoffTool = some handoffName)
    (hvalidator : agent.handoffValidator = some validator) {name : String} {data : Value}
    {usage : Usage}
    (h : (agent.run input runId turns).2 = .ok ⟨.handoff name data, usage⟩) :
    name = handoffName ∧ validator.isValid data = true ∧ ∃ k response id,
      (agent.run input runId turns).1.iteration = k + 1 ∧ (turns k).response = .ok response ∧
        extractToolCalls response.parts = [⟨id, handoffName, data⟩] := by
  obtain ⟨k, s, response, htakes, hresponse, hhandoff, hvalid, hrun⟩ := run_handoff h
  obtain rfl : handoffName = name :=
    Option.some.inj (htool.symm.trans (handoffCall_some hhandoff).1)
  obtain ⟨id, hcalls⟩ := accepted_alone hhandoff hvalid
  refine ⟨rfl, accepted_valid hvalidator hvalid, k, response, id, ?_, hresponse, hcalls⟩
  rw [hrun]
  exact congrArg (· + 1) (stateAt_iteration htakes.state)

theorem executedCalls_discipline (htool : agent.handoffTool = some handoffName) {turn : Turn}
    {s : RunState} {call : ToolCall} (h : call ∈ executedCalls agent turn s) :
    call.name ≠ handoffName ∧ ∀ c ∈ turnCalls turn, c.name ≠ handoffName := by
  cases hhandoff : agent.handoffCall (turnCalls turn) with
  | none =>
    have hnames := handoffCall_none htool hhandoff
    unfold executedCalls at h
    split at h
    · cases h
    · exact ⟨hnames call h, hnames⟩
  | some found =>
    rw [executedCalls_handoff hhandoff] at h
    cases h

theorem iterate_handoff {turn : Turn} {s : RunState} {response : CompletionResponse}
    {name : String} {data : Value} (hresponse : turn.response = .ok response)
    (hhandoff : agent.handoffCall (extractToolCalls response.parts) = some (name, data)) :
    agent.iterate runId turn s = agent.answerHandoff runId name data
      (extractToolCalls response.parts) (answered agent turn s response) := by
  cases hcalls : extractToolCalls response.parts with
  | nil =>
    rw [hcalls, handoffCall_nil] at hhandoff
    cases hhandoff
  | cons first rest =>
    rw [hcalls] at hhandoff
    simp only [Agent.iterate, hresponse, Agent.answer, hcalls, hhandoff]
    rfl

theorem iterate_text {turn : Turn} {s : RunState} {response : CompletionResponse}
    (hresponse : turn.response = .ok response) (hcalls : extractToolCalls response.parts = []) :
    agent.iterate runId turn s =
      agent.answerText runId response (answered agent turn s response) := by
  simp only [Agent.iterate, hresponse, Agent.answer, hcalls]
  rfl

/-- A rejected handoff call after as many as are tolerated fails the run. -/
theorem rejected_at_limit (htool : agent.handoffTool = some handoffName) {k : ℕ} {s : RunState}
    (htakes : Takes agent runId turns input k s) (hrejected : isRejected agent (turns k) = true)
    (hlimit : countTurns (isRejected agent) turns k = agent.config.handoffMaxRetries) :
    ∃ reason, (agent.run input runId turns).2 =
      .error (.handoffValidationFailed handoffName reason) := by
  have hcounters := stateAt_counters htakes.state
  unfold isRejected at hrejected
  split at hrejected
  · cases hrejected
  · rename_i name data hhandoff
    obtain ⟨reason, hinvalid⟩ := Option.isSome_iff_exists.mp hrejected
    obtain rfl : handoffName = name :=
      Option.some.inj (htool.symm.trans (handoffCall_some hhandoff).1)
    cases hresponse : (turns k).response with
    | error e =>
      rw [turnCalls, hresponse, handoffCall_nil] at hhandoff
      cases hhandoff
    | ok response =>
      rw [turnCalls_eq hresponse] at hhandoff hinvalid
      have hfull : agent.config.handoffMaxRetries ≤
          (answered agent (turns k) s response).handoffRetries := by
        rw [← hlimit, ← hcounters.rejected]
        exact Nat.le_refl _
      have hflow : agent.iterate runId (turns k) s =
          .done (answered agent (turns k) s response)
            (.error (.handoffValidationFailed handoffName reason)) := by
        rw [iterate_handoff hresponse hhandoff, Agent.answerHandoff, hinvalid]
        exact if_pos hfull
      exact ⟨reason, by rw [htakes.run_eq hflow]⟩

/-- An answer without a call after as many as are tolerated fails the run. -/
theorem text_at_limit (htool : agent.handoffTool = some handoffName) {k : ℕ} {s : RunState}
    (htakes : Takes agent runId turns input k s) (htext : isText (turns k) = true)
    (hlimit : countTurns isText turns k = agent.config.handoffMaxRetries) :
    ∃ reason, (agent.run input runId turns).2 =
      .error (.handoffValidationFailed handoffName reason) := by
  have hcounters := stateAt_counters htakes.state
  cases hresponse : (turns k).response with
  | error e =>
    rw [isText, hresponse] at htext
    cases htext
  | ok response =>
    rw [isText_eq hresponse, turnCalls_eq hresponse] at htext
    have hcalls := List.isEmpty_iff.mp htext
    have hfull : agent.config.handoffMaxRetries ≤
        (answered agent (turns k) s response).handoffMissingRetries := by
      rw [← hlimit, ← hcounters.missing]
      exact Nat.le_refl _
    have hflow : agent.iterate runId (turns k) s =
        .done (answered agent (turns k) s response) (.error (.handoffValidationFailed handoffName
          "model ended its turn with text instead of calling the handoff tool")) := by
      rw [iterate_text hresponse hcalls, Agent.answerText, htool]
      exact if_pos hfull
    exact ⟨_, by rw [htakes.run_eq hflow]⟩

/-- An agent built with a handoff tool keeps to its discipline in every run. -/
theorem run_disciplined (validatorFor : Value → Except String Validator) (tools : List ToolSpec)
    (systemPrompt handoffName : String) (config : AgentConfig) (history : List Message)
    (agent : Agent)
    (hbuild : Agent.build validatorFor tools systemPrompt (some handoffName) config history =
      .ok agent)
    (input : AgentInput) (runId : String) (turns : ℕ → Turn) :
    ∃ spec validator, tools.find? (fun t => t.name == handoffName) = some spec ∧
      validatorFor spec.inputSchema = .ok validator ∧
      Disciplined agent handoffName validator input runId turns := by
  obtain ⟨spec, validator, hspec, hcompiled, htool, hvalidator⟩ := build_handoff hbuild
  refine ⟨spec, validator, hspec, hcompiled, ?_⟩
  constructor
  · intro text usage hresult
    have hnone : agent.handoffTool = none := RunOutcomes.run_accepts hresult
    rw [htool] at hnone
    cases hnone
  · exact fun name data usage hresult => run_handedOff htool hvalidator hresult
  · exact fun k s _ call hcall => executedCalls_discipline htool hcall
  · exact fun k s _ execute hexecute => iterate_congr runId execute hexecute
  · exact fun k s _ => iterate_executing runId
  · exact fun k s toolbox toolbox' hsame => iterateWith_congr runId hsame
  · rintro k s toolbox ⟨call, hcall, hname⟩
    cases hhandoff : agent.handoffCall (turnCalls (turns k)) with
    | none => exact absurd hname (handoffCall_none htool hhandoff call hcall)
    | some found => exact iterateWith_handoff runId hhandoff
  · intro toolbox toolbox' hsame
    refine runWith_congr input runId turns (fun k s call hcall => hsame _ _ ?_)
    exact (executedCalls_discipline htool hcall).1
  · intro k s hstate
    have hcounters := stateAt_counters hstate
    exact hcounters.rejected ▸ hcounters.rejected_le
  · exact fun k s htakes hrejected hlimit => rejected_at_limit htool htakes hrejected hlimit
  · intro k s hstate
    have hcounters := stateAt_counters hstate
    exact hcounters.missing ▸ hcounters.missing_le
  · exact fun k s htakes htext hlimit => text_at_limit htool htakes htext hlimit

def doneAgent : Agent :=
  ⟨"", [⟨"done", "", .null⟩], some "done", some ⟨fun _ => true, fun _ => none⟩,
    AgentConfig.default, []⟩

theorem run_disciplined_done :
    ∃ spec validator, doneAgent.tools.find? (fun t => t.name == "done") = some spec ∧
      (.ok ⟨fun _ => true, fun _ => none⟩ : Except String Validator) = .ok validator ∧
      Disciplined doneAgent "done" validator (.userMessage "u" "go") "run"
        (fun i => callTurn (if i < 3 then "ls" else "done")) :=
  run_disciplined (fun _ => .ok ⟨fun _ => true, fun _ => none⟩) doneAgent.tools "" "done"
    AgentConfig.default [] doneAgent rfl _ _ _

end Discipline

end October.HandoffDiscipline
