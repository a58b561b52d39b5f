import October.JournaledTurns
import October.LoopTurns
import October.RecentWindow

/-!
Stuck detection and the nudge before it. The remembered fingerprints are those of the
last tool turns without a handoff call, at most as many as the stuck threshold. A run
is stuck exactly when that many in a row are equal; it is nudged only when no other
turn is remembered at all.
-/

namespace October.RepeatedTurns

open JournaledTurns LoopTurns

section Prints

variable (agent : Agent) (turns : ℕ → Turn)

def isToolTurn (turn : Turn) : Bool :=
  !(turnCalls turn).isEmpty && (agent.handoffCall (turnCalls turn)).isNone

/-- The fingerprints of the tool turns among the first `k` turns. -/
def toolPrints (k : ℕ) : List String :=
  ((List.range k).filter (fun i => isToolTurn agent (turns i))).map
    (fun i => toolFingerprint (turnCalls (turns i)))

theorem toolPrints_succ (k : ℕ) :
    toolPrints agent turns (k + 1) = toolPrints agent turns k ++
      (if isToolTurn agent (turns k) then [toolFingerprint (turnCalls (turns k))] else []) := by
  rw [toolPrints, List.range_succ, List.filter_append, List.map_append]
  by_cases hk : isToolTurn agent (turns k) = true <;> simp [toolPrints, hk]

variable {agent turns}

theorem toolPrints_tool {k : ℕ} (h : isToolTurn agent (turns k) = true) :
    toolPrints agent turns (k + 1) =
      toolPrints agent turns k ++ [toolFingerprint (turnCalls (turns k))] := by
  rw [toolPrints_succ, if_pos h]

theorem toolPrints_other {k : ℕ} (h : isToolTurn agent (turns k) = false) :
    toolPrints agent turns (k + 1) = toolPrints agent turns k := by
  rw [toolPrints_succ, h]
  exact List.append_nil _

end Prints

section Turns

variable {agent : Agent} {runId : String} {turns : ℕ → Turn} {input : AgentInput}

theorem turnCalls_eq {turn : Turn} {response : CompletionResponse}
    (h : turn.response = .ok response) : turnCalls turn = extractToolCalls response.parts := by
  rw [turnCalls, h]

theorem isToolTurn_text {turn : Turn} {response : CompletionResponse}
    (h : turn.response = .ok response) (hcalls : extractToolCalls response.parts = []) :
    isToolTurn agent turn = false := by
  rw [isToolTurn, turnCalls_eq h, hcalls]
  rfl

theorem isToolTurn_handoff {turn : Turn} {response : CompletionResponse} {call : String × Value}
    (h : turn.response = .ok response)
    (hhandoff : agent.handoffCall (extractToolCalls response.parts) = some call) :
    isToolTurn agent turn = false := by
  rw [isToolTurn, turnCalls_eq h, hhandoff]
  exact Bool.and_false _

theorem isToolTurn_tools {turn : Turn} {response : CompletionResponse} {first : ToolCall}
    {rest : List ToolCall} (h : turn.response = .ok response)
    (hcalls : extractToolCalls response.parts = first :: rest)
    (hhandoff : agent.handoffCall (first :: rest) = none) :
    isToolTurn agent turn = true := by
  rw [isToolTurn, turnCalls_eq h, hcalls, hhandoff]
  rfl

/-- At the start of a turn the loop remembers the last tool turns, as many as the stuck
threshold. -/
theorem recentFingerprints_eq {k : ℕ} {s : RunState}
    (h : stateAt agent runId turns input k = some s) :
    s.recentFingerprints = (toolPrints agent turns k).rtake agent.config.stuckThreshold := by
  refine stateAt_induct (P := fun k s => s.recentFingerprints =
    (toolPrints agent turns k).rtake agent.config.stuckThreshold)
    (List.rtake_nil _).symm ?_ k s h
  intro k s s' _ hs hflow
  have hremembers {response : CompletionResponse} {first : ToolCall} {rest : List ToolCall}
      (hresponse : (turns k).response = .ok response)
      (hcalls : extractToolCalls response.parts = first :: rest)
      (hhandoff : agent.handoffCall (first :: rest) = none) :
      agent.remember (toolFingerprint (first :: rest)) s.recentFingerprints =
        (toolPrints agent turns (k + 1)).rtake agent.config.stuckThreshold := by
    rw [toolPrints_tool (isToolTurn_tools hresponse hcalls hhandoff), turnCalls_eq hresponse,
      hcalls, ← RecentWindow.push_rtake, ← hs]
    rfl
  have hcomes := iterate_comesTo agent runId (turns k) s
  rw [hflow] at hcomes
  cases hcomes with
  | textNudged response name hresponse hcalls htool hretries =>
    rw [toolPrints_other (isToolTurn_text hresponse hcalls)]
    exact hs
  | rejected response name data reason hresponse hhandoff hinvalid hretries =>
    rw [toolPrints_other (isToolTurn_handoff hresponse hhandoff)]
    exact hs
  | nudged response first rest hresponse hcalls hhandoff hstuck hnudge =>
    exact hremembers hresponse hcalls hhandoff
  | executed response first rest hresponse hcalls hhandoff hstuck hnudge hcancelled =>
    exact hremembers hresponse hcalls hhandoff

/-- What the loop compares at a tool turn: whether the last tool turns, as many as it
remembers, are at least `threshold` and all equal. -/
theorem repeated_iff {k : ℕ} {s : RunState} {response : CompletionResponse} {first : ToolCall}
    {rest : List ToolCall} (hstate : stateAt agent runId turns input k = some s)
    (hresponse : (turns k).response = .ok response)
    (hcalls : extractToolCalls response.parts = first :: rest)
    (hhandoff : agent.handoffCall (first :: rest) = none) (threshold : ℕ) :
    Repeated agent s threshold (first :: rest) ↔
      threshold ≤ ((toolPrints agent turns (k + 1)).rtake agent.config.stuckThreshold).length ∧
        ∀ f ∈ (toolPrints agent turns (k + 1)).rtake agent.config.stuckThreshold,
          f = toolFingerprint (turnCalls (turns k)) := by
  have hwindow : agent.remember (toolFingerprint (first :: rest)) s.recentFingerprints =
      (toolPrints agent turns (k + 1)).rtake agent.config.stuckThreshold := by
    rw [toolPrints_tool (isToolTurn_tools hresponse hcalls hhandoff), turnCalls_eq hresponse,
      hcalls, ← RecentWindow.push_rtake, ← recentFingerprints_eq hstate]
    rfl
  rw [Repeated, hwindow, Agent.repeats, turnCalls_eq hresponse, hcalls, Bool.and_eq_true,
    decide_eq_true_iff, List.all_eq_true]
  simp only [beq_iff_eq]

/-- A tool turn has an answer with calls, none of them to the handoff tool. -/
theorem isToolTurn_cases {turn : Turn} (h : isToolTurn agent turn = true) :
    ∃ response first rest, turn.response = .ok response ∧
      extractToolCalls response.parts = first :: rest ∧
      agent.handoffCall (first :: rest) = none := by
  obtain ⟨hcalls, hhandoff⟩ := Bool.and_eq_true_iff.mp h
  cases hresponse : turn.response with
  | error e =>
    rw [turnCalls, hresponse] at hcalls
    cases hcalls
  | ok response =>
    rw [turnCalls_eq hresponse] at hcalls hhandoff
    cases hsome : extractToolCalls response.parts with
    | nil =>
      rw [hsome] at hcalls
      cases hcalls
    | cons first rest =>
      rw [hsome] at hhandoff
      exact ⟨response, first, rest, rfl, hsome, Option.isNone_iff_eq_none.mp hhandoff⟩

theorem iterate_tools {turn : Turn} {s : RunState} {response : CompletionResponse}
    {first : ToolCall} {rest : List ToolCall} (hresponse : turn.response = .ok response)
    (hcalls : extractToolCalls response.parts = first :: rest)
    (hhandoff : agent.handoffCall (first :: rest) = none) :
    agent.iterate runId turn s =
      agent.answerTools turn first rest (answered agent turn s response) := by
  simp only [Agent.iterate, hresponse, Agent.answer, hcalls, hhandoff]
  rfl

/-- The current fingerprint ends the sequence, so a run of equal ones is a run of it. -/
theorem replicate_suffix_iff {k : ℕ} (h : isToolTurn agent (turns k) = true) (n : ℕ) :
    (∃ f, List.replicate n f <:+ toolPrints agent turns (k + 1)) ↔
      List.replicate n (toolFingerprint (turnCalls (turns k))) <:+
        toolPrints agent turns (k + 1) := by
  refine ⟨fun ⟨f, hf⟩ => ?_, fun hf => ⟨_, hf⟩⟩
  cases n with
  | zero => exact List.nil_suffix
  | succ n =>
    rw [toolPrints_tool h] at hf ⊢
    exact RecentWindow.eq_of_replicate_suffix (Nat.succ_pos n) hf ▸ hf

/-- A run returns that it is stuck at a turn exactly if the turn is a tool turn without a
handoff call and the last such turns, as many as the stuck threshold, have one fingerprint. -/
theorem stuck_iff (agent : Agent) (input : AgentInput) (runId : String) (turns : ℕ → Turn)
    (k : ℕ) :
    (∃ name count, (agent.run input runId turns).2 = .error (.stuckInLoop name count) ∧
        (agent.run input runId turns).1.iteration = k + 1) ↔
      (∃ s, Takes agent runId turns input k s) ∧ isToolTurn agent (turns k) = true ∧
        ∃ f, List.replicate agent.config.stuckThreshold f <:+ toolPrints agent turns (k + 1) := by
  constructor
  · rintro ⟨name, count, hresult, hiteration⟩
    obtain ⟨j, s, _, hrun | hrun | ⟨s', result, htakes, hflow, hrun⟩⟩ :=
      run_cases agent runId turns input
    · rw [hrun] at hresult
      cases hresult
    · rw [hrun] at hresult
      cases hresult
    · rw [hrun] at hresult hiteration
      obtain rfl : result = .error (.stuckInLoop name count) := hresult
      have hcomes := iterate_comesTo agent runId (turns j) s
      rw [hflow] at hcomes
      cases hcomes with
      | stuck response first rest hresponse hcalls hhandoff hstuck =>
        obtain rfl : j = k := by
          have hj := stateAt_iteration htakes.state
          have hj' : s.iteration + 1 = k + 1 := hiteration
          omega
        have htool := isToolTurn_tools hresponse hcalls hhandoff
        refine ⟨⟨s, htakes⟩, htool, (replicate_suffix_iff htool _).mpr ?_⟩
        rw [RecentWindow.replicate_suffix_iff]
        exact (repeated_iff htakes.state hresponse hcalls hhandoff _).mp hstuck
  · rintro ⟨⟨s, htakes⟩, htool, hsame⟩
    obtain ⟨response, first, rest, hresponse, hcalls, hhandoff⟩ := isToolTurn_cases htool
    have hstuck : Repeated agent s agent.config.stuckThreshold (first :: rest) := by
      rw [repeated_iff htakes.state hresponse hcalls hhandoff,
        ← RecentWindow.replicate_suffix_iff]
      exact (replicate_suffix_iff htool _).mp hsame
    have hflow : agent.iterate runId (turns k) s =
        .done (remembered agent (turns k) s response (first :: rest))
          (.error (.stuckInLoop first.name agent.config.stuckThreshold)) := by
      rw [iterate_tools hresponse hcalls hhandoff]
      exact if_pos hstuck
    refine ⟨first.name, agent.config.stuckThreshold, ?_, ?_⟩
    · rw [htakes.run_eq hflow]
    · rw [htakes.run_eq hflow]
      exact congrArg (· + 1) (stateAt_iteration htakes.state)

/-- The iteration answers the calls of its answer with the nudge text and executes none. -/
def Nudges (agent : Agent) (runId : String) (turn : Turn) (s : RunState) : Prop :=
  ∃ response s', turn.response = .ok response ∧ agent.iterate runId turn s = .next s' ∧
    s'.history = (answered agent turn s response).history ++
      (extractToolCalls response.parts).map Agent.nudgeResult ∧
    s'.emitted = (answered agent turn s response).emitted

/-- A tool turn is nudged exactly if its calls repeat and the run is not stuck. -/
theorem nudges_iff_repeated {turn : Turn} {s : RunState} {response : CompletionResponse}
    {first : ToolCall} {rest : List ToolCall} (hresponse : turn.response = .ok response)
    (hcalls : extractToolCalls response.parts = first :: rest)
    (hhandoff : agent.handoffCall (first :: rest) = none) :
    Nudges agent runId turn s ↔
      ¬ Repeated agent s agent.config.stuckThreshold (first :: rest) ∧
        Repeated agent s agent.config.nudgeThreshold (first :: rest) := by
  constructor
  · rintro ⟨response', s', hresponse', hflow, -, hemitted⟩
    cases hresponse.symm.trans hresponse'
    have hcomes := iterate_comesTo agent runId turn s
    rw [hflow] at hcomes
    cases hcomes with
    | textNudged response' name hresponse' hcalls' htool hretries =>
      cases hresponse.symm.trans hresponse'
      rw [hcalls] at hcalls'
      cases hcalls'
    | rejected response' name data reason hresponse' hhandoff' hinvalid hretries =>
      cases hresponse.symm.trans hresponse'
      rw [hcalls, hhandoff] at hhandoff'
      cases hhandoff'
    | nudged response' first' rest' hresponse' hcalls' hhandoff' hstuck hnudge =>
      cases hresponse.symm.trans hresponse'
      cases hcalls.symm.trans hcalls'
      exact ⟨hstuck, hnudge⟩
    | executed response' first' rest' hresponse' hcalls' hhandoff' hstuck hnudge hcancelled =>
      -- executing would have emitted an event for the first call
      cases hresponse.symm.trans hresponse'
      exact absurd (List.append_right_eq_self.mp hemitted) (List.cons_ne_nil _ _)
  · rintro ⟨hstuck, hnudge⟩
    have hflow : agent.iterate runId turn s =
        .next { remembered agent turn s response (first :: rest) with
          history := (answered agent turn s response).history ++
            (first :: rest).map Agent.nudgeResult } := by
      rw [iterate_tools hresponse hcalls hhandoff]
      exact (if_neg hstuck).trans (if_pos hnudge)
    exact ⟨response, _, hresponse, hflow, by rw [hcalls], rfl⟩

/-- A tool turn whose calls repeat those of the last `nudgeThreshold` tool turns, in a run
that is not stuck, is nudged exactly if no other tool turn is still remembered. -/
theorem nudges_iff (agent : Agent) (input : AgentInput) (runId : String) (turns : ℕ → Turn)
    (k : ℕ) (s : RunState) (htakes : Takes agent runId turns input k s)
    (htool : isToolTurn agent (turns k) = true)
    (hsame : ∃ f, List.replicate agent.config.nudgeThreshold f <:+ toolPrints agent turns (k + 1))
    (hnot : ¬ ∃ f,
      List.replicate agent.config.stuckThreshold f <:+ toolPrints agent turns (k + 1)) :
    Nudges agent runId (turns k) s ↔
      ∀ f ∈ (toolPrints agent turns (k + 1)).rtake agent.config.stuckThreshold,
        f = toolFingerprint (turnCalls (turns k)) := by
  obtain ⟨response, first, rest, hresponse, hcalls, hhandoff⟩ := isToolTurn_cases htool
  have hnotStuck : ¬ Repeated agent s agent.config.stuckThreshold (first :: rest) := by
    rw [repeated_iff htakes.state hresponse hcalls hhandoff, ← RecentWindow.replicate_suffix_iff,
      ← replicate_suffix_iff htool]
    exact hnot
  have hlong : agent.config.nudgeThreshold ≤
      ((toolPrints agent turns (k + 1)).rtake agent.config.stuckThreshold).length := by
    obtain ⟨f, hf⟩ := hsame
    have hprints : agent.config.nudgeThreshold ≤ (toolPrints agent turns (k + 1)).length := by
      simpa using hf.length_le
    have hthresholds : agent.config.nudgeThreshold ≤ agent.config.stuckThreshold := by
      by_contra hlt
      exact hnot ⟨f, RecentWindow.replicate_suffix_of_le (by omega) f hf⟩
    rw [RecentWindow.length_rtake]
    exact le_min hthresholds hprints
  rw [nudges_iff_repeated hresponse hcalls hhandoff,
    repeated_iff htakes.state hresponse hcalls hhandoff agent.config.nudgeThreshold]
  exact ⟨fun h => h.2.2, fun h => ⟨hnotStuck, hlong, h⟩⟩

end Turns

section Examples

def callTurn (name : String) : Turn where
  cancelled := false
  msgId := "m"
  stream := []
  response := .ok ⟨[.toolCall "t" name .null], .toolUse, ⟨1, 1⟩⟩
  cancelledBeforeTools := false
  execute := fun _ => .ok .null

def plainAgent : Agent := ⟨"", [], none, none, AgentConfig.default, []⟩

theorem plainAgent_build : Agent.build (fun _ => .error "") [] "" none AgentConfig.default [] =
    .ok plainAgent := rfl

def otherFirst (i : ℕ) : Turn := callTurn (if i = 0 then "ls" else "cat")

theorem otherFirst_taken :
    ∃ s, Takes plainAgent "run" otherFirst (.userMessage "u" "go") 3 s := by
  have hsome : (stateAt plainAgent "run" otherFirst (.userMessage "u" "go") 3).isSome = true := by
    decide +kernel
  obtain ⟨s, hs⟩ := Option.isSome_iff_exists.mp hsome
  exact ⟨s, hs, by decide, rfl⟩

/-- Three equal turns in a row are not nudged while another turn is remembered. -/
theorem other_turn_first_not_nudged :
    ¬ ∀ (validatorFor : Value → Except String Validator) (tools : List ToolSpec)
      (systemPrompt : String) (handoffTool : Option String) (config : AgentConfig)
      (history : List Message) (agent : Agent),
      Agent.build validatorFor tools systemPrompt handoffTool config history = .ok agent →
      ∀ (input : AgentInput) (runId : String) (turns : ℕ → Turn) (k : ℕ) (s : RunState),
        Takes agent runId turns input k s → isToolTurn agent (turns k) = true →
        (∃ f, List.replicate agent.config.nudgeThreshold f <:+ toolPrints agent turns (k + 1)) →
        (¬ ∃ f, List.replicate agent.config.stuckThreshold f <:+
          toolPrints agent turns (k + 1)) →
        Nudges agent runId (turns k) s := by
  intro h
  obtain ⟨s, htakes⟩ := otherFirst_taken
  have hprints : toolPrints plainAgent otherFirst 4 =
      ["ls:null", "cat:null", "cat:null", "cat:null"] := by decide +kernel
  have hsame : ∃ f, List.replicate plainAgent.config.nudgeThreshold f <:+
      toolPrints plainAgent otherFirst 4 := by
    rw [hprints]
    exact ⟨"cat:null", ["ls:null"], rfl⟩
  have hnot : ¬ ∃ f, List.replicate plainAgent.config.stuckThreshold f <:+
      toolPrints plainAgent otherFirst 4 := by
    rintro ⟨f, hf⟩
    have hlength := hf.length_le
    rw [List.length_replicate, hprints] at hlength
    exact absurd hlength (by decide)
  have hnudged := h _ _ _ _ _ _ plainAgent plainAgent_build _ _ _ 3 s htakes (by decide +kernel)
    hsame hnot
  have hrepeated := ((nudges_iff_repeated rfl rfl rfl).mp hnudged).2
  have hall := ((repeated_iff htakes.state rfl rfl rfl _).mp hrepeated).2 "ls:null"
    (by rw [hprints]; decide)
  exact absurd hall (by decide +kernel)

/-- Three equal turns at the start of a run are nudged. -/
theorem first_turns_nudged :
    ∃ s, Takes plainAgent "run" (fun _ => callTurn "ls") (.userMessage "u" "go") 2 s ∧
      Nudges plainAgent "run" (callTurn "ls") s := by
  have hsome : (stateAt plainAgent "run" (fun _ => callTurn "ls") (.userMessage "u" "go")
      2).isSome = true := by decide +kernel
  obtain ⟨s, hs⟩ := Option.isSome_iff_exists.mp hsome
  have htakes : Takes plainAgent "run" (fun _ => callTurn "ls") (.userMessage "u" "go") 2 s :=
    ⟨hs, by decide, rfl⟩
  have hprints : toolPrints plainAgent (fun _ => callTurn "ls") 3 =
      ["ls:null", "ls:null", "ls:null"] := by decide +kernel
  have hnot : ¬ ∃ f, List.replicate plainAgent.config.stuckThreshold f <:+
      toolPrints plainAgent (fun _ => callTurn "ls") 3 := by
    rintro ⟨f, hf⟩
    have hlength := hf.length_le
    rw [List.length_replicate, hprints] at hlength
    exact absurd hlength (by decide)
  refine ⟨s, htakes, (nudges_iff plainAgent _ "run" _ 2 s htakes (by decide +kernel)
    ⟨"ls:null", by rw [hprints]; exact List.suffix_rfl⟩ hnot).mpr ?_⟩
  rw [hprints]
  decide +kernel

end Examples

end October.RepeatedTurns
