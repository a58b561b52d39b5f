import October.LoopTurns
import October.Toolboxes

/-!
Which invocations of the runtime an agent run can come to. The run is a program over
the toolbox it executes tools with; whatever the runtime answers, its result is that of
the loop in which the tools' results are given. Every layer of a toolbox advertises the
tools that its execution routes to the runtime, and no others.
-/
namespace October

open Await (Prog)

namespace Agent

variable (agent : Agent) (toolbox : Toolbox)

def executeToolsWith : List ToolCall → RunState → ToolProgram RunState
  | [], s => return s
  | call :: rest, s => do
    let outcome ← toolbox.execute call.name call.input
    executeToolsWith rest (executeTool call outcome s)

def answerToolsWith (turn : Turn) (first : ToolCall) (rest : List ToolCall) (s : RunState) :
    ToolProgram Flow :=
  let calls := first :: rest
  let fingerprint := toolFingerprint calls
  let recent := agent.remember fingerprint s.recentFingerprints
  let s := { s with recentFingerprints := recent }
  if repeats agent.config.stuckThreshold fingerprint recent then
    return .done s (.error (.stuckInLoop first.name agent.config.stuckThreshold))
  else if repeats agent.config.nudgeThreshold fingerprint recent then
    return .next { s with history := s.history ++ calls.map nudgeResult }
  else if turn.cancelledBeforeTools then
    return .done s (.error .cancelled)
  else do
    return .next (← executeToolsWith toolbox calls s)

def answerWith (runId : String) (turn : Turn) (response : CompletionResponse) (s : RunState) :
    ToolProgram Flow :=
  match extractToolCalls response.parts with
  | [] => return agent.answerText runId response s
  | first :: rest =>
    match agent.handoffCall (first :: rest) with
    | some (name, data) => return agent.answerHandoff runId name data (first :: rest) s
    | none => agent.answerToolsWith toolbox turn first rest s

def iterateWith (runId : String) (turn : Turn) (s : RunState) : ToolProgram Flow :=
  let sent := agent.send turn s
  match turn.response with
  | .error e => return .done sent (.error (.provider e))
  | .ok response => agent.answerWith toolbox runId turn response (receive turn response sent)

/-- The loop, with the toolbox that it executes the tool calls with. -/
def loopWith (runId : String) (turns : ℕ → Turn) :
    ℕ → RunState → ToolProgram (RunState × Except AgentError AgentOutput)
  | 0, s =>
    if (turns s.iteration).cancelled then return (s, .error .cancelled)
    else return (s, .error (.maxIterationsExceeded agent.config.maxIterations))
  | remaining + 1, s =>
    if (turns s.iteration).cancelled then return (s, .error .cancelled)
    else do
      match ← agent.iterateWith toolbox runId (turns s.iteration) s with
      | .next s' => loopWith runId turns remaining s'
      | .done s' result => return (s', result)

def runWith (input : AgentInput) (runId : String) (turns : ℕ → Turn) :
    ToolProgram (RunState × Except AgentError AgentOutput) :=
  agent.loopWith toolbox runId turns agent.config.maxIterations (agent.entry input)

section Only

variable {agent toolbox} {ok : RuntimeCall → Prop}
  (htool : ∀ name input, (toolbox.execute name input).Only ok)

include htool

theorem executeToolsWith_only (calls : List ToolCall) (s : RunState) :
    (executeToolsWith toolbox calls s).Only ok := by
  induction calls generalizing s with
  | nil => exact trivial
  | cons call rest ih => exact (htool call.name call.input).bind (fun outcome => ih _)

theorem answerToolsWith_only (turn : Turn) (first : ToolCall) (rest : List ToolCall)
    (s : RunState) : (agent.answerToolsWith toolbox turn first rest s).Only ok := by
  unfold answerToolsWith
  dsimp only
  split
  · exact trivial
  · split
    · exact trivial
    · split
      · exact trivial
      · exact (executeToolsWith_only htool _ _).bind (fun _ => trivial)

theorem iterateWith_only (runId : String) (turn : Turn) (s : RunState) :
    (agent.iterateWith toolbox runId turn s).Only ok := by
  unfold iterateWith
  cases turn.response with
  | error e => exact trivial
  | ok response =>
    dsimp only
    unfold answerWith
    cases extractToolCalls response.parts with
    | nil => exact trivial
    | cons first rest =>
      dsimp only
      cases agent.handoffCall (first :: rest) with
      | some call => exact trivial
      | none => exact answerToolsWith_only htool turn first rest _

theorem loopWith_only (runId : String) (turns : ℕ → Turn) (remaining : ℕ) (s : RunState) :
    (agent.loopWith toolbox runId turns remaining s).Only ok := by
  induction remaining generalizing s with
  | zero =>
    unfold loopWith
    split <;> exact trivial
  | succ remaining ih =>
    unfold loopWith
    split
    · exact trivial
    · refine (iterateWith_only htool runId _ s).bind (fun flow => ?_)
      cases flow with
      | next s' => exact ih s'
      | done s' result => exact trivial

/-- A run invokes the runtime only as the tools of its toolbox do. -/
theorem runWith_only (input : AgentInput) (runId : String) (turns : ℕ → Turn) :
    (agent.runWith toolbox input runId turns).Only ok := loopWith_only htool runId turns _ _

end Only

def giving (turn : Turn) (execute : ℕ → Except ToolCallError Value) : Turn :=
  { turn with execute := execute }

theorem executeToolsWith_gives {calls : List ToolCall} {s s' : RunState}
    (h : (executeToolsWith toolbox calls s).Gives s') :
    ∃ outcomes : List (Except ToolCallError Value), outcomes.length = calls.length ∧
      ∀ (execute : ℕ → Except ToolCallError Value) (i : ℕ),
        (∀ j outcome, outcomes[j]? = some outcome → execute (i + j) = outcome) →
        s' = executeTools execute i calls s := by
  induction calls generalizing s with
  | nil =>
    cases h
    exact ⟨[], rfl, fun _ _ _ => rfl⟩
  | cons call rest ih =>
    obtain ⟨outcome, -, h⟩ := h.bind_inv
    obtain ⟨outcomes, hlen, hrest⟩ := ih h
    refine ⟨outcome :: outcomes, by simp [hlen], fun execute i hi => ?_⟩
    have hhead : execute i = outcome := hi 0 outcome rfl
    rw [executeTools, hhead]
    exact hrest execute (i + 1)
      (fun j o ho => by rw [← hi (j + 1) o ho, Nat.add_assoc, Nat.add_comm 1 j])

/-- Executing the calls gives what the loop makes of some results of theirs. -/
theorem executeToolsWith_executeTools {calls : List ToolCall} {s s' : RunState}
    (h : (executeToolsWith toolbox calls s).Gives s') :
    ∃ execute, s' = executeTools execute 0 calls s := by
  obtain ⟨outcomes, -, houtcomes⟩ := executeToolsWith_gives toolbox h
  refine ⟨fun i => (outcomes[i]?).getD (.ok .null), houtcomes _ 0 (fun j outcome hj => ?_)⟩
  simp only [Nat.zero_add, hj, Option.getD_some]

theorem answerToolsWith_gives {turn : Turn} {first : ToolCall} {rest : List ToolCall}
    {s : RunState} {flow : Flow}
    (h : (agent.answerToolsWith toolbox turn first rest s).Gives flow) :
    ∃ execute, flow = agent.answerTools (giving turn execute) first rest s := by
  unfold answerToolsWith at h
  unfold answerTools
  dsimp only at h ⊢
  split at h
  next hstuck =>
    cases h
    exact ⟨turn.execute, by rw [if_pos hstuck]⟩
  next hstuck =>
    split at h
    next hnudge =>
      cases h
      exact ⟨turn.execute, by rw [if_neg hstuck, if_pos hnudge]⟩
    next hnudge =>
      split at h
      next hcancel =>
        cases h
        exact ⟨turn.execute, by rw [if_neg hstuck, if_neg hnudge]; exact (if_pos hcancel).symm⟩
      next hcancel =>
        obtain ⟨s', hs', hflow⟩ := h.bind_inv
        obtain ⟨execute, hexecute⟩ := executeToolsWith_executeTools toolbox hs'
        cases hflow
        refine ⟨execute, ?_⟩
        rw [if_neg hstuck, if_neg hnudge, hexecute]
        exact (if_neg hcancel).symm

theorem iterateWith_gives {runId : String} {turn : Turn} {s : RunState} {flow : Flow}
    (h : (agent.iterateWith toolbox runId turn s).Gives flow) :
    ∃ execute, flow = agent.iterate runId (giving turn execute) s := by
  unfold iterateWith at h
  unfold iterate
  simp only [giving]
  cases hresponse : turn.response with
  | error e =>
    rw [hresponse] at h
    cases h
    exact ⟨turn.execute, rfl⟩
  | ok response =>
    rw [hresponse] at h
    dsimp only at h ⊢
    unfold answerWith at h
    unfold answer
    cases hcalls : extractToolCalls response.parts with
    | nil =>
      rw [hcalls] at h
      cases h
      exact ⟨turn.execute, rfl⟩
    | cons first rest =>
      rw [hcalls] at h
      dsimp only at h ⊢
      cases hhandoff : agent.handoffCall (first :: rest) with
      | some call =>
        rw [hhandoff] at h
        cases h
        exact ⟨turn.execute, rfl⟩
      | none =>
        rw [hhandoff] at h
        exact answerToolsWith_gives agent toolbox h

/-- The loop reads only the turns from its iteration on. -/
theorem loop_congr (runId : String) {turns turns' : ℕ → Turn} (remaining : ℕ) {s : RunState}
    (h : ∀ i, s.iteration ≤ i → turns i = turns' i) :
    agent.loop runId turns remaining s = agent.loop runId turns' remaining s := by
  induction remaining generalizing s with
  | zero => simp only [loop, h s.iteration (Nat.le_refl _)]
  | succ remaining ih =>
    simp only [loop, h s.iteration (Nat.le_refl _)]
    split
    · rfl
    · cases hflow : agent.iterate runId (turns' s.iteration) s with
      | next s' =>
        have hs' := LoopTurns.iteration_next hflow
        exact ih (fun i hi => h i (by omega))
      | done s' result => rfl

theorem loopWith_gives {runId : String} {turns : ℕ → Turn} {remaining : ℕ} {s : RunState}
    {result : RunState × Except AgentError AgentOutput}
    (h : (agent.loopWith toolbox runId turns remaining s).Gives result) :
    ∃ execute : ℕ → ℕ → Except ToolCallError Value, result =
      agent.loop runId (fun i => giving (turns i) (execute i)) remaining s := by
  induction remaining generalizing s with
  | zero =>
    refine ⟨fun i => (turns i).execute, ?_⟩
    simp only [loopWith] at h
    rw [loop]
    split at h
    next hcancel =>
      cases h
      exact (if_pos hcancel).symm
    next hcancel =>
      cases h
      exact (if_neg hcancel).symm
  | succ remaining ih =>
    simp only [loopWith] at h
    split at h
    next hcancel =>
      cases h
      refine ⟨fun i => (turns i).execute, ?_⟩
      rw [loop]
      exact (if_pos hcancel).symm
    next hcancel =>
      obtain ⟨flow, hflow, hrest⟩ := h.bind_inv
      obtain ⟨first, hfirst⟩ := iterateWith_gives agent toolbox hflow
      cases flow with
      | done s' result =>
        cases hrest
        refine ⟨fun _ => first, ?_⟩
        simp only [loop, ← hfirst]
        exact (if_neg hcancel).symm
      | next s' =>
        obtain ⟨later, hlater⟩ := ih hrest
        have hs' := LoopTurns.iteration_next hfirst.symm
        -- the results of this iteration first, the rest of the loop reads later ones only
        refine ⟨fun i => if i = s.iteration then first else later i, ?_⟩
        rw [hlater, loop]
        simp only [if_true, ← hfirst]
        rw [loop_congr agent runId remaining (fun i hi => ?_)]
        · exact (if_neg hcancel).symm
        · simp only [if_neg (show i ≠ s.iteration by omega)]

/-- Whatever the runtime answers, the run comes to what the loop does with some results of
its tools. -/
theorem runWith_gives {input : AgentInput} {runId : String} {turns : ℕ → Turn}
    {result : RunState × Except AgentError AgentOutput}
    (h : (agent.runWith toolbox input runId turns).Gives result) :
    ∃ execute : ℕ → ℕ → Except ToolCallError Value,
      result = agent.run input runId (fun i => giving (turns i) (execute i)) :=
  loopWith_gives agent toolbox h

end Agent

def Toolbox.Own (toolbox : Toolbox) : Prop :=
  ∀ name input, (toolbox.execute name input).Only (fun call => call.tool = name)

/-- Executing a tool by this name can come to the runtime. -/
def Toolbox.Runs (toolbox : Toolbox) (name : String) : Prop :=
  ∃ input call, (toolbox.execute name input).Reaches call

def Toolbox.Advertises (toolbox : Toolbox) (name : String) : Prop :=
  ∃ spec ∈ toolbox.specs, spec.name = name

def anyInput : Value :=
  .object (["command", "path", "content", "old_text", "new_text", "replacement", "regex",
    "pattern"].map (fun key => (key, .string "")))

theorem RuntimeTool.toTool_only (t : RuntimeTool) (input : Value) :
    (t.toTool.execute input).Only (fun call => call.tool = t.spec.name) := by
  simp only [toTool]
  cases hparse : t.parse input with
  | error e => exact trivial
  | ok call => exact ⟨t.own input call hparse, fun answer => by
      cases answer with
      | error e => exact trivial
      | ok result => cases result <;> exact trivial⟩

theorem RuntimeTool.toTool_reaches {t : RuntimeTool} {input : Value} {call : RuntimeCall}
    (h : t.parse input = .ok call) : (t.toTool.execute input).Reaches call := by
  simp only [toTool, h]
  exact .now

theorem parse_anyInput : ∀ t ∈ runtimeTools, ∃ call, t.parse anyInput = .ok call := by
  simp only [runtimeTools, List.forall_mem_cons]
  exact ⟨⟨_, rfl⟩, ⟨_, rfl⟩, ⟨_, rfl⟩, ⟨_, rfl⟩, ⟨_, rfl⟩, ⟨_, rfl⟩, ⟨_, rfl⟩, ⟨_, rfl⟩,
    fun _ h => by cases h⟩

def runtimeToolbox : Toolbox := toolboxImpl (addRuntimeTools [])

theorem runtimeToolbox_own : runtimeToolbox.Own := by
  intro name input
  simp only [runtimeToolbox, toolboxImpl]
  cases hfind : (addRuntimeTools []).find? (fun t => t.spec.name == name) with
  | none => exact trivial
  | some tool =>
    have hname : tool.spec.name = name := by simpa using List.find?_some hfind
    have hmem := List.mem_of_find?_eq_some hfind
    simp only [addRuntimeTools, List.nil_append, List.mem_map] at hmem
    obtain ⟨t, -, rfl⟩ := hmem
    exact hname ▸ t.toTool_only input

/-- The standard tools are advertised and run under the same names. -/
theorem runtimeToolbox_runs (name : String) :
    runtimeToolbox.Advertises name ↔ runtimeToolbox.Runs name := by
  constructor
  · rintro ⟨spec, hspec, hname⟩
    simp only [runtimeToolbox, toolboxImpl, List.mem_map] at hspec
    obtain ⟨tool, htool, rfl⟩ := hspec
    cases hfind : (addRuntimeTools []).find? (fun t => t.spec.name == name) with
    | none => exact absurd hname (by simpa using List.find?_eq_none.mp hfind tool htool)
    | some found =>
      have hmem := List.mem_of_find?_eq_some hfind
      simp only [addRuntimeTools, List.nil_append, List.mem_map] at hmem
      obtain ⟨t, ht, rfl⟩ := hmem
      obtain ⟨call, hparse⟩ := parse_anyInput t ht
      refine ⟨anyInput, call, ?_⟩
      simp only [runtimeToolbox, toolboxImpl, hfind]
      exact RuntimeTool.toTool_reaches hparse
  · rintro ⟨input, call, h⟩
    simp only [runtimeToolbox, toolboxImpl] at h
    cases hfind : (addRuntimeTools []).find? (fun t => t.spec.name == name) with
    | none =>
      rw [hfind] at h
      cases h
    | some tool =>
      exact ⟨tool.spec, List.mem_map_of_mem (List.mem_of_find?_eq_some hfind),
        by simpa using List.find?_some hfind⟩

section Filtered

variable {inner : Toolbox} {allowed : List String}

theorem filteredToolbox_runs (h : ∀ name, inner.Advertises name ↔ inner.Runs name)
    (name : String) :
    (filteredToolbox inner allowed).Advertises name ↔
      (filteredToolbox inner allowed).Runs name := by
  by_cases hallowed : allowed.contains name = true
  · have hspecs : (filteredToolbox inner allowed).Advertises name ↔ inner.Advertises name := by
      simp only [Toolbox.Advertises, filteredToolbox, List.mem_filter]
      constructor
      · rintro ⟨spec, ⟨hspec, _⟩, hname⟩
        exact ⟨spec, hspec, hname⟩
      · rintro ⟨spec, hspec, hname⟩
        exact ⟨spec, ⟨hspec, hname ▸ hallowed⟩, hname⟩
    rw [hspecs, h name]
    simp only [Toolbox.Runs, filteredToolbox, hallowed, if_true]
  · constructor
    · rintro ⟨spec, hspec, hname⟩
      simp only [filteredToolbox, List.mem_filter] at hspec
      exact absurd (hname ▸ hspec.2) hallowed
    · rintro ⟨input, call, hreach⟩
      simp only [filteredToolbox, if_neg hallowed] at hreach
      cases hreach

/-- What is not allowed is not run. -/
theorem filteredToolbox_allowed (h : inner.Own) (name : String) (input : Value) :
    ((filteredToolbox inner allowed).execute name input).Only
      (fun call => call.tool ∈ allowed) := by
  simp only [filteredToolbox]
  split
  next hallowed =>
    exact (h name input).mono (fun call hcall => hcall ▸ List.contains_iff_mem.mp hallowed)
  · exact trivial

end Filtered

section Concluding

variable {base : Toolbox} {conclude : Option ToolSpec}

theorem agentToolbox_only {ok : RuntimeCall → Prop}
    (h : ∀ name input, (base.execute name input).Only ok) (name : String) (input : Value) :
    ((agentToolbox base conclude).execute name input).Only ok := by
  simp only [agentToolbox]
  split
  · exact trivial
  · exact h name input

theorem agentToolbox_runs (h : ∀ name, base.Advertises name ↔ base.Runs name) {name : String}
    (hname : ∀ spec ∈ conclude, spec.name ≠ name) :
    (agentToolbox base conclude).Advertises name ↔ (agentToolbox base conclude).Runs name := by
  have hexecute : ∀ input, (agentToolbox base conclude).execute name input =
      base.execute name input := by
    intro input
    simp only [agentToolbox]
    rw [if_neg]
    cases conclude with
    | none => simp
    | some spec => simpa using fun heq => hname spec rfl heq.symm
  have hspecs : (agentToolbox base conclude).Advertises name ↔ base.Advertises name := by
    simp only [Toolbox.Advertises, agentToolbox, List.mem_append]
    constructor
    · rintro ⟨spec, hspec | hspec, heq⟩
      · exact ⟨spec, hspec, heq⟩
      · exact absurd heq (hname spec (by simpa using hspec))
    · rintro ⟨spec, hspec, heq⟩
      exact ⟨spec, .inl hspec, heq⟩
  simp only [hspecs, h name, Toolbox.Runs, hexecute]

end Concluding

theorem concludeToolSpec_name {outputSchema : Option Value} {allowAsk : Bool} :
    ∀ spec ∈ concludeToolSpec outputSchema allowAsk, spec.name = concludeTool := by
  intro spec h
  simp only [concludeToolSpec, Option.mem_def, Option.map_eq_some_iff] at h
  obtain ⟨_, -, rfl⟩ := h
  rfl

/-- An agent with an allowlist invokes the runtime for the tools on it only, and but for
`conclude` it is told of exactly the tools that it can run. -/
theorem allowlist_enforced {agentDef : WorkflowAgentDef} {list : List String}
    (h : agentDef.allowedTools = some list) :
    (∀ (agent : Agent) (input : AgentInput) (runId : String) (turns : ℕ → Turn)
      (call : RuntimeCall), (agent.runWith (forAgent agentDef) input runId turns).Reaches call →
        call.tool ∈ list) ∧
    ∀ name, name ≠ concludeTool →
      ((∃ spec ∈ (forAgent agentDef).specs, spec.name = name) ↔
        ∃ input call, ((forAgent agentDef).execute name input).Reaches call) := by
  have hbox : forAgent agentDef = agentToolbox (filteredToolbox runtimeToolbox list)
      (concludeToolSpec agentDef.outputSchema agentDef.allowAskUser) := by
    simp only [forAgent, h, runtimeToolbox]
  rw [hbox]
  refine ⟨fun agent input runId turns call hcall => ?_, fun name hname => ?_⟩
  · exact (Agent.runWith_only (agentToolbox_only (filteredToolbox_allowed runtimeToolbox_own))
      input runId turns).reaches hcall
  · exact agentToolbox_runs (filteredToolbox_runs runtimeToolbox_runs)
      (fun spec hspec heq => hname (heq ▸ concludeToolSpec_name spec hspec))

def bashOnly : WorkflowAgentDef :=
  ⟨"a", none, "m", none, true, none, none, none, some ["bash", "conclude"]⟩

theorem allowlist_enforced_bash :
    (∃ input call, ((forAgent bashOnly).execute "bash" input).Reaches call) ∧
      ¬ ∃ input call, ((forAgent bashOnly).execute "grep" input).Reaches call := by
  have hbash := (allowlist_enforced (show bashOnly.allowedTools = some ["bash", "conclude"]
    from rfl)).2 "bash" (by decide)
  have hgrep := (allowlist_enforced (show bashOnly.allowedTools = some ["bash", "conclude"]
    from rfl)).2 "grep" (by decide)
  refine ⟨hbash.mp ⟨BashTool.spec, List.mem_cons_self .., rfl⟩, fun h => ?_⟩
  obtain ⟨spec, hspec, hname⟩ := hgrep.mpr h
  have hnames : spec.name ∈ (forAgent bashOnly).specs.map ToolSpec.name :=
    List.mem_map_of_mem hspec
  have hlist : (forAgent bashOnly).specs.map ToolSpec.name = ["bash", "conclude"] := rfl
  rw [hlist, hname] at hnames
  exact absurd hnames (by decide)

end October
