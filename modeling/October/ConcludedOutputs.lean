import October.SessionLifetime
import October.PermittedCalls
import October.RunOutcomes

/-!
What a concluded agent hands its workflow, against the schema its definition declares.
A conclude call ends the run only if its payload is valid against the synthesized schema,
in every lifetime of the session. Without questions that is the declared schema itself.
With questions the payload's `output` is checked where there is one, but the synthesized
schema does not require it, and a payload that leaves it out is reported as null.
-/
namespace October.ConcludedOutputs

open AgentActor SessionLifetime RunOutcomes

/-- The JSON Schema library. Validity respects the keywords of the synthesized schemas, and
a compiled schema decides it. -/
structure JsonSchema where
  Valid : Value → Value → Prop
  validatorFor : Value → Except String Validator
  compiled : ∀ schema validator, validatorFor schema = .ok validator →
    ∀ v, validator.isValid v = true ↔ Valid schema v
  object : ∀ (required : List String) (properties : List (String × Value)) (v : Value),
    (properties.map Prod.fst).Nodup →
    (Valid (.object [("type", .string "object"), ("required", .array (required.map .string)),
        ("properties", .object properties)]) v ↔
      (∃ fields, v = .object fields) ∧ (∀ key ∈ required, (v.get key).isSome) ∧
        ∀ p ∈ properties, ∀ w, v.get p.1 = some w → Valid p.2 w)
  enum : ∀ (options : List String) (description : String) (v : Value),
    Valid (.object [("type", .string "string"), ("enum", .array (options.map .string)),
        ("description", .string description)]) v ↔ ∃ option ∈ options, v = .string option

variable {schemas : JsonSchema}

/-- What the synthesized union asks of a payload. -/
theorem bothSchema_valid {schema data : Value} (h : schemas.Valid (bothSchema schema) data) :
    (∃ kind ∈ ["submit", "ask"], data.get "kind" = some (.string kind)) ∧
      ∀ output, data.get "output" = some output → schemas.Valid schema output := by
  obtain ⟨-, hrequired, hproperties⟩ := (schemas.object ["kind"] _ data (by simp)).mp h
  obtain ⟨kind, hkind⟩ := Option.isSome_iff_exists.mp (hrequired "kind" (by simp))
  refine ⟨?_, fun output houtput => hproperties ("output", schema) (by simp) output houtput⟩
  obtain ⟨option, hoption, rfl⟩ := (schemas.enum ["submit", "ask"] _ kind).mp
    (hproperties ("kind", _) (List.mem_cons_self ..) kind hkind)
  exact ⟨option, hoption, hkind⟩

/-- No runtime-backed tool goes by the name of the terminal one. -/
theorem find_concludeTool (d : WorkflowAgentDef) :
    (forAgent d).specs.find? (fun t => t.name == concludeTool) =
      concludeToolSpec d.outputSchema d.allowAskUser := by
  have hruntime : ∀ spec ∈ (toolboxImpl (addRuntimeTools [])).specs,
      (spec.name == concludeTool) = false := by
    intro spec hspec
    have hname : spec.name ∈ (toolboxImpl (addRuntimeTools [])).specs.map ToolSpec.name :=
      List.mem_map_of_mem hspec
    have hnames : (toolboxImpl (addRuntimeTools [])).specs.map ToolSpec.name =
        ["bash", "read_file", "write_file", "edit_file", "replace_in_file", "list_files", "glob",
          "grep"] := rfl
    rw [hnames] at hname
    have hnot : ∀ name ∈ ["bash", "read_file", "write_file", "edit_file", "replace_in_file",
        "list_files", "glob", "grep"], (name == concludeTool) = false := by decide
    exact hnot spec.name hname
  have hconclude : (concludeToolSpec d.outputSchema d.allowAskUser).toList.find?
      (fun t => t.name == concludeTool) = concludeToolSpec d.outputSchema d.allowAskUser := by
    cases hspec : concludeToolSpec d.outputSchema d.allowAskUser with
    | none => rfl
    | some spec =>
      have hname := concludeToolSpec_name spec hspec
      simp [hname]
  unfold forAgent agentToolbox
  rw [List.find?_append, hconclude]
  rw [List.find?_eq_none.mpr, Option.none_or]
  intro spec hspec
  cases hallowed : d.allowedTools with
  | none =>
    rw [hallowed] at hspec
    simpa using hruntime spec hspec
  | some list =>
    rw [hallowed] at hspec
    simpa using hruntime spec (List.mem_filter.mp hspec).1

def setup (schemas : JsonSchema) (d : WorkflowAgentDef) (sessionId : Uuid) : Setup where
  sessionId := sessionId
  params := AgentParams.fromDef d
  validatorFor := schemas.validatorFor
  tools := (forAgent d).specs

variable {d : WorkflowAgentDef} {schema : Value} {sessionId : Uuid}

def Checked (schemas : JsonSchema) (d : WorkflowAgentDef) : RunOutcome → Prop
  | .completed _ => False
  | .concluded data _ =>
    ∃ schema ∈ concludeSchema d.outputSchema d.allowAskUser, schemas.Valid schema data
  | .cancelled => True
  | .failed _ _ => True

theorem build_handoff (hschema : d.outputSchema = some schema) {history : List Message}
    {agent : Agent} (h : (setup schemas d sessionId).config.build history = .ok agent) :
    agent.handoffTool = some concludeTool ∧
      ∃ synthesized ∈ concludeSchema d.outputSchema d.allowAskUser,
        ∃ validator, agent.handoffValidator = some validator ∧
          schemas.validatorFor synthesized = .ok validator := by
  have htool : (setup schemas d sessionId).config.handoffTool = some concludeTool := by
    simp [setup, Setup.config, runConfig, AgentParams.handoffTool, AgentParams.fromDef, hschema]
  unfold RunConfig.build Agent.build at h
  rw [htool] at h
  split at h
  · cases h
  · dsimp only at h
    rw [show (setup schemas d sessionId).config.tools = (forAgent d).specs from rfl,
      find_concludeTool] at h
    unfold concludeToolSpec at h
    cases hsynthesized : concludeSchema d.outputSchema d.allowAskUser with
    | none =>
      rw [hsynthesized] at h
      cases h
    | some synthesized =>
      rw [hsynthesized] at h
      simp only [Option.map_some] at h
      cases hvalidator : schemas.validatorFor synthesized with
      | error reason =>
        simp only [setup, Setup.config, runConfig, hvalidator] at h
        cases h
      | ok validator =>
        simp only [setup, Setup.config, runConfig, hvalidator] at h
        cases h
        exact ⟨rfl, synthesized, rfl, validator, rfl, hvalidator⟩

theorem runWithRetries_checked (hschema : d.outputSchema = some schema) (history : List Message)
    (input : AgentInput) (attempts : ℕ → Attempt) :
    Checked schemas d
      (runWithRetries (setup schemas d sessionId).config history input attempts).outcome := by
  rcases runWithRetries_outcome (setup schemas d sessionId).config history input attempts with
    ⟨agent, captured, result, hbuild, haccepts, houtcome⟩ | houtcome |
      ⟨error, recoverable, houtcome, -⟩
  · obtain ⟨htool, synthesized, hsynthesized, validator, hvalidator, hcompiled⟩ :=
      build_handoff hschema hbuild
    rw [houtcome]
    cases result with
    | completed text => cases htool.symm.trans haccepts
    | handoff name data =>
      exact ⟨synthesized, hsynthesized,
        (schemas.compiled synthesized validator hcompiled data).mp
          (haccepts.2 validator hvalidator)⟩
  · rw [houtcome]
    trivial
  · rw [houtcome]
    trivial

structure Handling where
  command : AgentCommand
  told : List WorkflowCommand

def Handling.outputs (handling : Handling) : List Value :=
  handling.told.filterMap (fun command => match command with
    | .agentConcluded _ output => some output
    | _ => none)

def tellings (actions : List AgentAction) : List WorkflowCommand :=
  actions.filterMap (fun action => match action with
    | .tellParent command => some command
    | _ => none)

def shows (s : Session) (step : Step) : List Handling :=
  match s.actor, received s step.event with
  | some actor, some (command, _) =>
    [⟨command, tellings (actor.handleCommand s.state s.started step.messageId command).2.1⟩]
  | _, _ => []

/-- The payload of a finished run asks, or has an output, or null is an output too. -/
def OutputGiven (schemas : JsonSchema) (d : WorkflowAgentDef) : AgentCommand → Prop
  | .runFinished (.concluded data _) =>
    d.allowAskUser = true → data.get "kind" = some (.string "ask") ∨
      (data.get "output").isSome ∨ ∀ schema ∈ d.outputSchema, schemas.Valid schema .null
  | _ => True

def OutputsValid (schemas : JsonSchema) (schema : Value) (handling : Handling) : Prop :=
  ∀ output ∈ handling.outputs, schemas.Valid schema output

theorem interpret_submit {data : Value} {toolCallId : Option String}
    (hschema : d.outputSchema = some schema) (hask : d.allowAskUser = true)
    (hkind : data.get "kind" = some (.string "submit")) :
    interpret (AgentParams.fromDef d) data toolCallId =
      .output ((data.get "output").getD .null) := by
  have hnot : ¬ ((some (Value.string "submit")).bind Value.asStr).getD "submit" = "ask" := by
    decide
  simp only [interpret, AgentParams.fromDef, hschema, hask, hkind, Option.isSome_some]
  exact if_neg hnot

theorem interpret_ask {data : Value} {toolCallId : Option String}
    (hschema : d.outputSchema = some schema) (hask : d.allowAskUser = true)
    (hkind : data.get "kind" = some (.string "ask")) :
    interpret (AgentParams.fromDef d) data toolCallId =
      .ask toolCallId (extractQuestion data) := by
  simp only [interpret, AgentParams.fromDef, hschema, hask, hkind, Option.isSome_some]
  exact if_pos rfl

theorem told_output {actor : AgentActor} {data output : Value} {toolCallId : Option String}
    (h : interpret actor.params data toolCallId = .output output) :
    tellings (actor.handleFinished (.concluded data toolCallId)).2.1 =
      [.agentConcluded actor.sessionId output] := by
  simp only [AgentActor.handleFinished, h]
  rfl

theorem told_ask {actor : AgentActor} {data : Value} {toolCallId : Option String}
    {question : String} (h : interpret actor.params data toolCallId = .ask toolCallId question) :
    tellings (actor.handleFinished (.concluded data toolCallId)).2.1 =
      [.agentAsked actor.sessionId toolCallId question] := by
  simp only [AgentActor.handleFinished, h]
  rfl

/-- A single report of an output. -/
theorem outputsValid_one {command : AgentCommand} {sessionId : Uuid} {output : Value} :
    OutputsValid schemas schema ⟨command, [.agentConcluded sessionId output]⟩ ↔
      schemas.Valid schema output := by
  simp [OutputsValid, Handling.outputs]

/-- A finished run is reported with a valid output just if its payload gives one. -/
theorem handleFinished_outputs {actor : AgentActor} {outcome : RunOutcome}
    (hparams : actor.params = AgentParams.fromDef d) (hschema : d.outputSchema = some schema)
    (hchecked : Checked schemas d outcome) :
    OutputsValid schemas schema
        ⟨.runFinished outcome, tellings (actor.handleFinished outcome).2.1⟩ ↔
      OutputGiven schemas d (.runFinished outcome) := by
  cases outcome with
  | completed text => exact hchecked.elim
  | cancelled => simp [AgentActor.handleFinished, tellings, OutputsValid, Handling.outputs,
      OutputGiven]
  | failed error recoverable =>
    simp [AgentActor.handleFinished, tellings, OutputsValid, Handling.outputs,
      OutputGiven]
  | concluded data toolCallId =>
    obtain ⟨synthesized, hsynthesized, hvalid⟩ := hchecked
    rw [hschema, Option.mem_def] at hsynthesized
    cases hask : d.allowAskUser with
    | false =>
      rw [hask] at hsynthesized
      obtain rfl : schema = synthesized := Option.some.inj hsynthesized
      have houtput : interpret actor.params data toolCallId = .output data := by
        simp only [hparams, interpret, AgentParams.fromDef, hschema, hask, Option.isSome_some]
      rw [told_output houtput, outputsValid_one]
      exact ⟨fun _ h => absurd (hask.symm.trans h) (by decide), fun _ => hvalid⟩
    | true =>
      rw [hask] at hsynthesized
      obtain rfl : bothSchema schema = synthesized := Option.some.inj hsynthesized
      obtain ⟨⟨kind, hmem, hkind⟩, houtput⟩ := bothSchema_valid hvalid
      rcases List.mem_pair.mp hmem with rfl | rfl
      · rw [told_output (hparams ▸ interpret_submit hschema hask hkind), outputsValid_one]
        cases hgiven : data.get "output" with
        | none => simp [OutputGiven, hask, hkind, hgiven, hschema]
        | some output => simp [OutputGiven, hgiven, houtput output hgiven]
      · rw [told_ask (hparams ▸ interpret_ask hschema hask hkind)]
        simp [OutputsValid, Handling.outputs, OutputGiven, hkind]

section Lifetime

variable {setup : Setup}

def OutcomesOk (ok : RunOutcome → Prop) (s : Session) : Prop := ∀ run ∈ s.runs, ok run.outcome

theorem foldl_perform_outcomes {ok : RunOutcome → Prop}
    (hrun : ∀ history input attempts,
      ok (runWithRetries setup.config history input attempts).outcome)
    {step : Step} {actions : List AgentAction} {s : Session} (h : OutcomesOk ok s) :
    OutcomesOk ok (actions.foldl (SessionLifetime.perform setup step) s) := by
  induction actions generalizing s with
  | nil => exact h
  | cons action rest ih =>
    refine ih ?_
    cases action with
    | startRun input history =>
      intro run hmem
      rcases List.mem_append.mp hmem with hmem | hmem
      · exact h run hmem
      · cases List.mem_singleton.mp hmem
        exact hrun history input step.attempts
    | cancelRun run => exact h
    | tellParent command => exact h

theorem applyEffect_outcomes {ok : RunOutcome → Prop} {step : Step}
    {effect : CommandEffect AgentDomainEvent} {s : Session} (h : OutcomesOk ok s) :
    OutcomesOk ok (applyEffect step effect s) := by
  unfold applyEffect persist
  split
  · exact fun _ hmem => by cases hmem
  · split <;> exact h

/-- What the actor takes leaves outcomes of the runs in flight, and reports one of them. -/
theorem received_outcomes {ok : RunOutcome → Prop} {s : Session} {event : Event}
    {command : AgentCommand} {runs : List InFlight} (h : OutcomesOk ok s)
    (hreceived : received s event = some (command, runs)) :
    (∀ run ∈ runs, ok run.outcome) ∧ ∀ outcome, command = .runFinished outcome → ok outcome := by
  cases event with
  | run input =>
    cases hreceived
    exact ⟨h, fun _ heq => by cases heq⟩
  | inject toolCallId content =>
    cases hreceived
    exact ⟨h, fun _ heq => by cases heq⟩
  | cancel =>
    cases hreceived
    exact ⟨h, fun _ heq => by cases heq⟩
  | progress i =>
    simp only [received] at hreceived
    split at hreceived
    next e rest outcome hget =>
      cases hreceived
      refine ⟨fun run hmem => ?_, fun _ heq => by cases heq⟩
      rcases List.mem_or_eq_of_mem_set hmem with hmem | rfl
      · exact h run hmem
      · exact h ⟨e :: rest, outcome⟩ (List.mem_of_getElem? hget)
    next => cases hreceived
  | finish i =>
    simp only [received] at hreceived
    split at hreceived
    next outcome hget =>
      cases hreceived
      refine ⟨fun run hmem => h run (List.mem_of_mem_eraseIdx hmem), fun outcome' heq => ?_⟩
      cases heq
      exact h _ (List.mem_of_getElem? hget)
    next => cases hreceived
  | spawn => cases hreceived
  | crash => cases hreceived

theorem handleCommand_params {actor : AgentActor} {state : AgentState} {run : ℕ}
    {messageId : String} {command : AgentCommand} :
    (actor.handleCommand state run messageId command).1.params = actor.params := by
  cases command with
  | runFinished outcome =>
    cases outcome with
    | concluded data toolCallId =>
      simp only [handleCommand, AgentActor.handleFinished]
      cases interpret actor.params data toolCallId <;> rfl
    | _ => rfl
  | _ => rfl

theorem applyEffect_actor {step : Step} {effect : CommandEffect AgentDomainEvent} {s : Session}
    {actor : AgentActor} (h : (applyEffect step effect s).actor = some actor) :
    s.actor = some actor := by
  unfold applyEffect persist at h
  split at h
  · cases h
  · split at h <;> exact h

theorem foldl_perform_actor {step : Step} {actions : List AgentAction} {s : Session} :
    (actions.foldl (SessionLifetime.perform setup step) s).actor = s.actor := by
  induction actions generalizing s with
  | nil => rfl
  | cons action rest ih =>
    rw [List.foldl_cons, ih]
    cases action <;> rfl

/-- In every lifetime the runs in flight have such outcomes as runs come to, and the live
actor has the parameters it was spawned with. -/
structure Inv (ok : RunOutcome → Prop) (setup : Setup) (s : Session) : Prop where
  outcomes : OutcomesOk ok s
  params : ∀ actor ∈ s.actor, actor.params = setup.params

theorem Inv.handle {ok : RunOutcome → Prop}
    (hrun : ∀ history input attempts,
      ok (runWithRetries setup.config history input attempts).outcome)
    {s : Session} (h : Inv ok setup s) {step : Step} {actor : AgentActor} {command : AgentCommand}
    {runs : List InFlight} (hactor : s.actor = some actor)
    (hreceived : received s step.event = some (command, runs)) :
    Inv ok setup (SessionLifetime.handle setup step actor command { s with runs := runs }) := by
  refine ⟨?_, fun actor' hactor' => ?_⟩
  · exact applyEffect_outcomes (foldl_perform_outcomes hrun
      (received_outcomes h.outcomes hreceived).1)
  · have hkept := applyEffect_actor hactor'
    rw [foldl_perform_actor] at hkept
    obtain rfl := Option.some.inj hkept
    rw [handleCommand_params, h.params actor hactor]

theorem Inv.next {ok : RunOutcome → Prop}
    (hrun : ∀ history input attempts,
      ok (runWithRetries setup.config history input attempts).outcome)
    {s t : Session} (h : Inv ok setup s) {step : Step}
    (hnext : SessionLifetime.next setup s step = some t) : Inv ok setup t := by
  unfold SessionLifetime.next at hnext
  split at hnext
  · cases hnext
    exact ⟨List.forall_mem_nil _, fun _ hactor => by cases hactor⟩
  · cases hnext
    refine ⟨foldl_perform_outcomes hrun h.outcomes, fun actor hactor => ?_⟩
    rw [foldl_perform_actor] at hactor
    obtain rfl := Option.some.inj hactor
    unfold onRecoveryComplete
    split <;> rfl
  · cases hnext
  · cases hnext
  · rename_i hactor _ _
    obtain ⟨⟨command, runs⟩, hreceived, rfl⟩ := Option.map_eq_some_iff.mp hnext
    exact h.handle hrun hactor hreceived

theorem Inv.run {ok : RunOutcome → Prop}
    (hrun : ∀ history input attempts,
      ok (runWithRetries setup.config history input attempts).outcome)
    {s : Session} (h : Machine.Run (SessionLifetime.next setup) Machine.free Session.new s) :
    Inv ok setup s :=
  h.invariant (Inv ok setup) (fun _ _ _ hinv _ hnext => hinv.next hrun hnext)
    ⟨List.forall_mem_nil _, fun _ hactor => by cases hactor⟩

end Lifetime

/-- What a step shows has valid outputs just if its payload gives one. -/
theorem shows_outputs (hschema : d.outputSchema = some schema) {s : Session}
    (h : Inv (Checked schemas d) (setup schemas d sessionId) s) {step : Step}
    {handling : Handling} (hshows : handling ∈ shows s step) :
    OutputsValid schemas schema handling ↔ OutputGiven schemas d handling.command := by
  unfold shows at hshows
  split at hshows
  next actor command runs hactor hreceived =>
    cases List.mem_singleton.mp hshows
    cases command with
    | runFinished outcome =>
      exact handleFinished_outputs (h.params actor hactor) hschema
        ((received_outcomes h.outcomes hreceived).2 outcome rfl)
    | cancel =>
      cases actor with
      | mk sessionId params running =>
        cases running <;> simp [handleCommand, tellings, OutputsValid, Handling.outputs,
      OutputGiven]
    | _ => simp [handleCommand, startRun, tellings, OutputsValid, Handling.outputs,
      OutputGiven]
  next => cases hshows

/-- In every lifetime of a session with an output schema: the outputs that its workflow is
told of are valid just if every conclude payload that ended a run, unless it asks, has an
output or may do without. -/
theorem concluded_valid (schemas : JsonSchema) (d : WorkflowAgentDef) (schema : Value)
    (hschema : d.outputSchema = some schema) (sessionId : Uuid) (s : Session × List Handling)
    (hrun : Machine.Run
      (Machine.observed (SessionLifetime.next (setup schemas d sessionId)) shows) Machine.free
      (Session.new, []) s) :
    (∀ handling ∈ s.2, OutputsValid schemas schema handling) ↔
      ∀ handling ∈ s.2, OutputGiven schemas d handling.command := by
  have hiff : Inv (Checked schemas d) (setup schemas d sessionId) s.1 ∧
      ∀ handling ∈ s.2,
        (OutputsValid schemas schema handling ↔ OutputGiven schemas d handling.command) := by
    refine hrun.invariant (fun s => Inv (Checked schemas d) (setup schemas d sessionId) s.1 ∧
      ∀ handling ∈ s.2,
        (OutputsValid schemas schema handling ↔ OutputGiven schemas d handling.command)) ?_ ?_
    · rintro s step t ⟨hinv, hshown⟩ - hstep
      obtain ⟨hnext, hshows⟩ := Machine.observed_step hstep
      refine ⟨hinv.next (runWithRetries_checked hschema) hnext, fun handling hmem => ?_⟩
      rw [hshows] at hmem
      rcases List.mem_append.mp hmem with hmem | hmem
      · exact hshown handling hmem
      · exact shows_outputs hschema hinv hmem
    · exact ⟨⟨List.forall_mem_nil _, fun _ hactor => by cases hactor⟩, List.forall_mem_nil _⟩
  exact forall₂_congr hiff.2

def hasType (type : String) : Value → Bool
  | .null => type == "null"
  | .bool _ => type == "boolean"
  | .number _ => type == "number"
  | .string _ => type == "string"
  | .array _ => type == "array"
  | .object _ => type == "object"

def hasRequired (keys : List Value) : Value → Bool
  | .object fields =>
    keys.all (fun key => key.asStr.any (fun k => ((Value.object fields).get k).isSome))
  | _ => true

def isOption (options : List Value) (v : Value) : Bool :=
  options.any (fun option => match option, v with
    | .string s, .string s' => s == s'
    | _, _ => false)

mutual

def conforms : Value → Value → Bool
  | .object keywords, v => conformsAll keywords v
  | .bool b, _ => b
  | _, _ => false

def conformsAll : List (String × Value) → Value → Bool
  | [], _ => true
  | keyword :: rest, v => conformsTo keyword v && conformsAll rest v

def conformsTo : String × Value → Value → Bool
  | (key, .object properties), v =>
    if key = "properties" then conformsProperties properties v else true
  | (key, .string type), v => if key = "type" then hasType type v else true
  | (key, .array values), v =>
    if key = "required" then hasRequired values v
    else if key = "enum" then isOption values v
    else true
  | _, _ => true

def conformsProperties : List (String × Value) → Value → Bool
  | [], _ => true
  | property :: rest, v => conformsProperty property v && conformsProperties rest v

def conformsProperty : String × Value → Value → Bool
  | (key, schema), v =>
    match v.get key with
    | none => true
    | some w => conforms schema w

end

theorem conformsProperties_iff {properties : List (String × Value)} {v : Value} :
    conformsProperties properties v = true ↔
      ∀ p ∈ properties, ∀ w, v.get p.1 = some w → conforms p.2 w = true := by
  induction properties with
  | nil => simp [conformsProperties]
  | cons p rest ih =>
    obtain ⟨key, schema⟩ := p
    rw [conformsProperties, Bool.and_eq_true, ih, List.forall_mem_cons, conformsProperty]
    cases v.get key with
    | none => simp
    | some w => simp

def fragment : JsonSchema where
  Valid schema v := conforms schema v = true
  validatorFor schema := .ok ⟨conforms schema, fun _ => none⟩
  compiled schema validator h v := by
    cases h
    rfl
  object required properties v _ := by
    simp only [conforms, conformsAll, conformsTo, Bool.and_true, Bool.and_eq_true, if_true,
      conformsProperties_iff]
    cases v with
    | object fields => simp [hasType, hasRequired, Value.asStr]
    | _ => simp [hasType]
  enum options description v := by
    simp only [conforms, conformsAll, conformsTo, Bool.and_true]
    cases v with
    | string s => simp [hasType, isOption]
    | _ => simp [hasType]

def answerSchema : Value := objectSchema [("answer", typeSchema "string")] ["answer"]

def answerer : WorkflowAgentDef :=
  ⟨"a", none, "m", some answerSchema, true, none, none, none, none⟩

def concludes (payload : Value) : ℕ → Attempt := fun _ =>
  { runId := "run"
    turns := fun _ => ⟨false, "msg", [],
      .ok ⟨[.toolCall "tc" concludeTool payload], .toolUse, ⟨1, 1⟩⟩, false, fun _ => .ok .null⟩ }

def concludedSession (payload : Value) : List Step :=
  [⟨.spawn, "m0", textOnly, true⟩, ⟨.run "go", "m1", concludes payload, true⟩,
    ⟨.progress 0, "m2", textOnly, true⟩, ⟨.progress 0, "m3", textOnly, true⟩,
    ⟨.finish 0, "m4", textOnly, true⟩]

def afterConcluding (payload : Value) : Session × List Handling :=
  Machine.final (Machine.observed (SessionLifetime.next (setup fragment answerer 0)) shows)
    Machine.free (Session.new, []) (concludedSession payload)

def givenOutput : Value :=
  .object [("kind", .string "submit"), ("output", .object [("answer", .string "yes")])]

def leftOutput : Value := .object [("kind", .string "submit")]

theorem run_givenOutput :
    Machine.Run (Machine.observed (SessionLifetime.next (setup fragment answerer 0)) shows)
      Machine.free (Session.new, []) (afterConcluding givenOutput) :=
  Machine.run_final (concludedSession givenOutput) (by decide +kernel)

theorem run_leftOutput :
    Machine.Run (Machine.observed (SessionLifetime.next (setup fragment answerer 0)) shows)
      Machine.free (Session.new, []) (afterConcluding leftOutput) :=
  Machine.run_final (concludedSession leftOutput) (by decide +kernel)

instance (schema : Value) (handling : Handling) :
    Decidable (OutputsValid fragment schema handling) :=
  inferInstanceAs (Decidable (∀ output ∈ handling.outputs, conforms schema output = true))

theorem givenOutput_given :
    ((afterConcluding givenOutput).2.flatMap Handling.outputs).length = 1 ∧
      ∀ handling ∈ (afterConcluding givenOutput).2,
        OutputGiven fragment answerer handling.command :=
  ⟨by decide +kernel, (concluded_valid fragment answerer answerSchema rfl 0 _
    run_givenOutput).mp (by decide +kernel)⟩

/-- The synthesized schema accepts the submission without an output. -/
theorem leftOutput_invalid :
    conforms (bothSchema answerSchema) leftOutput = true ∧
      ∃ s, Machine.Run
          (Machine.observed (SessionLifetime.next (setup fragment answerer 0)) shows)
          Machine.free (Session.new, []) s ∧
        ¬ ∀ handling ∈ s.2, OutputsValid fragment answerSchema handling :=
  ⟨by decide +kernel, afterConcluding leftOutput, run_leftOutput, by decide +kernel⟩

end October.ConcludedOutputs
