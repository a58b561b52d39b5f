import Mathlib.Data.List.AList
import October.WorkflowActor

/-!
The operator's configuration of models and providers, the check of a workflow against it
and the provider registry built from it. The check reports all errors; the registry stops
at the first. A map is iterated in the order of its entries.
-/
namespace October

inductive ProviderConfig where
  | anthropic (apiKey apiKeyEnv baseUrl : Option String)

structure ModelConfig where
  provider : String
  modelId : String
  maxTokens : Option UInt32

structure OctoberConfig where
  providers : AList (fun _ : String => ProviderConfig)
  models : AList (fun _ : String => ModelConfig)

inductive CliError where
  | config (message : String)
  | provider (message : String)
  deriving DecidableEq

/-- What a provider needs of its surroundings: the environment, and the HTTP client that is
built for a key and a base URL. -/
structure ProviderHost where
  env : String → Option String
  buildClient : Option String → Option String → Except LlmError Unit

structure AnthropicProvider where
  model : String
  apiKey : Option String
  baseUrl : Option String
  maxTokens : Option UInt32
  deriving DecidableEq

namespace AnthropicProvider

def defaultModel : String := "claude-3-5-sonnet-20241022"

def envBaseUrl (host : ProviderHost) : Option String :=
  (host.env "ANTHROPIC_BASE_URL").filter (fun s => s ≠ "")

def create (host : ProviderHost) (apiKey : Option String) : Except LlmError AnthropicProvider := do
  host.buildClient apiKey (envBaseUrl host)
  return ⟨defaultModel, apiKey, envBaseUrl host, none⟩

end AnthropicProvider

section Validate

variable (evalCondition : String → Value → Except String Value) (d : WorkflowDefinition)
  (cfg : OctoberConfig)

def WorkflowDefinition.names : List String := d.agents.map WorkflowAgentDef.name

/-- What is wrong with a transition; its condition is tried on an empty output. -/
def transitionErrors (a : WorkflowAgentDef) (t : WorkflowTransition) : List String :=
  (if t.target ∈ d.names then []
    else ["agent '" ++ a.name ++ "' has a transition to undefined agent '" ++ t.target ++ "'"]) ++
  match t.condition with
  | none => []
  | some cond =>
    match evalCondition cond (.object []) with
    | .ok _ => []
    | .error e => ["agent '" ++ a.name ++ "' transition condition `" ++ cond ++
        "` failed to evaluate: " ++ e]

def agentErrors (a : WorkflowAgentDef) : List String :=
  (if a.model ∈ cfg.models then []
    else ["agent '" ++ a.name ++ "' uses model '" ++ a.model ++
      "' which is not in config.models"]) ++
  (a.transitions.getD []).flatMap (transitionErrors evalCondition d a)

def modelErrors (modelKey : String) (mc : ModelConfig) : List String :=
  if mc.provider ∈ cfg.providers then []
  else ["model '" ++ modelKey ++ "' references unknown provider '" ++ mc.provider ++ "'"]

def validate : List String :=
  (if d.start ∈ d.names then []
    else ["start agent '" ++ d.start ++ "' is not defined"]) ++
  d.agents.flatMap (agentErrors evalCondition d cfg) ++
  cfg.models.entries.flatMap (fun m => modelErrors cfg m.1 m.2)

end Validate

section Registry

variable (host : ProviderHost)

def resolveKey (provider : String) : Option String → Option String →
    Except CliError (Option String)
  | some k, _ =>
    if k = "" then .error (.config ("inline api_key for provider '" ++ provider ++ "' is empty"))
    else .ok (some k)
  | none, some var =>
    match host.env var with
    | none => .error (.config
        ("env var '" ++ var ++ "' for provider '" ++ provider ++ "' is not set"))
    | some key =>
      if key = "" then .error (.config
        ("env var '" ++ var ++ "' for provider '" ++ provider ++ "' is empty"))
      else .ok (some key)
  | none, none => .ok none

def buildProvider (mc : ModelConfig) : ProviderConfig → Except CliError AnthropicProvider
  | .anthropic apiKey apiKeyEnv baseUrl => do
    let resolvedKey ← resolveKey host mc.provider apiKey apiKeyEnv
    let p ← (AnthropicProvider.create host resolvedKey).mapError (fun e => .provider e.display)
    return { p with
      model := mc.modelId
      maxTokens := mc.maxTokens
      baseUrl := baseUrl.or p.baseUrl }

abbrev ProviderRegistry := AList (fun _ : String => AnthropicProvider)

def buildRegistryFrom (cfg : OctoberConfig) :
    List (Sigma (fun _ : String => ModelConfig)) → ProviderRegistry →
    Except CliError ProviderRegistry
  | [], reg => .ok reg
  | ⟨modelKey, mc⟩ :: rest, reg =>
    match cfg.providers.lookup mc.provider with
    | none => .error (.config ("model '" ++ modelKey ++ "' references unknown provider '" ++
        mc.provider ++ "'"))
    | some pc =>
      match buildProvider host mc pc with
      | .error e => .error e
      | .ok provider => buildRegistryFrom cfg rest (reg.insert modelKey provider)

def buildRegistry (cfg : OctoberConfig) : Except CliError ProviderRegistry :=
  buildRegistryFrom host cfg cfg.models.entries ∅

variable {host} {cfg : OctoberConfig}

theorem buildRegistryFrom_keys {models : List (Sigma (fun _ : String => ModelConfig))}
    {reg reg' : ProviderRegistry} (h : buildRegistryFrom host cfg models reg = .ok reg')
    (key : String) : key ∈ reg' ↔ key ∈ models.map Sigma.fst ∨ key ∈ reg := by
  induction models generalizing reg with
  | nil =>
    cases h
    simp
  | cons m rest ih =>
    obtain ⟨modelKey, mc⟩ := m
    simp only [buildRegistryFrom] at h
    split at h
    · cases h
    · split at h
      · cases h
      · rw [ih h, AList.mem_insert, List.map_cons, List.mem_cons]
        exact ⟨fun h => by tauto, fun h => by tauto⟩

/-- The registry has a provider for just the configured models. -/
theorem buildRegistry_keys {reg : ProviderRegistry} (h : buildRegistry host cfg = .ok reg)
    (key : String) : key ∈ reg ↔ key ∈ cfg.models := by
  rw [buildRegistryFrom_keys h key]
  simp [AList.mem_keys, AList.keys, List.keys]

end Registry

end October
