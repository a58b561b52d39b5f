import Mathlib.Algebra.BigOperators.Group.Finset.Basic
import October.RunTraces

/-!
The token totals of a run. They are kept in 32-bit fields to which every answer's usage
is added as it comes in, whatever the turn goes on to do, so the reported totals are the
sums modulo 2^32: exact, with no addition that overflows, just while both sums fit.
-/

namespace October.TokenTotals

open LoopTurns RunTraces
open scoped BigOperators

def turnUsage (turn : Turn) : Usage :=
  match turn.response with
  | .ok response => response.usage
  | .error _ => ⟨0, 0⟩

section Totals

variable (turns : ℕ → Turn)

def total (field : Usage → UInt32) (n : ℕ) : ℕ :=
  ∑ i ∈ Finset.range n, (field (turnUsage (turns i))).toNat

def Fits (n : ℕ) : Prop :=
  total turns Usage.inputTokens n < 2 ^ 32 ∧ total turns Usage.outputTokens n < 2 ^ 32

structure Exact (n : ℕ) (usage : Usage) : Prop where
  input : usage.inputTokens.toNat = total turns Usage.inputTokens n
  output : usage.outputTokens.toNat = total turns Usage.outputTokens n

/-- The usage is the sum over the first `n` answers as far as its fields hold it. -/
structure Wrapped (n : ℕ) (usage : Usage) : Prop where
  input : usage.inputTokens.toNat = total turns Usage.inputTokens n % 2 ^ 32
  output : usage.outputTokens.toNat = total turns Usage.outputTokens n % 2 ^ 32

variable {turns}

theorem total_succ (field : Usage → UInt32) (n : ℕ) :
    total turns field (n + 1) =
      total turns field n + (field (turnUsage (turns n))).toNat := Finset.sum_range_succ _ _

theorem total_le (field : Usage → UInt32) {m n : ℕ} (h : m ≤ n) :
    total turns field m ≤ total turns field n := by
  induction h with
  | refl => exact Nat.le_refl _
  | step h ih =>
    rw [total_succ]
    omega

theorem Fits.of_le {m n : ℕ} (h : Fits turns n) (hmn : m ≤ n) : Fits turns m :=
  ⟨Nat.lt_of_le_of_lt (total_le _ hmn) h.1, Nat.lt_of_le_of_lt (total_le _ hmn) h.2⟩

/-- Adding the next answer's usage, as the fields allow it. -/
theorem Wrapped.add {n : ℕ} {usage : Usage} {response : CompletionResponse}
    (h : Wrapped turns n usage) (hresponse : (turns n).response = .ok response) :
    Wrapped turns (n + 1) (usage.add response.usage) := by
  have hturn : turnUsage (turns n) = response.usage := by rw [turnUsage, hresponse]
  have hinput := h.input
  have houtput := h.output
  refine ⟨?_, ?_⟩
  · rw [total_succ, hturn]
    simp only [Usage.add, UInt32.toNat_add]
    omega
  · rw [total_succ, hturn]
    simp only [Usage.add, UInt32.toNat_add]
    omega

/-- What the fields hold is exact if and only if the sums fit. -/
theorem Wrapped.exact_iff {n : ℕ} {usage : Usage} (h : Wrapped turns n usage) :
    Exact turns n usage ↔ Fits turns n := by
  have hinput := h.input
  have houtput := h.output
  constructor
  · rintro ⟨hin, hout⟩
    refine ⟨?_, ?_⟩ <;> omega
  · rintro ⟨hin, hout⟩
    exact ⟨by omega, by omega⟩

end Totals

section Runs

variable {agent : Agent} {runId : String} {turns : ℕ → Turn} {input : AgentInput}

/-- A turn that goes on has added the usage of its answer. -/
theorem iterate_next_usage {turn : Turn} {s s' : RunState}
    (h : agent.iterate runId turn s = .next s') :
    ∃ response, turn.response = .ok response ∧
      s'.totalUsage = s.totalUsage.add response.usage := by
  have hcomes := iterate_comesTo agent runId turn s
  rw [h] at hcomes
  cases hcomes with
  | textNudged response name hresponse => exact ⟨response, hresponse, rfl⟩
  | rejected response name data reason hresponse => exact ⟨response, hresponse, rfl⟩
  | nudged response first rest hresponse => exact ⟨response, hresponse, rfl⟩
  | executed response first rest hresponse => exact ⟨response, hresponse, rfl⟩

/-- A turn that ends the run with a result has added the usage of its answer and
reports the totals. -/
theorem iterate_done_usage {turn : Turn} {s s' : RunState} {out : AgentOutput}
    (h : agent.iterate runId turn s = .done s' (.ok out)) :
    ∃ response, turn.response = .ok response ∧
      out.usage = s.totalUsage.add response.usage := by
  have hcomes := iterate_comesTo agent runId turn s
  rw [h] at hcomes
  cases hcomes with
  | completed response hresponse => exact ⟨response, hresponse, rfl⟩
  | handedOff response name data hresponse => exact ⟨response, hresponse, rfl⟩

/-- At the start of turn `k` the totals are those of `k` answers. -/
theorem stateAt_usage {k : ℕ} {s : RunState}
    (h : stateAt agent runId turns input k = some s) : Wrapped turns k s.totalUsage := by
  refine stateAt_induct (P := fun k s => Wrapped turns k s.totalUsage) ⟨rfl, rfl⟩ ?_ k s h
  intro k s s' _ hs hflow
  obtain ⟨response, hresponse, husage⟩ := iterate_next_usage hflow
  rw [husage]
  exact hs.add hresponse

/-- The totals of a run that returned a result are those of its answers. -/
theorem run_usage {out : AgentOutput} (h : (agent.run input runId turns).2 = .ok out) :
    Wrapped turns (agent.run input runId turns).1.iteration out.usage := by
  obtain ⟨k, s, hstate, hrun | hrun | ⟨s', result, _, hflow, hrun⟩⟩ :=
    run_cases agent runId turns input
  · rw [hrun] at h
    cases h
  · rw [hrun] at h
    cases h
  · rw [hrun] at h ⊢
    obtain rfl : result = .ok out := h
    obtain ⟨response, hresponse, husage⟩ := iterate_done_usage hflow
    have hiteration : s'.iteration = k + 1 := by
      rw [← stateAt_iteration hstate]
      exact iteration_done hflow
    rw [hiteration, husage]
    exact (stateAt_usage hstate).add hresponse

variable (agent runId turns input)

/-- The usage in `RunComplete` and in the output is the sum over the answers of the run,
and no sum on the way, of the first answers, overflows. -/
structure UsageExact (out : AgentOutput) : Prop where
  output : Exact turns (agent.run input runId turns).1.iteration out.usage
  reported : ∃ id usage n, .runComplete id usage n ∈ (agent.run input runId turns).1.emitted
  event : ∀ id usage n, .runComplete id usage n ∈ (agent.run input runId turns).1.emitted →
    Exact turns (agent.run input runId turns).1.iteration usage
  noOverflow : ∀ n ≤ (agent.run input runId turns).1.iteration, Fits turns n

variable {agent runId turns input}

/-- The only usage that a run reports is that of its output. -/
theorem reported_usage {out : AgentOutput} (h : (agent.run input runId turns).2 = .ok out) :
    (∃ id usage n, .runComplete id usage n ∈ (agent.run input runId turns).1.emitted) ∧
      ∀ id usage n, .runComplete id usage n ∈ (agent.run input runId turns).1.emitted →
        usage = out.usage := by
  have htrace := run_runTrace agent input runId turns
  rw [h] at htrace
  generalize (agent.run input runId turns).1.emitted = emitted at htrace
  cases htrace with
  | completed n events out hturns hn =>
    exact ⟨⟨runId, out.usage, n, by simp⟩, fun id usage m hmem =>
      (runComplete_of_mem hturns.counts.2 hmem).2.1⟩

end Runs

/-- A run that returns a result reports its exact usage, without any overflow, if and
only if the sum of the input tokens and that of the output tokens of its answers are
both below 2^32. -/
theorem usageExact_iff (agent : Agent) (input : AgentInput) (runId : String) (turns : ℕ → Turn)
    (out : AgentOutput) (h : (agent.run input runId turns).2 = .ok out) :
    UsageExact agent runId turns input out ↔
      Fits turns (agent.run input runId turns).1.iteration := by
  have hwrapped := run_usage h
  obtain ⟨hreported, hsame⟩ := reported_usage h
  constructor
  · intro hexact
    exact hwrapped.exact_iff.mp hexact.output
  · intro hfits
    have hexact := hwrapped.exact_iff.mpr hfits
    exact ⟨hexact, hreported, fun id usage n hmem => hsame id usage n hmem ▸ hexact,
      fun n hn => hfits.of_le hn⟩

section Examples

def turnOf (part : ContentPart) (inputTokens : UInt32) : Turn :=
  ⟨false, "m", [], .ok ⟨[part], .endTurn, ⟨inputTokens, 1⟩⟩, false, fun _ => .ok .null⟩

def twoTurns (first second : UInt32) : ℕ → Turn
  | 0 => turnOf (.toolCall "1" "ls" .null) first
  | _ => turnOf (.text "done") second

def countingAgent : Agent := ⟨"", [], none, none, AgentConfig.default, []⟩

/-- A run of two answers whose input tokens sum up to 2^32 reports none. -/
theorem wrapped_total_not_exact :
    ∃ out, (countingAgent.run (.userMessage "u" "go") "run" (twoTurns 4294967295 1)).2 = .ok out ∧
      ¬ UsageExact countingAgent "run" (twoTurns 4294967295 1) (.userMessage "u" "go") out := by
  refine ⟨⟨.completed "done", ⟨0, 2⟩⟩, rfl, fun h => ?_⟩
  have hfits := (h.noOverflow 2 (by decide +kernel)).1
  exact absurd hfits (by decide +kernel)

/-- A run of two answers with few tokens reports their sum. -/
theorem few_tokens_exact :
    UsageExact countingAgent "run" (twoTurns 10 5) (.userMessage "u" "go")
      ⟨.completed "done", ⟨15, 2⟩⟩ :=
  (usageExact_iff countingAgent (.userMessage "u" "go") "run" (twoTurns 10 5) _ rfl).mpr
    ⟨by decide +kernel, by decide +kernel⟩

end Examples

end October.TokenTotals
