import October.AgentActor
import October.LoopTurns

/-!
What the agent loop and a run with retries can end with. The loop ends with a text only
without a handoff tool and with a payload only if the tool's schema accepts it; every
other end is an error, whose text a failed run reports.
-/
namespace October.RunOutcomes

open AgentActor LoopTurns

section Agent

variable {agent : Agent}

def Accepts (agent : Agent) : AgentResult → Prop
  | .completed _ => agent.handoffTool = none
  | .handoff name data => agent.handoffTool = some name ∧
      ∀ validator ∈ agent.handoffValidator, validator.isValid data = true

theorem iterate_accepts {runId : String} {turn : Turn} {s s' : RunState} {out : AgentOutput}
    (h : agent.iterate runId turn s = .done s' (.ok out)) : Accepts agent out.result := by
  have hcomes := iterate_comesTo agent runId turn s
  rw [h] at hcomes
  cases hcomes with
  | completed response hresponse hcalls htool => exact htool
  | handedOff response name data hresponse hhandoff hvalid =>
    exact ⟨(handoffCall_some hhandoff).1, fun validator hvalidator =>
      accepted_valid (Option.mem_def.mp hvalidator) hvalid⟩

/-- A run ends with a text only without a handoff tool, and with a payload only if its
schema accepts it. -/
theorem run_accepts {input : AgentInput} {runId : String} {turns : ℕ → Turn} {out : AgentOutput}
    (h : (agent.run input runId turns).2 = .ok out) : Accepts agent out.result := by
  obtain ⟨k, s, _, hrun | hrun | ⟨s', result, _, hflow, hrun⟩⟩ := run_cases agent runId turns input
  · rw [hrun] at h
    cases h
  · rw [hrun] at h
    cases h
  · rw [hrun] at h
    obtain rfl : result = .ok out := h
    exact iterate_accepts hflow

end Agent

/-- A run with retries comes to what an agent that was built accepted, was cancelled, or
failed with the text of an error. -/
theorem runWithRetries_outcome (cfg : RunConfig) (history : List Message) (input : AgentInput)
    (attempts : ℕ → Attempt) :
    (∃ agent captured result, cfg.build history = .ok agent ∧ Accepts agent result ∧
      (runWithRetries cfg history input attempts).outcome = outcomeOf captured result) ∨
    (runWithRetries cfg history input attempts).outcome = .cancelled ∨
    ∃ error recoverable,
      (runWithRetries cfg history input attempts).outcome = .failed error recoverable ∧
        ((∃ e : AgentBuildError, error = e.display) ∨ (∃ e : LlmError, error = e.display) ∨
          ∃ e : AgentError, error = e.display) := by
  unfold runWithRetries
  cases hbuild : cfg.build history with
  | error e =>
    rw [attemptLoop, hbuild]
    exact .inr (.inr ⟨_, _, rfl, .inl ⟨e, rfl⟩⟩)
  | ok agent =>
    refine attemptLoop_induction (P := fun _ result => (∃ agent' captured answer,
      Except.ok agent = Except.ok agent' ∧ Accepts agent' answer ∧
        result.outcome = outcomeOf captured answer) ∨ result.outcome = .cancelled ∨
      ∃ error recoverable, result.outcome = .failed error recoverable ∧
        ((∃ e : AgentBuildError, error = e.display) ∨ (∃ e : LlmError, error = e.display) ∨
          ∃ e : AgentError, error = e.display))
      input attempts agent hbuild (fun n => ?_) (fun n e result _ hresult => hresult) _ 0
    cases hran : (ran input attempts agent n).2 with
    | ok output => exact .inl ⟨agent, _, output.result, rfl, run_accepts hran, rfl⟩
    | error e =>
      cases e with
      | cancelled => exact .inr (.inl rfl)
      | provider e => exact .inr (.inr ⟨_, _, rfl, .inr (.inl ⟨e, rfl⟩)⟩)
      | _ => exact .inr (.inr ⟨_, _, rfl, .inr (.inr ⟨_, rfl⟩)⟩)

end October.RunOutcomes
