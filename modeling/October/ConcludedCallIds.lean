import October.AnsweredTurns
import October.HandoffDiscipline

/-!
The call id of a concluded run. It is found by searching the captured events backwards
for a call of the handoff tool; the run ends right after the message with that call, so
the search stops at it, whatever was captured before in this attempt.
-/

namespace October.ConcludedCallIds

open AgentActor AnsweredTurns HandoffDiscipline LoopTurns

def lastEvents (m : Message) (runId : String) (usage : Usage) (iterations : ℕ) :
    List AgentEvent :=
  [.messageStop m.id, .messageComplete m.id m, .runComplete runId usage iterations]

/-- The search stops at the message that ended the run. -/
theorem findToolCallId_last (captured : List AgentEvent) {m : Message} {id name : String}
    {data : Value} (hcalls : extractToolCalls m.parts = [⟨id, name, data⟩]) (runId : String)
    (usage : Usage) (iterations : ℕ) :
    findToolCallId (captured ++ lastEvents m runId usage iterations) name = some id := by
  have hreverse : (captured ++ lastEvents m runId usage iterations).reverse =
      .runComplete runId usage iterations :: .messageComplete m.id m :: .messageStop m.id ::
        captured.reverse := by
    simp [lastEvents]
  simp [findToolCallId, hreverse, hcalls]

section Attempts

variable {cfg : RunConfig} {history : List Message} (input : AgentInput) (attempts : ℕ → Attempt)

/-- An attempt that hands off ends with its only call, of the handoff tool and with the
data handed off, in its last message. -/
theorem ran_handoff {agent : Agent} {n : ℕ} {name : String} {data : Value} {usage : Usage}
    (h : (ran input attempts agent n).2 = .ok ⟨.handoff name data, usage⟩) :
    ∃ before m captured id iterations, (ran input attempts agent n).1.history = before ++ [m] ∧
      m.role = .assistant ∧ extractToolCalls m.parts = [⟨id, name, data⟩] ∧
      (ran input attempts agent n).1.emitted =
        captured ++ lastEvents m (attempts n).runId usage iterations := by
  obtain ⟨k, s, response, _, _, hhandoff, hvalid, hrun⟩ := run_handoff h
  obtain ⟨id, hcalls⟩ := accepted_alone hhandoff hvalid
  refine ⟨s.history, ⟨((attempts n).turns k).msgId, .assistant, response.parts⟩,
    (agent.send ((attempts n).turns k) s).emitted, id, k + 1, ?_, rfl, hcalls, ?_⟩
  · rw [ran, hrun]
    rfl
  · rw [ran, hrun]
    simp [RunState.emit, answered, Agent.receive, lastEvents]

/-- An attempt that concludes was handed off. -/
theorem decided_concluded {s : RunState} {result : Except AgentError AgentOutput} {data : Value}
    {toolCallId : Option String} (h : decided s result = .concluded data toolCallId) :
    ∃ name usage, result = .ok ⟨.handoff name data, usage⟩ ∧
      toolCallId = findToolCallId s.emitted name := by
  cases result with
  | error e => cases e <;> cases h
  | ok output =>
    obtain ⟨answer, usage⟩ := output
    cases answer with
    | completed text => cases h
    | handoff name data' =>
      cases h
      exact ⟨name, usage, rfl, rfl⟩

/-- A run with retries that is concluded was handed off by an attempt after others that
all failed in the provider. -/
theorem attemptLoop_concluded {agent : Agent} (hbuild : cfg.build history = .ok agent)
    {data : Value} {toolCallId : Option String} (retries n : ℕ)
    (h : (attemptLoop cfg history input attempts retries n).outcome =
      .concluded data toolCallId) :
    ∃ j name usage, n ≤ j ∧
      (∀ i, n ≤ i → i < j → ∃ e, (ran input attempts agent i).2 = .error (.provider e)) ∧
      (ran input attempts agent j).2 = .ok ⟨.handoff name data, usage⟩ ∧
      toolCallId = findToolCallId (ran input attempts agent j).1.emitted name ∧
      (attemptLoop cfg history input attempts retries n).finalHistory =
        some (ran input attempts agent j).1.history := by
  refine attemptLoop_induction (P := fun n result => result.outcome = .concluded data toolCallId →
    ∃ j name usage, n ≤ j ∧
      (∀ i, n ≤ i → i < j → ∃ e, (ran input attempts agent i).2 = .error (.provider e)) ∧
      (ran input attempts agent j).2 = .ok ⟨.handoff name data, usage⟩ ∧
      toolCallId = findToolCallId (ran input attempts agent j).1.emitted name ∧
      result.finalHistory = some (ran input attempts agent j).1.history)
    input attempts agent hbuild (fun n hdecided => ?_) (fun n e result hran ih hresult => ?_)
    retries n h
  · obtain ⟨name, usage, hran, hid⟩ := decided_concluded hdecided
    exact ⟨n, name, usage, Nat.le_refl n, fun i hi hlt => absurd hlt (Nat.not_lt.mpr hi), hran,
      hid, rfl⟩
  · obtain ⟨j, name, usage, hj, hfailed, hrest⟩ := ih hresult
    refine ⟨j, name, usage, by omega, fun i hi hlt => ?_, hrest⟩
    rcases Nat.eq_or_lt_of_le hi with rfl | hi
    · exact ⟨e, hran⟩
    · exact hfailed i hi hlt

end Attempts

/-- After the message that ended the run its only call is the one that awaits a result. -/
theorem awaits_last {before : List Message} {m : Message} {id name : String} {data : Value}
    (hbefore : WellAnswered before) (hrole : m.role = .assistant)
    (hcalls : extractToolCalls m.parts = [⟨id, name, data⟩]) : Awaits (before ++ [m]) id := by
  have hids : callIds m.parts = [id] := by rw [callIds, hcalls]; rfl
  refine ⟨before, m, [], rfl, hrole, by simp, hbefore, ?_, rfl, fun other hother hne => ?_⟩
  · rw [hids]
    exact List.mem_cons_self
  · rw [hids] at hother
    exact absurd (List.mem_singleton.mp hother) hne

/-- A concluded run and the message that ended it: the attempts before the successful one
failed in the provider, and the message is the last one of that attempt; its only call has
the data the run concludes with and the id the run reports, and is the one that awaits a
result. The attempt's last events decide the search, whatever was captured before them. -/
structure ConcludedBy (cfg : RunConfig) (history : List Message) (input : AgentInput)
    (attempts : ℕ → Attempt) (data : Value) (toolCallId : Option String) (agent : Agent)
    (j : ℕ) (before : List Message) (m : Message) (id name : String) : Prop where
  built : cfg.build history = .ok agent
  retried : ∀ i < j, ∃ e, (ran input attempts agent i).2 = .error (.provider e)
  final : (runWithRetries cfg history input attempts).finalHistory = some (before ++ [m])
  role : m.role = .assistant
  only_call : extractToolCalls m.parts = [⟨id, name, data⟩]
  reported : toolCallId = some id
  awaited : WellAnswered before → Awaits (before ++ [m]) id
  searched : ∃ usage captured iterations,
    (ran input attempts agent j).2 = .ok ⟨.handoff name data, usage⟩ ∧
      (ran input attempts agent j).1.emitted =
        captured ++ lastEvents m (attempts j).runId usage iterations ∧
      ∀ captured', findToolCallId
        (captured' ++ lastEvents m (attempts j).runId usage iterations) name = some id

/-- The id a concluded run reports is that of the only call in the last assistant message
of the successful attempt, and the data is the input of that call. -/
theorem concluded_toolCallId (cfg : RunConfig) (history : List Message) (input : AgentInput)
    (attempts : ℕ → Attempt) (data : Value) (toolCallId : Option String)
    (h : (runWithRetries cfg history input attempts).outcome = .concluded data toolCallId) :
    ∃ agent j before m id name,
      ConcludedBy cfg history input attempts data toolCallId agent j before m id name := by
  cases hbuild : cfg.build history with
  | error e =>
    rw [runWithRetries, attemptLoop, hbuild] at h
    cases h
  | ok agent =>
    obtain ⟨j, name, usage, _, hfailed, hran, hid, hfinal⟩ :=
      attemptLoop_concluded input attempts hbuild cfg.maxRetries 0 h
    obtain ⟨before, m, captured, id, iterations, hhistory, hrole, hcalls, hemitted⟩ :=
      ran_handoff input attempts hran
    have hfound := fun captured' =>
      findToolCallId_last captured' hcalls (attempts j).runId usage iterations
    refine ⟨agent, j, before, m, id, name, hbuild, fun i hi => hfailed i (Nat.zero_le i) hi, ?_,
      hrole, hcalls, ?_, fun hbefore => awaits_last hbefore hrole hcalls,
      usage, captured, iterations, hran, hemitted, hfound⟩
    · rw [runWithRetries, hfinal, hhistory]
    · rw [hid, hemitted]
      exact hfound captured

def concludeConfig : RunConfig where
  validatorFor := fun _ => .ok ⟨fun _ => true, fun _ => none⟩
  tools := [⟨"conclude", "", .null⟩]
  systemPrompt := ""
  handoffTool := some "conclude"
  maxIterations := none
  maxRetries := 1

def rejectedThenAccepted (n : ℕ) : Attempt where
  runId := "run"
  turns := fun k =>
    { cancelled := false
      msgId := "m"
      stream := []
      response :=
        if n = 0 then .error .overloaded
        else if k = 0 then
          .ok ⟨[.toolCall "a" "conclude" .null, .toolCall "b" "conclude" .null], .toolUse, ⟨1, 1⟩⟩
        else .ok ⟨[.toolCall "c" "conclude" (.bool true)], .toolUse, ⟨1, 1⟩⟩
      cancelledBeforeTools := false
      execute := fun _ => .ok .null }

theorem rejectedThenAccepted_outcome :
    (runWithRetries concludeConfig [] (.userMessage "u" "go") rejectedThenAccepted).outcome =
      .concluded (.bool true) (some "c") := by
  have hsecond : (attemptLoop concludeConfig [] (.userMessage "u" "go") rejectedThenAccepted
      0 1).outcome = .concluded (.bool true) (some "c") := by
    rw [attemptLoop]
    rfl
  rw [runWithRetries, attemptLoop]
  exact hsecond

theorem concluded_toolCallId_second :
    ∃ agent j before m id name, ConcludedBy concludeConfig [] (.userMessage "u" "go")
      rejectedThenAccepted (.bool true) (some "c") agent j before m id name :=
  concluded_toolCallId concludeConfig [] (.userMessage "u" "go") rejectedThenAccepted
    (.bool true) (some "c") rejectedThenAccepted_outcome

end October.ConcludedCallIds
