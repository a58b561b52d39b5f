import October.JournaledTurns
import October.ToolConversation

/-!
The requests of one background run. If the conversation a run starts from is well
formed together with its input, the loop keeps it well formed at every provider
call: executed tools, nudges and rejected handoffs all answer each call of the
turn once. Every retry starts from the same conversation.
-/
namespace October.WellFormedRequests

open AgentActor JournaledTurns ToolConversation

def GoodAnswer (parts : List ContentPart) : Prop :=
  (callIds parts).Nodup ∧ resultIds parts = []

instance (parts : List ContentPart) : Decidable (GoodAnswer parts) :=
  inferInstanceAs (Decidable (_ ∧ _))

def GoodAnswers (events : List AgentEvent) : Prop :=
  ∀ m ∈ spoken events, m.role = .assistant → GoodAnswer m.parts

instance (events : List AgentEvent) : Decidable (GoodAnswers events) :=
  inferInstanceAs (Decidable (∀ m ∈ spoken events, m.role = .assistant → GoodAnswer m.parts))

theorem GoodAnswers.of_grows {s t : RunState} (h : Grows s t) (ht : GoodAnswers t.emitted) :
    GoodAnswers s.emitted := by
  obtain ⟨_, emitted, _, hspoken, _⟩ := h
  intro m hm
  exact ht m (by rw [hspoken]; exact List.mem_append_left _ hm)

def RequestsWellFormed (requests : List CompletionRequest) : Prop :=
  ∀ r ∈ requests, WellFormed r.messages

instance (requests : List CompletionRequest) : Decidable (RequestsWellFormed requests) :=
  inferInstanceAs (Decidable (∀ r ∈ requests, WellFormed r.messages))

/-- The answer to a turn sends no request, and leaves a well-formed history if the loop
goes on. -/
def Keeps (s : RunState) (flow : Flow) : Prop :=
  flow.state.requests = s.requests ∧ ∀ s', flow = .next s' → WellFormed s'.history

variable (agent : Agent) (runId : String)

theorem keeps_done (s t : RunState) (result : Except AgentError AgentOutput)
    (h : t.requests = s.requests) : Keeps s (.done t result) := ⟨h, by simp⟩

theorem keeps_next (s t : RunState) (h : t.requests = s.requests) (ht : WellFormed t.history) :
    Keeps s (.next t) := by
  refine ⟨h, ?_⟩
  intro s' hs'
  cases hs'
  exact ht

theorem answerText_keeps (response : CompletionResponse) (s : RunState)
    (hs : WellFormed s.history) : Keeps s (agent.answerText runId response s) := by
  unfold Agent.answerText
  split
  · exact keeps_done s _ _ rfl
  · split
    · exact keeps_done s _ _ rfl
    · exact keeps_next s _ rfl ((openCalls_user_iff s.history _ _).mpr hs)

theorem answerHandoff_keeps (name : String) (data : Value) (calls : List ToolCall)
    (s : RunState) (hs : openCalls s.history = some (calls.map ToolCall.id)) :
    Keeps s (agent.answerHandoff runId name data calls s) := by
  unfold Agent.answerHandoff
  split
  · exact keeps_done s _ _ rfl
  · rename_i reason _
    split
    · exact keeps_done s _ _ rfl
    · refine keeps_next s _ rfl (wellFormed_results s.history _ _ hs ?_)
      exact tokens_map_results calls (Agent.rejectionResult name reason) ToolCall.id
        (fun call => tokens_toolResult call.id _ true)

theorem answerTools_keeps (turn : Turn) (first : ToolCall) (rest : List ToolCall)
    (s : RunState) (hs : openCalls s.history = some ((first :: rest).map ToolCall.id)) :
    Keeps s (agent.answerTools turn first rest s) := by
  simp only [Agent.answerTools]
  split
  · exact keeps_done s _ _ rfl
  · split
    · refine keeps_next s _ rfl (wellFormed_results s.history _ _ hs ?_)
      exact tokens_map_results (first :: rest) Agent.nudgeResult ToolCall.id (fun _ => rfl)
    · split
      · exact keeps_done s _ _ rfl
      · rw [Agent.executeTools_eq]
        refine keeps_next s _ rfl (wellFormed_results s.history _ _ hs ?_)
        exact tokens_toolResults turn.execute 0 (first :: rest)

theorem answer_keeps (turn : Turn) (response : CompletionResponse) (s : RunState)
    (hs : openCalls s.history = some (callIds response.parts)) :
    Keeps s (agent.answer runId turn response s) := by
  unfold Agent.answer
  split
  · rename_i hnone
    rw [callIds, hnone] at hs
    exact answerText_keeps agent runId response s hs
  · rename_i first rest hsome
    rw [callIds, hsome] at hs
    split
    · exact answerHandoff_keeps agent runId _ _ _ s hs
    · exact answerTools_keeps agent turn first rest s hs

/-- One iteration sends the history it is entered with, and keeps it well formed. -/
theorem iterate_requests (turn : Turn) (s : RunState) (hs : WellFormed s.history)
    (hgood : GoodAnswers (agent.iterate runId turn s).state.emitted) :
    (agent.iterate runId turn s).state.requests = s.requests ++ [agent.request s] ∧
      ∀ s', agent.iterate runId turn s = .next s' → WellFormed s'.history := by
  unfold Agent.iterate at hgood ⊢
  cases hresponse : turn.response with
  | error e => exact ⟨rfl, by simp⟩
  | ok response =>
    simp only [hresponse] at hgood
    have hanswer : GoodAnswer response.parts := by
      have hgrows := answer_grows agent runId turn response
        (Agent.receive turn response (agent.send turn s))
      refine (GoodAnswers.of_grows hgrows hgood) ⟨turn.msgId, .assistant, response.parts⟩ ?_ rfl
      simp [Agent.receive]
    have hopen : openCalls (Agent.receive turn response (agent.send turn s)).history =
        some (callIds response.parts) :=
      openCalls_assistant s.history turn.msgId response.parts hs hanswer.1 hanswer.2
    exact answer_keeps agent runId turn response _ hopen

theorem loop_requests (turns : ℕ → Turn) (remaining : ℕ) (s : RunState)
    (hs : WellFormed s.history) (hrequests : RequestsWellFormed s.requests)
    (hgood : GoodAnswers (agent.loop runId turns remaining s).1.emitted) :
    RequestsWellFormed (agent.loop runId turns remaining s).1.requests := by
  induction remaining generalizing s with
  | zero =>
    simp only [Agent.loop]
    split <;> exact hrequests
  | succ remaining ih =>
    simp only [Agent.loop] at hgood ⊢
    split
    · exact hrequests
    · rename_i hcancelled
      simp only [hcancelled] at hgood
      have hsent : RequestsWellFormed (s.requests ++ [agent.request s]) := by
        intro r hr
        rcases List.mem_append.mp hr with hr | hr
        · exact hrequests r hr
        · rw [List.mem_singleton.mp hr]
          exact hs
      have hstep := iterate_requests agent runId (turns s.iteration) s hs
      cases hflow : agent.iterate runId (turns s.iteration) s with
      | next s' =>
        simp only [hflow] at hgood hstep
        have hgrows := loop_grows agent runId turns remaining s'
        obtain ⟨hreq, hnext⟩ := hstep (GoodAnswers.of_grows hgrows hgood)
        change s'.requests = _ at hreq
        exact ih s' (hnext s' rfl) (by rwa [hreq]) hgood
      | done s' result =>
        simp only [hflow] at hgood hstep
        obtain ⟨hreq, _⟩ := hstep hgood
        change s'.requests = _ at hreq
        change RequestsWellFormed s'.requests
        rwa [hreq]

/-- Every request of an attempt is well formed if the first one is. -/
theorem run_requests (input : AgentInput) (turns : ℕ → Turn)
    (hinput : WellFormed (agent.history ++ [input.toMessage]))
    (hgood : GoodAnswers (agent.run input runId turns).1.emitted) :
    RequestsWellFormed (agent.run input runId turns).1.requests :=
  loop_requests agent runId turns _ (agent.entry input) hinput
    (by simp [RequestsWellFormed, Agent.entry]) hgood

theorem GoodAnswers.append {es es' : List AgentEvent} :
    GoodAnswers (es ++ es') ↔ GoodAnswers es ∧ GoodAnswers es' := by
  simp only [GoodAnswers, spoken_append, List.mem_append, or_imp, forall_and]

theorem RequestsWellFormed.append {rs rs' : List CompletionRequest} :
    RequestsWellFormed (rs ++ rs') ↔ RequestsWellFormed rs ∧ RequestsWellFormed rs' := by
  simp only [RequestsWellFormed, List.mem_append, or_imp, forall_and]

/-- Every request of a background run, retries included, is well formed if the history
it is started with and its input are. -/
theorem runWithRetries_requests (cfg : RunConfig) (history : List Message) (input : AgentInput)
    (attempts : ℕ → Attempt) (hinput : WellFormed (history ++ [input.toMessage]))
    (hgood : GoodAnswers (runWithRetries cfg history input attempts).emitted) :
    RequestsWellFormed (runWithRetries cfg history input attempts).requests := by
  cases hbuild : cfg.build history with
  | error e =>
    rw [runWithRetries, attemptLoop, hbuild]
    simp [RequestsWellFormed]
  | ok agent =>
    have hattempt : ∀ n, GoodAnswers (ran input attempts agent n).1.emitted →
        RequestsWellFormed (ran input attempts agent n).1.requests := by
      intro n
      apply run_requests
      rwa [(build_ok agent hbuild).1]
    have hloop := attemptLoop_induction (P := fun _ result => GoodAnswers result.emitted →
      RequestsWellFormed result.requests) input attempts agent hbuild (fun n => hattempt n)
      (fun n e result _ hresult hall => ?_) cfg.maxRetries 0
    · exact hloop hgood
    · obtain ⟨hfirst, hrest⟩ := GoodAnswers.append.mp hall
      exact RequestsWellFormed.append.mpr ⟨hattempt n hfirst, hresult hrest⟩

end October.WellFormedRequests
