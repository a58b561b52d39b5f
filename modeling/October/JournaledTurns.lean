import October.AgentActor

/-!
One run of the agent loop against the events it emits. Each iteration extends the
in-memory history and the emitted messages; the two extensions agree unless the
loop replies to an answer without emitting the reply. Up to the first such reply
the history is the input conversation followed by the emitted messages.
-/
namespace October.JournaledTurns

open AgentActor

def added : AgentDomainEvent → List Message
  | .inputMessage message => [message]
  | .messageComplete message => [message]
  | .toolComplete toolCallId output isError => [Message.toolResult toolCallId output isError]
  | .runComplete _ _ => []
  | .runCancelled => []

def spoken (events : List AgentEvent) : List Message :=
  (events.filterMap coarseEvent).flatMap added

/-- The conversation after folding the input message, persisted by the handler, and
the coarse events of a run onto the prior messages. -/
def journaled (prior : List Message) (input : AgentInput) (events : List AgentEvent) :
    List Message :=
  ((AgentDomainEvent.inputMessage input.toMessage :: events.filterMap coarseEvent).foldl
    applyEvent ⟨prior⟩).messages

theorem foldl_applyEvent (state : AgentState) (events : List AgentDomainEvent) :
    (events.foldl applyEvent state).messages = state.messages ++ events.flatMap added := by
  induction events generalizing state with
  | nil => simp
  | cons event rest ih =>
    rw [List.foldl_cons, ih]
    cases event <;> simp [applyEvent, added]

theorem journaled_eq (prior : List Message) (input : AgentInput) (events : List AgentEvent) :
    journaled prior input events = prior ++ [input.toMessage] ++ spoken events := by
  rw [journaled, foldl_applyEvent]
  simp [added, spoken]

@[simp] theorem spoken_append (es es' : List AgentEvent) :
    spoken (es ++ es') = spoken es ++ spoken es' := by simp [spoken]

@[simp] theorem spoken_nil : spoken [] = [] := rfl

@[simp] theorem spoken_messageStart (id : String) (role : Role) (es : List AgentEvent) :
    spoken (.messageStart id role :: es) = spoken es := rfl

@[simp] theorem spoken_messageStop (id : String) (es : List AgentEvent) :
    spoken (.messageStop id :: es) = spoken es := rfl

@[simp] theorem spoken_messageComplete (id : String) (m : Message) (es : List AgentEvent) :
    spoken (.messageComplete id m :: es) = m :: spoken es := rfl

@[simp] theorem spoken_runComplete (id : String) (u : Usage) (n : ℕ) (es : List AgentEvent) :
    spoken (.runComplete id u n :: es) = spoken es := rfl

@[simp] theorem spoken_stream (es : List StreamEvent) : spoken (es.map .stream) = [] := by
  induction es with
  | nil => rfl
  | cons e rest ih => exact ih

theorem spoken_toolEvents (execute : ℕ → Except ToolCallError Value) (i : ℕ)
    (calls : List ToolCall) :
    spoken (Agent.toolEvents execute i calls) = Agent.toolResults execute i calls := by
  induction calls generalizing i with
  | nil => rfl
  | cons call rest ih => exact congrArg _ (ih (i + 1))

def assistants (messages : List Message) : ℕ :=
  messages.countP (fun m => decide (m.role = .assistant))

@[simp] theorem assistants_append (ms ms' : List Message) :
    assistants (ms ++ ms') = assistants ms + assistants ms' := List.countP_append

/-- From `s` to `t` the history grew by at least the messages that were emitted, and
by the same number of assistant messages. -/
def Grows (s t : RunState) : Prop :=
  ∃ pushed emitted, t.history = s.history ++ pushed ∧
    spoken t.emitted = spoken s.emitted ++ emitted ∧
    emitted.length ≤ pushed.length ∧ assistants pushed = assistants emitted

theorem Grows.refl (s : RunState) : Grows s s := ⟨[], [], by simp, by simp, Nat.le_refl _, rfl⟩

theorem Grows.trans {s t u : RunState} (h : Grows s t) (h' : Grows t u) : Grows s u := by
  obtain ⟨p, e, hp, he, hlen, hcount⟩ := h
  obtain ⟨p', e', hp', he', hlen', hcount'⟩ := h'
  refine ⟨p ++ p', e ++ e', by simp [hp, hp'], by simp [he, he'], ?_, ?_⟩
  · simp only [List.length_append]
    omega
  · simp [hcount, hcount']

/-- A step that pushes without emitting, and pushes no assistant message. -/
theorem Grows.silent {s t : RunState} (pushed : List Message)
    (hhistory : t.history = s.history ++ pushed) (hspoken : spoken t.emitted = spoken s.emitted)
    (hpushed : assistants pushed = 0) : Grows s t :=
  ⟨pushed, [], hhistory, by simpa using hspoken, by simp, hpushed⟩

/-- A step that pushes what it emits. -/
theorem Grows.aloud {s t : RunState} (messages : List Message)
    (hhistory : t.history = s.history ++ messages)
    (hspoken : spoken t.emitted = spoken s.emitted ++ messages) : Grows s t :=
  ⟨messages, messages, hhistory, hspoken, Nat.le_refl _, rfl⟩

theorem assistants_results {α : Type} (xs : List α) (f : α → Message)
    (h : ∀ x, (f x).role = .tool) : assistants (xs.map f) = 0 := by
  simp [assistants, List.countP_eq_zero, h]

variable (agent : Agent) (runId : String)

theorem send_grows (turn : Turn) (s : RunState) : Grows s (agent.send turn s) :=
  Grows.aloud [] (by simp [Agent.send]) (by simp [Agent.send])

theorem receive_grows (turn : Turn) (response : CompletionResponse) (s : RunState) :
    Grows s (Agent.receive turn response s) :=
  Grows.aloud [⟨turn.msgId, .assistant, response.parts⟩] rfl
    (by simp [Agent.receive])

theorem finish_grows (result : AgentResult) (s : RunState) :
    Grows s (Agent.finish runId result s).state :=
  Grows.aloud [] (by simp [Agent.finish, Flow.state, RunState.emit])
    (by simp [Agent.finish, Flow.state, RunState.emit])

theorem answerText_grows (response : CompletionResponse) (s : RunState) :
    Grows s (agent.answerText runId response s).state := by
  unfold Agent.answerText
  split
  · exact finish_grows runId _ s
  · split
    · exact Grows.refl s
    · exact Grows.silent [_] rfl rfl (by simp [assistants, Agent.missingHandoffNudge, Message.user])

theorem answerHandoff_grows (name : String) (data : Value) (calls : List ToolCall)
    (s : RunState) : Grows s (agent.answerHandoff runId name data calls s).state := by
  unfold Agent.answerHandoff
  split
  · exact finish_grows runId _ s
  · split
    · exact Grows.refl s
    · exact Grows.silent _ rfl rfl (assistants_results calls _ (fun _ => rfl))

theorem answerTools_grows (turn : Turn) (first : ToolCall) (rest : List ToolCall)
    (s : RunState) : Grows s (agent.answerTools turn first rest s).state := by
  simp only [Agent.answerTools]
  split
  · exact Grows.refl s
  · split
    · exact Grows.silent _ rfl rfl (assistants_results (first :: rest) _ (fun _ => rfl))
    · split
      · exact Grows.refl s
      · refine Grows.aloud (Agent.toolResults turn.execute 0 (first :: rest)) ?_ ?_
        · simp [Flow.state, Agent.executeTools_eq]
        · simp [Flow.state, Agent.executeTools_eq, spoken_toolEvents]

theorem answer_grows (turn : Turn) (response : CompletionResponse) (s : RunState) :
    Grows s (agent.answer runId turn response s).state := by
  unfold Agent.answer
  split
  · exact answerText_grows agent runId response s
  · split
    · exact answerHandoff_grows agent runId _ _ _ s
    · exact answerTools_grows agent turn _ _ s

theorem iterate_grows (turn : Turn) (s : RunState) :
    Grows s (agent.iterate runId turn s).state := by
  unfold Agent.iterate
  have hsend := send_grows agent turn s
  cases turn.response with
  | error e => exact hsend
  | ok response =>
    exact (hsend.trans (receive_grows turn response _)).trans (answer_grows agent runId turn _ _)

theorem loop_grows (turns : ℕ → Turn) (remaining : ℕ) (s : RunState) :
    Grows s (agent.loop runId turns remaining s).1 := by
  induction remaining generalizing s with
  | zero =>
    simp only [Agent.loop]
    split <;> exact Grows.refl s
  | succ remaining ih =>
    simp only [Agent.loop]
    split
    · exact Grows.refl s
    · have hstep := iterate_grows agent runId (turns s.iteration) s
      cases hflow : agent.iterate runId (turns s.iteration) s with
      | next s' =>
        rw [hflow] at hstep
        exact hstep.trans (ih s')
      | done s' result =>
        rw [hflow] at hstep
        exact hstep

def turnCalls (turn : Turn) : List ToolCall :=
  match turn.response with
  | .error _ => []
  | .ok response => extractToolCalls response.parts

section Conditions

variable (turns : ℕ → Turn)

def fingerprints : ℕ → List String
  | 0 => []
  | k + 1 => agent.remember (toolFingerprint (turnCalls (turns k))) (fingerprints k)

def Repeats (threshold k : ℕ) : Prop :=
  Agent.repeats threshold (toolFingerprint (turnCalls (turns k)))
    (fingerprints agent turns (k + 1)) = true

structure Executes (k : ℕ) : Prop where
  notCancelled : (turns k).cancelled = false
  calls : turnCalls (turns k) ≠ []
  noHandoff : agent.handoffCall (turnCalls (turns k)) = none
  notStuck : ¬ Repeats agent turns agent.config.stuckThreshold k
  notNudged : ¬ Repeats agent turns agent.config.nudgeThreshold k
  toolsNotCancelled : (turns k).cancelledBeforeTools = false

/-- The answer to turn `k` is one the loop replies to in memory only: text in place of
the handoff call, a handoff call to be rejected, or calls to be nudged about. -/
def AnsweredSilently (k : ℕ) : Prop :=
  ∃ response, (turns k).response = .ok response ∧
    ((turnCalls (turns k) = [] ∧ agent.handoffTool ≠ none) ∨
      (∃ name data, agent.handoffCall (turnCalls (turns k)) = some (name, data) ∧
        agent.validateHandoff name (turnCalls (turns k)) data ≠ none) ∨
      (turnCalls (turns k) ≠ [] ∧ agent.handoffCall (turnCalls (turns k)) = none ∧
        Repeats agent turns agent.config.nudgeThreshold k ∧
        ¬ Repeats agent turns agent.config.stuckThreshold k))

def FailsAtOnce : Prop :=
  0 < agent.config.maxIterations ∧ (turns 0).cancelled = false ∧
    ∃ e, (turns 0).response = .error e

structure Reached (j : ℕ) : Prop where
  allowed : j < agent.config.maxIterations
  executed : ∀ i < j, Executes agent turns i
  notCancelled : (turns j).cancelled = false

/-- No answer is replied to silently, and while a retry is left only the first call to
the provider fails. -/
def Aloud (retries : ℕ) : Prop :=
  ∀ k, Reached agent turns k →
    ¬ AnsweredSilently agent turns k ∧
      ((∃ e, (turns k).response = .error e) → k = 0 ∨ retries = 0)

structure At (base : List Message) (k : ℕ) (s : RunState) : Prop where
  iteration : s.iteration = k
  fingerprints : s.recentFingerprints = fingerprints agent turns k
  handoffRetries : s.handoffRetries = 0
  missingRetries : s.handoffMissingRetries = 0
  journaled : s.history = base ++ spoken s.emitted

inductive Iterated (base : List Message) (k : ℕ) : Flow → Prop
  | failed (e : LlmError) (s : RunState) :
      (turns k).response = .error e → s.history = base ++ spoken s.emitted →
      Iterated base k (.done s (.error (.provider e)))
  | silent (s : RunState) :
      AnsweredSilently agent turns k → (base ++ spoken s.emitted).length < s.history.length →
      Iterated base k (.next s)
  | executed (s : RunState) :
      Executes agent turns k → At agent turns base (k + 1) s → Iterated base k (.next s)
  | ended (s : RunState) (result : Except AgentError AgentOutput) :
      (∃ response, (turns k).response = .ok response) →
      ¬ AnsweredSilently agent turns k → ¬ Executes agent turns k →
      (∀ e, result ≠ .error (.provider e)) → s.history = base ++ spoken s.emitted →
      Iterated base k (.done s result)

variable {agent turns}

/-- Pushing messages on a journaled history without emitting them. -/
theorem silent_longer (base pushed : List Message) (s t : RunState)
    (hs : s.history = base ++ spoken s.emitted) (hemitted : t.emitted = s.emitted)
    (hhistory : t.history = s.history ++ pushed) (hpushed : pushed ≠ []) :
    (base ++ spoken t.emitted).length < t.history.length := by
  rw [hhistory, hemitted, ← hs, List.length_append]
  have hpos := List.length_pos_iff.mpr hpushed
  omega

theorem finish_ended (base : List Message) (k : ℕ) (result : AgentResult) (s : RunState)
    (hok : ∃ response, (turns k).response = .ok response)
    (hsilent : ¬ AnsweredSilently agent turns k) (hexec : ¬ Executes agent turns k)
    (hs : s.history = base ++ spoken s.emitted) :
    Iterated agent turns base k (Agent.finish runId result s) := by
  refine Iterated.ended _ _ hok hsilent hexec (by simp) ?_
  simpa [RunState.emit] using hs

theorem answerText_iterated (base : List Message) (k : ℕ) (response : CompletionResponse)
    (s : RunState) (hretries : 0 < agent.config.handoffMaxRetries)
    (hresponse : (turns k).response = .ok response) (hcalls : turnCalls (turns k) = [])
    (hmissing : s.handoffMissingRetries = 0) (hs : s.history = base ++ spoken s.emitted) :
    Iterated agent turns base k (agent.answerText runId response s) := by
  unfold Agent.answerText
  have hexec : ¬ Executes agent turns k := fun h => h.calls hcalls
  cases htool : agent.handoffTool with
  | none =>
    refine finish_ended runId base k _ s ⟨response, hresponse⟩ ?_ hexec hs
    rintro ⟨_, _, ⟨_, h⟩ | ⟨name, data, h, _⟩ | ⟨h, _⟩⟩
    · exact h htool
    · simp [Agent.handoffCall, htool] at h
    · exact h hcalls
  | some name =>
    have hleft : ¬ agent.config.handoffMaxRetries ≤ s.handoffMissingRetries := by omega
    simp only [hleft, if_false]
    refine Iterated.silent _ ⟨response, hresponse, Or.inl ⟨hcalls, by simp [htool]⟩⟩ ?_
    exact silent_longer base [_] s _ hs rfl rfl (by simp)

theorem answerHandoff_iterated (base : List Message) (k : ℕ) (response : CompletionResponse)
    (name : String) (data : Value) (s : RunState)
    (hretries : 0 < agent.config.handoffMaxRetries)
    (hresponse : (turns k).response = .ok response) (hcalls : turnCalls (turns k) ≠ [])
    (hcall : agent.handoffCall (turnCalls (turns k)) = some (name, data))
    (hhandoff : s.handoffRetries = 0) (hs : s.history = base ++ spoken s.emitted) :
    Iterated agent turns base k
      (agent.answerHandoff runId name data (turnCalls (turns k)) s) := by
  unfold Agent.answerHandoff
  have hexec : ¬ Executes agent turns k := by
    intro h
    simpa [hcall] using h.noHandoff
  cases hvalid : agent.validateHandoff name (turnCalls (turns k)) data with
  | none =>
    refine finish_ended runId base k _ s ⟨response, hresponse⟩ ?_ hexec hs
    rintro ⟨_, _, ⟨h, _⟩ | ⟨name', data', h, h'⟩ | ⟨_, h, _⟩⟩
    · exact hcalls h
    · rw [hcall] at h
      cases h
      exact h' hvalid
    · simp [hcall] at h
  | some reason =>
    have hleft : ¬ agent.config.handoffMaxRetries ≤ s.handoffRetries := by omega
    simp only [hleft, if_false]
    refine Iterated.silent _ ⟨response, hresponse, Or.inr (Or.inl ⟨name, data, hcall, ?_⟩)⟩ ?_
    · simp [hvalid]
    · exact silent_longer base _ s _ hs rfl rfl (by simpa using hcalls)

theorem answerTools_iterated (base : List Message) (k : ℕ) (response : CompletionResponse)
    (first : ToolCall) (rest : List ToolCall) (s : RunState)
    (hcancelled : (turns k).cancelled = false)
    (hresponse : (turns k).response = .ok response)
    (hcalls : turnCalls (turns k) = first :: rest)
    (hcall : agent.handoffCall (turnCalls (turns k)) = none)
    (hs : At agent turns base k { s with iteration := k }) (hiteration : s.iteration = k + 1) :
    Iterated agent turns base k (agent.answerTools (turns k) first rest s) := by
  have hrecent : agent.remember (toolFingerprint (first :: rest)) s.recentFingerprints =
      fingerprints agent turns (k + 1) := by
    rw [show s.recentFingerprints = _ from hs.fingerprints, fingerprints, hcalls]
  have hne : turnCalls (turns k) ≠ [] := by simp [hcalls]
  have hjournaled : s.history = base ++ spoken s.emitted := hs.journaled
  simp only [Agent.answerTools, hrecent]
  have hrepeats : ∀ threshold, Repeats agent turns threshold k ↔
      Agent.repeats threshold (toolFingerprint (first :: rest))
        (fingerprints agent turns (k + 1)) = true := by
    intro threshold
    rw [Repeats, hcalls]
  split
  · rename_i hstuck
    have hstuck' := (hrepeats _).mpr hstuck
    refine Iterated.ended _ _ ⟨response, hresponse⟩ ?_ (fun h => h.notStuck hstuck') (by simp)
      hjournaled
    rintro ⟨_, _, ⟨h, _⟩ | ⟨name, data, h, _⟩ | ⟨_, _, _, h⟩⟩
    · exact hne h
    · simp [hcall] at h
    · exact h hstuck'
  · rename_i hstuck
    have hstuck' : ¬ Repeats agent turns agent.config.stuckThreshold k :=
      fun h => hstuck ((hrepeats _).mp h)
    split
    · rename_i hnudge
      have hnudge' := (hrepeats _).mpr hnudge
      refine Iterated.silent _
        ⟨response, hresponse, Or.inr (Or.inr ⟨hne, hcall, hnudge', hstuck'⟩)⟩ ?_
      exact silent_longer base _ s _ hjournaled rfl rfl (by simp)
    · rename_i hnudge
      have hnudge' : ¬ Repeats agent turns agent.config.nudgeThreshold k :=
        fun h => hnudge ((hrepeats _).mp h)
      split
      · rename_i htools
        refine Iterated.ended _ _ ⟨response, hresponse⟩ ?_ ?_ (by simp) hjournaled
        · rintro ⟨_, _, ⟨h, _⟩ | ⟨name, data, h, _⟩ | ⟨_, _, h, _⟩⟩
          · exact hne h
          · simp [hcall] at h
          · exact hnudge' h
        · intro h
          simpa [htools] using h.toolsNotCancelled
      · rename_i htools
        refine Iterated.executed _
          ⟨hcancelled, hne, hcall, hstuck', hnudge', by simpa using htools⟩ ?_
        rw [Agent.executeTools_eq]
        refine ⟨hiteration, rfl, hs.handoffRetries, hs.missingRetries, ?_⟩
        simp [hjournaled, spoken_toolEvents]

theorem iterate_iterated (base : List Message) (k : ℕ) (s : RunState)
    (hretries : 0 < agent.config.handoffMaxRetries) (hcancelled : (turns k).cancelled = false)
    (hs : At agent turns base k s) :
    Iterated agent turns base k (agent.iterate runId (turns k) s) := by
  unfold Agent.iterate
  cases hresponse : (turns k).response with
  | error e =>
    refine Iterated.failed e _ hresponse ?_
    simpa [Agent.send] using hs.journaled
  | ok response =>
    have hreceived : At agent turns base k
        { Agent.receive (turns k) response (agent.send (turns k) s) with iteration := k } := by
      refine ⟨rfl, hs.fingerprints, hs.handoffRetries, hs.missingRetries, ?_⟩
      simp [Agent.receive, Agent.send, hs.journaled]
    have hiteration :
        (Agent.receive (turns k) response (agent.send (turns k) s)).iteration = k + 1 :=
      congrArg (· + 1) hs.iteration
    have hcalls : turnCalls (turns k) = extractToolCalls response.parts := by
      simp [turnCalls, hresponse]
    simp only [Agent.answer, ← hcalls]
    split
    · rename_i hnone
      exact answerText_iterated runId base k response _ hretries hresponse hnone
        hreceived.missingRetries hreceived.journaled
    · rename_i first rest hsome
      rw [← hsome]
      split
      · rename_i name data hcall
        exact answerHandoff_iterated runId base k response name data _ hretries hresponse
          (by simp [hsome]) hcall hreceived.handoffRetries hreceived.journaled
      · rename_i hcall
        exact answerTools_iterated base k response first rest _ hcancelled hresponse hsome hcall
          hreceived hiteration

theorem Executes.answeredAloud {k : ℕ} (h : Executes agent turns k) :
    ¬ AnsweredSilently agent turns k := by
  rintro ⟨_, _, ⟨hcalls, _⟩ | ⟨name, data, hcall, _⟩ | ⟨_, _, hnudge, _⟩⟩
  · exact h.calls hcalls
  · simp [h.noHandoff] at hcall
  · exact h.notNudged hnudge

theorem Executes.responded {k : ℕ} (h : Executes agent turns k) (e : LlmError) :
    (turns k).response ≠ .error e := by
  intro he
  exact h.calls (by simp [turnCalls, he])

variable (agent turns)

def AloudFrom (k : ℕ) : Prop :=
  ∀ j, k ≤ j → Reached agent turns j → ¬ AnsweredSilently agent turns j

def FailsFrom (k : ℕ) : Prop :=
  ∃ j, k ≤ j ∧ Reached agent turns j ∧ ∃ e, (turns j).response = .error e

inductive Looped (base : List Message) (k : ℕ) :
    RunState × Except AgentError AgentOutput → Prop
  | aloud (s : RunState) (result : Except AgentError AgentOutput) :
      AloudFrom agent turns k → s.history = base ++ spoken s.emitted →
      ((∃ e, result = .error (.provider e)) ↔ FailsFrom agent turns k) →
      Looped base k (s, result)
  | silent (s : RunState) (result : Except AgentError AgentOutput) :
      ¬ AloudFrom agent turns k → (base ++ spoken s.emitted).length < s.history.length →
      Looped base k (s, result)

variable {agent turns}

/-- A turn that does not execute its tools is the last one reached. -/
theorem Reached.le_of_not_executes {j k : ℕ} (h : Reached agent turns j)
    (hk : ¬ Executes agent turns k) : j ≤ k := by
  by_contra hlt
  exact hk (h.executed k (by omega))

/-- The loop ends at turn `k`, before or after calling the provider, without a
silent reply. -/
theorem looped_of_end (base : List Message) (k : ℕ) (s : RunState)
    (result : Except AgentError AgentOutput) (hexec : ¬ Executes agent turns k)
    (hsilent : Reached agent turns k → ¬ AnsweredSilently agent turns k)
    (hs : s.history = base ++ spoken s.emitted)
    (hresult : (∃ e, result = .error (.provider e)) ↔
      Reached agent turns k ∧ ∃ e, (turns k).response = .error e) :
    Looped agent turns base k (s, result) := by
  refine Looped.aloud s result ?_ hs ?_
  · intro j hkj hj
    obtain rfl : j = k := Nat.le_antisymm (hj.le_of_not_executes hexec) hkj
    exact hsilent hj
  · rw [hresult]
    constructor
    · rintro ⟨hreached, he⟩
      exact ⟨k, Nat.le_refl k, hreached, he⟩
    · rintro ⟨j, hkj, hj, he⟩
      obtain rfl : j = k := Nat.le_antisymm (hj.le_of_not_executes hexec) hkj
      exact ⟨hj, he⟩

/-- An executed turn leaves the rest of the loop to decide. -/
theorem looped_of_executed (base : List Message) (k : ℕ)
    (r : RunState × Except AgentError AgentOutput) (hexec : Executes agent turns k)
    (hr : Looped agent turns base (k + 1) r) : Looped agent turns base k r := by
  have hskip : ∀ j, k ≤ j → j = k ∨ k + 1 ≤ j := by omega
  have haloud : AloudFrom agent turns k ↔ AloudFrom agent turns (k + 1) := by
    constructor
    · intro h j hj
      exact h j (by omega)
    · intro h j hkj hj
      rcases hskip j hkj with rfl | hlater
      · exact hexec.answeredAloud
      · exact h j hlater hj
  have hfails : FailsFrom agent turns k ↔ FailsFrom agent turns (k + 1) := by
    constructor
    · rintro ⟨j, hkj, hj, e, he⟩
      rcases hskip j hkj with rfl | hlater
      · exact absurd he (hexec.responded e)
      · exact ⟨j, hlater, hj, e, he⟩
    · rintro ⟨j, hkj, hj⟩
      exact ⟨j, by omega, hj⟩
  cases hr with
  | aloud s result h hs hresult =>
    exact Looped.aloud s result (haloud.mpr h) hs (by rw [hresult, hfails])
  | silent s result h hs => exact Looped.silent s result (fun h' => h (haloud.mp h')) hs

theorem Grows.keepsLag {s t : RunState} (base : List Message) (h : Grows s t)
    (hs : (base ++ spoken s.emitted).length < s.history.length) :
    (base ++ spoken t.emitted).length < t.history.length := by
  obtain ⟨pushed, emitted, hhistory, hspoken, hlen, _⟩ := h
  rw [hhistory, hspoken]
  simp only [List.length_append] at hs ⊢
  omega

theorem loop_looped (base : List Message) (remaining k : ℕ) (s : RunState)
    (hretries : 0 < agent.config.handoffMaxRetries)
    (hbound : k + remaining = agent.config.maxIterations)
    (hbefore : ∀ i < k, Executes agent turns i) (hs : At agent turns base k s) :
    Looped agent turns base k (agent.loop runId turns remaining s) := by
  induction remaining generalizing k s with
  | zero =>
    have hnone : ∀ j, k ≤ j → ¬ Reached agent turns j := by
      intro j hkj hj
      have hallowed := hj.allowed
      omega
    have hend : ∀ result : Except AgentError AgentOutput,
        (∀ e, result ≠ .error (.provider e)) → Looped agent turns base k (s, result) := by
      intro result hresult
      refine Looped.aloud s result ?_ hs.journaled ?_
      · exact fun j hkj hj => absurd hj (hnone j hkj)
      · constructor
        · rintro ⟨e, he⟩
          exact absurd he (hresult e)
        · rintro ⟨j, hkj, hj, _⟩
          exact absurd hj (hnone j hkj)
    simp only [Agent.loop]
    split <;> exact hend _ (by simp)
  | succ remaining ih =>
    simp only [Agent.loop, hs.iteration]
    by_cases hcancelled : (turns k).cancelled = true
    · simp only [hcancelled, if_true]
      have hnot : ¬ Reached agent turns k := fun h => by simp [h.notCancelled] at hcancelled
      refine looped_of_end base k s _ ?_ (fun h => absurd h hnot) hs.journaled ?_
      · intro h
        simp [h.notCancelled] at hcancelled
      · simp [hnot]
    · have hrunning : (turns k).cancelled = false := by simpa using hcancelled
      have hreached : Reached agent turns k := ⟨by omega, hbefore, hrunning⟩
      have hiterated := iterate_iterated runId base k s hretries hrunning hs
      simp only [hrunning, Bool.false_eq_true, if_false]
      cases hflow : agent.iterate runId (turns k) s with
      | next s' =>
        rw [hflow] at hiterated
        cases hiterated with
        | silent _ hsilent hlag =>
          have hgrows := loop_grows agent runId turns remaining s'
          exact Looped.silent _ _ (fun h => h k (Nat.le_refl k) hreached hsilent)
            (hgrows.keepsLag base hlag)
        | executed _ hexec hs' =>
          refine looped_of_executed base k _ hexec (ih (k + 1) s' (by omega) ?_ hs')
          intro i hi
          rcases Nat.lt_or_ge i k with hlt | hge
          · exact hbefore i hlt
          · obtain rfl : i = k := by omega
            exact hexec
      | done s' result =>
        rw [hflow] at hiterated
        cases hiterated with
        | failed e _ he hs' =>
          refine looped_of_end base k s' _ (fun h => h.responded e he) ?_ hs' ?_
          · rintro _ ⟨response, hresponse, _⟩
            simp [he] at hresponse
          · simp [hreached, he]
        | ended _ _ hok hsilent hexec hresult hs' =>
          obtain ⟨response, hresponse⟩ := hok
          refine looped_of_end base k s' _ hexec (fun _ => hsilent) hs' ?_
          constructor
          · rintro ⟨e, he⟩
            exact absurd he (hresult e)
          · rintro ⟨_, e, he⟩
            simp [hresponse] at he

/-- A run that is entered with a history and an input. -/
theorem run_looped (turns : ℕ → Turn) (input : AgentInput)
    (hretries : 0 < agent.config.handoffMaxRetries) :
    Looped agent turns (agent.history ++ [input.toMessage]) 0 (agent.run input runId turns) := by
  refine loop_looped runId _ _ 0 _ hretries (by omega) (by simp) ⟨rfl, rfl, rfl, rfl, ?_⟩
  simp [Agent.entry, spoken, coarseEvent]

theorem Grows.assistants_le {s t : RunState} (h : Grows s t) :
    assistants (spoken s.emitted) ≤ assistants (spoken t.emitted) := by
  obtain ⟨_, emitted, _, hspoken, _⟩ := h
  rw [hspoken, assistants_append]
  omega

theorem run_failsAtOnce (input : AgentInput) (h : FailsAtOnce agent turns) :
    ∃ s e, agent.run input runId turns = (s, .error (.provider e)) ∧ spoken s.emitted = [] ∧
      s.history = agent.history ++ [input.toMessage] := by
  obtain ⟨hmax, hcancelled, e, he⟩ := h
  refine ⟨agent.send (turns 0) (agent.entry input), e, ?_, ?_, rfl⟩
  · obtain ⟨n, hn⟩ := Nat.exists_eq_succ_of_ne_zero (Nat.ne_of_gt hmax)
    rw [Agent.run, hn]
    simp [Agent.loop, Agent.entry, Agent.iterate, hcancelled, he]
  · simp [Agent.send, Agent.entry, spoken, coarseEvent]

theorem answer_speaks (agent : Agent) (runId : String) (turn : Turn)
    (response : CompletionResponse) (s : RunState) :
    0 < assistants (spoken
      (agent.answer runId turn response (Agent.receive turn response s)).state.emitted) := by
  have hreceived : 0 < assistants (spoken (Agent.receive turn response s).emitted) := by
    simp [Agent.receive, assistants]
  exact Nat.lt_of_lt_of_le hreceived (answer_grows agent runId turn response _).assistants_le

/-- A run that a later call to the provider fails has an assistant message behind it. -/
theorem run_fails_later (input : AgentInput) (s : RunState) (e : LlmError)
    (hrun : agent.run input runId turns = (s, .error (.provider e)))
    (h : ¬ FailsAtOnce agent turns) : 0 < assistants (spoken s.emitted) := by
  unfold Agent.run at hrun
  cases hmax : agent.config.maxIterations with
  | zero =>
    simp only [hmax, Agent.loop] at hrun
    split at hrun <;> simp at hrun
  | succ n =>
    simp only [hmax, Agent.loop, Agent.entry] at hrun
    split at hrun
    · simp at hrun
    · rename_i hcancelled
      cases hresponse : (turns 0).response with
      | error e' => exact absurd ⟨by omega, by simpa using hcancelled, e', hresponse⟩ h
      | ok response =>
        simp only [Agent.iterate, hresponse] at hrun
        split at hrun
        · rename_i s' hflow
          have hanswered : 0 < assistants (spoken (Flow.next s').state.emitted) := by
            rw [← hflow]
            exact answer_speaks agent runId (turns 0) response _
          have hloop := (loop_grows agent runId turns n s').assistants_le
          rw [hrun] at hloop
          exact Nat.lt_of_lt_of_le hanswered hloop
        · rename_i s' result hflow
          obtain ⟨rfl, _⟩ := Prod.mk.inj hrun
          change 0 < assistants (spoken (Flow.done s' result).state.emitted)
          rw [← hflow]
          exact answer_speaks agent runId (turns 0) response _

end Conditions

end October.JournaledTurns
