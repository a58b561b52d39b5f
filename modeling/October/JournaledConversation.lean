import October.JournaledTurns

/-!
The journaled conversation against the one the model saw, over a whole background
run with its retries. The journal is the history of the agent instance that
decided the outcome exactly when no answer was replied to silently and only first
calls to the provider were retried.
-/
namespace October.JournaledConversation

open AgentActor JournaledTurns

/-- Roles and parts, in order. -/
def contents (messages : List Message) : List (Role × List ContentPart) :=
  messages.map (fun m => (m.role, m.parts))

theorem contents_length (ms : List Message) : (contents ms).length = ms.length :=
  List.length_map _

theorem assistants_contents (ms : List Message) :
    assistants ms = (contents ms).countP (fun p => decide (p.1 = .assistant)) := by
  simp [assistants, contents, List.countP_map, Function.comp_def]

variable (cfg : RunConfig) (prior : List Message) (input : AgentInput) (attempts : ℕ → Attempt)

/-- As long as every earlier attempt failed at once, each attempt is aloud. -/
def Faithful : Prop :=
  ∀ agent, cfg.build prior = .ok agent →
    ∀ n ≤ cfg.maxRetries, (∀ i < n, FailsAtOnce agent (attempts i).turns) →
      Aloud agent (attempts n).turns (cfg.maxRetries - n)

def Matches (result : RunResult) : Prop :=
  ∀ history, result.finalHistory = some history →
    contents (journaled prior input result.emitted) = contents history

variable {cfg prior}

theorem matches_returned (s : RunState) (outcome : RunOutcome) :
    Matches prior input (returned s outcome) ↔
      contents (prior ++ [input.toMessage] ++ spoken s.emitted) = contents s.history := by
  unfold Matches
  rw [returned, journaled_eq]
  constructor
  · exact fun h => h _ rfl
  · intro h history hhistory
    rw [← Option.some.inj hhistory]
    exact h

/-- The agent instance of a run that returned has the assistant messages it emitted. -/
theorem run_assistants (agent : Agent) (runId : String) (turns : ℕ → Turn) :
    assistants (agent.run input runId turns).1.history =
      assistants (agent.history ++ [input.toMessage]) +
        assistants (spoken (agent.run input runId turns).1.emitted) := by
  obtain ⟨pushed, emitted, hhistory, hspoken, _, hcount⟩ :=
    loop_grows agent runId turns agent.config.maxIterations (agent.entry input)
  have hentry : spoken (agent.entry input).emitted = [] := by
    simp [Agent.entry, spoken, coarseEvent]
  rw [hentry, List.nil_append] at hspoken
  rw [Agent.run, hhistory, hspoken, assistants_append, hcount]
  rfl

/-- An attempt that decides the outcome matches exactly when it is aloud. -/
theorem deciding_iff (agent : Agent) (hbuild : cfg.build prior = .ok agent) (runId : String)
    (turns : ℕ → Turn) (retries : ℕ) (outcome : RunOutcome)
    (hlast : (∃ e, (agent.run input runId turns).2 = .error (.provider e)) → retries = 0) :
    Matches prior input (returned (agent.run input runId turns).1 outcome) ↔
      Aloud agent turns retries := by
  obtain ⟨hhistory, hmax⟩ := build_ok agent hbuild
  have hlooped := run_looped runId turns input hmax
  rw [hhistory] at hlooped
  rw [matches_returned]
  generalize agent.run input runId turns = r at hlooped hlast ⊢
  cases hlooped with
  | aloud s result haloud hs hresult =>
    refine iff_of_true (by rw [← hs]) (fun k hk => ⟨haloud k (Nat.zero_le k) hk, ?_⟩)
    intro he
    exact Or.inr (hlast (hresult.mpr ⟨k, Nat.zero_le k, hk, he⟩))
  | silent s result haloud hs =>
    refine iff_of_false ?_ (fun h => haloud (fun k _ hk => (h k hk).1))
    intro h
    have hlen := congrArg List.length h
    simp only [contents_length] at hlen
    omega

/-- An attempt followed by a retry is aloud exactly when it failed at once. -/
theorem retried_iff (agent : Agent) (hbuild : cfg.build prior = .ok agent) (runId : String)
    (turns : ℕ → Turn) (retries : ℕ) (hretries : retries ≠ 0)
    (hfails : ∃ e, (agent.run input runId turns).2 = .error (.provider e)) :
    Aloud agent turns retries ↔ FailsAtOnce agent turns := by
  constructor
  · intro haloud
    have hlooped := run_looped runId turns input (build_ok agent hbuild).2
    generalize agent.run input runId turns = r at hlooped hfails
    cases hlooped with
    | aloud s result _ _ hresult =>
      obtain ⟨k, _, hk, he⟩ := hresult.mp hfails
      rcases (haloud k hk).2 he with rfl | hzero
      · exact ⟨hk.allowed, hk.notCancelled, he⟩
      · exact absurd hzero hretries
    | silent s result h _ => exact absurd (fun k _ hk => (haloud k hk).1) h
  · rintro ⟨_, hcancelled, e, he⟩ k hk
    have hzero : k = 0 := by
      by_contra hne
      exact (hk.executed 0 (by omega)).responded e he
    subst hzero
    refine ⟨?_, fun _ => Or.inl rfl⟩
    rintro ⟨response, hresponse, _⟩
    simp [he] at hresponse

/-- Some instance decides, and its assistant messages were emitted by the attempts from
number `n` on. -/
theorem finalHistory_assistants (agent : Agent) (hbuild : cfg.build prior = .ok agent)
    (retries n : ℕ) :
    ∃ history, (attemptLoop cfg prior input attempts retries n).finalHistory = some history ∧
      assistants history ≤ assistants (prior ++ [input.toMessage]) +
        assistants (spoken (attemptLoop cfg prior input attempts retries n).emitted) := by
  refine attemptLoop_induction (P := fun _ result => ∃ history,
    result.finalHistory = some history ∧ assistants history ≤
      assistants (prior ++ [input.toMessage]) + assistants (spoken result.emitted))
    input attempts agent hbuild (fun n => ?_) (fun n e result _ hresult => ?_) retries n
  · have hcount := run_assistants input agent (attempts n).runId (attempts n).turns
    rw [(build_ok agent hbuild).1] at hcount
    exact ⟨_, rfl, Nat.le_of_eq hcount⟩
  · obtain ⟨history, hhistory, hle⟩ := hresult
    refine ⟨history, hhistory, ?_⟩
    simp only [RunResult.after, spoken_append, assistants_append] at hle ⊢
    omega

/-- Emitted messages of a retried attempt are never part of the deciding history. -/
theorem not_matches_after (agent : Agent) (hbuild : cfg.build prior = .ok agent)
    (retries n : ℕ) (s : RunState) (hspoke : 0 < assistants (spoken s.emitted)) :
    ¬ Matches prior input ((attemptLoop cfg prior input attempts retries n).after s) := by
  intro h
  obtain ⟨history, hhistory, hle⟩ :=
    finalHistory_assistants input attempts agent hbuild retries n
  have hcontents := h history hhistory
  rw [RunResult.after, journaled_eq, spoken_append] at hcontents
  have hcount := congrArg (List.countP (fun p => decide (p.1 = Role.assistant))) hcontents
  simp only [← assistants_contents, assistants_append] at hcount hle
  omega

theorem matches_after_silent (result : RunResult) (s : RunState) (hspoken : spoken s.emitted = []) :
    Matches prior input (result.after s) ↔ Matches prior input result := by
  simp only [Matches, RunResult.after, journaled_eq, spoken_append, hspoken, List.nil_append]

/-- A condition on the attempts up to a retry budget splits into the first attempt's and
the one of the rest. -/
theorem forall_attempts_succ (fails : ℕ → Prop) (good : ℕ → ℕ → Prop) (left : ℕ) :
    (∀ m ≤ left + 1, (∀ i < m, fails i) → good m (left + 1 - m)) ↔
      good 0 (left + 1) ∧ (fails 0 →
        ∀ m ≤ left, (∀ i < m, fails (i + 1)) → good (m + 1) (left - m)) := by
  constructor
  · intro h
    refine ⟨h 0 (by omega) (by simp), fun hfails m hm hall => ?_⟩
    have hgood := h (m + 1) (by omega) (fun i hi => by
      cases i with
      | zero => exact hfails
      | succ i => exact hall i (by omega))
    rwa [show left + 1 - (m + 1) = left - m by omega] at hgood
  · rintro ⟨hfirst, hrest⟩ m hm hall
    cases m with
    | zero => exact hfirst
    | succ m =>
      have hgood := hrest (hall 0 (by omega)) m (by omega) (fun i hi => hall (i + 1) (by omega))
      rwa [show left + 1 - (m + 1) = left - m by omega]

theorem attemptLoop_matches_iff (agent : Agent) (hbuild : cfg.build prior = .ok agent)
    (retries n : ℕ) :
    Matches prior input (attemptLoop cfg prior input attempts retries n) ↔
      ∀ m ≤ retries, (∀ i < m, FailsAtOnce agent (attempts (n + i)).turns) →
        Aloud agent (attempts (n + m)).turns (retries - m) := by
  induction retries generalizing n with
  | zero =>
    rcases attemptLoop_cases input attempts agent hbuild 0 n with
      ⟨_, _, _, hretries, _⟩ | ⟨hlast, hloop⟩
    · omega
    · rw [hloop, ran, deciding_iff input agent hbuild _ _ 0 _ hlast]
      constructor
      · intro h m hm _
        obtain rfl : m = 0 := by omega
        exact h
      · exact fun h => h 0 (Nat.le_refl 0) (by simp)
  | succ left ih =>
    rw [forall_attempts_succ (fun i => FailsAtOnce agent (attempts (n + i)).turns)
      (fun m r => Aloud agent (attempts (n + m)).turns r)]
    have hrest : (∀ m ≤ left, (∀ i < m, FailsAtOnce agent (attempts (n + (i + 1))).turns) →
        Aloud agent (attempts (n + (m + 1))).turns (left - m)) ↔
        Matches prior input (attemptLoop cfg prior input attempts left (n + 1)) := by
      rw [ih (n + 1)]
      simp only [Nat.add_assoc, Nat.add_comm 1]
    rw [hrest]
    simp only [Nat.add_zero]
    rcases attemptLoop_cases input attempts agent hbuild (left + 1) n with
      ⟨e, left', hfail, hretries, hloop⟩ | ⟨hlast, hloop⟩
    · obtain rfl : left = left' := by omega
      have haloud := retried_iff input agent hbuild (attempts n).runId (attempts n).turns (left + 1)
        (by omega) ⟨e, hfail⟩
      rw [hloop, ran, haloud]
      by_cases honce : FailsAtOnce agent (attempts n).turns
      · obtain ⟨s, e', hrun, hspoken, _⟩ :=
          run_failsAtOnce (attempts n).runId input honce
        rw [hrun, matches_after_silent input _ s hspoken]
        exact ⟨fun h => ⟨honce, fun _ => h⟩, fun h => h.2 honce⟩
      · have hspoke := run_fails_later (attempts n).runId input _ e
          (Prod.ext rfl hfail) honce
        exact iff_of_false (not_matches_after input attempts agent hbuild left (n + 1) _ hspoke)
          (fun h => honce h.1)
    · rw [hloop, ran, deciding_iff input agent hbuild _ _ (left + 1) _ hlast]
      refine ⟨fun h => ⟨h, fun honce => ?_⟩, fun h => h.1⟩
      obtain ⟨s, e, hrun, _⟩ := run_failsAtOnce (attempts n).runId input honce
      exact absurd (hlast ⟨e, by rw [ran, hrun]⟩) (by omega)

/-- The journal holds the conversation of the deciding agent instance exactly when no
answer was replied to silently and only first calls to the provider were retried. -/
theorem journaled_iff_faithful (cfg : RunConfig) (prior : List Message) (input : AgentInput)
    (attempts : ℕ → Attempt) :
    Matches prior input (runWithRetries cfg prior input attempts) ↔
      Faithful cfg prior attempts := by
  unfold Faithful runWithRetries
  cases hbuild : cfg.build prior with
  | error e =>
    rw [attemptLoop, hbuild]
    simp [Matches]
  | ok agent =>
    rw [attemptLoop_matches_iff input attempts agent hbuild]
    constructor
    · rintro h agent' hagent n hn hall
      cases Except.ok.inj hagent
      simpa using h n hn (by simpa using hall)
    · intro h m hm hall
      simpa using h agent rfl m hm (by simpa using hall)

def concluding : RunConfig where
  validatorFor _ := .ok ⟨fun _ => true, fun _ => none⟩
  tools := [⟨concludeTool, "Finish your turn", .object []⟩]
  systemPrompt := ""
  handoffTool := some concludeTool
  maxIterations := none
  maxRetries := 0

def textThenConclude : Attempt where
  runId := "run"
  turns k :=
    { cancelled := false
      msgId := "msg"
      stream := []
      response := .ok
        { parts := if k = 0 then [.text "done"] else [.toolCall "tc" concludeTool (.object [])]
          stopReason := .endTurn
          usage := ⟨1, 1⟩ }
      cancelledBeforeTools := false
      execute := fun _ => .ok .null }

/-- The nudge is in the history of the instance that concluded, not in the journal. -/
theorem nudge_not_journaled :
    ¬ ∀ (cfg : RunConfig) (prior : List Message) (input : AgentInput) (attempts : ℕ → Attempt),
      Matches prior input (runWithRetries cfg prior input attempts) := by
  intro h
  have hrun := h concluding [] (.userMessage "u" "go") (fun _ => textThenConclude)
  have hfinal : (runWithRetries concluding [] (.userMessage "u" "go")
      (fun _ => textThenConclude)).finalHistory.map List.length = some 4 := by decide +kernel
  obtain ⟨history, hhistory, hlength⟩ := Option.map_eq_some_iff.mp hfinal
  have hlen := congrArg List.length (hrun history hhistory)
  rw [contents_length, contents_length, hlength] at hlen
  have hjournal : (journaled [] (.userMessage "u" "go")
      (runWithRetries concluding [] (.userMessage "u" "go")
        (fun _ => textThenConclude)).emitted).length = 3 := by decide +kernel
  omega

end October.JournaledConversation
