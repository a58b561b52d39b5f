import October.MockServer

/-!
Who is answered what by the mock server, in any order of requests, queued responses and
registrations. The requests of a session read its scenario from the front, each response
once; all others share the queue, first come first served.
-/
namespace October.ScriptedSessions

open MockServer

def keepsSession (sid : String) : ServerLabel → Bool
  | .registerSession _ sessionId => sessionId != sid
  | _ => true

def KeepsSession (sid : String) (_ : Server) (l : ServerLabel) : Prop := keepsSession sid l = true

instance (sid : String) (s : Server) (l : ServerLabel) : Decidable (KeepsSession sid s l) :=
  inferInstanceAs (Decidable (_ = true))

def asked (sid : String) (first : ℕ) (s : Server) : List Request :=
  (s.requests.drop first).filter (fun r => r.session = some sid)

def taken (s : Server) : List QueueEntry :=
  (s.requests.filter (fun r => r.origin = .queue)).filterMap Request.entry

section Steps

variable {s t : Server} {l : ServerLabel} {sid : String} {first : ℕ}

@[simp] theorem push_requests (entry : QueueEntry) (s : Server) :
    (s.push entry).requests = s.requests := rfl

@[simp] theorem push_sessionStates (entry : QueueEntry) (s : Server) :
    (s.push entry).state.sessionStates = s.state.sessionStates := rfl

inductive ServerStep (s : Server) : ServerLabel → Server → Prop
  | message (session : Option String) (isStream : Bool) (msgId toolId : String) :
      ServerStep s (.message session isStream msgId toolId)
        { s with
          state := (s.state.takeEntry session).2.2
          requests := s.requests ++ [⟨session, isStream, (s.state.takeEntry session).1,
            (s.state.takeEntry session).2.1, msgId, toolId⟩] }
  | answer (i : ℕ) : s.mayAnswer i = true →
      ServerStep s (.answer i) { s with answered := i :: s.answered }
  | pushed (label : ServerLabel) (entry : QueueEntry) (gates : ℕ) :
      ServerStep s label { s.push entry with gates := gates }
  | release (gate : ℕ) : ServerStep s (.release gate) { s with released := gate :: s.released }
  | loadScenarios (config : List (String × Scenario)) :
      ServerStep s (.loadScenarios config) { s with state := s.state.loadScenarios config }
  | registerSession (scenarioName sessionId : String) :
      ServerStep s (.registerSession scenarioName sessionId)
        { s with state := (s.state.registerSession scenarioName sessionId).getD s.state }

theorem next_step (h : Server.next s l = some t) : ServerStep s l t := by
  cases l with
  | message session isStream msgId toolId =>
    cases Option.some.inj h
    exact .message session isStream msgId toolId
  | answer i =>
    simp only [Server.next] at h
    split at h
    · rename_i hmay
      cases Option.some.inj h
      exact .answer i hmay
    · contradiction
  | queue req =>
    cases Option.some.inj h
    exact .pushed _ (QueueEntry.immediate req.response) s.gates
  | queueResponse text =>
    cases Option.some.inj h
    exact .pushed _ (QueueEntry.immediate (.text text)) s.gates
  | queueToolCall name input =>
    cases Option.some.inj h
    exact .pushed _ (QueueEntry.immediate (.toolCall name input)) s.gates
  | blockingResponse text =>
    cases Option.some.inj h
    exact .pushed _ ⟨.text text, some s.gates⟩ (s.gates + 1)
  | release gate =>
    cases Option.some.inj h
    exact .release gate
  | loadScenarios config =>
    cases Option.some.inj h
    exact .loadScenarios config
  | registerSession scenarioName sessionId =>
    cases Option.some.inj h
    exact .registerSession scenarioName sessionId

/-- A request of a bound session takes the response its place points to. -/
theorem takeEntry_bound {m : MockState} {state : ScenarioState}
    (h : m.sessionStates.lookup sid = some state) :
    m.takeEntry (some sid) = (.script, state.nextResponse.1.map QueueEntry.immediate,
      { m with sessionStates := m.sessionStates.insert sid state.nextResponse.2 }) := by
  simp [MockState.takeEntry, h]

/-- Every other request takes the first entry of the queue and moves no session. -/
theorem takeEntry_free {m : MockState} {session : Option String}
    (h : ∀ sid, session = some sid → m.sessionStates.lookup sid = none) :
    m.takeEntry session = (.queue, m.queue.head?, { m with queue := m.queue.tail }) := by
  cases session with
  | none => rfl
  | some sid => simp [MockState.takeEntry, h sid rfl, MockState.dequeueEntry]

theorem takeEntry_cases (m : MockState) (session : Option String) :
    (∃ sid state, session = some sid ∧ m.sessionStates.lookup sid = some state) ∨
      ∀ sid, session = some sid → m.sessionStates.lookup sid = none := by
  cases session with
  | none => exact Or.inr (fun sid h => by contradiction)
  | some sid =>
    cases h : m.sessionStates.lookup sid with
    | some state => exact Or.inl ⟨sid, state, rfl, h⟩
    | none =>
      refine Or.inr (fun sid' hsid => ?_)
      cases Option.some.inj hsid
      exact h

end Steps

section Queue

/-- The queue holds what was queued and not taken, and no answer passes a gate unreleased. -/
structure Conserved (s : Server) : Prop where
  accounts : taken s ++ s.state.queue = s.queued
  once : s.answered.Nodup
  gated : ∀ i ∈ s.answered, ∃ r, s.requests[i]? = some r ∧ ∀ gate ∈ r.gate, gate ∈ s.released

variable {s t : Server} {l : ServerLabel}

theorem conserved_start (m : MockState) : Conserved (Server.start m) :=
  ⟨rfl, List.nodup_nil, fun i hi => by contradiction⟩

/-- A request taken after the others. -/
theorem Conserved.requested (h : Conserved s) (r : Request) (m : MockState)
    (htaken : taken s ++ s.state.queue =
      taken { s with state := m, requests := s.requests ++ [r] } ++ m.queue) :
    Conserved { s with state := m, requests := s.requests ++ [r] } := by
  refine ⟨htaken.symm.trans h.accounts, h.once, fun i hi => ?_⟩
  obtain ⟨r', hr', hgate⟩ := h.gated i hi
  refine ⟨r', ?_, hgate⟩
  change (s.requests ++ [r])[i]? = some r'
  rw [List.getElem?_append_left (List.getElem?_eq_some_iff.mp hr').1]
  exact hr'

theorem Conserved.step (h : Conserved s) (hstep : ServerStep s l t) : Conserved t := by
  cases hstep with
  | message session isStream msgId toolId =>
    refine h.requested _ _ ?_
    rcases takeEntry_cases s.state session with ⟨sid, state, rfl, hbound⟩ | hfree
    · rw [takeEntry_bound hbound]
      simp [taken]
    · rw [takeEntry_free hfree]
      cases hqueue : s.state.queue <;> simp [taken]
  | answer i hmay =>
    obtain ⟨hopen, hnew⟩ := Bool.and_eq_true_iff.mp hmay
    refine ⟨h.accounts, List.nodup_cons.mpr ⟨of_decide_eq_true hnew, h.once⟩, fun j hj => ?_⟩
    rcases List.mem_cons.mp hj with rfl | hj
    · obtain ⟨r, hr, hgates⟩ := (Option.any_eq_true _ _).mp hopen
      refine ⟨r, hr, fun gate hgate => ?_⟩
      have hgate' : r.gate = some gate := hgate
      rw [hgate'] at hgates
      exact of_decide_eq_true hgates
    · exact h.gated j hj
  | pushed label entry gates =>
    refine ⟨?_, h.once, h.gated⟩
    have hqueue : taken s ++ (s.state.queue ++ [entry]) = s.queued ++ [entry] := by
      rw [← List.append_assoc, h.accounts]
    exact hqueue
  | release gate =>
    refine ⟨h.accounts, h.once, fun i hi => ?_⟩
    obtain ⟨r, hr, hgates⟩ := h.gated i hi
    exact ⟨r, hr, fun gate' hgate => List.mem_cons_of_mem _ (hgates gate' hgate)⟩
  | loadScenarios config => exact ⟨h.accounts, h.once, h.gated⟩
  | registerSession scenarioName sessionId =>
    refine ⟨?_, h.once, h.gated⟩
    change taken s ++ ((s.state.registerSession scenarioName sessionId).getD s.state).queue =
      s.queued
    unfold MockState.registerSession
    cases s.state.scenarios.lookup scenarioName <;> exact h.accounts

end Queue

section Script

variable {s t : Server} {l : ServerLabel} {sid : String} {script : List MockResponse} {first : ℕ}

theorem asked_snoc (sid : String) (h : first ≤ s.requests.length) (m : MockState) (r : Request) :
    asked sid first { s with state := m, requests := s.requests ++ [r] } =
      asked sid first s ++ if r.session = some sid then [r] else [] := by
  unfold asked
  rw [List.drop_append_of_le_length h, List.filter_append]
  by_cases hsession : r.session = some sid <;> simp [hsession]

/-- Since it was bound, the session's requests have read the script from the front. -/
structure Placed (sid : String) (script : List MockResponse) (first : ℕ) (s : Server) : Prop where
  length : first ≤ s.requests.length
  place : s.state.sessionStates.lookup sid =
    some ⟨script, min (asked sid first s).length script.length⟩
  heard : ∀ (i : ℕ) (r : Request), (asked sid first s)[i]? = some r →
    r.entry = script[i]?.map QueueEntry.immediate

/-- At the n-th request, or at its end, the script gives its n-th response, if it has one. -/
theorem nextResponse_place (script : List MockResponse) (n : ℕ) :
    (ScenarioState.mk script (min n script.length)).nextResponse =
      (script[n]?, ⟨script, min (n + 1) script.length⟩) := by
  rcases Nat.lt_or_ge n script.length with hlt | hge
  · have hplace : min n script.length = n := Nat.min_eq_left (Nat.le_of_lt hlt)
    have hnext : min (n + 1) script.length = n + 1 := Nat.min_eq_left hlt
    simp [ScenarioState.nextResponse, hplace, hnext, List.getElem?_eq_getElem hlt]
  · have hplace : min n script.length = script.length := Nat.min_eq_right hge
    have hnext : min (n + 1) script.length = script.length :=
      Nat.min_eq_right (Nat.le_succ_of_le hge)
    have hnone : script[n]? = none := List.getElem?_eq_none hge
    simp [ScenarioState.nextResponse, hplace, hnext, hnone]

theorem Placed.requested (h : Placed sid script first s) (isStream : Bool)
    (msgId toolId : String) :
    Placed sid script first { s with
      state := (s.state.takeEntry (some sid)).2.2
      requests := s.requests ++ [⟨some sid, isStream, (s.state.takeEntry (some sid)).1,
        (s.state.takeEntry (some sid)).2.1, msgId, toolId⟩] } := by
  have hasked := asked_snoc sid h.length
  rw [takeEntry_bound h.place, nextResponse_place]
  refine ⟨?_, ?_, fun i r hi => ?_⟩
  · exact h.length.trans (by simp)
  · rw [hasked]
    simp
  · rw [hasked, if_pos rfl] at hi
    rcases Nat.lt_or_ge i (asked sid first s).length with hlt | hge
    · rw [List.getElem?_append_left hlt] at hi
      exact h.heard i r hi
    · rw [List.getElem?_append_right hge] at hi
      obtain ⟨hzero, hr⟩ := List.getElem?_eq_some_iff.mp hi
      obtain rfl : i = (asked sid first s).length := by
        rw [List.length_singleton] at hzero
        omega
      rw [← hr]
      simp

/-- What leaves the session's place and its requests keeps what it has read. -/
theorem Placed.frame (h : Placed sid script first s) (hlength : first ≤ t.requests.length)
    (hasked : asked sid first t = asked sid first s)
    (hplace : t.state.sessionStates.lookup sid = s.state.sessionStates.lookup sid) :
    Placed sid script first t :=
  ⟨hlength, by rw [hplace, hasked]; exact h.place, fun i r hi => h.heard i r (by rwa [← hasked])⟩

theorem Placed.step (h : Placed sid script first s) (hl : keepsSession sid l = true)
    (hstep : ServerStep s l t) : Placed sid script first t := by
  cases hstep with
  | message session isStream msgId toolId =>
    by_cases hsession : session = some sid
    · subst hsession
      exact h.requested isStream msgId toolId
    · refine h.frame (h.length.trans (by simp)) ?_ ?_
      · rw [asked_snoc sid h.length, if_neg hsession, List.append_nil]
      · rcases takeEntry_cases s.state session with ⟨sid', state, rfl, hbound⟩ | hfree
        · have hne : sid ≠ sid' := fun heq => hsession (by rw [heq])
          rw [takeEntry_bound hbound]
          exact AList.lookup_insert_ne hne
        · rw [takeEntry_free hfree]
  | answer _ _ | pushed _ _ _ | release _ | loadScenarios _ => exact h.frame h.length rfl rfl
  | registerSession scenarioName sessionId =>
    refine h.frame h.length rfl ?_
    have hne : sid ≠ sessionId := by
      have hne : sessionId ≠ sid := by simpa [keepsSession] using hl
      exact hne.symm
    change ((s.state.registerSession scenarioName sessionId).getD s.state).sessionStates.lookup
      sid = s.state.sessionStates.lookup sid
    unfold MockState.registerSession
    cases s.state.scenarios.lookup scenarioName with
    | none => rfl
    | some scenario => exact AList.lookup_insert_ne hne

/-- A session that was bound just now is at the front of its script. -/
theorem placed_registered {m : MockState} {scenarioName : String} {scenario : Scenario}
    (hscenario : s.state.scenarios.lookup scenarioName = some scenario)
    (hbound : s.state.registerSession scenarioName sid = some m) :
    Placed sid scenario.responses s.requests.length { s with state := m } := by
  have hasked : asked sid s.requests.length { s with state := m } = [] := by simp [asked]
  refine ⟨Nat.le_refl _, ?_, fun i r hi => ?_⟩
  · rw [hasked]
    simp only [MockState.registerSession, hscenario, Option.map_some, Option.some.injEq] at hbound
    rw [← hbound]
    simp [ScenarioState.fromScenario]
  · rw [hasked] at hi
    contradiction

theorem placed_run {s' : Server} {scenarioName : String} {scenario : Scenario}
    (hscenario : s.state.scenarios.lookup scenarioName = some scenario)
    (hregister : Server.next s (.registerSession scenarioName sid) = some s')
    (hlater : Machine.Run Server.next (KeepsSession sid) s' t) :
    Placed sid scenario.responses s.requests.length t := by
  refine hlater.invariant _ (fun _ _ _ h hl hstep => h.step hl (next_step hstep)) ?_
  obtain ⟨m, hm⟩ : ∃ m, s.state.registerSession scenarioName sid = some m := by
    simp [MockState.registerSession, hscenario]
  have hbound : s' = { s with state := m } := by
    rw [← Option.some.inj hregister, hm]
    rfl
  rw [hbound]
  exact placed_registered hscenario hm

end Script

/-- The server is started, a session is bound to a scenario, and it is not bound anew. Then
the session's n-th request since has taken the scenario's n-th response, whatever the others
do; the requests without a bound session have taken what was queued, in order, and what they
left is the queue; no request is answered twice, and none before its gate is released. -/
theorem answered_in_order (m : MockState) (s s' t : Server) (scenarioName sid : String)
    (scenario : Scenario) (hrun : Machine.Run Server.next Machine.free (Server.start m) s)
    (hscenario : s.state.scenarios.lookup scenarioName = some scenario)
    (hregister : Server.next s (.registerSession scenarioName sid) = some s')
    (hlater : Machine.Run Server.next (KeepsSession sid) s' t) :
    (∀ (i : ℕ) (r : Request), (asked sid s.requests.length t)[i]? = some r →
        r.entry = scenario.responses[i]?.map QueueEntry.immediate) ∧
      taken t ++ t.state.queue = t.queued ∧ t.answered.Nodup ∧
      ∀ i ∈ t.answered, ∃ r, t.requests[i]? = some r ∧ ∀ gate ∈ r.gate, gate ∈ t.released := by
  have hstart : Conserved s := hrun.invariant Conserved
    (fun _ _ _ h _ hstep => h.step (next_step hstep)) (conserved_start m)
  have hconserved : Conserved t := hlater.invariant Conserved
    (fun _ _ _ h _ hstep => h.step (next_step hstep)) (hstart.step (next_step hregister))
  have hplaced := placed_run hscenario hregister hlater
  exact ⟨hplaced.heard, hconserved.accounts, hconserved.once, hconserved.gated⟩

def greeter : Server :=
  Server.start (MockState.build [.text "next"]
    ((∅ : AList (fun _ : String => Scenario)).insert "greet"
      ⟨[.error 529 "busy", .text "hello"]⟩))

def bound : Server := (Server.next greeter (.registerSession "greet" "s1")).getD greeter

def greeted : Server :=
  Machine.final Server.next (KeepsSession "s1") bound
    [.message (some "s1") true "m1" "t1", .message none true "m2" "t2",
      .message (some "s1") true "m3" "t3", .answer 2, .message (some "s1") true "m4" "t4",
      .answer 0]

theorem run_greeted : Machine.Run Server.next (KeepsSession "s1") bound greeted :=
  Machine.run_final _ (by decide +kernel)

theorem greeted_in_order :
    ((asked "s1" 0 greeted)[1]?).bind Request.entry =
        some (QueueEntry.immediate (.text "hello")) ∧
      taken greeted ++ greeted.state.queue = greeted.queued ∧ greeted.answered.Nodup := by
  obtain ⟨hheard, haccounts, honce, -⟩ := answered_in_order _ greeter bound greeted "greet" "s1"
    ⟨[.error 529 "busy", .text "hello"]⟩ (Machine.Run.refl _) (by rfl) rfl run_greeted
  obtain ⟨r, hr⟩ : ∃ r, (asked "s1" 0 greeted)[1]? = some r :=
    Option.isSome_iff_exists.mp (by decide +kernel)
  refine ⟨?_, haccounts, honce⟩
  rw [hr]
  exact hheard 1 r hr

end October.ScriptedSessions
