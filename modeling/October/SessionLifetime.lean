import October.Machine
import October.WellFormedRequests
import Mathlib.Data.List.Flatten
import Mathlib.Data.List.Perm.Subperm

/-!
Lifetimes of one agent session: commands in any order, background runs whose
events are journaled one at a time, crashes and recoveries. Runs may overlap. If
every run is started over a conversation whose calls are answered, up to those the
start itself answers, then every request of the lifetime is well formed.
-/
namespace October.SessionLifetime

open AgentActor JournaledTurns ToolConversation WellFormedRequests

structure Setup where
  sessionId : Uuid
  params : AgentParams
  validatorFor : Value → Except String Validator
  tools : List ToolSpec

def Setup.config (setup : Setup) : RunConfig :=
  runConfig setup.validatorFor setup.tools setup.params

structure InFlight where
  remaining : List AgentDomainEvent
  outcome : RunOutcome

/-- The journal folds to `state`, which is also the live actor's state. Kept besides:
the number of runs started, the messages all of them emitted and their requests. -/
structure Session where
  state : AgentState
  actor : Option AgentActor
  runs : List InFlight
  started : ℕ
  answers : List Message
  requests : List CompletionRequest

def Session.new : Session := ⟨AgentActor.initialState, none, [], 0, [], []⟩

inductive Event where
  | spawn
  | run (input : String)
  | inject (toolCallId content : String)
  | cancel
  | progress (i : ℕ)
  | finish (i : ℕ)
  | crash

/-- An event with what it may draw on: a fresh message id, the world of a run started
in it, and whether a persist succeeds. -/
structure Step where
  event : Event
  messageId : String
  attempts : ℕ → Attempt
  persisted : Bool

variable (setup : Setup)

def perform (step : Step) (s : Session) : AgentAction → Session
  | .startRun input history =>
    let result := runWithRetries setup.config history input step.attempts
    { s with
      runs := s.runs ++ [⟨result.emitted.filterMap coarseEvent, result.outcome⟩]
      started := s.started + 1
      answers := s.answers ++ spoken result.emitted
      requests := s.requests ++ result.requests }
  | .cancelRun _ => s
  | .tellParent _ => s

def persist (step : Step) (events : List AgentDomainEvent) (s : Session) : Session :=
  if step.persisted then { s with state := events.foldl applyEvent s.state } else s

def Session.down (s : Session) : Session := { s with actor := none, runs := [] }

def applyEffect (step : Step) (effect : CommandEffect AgentDomainEvent) (s : Session) :
    Session :=
  if effect.stops then (persist step effect.events s).down else persist step effect.events s

def handle (step : Step) (actor : AgentActor) (cmd : AgentCommand) (s : Session) : Session :=
  let reply := actor.handleCommand s.state s.started step.messageId cmd
  applyEffect step reply.2.2 (reply.2.1.foldl (perform setup step) { s with actor := some reply.1 })

def received (s : Session) : Event → Option (AgentCommand × List InFlight)
  | .run input => some (.run input, s.runs)
  | .inject toolCallId content => some (.injectToolResult toolCallId content, s.runs)
  | .cancel => some (.cancel, s.runs)
  | .progress i =>
    match s.runs[i]? with
    | some ⟨event :: rest, outcome⟩ => some (.persistProgress [event], s.runs.set i ⟨rest, outcome⟩)
    | _ => none
  | .finish i =>
    match s.runs[i]? with
    | some ⟨[], outcome⟩ => some (.runFinished outcome, s.runs.eraseIdx i)
    | _ => none
  | .spawn => none
  | .crash => none

def next (s : Session) (step : Step) : Option Session :=
  match step.event, s.actor with
  | .crash, _ => some s.down
  | .spawn, none =>
    let actor : AgentActor := ⟨setup.sessionId, setup.params, none⟩
    let recovered := actor.onRecoveryComplete s.state s.started step.messageId
    some (recovered.2.foldl (perform setup step) { s with actor := some recovered.1 })
  | .spawn, some _ => none
  | _, none => none
  | event, some actor =>
    (received s event).map (fun (cmd, runs) => handle setup step actor cmd { s with runs := runs })

/-- The calls of the journaled conversation are answered in place, except that a
recovery may find calls of the last assistant message open and an injected result
answers the only open one. -/
def Settled (s : Session) (step : Step) : Prop :=
  match step.event with
  | .run _ => openCalls s.state.messages = some []
  | .inject toolCallId _ => openCalls s.state.messages = some [toolCallId]
  | .spawn => openCalls s.state.messages ≠ none
  | _ => True

instance (s : Session) : (step : Step) → Decidable (Settled s step)
  | ⟨.run _, _, _, _⟩ => inferInstanceAs (Decidable (openCalls s.state.messages = some []))
  | ⟨.inject toolCallId _, _, _, _⟩ =>
    inferInstanceAs (Decidable (openCalls s.state.messages = some [toolCallId]))
  | ⟨.spawn, _, _, _⟩ => inferInstanceAs (Decidable (openCalls s.state.messages ≠ none))
  | ⟨.cancel, _, _, _⟩ => isTrue trivial
  | ⟨.progress _, _, _, _⟩ => isTrue trivial
  | ⟨.finish _, _, _, _⟩ => isTrue trivial
  | ⟨.crash, _, _, _⟩ => isTrue trivial

def FreshIds (answers : List Message) : Prop :=
  (madeCalls answers).Nodup ∧ ∀ m ∈ answers, m.role = .assistant → resultIds m.parts = []

def eventCalls (events : List AgentDomainEvent) : List String := madeCalls (events.flatMap added)

@[simp] theorem eventCalls_nil : eventCalls [] = [] := rfl

instance (answers : List Message) : Decidable (FreshIds answers) :=
  inferInstanceAs (Decidable (_ ∧ ∀ m ∈ answers, m.role = .assistant → resultIds m.parts = []))

def runCalls (runs : List InFlight) : List String := runs.flatMap (fun r => eventCalls r.remaining)

/-- Requests are well formed, and no call is in the journal and the in-flight runs more
often than the model made it. -/
structure Inv (s : Session) : Prop where
  requests : RequestsWellFormed s.requests
  calls : (madeCalls s.state.messages ++ runCalls s.runs).Subperm (madeCalls s.answers)

variable {setup}

theorem FreshIds.of_prefix {ms ms' : List Message} (h : ms <+: ms') (hfresh : FreshIds ms') :
    FreshIds ms := by
  obtain ⟨rest, rfl⟩ := h
  obtain ⟨hnodup, hresults⟩ := hfresh
  rw [madeCalls_append] at hnodup
  exact ⟨(List.nodup_append.mp hnodup).1, fun m hm => hresults m (List.mem_append_left _ hm)⟩

theorem callIds_sublist (ms : List Message) (m : Message) (hm : m ∈ ms)
    (hrole : m.role = .assistant) : (callIds m.parts).Sublist (madeCalls ms) := by
  obtain ⟨before, after, rfl⟩ := List.append_of_mem hm
  rw [show before ++ m :: after = before ++ ([m] ++ after) by simp, madeCalls_append,
    madeCalls_append, madeCalls_assistant m hrole]
  exact ((List.sublist_append_left _ _).trans (List.sublist_append_right _ _))

theorem FreshIds.goodAnswers {ms : List Message} {events : List AgentEvent}
    (hfresh : FreshIds (ms ++ spoken events)) : GoodAnswers events := by
  obtain ⟨hnodup, hresults⟩ := hfresh
  intro m hm hrole
  have hmem : m ∈ ms ++ spoken events := List.mem_append_right _ hm
  exact ⟨hnodup.sublist (callIds_sublist _ m hmem hrole), hresults m hmem hrole⟩

theorem nodup_of_subperm {ids ids' : List String} (h : ids.Subperm ids') (hnodup : ids'.Nodup) :
    ids.Nodup := by
  obtain ⟨l, hperm, hsub⟩ := h
  exact hperm.nodup_iff.mp (hnodup.sublist hsub)

/-- Starting a run over a well-formed conversation. -/
theorem perform_startRun_inv (step : Step) (s : Session) (input : AgentInput)
    (history : List Message) (hs : Inv s) (hinput : WellFormed (history ++ [input.toMessage]))
    (hfresh : FreshIds (perform setup step s (.startRun input history)).answers) :
    Inv (perform setup step s (.startRun input history)) := by
  constructor
  · refine RequestsWellFormed.append.mpr ⟨hs.requests, ?_⟩
    exact runWithRetries_requests setup.config history input step.attempts hinput hfresh.goodAnswers
  · simp only [perform, runCalls, List.flatMap_append, List.flatMap_cons, List.flatMap_nil,
      List.append_nil, madeCalls_append]
    rw [← List.append_assoc]
    exact hs.calls.append (List.Subperm.refl _)

/-- Actions that start no run change nothing here. -/
theorem foldl_perform_idle (step : Step) (s : Session) (actions : List AgentAction)
    (h : ∀ a ∈ actions, ∀ input history, a ≠ .startRun input history) :
    actions.foldl (perform setup step) s = s := by
  induction actions with
  | nil => rfl
  | cons action rest ih =>
    have hrest := ih (fun a ha => h a (List.mem_cons_of_mem _ ha))
    cases action with
    | startRun input history => exact absurd rfl (h _ (by simp) input history)
    | cancelRun run => exact hrest
    | tellParent command => exact hrest

theorem Inv.down {s : Session} (hs : Inv s) : Inv s.down := by
  refine ⟨hs.requests, ?_⟩
  have hsub : (madeCalls s.state.messages ++ []).Sublist
      (madeCalls s.state.messages ++ runCalls s.runs) :=
    (List.nil_sublist _).append_left _
  exact hsub.subperm.trans hs.calls

theorem persist_inv (step : Step) (events : List AgentDomainEvent) (s : Session)
    (hrequests : RequestsWellFormed s.requests)
    (hcalls : (madeCalls s.state.messages ++ (eventCalls events ++ runCalls s.runs)).Subperm
      (madeCalls s.answers)) :
    Inv (persist step events s) := by
  rw [← List.append_assoc] at hcalls
  unfold persist
  split
  · refine ⟨hrequests, ?_⟩
    simpa [foldl_applyEvent, eventCalls] using hcalls
  · refine ⟨hrequests, ?_⟩
    exact ((List.sublist_append_left _ _).append_right _).subperm.trans hcalls

theorem applyEffect_inv (step : Step) (effect : CommandEffect AgentDomainEvent) (s : Session)
    (hrequests : RequestsWellFormed s.requests)
    (hcalls : (madeCalls s.state.messages ++ (eventCalls effect.events ++ runCalls s.runs)).Subperm
      (madeCalls s.answers)) :
    Inv (applyEffect step effect s) := by
  have hpersisted := persist_inv step effect.events s hrequests hcalls
  unfold applyEffect
  split
  · exact hpersisted.down
  · exact hpersisted

theorem applyEffect_answers (step : Step) (effect : CommandEffect AgentDomainEvent)
    (s : Session) : (applyEffect step effect s).answers = s.answers := by
  unfold applyEffect persist
  split <;> split <;> rfl

/-- A finished run starts none and adds no message. -/
theorem handleFinished_idle (actor : AgentActor) (outcome : RunOutcome) :
    (∀ a ∈ (actor.handleFinished outcome).2.1, ∀ input history, a ≠ .startRun input history) ∧
      eventCalls (actor.handleFinished outcome).2.2.events = [] := by
  cases outcome with
  | concluded data toolCallId =>
    simp only [AgentActor.handleFinished]
    cases interpret actor.params data toolCallId <;>
      simp [eventCalls, madeCalls, tokens, Pairing.opened]
  | _ => simp [AgentActor.handleFinished, eventCalls, madeCalls, tokens, Pairing.opened, added]

theorem eventCalls_inputMessage (input : AgentInput) :
    eventCalls [.inputMessage input.toMessage] = [] := by
  cases input <;> rfl

theorem runCalls_progress (runs : List InFlight) (i : ℕ) (event : AgentDomainEvent)
    (rest : List AgentDomainEvent) (outcome : RunOutcome)
    (h : runs[i]? = some ⟨event :: rest, outcome⟩) :
    (eventCalls [event] ++ runCalls (runs.set i ⟨rest, outcome⟩)).Perm (runCalls runs) := by
  induction runs generalizing i with
  | nil => simp at h
  | cons run runs ih =>
    cases i with
    | zero =>
      obtain rfl : run = ⟨event :: rest, outcome⟩ := by simpa using h
      have hsplit : eventCalls (event :: rest) = eventCalls [event] ++ eventCalls rest := by
        simp [eventCalls]
      simp [runCalls, hsplit]
    | succ i =>
      have htail := ih i (by simpa using h)
      simp only [runCalls, List.set_cons_succ, List.flatMap_cons] at htail ⊢
      exact (List.perm_append_comm_assoc _ _ _).trans (htail.append_left _)

theorem Inv.withActor {s : Session} (hs : Inv s) (actor : Option AgentActor) :
    Inv { s with actor := actor } := ⟨hs.requests, hs.calls⟩

/-- A command that starts a run and persists its input. -/
theorem startAndPersist_inv (step : Step) (s t : Session) (input : AgentInput) (hs : Inv s)
    (hinput : WellFormed (s.state.messages ++ [input.toMessage]))
    (ht : t = applyEffect step (.persist [.inputMessage input.toMessage])
      (perform setup step s (.startRun input s.state.messages)))
    (hfresh : FreshIds t.answers) : Inv t := by
  subst ht
  rw [applyEffect_answers] at hfresh
  have hstarted := perform_startRun_inv step s input s.state.messages hs hinput hfresh
  refine applyEffect_inv step _ _ hstarted.requests ?_
  rw [CommandEffect.events_persist, eventCalls_inputMessage, List.nil_append]
  exact hstarted.calls

/-- Every step from a settled state keeps the invariant. -/
theorem next_inv (s t : Session) (step : Step) (hs : Inv s) (hfresh : FreshIds t.answers)
    (hbefore : FreshIds s.answers) (hsettled : Settled s step)
    (hnext : next setup s step = some t) : Inv t := by
  unfold next at hnext
  cases hevent : step.event with
  | crash =>
    simp only [hevent, Option.some.injEq] at hnext
    subst hnext
    exact hs.down
  | spawn =>
    cases hactor : s.actor with
    | some actor => simp [hevent, hactor] at hnext
    | none =>
      simp only [hevent, hactor, Option.some.injEq] at hnext
      subst hnext
      cases hmessages : s.state.messages with
      | nil =>
        simp only [AgentActor.onRecoveryComplete, hmessages]
        exact hs.withActor _
      | cons m rest =>
        simp only [AgentActor.onRecoveryComplete, AgentActor.startRun, hmessages, List.foldl_cons,
          List.foldl_nil] at hfresh ⊢
        rw [← hmessages] at hfresh ⊢
        refine perform_startRun_inv step _ _ _ (hs.withActor _) ?_ hfresh
        have hopen : openCalls s.state.messages ≠ none := by simpa [Settled, hevent] using hsettled
        obtain ⟨ids, hids⟩ := Option.ne_none_iff_exists'.mp hopen
        have hnodup : (madeCalls s.state.messages).Nodup := by
          have hsub := (List.sublist_append_left _ _).subperm.trans hs.calls
          exact nodup_of_subperm hsub hbefore.1
        exact (openCalls_user_iff _ _ _).mpr
          (sanitizeForResume_wellFormed s.state.messages ids hids hnodup)
  | run input =>
    cases hactor : s.actor with
    | none => simp [hevent, hactor] at hnext
    | some actor =>
      simp only [hevent, hactor, received, Option.map_some, Option.some.injEq] at hnext
      have hopen : openCalls s.state.messages = some [] := by
        simpa [Settled, hevent] using hsettled
      exact startAndPersist_inv step
        { s with actor := some { actor with running := some s.started } }
        t (.userMessage step.messageId input) (hs.withActor _)
        ((openCalls_user_iff s.state.messages step.messageId input).mpr hopen) hnext.symm hfresh
  | inject toolCallId content =>
    cases hactor : s.actor with
    | none => simp [hevent, hactor] at hnext
    | some actor =>
      simp only [hevent, hactor, received, Option.map_some, Option.some.injEq] at hnext
      have hopen : openCalls s.state.messages = some [toolCallId] := by
        simpa [Settled, hevent] using hsettled
      exact startAndPersist_inv step
        { s with actor := some { actor with running := some s.started } }
        t (.toolResult toolCallId content false) (hs.withActor _)
        ((openCalls_toolResult_iff s.state.messages toolCallId content false).mpr hopen)
        hnext.symm hfresh
  | cancel =>
    cases hactor : s.actor with
    | none => simp [hevent, hactor] at hnext
    | some actor =>
      simp only [hevent, hactor, received, Option.map_some, Option.some.injEq, handle,
        AgentActor.handleCommand] at hnext
      rw [foldl_perform_idle] at hnext
      · subst hnext
        exact applyEffect_inv step .none _ hs.requests (by simpa using hs.calls)
      · cases actor.running <;> simp
  | progress i =>
    cases hactor : s.actor with
    | none => simp [hevent, hactor] at hnext
    | some actor =>
      simp only [hevent, hactor, received] at hnext
      split at hnext
      · rename_i event rest outcome hrun
        simp only [Option.map_some, Option.some.injEq, handle, AgentActor.handleCommand,
          List.foldl_nil] at hnext
        subst hnext
        refine applyEffect_inv step _ _ hs.requests ?_
        exact ((runCalls_progress s.runs i event rest outcome hrun).append_left _).subperm.trans
          hs.calls
      · simp at hnext
  | finish i =>
    cases hactor : s.actor with
    | none => simp [hevent, hactor] at hnext
    | some actor =>
      simp only [hevent, hactor, received] at hnext
      split at hnext
      · rename_i outcome hrun
        simp only [Option.map_some, Option.some.injEq, handle, AgentActor.handleCommand] at hnext
        obtain ⟨hidle, hcalls⟩ := handleFinished_idle actor outcome
        rw [foldl_perform_idle step _ _ hidle] at hnext
        subst hnext
        refine applyEffect_inv step _ _ hs.requests ?_
        rw [hcalls, List.nil_append]
        have hsub : (runCalls (s.runs.eraseIdx i)).Sublist (runCalls s.runs) :=
          (List.eraseIdx_sublist s.runs i).flatMap _
        exact (hsub.append_left _).subperm.trans hs.calls
      · simp at hnext

theorem foldl_perform_answers (step : Step) (s : Session) (actions : List AgentAction) :
    s.answers <+: (actions.foldl (perform setup step) s).answers := by
  induction actions generalizing s with
  | nil => exact List.prefix_rfl
  | cons action rest ih =>
    refine List.IsPrefix.trans ?_ (ih (perform setup step s action))
    cases action with
    | startRun input history => exact List.prefix_append _ _
    | cancelRun run => exact List.prefix_rfl
    | tellParent command => exact List.prefix_rfl

theorem next_answers (s t : Session) (step : Step) (h : next setup s step = some t) :
    s.answers <+: t.answers := by
  unfold next at h
  split at h
  · cases Option.some.inj h
    exact List.prefix_rfl
  · cases Option.some.inj h
    exact foldl_perform_answers step { s with actor := some _ } _
  · contradiction
  · contradiction
  · obtain ⟨⟨cmd, runs⟩, _, rfl⟩ := Option.map_eq_some_iff.mp h
    simp only [handle, applyEffect_answers]
    exact foldl_perform_answers step { s with actor := some _, runs := runs } _

/-- Every request of a lifetime whose runs start over settled conversations carries a
well-formed tool conversation. -/
theorem requests_wellFormed (setup : Setup) (s : Session)
    (hrun : Machine.Run (next setup) Settled Session.new s) (hfresh : FreshIds s.answers) :
    RequestsWellFormed s.requests := by
  have hinv : FreshIds s.answers → Inv s := by
    refine hrun.invariant (fun s => FreshIds s.answers → Inv s) ?_ ?_
    · intro s step t hs hsettled hnext ht
      have hbefore := ht.of_prefix (next_answers s t step hnext)
      exact next_inv s t step (hs hbefore) ht hbefore hsettled hnext
    · intro _
      exact ⟨by simp [RequestsWellFormed, Session.new], List.Subperm.refl _⟩
  exact (hinv hfresh).requests

def callThenText (cancelled : Bool) : ℕ → Attempt := fun _ =>
  { runId := "run"
    turns := fun k =>
      { cancelled := false
        msgId := "msg"
        stream := []
        response := .ok
          { parts := if k = 0 then [.toolCall "tc" "bash" .null] else [.text "done"]
            stopReason := .endTurn
            usage := ⟨1, 1⟩ }
        cancelledBeforeTools := cancelled
        execute := fun _ => .ok .null } }

def textOnly : ℕ → Attempt := fun _ =>
  { runId := "run"
    turns := fun _ => ⟨false, "msg", [], .ok ⟨[.text "done"], .endTurn, ⟨1, 1⟩⟩, false,
      fun _ => .ok .null⟩ }

def plainSetup : Setup := ⟨0, ⟨none, false, false, none, 0⟩, fun _ => .error "no schema", []⟩

def crashAfterCall : List Step :=
  [⟨.spawn, "m0", textOnly, true⟩, ⟨.run "go", "m1", callThenText false, true⟩,
    ⟨.progress 0, "m2", textOnly, true⟩, ⟨.crash, "m3", textOnly, true⟩,
    ⟨.spawn, "m4", textOnly, true⟩]

theorem requests_wellFormed_crashAfterCall :
    RequestsWellFormed
      (Machine.final (next plainSetup) Settled Session.new crashAfterCall).requests :=
  requests_wellFormed plainSetup _ (Machine.run_final crashAfterCall (by decide +kernel))
    (by decide +kernel)

def cancelAfterCall : List Step :=
  [⟨.spawn, "m0", textOnly, true⟩, ⟨.run "go", "m1", callThenText true, true⟩,
    ⟨.cancel, "m2", textOnly, true⟩, ⟨.progress 0, "m3", textOnly, true⟩,
    ⟨.finish 0, "m4", textOnly, true⟩, ⟨.run "again", "m5", textOnly, true⟩]

/-- The turn after the cancel sends a call without its result. -/
theorem request_malformed_after_cancel :
    ¬ ∀ (setup : Setup) (s : Session), Machine.Run (next setup) Machine.free Session.new s →
      FreshIds s.answers → RequestsWellFormed s.requests := by
  intro h
  have hrequests := h plainSetup _
    (Machine.run_final cancelAfterCall (by decide +kernel)) (by decide +kernel)
  revert hrequests
  decide +kernel

end October.SessionLifetime
