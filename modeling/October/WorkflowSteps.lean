import October.WorkflowSystem

/-!
What each step of the workflow system can come to, said once. The later modules
derive their invariants from these cases and unfold no step function.
-/
namespace October

open AgentActor

def System.answered (cfg : Config) (wf : WorkflowProc) (rest : List WorkflowCommand)
    (reply : Reply) (channel : List WorkflowNotification) (s : System) : System :=
  { s with
    sessions := (s.copies cfg reply.copied).sessions
    nextSession := s.nextSession + 1
    workflow := some { wf with
      child := reply.child, mailbox := rest, phase := Phase.handled reply.effect }
    agents := System.repliedAgents reply s.agents
    channel := channel }

section Answered

variable (cfg : Config) (wf : WorkflowProc) (rest : List WorkflowCommand) (reply : Reply)
  (channel : List WorkflowNotification) (s : System)

@[simp] theorem System.answered_sessions :
    (s.answered cfg wf rest reply channel).sessions = (s.copies cfg reply.copied).sessions := rfl
@[simp] theorem System.answered_agents :
    (s.answered cfg wf rest reply channel).agents = System.repliedAgents reply s.agents := rfl

end Answered

def System.setAgent (ref : ActorRef) (p : AgentProc) (s : System) : System :=
  { s with agents := s.agents.set ref p }

def System.addRun (task : RunTask) (s : System) : System := { s with runs := s.runs ++ [task] }

inductive Step (cfg : Config) (s : System) : Label → System → Prop
  | launched (kickoff : Option WorkflowCommand) :
      (∀ c ∈ kickoff.toList, operator c = true) → s.workflow = none →
      Step cfg s (.launch kickoff)
        { s with workflow := some ⟨WorkflowActor.initialState, none, kickoff.toList, .recovering⟩ }
  | delivered (command : WorkflowCommand) :
      operator command = true → Step cfg s (.deliver command) (s.tellWorkflow command)
  | recovered (wf : WorkflowProc) (spawned : Option (WorkflowAgentDef × Uuid)) :
      s.workflow = some wf → wf.phase = .recovering →
      spawned = WorkflowActor.onRecoveryComplete cfg.workflow (WorkflowActor.fold s.workflowLog) →
      Step cfg s .workflowRecover
        { s.spawns spawned with
          workflow := some { wf with
            state := WorkflowActor.fold s.workflowLog
            child := spawned.map (fun _ => s.agents.length)
            phase := .waiting } }
  | handled (wf : WorkflowProc) (command : WorkflowCommand) (rest : List WorkflowCommand)
      (reply : Reply) (channel : List WorkflowNotification) :
      s.workflow = some wf → wf.phase = .waiting → wf.mailbox = command :: rest →
      reply = WorkflowActor.handleCommand cfg.workflow (s.fresh cfg command) wf.child wf.state
        command →
      Step cfg s .workflowHandle (s.answered cfg wf rest reply channel)
  | persisted (wf : WorkflowProc) (effect : CommandEffect WorkflowDomainEvent)
      (events : List WorkflowDomainEvent) (ok : Bool) :
      s.workflow = some wf → wf.phase = .performing effect →
      events = (if ok then effect.events else []) →
      Step cfg s (.workflowPersist ok)
        { s with
          workflowLog := s.workflowLog ++ events
          workflow := some { wf with
            state := events.foldl WorkflowActor.applyEvent wf.state
            phase := Phase.called effect } }
  | agentIdle (ref : ActorRef) (messageId : String) (p : AgentProc) :
      s.agents[ref]? = some p → p.phase = .recovering →
      (s.sessions p.actor.sessionId).state.messages = [] →
      Step cfg s (.agentRecover ref messageId)
        (s.setAgent ref
          { p with state := (s.sessions p.actor.sessionId).state, phase := .waiting })
  | agentRedriven (ref : ActorRef) (messageId : String) (p : AgentProc) :
      s.agents[ref]? = some p → p.phase = .recovering →
      (s.sessions p.actor.sessionId).state.messages ≠ [] →
      Step cfg s (.agentRecover ref messageId)
        ((s.setAgent ref
          { p with
            actor := { p.actor with running := some s.runs.length }
            state := (s.sessions p.actor.sessionId).state
            phase := .waiting }).addRun
          ⟨ref, p.actor.sessionId, .userMessage messageId "continue the interrupted task",
            sanitizeForResume (s.sessions p.actor.sessionId).state.messages, false, false⟩)
  | agentRan (ref : ActorRef) (messageId : String) (p : AgentProc) (command : AgentCommand)
      (rest : List AgentCommand) (input : AgentInput) :
      s.agents[ref]? = some p → p.phase = .waiting → p.mailbox = command :: rest →
      startsRun messageId command = some input →
      Step cfg s (.agentHandle ref messageId)
        ((s.setAgent ref
          { p with
            actor := { p.actor with running := some s.runs.length }
            mailbox := rest
            phase := .performing (.persist [.inputMessage input.toMessage]) }).addRun
          ⟨ref, p.actor.sessionId, input, p.state.messages, false, false⟩)
  | agentNoted (ref : ActorRef) (messageId : String) (p : AgentProc)
      (events : List AgentDomainEvent) (rest : List AgentCommand) :
      s.agents[ref]? = some p → p.phase = .waiting → p.mailbox = .persistProgress events :: rest →
      Step cfg s (.agentHandle ref messageId)
        (s.setAgent ref { p with mailbox := rest, phase := .performing (.persist events) })
  | agentCancelled (ref : ActorRef) (messageId : String) (p : AgentProc)
      (rest : List AgentCommand) (runs : List RunTask) :
      s.agents[ref]? = some p → p.phase = .waiting → p.mailbox = .cancel :: rest →
      runs = (p.actor.running.map (fun run =>
        s.runs.modify run (fun r => { r with cancelled := true }))).getD s.runs →
      Step cfg s (.agentHandle ref messageId)
        { s.setAgent ref { p with mailbox := rest, phase := .waiting } with runs := runs }
  | agentEnded (ref : ActorRef) (messageId : String) (p : AgentProc) (rest : List AgentCommand) :
      s.agents[ref]? = some p → p.phase = .waiting →
      p.mailbox = .runFinished .cancelled :: rest →
      Step cfg s (.agentHandle ref messageId)
        (s.setAgent ref
          { p with
            actor := { p.actor with running := none }
            mailbox := rest
            phase := .performing (.persistAndSnapshot [.runCancelled]) })
  | agentReported (ref : ActorRef) (messageId : String) (p : AgentProc) (outcome : RunOutcome)
      (rest : List AgentCommand) (report : WorkflowCommand) :
      s.agents[ref]? = some p → p.phase = .waiting → p.mailbox = .runFinished outcome :: rest →
      report.reports = some p.actor.sessionId → report.isFinal = true →
      Step cfg s (.agentHandle ref messageId)
        ((s.setAgent ref
          { p with
            actor := { p.actor with running := none }
            mailbox := rest
            phase := .stopped }).tellWorkflow report)
  | agentAsked (ref : ActorRef) (messageId : String) (p : AgentProc) (outcome : RunOutcome)
      (rest : List AgentCommand) (toolCallId : Option String) (question : String) :
      s.agents[ref]? = some p → p.phase = .waiting → p.mailbox = .runFinished outcome :: rest →
      Step cfg s (.agentHandle ref messageId)
        ((s.setAgent ref
          { p with
            actor := { p.actor with running := none }
            mailbox := rest
            phase := .performing .snapshot }).tellWorkflow
          (.agentAsked p.actor.sessionId toolCallId question))
  | agentCalled (ref : ActorRef) (ok : Bool) (p : AgentProc)
      (effect : CommandEffect AgentDomainEvent) (events : List AgentDomainEvent) :
      s.agents[ref]? = some p → p.phase = .performing effect →
      events = (if ok then effect.events else []) →
      Step cfg s (.agentPersist ref ok)
        { s.setAgent ref
            { p with
              state := events.foldl AgentActor.applyEvent p.state
              phase := Phase.called effect } with
          sessions := Function.update s.sessions p.actor.sessionId
            (System.journalCall cfg.backend ok effect p.state
              (s.sessions p.actor.sessionId)) }
  | runStreamed (run : ℕ) (event : AgentDomainEvent) (task : RunTask) :
      s.runs[run]? = some task → task.finished = false → System.streamed event = true →
      Step cfg s (.runProgress run event) (s.tellAgent task.agent (.persistProgress [event]))
  | runEnded (run : ℕ) (outcome : RunOutcome) (task : RunTask) :
      s.runs[run]? = some task → task.finished = false →
      Step cfg s (.runFinish run outcome)
        (({ s with runs := s.runs.set run { task with finished := true } }).tellAgent
          task.agent (.runFinished outcome))
  | drained : Step cfg s .drain { s with channel := s.channel.tail }
  | crashed : Step cfg s .crash s.crash

variable {cfg : Config} {s t : System}

theorem launch_step {kickoff : Option WorkflowCommand}
    (h : next cfg s (.launch kickoff) = some t) : Step cfg s (.launch kickoff) t := by
  simp only [next, System.launch] at h
  split at h
  · rename_i hop
    split at h
    · contradiction
    · rename_i hnone
      cases Option.some.inj h
      refine Step.launched kickoff ?_ hnone
      cases kickoff with
      | none => simp
      | some c => simpa using hop
  · contradiction

theorem workflowRecover_step (h : next cfg s .workflowRecover = some t) :
    Step cfg s .workflowRecover t := by
  simp only [next, System.workflowRecover] at h
  split at h
  · contradiction
  · rename_i wf hwf
    split at h
    · rename_i hphase
      cases Option.some.inj h
      exact Step.recovered wf _ hwf hphase rfl
    · contradiction

theorem workflowHandle_step (h : next cfg s .workflowHandle = some t) :
    Step cfg s .workflowHandle t := by
  simp only [next, System.workflowHandle] at h
  split at h
  · contradiction
  · rename_i wf hwf
    split at h
    · rename_i command rest hphase hmailbox
      obtain ⟨channel, hreply⟩ := System.replied_eq cfg s
        (WorkflowActor.handleCommand cfg.workflow (s.fresh cfg command) wf.child wf.state command)
      rw [hreply] at h
      cases Option.some.inj h
      exact Step.handled wf command rest _ channel hwf hphase hmailbox rfl
    · contradiction

theorem workflowPersist_step {ok : Bool} (h : next cfg s (.workflowPersist ok) = some t) :
    Step cfg s (.workflowPersist ok) t := by
  simp only [next, System.workflowPersist] at h
  split at h
  · contradiction
  · rename_i wf hwf
    split at h
    · rename_i effect hphase
      cases Option.some.inj h
      exact Step.persisted wf effect _ ok hwf hphase rfl
    · contradiction

theorem agentRecover_step {ref : ActorRef} {messageId : String}
    (h : next cfg s (.agentRecover ref messageId) = some t) :
    Step cfg s (.agentRecover ref messageId) t := by
  simp only [next, System.agentRecover] at h
  split at h
  · contradiction
  · rename_i p hp
    split at h
    · rename_i hphase
      unfold AgentActor.onRecoveryComplete at h
      split at h
      · rename_i hmessages
        cases Option.some.inj h
        exact Step.agentIdle ref messageId p hp hphase hmessages
      · rename_i hmessages
        cases Option.some.inj h
        exact Step.agentRedriven ref messageId p hp hphase (by simp [hmessages])
    · contradiction

theorem agentHandle_step {ref : ActorRef} {messageId : String}
    (h : next cfg s (.agentHandle ref messageId) = some t) :
    Step cfg s (.agentHandle ref messageId) t := by
  simp only [next, System.agentHandle] at h
  split at h
  · contradiction
  · rename_i p hp
    split at h
    · rename_i command rest hphase hmailbox
      have hhandled := handleCommand_handled p.actor p.state s.runs.length messageId command
      revert h
      generalize p.actor.handleCommand p.state s.runs.length messageId command = reply at hhandled
      intro h
      cases hhandled with
      | started command input hinput =>
        cases Option.some.inj h
        exact Step.agentRan ref messageId p command rest input hp hphase hmailbox hinput
      | progressed events =>
        cases Option.some.inj h
        exact Step.agentNoted ref messageId p events rest hp hphase hmailbox
      | cancelled =>
        have hstep : Step cfg s (.agentHandle ref messageId) _ :=
          Step.agentCancelled ref messageId p rest _ hp hphase hmailbox rfl
        cases hrunning : p.actor.running with
        | none =>
          rw [hrunning] at h hstep
          cases Option.some.inj h
          exact hstep
        | some run =>
          rw [hrunning] at h hstep
          cases Option.some.inj h
          exact hstep
      | ended =>
        cases Option.some.inj h
        exact Step.agentEnded ref messageId p rest hp hphase hmailbox
      | reported outcome report hreports hfinal =>
        cases Option.some.inj h
        exact Step.agentReported ref messageId p outcome rest report hp hphase hmailbox hreports
          hfinal
      | asked outcome toolCallId question =>
        cases Option.some.inj h
        exact Step.agentAsked ref messageId p outcome rest toolCallId question hp hphase hmailbox
    · contradiction

theorem agentPersist_step {ref : ActorRef} {ok : Bool}
    (h : next cfg s (.agentPersist ref ok) = some t) : Step cfg s (.agentPersist ref ok) t := by
  simp only [next, System.agentPersist] at h
  split at h
  · contradiction
  · rename_i p hp
    split at h
    · rename_i effect hphase
      cases Option.some.inj h
      exact Step.agentCalled ref ok p effect _ hp hphase rfl
    · contradiction

theorem runProgress_step {run : ℕ} {event : AgentDomainEvent}
    (h : next cfg s (.runProgress run event) = some t) :
    Step cfg s (.runProgress run event) t := by
  simp only [next, System.runProgress] at h
  split at h
  · contradiction
  · rename_i task htask
    split at h
    · rename_i hlive
      cases Option.some.inj h
      exact Step.runStreamed run event task htask hlive.1 hlive.2
    · contradiction

theorem runFinish_step {run : ℕ} {outcome : RunOutcome}
    (h : next cfg s (.runFinish run outcome) = some t) :
    Step cfg s (.runFinish run outcome) t := by
  simp only [next, System.runFinish] at h
  split at h
  · contradiction
  · rename_i task htask
    split at h
    · rename_i hlive
      cases Option.some.inj h
      exact Step.runEnded run outcome task htask hlive.1
    · contradiction

theorem next_step {l : Label} (h : next cfg s l = some t) : Step cfg s l t := by
  cases l with
  | launch kickoff => exact launch_step h
  | deliver command =>
    simp only [next] at h
    split at h
    · rename_i hop
      cases Option.some.inj h
      exact Step.delivered command hop
    · contradiction
  | workflowRecover => exact workflowRecover_step h
  | workflowHandle => exact workflowHandle_step h
  | workflowPersist ok => exact workflowPersist_step h
  | agentRecover ref messageId => exact agentRecover_step h
  | agentHandle ref messageId => exact agentHandle_step h
  | agentPersist ref ok => exact agentPersist_step h
  | runProgress run event => exact runProgress_step h
  | runFinish run outcome => exact runFinish_step h
  | drain =>
    cases Option.some.inj h
    exact Step.drained
  | crash =>
    cases Option.some.inj h
    exact Step.crashed

end October
