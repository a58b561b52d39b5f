import October.Machine
import October.WorkflowActor

/-!
One workflow actor, the agent actors it spawned and their background runs, over
durable journals. Every actor recovers, takes one command at a time and performs
the effect of a handled command in a later step, so that the other parties and
crashes fall in between. A crash leaves the journals only.
-/
namespace October

inductive Phase (E : Type) where
  | recovering
  | waiting
  | performing (effect : CommandEffect E)
  | stopped

namespace Phase

variable {E : Type}

def handled : CommandEffect E → Phase E
  | .none => .waiting
  | .stop => .stopped
  | .persist events => .performing (.persist events)
  | .persistAndSnapshot events => .performing (.persistAndSnapshot events)
  | .snapshot => .performing .snapshot
  | .persistAndStop events => .performing (.persistAndStop events)

def called : CommandEffect E → Phase E
  | .none => .waiting
  | .stop => .stopped
  | .persist _ => .waiting
  | .persistAndSnapshot _ => .performing .snapshot
  | .snapshot => .waiting
  | .persistAndStop _ => .stopped

def events : Phase E → List E
  | .performing effect => effect.events
  | _ => []

def isStopped : Phase E → Bool
  | .stopped => true
  | _ => false

def isRecovering : Phase E → Bool
  | .recovering => true
  | _ => false

def stopping : Phase E → Bool
  | .stopped => true
  | .performing effect => effect.stops
  | _ => false

@[simp] theorem events_waiting : (waiting : Phase E).events = [] := rfl
@[simp] theorem events_recovering : (recovering : Phase E).events = [] := rfl
@[simp] theorem events_stopped : (stopped : Phase E).events = [] := rfl
@[simp] theorem events_performing (effect : CommandEffect E) :
    (performing effect).events = effect.events := rfl

@[simp] theorem isRecovering_handled (effect : CommandEffect E) :
    (handled effect).isRecovering = false := by
  cases effect <;> rfl

@[simp] theorem isRecovering_called (effect : CommandEffect E) :
    (called effect).isRecovering = false := by
  cases effect <;> rfl

@[simp] theorem events_handled (effect : CommandEffect E) :
    (handled effect).events = effect.events := by
  cases effect <;> rfl

@[simp] theorem stopping_handled (effect : CommandEffect E) :
    (handled effect).stopping = effect.stops := by
  cases effect <;> rfl

@[simp] theorem stopping_called (effect : CommandEffect E) :
    (called effect).stopping = effect.stops := by
  cases effect <;> rfl

@[simp] theorem events_called (effect : CommandEffect E) : (called effect).events = [] := by
  cases effect <;> rfl

end Phase

structure WorkflowProc where
  state : WorkflowState
  child : Option ActorRef
  mailbox : List WorkflowCommand
  phase : Phase WorkflowDomainEvent

structure AgentProc where
  actor : AgentActor
  state : AgentState
  mailbox : List AgentCommand
  phase : Phase AgentDomainEvent

structure RunTask where
  agent : ActorRef
  session : Uuid
  input : AgentInput
  history : List Message
  cancelled : Bool
  finished : Bool

/-- The journal of one agent session: a copied conversation, if it was forked, the
events persisted since and the latest snapshot. Recovery folds all of them, whether
the log was compacted or not. -/
structure SessionLog where
  base : AgentState
  events : List AgentDomainEvent
  snapshot : Option AgentState

def SessionLog.empty : SessionLog := ⟨AgentActor.initialState, [], none⟩

def SessionLog.state (log : SessionLog) : AgentState :=
  log.events.foldl AgentActor.applyEvent log.base

/-- The journal backends: the file journal keeps no snapshots. -/
inductive Backend where
  | inMemory
  | file
  deriving DecidableEq, Repr

structure Config where
  workflow : Workflow
  backend : Backend
  notifyCapacity : ℕ

/-- The first three fields are durable; `nextSession` is the next UUID to be drawn. -/
structure System where
  workflowLog : List WorkflowDomainEvent
  sessions : Uuid → SessionLog
  nextSession : Uuid
  workflow : Option WorkflowProc
  agents : List AgentProc
  runs : List RunTask
  channel : List WorkflowNotification

def WorkflowProc.tell (command : WorkflowCommand) (wf : WorkflowProc) : WorkflowProc :=
  if wf.phase.isStopped then wf else { wf with mailbox := wf.mailbox ++ [command] }

def AgentProc.tell (command : AgentCommand) (p : AgentProc) : AgentProc :=
  if p.phase.isStopped then p else { p with mailbox := p.mailbox ++ [command] }

def AgentProc.spawned (d : WorkflowAgentDef) (sessionId : Uuid) : AgentProc :=
  ⟨⟨sessionId, AgentParams.fromDef d, none⟩, AgentActor.initialState, [], .recovering⟩

namespace WorkflowProc

variable (command : WorkflowCommand) (wf : WorkflowProc)

@[simp] theorem tell_state : (wf.tell command).state = wf.state := by
  unfold tell
  split <;> rfl

@[simp] theorem tell_child : (wf.tell command).child = wf.child := by
  unfold tell
  split <;> rfl

@[simp] theorem tell_phase : (wf.tell command).phase = wf.phase := by
  unfold tell
  split <;> rfl

theorem mem_tell {c : WorkflowCommand} (h : c ∈ (wf.tell command).mailbox) :
    c ∈ wf.mailbox ∨ c = command := by
  unfold tell at h
  split at h
  · exact Or.inl h
  · simpa using h

end WorkflowProc

namespace AgentProc

variable (command : AgentCommand) (p : AgentProc)

@[simp] theorem tell_actor : (p.tell command).actor = p.actor := by
  unfold tell
  split <;> rfl

@[simp] theorem tell_state : (p.tell command).state = p.state := by
  unfold tell
  split <;> rfl

@[simp] theorem tell_phase : (p.tell command).phase = p.phase := by
  unfold tell
  split <;> rfl

end AgentProc

/-- Copy the latest snapshot; the file journal accepts the call and copies nothing. -/
def copySnapshot (backend : Backend) (source target : Uuid) (sessions : Uuid → SessionLog) :
    JournalResult Unit × (Uuid → SessionLog) :=
  match backend, (sessions source).snapshot with
  | .file, _ => (.ok (), sessions)
  | .inMemory, none =>
    (.error (.backend
      ("no snapshot for '" ++ (PersistenceId.mk "agent" (toString source)).display ++ "'")),
      sessions)
  | .inMemory, some state =>
    (.ok (), Function.update sessions target ⟨state, [], some state⟩)

namespace System

def init : System := ⟨[], fun _ => SessionLog.empty, 0, none, [], [], []⟩

def tellWorkflow (command : WorkflowCommand) (s : System) : System :=
  { s with workflow := s.workflow.map (WorkflowProc.tell command) }

def tellAgent (ref : ActorRef) (command : AgentCommand) (s : System) : System :=
  { s with agents := s.agents.modify ref (AgentProc.tell command) }

def spawnAgent (d : WorkflowAgentDef) (sessionId : Uuid) (s : System) : System :=
  { s with agents := s.agents ++ [AgentProc.spawned d sessionId] }

/-- A full channel drops the notification. -/
def notify (cfg : Config) (n : WorkflowNotification) (s : System) : System :=
  if s.channel.length < cfg.notifyCapacity then { s with channel := s.channel ++ [n] } else s

def fresh (cfg : Config) (s : System) (command : WorkflowCommand) : Fresh where
  sessionId := s.nextSession
  ref := s.agents.length
  copied := match command with
    | .fork source _ => (copySnapshot cfg.backend source s.nextSession s.sessions).1
    | _ => .ok ()

def copies (cfg : Config) (copied : Option (Uuid × Uuid)) (s : System) : System :=
  match copied with
  | none => s
  | some (source, target) =>
    { s with sessions := (copySnapshot cfg.backend source target s.sessions).2 }

def spawns (spawned : Option (WorkflowAgentDef × Uuid)) (s : System) : System :=
  match spawned with
  | none => s
  | some (d, sessionId) => s.spawnAgent d sessionId

def tells (told : Option (ActorRef × AgentCommand)) (s : System) : System :=
  match told with
  | none => s
  | some (ref, command) => s.tellAgent ref command

def notifies (cfg : Config) (notified : Option WorkflowNotification) (s : System) : System :=
  match notified with
  | none => s
  | some n => s.notify cfg n

def replied (cfg : Config) (reply : Reply) (s : System) : System :=
  (((s.copies cfg reply.copied).spawns reply.spawned).tells reply.told).notifies cfg
    reply.notified

section Replied

variable (cfg : Config) (s : System)

@[simp] theorem notifies_eq (notified : Option WorkflowNotification) :
    ∃ channel, s.notifies cfg notified = { s with channel := channel } := by
  unfold notifies
  split
  · exact ⟨s.channel, rfl⟩
  · unfold notify
    split
    · exact ⟨_, rfl⟩
    · exact ⟨s.channel, rfl⟩

def repliedAgents (reply : Reply) (agents : List AgentProc) : List AgentProc :=
  let spawned := agents ++ (reply.spawned.map (fun p => AgentProc.spawned p.1 p.2)).toList
  match reply.told with
  | none => spawned
  | some (ref, command) => spawned.modify ref (AgentProc.tell command)

/-- A handler's reply touches the copied session, the agents and the channel only. -/
theorem replied_eq (reply : Reply) :
    ∃ channel, s.replied cfg reply =
      { s with
        sessions := (s.copies cfg reply.copied).sessions
        agents := repliedAgents reply s.agents
        channel := channel } := by
  obtain ⟨channel, hchannel⟩ := notifies_eq cfg
    (((s.copies cfg reply.copied).spawns reply.spawned).tells reply.told) reply.notified
  refine ⟨channel, ?_⟩
  rw [replied, hchannel]
  unfold repliedAgents copies spawns tells
  cases reply.copied <;> cases reply.spawned <;> cases reply.told <;>
    simp [spawnAgent, tellAgent]

end Replied

def launch (kickoff : Option WorkflowCommand) (s : System) : Option System :=
  match s.workflow with
  | some _ => none
  | none =>
    some { s with
      workflow := some ⟨WorkflowActor.initialState, none, kickoff.toList, .recovering⟩ }

def workflowRecover (cfg : Config) (s : System) : Option System :=
  match s.workflow with
  | none => none
  | some wf =>
    match wf.phase with
    | .recovering =>
      let state := WorkflowActor.fold s.workflowLog
      let spawned := WorkflowActor.onRecoveryComplete cfg.workflow state
      some { s.spawns spawned with
        workflow := some { wf with
          state := state
          child := spawned.map (fun _ => s.agents.length)
          phase := .waiting } }
    | _ => none

def workflowHandle (cfg : Config) (s : System) : Option System :=
  match s.workflow with
  | none => none
  | some wf =>
    match wf.phase, wf.mailbox with
    | .waiting, command :: rest =>
      let reply := WorkflowActor.handleCommand cfg.workflow (s.fresh cfg command) wf.child
        wf.state command
      some { s.replied cfg reply with
        nextSession := s.nextSession + 1
        workflow := some { wf with
          child := reply.child, mailbox := rest, phase := Phase.handled reply.effect } }
    | _, _ => none

/-- One journal call of the workflow actor; if it fails nothing is stored or folded. -/
def workflowPersist (ok : Bool) (s : System) : Option System :=
  match s.workflow with
  | none => none
  | some wf =>
    match wf.phase with
    | .performing effect =>
      let events := if ok then effect.events else []
      some { s with
        workflowLog := s.workflowLog ++ events
        workflow := some { wf with
          state := events.foldl WorkflowActor.applyEvent wf.state
          phase := Phase.called effect } }
    | _ => none

def performAgent (ref : ActorRef) (sessionId : Uuid) (s : System) : AgentAction → System
  | .startRun input history =>
    { s with runs := s.runs ++ [⟨ref, sessionId, input, history, false, false⟩] }
  | .cancelRun run => { s with runs := s.runs.modify run (fun r => { r with cancelled := true }) }
  | .tellParent command => s.tellWorkflow command

def agentRecover (ref : ActorRef) (messageId : String) (s : System) : Option System :=
  match s.agents[ref]? with
  | none => none
  | some p =>
    match p.phase with
    | .recovering =>
      let state := (s.sessions p.actor.sessionId).state
      let recovered := p.actor.onRecoveryComplete state s.runs.length messageId
      let waiting : AgentProc := { p with actor := recovered.1, state := state, phase := .waiting }
      some (recovered.2.foldl (performAgent ref p.actor.sessionId)
        { s with agents := s.agents.set ref waiting })
    | _ => none

def agentHandle (ref : ActorRef) (messageId : String) (s : System) : Option System :=
  match s.agents[ref]? with
  | none => none
  | some p =>
    match p.phase, p.mailbox with
    | .waiting, command :: rest =>
      let reply := p.actor.handleCommand p.state s.runs.length messageId command
      let handled : AgentProc :=
        { p with actor := reply.1, mailbox := rest, phase := Phase.handled reply.2.2 }
      some (reply.2.1.foldl (performAgent ref p.actor.sessionId)
        { s with agents := s.agents.set ref handled })
    | _, _ => none

def journalCall (backend : Backend) (ok : Bool) (effect : CommandEffect AgentDomainEvent)
    (state : AgentState) (log : SessionLog) : SessionLog :=
  match ok, effect with
  | false, _ => log
  | true, .snapshot =>
    match backend with
    | .inMemory => { log with snapshot := some state }
    | .file => log
  | true, effect => { log with events := log.events ++ effect.events }

/-- One journal call of an agent actor; if it fails nothing is stored or folded. -/
def agentPersist (cfg : Config) (ref : ActorRef) (ok : Bool) (s : System) : Option System :=
  match s.agents[ref]? with
  | none => none
  | some p =>
    match p.phase with
    | .performing effect =>
      let events := if ok then effect.events else []
      some { s with
        sessions := Function.update s.sessions p.actor.sessionId
          (journalCall cfg.backend ok effect p.state (s.sessions p.actor.sessionId))
        agents := s.agents.set ref
          { p with
            state := events.foldl AgentActor.applyEvent p.state
            phase := Phase.called effect } }
    | _ => none

def streamed : AgentDomainEvent → Bool
  | .messageComplete _ => true
  | .toolComplete _ _ _ => true
  | .runComplete _ _ => true
  | .inputMessage _ => false
  | .runCancelled => false

def runProgress (run : ℕ) (event : AgentDomainEvent) (s : System) : Option System :=
  match s.runs[run]? with
  | none => none
  | some task =>
    if task.finished = false ∧ streamed event = true then
      some (s.tellAgent task.agent (.persistProgress [event]))
    else none

/-- A run ends cancelled only if its token was cancelled. -/
def possible (task : RunTask) : RunOutcome → Bool
  | .cancelled => task.cancelled
  | _ => true

def runFinish (run : ℕ) (outcome : RunOutcome) (s : System) : Option System :=
  match s.runs[run]? with
  | none => none
  | some task =>
    if task.finished = false ∧ possible task outcome = true then
      some (({ s with runs := s.runs.set run { task with finished := true } }).tellAgent
        task.agent (.runFinished outcome))
    else none

/-- The process dies: what is left are the journals. -/
def crash (s : System) : System :=
  { s with workflow := none, agents := [], runs := [], channel := [] }

end System

def operator : WorkflowCommand → Bool
  | .start _ => true
  | .cancel => true
  | .resume _ => true
  | .fork _ _ => true
  | .agentConcluded _ _ => false
  | .agentAsked _ _ _ => false
  | .agentFailed _ _ _ => false

inductive Label where
  | launch (kickoff : Option WorkflowCommand)
  | deliver (command : WorkflowCommand)
  | workflowRecover
  | workflowHandle
  | workflowPersist (ok : Bool)
  | agentRecover (ref : ActorRef) (messageId : String)
  | agentHandle (ref : ActorRef) (messageId : String)
  | agentPersist (ref : ActorRef) (ok : Bool)
  | runProgress (run : ℕ) (event : AgentDomainEvent)
  | runFinish (run : ℕ) (outcome : RunOutcome)
  | drain
  | crash

def next (cfg : Config) (s : System) : Label → Option System
  | .launch kickoff => if kickoff.all operator then s.launch kickoff else none
  | .deliver command => if operator command then some (s.tellWorkflow command) else none
  | .workflowRecover => s.workflowRecover cfg
  | .workflowHandle => s.workflowHandle cfg
  | .workflowPersist ok => s.workflowPersist ok
  | .agentRecover ref messageId => s.agentRecover ref messageId
  | .agentHandle ref messageId => s.agentHandle ref messageId
  | .agentPersist ref ok => s.agentPersist cfg ref ok
  | .runProgress run event => s.runProgress run event
  | .runFinish run outcome => s.runFinish run outcome
  | .drain => some { s with channel := s.channel.tail }
  | .crash => some s.crash

def nextCommand (s : System) : Option WorkflowCommand :=
  s.workflow.bind (fun wf => wf.mailbox.head?)

def taken (s : System) : Label → Option (WorkflowProc × WorkflowCommand)
  | .workflowHandle =>
    s.workflow.bind (fun wf => wf.mailbox.head?.map (fun command => (wf, command)))
  | _ => none

/-- The guard that the workflow actor takes only commands that meet `ok`. -/
def HandlesOnly (ok : WorkflowProc → WorkflowCommand → Bool) (s : System) (l : Label) : Prop :=
  (taken s l).all (fun t => ok t.1 t.2) = true

instance (ok : WorkflowProc → WorkflowCommand → Bool) (s : System) (l : Label) :
    Decidable (HandlesOnly ok s l) := inferInstanceAs (Decidable (_ = true))

theorem HandlesOnly.meets {ok : WorkflowProc → WorkflowCommand → Bool} {s : System}
    (h : HandlesOnly ok s .workflowHandle) {wf : WorkflowProc} {command : WorkflowCommand}
    {rest : List WorkflowCommand} (hwf : s.workflow = some wf)
    (hmailbox : wf.mailbox = command :: rest) : ok wf command = true := by
  simpa [HandlesOnly, taken, hwf, hmailbox] using h

def solo (backend : Backend) : Config where
  workflow :=
    { definition := ⟨"solo", [⟨"solo", none, "model", none, false, none, none, none, none⟩]⟩
      hasProvider := fun _ => true
      evalCondition := fun _ _ => .ok .null }
  backend := backend
  notifyCapacity := 256

def soloRunning : List Label :=
  [.launch (some (.start "go")), .workflowRecover, .workflowHandle, .workflowPersist true,
    .agentRecover 0 "m0", .agentHandle 0 "m1", .agentPersist 0 true]

end October
