import October.BoundedMailboxes
import October.SessionLifetime

/-!
One agent actor with the tasks of its runs. A run emits through a synchronous sink into an
unbounded channel; a forwarder tells what arrives there to the actor's bounded mailbox,
one event at a time, and ends once the channel is closed and drained. The run returns, so
that its sink is dropped, awaits the forwarder and only then reports that it finished.
-/
namespace October.StreamedRuns

open AgentActor
open SessionLifetime (Setup)

inductive Forwarder where
  | receiving
  | telling (event : AgentDomainEvent)
  | ended

structure StreamedRun where
  input : AgentInput
  synthetic : Bool
  emitted : List AgentEvent
  toEmit : List AgentEvent
  outcome : RunOutcome
  sinkOpen : Bool
  channel : List AgentDomainEvent
  forwarder : Forwarder
  reported : Bool

inductive Note where
  | persisted (event : AgentDomainEvent)
  | told (report : WorkflowCommand)

/-- `recovered` is what the session's journal folds to when the actor is spawned, `finished`
the number of runs whose report was handled. -/
structure Session where
  setup : Setup
  recovered : AgentState
  actor : AgentActor
  state : AgentState
  mailbox : List AgentCommand
  phase : Phase AgentDomainEvent
  runs : List StreamedRun
  finished : ℕ
  log : List Note

inductive StreamLabel where
  | tell (command : AgentCommand)
  | recover (messageId : String) (attempts : ℕ → Attempt)
  | handle (messageId : String) (attempts : ℕ → Attempt)
  | persist (ok : Bool)
  | emit (run : ℕ)
  | drop (run : ℕ)
  | receive (run : ℕ)
  | forward (run : ℕ)
  | report (run : ℕ)

def external : AgentCommand → Bool
  | .run _ => true
  | .injectToolResult _ _ => true
  | .cancel => true
  | .persistProgress _ => false
  | .runFinished _ => false

def starts : AgentCommand → Bool
  | .run _ => true
  | .injectToolResult _ _ => true
  | _ => false

def reports : AgentCommand → Bool
  | .runFinished _ => true
  | _ => false

namespace StreamedRun

def launched (config : RunConfig) (synthetic : Bool) (input : AgentInput)
    (history : List Message) (attempts : ℕ → Attempt) : StreamedRun :=
  let result := runWithRetries config history input attempts
  ⟨input, synthetic, [], result.emitted, result.outcome, true, [], .receiving, false⟩

/-- The sink sends the coarse image, if the forwarder still holds the other end. -/
def emit (run : StreamedRun) : Option StreamedRun :=
  match run.toEmit with
  | [] => none
  | event :: rest =>
    let sent := match run.forwarder with
      | .ended => []
      | _ => (coarseEvent event).toList
    some { run with
      emitted := run.emitted ++ [event], toEmit := rest, channel := run.channel ++ sent }

def drop (run : StreamedRun) : Option StreamedRun :=
  match run.toEmit, run.sinkOpen with
  | [], true => some { run with sinkOpen := false }
  | _, _ => none

/-- The forwarder takes the next event, or ends when there is none and will be none. -/
def receive (run : StreamedRun) : Option StreamedRun :=
  match run.forwarder, run.channel with
  | .receiving, event :: rest => some { run with channel := rest, forwarder := .telling event }
  | .receiving, [] => if run.sinkOpen then none else some { run with forwarder := .ended }
  | _, _ => none

end StreamedRun

def spawned (setup : Setup) (recovered : AgentState) : Session :=
  ⟨setup, recovered, ⟨setup.sessionId, setup.params, none⟩, initialState, [], .recovering, [], 0,
    []⟩

namespace Session

def push (command : AgentCommand) (s : Session) : Session :=
  { s with mailbox := s.mailbox ++ [command] }

/-- Perform what a handler does besides its effect. That a run sees its token cancelled is
part of the world it was given. -/
def perform (synthetic : Bool) (attempts : ℕ → Attempt) (s : Session) : AgentAction → Session
  | .startRun input history =>
    { s with runs := s.runs ++ [.launched s.setup.config synthetic input history attempts] }
  | .cancelRun _ => s
  | .tellParent report => { s with log := s.log ++ [.told report] }

def recover (messageId : String) (attempts : ℕ → Attempt) (s : Session) : Option Session :=
  match s.phase with
  | .recovering =>
    let reply := s.actor.onRecoveryComplete s.recovered s.runs.length messageId
    some (reply.2.foldl (perform true attempts)
      { s with actor := reply.1, state := s.recovered, phase := .waiting })
  | _ => none

def handle (messageId : String) (attempts : ℕ → Attempt) (s : Session) : Option Session :=
  match s.phase, s.mailbox with
  | .waiting, command :: rest =>
    let reply := s.actor.handleCommand s.state s.runs.length messageId command
    some (reply.2.1.foldl (perform false attempts)
      { s with
        actor := reply.1
        mailbox := rest
        phase := Phase.handled reply.2.2
        finished := s.finished + if reports command then 1 else 0 })
  | _, _ => none

def persist (ok : Bool) (s : Session) : Option Session :=
  match s.phase with
  | .performing effect =>
    let events := if ok then effect.events else []
    some { s with
      state := events.foldl applyEvent s.state
      phase := Phase.called effect
      log := s.log ++ events.map .persisted }
  | _ => none

/-- A tell of the actor waits for space; it fails once the actor stopped. -/
def tells (command : AgentCommand) (s : Session) : Option Session :=
  if s.phase.isStopped then some s
  else if hasSpace s.mailbox then some (s.push command)
  else none

def stepRun (run : ℕ) (step : StreamedRun → Option StreamedRun) (s : Session) : Option Session :=
  (s.runs[run]?.bind step).map (fun r => { s with runs := s.runs.set run r })

/-- The forwarder tells one event and goes on, or ends with what it has yet to tell. -/
def forward (run : ℕ) (s : Session) : Option Session :=
  match s.runs[run]? with
  | none => none
  | some r =>
    match r.forwarder with
    | .telling event =>
      (s.tells (.persistProgress [event])).map (fun t =>
        if s.phase.isStopped then
          { t with runs := s.runs.set run { r with channel := [], forwarder := .ended } }
        else { t with runs := s.runs.set run { r with forwarder := .receiving } })
    | _ => none

def report (run : ℕ) (s : Session) : Option Session :=
  match s.runs[run]? with
  | none => none
  | some r =>
    match r.sinkOpen, r.forwarder, r.reported with
    | false, .ended, false =>
      (s.tells (.runFinished r.outcome)).map (fun t =>
        { t with runs := s.runs.set run { r with reported := true } })
    | _, _, _ => none

end Session

open Session

def next (s : Session) : StreamLabel → Option Session
  | .tell command => if external command then s.tells command else none
  | .recover messageId attempts => s.recover messageId attempts
  | .handle messageId attempts => s.handle messageId attempts
  | .persist ok => s.persist ok
  | .emit run => s.stepRun run StreamedRun.emit
  | .drop run => s.stepRun run StreamedRun.drop
  | .receive run => s.stepRun run StreamedRun.receive
  | .forward run => s.forward run
  | .report run => s.report run

/-- The coarse images of what the run emitted, after its input unless the recovery made that
up, and before the end of a run that was cancelled. -/
def StreamedRun.account (run : StreamedRun) : List AgentDomainEvent :=
  (if run.synthetic then [] else [.inputMessage run.input.toMessage]) ++
    run.emitted.filterMap coarseEvent ++
    match run.reported, run.outcome with
    | true, .cancelled => [.runCancelled]
    | _, _ => []

def isInput : AgentDomainEvent → Bool
  | .inputMessage _ => true
  | _ => false

/-- Whatever a run emits, and however often, its input is accounted for once. -/
theorem StreamedRun.account_inputs (run : StreamedRun) :
    run.account.filter isInput =
      if run.synthetic then [] else [.inputMessage run.input.toMessage] := by
  have himages : ∀ event ∈ run.emitted.filterMap coarseEvent, ¬ isInput event = true := by
    intro event hmem
    obtain ⟨emitted, -, hcoarse⟩ := List.mem_filterMap.mp hmem
    cases emitted <;> cases hcoarse <;> simp [isInput]
  unfold StreamedRun.account
  rw [List.filter_append, List.filter_append, List.filter_eq_nil_iff.mpr himages]
  cases run.synthetic <;> cases run.reported <;> cases run.outcome <;> rfl

def StreamedRun.inHand (run : StreamedRun) : List AgentDomainEvent :=
  match run.forwarder with
  | .telling event => event :: run.channel
  | _ => run.channel

def carries : AgentCommand → List AgentDomainEvent
  | .persistProgress events => events
  | .runFinished .cancelled => [.runCancelled]
  | _ => []

def persisted (log : List Note) : List AgentDomainEvent :=
  log.filterMap (fun note => match note with
    | .persisted event => some event
    | .told _ => none)

def underway (s : Session) : List AgentDomainEvent :=
  s.phase.events ++ s.mailbox.flatMap carries ++ s.runs.flatMap StreamedRun.inHand

def InFlight (s : Session) : Prop := s.finished < s.runs.length

instance (s : Session) : Decidable (InFlight s) :=
  inferInstanceAs (Decidable (s.finished < s.runs.length))

end October.StreamedRuns
