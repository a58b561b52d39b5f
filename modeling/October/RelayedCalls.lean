import October.RelayTransport

/-!
A relayed tool call and the message that will answer it. As long as the link is up, an
invoke that receives either has its result in its channel or the result is coming: its
command is queued or dispatched, its task runs, or its event is on the way to the channel.
This breaks where the executor fails the command, since an invoke passes over the event
that says so, and where the reader ends, since it leaves the senders in the map.
-/
namespace October.RelayedCalls

open Relay

def Asks (callId : String) (msg : RelayedInbound) : Prop :=
  ∃ runtimeId call, msg.command = .toolCall runtimeId call ∧ call.callId = callId

def Brings (callId : String) (msg : RelayedOutbound) : Prop :=
  msg.requestId = callId ∧ (resultFor callId msg.event).isSome = true

inductive Coming (s : Relay) (i : ℕ) (callId : String) : Prop
  | queued {msg : RelayedInbound} (h : msg ∈ s.toExecutor) (hasks : Asks callId msg)
  | dispatched {msg : RelayedInbound} (h : s.dispatching = .running msg) (hasks : Asks callId msg)
  | running {task : ToolTask} (h : task ∈ s.tools) (htask : task.callId = callId)
  | posted {msg : RelayedOutbound} (h : msg ∈ s.toClient) (hbrings : Brings callId msg)
  | routing {msg : RelayedOutbound} (h : s.reader = .routing msg) (hbrings : Brings callId msg)
  | delivering {event : RelayedEvent} (h : s.reader = .delivering (some i) event)
      (hresult : (resultFor callId event).isSome = true)

structure Awaits (s : Relay) (i : ℕ) (c : RelayedCall) : Prop where
  call : s.calls[i]? = some c
  receiving : c.phase = .receiving
  entry : s.pending.lookup c.callId = some (some i)

def Resolved (c : RelayedCall) : Prop := ∃ e ∈ c.inbox, (resultFor c.callId e).isSome = true

/-- Every invoke that awaits its result has it or, while the link is up, will have it. -/
def Inv (s : Relay) : Prop :=
  ∀ i c, Awaits s i c →
    Resolved c ∨ (s.reader ≠ .ended ∧ (s.linkOpen = true → Coming s i c.callId))

def Waits (s : Relay) (i : ℕ) : Prop := ∃ c, Awaits s i c ∧ c.inbox = []

structure Delivered (s : Relay) : Prop where
  link : s.linkOpen = true
  commands : s.toExecutor = []
  events : s.toClient = []
  executor : s.dispatching = .idle
  tools : s.tools = []
  reader : s.reader = .reading ∨ s.reader = .ended

/-- All messages have been delivered, or the link is closed and its reader ended. -/
def Quiet (s : Relay) : Prop := Delivered s ∨ (s.linkOpen = false ∧ s.reader = .ended)

inductive Step (s : Relay) : RelayLabel → Relay → Prop
  | invoke {runtimeId callId : String} {call : Value} :
      Step s (.invoke runtimeId callId call)
        { s with calls := s.calls ++ [⟨runtimeId, callId, call, .inserting, []⟩] }
  | insert {i : ℕ} {c : RelayedCall} (h : s.calls[i]? = some c) :
      Step s (.insert i) { s.setCall i { c with phase := .sending } with
        pending := s.pending.insert c.callId (some i) }
  | sent {i : ℕ} {c : RelayedCall} (h : s.calls[i]? = some c) :
      Step s (.send i .sent)
        ((s.sendInbound ⟨c.callId, .toolCall c.runtimeId ⟨c.callId, c.call⟩⟩).setCall i
          { c with phase := .receiving })
  | unsent {i : ℕ} {outcome : SendOutcome} {c : RelayedCall} (hphase : c.phase ≠ .receiving) :
      Step s (.send i outcome) (s.setCall i c)
  | receive {i : ℕ} {c c' : RelayedCall} (h : s.calls[i]? = some c)
      (hphase : c.phase = .receiving) (hreceive : s.receive i c = some c') :
      Step s (.receive i) (s.setCall i c')
  | finish {i : ℕ} {c : RelayedCall} (callId : String) (hphase : c.phase ≠ .receiving) :
      Step s (.finish i) { s.setCall i c with pending := s.pending.erase callId }
  | request {requestId : String} :
      Step s (.request requestId) { s with pending := s.pending.insert requestId none }
  | forward {msg : RelayedInbound} : Step s (.forward msg) (s.sendInbound msg)
  | skip {requestId executorId : String} {rest : List RelayedOutbound}
      (hreader : s.reader = .reading)
      (h : s.toClient = ⟨requestId, .registered executorId⟩ :: rest) :
      Step s .read { s with reader := .reading, toClient := rest }
  | read {msg : RelayedOutbound} {rest : List RelayedOutbound} (hreader : s.reader = .reading)
      (h : s.toClient = msg :: rest) :
      Step s .read { s with reader := .routing msg, toClient := rest }
  | readerEnds : Step s .readerEnds { s with reader := .ended }
  | route {msg : RelayedOutbound} {owner : Option ℕ} (hreader : s.reader = .routing msg)
      (h : s.pending.lookup msg.requestId = some owner) :
      Step s .route { s with reader := .delivering owner msg.event }
  | unrouted {msg : RelayedOutbound} (hreader : s.reader = .routing msg)
      (h : s.pending.lookup msg.requestId = none) : Step s .route { s with reader := .reading }
  | deliver {i : ℕ} {event : RelayedEvent} {c : RelayedCall}
      (hreader : s.reader = .delivering (some i) event) (h : s.calls[i]? = some c) :
      Step s .deliver
        { s.setCall i { c with inbox := c.inbox ++ [event] } with reader := .reading }
  | undelivered {owner : Option ℕ} {event : RelayedEvent}
      (hreader : s.reader = .delivering owner event)
      (h : ∀ i c, owner = some i → s.calls[i]? = some c → c.phase ≠ .receiving) :
      Step s .deliver { s with reader := .reading }
  | dispatch {msg : RelayedInbound} {rest : List RelayedInbound} (hidle : s.dispatching = .idle)
      (h : s.toExecutor = msg :: rest) :
      Step s .dispatch { s with dispatching := .running msg, toExecutor := rest }
  | lookUp {requestId runtimeId : String} {call : ToolCallRequest}
      (h : s.dispatching = .running ⟨requestId, .toolCall runtimeId call⟩) :
      Step s .lookUp (s.doToolCall requestId runtimeId call)
  | complete {result : Except RuntimeError Unit} {msg : RelayedInbound} (phase : DispatchPhase)
      (h : s.dispatching = .running msg) (hother : ∀ callId, ¬ Asks callId msg) :
      Step s (.complete result) { s with dispatching := phase }
  | fail {requestId message : String} (h : s.dispatching = .failing requestId message) :
      Step s .fail { s.sendOutbound ⟨requestId, .lifecycle (.commandFailed message)⟩ with
        dispatching := .idle }
  | toolDone {task : ToolTask} {outcome : Except TransportError ToolResult} :
      Step s (.toolDone task outcome)
        { s.sendOutbound (toolResult task outcome) with tools := s.tools.erase task }
  | emit {requestId : String} {event : ExecutorEvent} :
      Step s (.emit requestId event) (s.sendOutbound ⟨requestId, .lifecycle event⟩)
  | registry {l : RelayLabel} (connected : Option ConnectedRuntimeRegistry) :
      Step s l { s with connected := connected }
  | lose {arriving : ℕ} :
      Step s (.lose arriving) { s with linkOpen := false, toClient := s.toClient.take arriving }

variable {s t : Relay} {i j : ℕ} {c : RelayedCall} {callId : String}

theorem stepCall_some {f : RelayedCall → Option Relay} (h : s.stepCall i f = some t) :
    ∃ c, s.calls[i]? = some c ∧ f c = some t := Option.bind_eq_some_iff.mp h

/-- The steps of an invoke. -/
theorem step_of_call {l : RelayLabel} (h : next s l = some t)
    (hl : (∃ i, l = .insert i) ∨ (∃ i outcome, l = .send i outcome) ∨ (∃ i, l = .receive i) ∨
      ∃ i, l = .finish i) : Step s l t := by
  rcases hl with ⟨i, rfl⟩ | ⟨i, outcome, rfl⟩ | ⟨i, rfl⟩ | ⟨i, rfl⟩
  · obtain ⟨c, hc, hf⟩ := stepCall_some h
    cases hphase : c.phase with
    | inserting =>
      simp only [hphase] at hf
      obtain ⟨_, heq⟩ := Option.ite_none_right_eq_some.mp hf
      cases Option.some.inj heq
      exact Step.insert hc
    | _ =>
      simp only [hphase] at hf
      contradiction
  · obtain ⟨c, hc, hf⟩ := stepCall_some h
    cases hphase : c.phase with
    | sending =>
      simp only [hphase] at hf
      cases Option.some.inj hf
      cases outcome with
      | sent => exact Step.sent hc
      | failed reason => exact Step.unsent (by simp)
      | notSerialized reason => exact Step.unsent (by simp)
    | _ =>
      simp only [hphase] at hf
      contradiction
  · obtain ⟨c, hc, hf⟩ := stepCall_some h
    cases hphase : c.phase with
    | receiving =>
      simp only [hphase] at hf
      obtain ⟨c', hc', rfl⟩ := Option.map_eq_some_iff.mp hf
      exact Step.receive hc hphase hc'
    | _ =>
      simp only [hphase] at hf
      contradiction
  · obtain ⟨c, hc, hf⟩ := stepCall_some h
    cases hphase : c.phase with
    | answered result =>
      simp only [hphase] at hf
      obtain ⟨_, heq⟩ := Option.ite_none_right_eq_some.mp hf
      cases Option.some.inj heq
      exact Step.finish c.callId (by simp)
    | unanswered =>
      simp only [hphase] at hf
      obtain ⟨_, heq⟩ := Option.ite_none_right_eq_some.mp hf
      cases Option.some.inj heq
      exact Step.finish c.callId (by simp)
    | _ =>
      simp only [hphase] at hf
      contradiction

/-- The steps of the reader. -/
theorem step_of_reader {l : RelayLabel} (h : next s l = some t)
    (hl : l = .read ∨ l = .readerEnds ∨ l = .route ∨ l = .deliver) : Step s l t := by
  rcases hl with rfl | rfl | rfl | rfl
  · simp only [next] at h
    cases hreader : s.reader with
    | reading =>
      cases hqueue : s.toClient with
      | nil =>
        rw [hreader, hqueue] at h
        contradiction
      | cons msg rest =>
        obtain ⟨requestId, event⟩ := msg
        rw [hreader, hqueue] at h
        cases event with
        | registered executorId =>
          cases Option.some.inj h
          exact Step.skip hreader hqueue
        | _ =>
          cases Option.some.inj h
          exact Step.read hreader hqueue
    | _ =>
      rw [hreader] at h
      contradiction
  · simp only [next] at h
    cases hreader : s.reader with
    | reading =>
      rw [hreader] at h
      cases Option.some.inj h
      exact Step.readerEnds
    | _ =>
      rw [hreader] at h
      contradiction
  · simp only [next] at h
    cases hreader : s.reader with
    | routing msg =>
      rw [hreader] at h
      dsimp only at h
      cases howner : s.pending.lookup msg.requestId with
      | none =>
        rw [howner] at h
        cases Option.some.inj h
        exact Step.unrouted hreader howner
      | some owner =>
        rw [howner] at h
        cases Option.some.inj h
        exact Step.route hreader howner
    | _ =>
      rw [hreader] at h
      contradiction
  · simp only [next] at h
    cases hreader : s.reader with
    | delivering owner event =>
      cases owner with
      | none =>
        rw [hreader] at h
        cases Option.some.inj h
        exact Step.undelivered hreader (fun i c howner => by contradiction)
      | some i =>
        rw [hreader] at h
        dsimp only at h
        unfold deliverTo at h
        cases hc : s.calls[i]? with
        | none =>
          rw [hc] at h
          contradiction
        | some c =>
          rw [hc] at h
          dsimp only at h
          cases hphase : c.phase with
          | returned result =>
            rw [hphase] at h
            cases Option.some.inj h
            refine Step.undelivered hreader (fun j c' howner hc' => ?_)
            cases Option.some.inj howner
            rw [hc] at hc'
            cases Option.some.inj hc'
            simp [hphase]
          | _ =>
            rw [hphase] at h
            obtain ⟨_, heq⟩ := Option.ite_none_right_eq_some.mp h
            cases Option.some.inj heq
            exact hphase ▸ Step.deliver hreader hc
    | _ =>
      rw [hreader] at h
      contradiction

/-- The steps of the executor. -/
theorem step_of_executor {l : RelayLabel} (h : next s l = some t)
    (hl : l = .dispatch ∨ l = .lookUp ∨ (∃ result, l = .complete result) ∨ l = .fail ∨
      ∃ task outcome, l = .toolDone task outcome) : Step s l t := by
  rcases hl with rfl | rfl | ⟨result, rfl⟩ | rfl | ⟨task, outcome, rfl⟩
  · simp only [next] at h
    cases hdispatching : s.dispatching with
    | idle =>
      cases hqueue : s.toExecutor with
      | nil =>
        rw [hdispatching, hqueue] at h
        contradiction
      | cons msg rest =>
        rw [hdispatching, hqueue] at h
        cases Option.some.inj h
        exact Step.dispatch hdispatching hqueue
    | _ =>
      rw [hdispatching] at h
      contradiction
  · simp only [next] at h
    cases hdispatching : s.dispatching with
    | running msg =>
      obtain ⟨requestId, command⟩ := msg
      rw [hdispatching] at h
      cases command with
      | toolCall runtimeId call =>
        cases Option.some.inj h
        exact Step.lookUp hdispatching
      | _ => contradiction
    | _ =>
      rw [hdispatching] at h
      contradiction
  · simp only [next] at h
    cases hdispatching : s.dispatching with
    | running msg =>
      obtain ⟨requestId, command⟩ := msg
      rw [hdispatching] at h
      cases command with
      | toolCall runtimeId call => contradiction
      | cancelToolCall _ _ | lifecycle _ =>
        cases result with
        | ok _ | error _ =>
          cases Option.some.inj h
          exact Step.complete _ hdispatching (fun _ ⟨_, _, hcommand, _⟩ => by contradiction)
    | _ =>
      rw [hdispatching] at h
      contradiction
  · simp only [next] at h
    cases hdispatching : s.dispatching with
    | failing requestId message =>
      rw [hdispatching] at h
      cases Option.some.inj h
      exact Step.fail hdispatching
    | _ =>
      rw [hdispatching] at h
      contradiction
  · obtain ⟨_, heq⟩ := Option.ite_none_right_eq_some.mp h
    cases Option.some.inj heq
    exact Step.toolDone

theorem step_of_next {l : RelayLabel} (h : next s l = some t) : Step s l t := by
  cases l with
  | invoke runtimeId callId call =>
    cases Option.some.inj h
    exact Step.invoke
  | insert i => exact step_of_call h (Or.inl ⟨i, rfl⟩)
  | send i outcome => exact step_of_call h (Or.inr (Or.inl ⟨i, outcome, rfl⟩))
  | receive i => exact step_of_call h (Or.inr (Or.inr (Or.inl ⟨i, rfl⟩)))
  | finish i => exact step_of_call h (Or.inr (Or.inr (Or.inr ⟨i, rfl⟩)))
  | request requestId =>
    obtain ⟨_, heq⟩ := Option.ite_none_right_eq_some.mp h
    cases Option.some.inj heq
    exact Step.request
  | forward msg =>
    obtain ⟨requestId, command⟩ := msg
    cases command with
    | toolCall _ _ => contradiction
    | _ =>
      cases Option.some.inj h
      exact Step.forward
  | read => exact step_of_reader h (Or.inl rfl)
  | readerEnds => exact step_of_reader h (Or.inr (Or.inl rfl))
  | route => exact step_of_reader h (Or.inr (Or.inr (Or.inl rfl)))
  | deliver => exact step_of_reader h (Or.inr (Or.inr (Or.inr rfl)))
  | dispatch => exact step_of_executor h (Or.inl rfl)
  | lookUp => exact step_of_executor h (Or.inr (Or.inl rfl))
  | complete result => exact step_of_executor h (Or.inr (Or.inr (Or.inl ⟨result, rfl⟩)))
  | fail => exact step_of_executor h (Or.inr (Or.inr (Or.inr (Or.inl rfl))))
  | toolDone task outcome =>
    exact step_of_executor h (Or.inr (Or.inr (Or.inr (Or.inr ⟨task, outcome, rfl⟩))))
  | emit requestId event =>
    cases Option.some.inj h
    exact Step.emit
  | register runtimeId transport =>
    cases Option.some.inj h
    exact Step.registry _
  | remove runtimeId =>
    cases Option.some.inj h
    exact Step.registry _
  | lose arriving =>
    cases Option.some.inj h
    exact Step.lose

section Frames

theorem calls_setCall {c' : RelayedCall} (h : (s.setCall i c').calls[j]? = some c) :
    (j = i ∧ c = c') ∨ (j ≠ i ∧ s.calls[j]? = some c) := by
  unfold setCall at h
  dsimp only at h
  rw [List.getElem?_set] at h
  by_cases hij : i = j
  · rw [if_pos hij] at h
    obtain ⟨_, heq⟩ := Option.ite_none_right_eq_some.mp h
    exact Or.inl ⟨hij.symm, (Option.some.inj heq).symm⟩
  · rw [if_neg hij] at h
    exact Or.inr ⟨Ne.symm hij, h⟩

/-- An entry that is another call's, or a lifecycle request's, is not the invoke's. -/
theorem entry_insert {owner : Option ℕ} {id : String} (howner : owner ≠ some i)
    (h : (s.pending.insert id owner).lookup callId = some (some i)) :
    s.pending.lookup callId = some (some i) := by
  by_cases hid : callId = id
  · rw [hid, AList.lookup_insert] at h
    exact absurd (Option.some.inj h) howner
  · rwa [AList.lookup_insert_ne hid] at h

theorem entry_erase {id : String} (h : (s.pending.erase id).lookup callId = some (some i)) :
    s.pending.lookup callId = some (some i) := by
  by_cases hid : callId = id
  · rw [hid, AList.lookup_erase] at h
    contradiction
  · rwa [AList.lookup_erase_ne hid] at h

/-- A step after which no other invoke awaits its result, and what was coming still is. -/
theorem Inv.frame (h : Inv s) (hawaits : ∀ i c, Awaits t i c → Awaits s i c)
    (hended : t.reader = .ended → s.reader = .ended)
    (hlink : t.linkOpen = true → s.linkOpen = true)
    (hcoming : ∀ i c, Awaits t i c → t.linkOpen = true → Coming s i c.callId →
      Coming t i c.callId) : Inv t := by
  intro i c hc
  rcases h i c (hawaits i c hc) with hresolved | ⟨hreader, hwhile⟩
  · exact Or.inl hresolved
  · exact Or.inr ⟨fun heq => hreader (hended heq), fun hopen =>
      hcoming i c hc hopen (hwhile (hlink hopen))⟩

/-- What is coming keeps coming while queues and tasks only grow. -/
theorem Coming.grow (h : Coming s i callId) (hcommands : ∀ m ∈ s.toExecutor, m ∈ t.toExecutor)
    (hdispatching : t.dispatching = s.dispatching ∨ ∀ m, s.dispatching = .running m →
      Asks callId m → Coming t i callId)
    (htools : ∀ task ∈ s.tools, task ∈ t.tools) (hevents : ∀ m ∈ s.toClient, m ∈ t.toClient)
    (hreader : t.reader = s.reader) : Coming t i callId := by
  cases h with
  | queued hmem hasks => exact Coming.queued (hcommands _ hmem) hasks
  | dispatched hrunning hasks =>
    rcases hdispatching with hsame | hnext
    · exact Coming.dispatched (hsame.trans hrunning) hasks
    · exact hnext _ hrunning hasks
  | running hmem htask => exact Coming.running (htools _ hmem) htask
  | posted hmem hbrings => exact Coming.posted (hevents _ hmem) hbrings
  | routing hrouting hbrings => exact Coming.routing (hreader.trans hrouting) hbrings
  | delivering hdelivering hresult =>
    exact Coming.delivering (hreader.trans hdelivering) hresult

/-- What is coming keeps coming over a step of the reader that takes care of the event it
reads or holds. -/
theorem Coming.hand (h : Coming s i callId) (hcommands : t.toExecutor = s.toExecutor)
    (hdispatching : t.dispatching = s.dispatching) (htools : t.tools = s.tools)
    (hposted : ∀ m ∈ s.toClient, Brings callId m → Coming t i callId)
    (hrouting : ∀ m, s.reader = .routing m → Brings callId m → Coming t i callId)
    (hdelivering : ∀ event, s.reader = .delivering (some i) event →
      (resultFor callId event).isSome = true → Coming t i callId) : Coming t i callId := by
  cases h with
  | queued hmem hasks => exact Coming.queued (hcommands ▸ hmem) hasks
  | dispatched hrunning hasks => exact Coming.dispatched (hdispatching.trans hrunning) hasks
  | running hmem htask => exact Coming.running (htools ▸ hmem) htask
  | posted hmem hbrings => exact hposted _ hmem hbrings
  | routing hreader hbrings => exact hrouting _ hreader hbrings
  | delivering hreader hresult => exact hdelivering _ hreader hresult

/-- A reader that takes an event holds none before. -/
theorem Coming.take (h : Coming s i callId) (hreading : s.reader = .reading)
    (hcommands : t.toExecutor = s.toExecutor) (hdispatching : t.dispatching = s.dispatching)
    (htools : t.tools = s.tools)
    (hposted : ∀ m ∈ s.toClient, Brings callId m → Coming t i callId) : Coming t i callId := by
  refine h.hand hcommands hdispatching htools hposted ?_ ?_
  · intro m hreader _
    rw [hreading] at hreader
    contradiction
  · intro event hreader _
    rw [hreading] at hreader
    contradiction

/-- A step that changes the invokes and the map only. -/
theorem Inv.still (h : Inv s) (hawaits : ∀ i c, Awaits t i c → Awaits s i c)
    (hcommands : t.toExecutor = s.toExecutor) (hdispatching : t.dispatching = s.dispatching)
    (htools : t.tools = s.tools) (hevents : t.toClient = s.toClient)
    (hreader : t.reader = s.reader) (hlink : t.linkOpen = s.linkOpen) : Inv t := by
  refine h.frame hawaits (fun hended => hreader ▸ hended) (fun hopen => hlink ▸ hopen)
    (fun i c _ _ hcoming => ?_)
  refine hcoming.grow (fun m hm => ?_) (Or.inl hdispatching) (fun m hm => ?_) (fun m hm => ?_)
    hreader
  · rwa [hcommands]
  · rwa [htools]
  · rwa [hevents]

theorem mem_sendOutbound {msg m : RelayedOutbound} (h : m ∈ s.toClient) :
    m ∈ (s.sendOutbound msg).toClient := by
  unfold sendOutbound
  dsimp only
  split
  · exact List.mem_append_left _ h
  · exact h

theorem mem_sendInbound {msg m : RelayedInbound} (h : m ∈ s.toExecutor) :
    m ∈ (s.sendInbound msg).toExecutor := by
  unfold sendInbound
  dsimp only
  split
  · exact List.mem_append_left _ h
  · exact h

end Frames

section Steps

/-- An invoke takes the next event from its channel. -/
theorem receive_resolved {c' : RelayedCall} (hreceive : s.receive i c = some c')
    (hreceiving : c'.phase = .receiving) :
    c'.callId = c.callId ∧ (Resolved c → Resolved c') := by
  unfold receive at hreceive
  cases hinbox : c.inbox with
  | nil =>
    rw [hinbox] at hreceive
    dsimp only at hreceive
    split at hreceive
    · contradiction
    · cases Option.some.inj hreceive
      contradiction
  | cons e rest =>
    rw [hinbox] at hreceive
    dsimp only at hreceive
    cases hresult : resultFor c.callId e with
    | some result =>
      rw [hresult] at hreceive
      cases Option.some.inj hreceive
      contradiction
    | none =>
      rw [hresult] at hreceive
      cases Option.some.inj hreceive
      refine ⟨rfl, fun ⟨e', hmem, hsome⟩ => ?_⟩
      rw [hinbox] at hmem
      rcases List.mem_cons.mp hmem with rfl | hrest
      · rw [hresult] at hsome
        contradiction
      · exact ⟨e', hrest, hsome⟩

theorem Inv.sent (h : Inv s) (hc : s.calls[i]? = some c) (hanswers : Answers s (.send i .sent)) :
    Inv ((s.sendInbound ⟨c.callId, .toolCall c.runtimeId ⟨c.callId, c.call⟩⟩).setCall i
      { c with phase := .receiving }) := by
  intro j c' hawaits
  rcases calls_setCall hawaits.call with ⟨rfl, rfl⟩ | ⟨hj, hold⟩
  · right
    have hentry : s.onEntry j c.callId = true := beq_iff_eq.mpr hawaits.entry
    refine ⟨fun hended => ?_, fun hopen => ?_⟩
    · have hreader : s.reader = .ended := hended
      unfold Answers answers at hanswers
      dsimp only at hanswers
      rw [hreader, hc] at hanswers
      simp [hentry] at hanswers
    · have hasks : Asks c.callId ⟨c.callId, .toolCall c.runtimeId ⟨c.callId, c.call⟩⟩ :=
        ⟨c.runtimeId, ⟨c.callId, c.call⟩, rfl, rfl⟩
      have hlink : s.linkOpen = true := hopen
      exact Coming.queued (by simp [setCall, sendInbound, hlink]) hasks
  · rcases h j c' ⟨hold, hawaits.receiving, hawaits.entry⟩ with hresolved | ⟨hreader, hwhile⟩
    · exact Or.inl hresolved
    · refine Or.inr ⟨hreader, fun hopen => ?_⟩
      exact (hwhile hopen).grow (fun _ hm => mem_sendInbound hm) (Or.inl rfl) (fun _ hm => hm)
        (fun _ hm => hm) rfl

theorem Inv.receive {c' : RelayedCall} (h : Inv s) (hc : s.calls[i]? = some c)
    (hphase : c.phase = .receiving) (hreceive : s.receive i c = some c') :
    Inv (s.setCall i c') := by
  intro j c'' hawaits
  rcases calls_setCall hawaits.call with ⟨rfl, rfl⟩ | ⟨hj, hold⟩
  · obtain ⟨hid, hresolved⟩ := receive_resolved hreceive hawaits.receiving
    have hbefore : Awaits s j c := ⟨hc, hphase, by rw [← hid]; exact hawaits.entry⟩
    rcases h j c hbefore with hdone | ⟨hreader, hwhile⟩
    · exact Or.inl (hresolved hdone)
    · refine Or.inr ⟨hreader, fun hopen => ?_⟩
      rw [hid]
      exact (hwhile hopen).grow (fun _ hm => hm) (Or.inl rfl) (fun _ hm => hm) (fun _ hm => hm) rfl
  · rcases h j c'' ⟨hold, hawaits.receiving, hawaits.entry⟩ with hresolved | ⟨hreader, hwhile⟩
    · exact Or.inl hresolved
    · refine Or.inr ⟨hreader, fun hopen => ?_⟩
      exact (hwhile hopen).grow (fun _ hm => hm) (Or.inl rfl) (fun _ hm => hm) (fun _ hm => hm) rfl

/-- A result that is routed goes to the invoke whose sender is filed under its call id. -/
theorem Inv.route {msg : RelayedOutbound} {owner : Option ℕ} (h : Inv s)
    (hrouting : s.reader = .routing msg) (howner : s.pending.lookup msg.requestId = some owner) :
    Inv { s with reader := .delivering owner msg.event } := by
  refine h.frame (fun j c hc => ⟨hc.call, hc.receiving, hc.entry⟩) (fun hended => by contradiction)
    (fun hopen => hopen) (fun j c hc _ hcoming => ?_)
  refine hcoming.hand rfl rfl rfl (fun m hmem hbrings => Coming.posted hmem hbrings) ?_ ?_
  · intro m hreader hbrings
    rw [hrouting] at hreader
    cases hreader
    have hentry : s.pending.lookup c.callId = some (some j) := hc.entry
    rw [← hbrings.1, howner] at hentry
    cases Option.some.inj hentry
    exact Coming.delivering rfl hbrings.2
  · intro event hreader _
    rw [hrouting] at hreader
    contradiction

/-- Every event the reader takes is routed. -/
theorem Inv.read {msg : RelayedOutbound} {rest : List RelayedOutbound} (h : Inv s)
    (hreading : s.reader = .reading) (hqueue : s.toClient = msg :: rest) :
    Inv { s with reader := .routing msg, toClient := rest } := by
  refine h.frame (fun j c hc => ⟨hc.call, hc.receiving, hc.entry⟩) (fun hended => by contradiction)
    (fun hopen => hopen) (fun j c _ _ hcoming => ?_)
  refine hcoming.take hreading rfl rfl rfl (fun m hmem hbrings => ?_)
  rw [hqueue] at hmem
  rcases List.mem_cons.mp hmem with rfl | hrest
  · exact Coming.routing rfl hbrings
  · exact Coming.posted hrest hbrings

/-- A repeated registration brings no result. -/
theorem Inv.skip {requestId executorId : String} {rest : List RelayedOutbound} (h : Inv s)
    (hreading : s.reader = .reading)
    (hqueue : s.toClient = ⟨requestId, .registered executorId⟩ :: rest) :
    Inv { s with reader := .reading, toClient := rest } := by
  refine h.frame (fun j c hc => ⟨hc.call, hc.receiving, hc.entry⟩) (fun hended => by contradiction)
    (fun hopen => hopen) (fun j c _ _ hcoming => ?_)
  refine hcoming.take hreading rfl rfl rfl (fun m hmem hbrings => ?_)
  rw [hqueue] at hmem
  rcases List.mem_cons.mp hmem with rfl | hrest
  · exact absurd hbrings.2 (by simp [resultFor])
  · exact Coming.posted hrest hbrings

/-- An event that nobody is filed for is the result of no call that awaits one. -/
theorem Inv.unrouted {msg : RelayedOutbound} (h : Inv s) (hrouting : s.reader = .routing msg)
    (hnone : s.pending.lookup msg.requestId = none) : Inv { s with reader := .reading } := by
  refine h.frame (fun j c hc => ⟨hc.call, hc.receiving, hc.entry⟩) (fun hended => by contradiction)
    (fun hopen => hopen) (fun j c hc _ hcoming => ?_)
  refine hcoming.hand rfl rfl rfl (fun m hmem hbrings => Coming.posted hmem hbrings) ?_ ?_
  · intro m hreader hbrings
    rw [hrouting] at hreader
    cases hreader
    have hentry : s.pending.lookup c.callId = some (some j) := hc.entry
    rw [← hbrings.1, hnone] at hentry
    contradiction
  · intro event hreader _
    rw [hrouting] at hreader
    contradiction

/-- An event that is dropped was for no invoke that still receives. -/
theorem Inv.undelivered {owner : Option ℕ} {event : RelayedEvent} (h : Inv s)
    (hdelivering : s.reader = .delivering owner event)
    (hnot : ∀ i c, owner = some i → s.calls[i]? = some c → c.phase ≠ .receiving) :
    Inv { s with reader := .reading } := by
  refine h.frame (fun j c hc => ⟨hc.call, hc.receiving, hc.entry⟩) (fun hended => by contradiction)
    (fun hopen => hopen) (fun j c hc _ hcoming => ?_)
  refine hcoming.hand rfl rfl rfl (fun m hmem hbrings => Coming.posted hmem hbrings) ?_ ?_
  · intro m hreader _
    rw [hdelivering] at hreader
    contradiction
  · intro event' hreader _
    rw [hdelivering] at hreader
    cases hreader
    exact absurd hc.receiving (hnot j c rfl hc.call)

/-- What was being delivered is in the channel. -/
theorem Inv.deliver {event : RelayedEvent} (h : Inv s)
    (hdelivering : s.reader = .delivering (some i) event) (hc : s.calls[i]? = some c) :
    Inv { s.setCall i { c with inbox := c.inbox ++ [event] } with reader := .reading } := by
  intro j c' hawaits
  have hkeeps : ∀ callId, Coming s j callId → (∀ event', event' = event → j = i →
      ¬ (resultFor callId event').isSome = true) →
      Coming { s.setCall i { c with inbox := c.inbox ++ [event] } with reader := .reading }
        j callId := by
    intro callId hcoming hnot
    refine hcoming.hand rfl rfl rfl (fun m hmem hbrings => Coming.posted hmem hbrings) ?_ ?_
    · intro m hreader _
      rw [hdelivering] at hreader
      contradiction
    · intro event' hreader hresult
      rw [hdelivering] at hreader
      cases hreader
      exact absurd hresult (hnot event rfl rfl)
  rcases calls_setCall hawaits.call with ⟨rfl, rfl⟩ | ⟨hj, hold⟩
  · by_cases hevent : (resultFor c.callId event).isSome = true
    · exact Or.inl ⟨event, List.mem_append_right _ (List.mem_singleton_self event), hevent⟩
    · rcases h j c ⟨hc, hawaits.receiving, hawaits.entry⟩ with hresolved | ⟨_, hwhile⟩
      · obtain ⟨e, hmem, hresult⟩ := hresolved
        exact Or.inl ⟨e, List.mem_append_left _ hmem, hresult⟩
      · refine Or.inr ⟨by simp, fun hopen => hkeeps _ (hwhile hopen) (fun event' heq _ => ?_)⟩
        rw [heq]
        exact hevent
  · rcases h j c' ⟨hold, hawaits.receiving, hawaits.entry⟩ with hresolved | ⟨_, hwhile⟩
    · exact Or.inl hresolved
    · exact Or.inr ⟨by simp, fun hopen =>
        hkeeps _ (hwhile hopen) (fun _ _ hji => absurd hji hj)⟩

/-- The reader may end only when every invoke that awaits its result has it. -/
theorem Inv.readerEnds (hanswers : Answers s .readerEnds) : Inv { s with reader := .ended } := by
  intro j c hawaits
  left
  have hall := List.all_eq_true.mp hanswers (c, j)
    (List.mem_zipIdx_iff_getElem?.mpr hawaits.call)
  have hentry : s.onEntry j c.callId = true := beq_iff_eq.mpr hawaits.entry
  unfold settled at hall
  dsimp only at hall
  rw [hawaits.receiving] at hall
  dsimp only at hall
  rw [hentry, Bool.not_true, Bool.false_or] at hall
  obtain ⟨e, hmem, hresult⟩ := List.any_eq_true.mp hall
  exact ⟨e, hmem, hresult⟩

/-- The executor takes a command only when it is done with the last one. -/
theorem Inv.dispatch {msg : RelayedInbound} {rest : List RelayedInbound} (h : Inv s)
    (hidle : s.dispatching = .idle) (hqueue : s.toExecutor = msg :: rest) :
    Inv { s with dispatching := .running msg, toExecutor := rest } := by
  refine h.frame (fun j c hc => ⟨hc.call, hc.receiving, hc.entry⟩) (fun hended => hended)
    (fun hopen => hopen) (fun j c _ _ hcoming => ?_)
  cases hcoming with
  | queued hmem hasks =>
    rw [hqueue] at hmem
    rcases List.mem_cons.mp hmem with rfl | hrest
    · exact Coming.dispatched rfl hasks
    · exact Coming.queued hrest hasks
  | dispatched hrunning _ =>
    rw [hidle] at hrunning
    contradiction
  | running hmem htask => exact Coming.running hmem htask
  | posted hmem hbrings => exact Coming.posted hmem hbrings
  | routing hreader hbrings => exact Coming.routing hreader hbrings
  | delivering hreader hresult => exact Coming.delivering hreader hresult

/-- A dispatched tool call goes to a task of its own. -/
theorem Inv.lookUp {requestId runtimeId : String} {call : ToolCallRequest} (h : Inv s)
    (hrunning : s.dispatching = .running ⟨requestId, .toolCall runtimeId call⟩)
    (hanswers : Answers s .lookUp) : Inv (s.doToolCall requestId runtimeId call) := by
  have hok : (findTransport s.connected runtimeId).isOk = true := by
    unfold Answers answers at hanswers
    dsimp only at hanswers
    rwa [hrunning] at hanswers
  unfold doToolCall
  cases hfind : findTransport s.connected runtimeId with
  | error e =>
    rw [hfind] at hok
    contradiction
  | ok transport =>
    refine h.frame (fun j c hc => ⟨hc.call, hc.receiving, hc.entry⟩) (fun hended => hended)
      (fun hopen => hopen) (fun j c _ _ hcoming => ?_)
    refine hcoming.grow (fun _ hm => hm) (Or.inr ?_) (fun _ hm => List.mem_append_left _ hm)
      (fun _ hm => hm) rfl
    rintro msg hmsg ⟨runtimeId', call', hcommand, hid⟩
    rw [hrunning] at hmsg
    cases hmsg
    cases hcommand
    exact Coming.running (List.mem_append_right _ (List.mem_singleton_self _)) hid

/-- A task that is done has sent the result of its call. -/
theorem Inv.toolDone (h : Inv s) (task : ToolTask) (outcome : Except TransportError ToolResult) :
    Inv { s.sendOutbound (toolResult task outcome) with tools := s.tools.erase task } := by
  refine h.frame (fun j c hc => ⟨hc.call, hc.receiving, hc.entry⟩) (fun hended => hended)
    (fun hopen => hopen) (fun j c _ hopen hcoming => ?_)
  cases hcoming with
  | queued hmem hasks => exact Coming.queued hmem hasks
  | dispatched hrunning hasks => exact Coming.dispatched hrunning hasks
  | @running task' hmem htask =>
    by_cases heq : task' = task
    · subst heq
      have hlink : s.linkOpen = true := hopen
      have hbrings : Brings c.callId (toolResult task' outcome) :=
        ⟨htask, by simp [toolResult, resultFor, htask]⟩
      exact Coming.posted (by simp [sendOutbound, hlink]) hbrings
    · exact Coming.running ((List.mem_erase_of_ne heq).mpr hmem) htask
  | posted hmem hbrings => exact Coming.posted (mem_sendOutbound hmem) hbrings
  | routing hreader hbrings => exact Coming.routing hreader hbrings
  | delivering hreader hresult => exact Coming.delivering hreader hresult

theorem Inv.step {l : RelayLabel} (h : Inv s) (hanswers : Answers s l)
    (hstep : next s l = some t) : Inv t := by
  cases step_of_next hstep with
  | invoke =>
    refine h.still (fun j c hawaits => ?_) rfl rfl rfl rfl rfl rfl
    have hcall := hawaits.call
    dsimp only at hcall
    rw [List.getElem?_append] at hcall
    by_cases hj : j < s.calls.length
    · rw [if_pos hj] at hcall
      exact ⟨hcall, hawaits.receiving, hawaits.entry⟩
    · rw [if_neg hj] at hcall
      have hnew := List.mem_singleton.mp (List.mem_of_getElem? hcall)
      exact absurd hawaits.receiving (by simp [hnew])
  | insert hc =>
    refine h.still (fun j c hawaits => ?_) rfl rfl rfl rfl rfl rfl
    rcases calls_setCall hawaits.call with ⟨rfl, rfl⟩ | ⟨hj, hold⟩
    · exact absurd hawaits.receiving (by simp)
    · refine ⟨hold, hawaits.receiving, entry_insert ?_ hawaits.entry⟩
      exact fun heq => hj (Option.some.inj (Option.some.inj (congrArg some heq))).symm
  | sent hc => exact h.sent hc hanswers
  | unsent hphase =>
    refine h.still (fun j c hawaits => ?_) rfl rfl rfl rfl rfl rfl
    rcases calls_setCall hawaits.call with ⟨rfl, rfl⟩ | ⟨_, hold⟩
    · exact absurd hawaits.receiving hphase
    · exact ⟨hold, hawaits.receiving, hawaits.entry⟩
  | receive hc hphase hreceive => exact h.receive hc hphase hreceive
  | finish callId hphase =>
    refine h.still (fun j c hawaits => ?_) rfl rfl rfl rfl rfl rfl
    rcases calls_setCall hawaits.call with ⟨rfl, rfl⟩ | ⟨_, hold⟩
    · exact absurd hawaits.receiving hphase
    · exact ⟨hold, hawaits.receiving, entry_erase hawaits.entry⟩
  | request =>
    exact h.still
      (fun j c hawaits => ⟨hawaits.call, hawaits.receiving, entry_insert (by simp) hawaits.entry⟩)
      rfl rfl rfl rfl rfl rfl
  | forward =>
    refine h.frame (fun j c hc => ⟨hc.call, hc.receiving, hc.entry⟩) (fun hended => hended)
      (fun hopen => hopen) (fun j c _ _ hcoming => ?_)
    exact hcoming.grow (fun _ hm => mem_sendInbound hm) (Or.inl rfl) (fun _ hm => hm)
      (fun _ hm => hm) rfl
  | skip hreader hqueue => exact h.skip hreader hqueue
  | read hreader hqueue => exact h.read hreader hqueue
  | readerEnds => exact Inv.readerEnds hanswers
  | route hreader howner => exact h.route hreader howner
  | unrouted hreader hnone => exact h.unrouted hreader hnone
  | deliver hreader hc => exact h.deliver hreader hc
  | undelivered hreader hnot => exact h.undelivered hreader hnot
  | dispatch hidle hqueue => exact h.dispatch hidle hqueue
  | lookUp hrunning => exact h.lookUp hrunning hanswers
  | complete phase hrunning hother =>
    refine h.frame (fun j c hc => ⟨hc.call, hc.receiving, hc.entry⟩) (fun hended => hended)
      (fun hopen => hopen) (fun j c _ _ hcoming => ?_)
    refine hcoming.grow (fun _ hm => hm) (Or.inr (fun msg hmsg hasks => ?_)) (fun _ hm => hm)
      (fun _ hm => hm) rfl
    rw [hrunning] at hmsg
    cases hmsg
    exact absurd hasks (hother _)
  | fail hfailing =>
    refine h.frame (fun j c hc => ⟨hc.call, hc.receiving, hc.entry⟩) (fun hended => hended)
      (fun hopen => hopen) (fun j c _ _ hcoming => ?_)
    refine hcoming.grow (fun _ hm => hm) (Or.inr (fun msg hmsg _ => ?_)) (fun _ hm => hm)
      (fun _ hm => mem_sendOutbound hm) rfl
    rw [hfailing] at hmsg
    contradiction
  | @toolDone task outcome => exact h.toolDone task outcome
  | emit =>
    refine h.frame (fun j c hc => ⟨hc.call, hc.receiving, hc.entry⟩) (fun hended => hended)
      (fun hopen => hopen) (fun j c _ _ hcoming => ?_)
    exact hcoming.grow (fun _ hm => hm) (Or.inl rfl) (fun _ hm => hm)
      (fun _ hm => mem_sendOutbound hm) rfl
  | registry connected =>
    exact h.still (fun j c hc => ⟨hc.call, hc.receiving, hc.entry⟩) rfl rfl rfl rfl rfl rfl
  | lose =>
    exact h.frame (fun j c hc => ⟨hc.call, hc.receiving, hc.entry⟩) (fun hended => hended)
      (fun hopen => by contradiction) (fun j c _ hopen => by contradiction)

end Steps

theorem init_inv (connected : Option ConnectedRuntimeRegistry) : Inv (init connected) := by
  intro i c hawaits
  have hcall : ([] : List RelayedCall)[i]? = some c := hawaits.call
  simp at hcall

/-- Whatever the registry holds and the tools answer, whenever all messages have been
delivered or the link is closed and its reader ended, no invoke waits; as long as every
step answers. -/
theorem relayed_answered (connected : Option ConnectedRuntimeRegistry) (s : Relay)
    (hrun : Machine.Run next Answers (init connected) s) (hquiet : Quiet s) (i : ℕ) :
    ¬ Waits s i := by
  rintro ⟨c, hawaits, hempty⟩
  have hinv : Inv s := hrun.invariant Inv
    (fun _ _ _ hinv hanswers hstep => hinv.step hanswers hstep) (init_inv connected)
  rcases hinv i c hawaits with ⟨e, hmem, _⟩ | ⟨hreader, hwhile⟩
  · rw [hempty] at hmem
    contradiction
  · rcases hquiet with hdelivered | ⟨_, hended⟩
    · cases hwhile hdelivered.link with
      | queued hmem _ =>
        rw [hdelivered.commands] at hmem
        contradiction
      | dispatched hrunning _ =>
        rw [hdelivered.executor] at hrunning
        contradiction
      | running hmem _ =>
        rw [hdelivered.tools] at hmem
        contradiction
      | posted hmem _ =>
        rw [hdelivered.events] at hmem
        contradiction
      | routing hrouting _ =>
        rcases hdelivered.reader with heq | heq <;> rw [hrouting] at heq <;> contradiction
      | delivering hdelivering _ =>
        rcases hdelivered.reader with heq | heq <;> rw [hdelivering] at heq <;> contradiction
    · exact hreader hended

def oneRuntime : ConnectedRuntimeRegistry :=
  (ConnectedRuntimeRegistry.new.registerTransport "rt" 0).2

def toolFails : List RelayLabel :=
  [.invoke "rt" "c1" .null, .insert 0, .send 0 .sent, .dispatch, .lookUp,
    .toolDone ⟨"rt", "c1"⟩ (.error .disconnected), .read, .route, .deliver, .receive 0, .finish 0]

theorem toolFails_answered :
    ¬ Waits (Machine.final next Answers (init (some oneRuntime)) toolFails) 0 :=
  relayed_answered (some oneRuntime) _ (Machine.run_final toolFails (by decide +kernel))
    (Or.inl ⟨rfl, rfl, rfl, rfl, rfl, Or.inl rfl⟩) 0

def notConnected : List RelayLabel :=
  [.invoke "rt" "c1" .null, .insert 0, .send 0 .sent, .dispatch, .lookUp, .fail, .read, .route,
    .deliver, .receive 0]

theorem commandFailed_ignored :
    ¬ ∀ (connected : Option ConnectedRuntimeRegistry) (s : Relay),
      Machine.Run next Machine.free (init connected) s → Quiet s → ∀ i, ¬ Waits s i := by
  intro h
  refine h (some ConnectedRuntimeRegistry.new) _
    (Machine.run_final notConnected (by decide +kernel))
    (Or.inl ⟨rfl, rfl, rfl, rfl, rfl, Or.inl rfl⟩) 0 ?_
  exact ⟨⟨"rt", "c1", .null, .receiving, []⟩, ⟨rfl, rfl, rfl⟩, rfl⟩

end October.RelayedCalls
