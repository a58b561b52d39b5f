import October.LifecycleCalls

/-!
The in-process transport against the one over the WebSocket. Whatever the provider and the
handles do, the program that the executor dispatches asks the same of the registry and of
them as the in-process one, and ends with an event that means the same to the client; what
it reports before is skipped. The link, the reader and the channel bring these events to
the call in progress in order, under every schedule, so the results, the calls of the
provider and the handles and the registry are those of the in-process transport.
-/
namespace October.InterchangeableExecutors

open Await Executor LifecycleCalls

variable {outside : Outside} {requestId : String} {request : Request}

/-- A dispatched program and an in-process one that ask the same of the host; the first
also reports, last of all what the client makes of the second's event. -/
inductive Serves (outside : Outside) (requestId : String) (request : Request) :
    Program Unit → Program ExecutorEvent → Host → Prop
  | skip {event : ExecutorEvent} {k : Unit → Program Unit} {q : Program ExecutorEvent}
      {h : Host} : request.onEvent event = none → Serves outside requestId request (k ()) q h →
      Serves outside requestId request (.call (.send ⟨requestId, event⟩) k) q h
  | both {o : Op} {k : Ans o → Program Unit} {k' : Ans o → Program ExecutorEvent} {h : Host} :
      Remote.sentBy o = [] → (∀ a h', h.answer outside o = some (a, h') →
        Serves outside requestId request (k a) (k' a) h') →
      Serves outside requestId request (.call o k) (.call o k') h
  | last {event event' : ExecutorEvent} {k : Unit → Program Unit} {h : Host} :
      request.onEvent event = some (request.receiveAll [event']) → k () = .done () →
      Serves outside requestId request (.call (.send ⟨requestId, event⟩) k) (.done event') h

section Answers

variable {h h' : Host} {id : String}

theorem answer_send (msg : ExecutorOutboundMessage) :
    h.answer outside (.send msg) = some ((), h) := by
  have hcalls : h.calls ++ outsideCalls (.send msg) = h.calls := List.append_nil _
  simp only [Host.answer, Outside.choice, Option.bind_some, Executor.perform, Option.map_some,
    if_true, hcalls]

/-- A stop that begins leaves an entry to remove. -/
theorem answer_beginStop {handle : Option RuntimeHandle}
    (hanswer : h.answer outside (.beginStop id) = some (.ok handle, h')) :
    (h'.registry.get id).isSome = true := by
  rcases RuntimeRegistry.leave_cases id "stop"
    (fun entry => { entry with state := .stopping, handle := none }) h.registry with
    ⟨e, heq⟩ | ⟨entry, hentry, heq⟩
  · have hleave : h.registry.beginStop id = (.error e, h.registry) := heq
    simp [Host.answer, Outside.choice, Executor.perform, Memory.section, hleave] at hanswer
  · have hleave : h.registry.beginStop id = (.ok entry.handle, h.registry.insert
      { entry with state := .stopping, handle := none }) := heq
    simp only [Host.answer, Outside.choice, Option.bind_some, Executor.perform, Memory.section,
      hleave, Option.map_some, Option.some.injEq, Prod.mk.injEq] at hanswer
    obtain ⟨-, rfl⟩ := hanswer
    have hid : entry.id = id := RuntimeRegistry.id_of_get hentry
    exact congrArg Option.isSome (RuntimeRegistry.get_insert h.registry
      { entry with state := .stopping, handle := none } hid)

theorem answer_stop {handle : RuntimeHandle} {a : Except RuntimeError Unit}
    (hanswer : h.answer outside (.stop handle) = some (a, h')) : h'.registry = h.registry := by
  obtain ⟨choice, hchoice, hperformed⟩ := Option.bind_eq_some_iff.mp hanswer
  obtain ⟨result, -, rfl⟩ := Option.map_eq_some_iff.mp hchoice
  obtain ⟨r, hr, heq⟩ := Option.map_eq_some_iff.mp hperformed
  cases hr
  cases heq
  rfl

/-- What is there can be removed. -/
theorem answer_completeStop {a : Except RuntimeError Unit}
    (hentry : (h.registry.get id).isSome = true)
    (hanswer : h.answer outside (.completeStop id) = some (a, h')) : a = .ok () := by
  obtain ⟨entry, hget⟩ := Option.isSome_iff_exists.mp hentry
  simp only [Host.answer, Outside.choice, Option.bind_some, Executor.perform, Memory.section,
    RuntimeRegistry.completeStop, hget, Option.map_some, Option.some.injEq,
    Prod.mk.injEq] at hanswer
  exact hanswer.1.symm

end Answers

section Programs

variable {h : Host} {id : String}

/-- An error ends both with its text. -/
theorem serves_error (e : RuntimeError) :
    Serves outside requestId request
      (.call (.send ⟨requestId, .commandFailed e.display⟩) .done)
      (.done (.commandFailed e.display)) h :=
  .last rfl rfl

theorem createRuntime_serves (config : RuntimeConfig) :
    Serves outside requestId (.createRuntime id config)
      (Executor.dispatch ⟨requestId, .createRuntime id config⟩)
      (InMemExecutorTransport.send (.createRuntime id config)) h := by
  refine .skip rfl (.both rfl (fun begun h₁ _ => ?_))
  cases begun with
  | error e => exact .skip rfl (serves_error e)
  | ok _ =>
    refine .both rfl (fun created h₂ _ => ?_)
    cases created with
    | ok handle =>
      refine .both rfl (fun completed h₃ _ => ?_)
      cases completed with
      | ok _ => exact .last rfl rfl
      | error e => exact .skip rfl (serves_error e)
    | error e =>
      exact .both rfl (fun _ h₃ _ => .skip rfl (serves_error e))

/-- Once its handle is stopped, a runtime is removed, and both report it Stopped. -/
theorem completeStop_serves (hentry : (h.registry.get id).isSome = true) :
    Serves outside requestId (.destroyRuntime id)
      ((do
        match ← await (.completeStop id) with
        | .error e => return .error e
        | .ok () =>
          emitState requestId id .stopped
          return .ok () : Program (Except RuntimeError Unit)) >>= fun result =>
        match result with
        | .ok () => return ()
        | .error e => await (.send ⟨requestId, .commandFailed e.display⟩))
      (do
        let _ ← await (.completeStop id)
        return .runtimeStateChanged id .stopped) h := by
  refine .both rfl (fun completed h' hanswer => ?_)
  cases answer_completeStop hentry hanswer
  exact .last rfl rfl

theorem destroyRuntime_serves :
    Serves outside requestId (.destroyRuntime id)
      (Executor.dispatch ⟨requestId, .destroyRuntime id⟩)
      (InMemExecutorTransport.send (.destroyRuntime id)) h := by
  refine .both rfl (fun begun h₁ hbegun => ?_)
  cases begun with
  | error e => exact serves_error e
  | ok handle =>
    have hentry := answer_beginStop hbegun
    refine .skip rfl ?_
    cases handle with
    | none => exact completeStop_serves hentry
    | some handle =>
      refine .both rfl (fun stopped h₂ hstopped => ?_)
      rw [← answer_stop hstopped] at hentry
      exact completeStop_serves hentry

/-- The executor's dispatch serves each call as the in-process transport does. -/
theorem dispatch_serves :
    Serves outside requestId request (Executor.dispatch ⟨requestId, request.command⟩)
      (InMemExecutorTransport.send request.command) h := by
  cases request with
  | createRuntime id config => exact createRuntime_serves config
  | destroyRuntime id => exact destroyRuntime_serves

end Programs

def transit (s : Remote) : List ExecutorEvent :=
  s.inbox ++ (s.delivering.map Prod.snd).toList ++ s.toClient.map ExecutorOutboundMessage.event

structure Routed (s : Remote) (requestId : String) : Prop where
  filed : s.pending.lookup requestId = some s.results.length
  coming : ∀ msg ∈ s.toClient, msg.requestId = requestId
  held : ∀ p ∈ s.delivering, p.1 = s.results.length

def continued (outside : Outside) (request : Request) (todo : List (String × Request)) :
    Program ExecutorEvent → Host → Conduct :=
  carryOut outside (fun event h' =>
    (inProcess outside (todo.map Prod.snd) h').after [request.receiveAll [event]])

/-- Where the client, the link and the executor are, and that what is left comes to the
`final` conduct in process. -/
inductive Stage (outside : Outside) (final : Conduct) (s : Remote) : Prop
  | idle : s.calling = .idle → s.toExecutor = [] → s.dispatching = .done () → transit s = [] →
      final = (inProcess outside (s.todo.map Prod.snd) s.host).after s.results →
      Stage outside final s
  | inserted (requestId : String) (request : Request) : s.calling = .inserted requestId request →
      s.pending.lookup requestId = some s.results.length → s.toExecutor = [] →
      s.dispatching = .done () → transit s = [] →
      final = (continued outside request s.todo (InMemExecutorTransport.send request.command)
        s.host).after s.results →
      Stage outside final s
  | sent (requestId : String) (request : Request) : s.calling = .receiving request →
      s.pending.lookup requestId = some s.results.length →
      s.toExecutor = [⟨requestId, request.command⟩] → s.dispatching = .done () →
      transit s = [] →
      final = (continued outside request s.todo (InMemExecutorTransport.send request.command)
        s.host).after s.results →
      Stage outside final s
  | serving (requestId : String) (request : Request) (q : Program ExecutorEvent) :
      s.calling = .receiving request → Routed s requestId → s.toExecutor = [] →
      Serves outside requestId request s.dispatching q s.host →
      (∀ event ∈ transit s, request.onEvent event = none) →
      final = (continued outside request s.todo q s.host).after s.results →
      Stage outside final s
  | answered (requestId : String) (request : Request) (skipped : List ExecutorEvent)
      (last : ExecutorEvent) (result : CallResult) :
      s.calling = .receiving request → Routed s requestId → s.toExecutor = [] →
      s.dispatching = .done () → transit s = skipped ++ [last] →
      (∀ event ∈ skipped, request.onEvent event = none) → request.onEvent last = some result →
      final = (inProcess outside (s.todo.map Prod.snd) s.host).after (s.results ++ [result]) →
      Stage outside final s

section Steps

variable {final : Conduct} {s t : Remote}

theorem transit_nil (h : transit s = []) :
    s.inbox = [] ∧ s.delivering = none ∧ s.toClient = [] := by
  unfold transit at h
  simp only [List.append_eq_nil_iff, List.map_eq_nil_iff, Option.toList_eq_nil_iff,
    Option.map_eq_none_iff] at h
  exact ⟨h.1.1, h.1.2, h.2⟩

theorem Stage.call (h : Stage outside final s) (hstep : s.call = some t) :
    Stage outside final t := by
  unfold Remote.call at hstep
  split at hstep
  · next requestId request rest hcalling htodo hdelivering =>
    cases hstep
    cases h with
    | idle hidle hlink hdone htransit hfinal =>
      refine .inserted requestId request rfl (AList.lookup_insert _) hlink hdone htransit ?_
      rw [hfinal, htodo]
      rfl
    | inserted _ _ hinserted => exact absurd (hcalling.symm.trans hinserted) (by simp)
    | sent _ _ hreceiving => exact absurd (hcalling.symm.trans hreceiving) (by simp)
    | serving _ _ _ hreceiving => exact absurd (hcalling.symm.trans hreceiving) (by simp)
    | answered _ _ _ _ _ hreceiving => exact absurd (hcalling.symm.trans hreceiving) (by simp)
  · contradiction

theorem Stage.send (h : Stage outside final s) (hstep : s.send = some t) :
    Stage outside final t := by
  unfold Remote.send at hstep
  split at hstep
  · next requestId request hcalling =>
    cases hstep
    cases h with
    | inserted requestId' request' hinserted hfiled hlink hdone htransit hfinal =>
      cases hcalling.symm.trans hinserted
      refine .sent requestId request rfl hfiled ?_ hdone htransit hfinal
      rw [hlink]
      rfl
    | idle hidle => exact absurd (hcalling.symm.trans hidle) (by simp)
    | sent _ _ hreceiving => exact absurd (hcalling.symm.trans hreceiving) (by simp)
    | serving _ _ _ hreceiving => exact absurd (hcalling.symm.trans hreceiving) (by simp)
    | answered _ _ _ _ _ hreceiving => exact absurd (hcalling.symm.trans hreceiving) (by simp)
  · contradiction

theorem Stage.dispatch (h : Stage outside final s) (hstep : s.dispatch = some t) :
    Stage outside final t := by
  unfold Remote.dispatch at hstep
  split at hstep
  · next msg rest hdone hlink =>
    cases hstep
    cases h with
    | sent requestId request hreceiving hfiled hsent _ htransit hfinal =>
      rw [hlink] at hsent
      obtain ⟨rfl, rfl⟩ := List.cons.inj hsent
      obtain ⟨hinbox, hdelivering, hclient⟩ := transit_nil htransit
      refine .serving requestId request _ hreceiving ⟨hfiled, ?_, ?_⟩ rfl dispatch_serves ?_ hfinal
      · intro msg hmem
        rw [hclient] at hmem
        cases hmem
      · intro p hmem
        rw [hdelivering] at hmem
        cases hmem
      · intro event (hmem : event ∈ transit s)
        rw [htransit] at hmem
        cases hmem
    | idle _ hempty => exact absurd (hlink.symm.trans hempty) (by simp)
    | inserted _ _ _ _ hempty => exact absurd (hlink.symm.trans hempty) (by simp)
    | serving _ _ _ _ _ hempty => exact absurd (hlink.symm.trans hempty) (by simp)
    | answered _ _ _ _ _ _ _ hempty => exact absurd (hlink.symm.trans hempty) (by simp)
  · contradiction

/-- Only the call in progress has events on their way. -/
theorem Stage.routed (h : Stage outside final s) (hne : transit s ≠ []) :
    ∃ requestId request, s.calling = .receiving request ∧ Routed s requestId := by
  cases h with
  | idle _ _ _ hempty => exact absurd hempty hne
  | inserted _ _ _ _ _ _ hempty => exact absurd hempty hne
  | sent _ _ _ _ _ _ hempty => exact absurd hempty hne
  | serving requestId request _ hreceiving hrouted =>
    exact ⟨requestId, request, hreceiving, hrouted⟩
  | answered requestId request _ _ _ hreceiving hrouted =>
    exact ⟨requestId, request, hreceiving, hrouted⟩

/-- Moving the events on does not change what is left. -/
theorem Stage.moved {toClient : List ExecutorOutboundMessage}
    {delivering : Option (ℕ × ExecutorEvent)} {inbox : List ExecutorEvent}
    (h : Stage outside final s) (ht : t = { s with toClient, delivering, inbox })
    (htransit : transit t = transit s) (hrouted : ∀ id, Routed s id → Routed t id) :
    Stage outside final t := by
  cases h with
  | idle hidle hlink hdone hempty hfinal =>
    have hnone := htransit.trans hempty
    subst ht
    exact .idle hidle hlink hdone hnone hfinal
  | inserted requestId request hinserted hfiled hlink hdone hempty hfinal =>
    have hnone := htransit.trans hempty
    subst ht
    exact .inserted requestId request hinserted hfiled hlink hdone hnone hfinal
  | sent requestId request hreceiving hfiled hsent hdone hempty hfinal =>
    have hnone := htransit.trans hempty
    subst ht
    exact .sent requestId request hreceiving hfiled hsent hdone hnone hfinal
  | serving requestId request q hreceiving hroute hlink hserves hskipped hfinal =>
    rw [← htransit] at hskipped
    have hroute := hrouted requestId hroute
    subst ht
    exact .serving requestId request q hreceiving hroute hlink hserves hskipped hfinal
  | answered requestId request skipped last result hreceiving hroute hlink hdone hlast hskipped
      hresult hfinal =>
    rw [← htransit] at hlast
    have hroute := hrouted requestId hroute
    subst ht
    exact .answered requestId request skipped last result hreceiving hroute hlink hdone hlast
      hskipped hresult hfinal

theorem Stage.read (h : Stage outside final s) (hstep : s.read = some t) :
    Stage outside final t := by
  unfold Remote.read at hstep
  split at hstep
  · next msg rest hdelivering hclient =>
    cases hstep
    have hne : transit s ≠ [] := by
      simp [transit, hclient]
    obtain ⟨requestId, request, -, hroute⟩ := h.routed hne
    have hlookup : s.pending.lookup msg.requestId = some s.results.length := by
      rw [hroute.coming msg (by rw [hclient]; exact List.mem_cons_self ..), hroute.filed]
    refine h.moved rfl ?_ (fun id hid => ⟨hid.filed, fun m hmem => ?_, fun p hmem => ?_⟩)
    · simp [transit, hlookup, hdelivering, hclient]
    · exact hid.coming m (by rw [hclient]; exact List.mem_cons_of_mem _ hmem)
    · simp only [hlookup, Option.map_some, Option.mem_def, Option.some.injEq] at hmem
      rw [← hmem]
  · contradiction

theorem Stage.deliver (h : Stage outside final s) (hstep : s.deliver = some t) :
    Stage outside final t := by
  unfold Remote.deliver at hstep
  split at hstep
  · contradiction
  · next number event hdelivering =>
    have hne : transit s ≠ [] := by
      simp [transit, hdelivering]
    obtain ⟨requestId, request, hreceiving, hroute⟩ := h.routed hne
    have hnumber : number = s.results.length := hroute.held (number, event) hdelivering
    split at hstep
    · next hidle => exact absurd (hreceiving.symm.trans hidle) (by simp)
    · rw [if_pos hnumber] at hstep
      split at hstep
      · cases hstep
        refine h.moved rfl ?_ (fun id hid => ⟨hid.filed, hid.coming, fun p hmem => by cases hmem⟩)
        simp [transit, hdelivering]
      · contradiction

theorem Stage.receive (h : Stage outside final s) (hstep : s.receive = some t) :
    Stage outside final t := by
  unfold Remote.receive at hstep
  split at hstep
  · next request event rest hcalling hinbox =>
    have hhead : transit s = event :: transit { s with inbox := rest } := by
      simp [transit, hinbox]
    have hne : transit s ≠ [] := by
      rw [hhead]
      exact List.cons_ne_nil _ _
    cases h with
    | idle _ _ _ hempty => exact absurd hempty hne
    | inserted _ _ _ _ _ _ hempty => exact absurd hempty hne
    | sent _ _ _ _ _ _ hempty => exact absurd hempty hne
    | serving requestId request' q hreceiving hroute hlink hserves hskipped hfinal =>
      cases hcalling.symm.trans hreceiving
      rw [hhead] at hskipped
      rw [hskipped event (List.mem_cons_self ..)] at hstep
      cases hstep
      exact .serving requestId request q hreceiving ⟨hroute.filed, hroute.coming, hroute.held⟩ hlink
        hserves (fun e hmem => hskipped e (List.mem_cons_of_mem _ hmem)) hfinal
    | answered requestId request' skipped last result hreceiving hroute hlink hdone hlast hskipped
        hresult hfinal =>
      cases hcalling.symm.trans hreceiving
      rw [hhead] at hlast
      cases skipped with
      | nil =>
        obtain ⟨rfl, hrest⟩ := List.cons.inj hlast
        rw [hresult] at hstep
        cases hstep
        obtain ⟨-, hdelivering, hclient⟩ := transit_nil hrest
        refine .idle rfl hlink hdone ?_ hfinal
        simp only [transit]
        rw [show s.delivering = none from hdelivering, show s.toClient = [] from hclient]
        rfl
      | cons first skipped =>
        obtain ⟨rfl, hrest⟩ := List.cons.inj hlast
        rw [hskipped event (List.mem_cons_self ..)] at hstep
        cases hstep
        exact .answered requestId request skipped last result hreceiving
          ⟨hroute.filed, hroute.coming, hroute.held⟩ hlink hdone hrest
          (fun e hmem => hskipped e (List.mem_cons_of_mem _ hmem)) hresult hfinal
  · contradiction

/-- What the executor sends comes last. -/
theorem transit_sent (s : Remote) (requestId : String) (h : Host) (p : Program Unit)
    (event : ExecutorEvent) :
    transit { s with
      dispatching := p
      host := h
      toClient := s.toClient ++ Remote.sentBy (.send ⟨requestId, event⟩) } =
      transit s ++ [event] := by
  simp [transit, Remote.sentBy]

theorem coming_sent (h : Routed s requestId) (event : ExecutorEvent) :
    ∀ msg ∈ s.toClient ++ Remote.sentBy (.send ⟨requestId, event⟩), msg.requestId = requestId := by
  intro msg hmem
  rcases List.mem_append.mp hmem with hmem | hmem
  · exact h.coming msg hmem
  · cases List.mem_singleton.mp hmem
    rfl

theorem Stage.perform (h : Stage outside final s) (hstep : s.perform outside = some t) :
    Stage outside final t := by
  unfold Remote.perform at hstep
  split at hstep
  · contradiction
  · next o k hdispatching =>
    obtain ⟨⟨a, h'⟩, hanswer, rfl⟩ := Option.map_eq_some_iff.mp hstep
    cases h with
    | idle _ _ hdone => exact absurd (hdispatching.symm.trans hdone) (by simp)
    | inserted _ _ _ _ _ hdone => exact absurd (hdispatching.symm.trans hdone) (by simp)
    | sent _ _ _ _ _ hdone => exact absurd (hdispatching.symm.trans hdone) (by simp)
    | answered _ _ _ _ _ _ _ _ hdone => exact absurd (hdispatching.symm.trans hdone) (by simp)
    | serving requestId request q hreceiving hroute hlink hserves hskipped hfinal =>
      rw [hdispatching] at hserves
      cases hserves with
      | @skip event k _ _ hnone hrest =>
        rw [answer_send] at hanswer
        cases hanswer
        have hgrown := transit_sent s requestId s.host (k ()) event
        refine .serving requestId request q hreceiving
          ⟨hroute.filed, coming_sent hroute event, hroute.held⟩ hlink hrest ?_ hfinal
        intro e hmem
        rw [hgrown] at hmem
        rcases List.mem_append.mp hmem with hmem | hmem
        · exact hskipped e hmem
        · cases List.mem_singleton.mp hmem
          exact hnone
      | @both _ _ k' _ hsent hrest =>
        have hsame : s.toClient ++ Remote.sentBy o = s.toClient := by rw [hsent, List.append_nil]
        rw [hsame]
        refine .serving requestId request (k' a) hreceiving
          ⟨hroute.filed, hroute.coming, hroute.held⟩ hlink (hrest a h' hanswer) hskipped ?_
        rw [hfinal]
        simp only [continued, carryOut, hanswer]
      | @last event event' k _ hresult hk =>
        rw [answer_send] at hanswer
        cases hanswer
        refine .answered requestId request (transit s) event (request.receiveAll [event'])
          hreceiving
          ⟨hroute.filed, coming_sent hroute event, hroute.held⟩ hlink hk
          (transit_sent s requestId s.host (k ()) event) hskipped hresult ?_
        rw [hfinal]
        simp [continued, carryOut, Conduct.after, List.append_assoc]

theorem Stage.step (h : Stage outside final s) {l : RemoteLabel}
    (hstep : Remote.next outside s l = some t) : Stage outside final t := by
  cases l with
  | call => exact h.call hstep
  | send => exact h.send hstep
  | receive => exact h.receive hstep
  | dispatch => exact h.dispatch hstep
  | perform => exact h.perform hstep
  | read => exact h.read hstep
  | deliver => exact h.deliver hstep

/-- The results so far are the first of the final ones. -/
theorem Stage.results (h : Stage outside final s) : s.results <+: final.results := by
  cases h with
  | idle _ _ _ _ hfinal => exact hfinal ▸ List.prefix_append _ _
  | inserted _ _ _ _ _ _ _ hfinal => exact hfinal ▸ List.prefix_append _ _
  | sent _ _ _ _ _ _ _ hfinal => exact hfinal ▸ List.prefix_append _ _
  | serving _ _ _ _ _ _ _ _ hfinal => exact hfinal ▸ List.prefix_append _ _
  | answered _ _ _ _ _ _ _ _ _ _ _ _ hfinal =>
    rw [hfinal, Conduct.after, List.append_assoc]
    exact List.prefix_append _ _

/-- Events on their way to a call that receives can move on. -/
theorem moves_on (hreceiving : s.calling = .receiving request) (hroute : Routed s requestId)
    (hne : transit s ≠ []) : s.receive ≠ none ∨ s.deliver ≠ none ∨ s.read ≠ none := by
  cases hinbox : s.inbox with
  | cons event rest =>
    left
    unfold Remote.receive
    rw [hreceiving, hinbox]
    dsimp only
    cases request.onEvent event <;> simp
  | nil =>
    right
    cases hdelivering : s.delivering with
    | some p =>
      left
      have hnumber : p.1 = s.results.length := hroute.held p hdelivering
      unfold Remote.deliver
      rw [hdelivering]
      simp [hreceiving, hnumber, hinbox, Relay.channelCapacity]
    | none =>
      right
      cases hclient : s.toClient with
      | cons msg rest =>
        unfold Remote.read
        simp [hdelivering, hclient]
      | nil => exact absurd (by simp [transit, hinbox, hdelivering, hclient]) hne

/-- When nothing can go on, the conduct is the final one. -/
theorem Stage.conduct (h : Stage outside final s) (hstuck : ∀ l, Remote.next outside s l = none) :
    s.conduct = final := by
  cases h with
  | idle hidle _ hdone hempty hfinal =>
    obtain ⟨-, hdelivering, -⟩ := transit_nil hempty
    have hcall : s.call = none := hstuck .call
    cases htodo : s.todo with
    | nil =>
      rw [hfinal, htodo, Remote.conduct, hdone]
      simp [inProcess, Conduct.after, Prog.awaits]
    | cons first rest =>
      simp [Remote.call, hidle, htodo, hdelivering] at hcall
  | inserted requestId request hinserted =>
    have hsend : s.send = none := hstuck .send
    simp [Remote.send, hinserted] at hsend
  | sent requestId request _ _ hsent hdone =>
    have hdispatch : s.dispatch = none := hstuck .dispatch
    simp [Remote.dispatch, hsent, hdone] at hdispatch
  | serving requestId request q _ _ _ hserves _ hfinal =>
    have hperform : s.perform outside = none := hstuck .perform
    unfold Remote.perform at hperform
    generalize hdispatching : s.dispatching = p at hserves hperform
    cases hserves with
    | skip => simp [answer_send] at hperform
    | last => simp [answer_send] at hperform
    | both hsent hrest =>
      have hanswer := Option.map_eq_none_iff.mp hperform
      rw [hfinal, Remote.conduct, hdispatching]
      simp [continued, carryOut, hanswer, Conduct.after, Prog.awaits]
  | answered requestId request skipped last result hreceiving hroute _ _ hlast =>
    have hne : transit s ≠ [] := by
      rw [hlast]
      exact List.append_ne_nil_of_right_ne_nil _ (List.cons_ne_nil _ _)
    rcases moves_on hreceiving hroute hne with h | h | h
    · exact absurd (hstuck .receive) h
    · exact absurd (hstuck .deliver) h
    · exact absurd (hstuck .read) h

end Steps

section Results

def Plain (result : CallResult) : Prop :=
  result = .ok () ∨ ∃ message, result = .error (.commandFailed message)

theorem onEvent_plain {event : ExecutorEvent} {result : CallResult}
    (h : request.onEvent event = some result) : Plain result := by
  cases event with
  | runtimeStateChanged runtimeId state =>
    obtain ⟨-, heq⟩ := Option.ite_none_right_eq_some.mp h
    exact .inl (Option.some.inj heq).symm
  | commandFailed message => exact .inr ⟨message, (Option.some.inj h).symm⟩
  | runtimesListed runtimes => cases h

theorem Serves.plain {p : Program Unit} {q : Program ExecutorEvent} {h : Host}
    {rest : Host → Conduct} (hserves : Serves outside requestId request p q h)
    (hrest : ∀ h', ∀ result ∈ (rest h').results, Plain result) :
    ∀ result ∈ (carryOut outside (fun event h' => (rest h').after [request.receiveAll [event]])
      q h).results, Plain result := by
  induction hserves with
  | skip _ _ ih => exact ih
  | both hsent _ ih =>
    rw [carryOut]
    split
    · simp
    · next a h' hanswer => exact ih a h' hanswer
  | last hresult _ =>
    intro result hmem
    rcases List.mem_cons.mp hmem with rfl | hmem
    · exact onEvent_plain hresult
    · exact hrest _ result hmem

theorem inProcess_plain (requests : List Request) (h : Host) :
    ∀ result ∈ (inProcess outside requests h).results, Plain result := by
  induction requests generalizing h with
  | nil => simp [inProcess]
  | cons request rest ih =>
    have hserves : Serves outside "" request _ _ h := dispatch_serves
    exact hserves.plain ih

end Results

section Bounded

theorem await_within (o : Op) : (await o).Within 1 := .call (fun a => .done a 0)

theorem stopHandle_within (handle : Option RuntimeHandle) : (stopHandle handle).Within 1 := by
  cases handle with
  | none => exact .done () 1
  | some handle => exact .call (fun _ => .done () 0)

theorem createCore_within (id : String) (config : RuntimeConfig) :
    (createCore id config).Within 3 := by
  refine .call (fun begun => ?_)
  cases begun with
  | error e => exact .done _ 2
  | ok _ =>
    refine .call (fun created => ?_)
    cases created with
    | ok handle => exact await_within _
    | error e => exact .call (fun _ => .done _ 0)

theorem runCommand_within (requestId : String) (command : ExecutorCommand) :
    (runCommand requestId command).Within 7 := by
  cases command with
  | createRuntime id config =>
    refine .call (fun _ => ((createCore_within id config).bind (n := 1) ?_).mono (by decide))
    intro created
    cases created with
    | ok _ => exact .call (fun _ => .done _ 0)
    | error e => exact .call (fun _ => .done _ 0)
  | destroyRuntime id =>
    refine .call (fun begun => ?_)
    cases begun with
    | error e => exact .done _ 6
    | ok handle =>
      refine .call (fun _ => ((stopHandle_within handle).bind (n := 2) ?_).mono (by decide))
      refine fun _ => .call (fun completed => ?_)
      cases completed with
      | error e => exact .done _ 1
      | ok _ => exact .call (fun _ => .done _ 0)
  | restartRuntime id =>
    refine .call (fun config => ?_)
    cases config with
    | none => exact .done _ 6
    | some config =>
      refine .call (fun begun => ?_)
      cases begun with
      | error e => exact .done _ 5
      | ok oldHandle =>
        refine .call (fun _ => ((stopHandle_within oldHandle).bind (n := 3) ?_).mono (by decide))
        refine fun _ => .call (fun created => ?_)
        cases created with
        | error e => exact .call (fun _ => .call (fun _ => .done _ 0))
        | ok handle =>
          refine .call (fun completed => ?_)
          cases completed with
          | error e => exact .done _ 1
          | ok _ => exact .call (fun _ => .done _ 0)
  | queryRuntimes => exact .call (fun _ => .call (fun _ => .done _ 5))

theorem dispatch_within (msg : ExecutorInboundMessage) : (Executor.dispatch msg).Within 8 := by
  refine (runCommand_within msg.requestId msg.command).bind (n := 1) (fun result => ?_)
  cases result with
  | ok _ => exact .done () 1
  | error e => exact await_within _

def sendingSteps : Calling → ℕ
  | .inserted _ _ => 34
  | _ => 0

def Left (s : Remote) (n : ℕ) : Prop :=
  ∃ k, s.dispatching.Within k ∧
    n = 35 * s.todo.length + sendingSteps s.calling + 33 * s.toExecutor.length + 4 * k +
      3 * s.toClient.length + 2 * s.delivering.toList.length + s.inbox.length

variable {s t : Remote} {n : ℕ}

theorem Left.perform (h : Left s n) (hstep : s.perform outside = some t) :
    ∃ m, m < n ∧ Left t m := by
  obtain ⟨k, hwithin, rfl⟩ := h
  unfold Remote.perform at hstep
  split at hstep
  · contradiction
  · next o rest hdispatching =>
    obtain ⟨⟨a, h'⟩, -, rfl⟩ := Option.map_eq_some_iff.mp hstep
    rw [hdispatching] at hwithin
    cases hwithin with
    | @call _ _ k hrest =>
      have hsent : (Remote.sentBy o).length ≤ 1 := by
        cases o <;> simp [Remote.sentBy]
      refine ⟨_, ?_, k, hrest a, rfl⟩
      simp only [List.length_append]
      omega

/-- Each step leaves fewer of them. -/
theorem Left.step (h : Left s n) {l : RemoteLabel} (hstep : Remote.next outside s l = some t) :
    ∃ m, m < n ∧ Left t m := by
  cases l with
  | perform => exact h.perform hstep
  | call =>
    obtain ⟨k, hwithin, rfl⟩ := h
    simp only [Remote.next, Remote.call] at hstep
    split at hstep
    · next hcalling htodo hdelivering =>
      cases hstep
      refine ⟨_, ?_, k, hwithin, rfl⟩
      simp only [hcalling, htodo, sendingSteps, List.length_cons]
      omega
    · contradiction
  | send =>
    obtain ⟨k, hwithin, rfl⟩ := h
    simp only [Remote.next, Remote.send] at hstep
    split at hstep
    · next hcalling =>
      cases hstep
      refine ⟨_, ?_, k, hwithin, rfl⟩
      simp only [hcalling, sendingSteps, List.length_append, List.length_singleton]
      omega
    · contradiction
  | receive =>
    obtain ⟨k, hwithin, rfl⟩ := h
    simp only [Remote.next, Remote.receive] at hstep
    split at hstep
    · next hcalling hinbox =>
      split at hstep
      · cases hstep
        refine ⟨_, ?_, k, hwithin, rfl⟩
        simp only [hinbox, List.length_cons]
        omega
      · cases hstep
        refine ⟨_, ?_, k, hwithin, rfl⟩
        simp only [hinbox, hcalling, sendingSteps, List.length_cons, List.length_nil]
        omega
    · contradiction
  | dispatch =>
    obtain ⟨k, -, rfl⟩ := h
    simp only [Remote.next, Remote.dispatch] at hstep
    split at hstep
    · next msg rest hdone hlink =>
      cases hstep
      refine ⟨_, ?_, 8, dispatch_within msg, rfl⟩
      simp only [hlink, List.length_cons]
      omega
    · contradiction
  | read =>
    obtain ⟨k, hwithin, rfl⟩ := h
    simp only [Remote.next, Remote.read] at hstep
    split at hstep
    · next msg rest hdelivering hclient =>
      cases hstep
      refine ⟨_, ?_, k, hwithin, rfl⟩
      have hheld : ((s.pending.lookup msg.requestId).map
          (fun number => (number, msg.event))).toList.length ≤ 1 := by
        cases s.pending.lookup msg.requestId <;> simp
      simp only [hclient, hdelivering, List.length_cons, Option.toList_none, List.length_nil]
      omega
    · contradiction
  | deliver =>
    obtain ⟨k, hwithin, rfl⟩ := h
    simp only [Remote.next, Remote.deliver] at hstep
    split at hstep
    · contradiction
    · next number event hdelivering =>
      have hgone : ∀ t, some { s with delivering := none } = some t → ∃ m, m < 35 * s.todo.length +
          sendingSteps s.calling + 33 * s.toExecutor.length + 4 * k + 3 * s.toClient.length +
            2 * s.delivering.toList.length + s.inbox.length ∧ Left t m := by
        intro t ht
        cases ht
        refine ⟨_, ?_, k, hwithin, rfl⟩
        simp only [hdelivering, Option.toList_none, Option.toList_some, List.length_nil,
          List.length_singleton]
        omega
      split at hstep
      · exact hgone t hstep
      · split at hstep
        · split at hstep
          · cases hstep
            refine ⟨_, ?_, k, hwithin, rfl⟩
            simp only [hdelivering, Option.toList_none, Option.toList_some, List.length_nil,
              List.length_append, List.length_singleton]
            omega
          · contradiction
        · exact hgone t hstep

theorem Left.exec (h : Left s n) {ls : List RemoteLabel}
    (hexec : Machine.exec (Remote.next outside) Machine.free s ls = some t) : ls.length ≤ n := by
  induction ls generalizing s n with
  | nil => exact Nat.zero_le n
  | cons l rest ih =>
    simp only [Machine.exec, Machine.free] at hexec
    obtain ⟨u, hstep, hrest⟩ := Option.bind_eq_some_iff.mp hexec
    obtain ⟨m, hlt, hleft⟩ := h.step hstep
    have hlength := ih hleft hrest
    simp only [List.length_cons]
    omega

end Bounded

/-- Over the WebSocket every run of the calls is finite. Its results are the first of those
in process, each a success or a failed command, and when nothing can go on, the results, the
registry and the calls of the provider and the handles are those in process. -/
theorem interchangeable_executors (outside : Outside) (registry : RuntimeRegistry)
    (requests : List (String × Request)) :
    (∃ bound, ∀ ls s, Machine.exec (Remote.next outside) Machine.free
      (Remote.start registry requests) ls = some s → ls.length ≤ bound) ∧
    ∀ s, Machine.Run (Remote.next outside) Machine.free (Remote.start registry requests) s →
      s.results <+: (inProcess outside (requests.map Prod.snd) ⟨registry, []⟩).results ∧
      (∀ result ∈ s.results, Plain result) ∧
      ((∀ l, Remote.next outside s l = none) →
        s.conduct = inProcess outside (requests.map Prod.snd) ⟨registry, []⟩) := by
  constructor
  · have hleft : Left (Remote.start registry requests) _ := ⟨0, .done () 0, rfl⟩
    exact ⟨_, fun ls s hexec => hleft.exec hexec⟩
  · intro s hrun
    have hstage : Stage outside (inProcess outside (requests.map Prod.snd) ⟨registry, []⟩) s :=
      hrun.invariant _ (fun _ _ _ h _ hstep => h.step hstep) (.idle rfl rfl rfl rfl rfl)
    refine ⟨hstage.results, fun result hmem => ?_, hstage.conduct⟩
    exact inProcess_plain _ _ result (hstage.results.subset hmem)

def oneRuntime : Outside where
  create calls _ _ := if calls.isEmpty then some (.ok 7) else some (.error (.provider "full"))
  stop _ _ := some (.ok ())

def createTwice : List (String × Request) :=
  [("r1", .createRuntime "a" ⟨"/a"⟩), ("r2", .createRuntime "b" ⟨"/b"⟩),
    ("r3", .destroyRuntime "a")]

def createTwiceSteps : List RemoteLabel :=
  [.call, .send, .dispatch, .perform, .read, .deliver, .receive, .perform, .perform, .perform,
    .perform, .read, .deliver, .receive,
    .call, .send, .dispatch, .perform, .perform, .perform, .perform, .perform, .perform, .read,
    .deliver, .read, .deliver, .read, .deliver, .receive, .receive, .receive,
    .call, .send, .dispatch, .perform, .perform, .perform, .perform, .perform, .read, .deliver,
    .receive, .read, .deliver, .receive]

def createdTwice : Remote :=
  Machine.final (Remote.next oneRuntime) Machine.free
    (Remote.start RuntimeRegistry.new createTwice) createTwiceSteps

theorem interchangeable_executors_createdTwice :
    createdTwice.conduct =
      inProcess oneRuntime (createTwice.map Prod.snd) ⟨RuntimeRegistry.new, []⟩ :=
  ((interchangeable_executors oneRuntime RuntimeRegistry.new createTwice).2 createdTwice
    (Machine.run_final createTwiceSteps (by decide +kernel))).2.2
    (fun l => by cases l <;> exact Option.isNone_iff_eq_none.mp (by decide +kernel))

end October.InterchangeableExecutors
