import October.ClientCalls
import October.JobLaunch

/-!
What a failed launch leaves behind. Its client and what that holds go with it, and a
workflow that cannot be told its first command has ended by itself; but the accept loop
goes on, because nobody is left to cancel it.
-/
namespace October.JobLaunch

open Fallible LifecycleCalls ClientCalls

/-- No accept loop, no runtime and no workflow actor is left. -/
def Released (held : Held) : Prop :=
  held.accepting = false ∧ held.handles = [] ∧ held.workflow = none

/-- Whatever the launch has taken hold of is released if it fails. -/
def LeaksNothing (s : Surroundings) (p : LaunchParams) : Prop :=
  ∀ reason held, launch s p .nothing = some (.error reason, held) → Released held

def Accepts (s : Surroundings) (sock : String) : Prop :=
  socketPath s = .ok sock ∧ bind s sock = .ok () ∧ s.acceptFails = false

def FailsCreated (s : Surroundings) (p : LaunchParams) : Prop :=
  s.connected p.jobId = false ∨
    (p.kickoff.command p.spec.input).isSome = true ∧ s.workflowEnds = true

def FailsWithClient (s : Surroundings) (p : LaunchParams) (client : Outside) : Prop :=
  (∃ e, client.create [] p.jobId ⟨p.spec.workdir⟩ = some (.error e)) ∨
    (∃ handle, client.create [] p.jobId ⟨p.spec.workdir⟩ = some (.ok handle)) ∧
      FailsCreated s p

def FailsBefore (s : Surroundings) : Prop :=
  (∃ e, socketPath s = .error e) ∨
    ∃ sock, socketPath s = .ok sock ∧ ∃ e, bind s sock = .error e

def FailsLater (s : Surroundings) (p : LaunchParams) (sock : String) : Prop :=
  (∃ e, s.createDirAll (p.jobDir s) = .error e) ∨
    s.createDirAll (p.jobDir s) = .ok () ∧
      ((∃ e, s.toVecPretty p.capabilities = .error e) ∨
        ∃ bytes, s.toVecPretty p.capabilities = .ok bytes ∧
          ((∃ e, s.write (p.capsPath s) bytes = .error e) ∨
            s.write (p.capsPath s) bytes = .ok () ∧
              FailsWithClient s p (s.provider sock (p.capsPath s))))

def Held.withRuntime (held : Held) (id : String) (config : RuntimeConfig)
    (handle : RuntimeHandle) : Held :=
  { held with host :=
    ⟨(creating id config).insert ⟨id, .running, config, 0, some handle⟩, [.create id config]⟩ }

variable {s : Surroundings} {p : LaunchParams} {client : Outside} {id : String}
  {config : RuntimeConfig} {held held' : Held}

section Steps

@[simp] theorem fails_call (request : Request) : ¬ (call client request).Fails held held' := by
  rintro ⟨e, h⟩
  obtain ⟨result, -, heq⟩ := Option.map_eq_some_iff.mp h
  cases heq

@[simp] theorem gives_call (request : Request) (result : CallResult) :
    (call client request).Gives held result held' ↔
      (inProcess client [request] held.host).results.head? = some result ∧
        held' = { held with host := (inProcess client [request] held.host).host } := by
  constructor
  · intro h
    obtain ⟨result', hhead, heq⟩ := Option.map_eq_some_iff.mp h
    cases heq
    exact ⟨hhead, rfl⟩
  · rintro ⟨hhead, rfl⟩
    exact Option.map_eq_some_iff.mpr ⟨result, hhead, rfl⟩

@[simp] theorem runtimeTransport_error :
    (∃ e, runtimeTransport s id = .error e) ↔ s.connected id = false := by
  unfold runtimeTransport
  split <;> simp_all

@[simp] theorem runtimeTransport_ok (u : Unit) :
    runtimeTransport s id = .ok u ↔ s.connected id = true := by
  unfold runtimeTransport
  split <;> simp_all

theorem fails_tell (command : WorkflowCommand) :
    (tell command).Fails held held' ↔ held.workflow = none ∧ held' = held := by
  unfold Fails tell
  cases held.workflow with
  | none => simp [eq_comm]
  | some mailbox => simp

/-- The command reaches the workflow unless its actor has ended. -/
theorem fails_sendKickoff (kickoff : Kickoff) (input : String) :
    (sendKickoff kickoff input).Fails held held' ↔
      (kickoff.command input).isSome = true ∧ held.workflow = none ∧ held' = held := by
  unfold sendKickoff
  cases kickoff.command input with
  | none => simp
  | some command => simp [fails_tell]

theorem gives_sendKickoff {kickoff : Kickoff} {input : String} {u : Unit}
    (h : (sendKickoff kickoff input).Gives held u held') :
    ∃ workflow, held' = { held with workflow := workflow } := by
  unfold sendKickoff at h
  split at h
  · unfold Gives tell at h
    split at h
    · cases h
    · cases h
      exact ⟨_, rfl⟩
  · obtain ⟨-, rfl⟩ := (gives_pure _ _).mp h
    exact ⟨_, rfl⟩

/-- The first creation by a client fails where its provider does. -/
theorem fails_createRuntime (hnew : held.host = ⟨.new, []⟩) :
    (∃ t, (createRuntime client id config).Fails held t ∧ held' = t.withoutClient) ↔
      (∃ e, client.create [] id config = some (.error e)) ∧ held' = held := by
  have hsame : { held with host := ⟨.new, []⟩ } = held := by rw [← hnew]
  rcases hc : client.create [] id config with - | ⟨e | handle⟩
  · simp [createRuntime, hnew, create_hangs hc]
  · simp [createRuntime, hnew, create_fails hc, Held.withoutClient, hsame]
  · simp [createRuntime, hnew, create_succeeds hc]

theorem gives_createRuntime (hnew : held.host = ⟨.new, []⟩) (u : Unit) :
    (createRuntime client id config).Gives held u held' ↔
      ∃ handle, client.create [] id config = some (.ok handle) ∧
        held' = held.withRuntime id config handle := by
  rcases hc : client.create [] id config with - | ⟨e | handle⟩
  · simp [createRuntime, hnew, create_hangs hc]
  · simp [createRuntime, hnew, create_fails hc]
  · simp [createRuntime, hnew, create_succeeds hc, Held.withRuntime]

/-- Once the runtime is created the launch fails for want of a link, or of a workflow that
takes its command, and no workflow is left. -/
theorem fails_created (client : Outside) (held : Held) (hnone : held.workflow = none) :
    (attempt ((runtimeTransport s p.jobId).mapError ClientError.display) >>= fun _ =>
      spawnWorkflow s >>= fun _ => sendKickoff p.kickoff p.spec.input >>= fun _ =>
        (pure ⟨client, p.jobId⟩ : Fallible Held String ProcessShutdown)).Fails held held' ↔
      FailsCreated s p ∧ held' = held := by
  have hsame : { held with workflow := none } = held := by rw [← hnone]
  cases hconnected : s.connected p.jobId with
  | false => simp [FailsCreated, hconnected]
  | true =>
    cases hends : s.workflowEnds <;>
      simp [FailsCreated, hconnected, hends, spawnWorkflow, fails_sendKickoff, hsame]

/-- What has a client fails without it, and leaves what was there before. -/
theorem fails_launchWorkflow (hnew : held.host = ⟨.new, []⟩) (hnone : held.workflow = none) :
    (∃ t, (launchWorkflow s p client).Fails held t ∧ held' = t.withoutClient) ↔
      FailsWithClient s p client ∧ held' = held := by
  have hsame : { held with host := ⟨.new, []⟩ } = held := by rw [← hnew]
  unfold launchWorkflow
  constructor
  · rintro ⟨t, hfails, hheld⟩
    rcases (fails_bind _ _).mp hfails with hfails | ⟨u, t', hgives, hfails⟩
    · obtain ⟨he, hheld⟩ := (fails_createRuntime hnew).mp ⟨t, hfails, hheld⟩
      exact ⟨.inl he, hheld⟩
    · obtain ⟨handle, hcreate, rfl⟩ := (gives_createRuntime hnew u).mp hgives
      obtain ⟨hlater, rfl⟩ :=
        (fails_created client (held.withRuntime p.jobId ⟨p.spec.workdir⟩ handle) hnone).mp hfails
      exact ⟨.inr ⟨⟨handle, hcreate⟩, hlater⟩, hheld.trans hsame⟩
  · rintro ⟨he | ⟨⟨handle, hcreate⟩, hlater⟩, hheld⟩
    · obtain ⟨t, hfails, hheld⟩ := (fails_createRuntime hnew).mpr ⟨he, hheld⟩
      exact ⟨t, (fails_bind _ _).mpr (.inl hfails), hheld⟩
    · have hgives := (gives_createRuntime hnew ()).mpr ⟨handle, hcreate, rfl⟩
      have hfails :=
        (fails_created client (held.withRuntime p.jobId ⟨p.spec.workdir⟩ handle) hnone).mpr
          ⟨hlater, rfl⟩
      exact ⟨_, (fails_bind _ _).mpr (.inr ⟨(), _, hgives, hfails⟩), hheld.trans hsame.symm⟩

/-- All that a failed launch leaves is its accept loop, if it had come to start it. -/
theorem launch_fails_iff : (launch s p).Fails .nothing held ↔
    FailsBefore s ∧ held = .nothing ∨
      ∃ sock, socketPath s = .ok sock ∧ bind s sock = .ok () ∧ FailsLater s p sock ∧
        held = { Held.nothing with accepting := !s.acceptFails } := by
  simp only [launch, fails_attempt_bind, serveRuntimeConnections, fails_update_bind,
    fails_guarded, fails_launchWorkflow, Unique.exists_iff, Held.nothing, FailsBefore,
    FailsLater, or_and_right, and_or_left, exists_or, and_assoc, ← exists_and_right, or_assoc]

end Steps

section Shutdown

variable {job : ProcessShutdown}

/-- A launch that succeeds holds the runtime it was asked for, and no other. -/
theorem gives_launch (h : (launch s p).Gives .nothing job held) :
    job.runtimeId = p.jobId ∧ ∃ handle,
      held.host = (Held.nothing.withRuntime p.jobId ⟨p.spec.workdir⟩ handle).host := by
  simp only [launch, gives_attempt_bind, serveRuntimeConnections, gives_update_bind,
    gives_guarded] at h
  obtain ⟨sock, -, _, -, _, -, bytes, -, _, -, hworkflow⟩ := h
  simp only [launchWorkflow, gives_bind (createRuntime _ _ _), gives_attempt_bind, spawnWorkflow,
    gives_update_bind, gives_bind (sendKickoff _ _), gives_pure] at hworkflow
  obtain ⟨_, t, hcreate, _, -, _, u, hkickoff, rfl, rfl⟩ := hworkflow
  obtain ⟨handle, -, rfl⟩ := (gives_createRuntime rfl _).mp hcreate
  obtain ⟨workflow, rfl⟩ := gives_sendKickoff hkickoff
  exact ⟨rfl, handle, rfl⟩

theorem handles_nil (h : ∀ id entry, held.host.registry.get id = some entry →
    entry.handle = none) : held.handles = [] :=
  List.filterMap_eq_nil_iff.mpr (fun e he => h e.1 e.2 (AList.mem_lookup_iff.mpr he))

/-- Destroying the only runtime leaves none, if that returns. -/
theorem destroyed_handles {handle : RuntimeHandle} {result : CallResult}
    (hhost : held.host = (Held.nothing.withRuntime id config handle).host)
    (h : (call client (.destroyRuntime id)).Gives held result held') : held'.handles = [] := by
  obtain ⟨hhead, rfl⟩ := (gives_call _ _).mp h
  have hentry : held.host.registry.get id = some ⟨id, .running, config, 0, some handle⟩ := by
    rw [hhost]
    exact RuntimeRegistry.get_insert _ _ rfl
  cases hstop : client.stop held.host.calls handle with
  | none =>
    rw [destroy_hangs hentry rfl rfl hstop] at hhead
    cases hhead
  | some stopped =>
    refine handles_nil (fun other entry hget => ?_)
    rw [destroy_succeeds hentry rfl rfl hstop, hhost] at hget
    by_cases hother : other = id
    · subst hother
      rw [RuntimeRegistry.get_erase_self] at hget
      cases hget
    · rw [RuntimeRegistry.get_erase_ne hother, stopping,
        RuntimeRegistry.get_insert_ne hother] at hget
      unfold Held.withRuntime creating at hget
      rw [RuntimeRegistry.get_insert_ne hother, RuntimeRegistry.get_insert_ne hother] at hget
      cases hget

/-- What a launch that succeeds gives away can be released: after its shutdown no accept
loop and no runtime is left. -/
theorem shutdown_releases (hlaunch : (launch s p).Gives .nothing job held)
    (hshutdown : job.shutdown.Gives held () held') :
    held'.accepting = false ∧ held'.handles = [] := by
  obtain ⟨hid, handle, hhost⟩ := gives_launch hlaunch
  obtain ⟨result, u, hcall, hcancel⟩ := (gives_bind _ _ _).mp hshutdown
  obtain rfl := (gives_update _ _).mp hcancel
  rw [hid] at hcall
  have hgone : u.handles = [] := destroyed_handles hhost hcall
  exact ⟨rfl, hgone⟩

end Shutdown

/-- A launch leaks nothing unless it fails after it has started to accept connections:
nobody cancels the accept loop then. -/
theorem leaks_nothing_iff (s : Surroundings) (p : LaunchParams) :
    LeaksNothing s p ↔ ¬ ∃ sock, Accepts s sock ∧ FailsLater s p sock := by
  constructor
  · rintro h ⟨sock, ⟨hpath, hbind, haccept⟩, hlater⟩
    obtain ⟨reason, hlaunch⟩ := launch_fails_iff.mpr (.inr ⟨sock, hpath, hbind, hlater, rfl⟩)
    have hreleased := (h reason _ hlaunch).1
    simp [haccept] at hreleased
  · intro h reason held hlaunch
    rcases launch_fails_iff.mp ⟨reason, hlaunch⟩ with ⟨-, rfl⟩ | ⟨sock, hpath, hbind, hlater, rfl⟩
    · exact ⟨rfl, rfl, rfl⟩
    · have haccept : s.acceptFails = true := by
        by_contra hne
        exact h ⟨sock, ⟨hpath, hbind, eq_false_of_ne_true hne⟩, hlater⟩
      refine ⟨?_, rfl, rfl⟩
      simp [haccept]

def fullDisk : Surroundings where
  tempDir := "/tmp"
  token := "0123456789abcdef0123456789abcdef"
  macos := false
  stateDir := "/home/ann/.october"
  createDirAll path :=
    if path = "/tmp/october-0123456789ab" then .ok ()
    else .error "No space left on device (os error 28)"
  setPermissions _ := .ok ()
  bindSocket _ := .ok ()
  acceptFails := false
  toVecPretty _ := .ok []
  write _ _ := .ok ()
  provider _ _ := ⟨fun _ _ _ => some (.ok 0), fun _ _ => some (.ok ())⟩
  connected _ := true
  workflowEnds := false

def greeting : LaunchParams where
  jobId := "0d9e8f7a"
  spec := ⟨⟨"greeter", []⟩, "greeting", "/work", "hello"⟩
  capabilities := ⟨.block, [.workingDir .readWrite]⟩
  kickoff := .start

theorem full_disk_leaks : ¬ LeaksNothing fullDisk greeting := by
  have hpath : socketPath fullDisk = .ok "/tmp/october-0123456789ab/rt.sock" := by
    decide +kernel
  have hbind : bind fullDisk "/tmp/october-0123456789ab/rt.sock" = .ok () := by
    decide +kernel
  have hdir : fullDisk.createDirAll (greeting.jobDir fullDisk) =
      .error "No space left on device (os error 28)" := by
    decide +kernel
  intro h
  obtain ⟨reason, hlaunch⟩ := launch_fails_iff.mpr
    (.inr ⟨_, hpath, hbind, .inl ⟨_, hdir⟩, rfl⟩)
  exact absurd (h reason _ hlaunch).1 (by decide)

end October.JobLaunch
