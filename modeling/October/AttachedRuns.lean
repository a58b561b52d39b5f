import October.DaemonConnection
import October.TerminalOutcomes

/-!
A job that is run attached. The client submits it, follows its log until the stream ends,
then lists the jobs and turns the status it finds into its exit code, each over a connection
of its own. The stream ends when the job actor has stopped, and the actor has reported its
end before that; the report is in front of the listing in the supervisor's mailbox. A stream
that a crash of the daemon breaks off between two frames ends as well for the client, which
then lists on whatever daemon it reaches.
-/
namespace October.AttachedRuns

open SupervisorInvariants RegistryRows StatusReports EndedJobs

/-- Where the client stands between its three requests; behind its `List` wait so many
earlier commands. -/
inductive AttachPhase where
  | submitted
  | streaming
  | broken
  | ended
  | listing (ahead : ℕ)
  | exited (code : ℕ)
  | lost
  deriving DecidableEq

structure Attached where
  daemon : Daemon
  phase : AttachPhase

/-- The steps of the client beside those of the daemon; a stream that is cut off between
two frames, or within the header of one, is cut off cleanly. -/
inductive AttachLabel where
  | daemon (label : DaemonLabel)
  | follow
  | streamEnded
  | cutOff (clean : Bool)
  | list

def answeredRows (d : Daemon) : List JobSummary :=
  match d.supervisor with
  | none => []
  | some p =>
    match p.mailbox with
    | [] => []
    | command :: _ =>
      match (SupervisorActor.handleCommand d.nextJob p.children p.state command).answer with
      | some (.jobs rows) => rows
      | _ => []

/-- What a step of the daemon is to the client. -/
def AttachPhase.after (id : JobId) (d : Daemon) : AttachPhase → DaemonLabel → AttachPhase
  | .listing (ahead + 1), .supervisorHandle => .listing ahead
  | .listing 0, .supervisorHandle => .exited (DaemonConnection.exitCode id (answeredRows d))
  | .streaming, .crash => .broken
  | .listing _, .crash => .lost
  | phase, _ => phase

/-- The log stream may end: the job actor is gone, or is no child that could be asked for a
subscription. -/
def mayEnd (id : JobId) (d : Daemon) : Bool :=
  (d.jobs id).stopped || d.supervisor.all (fun p => decide (id ∉ p.children))

/-- A request over a new connection, refused if no daemon listens. -/
def connect (a : Attached) (phase : AttachPhase) : AttachPhase :=
  if a.daemon.supervisor.isSome then phase else .lost

def next (setting : Setting) (id : JobId) (a : Attached) : AttachLabel → Option Attached
  | .daemon label =>
    match a.phase with
    | .exited _ => none
    | .lost => none
    | phase =>
      (Daemon.next setting a.daemon label).map (fun d => ⟨d, phase.after id a.daemon label⟩)
  | .follow =>
    match a.phase with
    | .submitted => some ⟨a.daemon, connect a .streaming⟩
    | _ => none
  | .streamEnded =>
    match a.phase with
    | .streaming => if mayEnd id a.daemon then some ⟨a.daemon, .ended⟩ else none
    | _ => none
  | .cutOff clean =>
    match a.phase with
    | .broken => some ⟨a.daemon, if clean then .ended else .lost⟩
    | _ => none
  | .list =>
    match a.phase with
    | .ended =>
      some ⟨a.daemon.tellSupervisor .list, connect a (.listing (mailbox a.daemon).length)⟩
    | _ => none

def sparesJob (id : JobId) : SupervisorCommand → Bool
  | .remove id' => id' != id
  | .shutdown => false
  | _ => true

def undisturbed (id : JobId) (d : Daemon) : DaemonLabel → Bool
  | .supervisorHandle => (mailbox d).head?.all (sparesJob id)
  | .supervisorPersist ok => ok || (pending d).all (fun e => subject e != id)
  | .jobPersist id' ok => ok || id' != id
  | _ => true

def AttachPhase.requests : AttachPhase → Bool
  | .streaming => true
  | .broken => true
  | .listing _ => true
  | _ => false

/-- Nothing ends the job early, the daemon does not crash while the client is between two
requests, and no crash cuts its log stream off cleanly. -/
def calm (id : JobId) (a : Attached) : AttachLabel → Bool
  | .daemon .crash => a.phase.requests
  | .daemon label => undisturbed id a.daemon label
  | .cutOff clean => !clean
  | _ => true

def Undisturbed (id : JobId) (a : Attached) (l : AttachLabel) : Prop := calm id a l = true

instance (id : JobId) (a : Attached) (l : AttachLabel) : Decidable (Undisturbed id a l) :=
  inferInstanceAs (Decidable (_ = true))

section Rows

theorem find_summary (entries : List (Sigma (fun _ : JobId => JobRecord))) (id : JobId) :
    ((entries.map (fun e => SupervisorActor.summary e.1 e.2)).find?
      (fun j => j.jobId == id)).map JobSummary.status =
      (entries.dlookup id).map JobRecord.status := by
  induction entries with
  | nil => rfl
  | cons e entries ih =>
    obtain ⟨id', record⟩ := e
    by_cases hid : id' = id
    · subst hid
      simp [SupervisorActor.summary]
    · rw [List.map_cons, List.find?_cons_of_neg (by simp [SupervisorActor.summary, hid]), ih,
        List.dlookup_cons_ne _ _ (Ne.symm hid)]

/-- The exit code for a listed job. -/
theorem exitCode_listed {state : SupervisorState} {id : JobId} {record : JobRecord}
    (h : state.jobs.lookup id = some record) :
    DaemonConnection.exitCode id (SupervisorActor.listed state) =
      if record.status = .failed then 1 else 0 := by
  have hfind : ((SupervisorActor.listed state).find? (fun j => j.jobId == id)).map
      JobSummary.status = some record.status := by
    rw [SupervisorActor.listed, find_summary]
    exact congrArg (Option.map JobRecord.status) h
  rw [DaemonConnection.exitCode, hfind]
  cases record.status <;> rfl

/-- Events about other jobs leave a row as it is. -/
theorem row_unrelated {log events : List SupervisorEvent} {id : JobId}
    (h : ∀ e ∈ events, subject e ≠ id) : row (log ++ events) id = row log id := by
  induction events using List.reverseRecOn with
  | nil => rw [List.append_nil]
  | append_singleton events e ih =>
    rw [← List.append_assoc, row_other _ e (fun heq => h e (by simp) heq.symm)]
    exact ih (fun e' he' => h e' (List.mem_append_left _ he'))

theorem eq_singleton {events : List SupervisorEvent} {e : SupervisorEvent}
    (h : events.length ≤ 1) (he : e ∈ events) : events = [e] := by
  match events with
  | [] => contradiction
  | [_] => rw [List.mem_singleton.mp he]
  | _ :: _ :: _ => simp at h

end Rows

section Slots

variable {slot slot' : JobSlot} {status : JobStatus}

def isShutdown : JobCommand → Bool
  | .shutdown => true
  | _ => false

def Tame (slot : JobSlot) : Prop :=
  ∀ p, slot.proc = some p → ∀ command ∈ p.mailbox, isShutdown command = false

theorem Tame.tell {command : JobCommand} (h : Tame slot) (hcommand : isShutdown command = false) :
    Tame (slot.tell command) := by
  intro p hp c hc
  obtain ⟨q, hq, rfl⟩ := Option.map_eq_some_iff.mp hp
  unfold JobProc.tell at hc
  split at hc
  · exact h q hq c hc
  · rcases List.mem_append.mp hc with hc | hc
    · exact h q hq c hc
    · rw [List.mem_singleton.mp hc]
      exact hcommand

def Ends (slot : JobSlot) (status : JobStatus) : Prop :=
  ∃ p, slot.proc = some p ∧
    ((p.phase = .stopped ∧ (JobActor.fold slot.log).status = some status) ∨
      ∃ e, p.phase = .performing (.persistAndStop [e]) ∧ JobActor.eventStatus e = status)

theorem ends_congr (hlog : slot'.log = slot.log)
    (hphase : slot'.proc.map JobProc.phase = slot.proc.map JobProc.phase)
    (h : Ends slot status) : Ends slot' status := by
  obtain ⟨p, hp, hends⟩ := h
  rw [hp] at hphase
  obtain ⟨p', hp', hsame⟩ := Option.map_eq_some_iff.mp hphase
  exact ⟨p', hp', by rwa [hsame, hlog]⟩

theorem over_congr (hphase : slot'.proc.map JobProc.phase = slot.proc.map JobProc.phase) :
    Over slot' ↔ Over slot := by
  have h := congrArg (Option.all Phase.stopping) hphase
  rw [Option.all_map, Option.all_map] at h
  unfold Over
  exact Eq.to_iff (congrArg (· = true) h)

theorem Ends.persist {ok : Bool} (h : Ends slot status) (hok : ok = true)
    (hpersist : slot.persist ok = some slot') : Ends slot' status := by
  obtain ⟨p, hp, hends⟩ := h
  obtain ⟨q, effect, events, hq, hphase, rfl, rfl⟩ := JobSlot.persist_cases hpersist
  obtain rfl : p = q := Option.some.inj (hp.symm.trans hq)
  rcases hends with ⟨hstopped, -⟩ | ⟨e, hperforming, hstatus⟩
  · rw [hstopped] at hphase
    cases hphase
  · rw [hperforming] at hphase
    cases hphase
    subst hok
    refine ⟨_, rfl, .inl ⟨rfl, ?_⟩⟩
    simp [JobActor.fold, JobActor.applyEvent, CommandEffect.events, hstatus]

/-- Unless it is shut down, a job actor goes on behind a command or reports an end, which it
is about to journal. -/
theorem handled_ends (launch : Except String Unit) (holds : Bool) (command : JobCommand)
    (h : isShutdown command = false) :
    (JobActor.handleCommand launch holds command).effect.stops = false ∨
      ∃ e, (JobActor.handleCommand launch holds command).effect = .persistAndStop [e] ∧
        (JobActor.handleCommand launch holds command).reported = some (JobActor.eventStatus e) ∧
        SupervisorActor.isTerminal (JobActor.eventStatus e) = true := by
  cases command with
  | start =>
    cases launch with
    | ok _ => exact .inl rfl
    | error error => exact .inr ⟨.jobFailed error, rfl, rfl, rfl⟩
  | resume message =>
    cases holds with
    | true => exact .inl rfl
    | false =>
      cases launch with
      | ok _ => exact .inl rfl
      | error error => exact .inr ⟨.jobFailed error, rfl, rfl, rfl⟩
  | workflowEvent notification =>
    cases notification with
    | finished output => exact .inr ⟨.jobConcluded output, rfl, rfl, rfl⟩
    | failed error => exact .inr ⟨.jobFailed error, rfl, rfl, rfl⟩
    | suspended | awaitingUserInput _ => exact .inl rfl
  | stop | subscribe => exact .inl rfl
  | shutdown => cases h

theorem not_over_phase {p : JobProc} (hp : slot'.proc = some p) (h : p.phase.stopping = false) :
    ¬ Over slot' := by
  rw [over_some hp, h]
  simp

theorem Ends.over (h : Ends slot status) : Over slot := by
  obtain ⟨p, hp, ⟨hstopped, -⟩ | ⟨e, hperforming, -⟩⟩ := h
  · rw [over_some hp, hstopped]
    rfl
  · rw [over_some hp, hperforming]
    rfl

/-- What a job actor that has stopped has journaled. -/
theorem Ends.journaled (h : Ends slot status) (hstopped : slot.stopped = true) :
    (JobActor.fold slot.log).status = some status := by
  obtain ⟨p, hp, ⟨-, hfold⟩ | ⟨e, hperforming, -⟩⟩ := h
  · exact hfold
  · rw [JobSlot.stopped, hp, Option.all_some, hperforming] at hstopped
    contradiction

theorem stopped_congr (hphase : slot'.proc.map JobProc.phase = slot.proc.map JobProc.phase)
    (h : slot.stopped = true) : slot'.stopped = true := by
  have hsame := congrArg (Option.all Phase.isStopped) hphase
  rw [Option.all_map, Option.all_map] at hsame
  exact hsame.trans h

end Slots

section Daemons

variable {setting : Setting} {d d' : Daemon} {id : JobId} {label : DaemonLabel}

/-- The supervisor serves the job and has its row, and no command ends the job early. -/
structure Kept (id : JobId) (d : Daemon) : Prop where
  orderly : Orderly d
  tracked : Tracked d
  child : ∃ p, d.supervisor = some p ∧ p.phase.isRecovering = false ∧ id ∈ p.children
  listed : row (registryRecord d) id ≠ none
  single : (pending d).length ≤ 1
  tame : Tame (d.jobs id)

theorem Kept.drawn (hd : Kept id d) : id < d.nextJob := by
  obtain ⟨e, he, hsubject⟩ := row_heard hd.listed
  rw [← hsubject]
  exact hd.orderly.drawn e he

theorem Kept.recovered (hd : Kept id d) {p : SupervisorProc} (hp : d.supervisor = some p) :
    p.phase ≠ .recovering := by
  obtain ⟨q, hq, hphase, -⟩ := hd.child
  cases Option.some.inj (hp.symm.trans hq)
  intro h
  rw [h] at hphase
  contradiction

/-- Commands that spare the job neither take it from the supervisor's children nor have it
shut down. -/
theorem spared_handled {command : SupervisorCommand} {fresh : JobId} {children : List JobId}
    {state : SupervisorState} {reply : SupervisorReply} (h : sparesJob id command = true)
    (hreply : reply = SupervisorActor.handleCommand fresh children state command)
    (hchild : id ∈ children) :
    id ∈ reply.children ∧ ∀ t ∈ reply.told, isShutdown t.2 = false := by
  subst hreply
  have htold : ∀ (id' : JobId) (c : JobCommand), isShutdown c = false →
      ∀ t ∈ SupervisorActor.toChild children id' c, isShutdown t.2 = false := by
    intro id' c hc t ht
    unfold SupervisorActor.toChild at ht
    split at ht
    · rw [List.mem_singleton.mp ht]
      exact hc
    · contradiction
  cases command with
  | submit spec submittedAt =>
    refine ⟨List.mem_insert_of_mem hchild, fun t ht => ?_⟩
    rw [List.mem_singleton.mp ht]
    rfl
  | list | jobStatusChanged _ _ => exact ⟨hchild, fun t ht => by contradiction⟩
  | stop id' | resume id' _ | subscribe id' => exact ⟨hchild, htold id' _ rfl⟩
  | shutdown => contradiction
  | remove id' =>
    have hid : id ≠ id' := by
      have hne : id' ≠ id := by simpa [sparesJob] using h
      exact hne.symm
    simp only [SupervisorActor.handleCommand]
    cases state.jobs.lookup id' with
    | none => exact ⟨hchild, fun t ht => by contradiction⟩
    | some record =>
      by_cases hterminal : SupervisorActor.isTerminal record.status = true
      · simp only [hterminal, if_true]
        exact ⟨(List.mem_erase_of_ne hid).mpr hchild, fun t ht => by contradiction⟩
      · simp only [if_neg hterminal]
        exact ⟨hchild, fun t ht => by contradiction⟩

/-- What is written, or is not, leaves the job's row as the supervisor holds it. -/
theorem persisted_row {p : SupervisorProc} {effect : CommandEffect SupervisorEvent}
    {events : List SupervisorEvent} {ok : Bool} (hp : d.supervisor = some p)
    (hphase : p.phase = .performing effect) (hevents : events = if ok then effect.events else [])
    (hl : undisturbed id d (.supervisorPersist ok) = true) :
    row (d.log ++ events) id = row (registryRecord d) id := by
  have hpending : pending d = effect.events := by
    rw [pending_some hp, hphase, Phase.events_performing]
  rw [registryRecord_eq, hpending]
  subst hevents
  cases ok with
  | true => rfl
  | false =>
    have hothers : ∀ e ∈ effect.events, subject e ≠ id := by
      simpa [undisturbed, hpending] using hl
    rw [if_neg (by simp), List.append_nil, row_unrelated hothers]

theorem Tame.step (h : Tame (d.jobs id)) (hd : Kept id d) (hl : undisturbed id d label = true)
    (hstep : DaemonStep setting d label d') : Tame (d'.jobs id) := by
  have hslot : ∀ (i : JobId) (slot : JobSlot), (i = id → Tame slot) →
      Tame ((d.setJob i slot).jobs id) := fun i slot hnew =>
    setJob_all (fun j slot => j = id → Tame slot) hnew (fun j _ hj => by rw [hj]; exact h) id rfl
  cases hstep with
  | booted _ | requested _ _ | persisted _ _ _ _ _ _ _ => exact h
  | recovered p hp hphase => exact absurd hphase (hd.recovered hp)
  | handled p command rest reply hp hphase hmailbox hreply =>
    obtain ⟨q, hq, -, hchild⟩ := hd.child
    cases Option.some.inj (hp.symm.trans hq)
    have hspares : sparesJob id command = true := by
      simpa [undisturbed, mailbox, hp, hmailbox] using hl
    obtain ⟨-, htold⟩ := spared_handled hspares hreply hchild
    refine tells_kept_of Tame (fun c => isShutdown c = false) (fun _ _ hc hslot => hslot.tell hc)
      reply.told htold _ id ?_
    rw [handled_spawns hreply d.jobs (Nat.ne_of_lt hd.drawn)]
    exact h
  | jobRecovered i launch slot hrecover =>
    refine hslot i slot (fun hi => ?_)
    subst hi
    obtain ⟨p, hproc, -, rfl⟩ := JobSlot.recover_cases hrecover
    intro q hq
    cases Option.some.inj hq
    exact h p hproc
  | jobHandled i launch slot status hhandle =>
    have htame : Tame ((d.setJob i slot).jobs id) := by
      refine hslot i slot (fun hi => ?_)
      subst hi
      obtain ⟨p, command, rest, hproc, -, hmailbox, rfl, -⟩ := JobSlot.handle_cases hhandle
      intro q hq
      cases Option.some.inj hq
      exact fun c hc => h p hproc c (by rw [hmailbox]; exact List.mem_cons_of_mem _ hc)
    cases status <;> exact htame
  | jobPersisted i ok slot hpersist =>
    refine hslot i slot (fun hi => ?_)
    subst hi
    obtain ⟨p, effect, events, hproc, -, -, rfl⟩ := JobSlot.persist_cases hpersist
    intro q hq
    cases Option.some.inj hq
    exact h p hproc
  | forwarded i slot hforward =>
    refine hslot i slot (fun hi => ?_)
    subst hi
    obtain ⟨n, rest, -, rfl⟩ := JobSlot.forward_cases hforward
    exact Tame.tell (fun p hp => h p hp) rfl
  | worked i label spec system _ _ _ =>
    exact hslot i _ (fun hi => by subst hi; exact fun p hp => h p hp)
  | crashed => exact fun p hp => by contradiction

/-- A supervisor that stays as it is but for its mailbox keeps the job. -/
theorem Kept.frame (hd : Kept id d) (ho : Orderly d') (ht : Tracked d')
    (hframe : RegistryFrame d d') (htame : Tame (d'.jobs id))
    (hchild : ∀ p, d.supervisor = some p →
      ∃ q, d'.supervisor = some q ∧ q.phase = p.phase ∧ q.children = p.children) :
    Kept id d' := by
  obtain ⟨p, hp, hphase, hmem⟩ := hd.child
  obtain ⟨q, hq, hsame, hchildren⟩ := hchild p hp
  exact ⟨ho, ht, ⟨q, hq, by rwa [hsame], by rwa [hchildren]⟩,
    by rw [hframe.record]; exact hd.listed, by rw [hframe.pending]; exact hd.single, htame⟩

theorem told_supervisor (command : SupervisorCommand) (p : SupervisorProc)
    (hp : d.supervisor = some p) : ∃ q, (d.tellSupervisor command).supervisor = some q ∧
      q.phase = p.phase ∧ q.children = p.children :=
  ⟨p.tell command, by simp [Daemon.tellSupervisor, hp], SupervisorProc.tell_phase _ p,
    SupervisorProc.tell_children _ p⟩

theorem Kept.step (hd : Kept id d) (hl : undisturbed id d label = true) (hcrash : label ≠ .crash)
    (hstep : DaemonStep setting d label d') : Kept id d' := by
  have ho := hd.orderly.step hd.tracked hstep
  have ht := hd.tracked.step hstep
  have htame := hd.tame.step hd hl hstep
  have hframe : registers label = false → RegistryFrame d d' := fun h => hstep.frame h
  have hsame : ∀ p, d.supervisor = some p →
      ∃ q, d.supervisor = some q ∧ q.phase = p.phase ∧ q.children = p.children :=
    fun p hp => ⟨p, hp, rfl, rfl⟩
  cases hstep with
  | booted hnone =>
    obtain ⟨q, hq, -⟩ := hd.child
    rw [hnone] at hq
    contradiction
  | requested command hrequestable =>
    exact hd.frame ho ht (hframe rfl) htame (told_supervisor command)
  | recovered p hp hphase => exact absurd hphase (hd.recovered hp)
  | handled p command rest reply hp hphase hmailbox hreply =>
    obtain ⟨q, hq, -, hchild⟩ := hd.child
    cases Option.some.inj (hp.symm.trans hq)
    have hspares : sparesJob id command = true := by
      simpa [undisturbed, mailbox, hp, hmailbox] using hl
    have hleaves := handled_leaves hreply
    have hlisted : row d.log id ≠ none := by
      have h := hd.listed
      rwa [registryRecord_idle hp (by rw [hphase]; rfl)] at h
    refine ⟨ho, ht, ⟨_, rfl, Phase.isRecovering_handled reply.effect,
      (spared_handled hspares hreply hchild).1⟩, ?_, ?_, htame⟩
    · rw [registryRecord_answered]
      refine (row_kept reply.effect.events (Or.inl hlisted)).resolve_right (fun hremoved => ?_)
      generalize reply.effect.events = events at hleaves hremoved
      cases hleaves with
      | nothing _ _ | submission _ _ | report _ _ => simp at hremoved
      | removal id' record _ _ =>
        have hid : id = id' := by simpa using hremoved
        simp [sparesJob, hid] at hspares
    · have hpending : pending (d.answered p rest reply) = reply.effect.events := by
        simp [pending, Daemon.answered]
      rw [hpending]
      exact hleaves.length_le
  | persisted p effect events ok hp hphase hevents =>
    obtain ⟨q, hq, -, hchild⟩ := hd.child
    cases Option.some.inj (hp.symm.trans hq)
    refine ⟨ho, ht, ⟨_, rfl, Phase.isRecovering_called effect, hchild⟩, ?_,
      by simp [pending, Daemon.persisted], htame⟩
    rw [registryRecord_persisted, persisted_row hp hphase hevents hl]
    exact hd.listed
  | jobHandled i launch slot status hhandle =>
    refine hd.frame ho ht (hframe rfl) htame ?_
    cases status with
    | none => exact hsame
    | some status => exact told_supervisor (.jobStatusChanged i status)
  | jobRecovered _ _ _ _ | jobPersisted _ _ _ _ | forwarded _ _ _ | worked _ _ _ _ _ _ _ =>
    exact hd.frame ho ht (hframe rfl) htame hsame
  | crashed => exact absurd rfl hcrash

def remaining (front : List SupervisorCommand) : DaemonLabel → List SupervisorCommand
  | .supervisorHandle => front.tail
  | _ => front

/-- The supervisor takes from the front of its mailbox, and is told at the end. -/
theorem mailbox_step (hd : Kept id d) (hcrash : label ≠ .crash)
    (hstep : DaemonStep setting d label d') :
    ∃ more, mailbox d' = remaining (mailbox d) label ++ more := by
  obtain ⟨p, hp, -⟩ := hd.child
  have hstopped := not_stopped (hd.orderly.awake p hp)
  cases hstep with
  | booted hnone =>
    rw [hnone] at hp
    contradiction
  | requested command _ => exact ⟨[command], mailbox_tell hp hstopped command⟩
  | recovered q hq hphase => exact absurd hphase (hd.recovered hq)
  | handled q command rest reply hq hphase hmailbox hreply =>
    exact ⟨[], by simp [mailbox, Daemon.answered, remaining, hq, hmailbox]⟩
  | persisted q effect events ok hq hphase hevents =>
    exact ⟨[], by simp [mailbox, Daemon.persisted, remaining, hq]⟩
  | jobHandled i launch slot status _ =>
    cases status with
    | none => exact ⟨[], (List.append_nil _).symm⟩
    | some status =>
      exact ⟨[.jobStatusChanged i status],
        mailbox_tell (d := d.setJob i slot) hp hstopped (.jobStatusChanged i status)⟩
  | jobRecovered _ _ _ _ | jobPersisted _ _ _ _ | forwarded _ _ _ | worked _ _ _ _ _ _ _ =>
    exact ⟨[], (List.append_nil _).symm⟩
  | crashed => exact absurd rfl hcrash

def Learned (id : JobId) (status : JobStatus) (d : Daemon) (front : List SupervisorCommand) :
    Prop :=
  status ∈ front.filterMap (reported id) ∨ .jobStatusChanged id status ∈ pending d ∨
    ∃ record, row d.log id = some record ∧ record.status = status

section Learned

variable {status : JobStatus} {front front' : List SupervisorCommand}

theorem Learned.mono (h : Learned id status d front) (hmore : front <+: front') :
    Learned id status d front' := by
  refine h.imp (fun hmem => ?_) (fun h => h)
  obtain ⟨more, rfl⟩ := hmore
  rw [List.filterMap_append]
  exact List.mem_append_left _ hmem

theorem Learned.frame (h : Learned id status d front) (hframe : RegistryFrame d d') :
    Learned id status d' front := by
  unfold Learned
  rw [hframe.pending, hframe.log]
  exact h

theorem Learned.handled (h : Learned id status d front) (hfront : front <+: mailbox d)
    {p : SupervisorProc} {command : SupervisorCommand} {rest : List SupervisorCommand}
    {reply : SupervisorReply} (hp : d.supervisor = some p) (hphase : p.phase = .waiting)
    (hmailbox : p.mailbox = command :: rest)
    (hreply : reply = SupervisorActor.handleCommand d.nextJob p.children p.state command) :
    Learned id status (d.answered p rest reply) front.tail := by
  rcases h with hmem | hmem | hrow
  · have hall : mailbox d = command :: rest := by simp [mailbox, hp, hmailbox]
    rw [hall] at hfront
    cases front with
    | nil => contradiction
    | cons c front =>
      obtain rfl : c = command := (List.cons_prefix_cons.mp hfront).1
      rw [List.filterMap_cons] at hmem
      cases hreported : reported id c with
      | none =>
        rw [hreported] at hmem
        exact Or.inl hmem
      | some status' =>
        rw [hreported] at hmem
        rcases List.mem_cons.mp hmem with rfl | hmem
        · refine Or.inr (Or.inl ?_)
          have hpending : pending (d.answered p rest reply) = reply.effect.events := by
            simp [pending, Daemon.answered]
          rw [hpending]
          exact ((handled_leaves hreply).report_iff id status).mpr hreported
        · exact Or.inl hmem
  · rw [pending_some hp, hphase] at hmem
    contradiction
  · exact Or.inr (Or.inr hrow)

/-- An end that the supervisor writes it lists, and then nothing about the job is written. -/
theorem Learned.persisted (h : Learned id status d front)
    (hterminal : SupervisorActor.isTerminal status = true) (hd : Kept id d)
    {p : SupervisorProc} {effect : CommandEffect SupervisorEvent}
    {events : List SupervisorEvent} {ok : Bool} (hp : d.supervisor = some p)
    (hphase : p.phase = .performing effect) (hevents : events = if ok then effect.events else [])
    (hl : undisturbed id d (.supervisorPersist ok) = true) :
    Learned id status (d.persisted p effect events) front := by
  have hwritten := persisted_row hp hphase hevents hl
  have hlisted := hd.listed
  have hlawful := hd.orderly.lawful
  refine h.imp (fun h => h) (fun h => Or.inr ?_)
  change ∃ record, row (d.log ++ events) id = some record ∧ record.status = status
  rw [hwritten, registryRecord_eq]
  rw [registryRecord_eq] at hlisted hlawful
  rcases h with hmem | ⟨record, hrow, rfl⟩
  · rw [eq_singleton hd.single hmem] at hlisted ⊢
    have hid : id = subject (.jobStatusChanged id status) := rfl
    rw [row_subject d.log (.jobStatusChanged id status) hid] at hlisted ⊢
    obtain ⟨record, hrow⟩ := Option.ne_none_iff_exists'.mp hlisted
    obtain ⟨old, -, rfl⟩ := Option.map_eq_some_iff.mp hrow
    exact ⟨_, hrow, rfl⟩
  · have hended : Ended d.log id := ⟨record, hrow, hterminal⟩
    rcases hlawful.ended hended with hstill | hnone
    · rw [row_unrelated (fun e he hsubject => ?_)]
      · exact ⟨record, hrow, rfl⟩
      · rw [eq_singleton hd.single he] at hlawful hlisted
        rw [row_subject d.log _ hsubject.symm] at hlisted
        have hpermits := hlawful.last
        cases e with
        | jobSubmitted id' spec submittedAt =>
          obtain ⟨e', he', hsubject'⟩ := hended.heard
          exact hpermits e' he' (hsubject'.trans hsubject.symm)
        | jobStatusChanged id' status' =>
          have hid : id' = id := hsubject
          rw [hid] at hpermits
          exact hpermits hended
        | jobRemoved id' => exact hlisted rfl
    · exact absurd hnone hlisted

theorem Learned.step (h : Learned id status d front)
    (hterminal : SupervisorActor.isTerminal status = true) (hd : Kept id d)
    (hfront : front <+: mailbox d) (hl : undisturbed id d label = true) (hcrash : label ≠ .crash)
    (hstep : DaemonStep setting d label d') :
    Learned id status d' (remaining front label) := by
  have hframe : registers label = false → RegistryFrame d d' := fun h => hstep.frame h
  cases hstep with
  | handled p command rest reply hp hphase hmailbox hreply =>
    exact h.handled hfront hp hphase hmailbox hreply
  | persisted p effect events ok hp hphase hevents =>
    exact h.persisted hterminal hd hp hphase hevents hl
  | crashed => exact absurd rfl hcrash
  | booted hnone =>
    obtain ⟨p, hp, -⟩ := hd.child
    rw [hnone] at hp
    contradiction
  | recovered p hp hphase => exact absurd hphase (hd.recovered hp)
  | requested _ _ | jobHandled _ _ _ _ _ | jobRecovered _ _ _ _ | jobPersisted _ _ _ _
  | forwarded _ _ _ | worked _ _ _ _ _ _ _ => exact h.frame (hframe rfl)

end Learned

section Ending

/-- A job actor that ends handles nothing more; it journals its end. -/
theorem ending_step (P : JobSlot → Prop) (hover : ∀ slot, P slot → Over slot)
    (hcongr : ∀ slot slot' : JobSlot, slot'.log = slot.log →
      slot'.proc.map JobProc.phase = slot.proc.map JobProc.phase → P slot → P slot')
    (hpersist : ∀ slot slot', P slot → slot.persist true = some slot' → P slot')
    (h : P (d.jobs id)) (hd : Kept id d) (hl : undisturbed id d label = true)
    (hcrash : label ≠ .crash) (hstep : DaemonStep setting d label d') : P (d'.jobs id) := by
  have hslot : ∀ (i : JobId) (slot : JobSlot), (i = id → P slot) →
      P ((d.setJob i slot).jobs id) := fun i slot hnew =>
    setJob_all (fun j slot => j = id → P slot) hnew (fun j _ hj => by rw [hj]; exact h) id rfl
  cases hstep with
  | booted _ | requested _ _ | persisted _ _ _ _ _ _ _ => exact h
  | recovered p hp hphase => exact absurd hphase (hd.recovered hp)
  | handled p command rest reply hp hphase hmailbox hreply =>
    exact answered_kept P (fun slot c hslot => hcongr slot _ rfl
      (TerminalOutcomes.tell_phases c slot) hslot) hreply (Nat.ne_of_lt hd.drawn) h
  | jobRecovered i launch slot hrecover =>
    refine hslot i slot (fun hi => ?_)
    subst hi
    obtain ⟨p, hproc, hphase, -⟩ := JobSlot.recover_cases hrecover
    exact absurd (hover _ h) (not_over_recovering hproc hphase)
  | jobHandled i launch slot status hhandle =>
    have hjob : P ((d.setJob i slot).jobs id) := by
      refine hslot i slot (fun hi => ?_)
      subst hi
      obtain ⟨p, command, rest, hproc, hphase, -⟩ := JobSlot.handle_cases hhandle
      exact absurd (hover _ h) (not_over_waiting hproc hphase)
    cases status <;> exact hjob
  | jobPersisted i ok slot hstored =>
    refine hslot i slot (fun hi => ?_)
    subst hi
    obtain rfl : ok = true := by simpa [undisturbed] using hl
    exact hpersist _ _ h hstored
  | forwarded i slot hforward =>
    refine hslot i slot (fun hi => ?_)
    subst hi
    obtain ⟨n, rest, -, rfl⟩ := JobSlot.forward_cases hforward
    exact hcongr (d.jobs i) _ rfl (TerminalOutcomes.tell_phases _ _) h
  | worked i label spec system _ _ _ =>
    exact hslot i _ (fun hi => by subst hi; exact hcongr (d.jobs i) _ rfl rfl h)
  | crashed => exact absurd rfl hcrash

variable {status : JobStatus}

theorem Ends.step (h : Ends (d.jobs id) status) (hd : Kept id d)
    (hl : undisturbed id d label = true) (hcrash : label ≠ .crash)
    (hstep : DaemonStep setting d label d') : Ends (d'.jobs id) status :=
  ending_step (fun slot => Ends slot status) (fun _ h => h.over)
    (fun _ _ hlog hphase h => ends_congr hlog hphase h)
    (fun _ _ h hpersist => h.persist rfl hpersist) h hd hl hcrash hstep

theorem stopped_step (h : (d.jobs id).stopped = true) (hd : Kept id d)
    (hl : undisturbed id d label = true) (hcrash : label ≠ .crash)
    (hstep : DaemonStep setting d label d') : (d'.jobs id).stopped = true := by
  refine ending_step (fun slot => slot.stopped = true) (fun _ h => over_stopped h)
    (fun _ _ _ hphase h => stopped_congr hphase h) (fun slot slot' h hpersist => ?_) h hd hl hcrash
    hstep
  obtain ⟨p, effect, events, hproc, hphase, -, -⟩ := JobSlot.persist_cases hpersist
  rw [JobSlot.stopped, hproc, Option.all_some, hphase] at h
  contradiction

/-- A job actor that goes on reports no end; one that ends has told the supervisor so. -/
theorem active_step (h : ¬ Over (d.jobs id)) (hd : Kept id d) (hcrash : label ≠ .crash)
    (hstep : DaemonStep setting d label d') :
    ¬ Over (d'.jobs id) ∨ ∃ status, SupervisorActor.isTerminal status = true ∧
      Ends (d'.jobs id) status ∧ status ∈ reports d' id := by
  have hslot : ∀ (i : JobId) (slot : JobSlot), (i = id → ¬ Over slot) →
      ¬ Over ((d.setJob i slot).jobs id) := fun i slot hnew =>
    setJob_all (fun j slot => j = id → ¬ Over slot) hnew
      (fun j _ hj => by rw [hj]; exact h) id rfl
  have htold : ∀ (slot : JobSlot) (c : JobCommand), ¬ Over slot → ¬ Over (slot.tell c) :=
    fun slot c hnot hover => hnot ((over_congr (TerminalOutcomes.tell_phases c slot)).mp hover)
  cases hstep with
  | booted _ | requested _ _ | persisted _ _ _ _ _ _ _ => exact Or.inl h
  | recovered p hp hphase => exact absurd hphase (hd.recovered hp)
  | handled p command rest reply hp hphase hmailbox hreply =>
    exact Or.inl (answered_kept (fun slot => ¬ Over slot) htold hreply (Nat.ne_of_lt hd.drawn) h)
  | jobRecovered i launch slot hrecover =>
    refine Or.inl (hslot i slot (fun _ => ?_))
    obtain ⟨p, hproc, -, rfl⟩ := JobSlot.recover_cases hrecover
    exact not_over_phase rfl rfl
  | jobHandled i launch slot status hhandle =>
    by_cases hi : i = id
    · subst hi
      obtain ⟨p, command, rest, hproc, hphase, hmailbox, rfl, rfl⟩ := JobSlot.handle_cases hhandle
      have hspared : isShutdown command = false :=
        hd.tame p hproc command (by rw [hmailbox]; exact List.mem_cons_self)
      rcases handled_ends launch p.holds command hspared with hgoes |
        ⟨e, heffect, hreported, hterminal⟩
      · refine Or.inl ?_
        have hover : ¬ Over ((d.jobs i).answered p rest
            (JobActor.handleCommand launch p.holds command)) :=
          not_over_phase rfl ((Phase.stopping_handled _).trans hgoes)
        cases (JobActor.handleCommand launch p.holds command).reported <;>
          simpa [Daemon.report, Daemon.tellSupervisor, setJob_same] using hover
      · obtain ⟨q, hq, -⟩ := hd.child
        refine Or.inr ⟨_, hterminal, ?_, ?_⟩
        · rw [hreported]
          change Ends ((d.setJob i _).jobs i) _
          rw [setJob_same]
          exact ⟨_, rfl, .inr ⟨e, by rw [heffect]; rfl, rfl⟩⟩
        · rw [hreported, Daemon.report, reports_tell (d := d.setJob i _) hq
            (not_stopped (hd.orderly.awake q hq))]
          simp [reported]
    · refine Or.inl ?_
      have hjob : ¬ Over ((d.setJob i slot).jobs id) := hslot i slot (fun heq => absurd heq hi)
      cases status <;> exact hjob
  | jobPersisted i ok slot hstored =>
    refine Or.inl (hslot i slot (fun hi => ?_))
    subst hi
    obtain ⟨p, effect, events, hproc, hphase, -, rfl⟩ := JobSlot.persist_cases hstored
    rw [over_some hproc, hphase, Bool.not_eq_true] at h
    exact not_over_phase rfl ((Phase.stopping_called effect).trans h)
  | forwarded i slot hforward =>
    refine Or.inl (hslot i slot (fun hi => ?_))
    subst hi
    obtain ⟨n, rest, -, rfl⟩ := JobSlot.forward_cases hforward
    exact htold _ _ h
  | worked i label spec system _ _ _ =>
    exact Or.inl (hslot i _ (fun hi => by subst hi; exact h))
  | crashed => exact absurd rfl hcrash

end Ending

end Daemons

/-- What the client may rely on. Until its stream has ended, an end of the job is on its way
to the supervisor; from then on the job has ended, and when the client lists, that end is
in front of its listing. -/
inductive Stands (id : JobId) : Attached → Prop
  | following (d : Daemon) (phase : AttachPhase) : phase = .submitted ∨ phase = .streaming →
      Kept id d → (¬ Over (d.jobs id) ∨ ∃ status, SupervisorActor.isTerminal status = true ∧
        Ends (d.jobs id) status ∧ Learned id status d (mailbox d)) →
      Stands id ⟨d, phase⟩
  | broken (d : Daemon) : Stands id ⟨d, .broken⟩
  | ended (d : Daemon) (status : JobStatus) : Kept id d →
      SupervisorActor.isTerminal status = true → Ends (d.jobs id) status →
      (d.jobs id).stopped = true → Learned id status d (mailbox d) →
      Stands id ⟨d, .ended⟩
  | listing (d : Daemon) (before after : List SupervisorCommand) (status : JobStatus) :
      Kept id d → mailbox d = before ++ .list :: after →
      SupervisorActor.isTerminal status = true → Ends (d.jobs id) status →
      (d.jobs id).stopped = true → Learned id status d before →
      Stands id ⟨d, .listing before.length⟩
  | exited (d : Daemon) (code : ℕ) (status : JobStatus) :
      (JobActor.fold (d.jobs id).log).status = some status →
      SupervisorActor.isTerminal status = true → code = (if status = .failed then 1 else 0) →
      Stands id ⟨d, .exited code⟩
  | lost (d : Daemon) : Stands id ⟨d, .lost⟩

section Client

variable {setting : Setting} {id : JobId} {d d' : Daemon} {a b : Attached}

theorem after_kept {phase : AttachPhase} {label : DaemonLabel} (hcrash : label ≠ .crash)
    (h : ∀ ahead, phase ≠ .listing ahead) : phase.after id d label = phase := by
  cases phase with
  | listing ahead => exact absurd rfl (h ahead)
  | _ =>
    cases label with
    | crash => contradiction
    | _ => rfl

theorem after_listing {label : DaemonLabel} {before : List SupervisorCommand}
    (hcrash : label ≠ .crash) (h : before ≠ [] ∨ label ≠ .supervisorHandle) :
    AttachPhase.after id d (.listing before.length) label =
      .listing (remaining before label).length := by
  cases before with
  | nil =>
    cases label with
    | crash => contradiction
    | supervisorHandle => simp at h
    | _ => rfl
  | cons command before =>
    cases label with
    | crash => contradiction
    | _ => rfl

/-- The end that the supervisor is told stays in its mailbox until it has written it. -/
theorem learned_step {status : JobStatus} (hlearned : Learned id status d (mailbox d))
    (hterminal : SupervisorActor.isTerminal status = true) (hd : Kept id d)
    {label : DaemonLabel} (hl : undisturbed id d label = true) (hcrash : label ≠ .crash)
    (hstep : DaemonStep setting d label d') : Learned id status d' (mailbox d') := by
  obtain ⟨more, hmore⟩ := mailbox_step hd hcrash hstep
  exact (hlearned.step hterminal hd List.prefix_rfl hl hcrash hstep).mono ⟨more, hmore.symm⟩

theorem stands_following {phase : AttachPhase} (hphase : phase = .submitted ∨ phase = .streaming)
    (hd : Kept id d)
    (hends : ¬ Over (d.jobs id) ∨ ∃ status, SupervisorActor.isTerminal status = true ∧
      Ends (d.jobs id) status ∧ Learned id status d (mailbox d))
    {label : DaemonLabel} (hl : undisturbed id d label = true) (hcrash : label ≠ .crash)
    (hstep : DaemonStep setting d label d') : Stands id ⟨d', phase⟩ := by
  refine Stands.following d' phase hphase (hd.step hl hcrash hstep) ?_
  rcases hends with hactive | ⟨status, hterminal, hends, hlearned⟩
  · refine (active_step hactive hd hcrash hstep).imp (fun h => h) ?_
    rintro ⟨status, hterminal, hends, hreported⟩
    exact ⟨status, hterminal, hends, Or.inl hreported⟩
  · exact Or.inr ⟨status, hterminal, hends.step hd hl hcrash hstep,
      learned_step hlearned hterminal hd hl hcrash hstep⟩

theorem stands_listing {before after : List SupervisorCommand} {status : JobStatus}
    (hd : Kept id d) (hmailbox : mailbox d = before ++ .list :: after)
    (hterminal : SupervisorActor.isTerminal status = true) (hends : Ends (d.jobs id) status)
    (hstopped : (d.jobs id).stopped = true) (hlearned : Learned id status d before)
    {label : DaemonLabel} (hl : undisturbed id d label = true) (hcrash : label ≠ .crash)
    (hmoves : before ≠ [] ∨ label ≠ .supervisorHandle) (hstep : DaemonStep setting d label d') :
    Stands id ⟨d', .listing (remaining before label).length⟩ := by
  obtain ⟨more, hmore⟩ := mailbox_step hd hcrash hstep
  have hsplit : remaining (mailbox d) label = remaining before label ++ .list :: after := by
    rw [hmailbox]
    cases before with
    | nil =>
      cases label with
      | supervisorHandle => simp at hmoves
      | _ => rfl
    | cons command before => cases label <;> rfl
  rw [hsplit, List.append_assoc, List.cons_append] at hmore
  exact Stands.listing d' _ (after ++ more) status (hd.step hl hcrash hstep) hmore hterminal
    (hends.step hd hl hcrash hstep) (stopped_step hstopped hd hl hcrash hstep)
    (hlearned.step hterminal hd ⟨.list :: after, hmailbox.symm⟩ hl hcrash hstep)

/-- The supervisor has nothing more to write when it takes the listing, so it lists the end
of the job. -/
theorem stands_exited {after : List SupervisorCommand} {status : JobStatus} (hd : Kept id d)
    (hmailbox : mailbox d = .list :: after)
    (hterminal : SupervisorActor.isTerminal status = true) (hends : Ends (d.jobs id) status)
    (hstopped : (d.jobs id).stopped = true) (hlearned : Learned id status d [])
    (hl : undisturbed id d .supervisorHandle = true)
    (hstep : DaemonStep setting d .supervisorHandle d') :
    Stands id ⟨d', .exited (DaemonConnection.exitCode id (answeredRows d))⟩ := by
  have hends' := hends.step hd hl (by simp) hstep
  have hstopped' := stopped_step hstopped hd hl (by simp) hstep
  refine Stands.exited d' _ status (hends'.journaled hstopped') hterminal ?_
  cases hstep with
  | handled p command rest reply hp hphase hfront hreply =>
    have hcommand : mailbox d = command :: rest := by simp [mailbox, hp, hfront]
    obtain ⟨rfl, rfl⟩ : command = .list ∧ rest = after := by
      simpa using hcommand.symm.trans hmailbox
    have hrows : answeredRows d = SupervisorActor.listed p.state := by
      simp [answeredRows, hp, hfront, SupervisorActor.handleCommand]
    rcases hlearned with hmem | hmem | ⟨record, hrow, rfl⟩
    · contradiction
    · rw [pending_some hp, hphase] at hmem
      contradiction
    · have hstate : p.state = SupervisorActor.fold d.log := hd.tracked p hp (by rw [hphase]; rfl)
      rw [hrows, hstate]
      exact exitCode_listed hrow

/-- What a step of the daemon leaves of what the client may rely on. -/
theorem Stands.daemon (h : Stands id a) {label : DaemonLabel}
    (hl : Undisturbed id a (.daemon label)) (hstep : next setting id a (.daemon label) = some b) :
    Stands id b := by
  have hspared : label ≠ .crash → undisturbed id a.daemon label = true := by
    intro hcrash
    cases label with
    | crash => contradiction
    | _ => exact hl
  cases h with
  | exited _ _ _ _ _ _ | lost _ => contradiction
  | broken d =>
    obtain ⟨d', -, rfl⟩ := Option.map_eq_some_iff.mp hstep
    cases label <;> exact Stands.broken d'
  | following d phase hphase hd hends =>
    by_cases hcrash : label = .crash
    · subst hcrash
      rcases hphase with rfl | rfl
      · contradiction
      · have hbroken : (Daemon.next setting d .crash).map
            (fun d' => (⟨d', .broken⟩ : Attached)) = some b := hstep
        obtain ⟨d', -, rfl⟩ := Option.map_eq_some_iff.mp hbroken
        exact Stands.broken d'
    · have hlisting : ∀ ahead, phase ≠ .listing ahead := by
        rcases hphase with rfl | rfl <;> simp
      have hstep' : (Daemon.next setting d label).map
          (fun d' => (⟨d', phase.after id d label⟩ : Attached)) = some b := by
        rcases hphase with rfl | rfl <;> exact hstep
      obtain ⟨d', hd', rfl⟩ := Option.map_eq_some_iff.mp hstep'
      rw [after_kept hcrash hlisting]
      exact stands_following hphase hd hends (hspared hcrash) hcrash (daemon_step hd')
  | ended d status hd hterminal hends hstopped hlearned =>
    by_cases hcrash : label = .crash
    · subst hcrash
      contradiction
    · obtain ⟨d', hd', rfl⟩ := Option.map_eq_some_iff.mp hstep
      have hdone := daemon_step hd'
      rw [after_kept hcrash (by simp)]
      exact Stands.ended d' status (hd.step (hspared hcrash) hcrash hdone) hterminal
        (hends.step hd (hspared hcrash) hcrash hdone)
        (stopped_step hstopped hd (hspared hcrash) hcrash hdone)
        (learned_step hlearned hterminal hd (hspared hcrash) hcrash hdone)
  | listing d before after status hd hmailbox hterminal hends hstopped hlearned =>
    obtain ⟨d', hd', rfl⟩ := Option.map_eq_some_iff.mp hstep
    by_cases hcrash : label = .crash
    · subst hcrash
      cases before <;> exact Stands.lost d'
    · have hl' := hspared hcrash
      by_cases hmoves : before ≠ [] ∨ label ≠ .supervisorHandle
      · rw [after_listing hcrash hmoves]
        exact stands_listing hd hmailbox hterminal hends hstopped hlearned hl' hcrash hmoves
          (daemon_step hd')
      · obtain ⟨hbefore, hlabel⟩ := not_or.mp hmoves
        obtain rfl := Classical.not_not.mp hbefore
        obtain rfl := Classical.not_not.mp hlabel
        exact stands_exited hd hmailbox hterminal hends hstopped hlearned hl' (daemon_step hd')

/-- A client that connects to a daemon that serves its job is not refused. -/
theorem connect_kept {phase phase' : AttachPhase} (hd : Kept id d) :
    connect ⟨d, phase⟩ phase' = phase' := by
  obtain ⟨p, hp, -⟩ := hd.child
  rw [connect, hp]
  rfl

theorem Stands.step (h : Stands id a) {l : AttachLabel} (hl : Undisturbed id a l)
    (hstep : next setting id a l = some b) : Stands id b := by
  cases l with
  | daemon label => exact h.daemon hl hstep
  | follow =>
    cases h with
    | following d phase hphase hd hends =>
      rcases hphase with rfl | rfl
      · cases Option.some.inj hstep
        rw [connect_kept hd]
        exact Stands.following d _ (Or.inr rfl) hd hends
      · contradiction
    | _ => contradiction
  | streamEnded =>
    cases h with
    | following d phase hphase hd hends =>
      rcases hphase with rfl | rfl
      · contradiction
      · simp only [next] at hstep
        split at hstep
        · rename_i hmay
          cases Option.some.inj hstep
          obtain ⟨p, hp, -, hchild⟩ := hd.child
          have hstopped : (d.jobs id).stopped = true := by
            simpa [mayEnd, hp, hchild] using hmay
          rcases hends with hactive | ⟨status, hterminal, hends, hlearned⟩
          · exact absurd (over_stopped hstopped) hactive
          · exact Stands.ended d status hd hterminal hends hstopped hlearned
        · contradiction
    | _ => contradiction
  | cutOff clean =>
    cases h with
    | broken d =>
      obtain rfl : clean = false := by simpa [Undisturbed, calm] using hl
      cases Option.some.inj hstep
      exact Stands.lost d
    | following d phase hphase hd hends => rcases hphase with rfl | rfl <;> contradiction
    | _ => contradiction
  | list =>
    cases h with
    | ended d status hd hterminal hends hstopped hlearned =>
      cases Option.some.inj hstep
      obtain ⟨p, hp, -⟩ := hd.child
      have hframe := registryFrame_tell .list d
      have hdone : DaemonStep setting d (.request .list) (d.tellSupervisor .list) :=
        DaemonStep.requested .list rfl
      rw [connect_kept hd]
      exact Stands.listing _ (mailbox d) [] status (hd.step rfl (by simp) hdone)
        (mailbox_tell hp (not_stopped (hd.orderly.awake p hp)) .list) hterminal
        (hends.step hd rfl (by simp) hdone) (stopped_step hstopped hd rfl (by simp) hdone)
        (hlearned.frame hframe)
    | following d phase hphase hd hends => rcases hphase with rfl | rfl <;> contradiction
    | _ => contradiction

/-- The client has its job when the supervisor has answered the submission. -/
theorem stands_submitted {d0 : Daemon} {spec : JobSpec} {submittedAt : ℕ}
    (hd : Orderly d0) (ht : Tracked d0)
    (hhead : (mailbox d0).head? = some (.submit spec submittedAt))
    (hsubmit : DaemonStep setting d0 .supervisorHandle d) :
    Stands d0.nextJob ⟨d, .submitted⟩ := by
  have ho := hd.step ht hsubmit
  have ht' := ht.step hsubmit
  cases hsubmit with
  | handled p command rest reply hp hphase hmailbox hreply =>
    obtain rfl : command = .submit spec submittedAt := by
      simpa [mailbox, hp, hmailbox] using hhead
    subst hreply
    refine Stands.following _ _ (Or.inl rfl)
      ⟨ho, ht', ⟨_, rfl, rfl, List.mem_insert_self⟩, ?_, ?_, ?_⟩ (Or.inl ?_)
    · rw [registryRecord_answered]
      change row (d0.log ++ [.jobSubmitted d0.nextJob spec submittedAt]) d0.nextJob ≠ none
      have hid : d0.nextJob = subject (.jobSubmitted d0.nextJob spec submittedAt) := rfl
      rw [row_subject d0.log (.jobSubmitted d0.nextJob spec submittedAt) hid]
      simp [renewed]
    · simp [pending, Daemon.answered, SupervisorActor.handleCommand]
    · have hspawned : Tame ((d0.jobs d0.nextJob).spawn spec) := by
        intro q hq c hc
        cases Option.some.inj hq
        contradiction
      simpa [Daemon.answered, SupervisorActor.handleCommand, Daemon.tells, Daemon.spawns]
        using Tame.tell hspawned (show isShutdown .start = false from rfl)
    · have hspawned : ¬ Over (((d0.jobs d0.nextJob).spawn spec).tell .start) :=
        not_over_phase rfl rfl
      simpa [Daemon.answered, SupervisorActor.handleCommand, Daemon.tells, Daemon.spawns]
        using hspawned

end Client

/-- A job is run attached until the client exits, and meanwhile it is not removed, the
daemon is not shut down, what is written of the job is stored, and the daemon neither
crashes between two requests of the client nor so that its log stream is cut off cleanly.
Then the job's own journal has ended, and the client exits with 1 exactly if it says that
the job failed. -/
theorem exit_code_tells (setting : Setting) (d0 d1 : Daemon) (a : Attached) (spec : JobSpec)
    (submittedAt code : ℕ)
    (hrun : Machine.Run (Daemon.next setting) Machine.free Daemon.init d0)
    (hhead : (mailbox d0).head? = some (.submit spec submittedAt))
    (hsubmit : d0.supervisorHandle = some d1)
    (hattached : Machine.Run (next setting d0.nextJob) (Undisturbed d0.nextJob)
      ⟨d1, .submitted⟩ a)
    (hexit : a.phase = .exited code) :
    ∃ status, (JobActor.fold (a.daemon.jobs d0.nextJob).log).status = some status ∧
      SupervisorActor.isTerminal status = true ∧ code = if status = .failed then 1 else 0 := by
  obtain ⟨hd, ht⟩ := orderly_reachable hrun
  have hstep : DaemonStep setting d0 .supervisorHandle d1 := supervisorHandle_step hsubmit
  have hstands := hattached.invariant (Stands d0.nextJob)
    (fun _ _ _ h hl hstep => h.step hl hstep)
    (stands_submitted hd ht hhead hstep)
  cases hstands with
  | following _ phase hphase _ _ =>
    obtain rfl : phase = .exited code := hexit
    simp at hphase
  | broken _ | ended _ _ _ _ _ _ _ | listing _ _ _ _ _ _ _ _ _ _ | lost _ => contradiction
  | exited d code' status hstatus hterminal hcode =>
    cases hexit
    exact ⟨status, hstatus, hterminal, hcode⟩

def submitting : Daemon :=
  Machine.final (Daemon.next OrphanedJobs.soloSetting) Machine.free Daemon.init
    [.boot, .supervisorRecover, .request (.submit OrphanedJobs.soloSpec 0)]

theorem run_submitting :
    Machine.Run (Daemon.next OrphanedJobs.soloSetting) Machine.free Daemon.init submitting :=
  Machine.run_final _ (by decide +kernel)

def submitted : Daemon := (submitting.supervisorHandle).getD submitting

def failedRun : Attached :=
  Machine.final (next OrphanedJobs.soloSetting 0) (Undisturbed 0) ⟨submitted, .submitted⟩
    [.daemon (.supervisorPersist true), .daemon (.jobRecover 0 (.ok ())), .follow,
      .daemon (.jobHandle 0 (.error "no runtime")), .daemon (.jobPersist 0 true), .streamEnded,
      .list, .daemon .supervisorHandle, .daemon (.supervisorPersist true),
      .daemon .supervisorHandle]

theorem run_failedRun : Machine.Run (next OrphanedJobs.soloSetting 0) (Undisturbed 0)
    ⟨submitted, .submitted⟩ failedRun :=
  Machine.run_final _ (by decide +kernel)

theorem exit_code_tells_failure :
    ∃ status, (JobActor.fold (failedRun.daemon.jobs 0).log).status = some status ∧
      SupervisorActor.isTerminal status = true ∧ 1 = if status = .failed then 1 else 0 :=
  exit_code_tells OrphanedJobs.soloSetting submitting submitted failedRun OrphanedJobs.soloSpec 0 1
    run_submitting rfl rfl run_failedRun (by decide +kernel)

end October.AttachedRuns
