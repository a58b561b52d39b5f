import October.EndedJobs
import October.PacedJobs

/-!
What a drain waits for. The registry lists a submitted job as Running until the first
report of its actor, and an active job has reported nothing. So every job with a run in
flight is listed as Running, as long as no Resume and no Fork starts an agent and a
Cancel finds nothing that runs. A Resume does start a run, and reports nothing.
-/
namespace October.DrainWaits

open WorkflowInvariants RunTokens SupervisorInvariants RegistryRows StatusReports EndedJobs
  PacedJobs

def Listed (log : List SupervisorEvent) (id : JobId) : Prop :=
  ∃ record, row log id = some record ∧ record.status = .running

def isSubmission : SupervisorEvent → Bool
  | .jobSubmitted _ _ _ => true
  | _ => false

def cancels (d : Daemon) : DaemonLabel → List JobId
  | .workflow id label => if takesCancel (d.jobs id).system label then [id] else []
  | _ => []

/-- The steps of one process that start no run behind the registry's back. -/
def drainable (setting : Setting) (d : Daemon) (cancelled : List JobId) : DaemonLabel → Bool
  | .supervisorPersist false => (pending d).all (fun e => !isSubmission e)
  | .workflow id label =>
    (d.jobs id).spec.all (fun spec => decide (HandlesOnly
      (drains (setting.config spec) (decide (id ∈ cancelled)) (d.jobs id).system)
      (d.jobs id).system label))
  | .crash => false
  | _ => true

def Drainable (setting : Setting) (s : Daemon × List JobId) (l : DaemonLabel) : Prop :=
  drainable setting s.1 s.2 l = true

instance (setting : Setting) (s : Daemon × List JobId) (l : DaemonLabel) :
    Decidable (Drainable setting s l) := inferInstanceAs (Decidable (_ = true))

/-- The registry has heard of the job what its submission said. -/
structure Unreported (d : Daemon) (id : JobId) : Prop where
  reports : reports d id = []
  pending : ∀ e ∈ pending d, subject e = id → isSubmission e = true
  listed : Listed (registryRecord d) id

structure Waits (d : Daemon) (cancelled : List JobId) : Prop where
  blank : (∀ p, d.supervisor = some p → p.phase.isRecovering = true) → d.log = []
  paced : ∀ id, Paced (d.jobs id)
  hushed : ∀ id, Active (decide (id ∈ cancelled)) (d.jobs id) → Hushed (d.jobs id)
  unreported : ∀ id, Active (decide (id ∈ cancelled)) (d.jobs id) → Unreported d id

variable {setting : Setting} {d d' : Daemon} {id : JobId} {cancelled cancelled' : List JobId}
  {log events : List SupervisorEvent}

section Rows

/-- Events about other jobs leave the row. -/
theorem row_others (events : List SupervisorEvent) (h : ∀ e ∈ events, subject e ≠ id) :
    row (log ++ events) id = row log id := by
  induction events using List.reverseRecOn with
  | nil => rw [List.append_nil]
  | append_singleton events e ih =>
    rw [← List.append_assoc, row_other _ e (fun heq => h e (by simp) heq.symm)]
    exact ih (fun e' he' => h e' (List.mem_append_left _ he'))

theorem listed_submitted (log : List SupervisorEvent) (spec : JobSpec) (submittedAt : ℕ) :
    Listed (log ++ [.jobSubmitted id spec submittedAt]) id :=
  ⟨_, row_subject log (.jobSubmitted id spec submittedAt) rfl, rfl⟩

/-- A job stays listed as Running while nothing but submissions is heard of it. -/
theorem Listed.snoc (h : Listed log id) {e : SupervisorEvent}
    (he : subject e = id → isSubmission e = true) : Listed (log ++ [e]) id := by
  by_cases hid : id = subject e
  · cases e with
    | jobSubmitted id' spec submittedAt =>
      obtain rfl : id = id' := hid
      exact listed_submitted log spec submittedAt
    | jobStatusChanged _ _ | jobRemoved _ =>
      have hsubmission := he hid.symm
      contradiction
  · obtain ⟨record, hrow, hrunning⟩ := h
    exact ⟨record, (row_other log e hid).trans hrow, hrunning⟩

end Rows

theorem waits_init : Waits Daemon.init [] where
  blank _ := rfl
  paced _ := paced_empty
  hushed _ _ := ⟨rfl, fun p hp => by contradiction⟩
  unreported _ h := by
    refine absurd h (not_active ?_)
    rfl

/-- A step of one job within its slot. -/
theorem Waits.setJob (h : Waits d cancelled) {slot : JobSlot} (hpaced : Paced slot)
    (hkept : ∀ i ∈ cancelled, i ∈ cancelled')
    (hcalms : Calms (decide (id ∈ cancelled)) (decide (id ∈ cancelled')) (d.jobs id) slot) :
    Waits (d.setJob id slot) cancelled' := by
  obtain ⟨hblank, hpaces, hhushed, hunreported⟩ := h
  have hactive : ∀ i, Active (decide (i ∈ cancelled')) ((d.setJob id slot).jobs i) →
      Active (decide (i ∈ cancelled)) (d.jobs i) := by
    refine setJob_all (fun i slot => Active (decide (i ∈ cancelled')) slot →
      Active (decide (i ∈ cancelled)) (d.jobs i)) hcalms.active (fun i _ hi => ?_)
    refine hi.mono (fun hnot => ?_)
    rw [decide_eq_false_iff_not] at hnot ⊢
    exact fun hmem => hnot (hkept i hmem)
  refine ⟨hblank, setJob_all (fun _ slot => Paced slot) hpaced (fun i _ => hpaces i),
    fun i hi => ?_, fun i hi => ?_⟩
  · refine setJob_all (fun i slot => Active (decide (i ∈ cancelled')) slot → Hushed (d.jobs i) →
      Hushed slot) (fun hi hold => hcalms.hushed hi hold) (fun _ _ _ hold => hold) i hi ?_
    exact hhushed i (hactive i hi)
  · obtain ⟨hreports, hpending, hlisted⟩ := hunreported i (hactive i hi)
    exact ⟨hreports, hpending, hlisted⟩

/-- A command for the supervisor, which reports nothing of an active job. -/
theorem Waits.tell (h : Waits d cancelled) {command : SupervisorCommand}
    (hquiet : ∀ id, Active (decide (id ∈ cancelled)) (d.jobs id) → reported id command = none) :
    Waits (d.tellSupervisor command) cancelled := by
  obtain ⟨hblank, hpaces, hhushed, hunreported⟩ := h
  have hframe := registryFrame_tell command d
  refine ⟨fun hdown => hblank (tell_down hdown), hpaces, hhushed, fun i hi => ?_⟩
  obtain ⟨hreports, hpending, hlisted⟩ := hunreported i hi
  refine ⟨(reports_untold (hquiet i hi)).trans hreports, ?_, ?_⟩
  · rw [hframe.pending]
    exact hpending
  · rw [hframe.record]
    exact hlisted

section Supervisor

variable {p : SupervisorProc} {command : SupervisorCommand} {rest : List SupervisorCommand}
  {reply : SupervisorReply}

/-- What becomes of a job when the supervisor has handled a command: it calms, or it is
the one that was submitted. -/
theorem Waits.answered_job (h : Waits d cancelled) (hd : Orderly d)
    (hreply : reply = SupervisorActor.handleCommand d.nextJob p.children p.state command)
    (id : JobId) :
    Paced ((d.answered p rest reply).jobs id) ∧
      (Calms (decide (id ∈ cancelled)) (decide (id ∈ cancelled)) (d.jobs id)
          ((d.answered p rest reply).jobs id) ∨
        (reports d id = [] ∧ Hushed ((d.answered p rest reply).jobs id) ∧
          ∃ spec submittedAt, reply.effect.events = [.jobSubmitted id spec submittedAt])) := by
  rcases handled_plain hreply with ⟨spec, submittedAt, rfl⟩ | ⟨hspawned, hplain⟩
  · subst hreply
    by_cases hid : id = d.nextJob
    · subst hid
      obtain ⟨hproc, hreports⟩ := hd.undrawn d.nextJob (Nat.le_refl _)
      obtain ⟨hpaced, hhushed⟩ := (h.paced d.nextJob).submitted hproc spec
      have hslot : (d.answered p rest (SupervisorActor.handleCommand d.nextJob p.children p.state
          (.submit spec submittedAt))).jobs d.nextJob =
            ((d.jobs d.nextJob).spawn spec).tell .start := by
        simp [Daemon.answered, SupervisorActor.handleCommand, Daemon.tells, Daemon.spawns]
      rw [hslot]
      exact ⟨hpaced, Or.inr ⟨hreports, hhushed, spec, submittedAt, rfl⟩⟩
    · have hslot : (d.answered p rest (SupervisorActor.handleCommand d.nextJob p.children p.state
          (.submit spec submittedAt))).jobs id = d.jobs id := by
        simp [Daemon.answered, SupervisorActor.handleCommand, Daemon.tells, Daemon.spawns,
          Function.update_of_ne hid]
      rw [hslot]
      exact ⟨h.paced id, Or.inl calms_refl⟩
  · obtain ⟨hpaced, hcalms⟩ := tells_plain (decide (id ∈ cancelled)) hplain d.jobs (h.paced id)
    have hjobs : (d.answered p rest reply).jobs = Daemon.tells reply.told d.jobs := by
      unfold Daemon.answered
      rw [hspawned]
      rfl
    rw [hjobs]
    exact ⟨hpaced, Or.inl hcalms⟩

/-- What a handler leaves to be written about an active job is its submission only. -/
theorem Waits.leaves (h : Waits d cancelled) (ht : Tracked d) (hp : d.supervisor = some p)
    (hphase : p.phase = .waiting) (hmailbox : p.mailbox = command :: rest)
    (hleaves : Leaves d.nextJob p.state command events)
    (hactive : Active (decide (id ∈ cancelled)) (d.jobs id)) :
    (∀ e ∈ events, subject e = id → isSubmission e = true) ∧ Listed (d.log ++ events) id := by
  obtain ⟨hreports, _, hlisted⟩ := h.unreported id hactive
  rw [registryRecord_idle hp (by rw [hphase]; rfl)] at hlisted
  have hsnoc : ∀ e, (subject e = id → isSubmission e = true) →
      (∀ e' ∈ [e], subject e' = id → isSubmission e' = true) ∧ Listed (d.log ++ [e]) id := by
    intro e he
    refine ⟨fun e' he' => ?_, hlisted.snoc he⟩
    rw [List.mem_singleton.mp he']
    exact he
  cases hleaves with
  | nothing _ _ =>
    rw [List.append_nil]
    exact ⟨fun e he => by contradiction, hlisted⟩
  | submission spec submittedAt => exact hsnoc _ (fun _ => rfl)
  | report id' status =>
    refine hsnoc _ (fun hid => ?_)
    obtain rfl : id' = id := hid
    simp [reports, mailbox, hp, hmailbox, reported] at hreports
  | removal id' record hrow hterminal =>
    refine hsnoc _ (fun hid => ?_)
    obtain rfl : id' = id := hid
    obtain ⟨record', hrow', hrunning⟩ := hlisted
    rw [ht p hp (by rw [hphase]; rfl)] at hrow
    cases Option.some.inj (hrow.symm.trans hrow')
    rw [hrunning] at hterminal
    contradiction

theorem Waits.handled (h : Waits d cancelled) (hd : Orderly d) (ht : Tracked d)
    (hp : d.supervisor = some p) (hphase : p.phase = .waiting)
    (hmailbox : p.mailbox = command :: rest)
    (hreply : reply = SupervisorActor.handleCommand d.nextJob p.children p.state command) :
    Waits (d.answered p rest reply) cancelled := by
  have hpending : pending (d.answered p rest reply) = reply.effect.events := by
    simp [pending, Daemon.answered]
  refine ⟨fun hdown => absurd hdown answered_up, fun i => (h.answered_job hd hreply i).1,
    fun i hi => ?_, fun i hi => ?_⟩
  · rcases (h.answered_job hd hreply i).2 with hcalms | ⟨_, hhushed, _⟩
    · exact hcalms.hushed hi (h.hushed i (hcalms.active hi))
    · exact hhushed
  · have hreports : reports d i = [] → reports (d.answered p rest reply) i = [] := by
      intro hnone
      rw [reports_answered hp hmailbox reply, List.append_eq_nil_iff] at hnone
      exact hnone.2
    rcases (h.answered_job hd hreply i).2 with hcalms | ⟨hnone, _, spec, submittedAt, hevents⟩
    · have hactive := hcalms.active hi
      obtain ⟨hsubmissions, hlisted⟩ :=
        h.leaves ht hp hphase hmailbox (handled_leaves hreply) hactive
      refine ⟨hreports (h.unreported i hactive).reports, ?_, ?_⟩
      · rw [hpending]
        exact hsubmissions
      · rw [registryRecord_answered]
        exact hlisted
    · refine ⟨hreports hnone, ?_, ?_⟩
      · rw [hpending, hevents]
        intro e he _
        rw [List.mem_singleton.mp he]
        rfl
      · rw [registryRecord_answered, hevents]
        exact listed_submitted d.log spec submittedAt

/-- A write keeps what is listed, and a failed one loses no submission. -/
theorem Waits.persisted (h : Waits d cancelled) {effect : CommandEffect SupervisorEvent}
    {ok : Bool} (hp : d.supervisor = some p) (hphase : p.phase = .performing effect)
    (hevents : events = if ok then effect.events else [])
    (hkept : ok = false → ∀ e ∈ pending d, isSubmission e = false) :
    Waits (d.persisted p effect events) cancelled := by
  have hpending : pending d = effect.events := by
    rw [pending_some hp, hphase, Phase.events_performing]
  obtain ⟨_, hpaces, hhushed, hunreported⟩ := h
  refine ⟨fun hdown => absurd hdown persisted_up, hpaces, hhushed, fun i hi => ?_⟩
  obtain ⟨hreports, hsubmissions, hlisted⟩ := hunreported i hi
  refine ⟨(reports_persisted hp effect events).trans hreports, fun e he => ?_, ?_⟩
  · simp [pending, Daemon.persisted] at he
  · rw [registryRecord_persisted, hevents]
    rw [registryRecord_eq, hpending] at hlisted
    cases ok with
    | true => exact hlisted
    | false =>
      have hothers : ∀ e ∈ effect.events, subject e ≠ i := by
        intro e he hid
        rw [← hpending] at he
        have hsubmission := hsubmissions e he hid
        rw [hkept rfl e he] at hsubmission
        contradiction
      unfold Listed at *
      rw [row_others effect.events hothers] at hlisted
      simpa using hlisted

theorem Waits.booted (h : Waits d cancelled) (hnone : d.supervisor = none) :
    Waits d.booted cancelled := by
  obtain ⟨hblank, hpaces, hhushed, hunreported⟩ := h
  have hlog := hblank (fun p hp => by rw [hnone] at hp; contradiction)
  have hrecord : registryRecord d = d.log := by simp [registryRecord, hnone]
  refine ⟨fun _ => hlog, hpaces, hhushed, fun i hi => ⟨rfl, fun e he => by contradiction, ?_⟩⟩
  rw [registryRecord_booted, ← hrecord]
  exact (hunreported i hi).listed

/-- The first process has nothing to recover. -/
theorem Waits.recovered (h : Waits d cancelled) (hp : d.supervisor = some p)
    (hphase : p.phase = .recovering) : Waits (d.recovered p) cancelled := by
  obtain ⟨hblank, hpaces, hhushed, hunreported⟩ := h
  have hlog := hblank (fun q hq => by
    cases Option.some.inj (hp.symm.trans hq)
    rw [hphase]
    rfl)
  have hjobs : (d.recovered p).jobs = d.jobs := by
    unfold Daemon.recovered
    rw [hlog]
    rfl
  refine ⟨fun hdown => ?_, by rw [hjobs]; exact hpaces, by rw [hjobs]; exact hhushed,
    fun i hi => ?_⟩
  · have hnot := hdown _ rfl
    contradiction
  · rw [hjobs] at hi
    obtain ⟨hreports, _, hlisted⟩ := hunreported i hi
    refine ⟨(reports_recovered hp).trans hreports, fun e he => by contradiction, ?_⟩
    rw [registryRecord_recovered, ← registryRecord_idle hp (by rw [hphase]; rfl)]
    exact hlisted

end Supervisor

theorem Waits.worked (h : Waits d cancelled) {label : Label} {spec : JobSpec} {system : System}
    (hspec : (d.jobs id).spec = some spec) (hinternal : internal label = true)
    (hnext : next (setting.config spec) (d.jobs id).system label = some system)
    (hdrains : drainable setting d cancelled (.workflow id label) = true) :
    Waits (d.setJob id { d.jobs id with system := system })
      (cancelled ++ cancels d (.workflow id label)) := by
  have hguard : HandlesOnly (drains (setting.config spec) (decide (id ∈ cancelled))
      (d.jobs id).system) (d.jobs id).system label := by
    simpa [drainable, hspec] using hdrains
  obtain ⟨hpaced, hcalms⟩ := (h.paced id).worked hinternal hguard hnext
  refine h.setJob hpaced (fun i hi => List.mem_append_left _ hi) ?_
  have hsame : decide (id ∈ cancelled ++ cancels d (.workflow id label)) =
      (decide (id ∈ cancelled) || takesCancel (d.jobs id).system label) := by
    by_cases htakes : takesCancel (d.jobs id).system label = true
    · simp [cancels, htakes]
    · simp [cancels, htakes]
  rw [hsame]
  exact hcalms

theorem Waits.handledJob (h : Waits d cancelled) {launch : Except String Unit} {slot : JobSlot}
    {status : Option JobStatus} (hslot : (d.jobs id).handle launch = some (slot, status)) :
    Waits ((d.setJob id slot).report id status) cancelled := by
  obtain ⟨hpaced, hcalms, hquiet⟩ := (h.paced id).handle hslot
  have hset : Waits (d.setJob id slot) cancelled := h.setJob hpaced (fun _ hi => hi) hcalms
  cases status with
  | none => exact hset
  | some status =>
    refine hset.tell (fun i hi => ?_)
    by_cases hid : id = i
    · subst hid
      rw [setJob_same] at hi
      have hnone := hquiet hi (h.hushed id (hcalms.active hi))
      contradiction
    · simp [reported, hid]

theorem Waits.step (h : Waits d cancelled) (hd : Orderly d) (ht : Tracked d) {l : DaemonLabel}
    (hl : drainable setting d cancelled l = true) (hstep : DaemonStep setting d l d') :
    Waits d' (cancelled ++ cancels d l) := by
  have hsame : Waits d' cancelled → Waits d' (cancelled ++ []) := by
    rw [List.append_nil]
    exact fun h => h
  have hjob : ∀ {id slot}, Paced slot → Calms (decide (id ∈ cancelled)) (decide (id ∈ cancelled))
      (d.jobs id) slot → Waits (d.setJob id slot) cancelled :=
    fun hpaced hcalms => h.setJob hpaced (fun _ hi => hi) hcalms
  cases hstep with
  | booted hnone => exact hsame (h.booted hnone)
  | requested command hrequestable =>
    exact hsame (h.tell (fun _ _ => reported_request hrequestable))
  | recovered p hp hphase => exact hsame (h.recovered hp hphase)
  | handled p command rest reply hp hphase hmailbox hreply =>
    exact hsame (h.handled hd ht hp hphase hmailbox hreply)
  | persisted p effect events ok hp hphase hevents =>
    refine hsame (h.persisted hp hphase hevents (fun hfailed e he => ?_))
    subst hfailed
    have hall : (pending d).all (fun e => !isSubmission e) = true := hl
    simpa using List.all_eq_true.mp hall e he
  | jobRecovered id launch slot hslot =>
    obtain ⟨hpaced, hcalms⟩ := (h.paced id).recover hslot
    exact hsame (hjob hpaced hcalms)
  | jobHandled id launch slot status hslot => exact hsame (h.handledJob hslot)
  | jobPersisted id ok slot hslot =>
    obtain ⟨hpaced, hcalms⟩ := (h.paced id).persist hslot
    exact hsame (hjob hpaced hcalms)
  | forwarded id slot hslot =>
    obtain ⟨hpaced, hcalms⟩ := (h.paced id).forward hslot
    exact hsame (hjob hpaced hcalms)
  | worked id label spec system hspec hinternal hnext => exact h.worked hspec hinternal hnext hl
  | crashed => contradiction

theorem waits_reachable {s : Daemon × List JobId}
    (hrun : Machine.Run (Machine.observed (Daemon.next setting) cancels) (Drainable setting)
      (Daemon.init, []) s) : Waits s.1 s.2 ∧ Tracked s.1 := by
  have hinv := hrun.invariant (fun s => (Orderly s.1 ∧ Tracked s.1) ∧ Waits s.1 s.2)
    (fun s l t hinv hl hstep => ?_) ⟨⟨orderly_init, tracked_init⟩, waits_init⟩
  · exact ⟨hinv.2, hinv.1.2⟩
  · obtain ⟨⟨hd, ht⟩, hw⟩ := hinv
    obtain ⟨hnext, hcancels⟩ := Machine.observed_step hstep
    have hstep' := daemon_step hnext
    rw [hcancels]
    exact ⟨⟨hd.step ht hstep', ht.step hstep'⟩, hw.step hd ht hl hstep'⟩

def running (state : SupervisorState) : ℕ :=
  ((SupervisorActor.listed state).filter (fun summary => summary.status == .running)).length

theorem running_of_listed {state : SupervisorState} {record : JobRecord}
    (hrow : state.jobs.lookup id = some record) (hrunning : record.status = .running) :
    running state ≠ 0 := by
  intro hzero
  have hentry : ⟨id, record⟩ ∈ state.jobs.entries := AList.mem_lookup_iff.mp hrow
  have hmem : SupervisorActor.summary id record ∈ (SupervisorActor.listed state).filter
      (fun summary => summary.status == .running) := by
    refine List.mem_filter.mpr ⟨List.mem_map.mpr ⟨_, hentry, rfl⟩, ?_⟩
    simp [SupervisorActor.summary, hrunning]
  rw [List.length_eq_zero_iff.mp hzero] at hmem
  contradiction

/-- A run of the process in which no Resume and no Fork starts an agent and a Cancel finds
nothing that runs: a job with a run in flight is Running in the registry's journal and what
is being written to it, and a supervisor that waits lists it so, for a drain to see. -/
theorem drain_waits (setting : Setting) (d : Daemon) (cancelled : List JobId)
    (hrun : Machine.Run (Machine.observed (Daemon.next setting) cancels) (Drainable setting)
      (Daemon.init, []) (d, cancelled)) :
    (∀ id, 0 < unfinished (d.jobs id).system → Listed (registryRecord d) id) ∧
      ∀ p, d.supervisor = some p → p.phase = .waiting →
        (∀ id, 0 < unfinished (d.jobs id).system → ∃ record,
          p.state.jobs.lookup id = some record ∧ record.status = .running) ∧
        (running p.state = 0 → ∀ id, unfinished (d.jobs id).system = 0) := by
  obtain ⟨hwaits, htracked⟩ := waits_reachable hrun
  have hlisted : ∀ id, 0 < unfinished (d.jobs id).system → Listed (registryRecord d) id := by
    intro id hflight
    have hactive : Active (decide (id ∈ cancelled)) (d.jobs id) := by
      refine Or.inr (Or.inl ?_)
      unfold starting
      omega
    exact (hwaits.unreported id hactive).listed
  refine ⟨hlisted, fun p hp hphase => ?_⟩
  have hheld : ∀ id, 0 < unfinished (d.jobs id).system → ∃ record,
      p.state.jobs.lookup id = some record ∧ record.status = .running := by
    intro id hflight
    have hrow := hlisted id hflight
    rw [registryRecord_idle hp (by rw [hphase]; rfl)] at hrow
    rw [htracked p hp (by rw [hphase]; rfl)]
    exact hrow
  refine ⟨hheld, fun hzero id => ?_⟩
  by_cases hflight : 0 < unfinished (d.jobs id).system
  · obtain ⟨record, hrow, hrunning⟩ := hheld id hflight
    exact absurd hzero (running_of_listed hrow hrunning)
  · omega

def launching : List DaemonLabel :=
  OrphanedJobs.submitting ++ OrphanedJobs.starting ++
    [.workflow 0 (.agentRecover 0 "m0"), .workflow 0 (.agentHandle 0 "m1"),
      .workflow 0 (.agentPersist 0 true)]

def startedJob : Daemon × List JobId :=
  Machine.final (Machine.observed (Daemon.next OrphanedJobs.soloSetting) cancels)
    (Drainable OrphanedJobs.soloSetting) (Daemon.init, []) launching

theorem run_startedJob :
    Machine.Run (Machine.observed (Daemon.next OrphanedJobs.soloSetting) cancels)
      (Drainable OrphanedJobs.soloSetting) (Daemon.init, []) startedJob :=
  Machine.run_final launching (by decide +kernel)

theorem started_listed : Listed (registryRecord startedJob.1) 0 :=
  (drain_waits OrphanedJobs.soloSetting startedJob.1 startedJob.2 run_startedJob).1 0
    (by decide +kernel)

def Alive (_ : Daemon) (l : DaemonLabel) : Prop :=
  (match l with | .crash => false | _ => true) = true

instance (d : Daemon) (l : DaemonLabel) : Decidable (Alive d l) :=
  inferInstanceAs (Decidable (_ = true))

def quiet (slot : JobSlot) : Bool :=
  slot.proc.all (fun p => p.mailbox.isEmpty) && slot.system.channel.isEmpty &&
    slot.system.workflow.all (fun wf => wf.mailbox.isEmpty) &&
    slot.system.agents.all (fun p => p.mailbox.isEmpty)

def Quiescent (d : Daemon) : Prop :=
  (∃ p, d.supervisor = some p ∧ p.phase = .waiting ∧ p.mailbox = []) ∧
    ∀ id, quiet (d.jobs id) = true

def resuming : List DaemonLabel :=
  launching ++
    [.request (.stop 0), .supervisorHandle, .jobHandle 0 (.ok ()), .workflow 0 .workflowHandle,
      .workflow 0 (.workflowPersist true), .workflow 0 (.agentHandle 0 "m2"),
      .workflow 0 (.runFinish 0 .cancelled), .workflow 0 (.agentHandle 0 "m3"),
      .workflow 0 (.agentPersist 0 true), .workflow 0 (.agentPersist 0 true), .forward 0,
      .jobHandle 0 (.ok ()), .jobPersist 0 true, .supervisorHandle, .supervisorPersist true,
      .request (.resume 0 "more"), .supervisorHandle, .jobHandle 0 (.ok ()),
      .workflow 0 .workflowHandle, .workflow 0 (.agentHandle 0 "m4"),
      .workflow 0 (.agentPersist 0 true)]

def resumedJob : Daemon :=
  Machine.final (Daemon.next OrphanedJobs.soloSetting) Alive Daemon.init resuming

theorem run_resumedJob :
    Machine.Run (Daemon.next OrphanedJobs.soloSetting) Alive Daemon.init resumedJob :=
  Machine.run_final resuming (by decide +kernel)

theorem resumed_unlisted :
    ¬ ∀ (setting : Setting) (d : Daemon), Machine.Run (Daemon.next setting) Alive Daemon.init d →
      Quiescent d → ∀ id, 0 < unfinished (d.jobs id).system → Listed d.log id := by
  intro h
  have hquiescent : Quiescent resumedJob := by
    refine ⟨⟨_, rfl, rfl, rfl⟩, fun id => ?_⟩
    cases id with
    | zero => decide +kernel
    | succ _ => rfl
  obtain ⟨record, hrow, hrunning⟩ := h OrphanedJobs.soloSetting resumedJob run_resumedJob
    hquiescent 0 (by decide +kernel)
  have hsuspended : row resumedJob.log 0 =
      some ⟨OrphanedJobs.soloSpec, .suspended, 0⟩ := rfl
  cases Option.some.inj (hrow.symm.trans hsuspended)
  contradiction

end October.DrainWaits
