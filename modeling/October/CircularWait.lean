import October.BoundedMailboxes
import October.OrphanedJobs

/-!
Whether the supervisor and a job can wait for each other. Both send from inside their
handlers, and the supervisor awaits the acknowledgement of a Shutdown inside its handler
too, where a subscription is awaited off the mailbox. While it waits nobody drains its
mailbox: if that fills up before a job has made its report, neither of them goes on.
-/
namespace October.CircularWait

def WaitsOn (t : Tree) (id : JobId) : Prop :=
  ∃ job, t.jobs id = some job ∧ job.phase.isStopped = false ∧
    ((∃ command rest, t.supervisor.telling = (id, command) :: rest ∧
        hasSpace job.mailbox = false) ∨
      t.supervisor.telling = [] ∧ id ∈ t.supervisor.awaiting)

def Reporting (t : Tree) (id : JobId) : Prop :=
  hasSpace t.supervisor.mailbox = false ∧
    ∃ job, t.jobs id = some job ∧ job.phase.isStopped = false ∧ job.report.isSome = true

def NoCircularWait (t : Tree) : Prop := ∀ id, ¬ (WaitsOn t id ∧ Reporting t id)

def isShutdown : JobCommand → Bool
  | .shutdown => true
  | _ => false

def reports : JobCommand → Bool
  | .start => true
  | .resume _ => true
  | .workflowEvent _ => true
  | _ => false

/-- The commands the job takes before a Shutdown stops it. -/
def ahead (job : BoundedJob) : List JobCommand :=
  job.mailbox.takeWhile (fun command => !isShutdown command)

def followed (job : BoundedJob) : Bool :=
  job.forwards ||
    job.phase.isRecovering && (JobActor.onRecoveryComplete (.ok ()) job.state).isSome

def mayReport (job : BoundedJob) : Bool :=
  !job.phase.isStopped && job.report.isSome ||
    !job.phase.stopping &&
      ((ahead job).any reports || !job.mailbox.any isShutdown && followed job)

def pending (t : Tree) : List JobId := t.supervisor.telling.map Prod.fst ++ t.supervisor.awaiting

/-- The supervisor's mailbox has a slot to spare after the next message, or none of the
children it still waits for may report. -/
def spare (t : Tree) : Bool :=
  decide (t.supervisor.mailbox.length + 1 < mailboxCapacity) ||
    (pending t).all (fun id => (t.jobs id).all (fun job => !mayReport job))

def sparing (t : Tree) : TreeLabel → Bool
  | .request _ => spare t
  | .jobReport id => (t.jobs id).all (fun job => spare (t.setJob id job.sent))
  | _ => true

def Sparing (t : Tree) (l : TreeLabel) : Prop := sparing t l = true

instance (t : Tree) (l : TreeLabel) : Decidable (Sparing t l) :=
  inferInstanceAs (Decidable (_ = true))

section Jobs

variable {job job' : BoundedJob} {launch : Except String Unit}

theorem recovered_isSome (launch : Except String Unit) (state : JobState)
    (h : (JobActor.onRecoveryComplete (.ok ()) state).isSome = false) :
    JobActor.onRecoveryComplete launch state = none := by
  rw [JobActor.onRecoveryComplete_ok] at h
  unfold JobActor.onRecoveryComplete
  split
  · rename_i hstatus
    rw [if_pos hstatus] at h
    contradiction
  · rfl

/-- A job that has no report to send is silent unless a command makes it report, or a
workflow tells it of its progress while no Shutdown is queued. -/
theorem silent_iff (hreport : job.report = none) :
    mayReport job = false ↔ job.phase.stopping = true ∨
      (ahead job).any reports = false ∧
        (job.mailbox.any isShutdown = true ∨ followed job = false) := by
  simp [mayReport, hreport, or_iff_not_imp_left]

theorem silent_report (h : mayReport job = false) (hlive : job.phase.isStopped = false) :
    job.report = none := by
  cases hreport : job.report with
  | none => rfl
  | some status =>
    simp [mayReport, hreport, hlive] at h

theorem silent_stopped (hreport : job.report = none) (hphase : job.phase.stopping = true) :
    mayReport job = false :=
  (silent_iff hreport).mpr (Or.inl hphase)

theorem ahead_concat (mailbox : List JobCommand) (command : JobCommand)
    (hcommand : mailbox.any isShutdown = true ∨ reports command = false)
    (h : (mailbox.takeWhile (fun c => !isShutdown c)).any reports = false) :
    ((mailbox ++ [command]).takeWhile (fun c => !isShutdown c)).any reports = false := by
  induction mailbox with
  | nil =>
    rcases hcommand with hnone | hmute
    · contradiction
    · cases command <;> first | rfl | contradiction
  | cons c rest ih =>
    rw [List.cons_append]
    cases hc : isShutdown c with
    | true => simp [hc]
    | false =>
      simp only [List.takeWhile_cons, hc, Bool.not_false, if_true, List.any_cons,
        Bool.or_eq_false_iff] at h ⊢
      refine ⟨h.1, ih ?_ h.2⟩
      simpa [hc] using hcommand

/-- A message that makes the job report comes in only behind a Shutdown. -/
theorem silent_push (h : mayReport job = false) {command : JobCommand}
    (hcommand : job.mailbox.any isShutdown = true ∨ reports command = false) :
    mayReport (job.push command) = false := by
  cases hlive : job.phase.isStopped with
  | true =>
    have hstopping : job.phase.stopping = true := by
      cases hphase : job.phase <;> simp_all [Phase.isStopped, Phase.stopping]
    simp [mayReport, BoundedJob.push, hlive, hstopping]
  | false =>
    have hreport := silent_report h hlive
    have hpushed : (job.push command).report = none := hreport
    refine (silent_iff hpushed).mpr (((silent_iff hreport).mp h).imp_right ?_)
    rintro ⟨hahead, hfollowed⟩
    refine ⟨ahead_concat job.mailbox command hcommand hahead, hfollowed.imp_left ?_⟩
    intro hshutdown
    simp [BoundedJob.push, hshutdown]

theorem silent_unreadable (hjob : job.unreadable = some job') (h : mayReport job = false) :
    mayReport job' = false := by
  unfold BoundedJob.unreadable at hjob
  split at hjob
  · rename_i hphase
    have hreport := silent_report h (by rw [hphase]; rfl)
    cases Option.some.inj hjob
    exact silent_stopped hreport rfl
  · contradiction

theorem silent_recover (hjob : job.recover launch = some job') (h : mayReport job = false) :
    mayReport job' = false := by
  unfold BoundedJob.recover at hjob
  split at hjob
  · rename_i hphase
    have hreport := silent_report h (by rw [hphase]; rfl)
    cases Option.some.inj hjob
    rcases (silent_iff hreport).mp h with hstopping | ⟨hahead, hfollowed⟩
    · rw [hphase] at hstopping
      contradiction
    · refine (silent_iff ?_).mpr (Or.inr ⟨hahead, hfollowed.imp_right ?_⟩)
      · exact hreport
      intro hnone
      simp only [followed, hphase, Phase.isRecovering, Bool.true_and, Bool.or_eq_false_iff]
        at hnone
      simp [followed, Phase.isRecovering, recovered_isSome launch job.state hnone.2]
  · contradiction

theorem silent_take (hjob : job.take launch = some job') (h : mayReport job = false) :
    mayReport job' = false := by
  unfold BoundedJob.take at hjob
  split at hjob
  · rename_i command rest hphase hreport hmailbox
    cases Option.some.inj hjob
    rcases (silent_iff hreport).mp h with hstopping | ⟨hahead, hfollowed⟩
    · rw [hphase] at hstopping
      contradiction
    · have hrest : isShutdown command = false → ((rest.takeWhile (fun c => !isShutdown c)).any
          reports = false ∧ (rest.any isShutdown = true ∨ followed job = false)) := by
        intro hcommand
        simp only [ahead, hmailbox, List.takeWhile_cons, hcommand, Bool.not_false, if_true,
          List.any_cons, Bool.or_eq_false_iff, Bool.false_or] at hahead hfollowed
        exact ⟨hahead.2, hfollowed⟩
      have hmute : isShutdown command = false → reports command = false := by
        intro hcommand
        simp only [ahead, hmailbox, List.takeWhile_cons, hcommand, Bool.not_false, if_true,
          List.any_cons, Bool.or_eq_false_iff] at hahead
        exact hahead.1
      cases command with
      | shutdown => exact silent_stopped rfl rfl
      | stop | subscribe =>
        obtain ⟨hmuted, hquiet⟩ := hrest rfl
        refine (silent_iff rfl).mpr (Or.inr ⟨hmuted, hquiet.imp_right ?_⟩)
        intro hnone
        simpa [followed, hphase, Phase.isRecovering, JobActor.handleCommand, Phase.handled]
          using hnone
      | start | resume _ | workflowEvent _ =>
        have hreports := hmute rfl
        contradiction
  · contradiction

theorem silent_persist {ok : Bool} (hjob : job.persist ok = some job')
    (h : mayReport job = false) : mayReport job' = false := by
  unfold BoundedJob.persist at hjob
  split at hjob
  · rename_i effect hphase hreport
    cases Option.some.inj hjob
    rcases (silent_iff hreport).mp h with hstopping | ⟨hahead, hfollowed⟩
    · rw [hphase] at hstopping
      refine silent_stopped hreport ?_
      cases effect <;> first | rfl | contradiction
    · refine (silent_iff ?_).mpr (Or.inr ⟨hahead, hfollowed.imp_right ?_⟩)
      · exact hreport
      intro hnone
      have hforwards : job.forwards = false := by
        simpa [followed, hphase, Phase.isRecovering] using hnone
      simp [followed, hforwards]
  · contradiction

theorem silent_notify {notification : WorkflowNotification}
    (hjob : job.notify notification = some job') (h : mayReport job = false) :
    mayReport job' = false := by
  unfold BoundedJob.notify at hjob
  split at hjob
  · rename_i hopen
    cases Option.some.inj hjob
    simp only [Bool.and_eq_true, Bool.not_eq_true'] at hopen
    obtain ⟨⟨hforwards, hlive⟩, _⟩ := hopen
    have hreport := silent_report h hlive
    rcases (silent_iff hreport).mp h with hstopping | ⟨_, hshutdown | hnone⟩
    · exact silent_stopped hreport hstopping
    · exact silent_push h (Or.inl hshutdown)
    · simp [followed, hforwards] at hnone
  · contradiction

/-- A job that has made its report has none to send. -/
theorem silent_sent (h : mayReport job = false) : mayReport job.sent = false := by
  simp only [mayReport, Bool.or_eq_false_iff] at h ⊢
  exact ⟨by simp [BoundedJob.sent], h.2⟩

end Jobs

/-- None of the children that the command at hand waits for may report. -/
def Calm (t : Tree) : Prop :=
  ∀ id ∈ pending t, ∀ job, t.jobs id = some job → mayReport job = false

/-- Only a Shutdown is told to several children, and only it is awaited; a full mailbox
finds the supervisor waiting for nobody that may report. -/
structure Steady (t : Tree) : Prop where
  bounded : t.supervisor.mailbox.length ≤ mailboxCapacity
  told : t.supervisor.awaiting = [] ∧ t.supervisor.telling.length ≤ 1 ∨
    ∀ told ∈ t.supervisor.telling, isShutdown told.2 = true
  calm : hasSpace t.supervisor.mailbox = false → Calm t

variable {t t' : Tree}

theorem steady_start (state : SupervisorState) (journaled : JobId → JobState) (nextJob : JobId) :
    Steady (Tree.start state journaled nextJob) where
  bounded := Nat.zero_le _
  told := Or.inl ⟨rfl, Nat.zero_le _⟩
  calm hfull := by contradiction

theorem hasSpace_false {C : Type} {mailbox : List C} :
    hasSpace mailbox = false ↔ mailboxCapacity ≤ mailbox.length := by
  simp [hasSpace]

/-- A supervisor that waits for a child whose report is held up by a full mailbox waits
for one that may report. -/
theorem Steady.noCircularWait (h : Steady t) : NoCircularWait t := by
  intro id hcircle
  obtain ⟨⟨job, hjob, hlive, hwaits⟩, hfull, job', hjob', _, hreport⟩ := hcircle
  obtain rfl := Option.some.inj (hjob.symm.trans hjob')
  have hpending : id ∈ pending t := by
    rcases hwaits with ⟨command, rest, htelling, _⟩ | ⟨_, hawaiting⟩
    · simp [pending, htelling]
    · exact List.mem_append_right _ hawaiting
  have hsilent := h.calm hfull id hpending job hjob
  rw [silent_report hsilent hlive] at hreport
  contradiction

theorem spare_calm (h : spare t = true) :
    t.supervisor.mailbox.length + 1 < mailboxCapacity ∨ Calm t := by
  simp only [spare, Bool.or_eq_true, decide_eq_true_eq, List.all_eq_true] at h
  refine h.imp_right (fun hall id hid job hjob => ?_)
  have hjob' := hall id hid
  rw [hjob] at hjob'
  simpa using hjob'

/-- A message comes into the supervisor's mailbox. -/
theorem Steady.push (h : Steady t) {command : SupervisorCommand}
    (hspace : hasSpace t.supervisor.mailbox = true) (hspare : spare t = true) :
    Steady (t.push command) := by
  have hroom : t.supervisor.mailbox.length < mailboxCapacity := by
    simpa [hasSpace] using hspace
  have hlength : (t.push command).supervisor.mailbox.length =
      t.supervisor.mailbox.length + 1 := by
    simp [Tree.push]
  refine ⟨by omega, h.told, fun hfull => ?_⟩
  rw [hasSpace_false, hlength] at hfull
  rcases spare_calm hspare with hless | hcalm
  · omega
  · exact hcalm

/-- A job takes a step; it is silent if it was. -/
theorem Steady.setJob (h : Steady t) {id : JobId} {job job' : BoundedJob}
    (hjob : t.jobs id = some job) (hsilent : mayReport job = false → mayReport job' = false) :
    Steady (t.setJob id job') := by
  refine ⟨h.bounded, h.told, fun hfull other hother => ?_⟩
  have hcalm := h.calm hfull other hother
  intro q hq
  by_cases hid : other = id
  · subst hid
    simp only [Tree.setJob, Function.update_self, Option.some.injEq] at hq
    subst hq
    exact hsilent (hcalm job hjob)
  · simp only [Tree.setJob, Function.update_of_ne hid] at hq
    exact hcalm q hq

theorem Steady.stepJob (h : Steady t) {id : JobId} {step : BoundedJob → Option BoundedJob}
    (hstep : t.stepJob id step = some t')
    (hsilent : ∀ job job', step job = some job' → mayReport job = false →
      mayReport job' = false) : Steady t' := by
  obtain ⟨job', hbind, rfl⟩ := Option.map_eq_some_iff.mp hstep
  obtain ⟨job, hjob, hjob'⟩ := Option.bind_eq_some_iff.mp hbind
  exact h.setJob hjob (hsilent job job' hjob')

/-- A handler tells several children only a Shutdown, and awaits nobody else. -/
theorem handled_told (id : JobId) (children : List JobId) (state : SupervisorState)
    (command : SupervisorCommand) :
    (SupervisorActor.handleCommand id children state command).awaited = [] ∧
        (SupervisorActor.handleCommand id children state command).told.length ≤ 1 ∨
      ∀ told ∈ (SupervisorActor.handleCommand id children state command).told,
        isShutdown told.2 = true := by
  have hchild : ∀ jobId told, (SupervisorActor.toChild children jobId told).length ≤ 1 := by
    intro jobId told
    unfold SupervisorActor.toChild
    split
    · exact Nat.le_refl 1
    · exact Nat.zero_le 1
  cases command with
  | submit spec submittedAt => exact Or.inl ⟨rfl, Nat.le_refl 1⟩
  | stop jobId | resume jobId message | subscribe jobId => exact Or.inl ⟨rfl, hchild jobId _⟩
  | shutdown =>
    refine Or.inr (fun told htold => ?_)
    obtain ⟨child, _, rfl⟩ := List.mem_map.mp htold
    rfl
  | remove jobId =>
    refine Or.inl ?_
    unfold SupervisorActor.handleCommand
    dsimp only
    split
    · exact ⟨rfl, Nat.zero_le 1⟩
    · split <;> exact ⟨rfl, Nat.zero_le 1⟩
  | list | jobStatusChanged jobId status => exact Or.inl ⟨rfl, Nat.zero_le 1⟩

/-- The supervisor takes a command, which leaves a free slot. -/
theorem Steady.take (h : Steady t) (hstep : t.take = some t') : Steady t' := by
  unfold Tree.take at hstep
  dsimp only at hstep
  split at hstep
  · rename_i command rest _ _ _ hmailbox
    cases Option.some.inj hstep
    have hlength := h.bounded
    rw [hmailbox, List.length_cons] at hlength
    refine ⟨by dsimp only; omega, handled_told _ _ _ command, fun hfull => ?_⟩
    rw [hasSpace_false] at hfull
    dsimp only at hfull
    omega
  · contradiction

/-- What is left to tell when the next child has been told. -/
theorem told_rest {told : JobId × JobCommand} {rest : List (JobId × JobCommand)}
    (h : Steady t) (htelling : t.supervisor.telling = told :: rest) :
    (t.supervisor.awaiting = [] ∧ rest = []) ∨
      isShutdown told.2 = true ∧ ∀ other ∈ rest, isShutdown other.2 = true := by
  rcases h.told with ⟨hnone, hone⟩ | hall
  · rw [htelling, List.length_cons] at hone
    exact Or.inl ⟨hnone, List.eq_nil_of_length_eq_zero (by omega)⟩
  · rw [htelling] at hall
    exact Or.inr (List.forall_mem_cons.mp hall)

/-- The next child is dealt with, and the others stay to be told. -/
theorem Steady.rest (h : Steady t) {told : JobId × JobCommand} {rest : List (JobId × JobCommand)}
    (htelling : t.supervisor.telling = told :: rest) :
    Steady { t with supervisor := { t.supervisor with telling := rest } } := by
  refine ⟨h.bounded, ?_, fun hfull id hid => h.calm hfull id ?_⟩
  · rcases told_rest h htelling with ⟨hnone, rfl⟩ | ⟨_, hall⟩
    · exact Or.inl ⟨hnone, Nat.zero_le 1⟩
    · exact Or.inr hall
  · simp only [pending, htelling, List.map_cons, List.cons_append, List.mem_cons]
    exact Or.inr hid

theorem Steady.tell (h : Steady t) (hstep : t.tell = some t') : Steady t' := by
  unfold Tree.tell at hstep
  dsimp only at hstep
  split at hstep
  · contradiction
  · rename_i id command rest htelling
    have hrest := h.rest htelling
    split at hstep
    · cases Option.some.inj hstep
      exact hrest
    · rename_i job hjob
      split at hstep
      · cases Option.some.inj hstep
        exact hrest
      · split at hstep
        · cases Option.some.inj hstep
          rcases told_rest h htelling with ⟨hnone, rfl⟩ | ⟨hshutdown, _⟩
          · -- nobody is left to be told or awaited
            refine ⟨hrest.bounded, hrest.told, fun _ other hother => ?_⟩
            simp [pending, Tree.setJob, hnone] at hother
          · refine hrest.setJob hjob (fun hsilent => silent_push hsilent (Or.inr ?_))
            cases command <;> first | rfl | contradiction
        · contradiction

theorem Steady.acknowledged (h : Steady t) (hstep : t.acknowledged = some t') : Steady t' := by
  unfold Tree.acknowledged at hstep
  dsimp only at hstep
  split at hstep
  · rename_i id rest htelling hawaiting
    split at hstep
    · cases Option.some.inj hstep
      refine ⟨h.bounded, Or.inr ?_, fun hfull other hother => h.calm hfull other ?_⟩
      · rw [htelling]
        intro told htold
        contradiction
      · simp only [pending, htelling, hawaiting, List.map_nil, List.nil_append,
          List.mem_cons] at hother ⊢
        exact Or.inr hother
    · contradiction
  · contradiction

theorem Steady.persist (h : Steady t) {ok : Bool} (hstep : t.persist ok = some t') :
    Steady t' := by
  unfold Tree.persist at hstep
  dsimp only at hstep
  split at hstep
  · cases Option.some.inj hstep
    exact ⟨h.bounded, h.told, h.calm⟩
  · contradiction

theorem Steady.jobReport (h : Steady t) {id : JobId} (hstep : t.jobReport id = some t')
    (hsparing : Sparing t (.jobReport id)) : Steady t' := by
  unfold Tree.jobReport at hstep
  split at hstep
  · contradiction
  · rename_i job hjob
    split at hstep
    · contradiction
    · split at hstep
      · rename_i hspace
        cases Option.some.inj hstep
        simp only [Sparing, sparing, hjob, Option.all_some] at hsparing
        exact Steady.push (h.setJob hjob silent_sent) hspace hsparing
      · contradiction

theorem Steady.step (h : Steady t) {l : TreeLabel} (hsparing : Sparing t l)
    (hstep : t.next l = some t') : Steady t' := by
  cases l with
  | request command =>
    simp only [Tree.next] at hstep
    split at hstep
    · rename_i hopen
      cases Option.some.inj hstep
      exact h.push (Bool.and_eq_true _ _ ▸ hopen).2 hsparing
    · contradiction
  | take => exact h.take hstep
  | tell => exact h.tell hstep
  | acknowledged => exact h.acknowledged hstep
  | persist ok => exact h.persist hstep
  | jobUnreadable id => exact h.stepJob hstep (fun _ _ => silent_unreadable)
  | jobRecover id launch => exact h.stepJob hstep (fun _ _ => silent_recover)
  | jobTake id launch => exact h.stepJob hstep (fun _ _ => silent_take)
  | jobReport id => exact h.jobReport hstep hsparing
  | jobPersist id ok => exact h.stepJob hstep (fun _ _ => silent_persist)
  | notify id notification => exact h.stepJob hstep (fun _ _ => silent_notify)

/-- As long as a request or a report takes the last free slot of the supervisor's mailbox
only while none of the children it waits for may report, it never waits for a child that
waits for it. -/
theorem no_circular_wait (state : SupervisorState) (journaled : JobId → JobState)
    (nextJob : JobId) (t : Tree)
    (hrun : Machine.Run Tree.next Sparing (Tree.start state journaled nextJob) t) :
    NoCircularWait t := by
  have hsteady := hrun.invariant Steady (fun t l t' h hsparing hstep => h.step hsparing hstep)
    (steady_start state journaled nextJob)
  exact hsteady.noCircularWait

def blank : Tree := Tree.start SupervisorActor.initialState (fun _ => JobActor.initialState) 0

def working : List TreeLabel :=
  [.request (.submit OrphanedJobs.soloSpec 0), .take, .tell, .persist true,
    .jobRecover 0 (.ok ()), .jobTake 0 (.ok ()), .jobPersist 0 true]

def releasing : List TreeLabel :=
  working ++ [.request .shutdown, .take, .tell, .jobTake 0 (.ok ()), .acknowledged]

def released : Tree := Machine.final Tree.next Sparing blank releasing

theorem run_released : Machine.Run Tree.next Sparing blank released :=
  Machine.run_final releasing (by decide +kernel)

theorem released_no_circular_wait : NoCircularWait released :=
  no_circular_wait SupervisorActor.initialState (fun _ => JobActor.initialState) 0 released
    run_released

def crowding : List TreeLabel :=
  working ++ [.notify 0 (.finished .null), .request .shutdown] ++
    List.replicate 63 (.request .list) ++
    [.jobTake 0 (.ok ()), .take, .request .list, .tell]

def crowded : Tree := Machine.final Tree.next Machine.free blank crowding

theorem run_crowded : Machine.Run Tree.next Machine.free blank crowded :=
  Machine.run_final crowding (by decide +kernel)

/-- The job waits for the supervisor, which waits for it. -/
theorem crowded_waits : (crowded.jobs 0).any (fun job => !job.phase.isStopped &&
    job.report.isSome) = true ∧ crowded.supervisor.telling.isEmpty = true ∧
      0 ∈ crowded.supervisor.awaiting ∧ hasSpace crowded.supervisor.mailbox = false := by
  decide +kernel

theorem shutdown_deadlocks :
    ¬ ∀ (state : SupervisorState) (journaled : JobId → JobState) (nextJob : JobId) (t : Tree),
      Machine.Run Tree.next Machine.free (Tree.start state journaled nextJob) t →
      NoCircularWait t := by
  intro h
  obtain ⟨hjob, htelling, hawaiting, hfull⟩ := crowded_waits
  obtain ⟨job, hjob, hreporting⟩ := (Option.any_eq_true _ _).mp hjob
  simp only [Bool.and_eq_true, Bool.not_eq_true'] at hreporting
  refine h SupervisorActor.initialState (fun _ => JobActor.initialState) 0 crowded run_crowded 0
    ⟨⟨job, hjob, hreporting.1, Or.inr ⟨?_, hawaiting⟩⟩, hfull, job, hjob, hreporting.1,
      hreporting.2⟩
  exact List.isEmpty_iff.mp htelling

end October.CircularWait
