import October.OrphanedJobs
import October.RegistryRows

/-!
What the supervisor acknowledges and what a later process recovers. A handler answers
before its event is written, so a crash or a failed write in between loses what was
acknowledged. As long as neither hits a submission or a removal, every recovered
registry lists the jobs that were submitted and not removed since, and no removed job.
-/
namespace October.AcknowledgedJobs

open RegistryRows SupervisorInvariants

inductive Ack where
  | submitted (id : JobId)
  | removed (id : JobId)

def acknowledged : SupervisorCommand → Option SupervisorAnswer → List Ack
  | .submit _ _, some (.submitted id) => [.submitted id]
  | .remove id, some (.removed (.ok ())) => [.removed id]
  | _, _ => []

def acks (d : Daemon) : DaemonLabel → List Ack
  | .supervisorHandle =>
    match d.supervisor with
    | none => []
    | some p =>
      match p.mailbox with
      | [] => []
      | command :: _ =>
        acknowledged command
          (SupervisorActor.handleCommand d.nextJob p.children p.state command).answer
  | _ => []

def Standing (given : List Ack) (id : JobId) : Prop :=
  ∃ before after, given = before ++ .submitted id :: after ∧ .removed id ∉ after

structure Honours (state : SupervisorState) (given : List Ack) : Prop where
  standing : ∀ id, Standing given id → state.jobs.lookup id ≠ none
  removed : ∀ id, .removed id ∈ given → state.jobs.lookup id = none

/-- No crash and no failed write while a submission or a removal is still to be written. -/
def writes (d : Daemon) : DaemonLabel → Bool
  | .supervisorPersist false => (pending d).all isReport
  | .crash => (pending d).all isReport
  | _ => true

def Writes (s : Daemon × List Ack) (l : DaemonLabel) : Prop := writes s.1 l = true

instance (s : Daemon × List Ack) (l : DaemonLabel) : Decidable (Writes s l) :=
  inferInstanceAs (Decidable (_ = true))

inductive Acknowledges (fresh : JobId) (state : SupervisorState) :
    List Ack → List SupervisorEvent → Prop
  | nothing (events : List SupervisorEvent) : events.all isReport = true →
      Acknowledges fresh state [] events
  | submitted (spec : JobSpec) (submittedAt : ℕ) :
      Acknowledges fresh state [.submitted fresh] [.jobSubmitted fresh spec submittedAt]
  | removed (id : JobId) : state.jobs.lookup id ≠ none →
      Acknowledges fresh state [.removed id] [.jobRemoved id]

theorem handled_acknowledges (fresh : JobId) (children : List JobId) (state : SupervisorState)
    (command : SupervisorCommand) (reply : SupervisorReply)
    (hreply : reply = SupervisorActor.handleCommand fresh children state command) :
    Acknowledges fresh state (acknowledged command reply.answer) reply.effect.events := by
  subst hreply
  cases command with
  | submit spec submittedAt => exact Acknowledges.submitted spec submittedAt
  | remove id =>
    simp only [SupervisorActor.handleCommand]
    cases hrow : state.jobs.lookup id with
    | none => exact Acknowledges.nothing [] rfl
    | some record =>
      by_cases hterminal : SupervisorActor.isTerminal record.status = true
      · simp only [hterminal, if_true]
        exact Acknowledges.removed id (by simp [hrow])
      · simp only [if_neg hterminal]
        exact Acknowledges.nothing [] rfl
  | jobStatusChanged id status => exact Acknowledges.nothing _ rfl
  | list | stop _ | resume _ _ | subscribe _ | shutdown => exact Acknowledges.nothing [] rfl

/-- The registry with its pending events keeps every promise, and no id is promised before
it is drawn. -/
structure Kept (d : Daemon) (given : List Ack) : Prop where
  standing : ∀ id, Standing given id → row (registryRecord d) id ≠ none
  removed : ∀ id, .removed id ∈ given → row (registryRecord d) id = none
  drawn : ∀ id, .removed id ∈ given → id < d.nextJob

variable {setting : Setting} {d d' : Daemon} {given : List Ack} {id : JobId}

theorem standing_snoc {a : Ack} (h : Standing (given ++ [a]) id) :
    a = .submitted id ∨ (Standing given id ∧ a ≠ .removed id) := by
  obtain ⟨before, after, hgiven, hafter⟩ := h
  rcases List.eq_nil_or_concat after with rfl | ⟨after', b, rfl⟩
  · exact Or.inl (List.append_inj_right' hgiven rfl |> List.singleton_inj.mp)
  · rw [List.concat_eq_append, ← List.cons_append, ← List.append_assoc] at hgiven
    obtain ⟨hinit, hlast⟩ := List.append_inj' hgiven rfl
    rw [List.concat_eq_append, List.mem_append, not_or] at hafter
    refine Or.inr ⟨⟨before, after', hinit, hafter.1⟩, ?_⟩
    rintro rfl
    exact hafter.2 (by rw [← hlast]; simp)

/-- A step that neither answers a requester nor changes what is or will be written. -/
theorem Kept.frame (hk : Kept d given) (h : RegistryFrame d d') : Kept d' given := by
  obtain ⟨hstanding, hremoved, hdrawn⟩ := hk
  refine ⟨?_, ?_, ?_⟩
  · rw [h.record]
    exact hstanding
  · rw [h.record]
    exact hremoved
  · rw [h.nextJob]
    exact hdrawn

/-- What is left when the pending events are lost. -/
theorem Kept.lost (hk : Kept d given) (hreports : (pending d).all isReport = true)
    (hrecord : registryRecord d' = d.log) (hnext : d'.nextJob = d.nextJob) : Kept d' given := by
  have hrow : ∀ id, row (registryRecord d') id = none ↔ row (registryRecord d) id = none := by
    intro id
    rw [hrecord, registryRecord_eq]
    exact (row_reports hreports).symm
  refine ⟨fun id hid => ?_, fun id hid => (hrow id).mpr (hk.removed id hid), ?_⟩
  · rw [Ne, hrow id]
    exact hk.standing id hid
  · rw [hnext]
    exact hk.drawn

theorem Kept.handled {new : List Ack} {events : List SupervisorEvent} {state : SupervisorState}
    (hk : Kept d given) (hack : Acknowledges d.nextJob state new events)
    (hknown : ∀ id, state.jobs.lookup id ≠ none → id < d.nextJob)
    (hrecord : registryRecord d' = registryRecord d ++ events)
    (hnext : d'.nextJob = d.nextJob + 1) : Kept d' (given ++ new) := by
  have hdrawn : ∀ id, .removed id ∈ given → id < d'.nextJob := by
    intro id hid
    rw [hnext]
    exact Nat.lt_succ_of_lt (hk.drawn id hid)
  cases hack with
  | nothing events hreports =>
    have hrow : ∀ id, row (registryRecord d') id = none ↔ row (registryRecord d) id = none := by
      intro id
      rw [hrecord]
      exact row_reports hreports
    rw [List.append_nil]
    refine ⟨fun id hid => ?_, fun id hid => (hrow id).mpr (hk.removed id hid), hdrawn⟩
    rw [Ne, hrow id]
    exact hk.standing id hid
  | submitted spec submittedAt =>
    refine ⟨fun id hid => ?_, fun id hid => ?_, fun id hid => hdrawn id (by simpa using hid)⟩
    · rw [hrecord]
      by_cases hsame : id = d.nextJob
      · rw [row_subject _ (.jobSubmitted d.nextJob spec submittedAt) hsame]
        simp [renewed]
      · rw [row_other _ (.jobSubmitted d.nextJob spec submittedAt) hsame]
        rcases standing_snoc hid with heq | ⟨hold, _⟩
        · cases heq
          exact absurd rfl hsame
        · exact hk.standing id hold
    · have hold : .removed id ∈ given := by simpa using hid
      have hlt := hk.drawn id hold
      rw [hrecord, row_other _ (.jobSubmitted d.nextJob spec submittedAt) (Nat.ne_of_lt hlt)]
      exact hk.removed id hold
  | removed gone hlisted =>
    refine ⟨fun id hid => ?_, fun id hid => ?_, fun id hid => ?_⟩
    · rcases standing_snoc hid with heq | ⟨hold, hne⟩
      · contradiction
      · have hother : id ≠ gone := fun h => hne (by rw [h])
        rw [hrecord, row_other _ (.jobRemoved gone) hother]
        exact hk.standing id hold
    · rw [hrecord]
      by_cases hsame : id = gone
      · exact row_subject _ (.jobRemoved gone) hsame
      · rw [row_other _ (.jobRemoved gone) hsame]
        rcases List.mem_append.mp hid with hold | hnew
        · exact hk.removed id hold
        · exact absurd (Ack.removed.inj (List.mem_singleton.mp hnew)) hsame
    · rcases List.mem_append.mp hid with hold | hnew
      · exact hdrawn id hold
      · rw [Ack.removed.inj (List.mem_singleton.mp hnew), hnext]
        exact Nat.lt_succ_of_lt (hknown gone hlisted)

/-- A listed job has been drawn. -/
theorem known_of_tracked (hs : Sound setting d) (ht : Tracked d) {p : SupervisorProc}
    (hp : d.supervisor = some p) (hphase : p.phase = .waiting) :
    ∀ id, p.state.jobs.lookup id ≠ none → id < d.nextJob := by
  intro id hlisted
  rw [ht p hp (by rw [hphase]; rfl)] at hlisted
  obtain ⟨record, hrow⟩ := Option.ne_none_iff_exists'.mp hlisted
  have hspec := hs.stored id record hrow
  by_cases hlt : id < d.nextJob
  · exact hlt
  · rw [hs.fresh id (Nat.le_of_not_lt hlt)] at hspec
    contradiction

theorem Kept.step (hs : Sound setting d) (ht : Tracked d) (hk : Kept d given) {l : DaemonLabel}
    (hl : writes d l = true) (h : DaemonStep setting d l d') : Kept d' (given ++ acks d l) := by
  have hframe := h.frame
  cases h with
  | handled p command rest reply hp hphase hmailbox hreply =>
    have hacks : acks d .supervisorHandle = acknowledged command reply.answer := by
      simp only [acks, hp, hmailbox, hreply]
    rw [hacks]
    refine hk.handled (handled_acknowledges d.nextJob p.children p.state command reply hreply)
      (known_of_tracked hs ht hp hphase) ?_ rfl
    rw [registryRecord_answered, registryRecord_idle hp (by rw [hphase]; rfl)]
  | persisted p effect events ok hp hphase hevents =>
    have hpending : pending d = effect.events := by
      rw [pending_some hp, hphase, Phase.events_performing]
    change Kept _ (given ++ [])
    rw [List.append_nil]
    subst hevents
    cases ok with
    | true =>
      have hrecord : registryRecord (d.persisted p effect effect.events) = registryRecord d := by
        rw [registryRecord_persisted, registryRecord_eq, hpending]
      exact ⟨by simpa [hrecord] using hk.standing, by simpa [hrecord] using hk.removed, hk.drawn⟩
    | false => exact hk.lost hl (by simp) rfl
  | crashed =>
    change Kept _ (given ++ [])
    rw [List.append_nil]
    exact hk.lost hl (registryRecord_crash d) rfl
  | _ =>
    change Kept _ (given ++ [])
    rw [List.append_nil]
    exact hk.frame (hframe rfl)

theorem kept_init : Kept Daemon.init [] := by
  refine ⟨fun id hid => ?_, fun id hid => by contradiction, fun id hid => by contradiction⟩
  obtain ⟨before, after, hgiven, _⟩ := hid
  simp at hgiven

theorem kept_reachable {s : Daemon × List Ack}
    (hrun : Machine.Run (Machine.observed (Daemon.next setting) acks) Writes (Daemon.init, []) s) :
    Kept s.1 s.2 := by
  refine (hrun.invariant (fun s => Sound setting s.1 ∧ Tracked s.1 ∧ Kept s.1 s.2)
    (fun s l t hinv hl hstep => ?_) ⟨sound_init, tracked_init, kept_init⟩).2.2
  obtain ⟨hs, ht, hk⟩ := hinv
  obtain ⟨hnext, hacks⟩ := Machine.observed_step hstep
  rw [hacks]
  exact ⟨hs.step hnext, ht.step (daemon_step hnext), hk.step hs ht hl (daemon_step hnext)⟩

/-- Every registry that a later process recovers keeps what was acknowledged, if no crash
and no failed write falls between an answer and its event. -/
theorem acknowledged_durable (setting : Setting) (d u : Daemon) (given : List Ack)
    (p : SupervisorProc)
    (hrun : Machine.Run (Machine.observed (Daemon.next setting) acks) Writes (Daemon.init, [])
      (d, given))
    (hrecover : d.supervisorRecover = some u) (hp : u.supervisor = some p) :
    Honours p.state given := by
  have hkept : Kept d given := kept_reachable hrun
  have hstep : DaemonStep setting d .supervisorRecover u := supervisorRecover_step hrecover
  cases hstep with
  | recovered q hq hphase =>
    cases Option.some.inj hp
    obtain ⟨hstanding, hremoved, _⟩ := hkept
    rw [registryRecord_idle hq (by rw [hphase]; rfl)] at hstanding hremoved
    exact ⟨hstanding, hremoved⟩

def removing : List DaemonLabel :=
  OrphanedJobs.failing ++
    [.supervisorHandle, .supervisorPersist true, .request (.remove 0), .supervisorHandle,
      .supervisorPersist true, .crash, .boot]

def removedJob : Daemon × List Ack :=
  Machine.final (Machine.observed (Daemon.next OrphanedJobs.soloSetting) acks) Writes
    (Daemon.init, []) removing

theorem run_removedJob :
    Machine.Run (Machine.observed (Daemon.next OrphanedJobs.soloSetting) acks) Writes
      (Daemon.init, []) removedJob :=
  Machine.run_final removing (by decide +kernel)

def recovering (d : Daemon) : Daemon := d.supervisorRecover.getD d

theorem removed_honoured :
    Honours (SupervisorActor.fold removedJob.1.log) [.submitted 0, .removed 0] :=
  acknowledged_durable OrphanedJobs.soloSetting removedJob.1 (recovering removedJob.1) removedJob.2
    ⟨SupervisorActor.fold removedJob.1.log, [], [], [], .waiting⟩ run_removedJob rfl rfl

def submitting : List DaemonLabel :=
  [.boot, .supervisorRecover, .request (.submit OrphanedJobs.soloSpec 0), .supervisorHandle,
    .crash, .boot]

def submittedJob : Daemon × List Ack :=
  Machine.final (Machine.observed (Daemon.next OrphanedJobs.soloSetting) acks) Machine.free
    (Daemon.init, []) submitting

theorem run_submittedJob :
    Machine.Run (Machine.observed (Daemon.next OrphanedJobs.soloSetting) acks) Machine.free
      (Daemon.init, []) submittedJob :=
  Machine.run_final submitting (by decide +kernel)

theorem acknowledged_lost :
    ¬ ∀ (setting : Setting) (d u : Daemon) (given : List Ack) (p : SupervisorProc),
      Machine.Run (Machine.observed (Daemon.next setting) acks) Machine.free (Daemon.init, [])
        (d, given) → d.supervisorRecover = some u → u.supervisor = some p →
          Honours p.state given := by
  intro h
  have hhonours := h OrphanedJobs.soloSetting submittedJob.1 (recovering submittedJob.1)
    [.submitted 0] ⟨SupervisorActor.initialState, [], [], [], .waiting⟩ run_submittedJob rfl rfl
  exact hhonours.standing 0 ⟨[], [], rfl, by simp⟩ rfl

end October.AcknowledgedJobs
