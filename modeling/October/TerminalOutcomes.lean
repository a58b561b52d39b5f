import October.EndedJobs

/-!
A job's own outcome and the registry's. A job actor reports an end before it journals
it, the supervisor journals the report on its own, and recovery of an ended job is
silent. So the registry lists a job whose journal has ended as ended once the
supervisor's mailbox is drained, as long as neither a crash nor a failed write of the
registry loses the report of an end that the job itself has journaled.
-/
namespace October.TerminalOutcomes

open SupervisorInvariants RegistryRows StatusReports EndedJobs

def concluded (log : List JobDomainEvent) : Bool :=
  (JobActor.fold log).status.any SupervisorActor.isTerminal

def jobRecord (slot : JobSlot) : List JobDomainEvent :=
  slot.log ++ (slot.proc.map (fun p => p.phase.events)).getD []

def concludes (slot : JobSlot) : Bool := concluded slot.log || concluded (jobRecord slot)

def removes (id : JobId) : SupervisorEvent → Bool
  | .jobRemoved id' => id' == id
  | _ => false

def settled (log : List SupervisorEvent) (id : JobId) : Bool :=
  (row log id).any (fun record => SupervisorActor.isTerminal record.status) ||
    log.any (removes id)

/-- What a failed write may lose: not the job's submission, and not the report of an end
that the job has journaled or is about to. -/
def losable (id : JobId) (slot : JobSlot) : SupervisorEvent → Bool
  | .jobSubmitted id' _ _ => id' != id
  | .jobStatusChanged id' status =>
    id' != id || !(SupervisorActor.isTerminal status && concludes slot)
  | .jobRemoved _ => true

/-- The steps that lose neither the job's row nor the end that its journal holds. -/
def keepsOutcome (id : JobId) (d : Daemon) : DaemonLabel → Bool
  | .supervisorPersist false => (pending d).all (losable id (d.jobs id))
  | .crash => !concluded (d.jobs id).log || settled d.log id
  | _ => true

def KeepsOutcome (id : JobId) (d : Daemon) (l : DaemonLabel) : Prop := keepsOutcome id d l = true

instance (id : JobId) (d : Daemon) (l : DaemonLabel) : Decidable (KeepsOutcome id d l) :=
  inferInstanceAs (Decidable (_ = true))

section Slots

variable {slot slot' : JobSlot}

theorem concluded_snoc (log : List JobDomainEvent) (e : JobDomainEvent) :
    concluded (log ++ [e]) = SupervisorActor.isTerminal (JobActor.eventStatus e) := by
  simp [concluded, JobActor.fold, JobActor.applyEvent]

theorem concludes_of_concluded (h : concluded slot.log = true) : concludes slot = true := by
  simp [concludes, h]

/-- Without pending events only the journal counts. -/
theorem concludes_settled (h : (slot.proc.map (fun p => p.phase.events)).getD [] = []) :
    concludes slot = concluded slot.log := by
  simp [concludes, jobRecord, h]

theorem concludes_congr (hlog : slot'.log = slot.log)
    (hphase : slot'.proc.map JobProc.phase = slot.proc.map JobProc.phase) :
    concludes slot' = concludes slot := by
  have hevents : (slot'.proc.map (fun p => p.phase.events)) =
      (slot.proc.map (fun p => p.phase.events)) := by
    have h := congrArg (Option.map Phase.events) hphase
    simpa only [Option.map_map, Function.comp_def] using h
  rw [concludes, concludes, jobRecord, jobRecord, hlog, hevents]

theorem tell_phases (command : JobCommand) (slot : JobSlot) :
    (slot.tell command).proc.map JobProc.phase = slot.proc.map JobProc.phase := by
  simp [JobSlot.tell, Function.comp_def]

theorem concludes_tell (command : JobCommand) (slot : JobSlot) :
    concludes (slot.tell command) = concludes slot :=
  concludes_congr rfl (tell_phases command slot)

theorem concludes_persist {ok : Bool} (h : slot.persist ok = some slot')
    (hslot : concludes slot' = true) : concludes slot = true := by
  obtain ⟨p, effect, events, hproc, hphase, rfl, rfl⟩ := JobSlot.persist_cases h
  rw [concludes_settled (by simp)] at hslot
  cases ok with
  | true => simpa [concludes, jobRecord, hproc, hphase] using Or.inr hslot
  | false => exact concludes_of_concluded (by simpa using hslot)

/-- A job actor that is about to journal an end has reported it. -/
theorem concluded_reported {launch : Except String Unit} {holds : Bool} {command : JobCommand}
    {log : List JobDomainEvent}
    (h : concluded (log ++ (JobActor.handleCommand launch holds command).effect.events) = true) :
    concluded log = true ∨
      ∃ status, (JobActor.handleCommand launch holds command).reported = some status ∧
        SupervisorActor.isTerminal status = true := by
  have hnone : concluded (log ++ []) = true → concluded log = true := by
    rw [List.append_nil]
    exact fun h => h
  cases command with
  | start =>
    cases launch with
    | ok _ =>
      rw [show (JobActor.handleCommand (.ok ()) holds .start).effect.events = [.jobStarted] from
        rfl, concluded_snoc] at h
      contradiction
    | error _ => exact Or.inr ⟨.failed, rfl, rfl⟩
  | resume message =>
    cases holds with
    | true => exact Or.inl (hnone h)
    | false =>
      cases launch with
      | ok _ => exact Or.inl (hnone h)
      | error _ => exact Or.inr ⟨.failed, rfl, rfl⟩
  | workflowEvent notification =>
    cases notification with
    | finished output => exact Or.inr ⟨.finished, rfl, rfl⟩
    | failed error => exact Or.inr ⟨.failed, rfl, rfl⟩
    | suspended =>
      rw [show (JobActor.handleCommand launch holds (.workflowEvent .suspended)).effect.events =
        [.jobSuspended] from rfl, concluded_snoc] at h
      contradiction
    | awaitingUserInput question =>
      rw [show (JobActor.handleCommand launch holds
        (.workflowEvent (.awaitingUserInput question))).effect.events = [.jobAwaitingInput] from
        rfl, concluded_snoc] at h
      contradiction
  | stop | subscribe | shutdown => exact Or.inl (hnone h)

end Slots

/-- The end of the job is reported, is being written, is listed, or the job is removed. -/
def Heard (d : Daemon) (id : JobId) : Prop :=
  (∃ status ∈ reports d id, SupervisorActor.isTerminal status = true) ∨
    (∃ status, .jobStatusChanged id status ∈ pending d ∧
      SupervisorActor.isTerminal status = true) ∨
    Ended d.log id ∨ .jobRemoved id ∈ d.log

def Known (d : Daemon) (id : JobId) : Prop :=
  (d.jobs id).proc ≠ none ∨ reports d id ≠ [] ∨ ∃ status, .jobStatusChanged id status ∈ pending d

def Entered (d : Daemon) (id : JobId) : Prop :=
  row d.log id ≠ none ∨ .jobRemoved id ∈ d.log ∨
    ∃ spec submittedAt, .jobSubmitted id spec submittedAt ∈ pending d

structure Followed (d : Daemon) (id : JobId) : Prop where
  entered : Known d id → Entered d id
  heard : concludes (d.jobs id) = true → Heard d id
  single : (pending d).length ≤ 1

variable {setting : Setting} {d d' : Daemon} {id : JobId}

theorem settled_iff : settled d.log id = true ↔ Ended d.log id ∨ .jobRemoved id ∈ d.log := by
  unfold settled
  rw [Bool.or_eq_true, Option.any_eq_true, List.any_eq_true]
  refine or_congr Iff.rfl ⟨?_, fun h => ⟨_, h, by simp [removes]⟩⟩
  rintro ⟨e, he, hremoves⟩
  cases e with
  | jobRemoved id' =>
    have hid : id' = id := by simpa [removes] using hremoves
    rwa [← hid]
  | jobSubmitted _ _ _ | jobStatusChanged _ _ => contradiction

theorem followed_init : Followed Daemon.init id :=
  ⟨fun h => by simp [Known, Daemon.init, JobSlot.empty, reports, mailbox, pending] at h,
    fun h => by contradiction, by simp [pending, Daemon.init]⟩

/-- A step that neither writes nor hands over an event. -/
theorem Followed.frame (hd : Followed d id) (h : RegistryFrame d d')
    (hproc : (d'.jobs id).proc ≠ none → Known d id ∨ row d.log id ≠ none)
    (hsub : reports d id ⊆ reports d' id) (hreports : reports d' id ≠ [] → Known d id)
    (hslot : concludes (d'.jobs id) = true → concludes (d.jobs id) = true ∨
      ∃ status ∈ reports d' id, SupervisorActor.isTerminal status = true) : Followed d' id := by
  obtain ⟨hentered, hheard, hsingle⟩ := hd
  obtain ⟨hlog, hpending, _⟩ := h
  have hentered' : Entered d id → Entered d' id := by
    unfold Entered
    rw [hlog, hpending]
    exact fun h => h
  refine ⟨fun hknown => ?_, fun hconcludes => ?_, by rw [hpending]; exact hsingle⟩
  · rcases hknown with hknown | hknown | hknown
    · rcases hproc hknown with h | h
      · exact hentered' (hentered h)
      · exact hentered' (Or.inl h)
    · exact hentered' (hentered (hreports hknown))
    · rw [hpending] at hknown
      exact hentered' (hentered (Or.inr (Or.inr hknown)))
  · rcases hslot hconcludes with hold | hnew
    · rcases hheard hold with ⟨status, hmem, hterminal⟩ | h
      · exact Or.inl ⟨status, hsub hmem, hterminal⟩
      · unfold Heard
        rw [hlog, hpending]
        exact Or.inr h
    · exact Or.inl hnew

theorem Followed.setJob (hd : Followed d id) {i : JobId} {slot : JobSlot}
    (hproc : slot.proc ≠ none → (d.jobs i).proc ≠ none)
    (hslot : concludes slot = true → concludes (d.jobs i) = true) :
    Followed (d.setJob i slot) id := by
  refine hd.frame ⟨rfl, rfl, rfl⟩ (fun h => Or.inl (Or.inl ?_)) (fun _ h => h)
    (fun h => Or.inr (Or.inl h)) (fun h => Or.inl ?_)
  · exact setJob_all (fun j slot => slot.proc ≠ none → (d.jobs j).proc ≠ none) hproc
      (fun _ _ h => h) id h
  · exact setJob_all (fun j slot => concludes slot = true → concludes (d.jobs j) = true) hslot
      (fun _ _ h => h) id h

theorem Followed.handle (hd : Followed d id) (ho : Orderly d) {i : JobId}
    {launch : Except String Unit} {slot : JobSlot} {status : Option JobStatus}
    (h : (d.jobs i).handle launch = some (slot, status)) :
    Followed ((d.setJob i slot).report i status) id := by
  obtain ⟨p, command, rest, hproc, hphase, _, rfl, rfl⟩ := JobSlot.handle_cases h
  obtain ⟨q, hq, _⟩ := ho.up hproc
  have hstopped := not_stopped (ho.awake q hq)
  have hconcludes : concludes ((d.jobs i).answered p rest
      (JobActor.handleCommand launch p.holds command)) = true →
      concludes (d.jobs i) = true ∨
        ∃ status, (JobActor.handleCommand launch p.holds command).reported = some status ∧
          SupervisorActor.isTerminal status = true := by
    intro hc
    have hold : concludes (d.jobs i) = concluded (d.jobs i).log :=
      concludes_settled (by simp [hproc, hphase])
    rw [concludes, jobRecord, JobSlot.answered_log, Bool.or_eq_true] at hc
    rw [hold]
    rcases hc with hc | hc
    · exact Or.inl hc
    · exact concluded_reported (by simpa [JobSlot.answered] using hc)
  cases hreported : (JobActor.handleCommand launch p.holds command).reported with
  | none =>
    rw [hreported] at hconcludes
    exact hd.setJob (fun _ => by simp [hproc]) (fun hc => (hconcludes hc).resolve_right (by simp))
  | some status =>
    rw [hreported] at hconcludes
    have hreports : ∀ j, reports ((d.setJob i ((d.jobs i).answered p rest
        (JobActor.handleCommand launch p.holds command))).tellSupervisor
          (.jobStatusChanged i status)) j = reports d j ++ (if i = j then [status] else []) := by
      intro j
      refine (reports_tell hq hstopped (.jobStatusChanged i status)).trans ?_
      by_cases hij : i = j <;> simp [reported, hij, reports, mailbox]
    have hknown : id = i → Known d id := fun hid => Or.inl (by rw [hid, hproc]; simp)
    refine hd.frame ⟨rfl, pending_tell _ _, rfl⟩ (fun hne => Or.inl ?_) ?_ (fun hne => ?_)
      (fun hc => ?_)
    · by_cases hid : id = i
      · exact hknown hid
      · refine Or.inl ?_
        rw [← setJob_other _ d hid]
        exact hne
    · intro status' hmem
      rw [Daemon.report, hreports id]
      exact List.mem_append_left _ hmem
    · by_cases hid : id = i
      · exact hknown hid
      · rw [Daemon.report, hreports id, if_neg (Ne.symm hid), List.append_nil] at hne
        exact Or.inr (Or.inl hne)
    · by_cases hid : id = i
      · subst hid
        have hc' : concludes ((d.jobs id).answered p rest
            (JobActor.handleCommand launch p.holds command)) = true :=
          (congrArg concludes (setJob_same id _ d)).symm.trans hc
        refine (hconcludes hc').imp (fun h => h) ?_
        rintro ⟨status', heq, hterminal⟩
        cases Option.some.inj heq
        refine ⟨status, ?_, hterminal⟩
        rw [Daemon.report, hreports id, if_pos rfl]
        simp
      · refine Or.inl ?_
        rw [← setJob_other _ d hid]
        exact hc

theorem Followed.recovered (hd : Followed d id) {p : SupervisorProc}
    (hp : d.supervisor = some p) (hphase : p.phase = .recovering) :
    Followed (d.recovered p) id := by
  have hframe : RegistryFrame d (d.recovered p) :=
    ⟨rfl, by simp [pending, Daemon.recovered, hp, hphase], rfl⟩
  have hsame : reports (d.recovered p) id = reports d id := reports_recovered hp
  have hcases := respawned_cases d.log d.jobs id
  refine hd.frame hframe (fun hne => ?_) (fun _ h => by rwa [hsame])
    (fun h => Or.inr (Or.inl (by rwa [hsame] at h))) (fun hc => Or.inl ?_)
  · rcases hcases with hslot | ⟨_, hlisted⟩
    · refine Or.inl (Or.inl ?_)
      rw [← hslot]
      exact hne
    · exact Or.inr hlisted
  · change concludes (Daemon.respawned (SupervisorActor.fold d.log) d.jobs id) = true at hc
    unfold Daemon.respawned at hc
    split at hc
    · exact hc
    · rw [concludes_settled (by simp [JobSlot.spawn])] at hc
      exact concludes_of_concluded hc

/-- No command of the supervisor makes a job conclude. -/
theorem answered_concludes {p : SupervisorProc} {command : SupervisorCommand}
    {rest : List SupervisorCommand} {reply : SupervisorReply}
    (hreply : reply = SupervisorActor.handleCommand d.nextJob p.children p.state command)
    (hc : concludes ((d.answered p rest reply).jobs id) = true) :
    concludes (d.jobs id) = true := by
  refine tells_kept (fun slot => concludes slot = true → concludes (d.jobs id) = true)
    (fun slot command h => ?_) reply.told (Daemon.spawns reply.spawned d.jobs) id ?_ hc
  · rw [concludes_tell]
    exact h
  · rcases handled_spawned hreply d.jobs id with hsame | ⟨spec, _, hspawn, _⟩
    · rw [hsame]
      exact fun h => h
    · rw [hspawn, concludes_settled (by simp [JobSlot.spawn])]
      exact fun h => concludes_of_concluded h

/-- A job that is there after a handled command was there before or is submitted. -/
theorem answered_live {p : SupervisorProc} {command : SupervisorCommand}
    {rest : List SupervisorCommand} {reply : SupervisorReply}
    (hreply : reply = SupervisorActor.handleCommand d.nextJob p.children p.state command)
    (hlive : ((d.answered p rest reply).jobs id).proc ≠ none) :
    (d.jobs id).proc ≠ none ∨ ∃ spec submittedAt,
      .jobSubmitted id spec submittedAt ∈ reply.effect.events := by
  rcases handled_spawned hreply d.jobs id with hsame | ⟨spec, submittedAt, _, hmem⟩
  · refine Or.inl (fun hnone => hlive ?_)
    refine tells_kept (fun slot => slot.proc = none) (fun slot command h => ?_) reply.told _ id ?_
    · simp [JobSlot.tell, h]
    · rw [hsame]
      exact hnone
  · exact Or.inr ⟨spec, submittedAt, hmem⟩

theorem Followed.handled (hd : Followed d id) {p : SupervisorProc}
    {command : SupervisorCommand} {rest : List SupervisorCommand} {reply : SupervisorReply}
    (hp : d.supervisor = some p) (hphase : p.phase = .waiting)
    (hmailbox : p.mailbox = command :: rest)
    (hreply : reply = SupervisorActor.handleCommand d.nextJob p.children p.state command) :
    Followed (d.answered p rest reply) id := by
  have hidle : pending d = [] := by simp [pending, hp, hphase]
  have hpending : pending (d.answered p rest reply) = reply.effect.events := by
    simp [pending, Daemon.answered]
  have hreports : reports d id =
      (reported id command).toList ++ reports (d.answered p rest reply) id :=
    reports_answered hp hmailbox reply
  have hleaves := handled_leaves hreply
  refine ⟨fun hknown => ?_, fun hc => ?_, by rw [hpending]; exact hleaves.length_le⟩
  · have hbefore : Known d id ∨ ∃ spec submittedAt,
        .jobSubmitted id spec submittedAt ∈ reply.effect.events := by
      rcases hknown with hlive | hne | ⟨status, hmem⟩
      · exact (answered_live hreply hlive).imp (fun h => Or.inl h) (fun h => h)
      · exact Or.inl (Or.inr (Or.inl (by rw [hreports]; simp [hne])))
      · rw [hpending, hleaves.report_iff] at hmem
        exact Or.inl (Or.inr (Or.inl (by rw [hreports, hmem]; simp)))
    unfold Entered
    rw [hpending]
    rcases hbefore with hknown | hsubmitted
    · rcases hd.entered hknown with h | h | ⟨_, _, h⟩
      · exact Or.inl h
      · exact Or.inr (Or.inl h)
      · rw [hidle] at h
        contradiction
    · exact Or.inr (Or.inr hsubmitted)
  · rcases hd.heard (answered_concludes hreply hc) with ⟨status, hmem, hterminal⟩ |
      ⟨status, hmem, _⟩ | h
    · rw [hreports] at hmem
      rcases List.mem_append.mp hmem with hmem | hmem
      · refine Or.inr (Or.inl ⟨status, ?_, hterminal⟩)
        rw [hpending, hleaves.report_iff]
        exact Option.mem_toList.mp hmem
      · exact Or.inl ⟨status, hmem, hterminal⟩
    · rw [hidle] at hmem
      contradiction
    · exact Or.inr (Or.inr h)

theorem eq_of_single {events : List SupervisorEvent} {e e' : SupervisorEvent}
    (h : events.length ≤ 1) (he : e ∈ events) (he' : e' ∈ events) : e = e' := by
  match events with
  | [] => contradiction
  | [_] => rw [List.mem_singleton.mp he, List.mem_singleton.mp he']
  | _ :: _ :: _ => simp at h

/-- A write that fails loses neither the submission nor an end that the job journals. -/
theorem persist_written {effect : CommandEffect SupervisorEvent} {events : List SupervisorEvent}
    {ok : Bool} (hpending : pending d = effect.events)
    (hevents : events = if ok then effect.events else [])
    (hl : keepsOutcome id d (.supervisorPersist ok) = true) :
    (∀ spec submittedAt, .jobSubmitted id spec submittedAt ∈ effect.events →
        .jobSubmitted id spec submittedAt ∈ events) ∧
      ∀ status, .jobStatusChanged id status ∈ effect.events →
        SupervisorActor.isTerminal status = true → concludes (d.jobs id) = true →
          .jobStatusChanged id status ∈ events := by
  subst hevents
  cases ok with
  | true => exact ⟨fun _ _ h => h, fun _ h _ _ => h⟩
  | false =>
    have hlosable : ∀ e ∈ effect.events, losable id (d.jobs id) e = true := by
      have h : (pending d).all (losable id (d.jobs id)) = true := hl
      rw [hpending] at h
      exact List.all_eq_true.mp h
    refine ⟨fun spec submittedAt h => ?_, fun status h hterminal hc => ?_⟩
    · have hnot := hlosable _ h
      simp [losable] at hnot
    · have hnot := hlosable _ h
      simp [losable, hterminal, hc] at hnot

theorem Followed.persisted (hd : Followed d id) (ho : Orderly d) {p : SupervisorProc}
    {effect : CommandEffect SupervisorEvent} {events : List SupervisorEvent} {ok : Bool}
    (hp : d.supervisor = some p) (hphase : p.phase = .performing effect)
    (hevents : events = if ok then effect.events else [])
    (hl : keepsOutcome id d (.supervisorPersist ok) = true) :
    Followed (d.persisted p effect events) id := by
  have hpending : pending d = effect.events := by
    rw [pending_some hp, hphase, Phase.events_performing]
  have hdone : pending (d.persisted p effect events) = [] := by
    simp [pending, Daemon.persisted]
  have hreports : reports (d.persisted p effect events) id = reports d id :=
    reports_persisted hp effect events
  have hlawful : Lawful (d.log ++ events) := by
    have h := (ho.persisted hp hphase hevents).lawful
    rwa [registryRecord_persisted] at h
  obtain ⟨hsubmission, hend⟩ := persist_written hpending hevents hl
  refine ⟨fun hknown => ?_, fun hc => ?_, by simp [hdone]⟩
  · have hknown' : Known d id := by
      rcases hknown with h | h | ⟨status, h⟩
      · exact Or.inl h
      · rw [hreports] at h
        exact Or.inr (Or.inl h)
      · rw [hdone] at h
        contradiction
    have hrow : row d.log id ≠ none ∨
        (∃ spec submittedAt, .jobSubmitted id spec submittedAt ∈ events) →
          Entered (d.persisted p effect events) id := fun h =>
      (row_kept events h).imp (fun h => h) (fun h => Or.inl (List.mem_append_right _ h))
    rcases hd.entered hknown' with h | h | ⟨spec, submittedAt, h⟩
    · exact hrow (Or.inl h)
    · exact Or.inr (Or.inl (List.mem_append_left _ h))
    · rw [hpending] at h
      exact hrow (Or.inr ⟨spec, submittedAt, hsubmission spec submittedAt h⟩)
  · have hended : Ended (d.log ++ events) id ∨ .jobRemoved id ∈ events →
        Heard (d.persisted p effect events) id := fun h =>
      Or.inr (Or.inr (h.imp (fun h => h) (fun h => List.mem_append_right _ h)))
    rcases hd.heard hc with ⟨status, hmem, hterminal⟩ | ⟨status, hmem, hterminal⟩ | h | h
    · rw [← hreports] at hmem
      exact Or.inl ⟨status, hmem, hterminal⟩
    · rcases hd.entered (Or.inr (Or.inr ⟨status, hmem⟩)) with hrow | hremoved | ⟨_, _, hsubmitted⟩
      · rw [hpending] at hmem
        exact hended (hlawful.reported hrow (hend status hmem hterminal hc) hterminal)
      · exact Or.inr (Or.inr (Or.inr (List.mem_append_left _ hremoved)))
      · have heq := eq_of_single hd.single hmem hsubmitted
        contradiction
    · exact hended (hlawful.kept h)
    · exact Or.inr (Or.inr (Or.inr (List.mem_append_left _ h)))

theorem Followed.crashed (hl : keepsOutcome id d .crash = true) : Followed d.crash id := by
  refine ⟨fun h => ?_, fun hc => ?_, by simp [pending, Daemon.crash]⟩
  · simp [Known, Daemon.crash, JobSlot.crash, reports, mailbox, pending] at h
  · have hold : concludes (d.jobs id).crash = concluded (d.jobs id).log :=
      concludes_settled (by simp [JobSlot.crash])
    have hconcluded : concluded (d.jobs id).log = true := hold.symm.trans hc
    have hsettled : settled d.log id = true := by
      simpa [keepsOutcome, hconcluded] using hl
    exact Or.inr (Or.inr (settled_iff.mp hsettled))

theorem Followed.step (hd : Followed d id) (ho : Orderly d) {l : DaemonLabel}
    (hl : keepsOutcome id d l = true) (h : DaemonStep setting d l d') : Followed d' id := by
  cases h with
  | booted hnone =>
    have hempty : reports d id = [] := reports_none hnone
    refine hd.frame ⟨rfl, by simp [pending, Daemon.booted, hnone], rfl⟩
      (fun h => Or.inl (Or.inl h)) (fun _ h => ?_) (fun h => absurd rfl h) (fun h => Or.inl h)
    rw [hempty] at h
    contradiction
  | requested command hrequestable =>
    have hsame : reports (d.tellSupervisor command) id = reports d id :=
      reports_requested hrequestable
    exact hd.frame (registryFrame_tell command d) (fun h => Or.inl (Or.inl h))
      (fun _ h => by rwa [hsame]) (fun h => Or.inr (Or.inl (by rwa [hsame] at h)))
      (fun h => Or.inl h)
  | recovered p hp hphase => exact hd.recovered hp hphase
  | handled p command rest reply hp hphase hmailbox hreply =>
    exact hd.handled hp hphase hmailbox hreply
  | persisted p effect events ok hp hphase hevents => exact hd.persisted ho hp hphase hevents hl
  | jobRecovered i launch slot hslot =>
    obtain ⟨p, hproc, hphase, rfl⟩ := JobSlot.recover_cases hslot
    refine hd.setJob (fun _ => by simp [hproc]) (fun hc => ?_)
    rw [concludes_settled (by simp [JobSlot.recovered]), JobSlot.recovered_log] at hc
    exact concludes_of_concluded hc
  | jobHandled i launch slot status hslot => exact hd.handle ho hslot
  | jobPersisted i ok slot hslot =>
    obtain ⟨p, _, _, hproc, _, _, _⟩ := JobSlot.persist_cases hslot
    exact hd.setJob (fun _ => by simp [hproc]) (concludes_persist hslot)
  | forwarded i slot hslot =>
    obtain ⟨n, rest, _, rfl⟩ := JobSlot.forward_cases hslot
    refine hd.setJob (fun h hnone => h (by simp [JobSlot.tell, hnone])) (fun hc => ?_)
    rw [concludes_tell] at hc
    exact hc
  | worked i label spec system _ _ _ => exact hd.setJob (fun h => h) (fun h => h)
  | crashed => exact Followed.crashed hl

/-- In a run that loses neither the job's row nor its end, a job whose own journal has
ended is listed as ended, or was removed, whenever the supervisor's mailbox is drained; so
it can be removed, and no recovery spawns it. -/
theorem outcome_listed (setting : Setting) (id : JobId) (d : Daemon) (p : SupervisorProc)
    (hrun : Machine.Run (Daemon.next setting) (KeepsOutcome id) Daemon.init d)
    (hp : d.supervisor = some p) (hphase : p.phase = .waiting) (hdrained : p.mailbox = [])
    (hconcluded : concluded (d.jobs id).log = true) :
    .jobRemoved id ∈ d.log ∨
      (Ended d.log id ∧ SupervisorActor.toSpawn (SupervisorActor.fold d.log) id = none ∧
        (SupervisorActor.handleCommand d.nextJob p.children p.state (.remove id)).answer =
          some (.removed (.ok ()))) := by
  obtain ⟨_, ht, hd⟩ := hrun.invariant (fun d => Orderly d ∧ Tracked d ∧ Followed d id)
    (fun _ _ _ ⟨ho, ht, hd⟩ hl hstep => ⟨ho.step ht (daemon_step hstep),
      ht.step (daemon_step hstep), hd.step ho hl (daemon_step hstep)⟩)
    ⟨orderly_init, tracked_init, followed_init⟩
  rcases hd.heard (concludes_of_concluded hconcluded) with ⟨status, hmem, _⟩ | ⟨status, hmem, _⟩ |
    ⟨record, hrow, hterminal⟩ | hremoved
  · simp [reports, mailbox, hp, hdrained] at hmem
  · simp [pending, hp, hphase] at hmem
  · have hlookup : (SupervisorActor.fold d.log).jobs.lookup id = some record := hrow
    refine Or.inr ⟨⟨record, hrow, hterminal⟩, ?_, ?_⟩
    · simp [SupervisorActor.toSpawn, hlookup, hterminal]
    · rw [ht p hp (by rw [hphase]; rfl)]
      simp [SupervisorActor.handleCommand, hlookup, hterminal]
  · exact Or.inl hremoved

def listedJob : Daemon :=
  Machine.final (Daemon.next OrphanedJobs.soloSetting) (KeepsOutcome 0) Daemon.init
    (OrphanedJobs.failing ++ [.jobPersist 0 true, .supervisorHandle, .supervisorPersist true,
      .crash, .boot, .supervisorRecover])

theorem run_listedJob :
    Machine.Run (Daemon.next OrphanedJobs.soloSetting) (KeepsOutcome 0) Daemon.init listedJob :=
  Machine.run_final _ (by decide +kernel)

theorem failure_listed : .jobRemoved 0 ∈ listedJob.log ∨
    (Ended listedJob.log 0 ∧
      SupervisorActor.toSpawn (SupervisorActor.fold listedJob.log) 0 = none ∧
        (SupervisorActor.handleCommand listedJob.nextJob []
          (SupervisorActor.fold listedJob.log) (.remove 0)).answer = some (.removed (.ok ()))) :=
  outcome_listed OrphanedJobs.soloSetting 0 listedJob
    ⟨SupervisorActor.fold listedJob.log, [], [], [], .waiting⟩ run_listedJob rfl rfl rfl
    (by decide +kernel)

def unlistedJob : Daemon :=
  Machine.final (Daemon.next OrphanedJobs.soloSetting) Machine.free Daemon.init
    (OrphanedJobs.failing ++ [.jobPersist 0 true, .crash, .boot, .supervisorRecover,
      .jobRecover 0 (.ok ())])

theorem run_unlistedJob :
    Machine.Run (Daemon.next OrphanedJobs.soloSetting) Machine.free Daemon.init unlistedJob :=
  Machine.run_final _ (by decide +kernel)

/-- The next process spawns the ended job again, and its actor stays silent. -/
theorem failure_unlisted :
    ¬ ∀ (setting : Setting) (id : JobId) (d : Daemon) (p : SupervisorProc),
      Machine.Run (Daemon.next setting) Machine.free Daemon.init d → d.supervisor = some p →
        p.phase = .waiting → p.mailbox = [] → concluded (d.jobs id).log = true →
          .jobRemoved id ∈ d.log ∨ Ended d.log id := by
  intro h
  have hlisted := h OrphanedJobs.soloSetting 0 unlistedJob
    ⟨SupervisorActor.fold unlistedJob.log, [0], [], [], .waiting⟩ run_unlistedJob rfl rfl rfl
    (by decide +kernel)
  have hsettled : settled unlistedJob.log 0 = true := settled_iff.mpr hlisted.symm
  have hnot : settled unlistedJob.log 0 = false := by decide +kernel
  rw [hnot] at hsettled
  contradiction

end October.TerminalOutcomes
