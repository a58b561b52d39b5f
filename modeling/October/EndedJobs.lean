import October.OrphanedJobs
import October.StatusReports

/-!
The registry's journal over every run. The supervisor writes status reports unchecked,
so that a job stays ended rests on the order of its reports: one job actor at most is
live for a job, the report of an end is its last, and no recovery spawns an ended job.
So each event of the journal may follow what is before it.
-/
namespace October.EndedJobs

open SupervisorInvariants RegistryRows StatusReports

/-- The reports on a job and its actor: nothing follows the report of an end, and an ended
job has nothing more to report. -/
structure LastWord (ended : Prop) (waiting : List JobStatus) (slot : JobSlot) : Prop where
  quiet : ended → waiting = [] ∧ Over slot
  last : ∀ before status after, waiting = before ++ status :: after →
    SupervisorActor.isTerminal status = true → after = [] ∧ Over slot

section LastWord

variable {ended ended' : Prop} {waiting : List JobStatus} {slot slot' : JobSlot}
  {status : JobStatus}

theorem lastWord_down (h : slot.proc = none) : LastWord ended [] slot :=
  ⟨fun _ => ⟨rfl, over_none h⟩, fun before status after heq => by simp at heq⟩

theorem lastWord_new (h : ¬ ended) : LastWord ended [] slot :=
  ⟨fun hended => absurd hended h, fun before status after heq => by simp at heq⟩

/-- The actor may end, and reports may be taken. -/
theorem LastWord.mono (h : LastWord ended waiting slot) (hended : ended' → ended)
    (hover : Over slot → Over slot') : LastWord ended' waiting slot' := by
  refine ⟨fun h' => ?_, fun before status after heq hterminal => ?_⟩
  · obtain ⟨hnone, hslot⟩ := h.quiet (hended h')
    exact ⟨hnone, hover hslot⟩
  · obtain ⟨hnone, hslot⟩ := h.last before status after heq hterminal
    exact ⟨hnone, hover hslot⟩

theorem LastWord.taken (h : LastWord ended (status :: waiting) slot)
    (hended : ended' → ended ∨ SupervisorActor.isTerminal status = true) :
    LastWord ended' waiting slot := by
  refine ⟨fun h' => ?_, fun before status' after heq hterminal => ?_⟩
  · rcases hended h' with hold | hterminal
    · have hnone := (h.quiet hold).1
      contradiction
    · exact h.last [] status waiting rfl hterminal
  · exact h.last (status :: before) status' after (by rw [heq, List.cons_append]) hterminal

/-- An actor that can still report belongs to a job that has not ended. -/
theorem LastWord.active (h : LastWord ended waiting slot) (hslot : ¬ Over slot) :
    ¬ ended ∧ ∀ status ∈ waiting, SupervisorActor.isTerminal status = false := by
  refine ⟨fun hended => hslot (h.quiet hended).2, fun status hmem => ?_⟩
  obtain ⟨before, after, heq⟩ := List.append_of_mem hmem
  cases hterminal : SupervisorActor.isTerminal status with
  | true => exact absurd (h.last before status after heq hterminal).2 hslot
  | false => rfl

theorem LastWord.renew (h : LastWord ended waiting slot) (hslot : ¬ Over slot) :
    LastWord ended waiting slot' := by
  obtain ⟨hnot, hnone⟩ := h.active hslot
  refine ⟨fun hended => absurd hended hnot, fun before status after heq hterminal => ?_⟩
  have hmem : status ∈ waiting := by simp [heq]
  rw [hnone status hmem] at hterminal
  contradiction

theorem LastWord.report (h : LastWord ended waiting slot) (hslot : ¬ Over slot)
    (hstops : SupervisorActor.isTerminal status = true → Over slot') :
    LastWord ended (waiting ++ [status]) slot' := by
  obtain ⟨hnot, hnone⟩ := h.active hslot
  refine ⟨fun hended => absurd hended hnot, fun before status' after heq hterminal => ?_⟩
  rcases List.eq_nil_or_concat after with rfl | ⟨after', last, rfl⟩
  · obtain ⟨_, hlast⟩ := List.append_inj' heq rfl
    rw [List.singleton_inj.mp hlast] at hstops
    exact ⟨rfl, hstops hterminal⟩
  · rw [List.concat_eq_append, ← List.cons_append, ← List.append_assoc] at heq
    obtain ⟨hinit, _⟩ := List.append_inj' heq rfl
    have hmem : status' ∈ waiting := by simp [hinit]
    rw [hnone status' hmem] at hterminal
    contradiction

end LastWord

def EndedIn (d : Daemon) (id : JobId) : Prop := Ended d.log id ∨ Ended (registryRecord d) id

structure Orderly (d : Daemon) : Prop where
  lawful : Lawful (registryRecord d)
  drawn : ∀ e ∈ registryRecord d, subject e < d.nextJob
  words : ∀ id, LastWord (EndedIn d id) (reports d id) (d.jobs id)
  undrawn : ∀ id, d.nextJob ≤ id → (d.jobs id).proc = none ∧ reports d id = []
  awake : ∀ p, d.supervisor = some p → p.phase.stopping = false
  asleep : (∀ p, d.supervisor = some p → p.phase.isRecovering = true) →
    ∀ id, (d.jobs id).proc = none ∧ reports d id = []

variable {setting : Setting} {d d' : Daemon} {id : JobId}

theorem orderly_init : Orderly Daemon.init where
  lawful := lawful_nil
  drawn e he := by simp [registryRecord, Daemon.init] at he
  words id := lastWord_new (by simp [EndedIn, Ended, registryRecord, Daemon.init])
  undrawn _ _ := ⟨rfl, rfl⟩
  awake p hp := by contradiction
  asleep _ _ := ⟨rfl, rfl⟩

theorem EndedIn.drawn (hd : Orderly d) (h : EndedIn d id) : id < d.nextJob := by
  rcases h with h | h
  · obtain ⟨e, he, hsubject⟩ := h.heard
    rw [← hsubject]
    exact hd.drawn e (List.mem_append_left _ he)
  · obtain ⟨e, he, hsubject⟩ := h.heard
    rw [← hsubject]
    exact hd.drawn e he

theorem endedIn_idle (h : registryRecord d = d.log) : EndedIn d id ↔ Ended d.log id := by
  rw [EndedIn, h, or_self]

/-- The events change only if they are written, are handed over or are lost. -/
theorem endedIn_frame (h : RegistryFrame d d') (id : JobId) : EndedIn d' id ↔ EndedIn d id := by
  unfold EndedIn
  rw [h.log, h.record]

/-- A step of a job within its slot. -/
theorem Orderly.setJob {slot : JobSlot} (hd : Orderly d)
    (hslot : LastWord (EndedIn d id) (reports d id) slot)
    (hproc : (d.jobs id).proc = none → slot.proc = none) : Orderly (d.setJob id slot) := by
  obtain ⟨hlawful, hdrawn, hwords, hundrawn, hawake, hasleep⟩ := hd
  have hprocs : ∀ i, (d.jobs i).proc = none → ((d.setJob id slot).jobs i).proc = none :=
    setJob_all (fun i slot => (d.jobs i).proc = none → slot.proc = none) hproc (fun _ _ h => h)
  refine ⟨hlawful, hdrawn, ?_, fun i hi => ?_, hawake, fun hdown i => ?_⟩
  · exact setJob_all (fun i slot => LastWord (EndedIn d i) (reports d i) slot) hslot
      (fun i _ => hwords i)
  · exact ⟨hprocs i (hundrawn i hi).1, (hundrawn i hi).2⟩
  · exact ⟨hprocs i (hasleep hdown i).1, (hasleep hdown i).2⟩

/-- A job that is live belongs to a supervisor that has recovered. -/
theorem Orderly.up (hd : Orderly d) {p : JobProc} (hproc : (d.jobs id).proc = some p) :
    ∃ q, d.supervisor = some q ∧ q.phase.isRecovering = false := by
  refine Classical.byContradiction (fun hnot => ?_)
  have hdown := hd.asleep (fun q hq => ?_) id
  · rw [hproc] at hdown
    have hnone := hdown.1
    contradiction
  · cases hphase : q.phase.isRecovering with
    | true => rfl
    | false => exact absurd ⟨q, hq, hphase⟩ hnot

/-- No job is live before the supervisor has recovered. -/
theorem Orderly.recovering (hd : Orderly d) {p : SupervisorProc} (hp : d.supervisor = some p)
    (hphase : p.phase = .recovering) (id : JobId) :
    (d.jobs id).proc = none ∧ reports d id = [] := by
  refine hd.asleep (fun q hq => ?_) id
  cases Option.some.inj (hp.symm.trans hq)
  rw [hphase]
  rfl

theorem Orderly.down (hd : Orderly d) (hnone : d.supervisor = none) (id : JobId) :
    (d.jobs id).proc = none ∧ reports d id = [] := by
  refine hd.asleep (fun q hq => ?_) id
  rw [hnone] at hq
  contradiction

theorem Orderly.drawnJob (hd : Orderly d) {p : JobProc} (hproc : (d.jobs id).proc = some p) :
    id < d.nextJob := by
  by_cases hlt : id < d.nextJob
  · exact hlt
  · have hnone := (hd.undrawn id (Nat.le_of_not_lt hlt)).1
    rw [hproc] at hnone
    contradiction

/-- A command for the supervisor; a report comes from a job that could make it. -/
theorem Orderly.tell (hd : Orderly d) {command : SupervisorCommand}
    (hnew : ∀ id status, reported id command = some status → id < d.nextJob ∧
      (∃ q, d.supervisor = some q ∧ q.phase.isRecovering = false) ∧
      LastWord (EndedIn d id) (reports d id ++ [status]) (d.jobs id)) :
    Orderly (d.tellSupervisor command) := by
  obtain ⟨hlawful, hdrawn, hwords, hundrawn, hawake, hasleep⟩ := hd
  rcases Option.eq_none_or_eq_some d.supervisor with hnone | ⟨p, hp⟩
  · have hsame : d.tellSupervisor command = d := by
      unfold Daemon.tellSupervisor
      rw [hnone, Option.map_none, ← hnone]
    rw [hsame]
    exact ⟨hlawful, hdrawn, hwords, hundrawn, hawake, hasleep⟩
  · have hstopped := not_stopped (hawake p hp)
    have hreports : ∀ i, reports (d.tellSupervisor command) i =
        reports d i ++ (reported i command).toList := fun i => reports_tell hp hstopped command
    have hframe := registryFrame_tell command d
    refine ⟨by rw [hframe.record]; exact hlawful, by rw [hframe.record]; exact hdrawn,
      fun i => ?_, fun i hi => ?_, fun q hq => ?_, fun hdown i => ?_⟩
    · rw [hreports i]
      cases hreported : reported i command with
      | none =>
        rw [Option.toList_none, List.append_nil]
        exact (hwords i).mono (endedIn_frame hframe i).mp (fun h => h)
      | some status =>
        exact (hnew i status hreported).2.2.mono (endedIn_frame hframe i).mp (fun h => h)
    · obtain ⟨hproc, hempty⟩ := hundrawn i hi
      refine ⟨hproc, ?_⟩
      rw [hreports i, hempty]
      cases hreported : reported i command with
      | none => rfl
      | some status => exact absurd (hnew i status hreported).1 (Nat.not_lt_of_le hi)
    · obtain ⟨q', hq', rfl⟩ := tellSupervisor_some hq
      rw [SupervisorProc.tell_phase]
      exact hawake q' hq'
    · have hdown' := tell_down hdown
      obtain ⟨hproc, hempty⟩ := hasleep hdown' i
      refine ⟨hproc, ?_⟩
      rw [hreports i, hempty]
      cases hreported : reported i command with
      | none => rfl
      | some status =>
        obtain ⟨q, hq, hphase⟩ := (hnew i status hreported).2.1
        rw [hdown' q hq] at hphase
        contradiction

theorem Orderly.handle (hd : Orderly d) {launch : Except String Unit} {slot : JobSlot}
    {status : Option JobStatus} (h : (d.jobs id).handle launch = some (slot, status)) :
    Orderly ((d.setJob id slot).report id status) := by
  obtain ⟨p, command, rest, hproc, hphase, _, rfl, rfl⟩ := JobSlot.handle_cases h
  have hactive := not_over_waiting hproc hphase
  have hset : Orderly (d.setJob id
      ((d.jobs id).answered p rest (JobActor.handleCommand launch p.holds command))) :=
    hd.setJob ((hd.words id).renew hactive) (fun hnone => by rw [hproc] at hnone; contradiction)
  cases hreported : (JobActor.handleCommand launch p.holds command).reported with
  | none => exact hset
  | some status =>
    refine hset.tell (fun i status' hi => ?_)
    have hi' : (if id = i then some status else none) = some status' := hi
    by_cases hid : id = i
    · subst hid
      rw [if_pos rfl] at hi'
      cases Option.some.inj hi'
      refine ⟨hd.drawnJob hproc, hd.up hproc, ?_⟩
      refine LastWord.report (hd.words id) hactive (fun hterminal => ?_)
      have hstops := reported_stops hreported hterminal
      rw [setJob_same]
      simpa [Over, JobSlot.answered] using hstops
    · rw [if_neg hid] at hi'
      contradiction

theorem Orderly.requested (hd : Orderly d) {command : SupervisorCommand}
    (h : Daemon.requestable command = true) : Orderly (d.tellSupervisor command) := by
  refine hd.tell (fun i status hi => ?_)
  rw [reported_request h] at hi
  contradiction

theorem Orderly.booted (hd : Orderly d) (hnone : d.supervisor = none) : Orderly d.booted := by
  have hdown := hd.down hnone
  have hrecord : registryRecord d = d.log := by simp [registryRecord, hnone]
  refine ⟨by rw [registryRecord_booted, ← hrecord]; exact hd.lawful,
    by rw [registryRecord_booted, ← hrecord]; exact hd.drawn,
    fun i => lastWord_down (hdown i).1, fun i _ => ⟨(hdown i).1, rfl⟩, fun p hp => ?_,
    fun _ i => ⟨(hdown i).1, rfl⟩⟩
  cases Option.some.inj hp
  rfl

theorem Orderly.crashed (hd : Orderly d) : Orderly d.crash := by
  refine ⟨?_, fun e he => ?_, fun i => lastWord_down rfl, fun _ _ => ⟨rfl, rfl⟩,
    fun p hp => by contradiction, fun _ _ => ⟨rfl, rfl⟩⟩
  · rw [registryRecord_crash]
    exact hd.lawful.append_left
  · rw [registryRecord_crash] at he
    exact hd.drawn e (List.mem_append_left _ he)

/-- The jobs that a recovery spawns are listed, and not as ended. -/
theorem respawned_cases (log : List SupervisorEvent) (jobs : JobId → JobSlot) (id : JobId) :
    Daemon.respawned (SupervisorActor.fold log) jobs id = jobs id ∨
      (¬ Ended log id ∧ row log id ≠ none) := by
  unfold Daemon.respawned
  cases hspawn : SupervisorActor.toSpawn (SupervisorActor.fold log) id with
  | none => exact Or.inl rfl
  | some spec =>
    obtain ⟨record, hrow, _, hlive⟩ := toSpawn_listed hspawn
    refine Or.inr ⟨?_, by rw [row, hrow]; simp⟩
    rintro ⟨record', hrow', hterminal⟩
    cases Option.some.inj (hrow.symm.trans hrow')
    rw [hlive] at hterminal
    contradiction

theorem Orderly.recovered (hd : Orderly d) {p : SupervisorProc} (hp : d.supervisor = some p)
    (hphase : p.phase = .recovering) : Orderly (d.recovered p) := by
  have hdown := hd.recovering hp hphase
  have hempty : ∀ i, reports (d.recovered p) i = [] := fun i =>
    (reports_recovered hp).trans (hdown i).2
  have hrecord := registryRecord_idle hp (by rw [hphase]; rfl)
  obtain ⟨hlawful, hdrawn, _, _, _, _⟩ := hd
  rw [hrecord] at hlawful hdrawn
  refine ⟨by rw [registryRecord_recovered]; exact hlawful,
    by rw [registryRecord_recovered]; exact hdrawn, fun i => ?_, fun i hi => ⟨?_, hempty i⟩,
    fun q hq => ?_, fun hnot => ?_⟩
  · rw [hempty i]
    change LastWord _ [] (Daemon.respawned (SupervisorActor.fold d.log) d.jobs i)
    rcases respawned_cases d.log d.jobs i with hsame | ⟨hlive, _⟩
    · rw [hsame]
      exact lastWord_down (hdown i).1
    · refine lastWord_new ?_
      rw [endedIn_idle (registryRecord_recovered p d)]
      exact hlive
  · change (Daemon.respawned (SupervisorActor.fold d.log) d.jobs i).proc = none
    rcases respawned_cases d.log d.jobs i with hsame | ⟨_, hlisted⟩
    · rw [hsame]
      exact (hdown i).1
    · obtain ⟨e, he, hsubject⟩ := row_heard hlisted
      have hlt := hdrawn e he
      rw [hsubject] at hlt
      exact absurd hlt (Nat.not_lt_of_le hi)
  · cases Option.some.inj hq
    rfl
  · have h := hnot _ rfl
    contradiction

theorem Orderly.persisted (hd : Orderly d) {p : SupervisorProc}
    {effect : CommandEffect SupervisorEvent} {events : List SupervisorEvent} {ok : Bool}
    (hp : d.supervisor = some p) (hphase : p.phase = .performing effect)
    (hevents : events = if ok then effect.events else []) :
    Orderly (d.persisted p effect events) := by
  have hrecord : registryRecord d = d.log ++ effect.events := by
    simp [registryRecord, hp, hphase]
  have hreports : ∀ i, reports (d.persisted p effect events) i = reports d i := fun i =>
    reports_persisted hp effect events
  have hstops : effect.stops = false := by
    have h := hd.awake p hp
    rwa [hphase] at h
  obtain ⟨hlawful, hdrawn, hwords, hundrawn, _, _⟩ := hd
  -- a failed write leaves the log, a write leaves what was recorded
  have hlog : Lawful (d.log ++ events) ∧ (∀ e ∈ d.log ++ events, subject e < d.nextJob) ∧
      ∀ i, Ended (d.log ++ events) i → EndedIn d i := by
    rw [hrecord] at hlawful hdrawn
    subst hevents
    cases ok with
    | true =>
      refine ⟨hlawful, hdrawn, fun i hi => Or.inr ?_⟩
      rw [hrecord]
      exact hi
    | false =>
      rw [if_neg (by simp), List.append_nil]
      exact ⟨hlawful.append_left, fun e he => hdrawn e (List.mem_append_left _ he),
        fun i hi => Or.inl hi⟩
  obtain ⟨hlawful', hdrawn', hended'⟩ := hlog
  refine ⟨by rw [registryRecord_persisted]; exact hlawful',
    by rw [registryRecord_persisted]; exact hdrawn', fun i => ?_, fun i hi => ?_, fun q hq => ?_,
    fun hdown => absurd hdown persisted_up⟩
  · rw [hreports i]
    refine (hwords i).mono (fun hi => hended' i ?_) (fun h => h)
    exact (endedIn_idle (registryRecord_persisted p effect events d)).mp hi
  · rw [hreports i]
    exact hundrawn i hi
  · cases Option.some.inj hq
    exact (Phase.stopping_called effect).trans hstops

/-- What is written next may follow the log, is about drawn jobs, and makes a job an ended
one only if the command reported its end. -/
theorem Orderly.leaves (hd : Orderly d) (ht : Tracked d) {p : SupervisorProc}
    {command : SupervisorCommand} {rest : List SupervisorCommand} {events : List SupervisorEvent}
    (hp : d.supervisor = some p) (hphase : p.phase = .waiting)
    (hmailbox : p.mailbox = command :: rest)
    (hleaves : Leaves d.nextJob p.state command events) :
    Lawful (d.log ++ events) ∧ (∀ e ∈ d.log ++ events, subject e < d.nextJob + 1) ∧
      ∀ i, Ended (d.log ++ events) i → EndedIn d i ∨
        ∃ status, reported i command = some status ∧
          SupervisorActor.isTerminal status = true := by
  have hstate : p.state = SupervisorActor.fold d.log := ht p hp (by rw [hphase]; rfl)
  obtain ⟨hlawful, hdrawn, hwords, hundrawn, _, _⟩ := hd
  rw [registryRecord_idle hp (by rw [hphase]; rfl)] at hlawful hdrawn
  have hold : ∀ e ∈ d.log, subject e < d.nextJob + 1 := fun e he =>
    Nat.lt_succ_of_lt (hdrawn e he)
  have hsnoc : ∀ e, subject e < d.nextJob + 1 →
      ∀ e' ∈ d.log ++ [e], subject e' < d.nextJob + 1 := by
    intro e hlt e' he'
    rcases List.mem_append.mp he' with h | h
    · exact hold e' h
    · rw [List.mem_singleton.mp h]
      exact hlt
  have hended : ∀ e i, Ended (d.log ++ [e]) i → EndedIn d i ∨
      ∃ status, e = .jobStatusChanged i status ∧
        SupervisorActor.isTerminal status = true := fun e i hi =>
    (ended_snoc hi).imp (fun h => Or.inl h) (fun h => h)
  cases hleaves with
  | nothing _ _ =>
    rw [List.append_nil]
    exact ⟨hlawful, hold, fun i hi => Or.inl (Or.inl hi)⟩
  | submission spec submittedAt =>
    refine ⟨hlawful.snoc (fun e he => Nat.ne_of_lt (hdrawn e he)), hsnoc _ (Nat.lt_succ_self _),
      fun i hi => Or.inl ?_⟩
    rcases hended _ i hi with h | ⟨_, heq, _⟩
    · exact h
    · contradiction
  | report id status =>
    have hwaiting : reports d id = status :: rest.filterMap (reported id) := by
      simp [reports, mailbox, hp, hmailbox, reported]
    have hlive : ¬ Ended d.log id := by
      intro hended
      have hnone := ((hwords id).quiet (Or.inl hended)).1
      rw [hwaiting] at hnone
      contradiction
    have hid : id < d.nextJob := by
      by_cases hlt : id < d.nextJob
      · exact hlt
      · have hnone := (hundrawn id (Nat.le_of_not_lt hlt)).2
        rw [hwaiting] at hnone
        contradiction
    refine ⟨hlawful.snoc hlive, hsnoc _ (Nat.lt_succ_of_lt hid), fun i hi => ?_⟩
    refine (hended _ i hi).imp (fun h => h) ?_
    rintro ⟨status', heq, hterminal⟩
    cases heq
    exact ⟨status, by simp [reported], hterminal⟩
  | removal id record hrow _ =>
    rw [hstate] at hrow
    have hlisted : row d.log id ≠ none := by rw [row, hrow]; simp
    obtain ⟨e, he, hsubject⟩ := row_heard hlisted
    have hlt := hdrawn e he
    rw [hsubject] at hlt
    refine ⟨hlawful.snoc trivial, hsnoc _ (Nat.lt_succ_of_lt hlt), fun i hi => Or.inl ?_⟩
    rcases hended _ i hi with h | ⟨_, heq, _⟩
    · exact h
    · contradiction

theorem Orderly.handled (hd : Orderly d) (ht : Tracked d) {p : SupervisorProc}
    {command : SupervisorCommand} {rest : List SupervisorCommand} {reply : SupervisorReply}
    (hp : d.supervisor = some p) (hphase : p.phase = .waiting)
    (hmailbox : p.mailbox = command :: rest)
    (hreply : reply = SupervisorActor.handleCommand d.nextJob p.children p.state command) :
    Orderly (d.answered p rest reply) := by
  obtain ⟨hlawful', hdrawn', hended'⟩ :=
    hd.leaves ht hp hphase hmailbox (handled_leaves hreply)
  have hended : ∀ i, EndedIn (d.answered p rest reply) i → EndedIn d i ∨
      ∃ status, reported i command = some status ∧ SupervisorActor.isTerminal status = true := by
    intro i hi
    rw [EndedIn, registryRecord_answered] at hi
    exact hi.elim (fun h => Or.inl (Or.inl h)) (hended' i)
  have hreports : ∀ i, reports d i =
      (reported i command).toList ++ reports (d.answered p rest reply) i := fun i =>
    reports_answered hp hmailbox reply
  refine ⟨by rw [registryRecord_answered]; exact hlawful',
    by rw [registryRecord_answered]; exact hdrawn', fun i => ?_, fun i hi => ?_, fun q hq => ?_,
    fun hdown => absurd hdown answered_up⟩
  · by_cases hid : i = d.nextJob
    · have hempty := (hd.undrawn i (Nat.le_of_eq hid.symm)).2
      rw [hreports i, List.append_eq_nil_iff] at hempty
      rw [hempty.2]
      refine lastWord_new (fun hi => ?_)
      rcases hended i hi with hi | ⟨status, hstatus, _⟩
      · exact Nat.ne_of_lt (hi.drawn hd) hid
      · rw [hstatus] at hempty
        exact absurd hempty.1 (by simp)
    · have hword := hd.words i
      rw [hreports i] at hword
      have hover : Over (d.jobs i) → Over ((d.answered p rest reply).jobs i) :=
        answered_kept Over (fun slot command h => h.tell command) hreply hid
      have hended := hended i
      cases hstatus : reported i command with
      | none =>
        rw [hstatus] at hword hended
        exact hword.mono (fun hi => (hended hi).resolve_right (by simp)) hover
      | some status =>
        rw [hstatus] at hword hended
        refine (LastWord.taken hword (fun hi => (hended hi).imp (fun h => h) ?_)).mono
          (fun h => h) hover
        rintro ⟨status', heq, hterminal⟩
        cases Option.some.inj heq
        exact hterminal
  · have hlt : d.nextJob < i := hi
    obtain ⟨hproc, hempty⟩ := hd.undrawn i (Nat.le_of_lt hlt)
    rw [hreports i, List.append_eq_nil_iff] at hempty
    refine ⟨answered_kept (fun slot => slot.proc = none) (fun slot command h => ?_) hreply
      (Nat.ne_of_gt hlt) hproc, hempty.2⟩
    simp [JobSlot.tell, h]
  · cases Option.some.inj hq
    exact (Phase.stopping_handled reply.effect).trans (handled_continues hreply)

theorem Orderly.step (hd : Orderly d) (ht : Tracked d) {l : DaemonLabel}
    (h : DaemonStep setting d l d') : Orderly d' := by
  cases h with
  | booted hnone => exact hd.booted hnone
  | requested command hrequestable => exact hd.requested hrequestable
  | recovered p hp hphase => exact hd.recovered hp hphase
  | handled p command rest reply hp hphase hmailbox hreply =>
    exact hd.handled ht hp hphase hmailbox hreply
  | persisted p effect events ok hp hphase hevents => exact hd.persisted hp hphase hevents
  | jobRecovered id launch slot hslot =>
    obtain ⟨p, hproc, hphase, rfl⟩ := JobSlot.recover_cases hslot
    exact hd.setJob ((hd.words id).renew (not_over_recovering hproc hphase))
      (fun hnone => by rw [hproc] at hnone; contradiction)
  | jobHandled id launch slot status hslot => exact hd.handle hslot
  | jobPersisted id ok slot hslot =>
    refine hd.setJob ((hd.words id).mono (fun h => h) (fun h => h.persist hslot)) (fun hnone => ?_)
    obtain ⟨p, _, _, hproc, _, _, _⟩ := JobSlot.persist_cases hslot
    rw [hproc] at hnone
    contradiction
  | forwarded id slot hslot =>
    obtain ⟨n, rest, _, rfl⟩ := JobSlot.forward_cases hslot
    refine hd.setJob ((hd.words id).mono (fun h => h) (fun h => ?_)) (fun hnone => ?_)
    · have hover : Over { d.jobs id with
          system := { (d.jobs id).system with channel := rest } } := h
      exact hover.tell _
    · simp [JobSlot.tell, hnone]
  | worked id label spec system _ _ _ =>
    exact hd.setJob ((hd.words id).mono (fun h => h) (fun h => h)) (fun h => h)
  | crashed => exact hd.crashed

theorem orderly_reachable {ok : Daemon → DaemonLabel → Prop}
    (hrun : Machine.Run (Daemon.next setting) ok Daemon.init d) : Orderly d ∧ Tracked d :=
  hrun.invariant (fun d => Orderly d ∧ Tracked d)
    (fun _ _ _ h _ hstep => ⟨h.1.step h.2 (daemon_step hstep), h.2.step (daemon_step hstep)⟩)
    ⟨orderly_init, tracked_init⟩

def Live (log : List SupervisorEvent) (id : JobId) : Prop :=
  ∃ record, row log id = some record ∧ SupervisorActor.isTerminal record.status = false

/-- In the registry's journal of any run, a job that has ended is never live again, and a
job that was removed is never listed again. -/
theorem ended_stays (setting : Setting) (d : Daemon) (id : JobId)
    (earlier later : List SupervisorEvent)
    (hrun : Machine.Run (Daemon.next setting) Machine.free Daemon.init d)
    (hearlier : earlier <+: later) (hlater : later <+: d.log) :
    (Ended earlier id → ¬ Live later id) ∧ (.jobRemoved id ∈ earlier → row later id = none) := by
  obtain ⟨rest, hrest⟩ := hlater
  obtain ⟨between, rfl⟩ := hearlier
  have hlawful : Lawful (earlier ++ between) := by
    have h := (orderly_reachable hrun).1.lawful
    rw [registryRecord_eq, ← hrest] at h
    exact h.append_left.append_left
  refine ⟨fun hended => ?_, fun hremoved => hlawful.removed (List.mem_append_left _ hremoved)⟩
  rintro ⟨record, hrow, hlive⟩
  rcases hlawful.ended hended with ⟨record', hrow', hterminal⟩ | hnone
  · cases Option.some.inj (hrow.symm.trans hrow')
    rw [hlive] at hterminal
    contradiction
  · rw [hnone] at hrow
    contradiction

def removedJob : Daemon :=
  Machine.final (Daemon.next OrphanedJobs.soloSetting) Machine.free Daemon.init
    (OrphanedJobs.failing ++ [.supervisorHandle, .supervisorPersist true, .request (.remove 0),
      .supervisorHandle, .supervisorPersist true])

theorem run_removedJob :
    Machine.Run (Daemon.next OrphanedJobs.soloSetting) Machine.free Daemon.init removedJob :=
  Machine.run_final _ (by decide +kernel)

theorem removed_stays : ¬ Live removedJob.log 0 ∧ row removedJob.log 0 = none :=
  ⟨(ended_stays OrphanedJobs.soloSetting removedJob 0
      [.jobSubmitted 0 OrphanedJobs.soloSpec 0, .jobStatusChanged 0 .failed] removedJob.log
      run_removedJob ⟨[.jobRemoved 0], rfl⟩ List.prefix_rfl).1 ⟨_, rfl, rfl⟩,
    (ended_stays OrphanedJobs.soloSetting removedJob 0 removedJob.log removedJob.log
      run_removedJob List.prefix_rfl List.prefix_rfl).2 (by
        change _ ∈ [_, _, _]
        simp)⟩

end October.EndedJobs
