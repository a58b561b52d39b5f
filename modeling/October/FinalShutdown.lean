import October.EndedJobs
import October.JobRuntimes
import October.JobSystems
import October.PacedJobs
import October.QuietSystems

/-!
What goes on after a Shutdown. The supervisor acknowledges it when all its children have
stopped, and each child shuts its runtime down before it does. But it goes on to serve
its mailbox, and a Submit behind the Shutdown launches a runtime again; and only the job
actors are told, so the workflows and agents of the jobs go on, and journal.
-/
namespace October.FinalShutdown

open WorkflowInvariants SupervisorInvariants StatusReports EndedJobs JobRuntimes JobSystems
  PacedJobs QuietSystems

structure Journals where
  job : List JobDomainEvent
  workflow : List WorkflowDomainEvent
  agents : Uuid → List AgentDomainEvent

def journals (slot : JobSlot) : Journals :=
  ⟨slot.log, slot.system.workflowLog, fun sessionId => (slot.system.sessions sessionId).events⟩

/-- The daemon, whether the handler of a Shutdown has still to acknowledge it, the journals
when the first was acknowledged, and the runtimes launched and not shut down. -/
structure Closing where
  daemon : Daemon
  asked : Bool
  acknowledged : Option (JobId → Journals)
  runtimes : JobId → ℕ

inductive ClosingLabel where
  | step (label : DaemonLabel)
  | acknowledge

def takes (d : Daemon) : DaemonLabel → Option SupervisorCommand
  | .supervisorHandle => d.supervisor.bind (fun p => p.mailbox.head?)
  | _ => none

def isShutdown : SupervisorCommand → Bool
  | .shutdown => true
  | _ => false

def isSubmit : SupervisorCommand → Bool
  | .submit _ _ => true
  | _ => false

def handles : DaemonLabel → Bool
  | .supervisorHandle => true
  | _ => false

def exits : DaemonLabel → Bool
  | .crash => true
  | _ => false

namespace Closing

def init : Closing := ⟨Daemon.init, false, none, fun _ => 0⟩

/-- The handler of a Shutdown acknowledges it when all the children it awaits have stopped. -/
def acknowledge (c : Closing) : Option Closing :=
  if c.asked && c.daemon.supervisor.any (fun p =>
      p.awaited.all (fun id => (c.daemon.jobs id).stopped)) then
    some { c with
      asked := false
      acknowledged := some (c.acknowledged.getD (fun id => journals (c.daemon.jobs id))) }
  else none

def stepped (c : Closing) (label : DaemonLabel) (d : Daemon) : Closing where
  daemon := d
  asked := !exits label && (c.asked || (takes c.daemon label).any isShutdown)
  acknowledged := if exits label then none else c.acknowledged
  runtimes := counted c.daemon c.runtimes label

/-- Until it has acknowledged a Shutdown the supervisor takes no other command. -/
def next (setting : Setting) (c : Closing) : ClosingLabel → Option Closing
  | .step label =>
    if c.asked && handles label then none
    else (Daemon.next setting c.daemon label).map (c.stepped label)
  | .acknowledge => c.acknowledge

end Closing

/-- From the acknowledgement on no runtime is left, and no journal has grown. -/
def Final (c : Closing) : Prop :=
  ∀ sealed, c.acknowledged = some sealed →
    ∀ id, c.runtimes id = 0 ∧ journals (c.daemon.jobs id) = sealed id

def resting (setting : Setting) (slot : JobSlot) : Bool :=
  slot.proc.all (fun p => p.phase.events.isEmpty) &&
    slot.spec.all (fun spec => quiet (setting.config spec) slot.system)

/-- Every job rests when the Shutdown is acknowledged, and no Submit is taken after it. -/
def closes (setting : Setting) (c : Closing) : ClosingLabel → Bool
  | .acknowledge =>
    (List.range c.daemon.nextJob).all (fun id => resting setting (c.daemon.jobs id))
  | .step label => !(c.acknowledged.isSome && (takes c.daemon label).any isSubmit)

def Closes (setting : Setting) (c : Closing) (l : ClosingLabel) : Prop := closes setting c l = true

instance (setting : Setting) (c : Closing) (l : ClosingLabel) : Decidable (Closes setting c l) :=
  inferInstanceAs (Decidable (_ = true))

structure Regular (setting : Setting) (d : Daemon) : Prop where
  orderly : Orderly d
  tracked : Tracked d
  sound : Sound setting d
  base : ∀ id, Base (d.jobs id).system
  blank : ∀ id, d.nextJob ≤ id → (d.jobs id).log = []
  keeping : ∀ id, Keeping (d.jobs id)

variable {setting : Setting} {d d' : Daemon} {c c' : Closing} {id : JobId}

section Daemon

variable {p : SupervisorProc} {command : SupervisorCommand} {rest : List SupervisorCommand}
  {reply : SupervisorReply}

/-- A Submit spawns its job and tells it to start; any other command spawns none and tells
none to start. -/
theorem answered_jobs (rest : List SupervisorCommand)
    (hreply : reply = SupervisorActor.handleCommand d.nextJob p.children p.state command) :
    (∃ spec submittedAt, command = .submit spec submittedAt ∧
      (d.answered p rest reply).jobs = Function.update d.jobs d.nextJob
        (((d.jobs d.nextJob).spawn spec).tell .start)) ∨
    isSubmit command = false ∧ reply.spawned = none ∧ ∀ t ∈ reply.told, plain t.2 = true := by
  cases command with
  | submit spec submittedAt =>
    refine Or.inl ⟨spec, submittedAt, rfl, ?_⟩
    subst hreply
    funext i
    by_cases hid : i = d.nextJob
    · subst hid
      simp [Daemon.answered, SupervisorActor.handleCommand, Daemon.tells, Daemon.spawns]
    · simp [Daemon.answered, SupervisorActor.handleCommand, Daemon.tells, Daemon.spawns,
        Function.update_of_ne hid]
  | list | stop _ | resume _ _ | remove _ | subscribe _ | shutdown | jobStatusChanged _ _ =>
    refine Or.inr ⟨rfl, ?_⟩
    rcases handled_plain hreply with ⟨spec, submittedAt, hsubmit⟩ | hplain
    · contradiction
    · exact hplain

theorem Regular.answered (hd : Regular setting d)
    (hreply : reply = SupervisorActor.handleCommand d.nextJob p.children p.state command)
    (id : JobId) : Keeping ((d.answered p rest reply).jobs id) ∧
      held ((d.answered p rest reply).jobs id) = held (d.jobs id) := by
  have hfresh := (hd.orderly.undrawn d.nextJob (Nat.le_refl _)).1
  rcases answered_jobs rest hreply with ⟨spec, _, _, hjobs⟩ | ⟨_, hspawned, hplain⟩
  · rw [hjobs]
    by_cases hid : id = d.nextJob
    · subst hid
      rw [Function.update_self]
      refine ⟨keeping_started spec _ ?_, ?_⟩
      · rw [hd.blank d.nextJob (Nat.le_refl _)]
        simp [JobActor.fold, JobActor.initialState]
      · simp [held, hfresh, JobSlot.spawn, JobSlot.tell, JobProc.tell, Phase.isStopped]
    · rw [Function.update_of_ne hid]
      exact ⟨hd.keeping id, rfl⟩
  · have hkept := tells_kept_of (fun slot => Keeping slot ∧ held slot = held (d.jobs id))
      (fun command => plain command = true) (fun slot command hcommand h => ?_) reply.told hplain
      (Daemon.spawns reply.spawned d.jobs) id
    · rw [hspawned] at hkept
      have hjobs := hkept ⟨hd.keeping id, rfl⟩
      rw [← hspawned] at hjobs
      exact hjobs
    · refine ⟨h.1.tell ?_, (held_tell command slot).trans h.2⟩
      cases command <;> first | rfl | contradiction

/-- The jobs that a recovery spawns had no actor. -/
theorem Regular.recovered (hd : Regular setting d) (hp : d.supervisor = some p)
    (hphase : p.phase = .recovering) (id : JobId) : Keeping ((d.recovered p).jobs id) ∧
      held ((d.recovered p).jobs id) = held (d.jobs id) := by
  have hnone := (hd.orderly.recovering hp hphase id).1
  change Keeping (Daemon.respawned (SupervisorActor.fold d.log) d.jobs id) ∧
    held (Daemon.respawned (SupervisorActor.fold d.log) d.jobs id) = held (d.jobs id)
  unfold Daemon.respawned
  split
  · exact ⟨hd.keeping id, rfl⟩
  · exact ⟨keeping_spawn _ _, by simp [held, hnone, JobSlot.spawn]⟩

end Daemon

/-- The runtimes that the actors hold are the ones launched and not shut down. -/
theorem Regular.held_step (hd : Regular setting d) {l : DaemonLabel}
    (h : DaemonStep setting d l d') {runtimes : JobId → ℕ}
    (hcounted : ∀ id, runtimes id = held (d.jobs id)) (id : JobId) :
    Keeping (d'.jobs id) ∧ counted d runtimes l id = held (d'.jobs id) := by
  have hset : ∀ i {slot count}, Keeping slot → count = held slot →
      Keeping ((d.setJob i slot).jobs id) ∧
        Function.update runtimes i count id = held ((d.setJob i slot).jobs id) := by
    intro i slot count hkeeping hcount
    refine setJob_all (fun j slot => Keeping slot ∧
      Function.update runtimes i count j = held slot) ⟨hkeeping, ?_⟩ (fun j hid => ?_) id
    · rw [Function.update_self]
      exact hcount
    · rw [Function.update_of_ne hid]
      exact ⟨hd.keeping j, hcounted j⟩
  have hsame : ∀ {i slot}, Keeping slot → held slot = held (d.jobs i) →
      Keeping ((d.setJob i slot).jobs id) ∧ runtimes id = held ((d.setJob i slot).jobs id) := by
    intro i slot hkeeping hheld
    have hupdate := hset i hkeeping ((hcounted i).trans hheld.symm)
    rwa [Function.update_eq_self] at hupdate
  cases h with
  | booted | requested | persisted => exact ⟨hd.keeping id, hcounted id⟩
  | recovered p hp hphase =>
    obtain ⟨hkeeping, hheld⟩ := hd.recovered hp hphase id
    exact ⟨hkeeping, (hcounted id).trans hheld.symm⟩
  | handled p command rest reply hp hphase hmailbox hreply =>
    obtain ⟨hkeeping, hheld⟩ := hd.answered hreply id
    exact ⟨hkeeping, (hcounted id).trans hheld.symm⟩
  | jobRecovered i launch slot hslot =>
    obtain ⟨hkeeping, hheld⟩ := (hd.keeping i).recover hslot
    refine hset i hkeeping ?_
    rw [hcounted i, hheld]
  | jobHandled i launch slot status hslot =>
    obtain ⟨hkeeping, holds, reply, hreplies, hheld⟩ := (hd.keeping i).handle hslot
    have hjobs : ((d.setJob i slot).report i status).jobs = (d.setJob i slot).jobs := by
      cases status <;> rfl
    rw [hjobs]
    simp only [counted, hreplies]
    refine hset i hkeeping ?_
    rw [hcounted i, hheld]
  | jobPersisted i ok slot hslot =>
    obtain ⟨hkeeping, hheld⟩ := (hd.keeping i).persist hslot
    exact hsame hkeeping hheld
  | forwarded i slot hslot =>
    obtain ⟨n, others, _, rfl⟩ := JobSlot.forward_cases hslot
    have hkeeping : Keeping { d.jobs i with
        system := { (d.jobs i).system with channel := others } } := hd.keeping i
    exact hsame (hkeeping.tell rfl) (held_tell _ _)
  | worked i label spec system hspec hinternal hnext => exact hsame (hd.keeping i) rfl
  | crashed => exact ⟨keeping_none rfl, rfl⟩

/-- The journal of a job that was never drawn is empty. -/
theorem Regular.blank_step (hd : Regular setting d) {l : DaemonLabel}
    (h : DaemonStep setting d l d') (hid : d'.nextJob ≤ id) : (d'.jobs id).log = [] := by
  have hset : ∀ {i slot}, d.nextJob ≤ id → (d.nextJob ≤ i → slot.log = (d.jobs i).log) →
      ((d.setJob i slot).jobs id).log = [] := by
    intro i slot hle hlog
    refine setJob_all (fun j slot => d.nextJob ≤ j → slot.log = []) (fun hle => ?_)
      (fun j _ hle => hd.blank j hle) id hle
    rw [hlog hle]
    exact hd.blank i hle
  cases h with
  | booted | requested | persisted | crashed => exact hd.blank id hid
  | recovered p hp hphase =>
    change (Daemon.respawned (SupervisorActor.fold d.log) d.jobs id).log = []
    unfold Daemon.respawned
    split <;> exact hd.blank id hid
  | handled p command rest reply hp hphase hmailbox hreply =>
    have hlt : d.nextJob < id := hid
    rw [answered_same JobSlot.log (fun _ _ => rfl) (fun _ _ => rfl) hreply id]
    exact hd.blank id (Nat.le_of_lt hlt)
  | jobRecovered i launch slot hslot =>
    obtain ⟨p, _, _, rfl⟩ := JobSlot.recover_cases hslot
    exact hset hid (fun _ => JobSlot.recovered_log _ p _)
  | jobHandled i launch slot status hslot =>
    obtain ⟨p, command, rest, _, _, _, rfl, _⟩ := JobSlot.handle_cases hslot
    cases status with
    | none => exact hset hid (fun _ => JobSlot.answered_log p rest _ _)
    | some status => exact hset hid (fun _ => JobSlot.answered_log p rest _ _)
  | jobPersisted i ok slot hslot =>
    obtain ⟨p, effect, events, hproc, _, _, rfl⟩ := JobSlot.persist_cases hslot
    exact hset hid (fun hle => absurd (hd.orderly.drawnJob hproc) (Nat.not_lt_of_le hle))
  | forwarded i slot hslot =>
    obtain ⟨n, others, _, rfl⟩ := JobSlot.forward_cases hslot
    exact hset hid (fun _ => rfl)
  | worked i label spec system hspec hinternal hnext => exact hset hid (fun _ => rfl)

theorem regular_init (setting : Setting) : Regular setting Daemon.init where
  orderly := orderly_init
  tracked := tracked_init
  sound := sound_init
  base _ := base_init
  blank _ _ := rfl
  keeping _ := keeping_none rfl

theorem Regular.step (hd : Regular setting d) {l : DaemonLabel}
    (hnext : Daemon.next setting d l = some d') : Regular setting d' := by
  have hstep := daemon_step hnext
  exact ⟨hd.orderly.step hd.tracked hstep, hd.tracked.step hstep, hd.sound.step hnext,
    base_kept.step hstep hd.base, fun id => hd.blank_step hstep,
    fun id => (hd.held_step hstep (fun _ => rfl) id).1⟩

def Tended (d : Daemon) (asked : Bool) (id : JobId) : Prop :=
  Over (d.jobs id) ∨ ∃ p, d.supervisor = some p ∧
    (id ∈ p.children ∨ asked = true ∧ id ∈ p.awaited)

section Tended

variable {asked : Bool} {p : SupervisorProc}

/-- The supervisor keeps its children, and a job that is over stays so. -/
theorem Tended.kept (h : Tended d asked id) (hover : Over (d.jobs id) → Over (d'.jobs id))
    (hsupervisor : ∀ p, d.supervisor = some p → ∃ q, d'.supervisor = some q ∧
      q.children = p.children ∧ q.awaited = p.awaited) : Tended d' asked id := by
  rcases h with hjob | ⟨p, hp, hheld⟩
  · exact Or.inl (hover hjob)
  · obtain ⟨q, hq, hchildren, hawaited⟩ := hsupervisor p hp
    refine Or.inr ⟨q, hq, ?_⟩
    rw [hchildren, hawaited]
    exact hheld

theorem Tended.tell (h : Tended d asked id) (command : SupervisorCommand) :
    Tended (d.tellSupervisor command) asked id := by
  refine h.kept (fun hover => hover) (fun p hp => ⟨p.tell command, ?_, ?_, ?_⟩)
  · simp [Daemon.tellSupervisor, hp]
  · exact SupervisorProc.tell_children command p
  · exact SupervisorProc.tell_awaited command p

theorem Tended.setJob (h : ∀ i, Tended d asked i) {i : JobId} {slot : JobSlot}
    (hover : Over (d.jobs i) → Over slot) : Tended (d.setJob i slot) asked id := by
  refine (h id).kept (fun hjob => ?_) (fun p hp => ⟨p, hp, rfl, rfl⟩)
  exact setJob_all (fun j slot => Over (d.jobs j) → Over slot) hover (fun _ _ h => h) id hjob

/-- A job that the supervisor lets go of has ended, or is awaited. -/
theorem handled_children {children : List JobId} {state : SupervisorState} {fresh : JobId}
    {command : SupervisorCommand} {reply : SupervisorReply}
    (hreply : reply = SupervisorActor.handleCommand fresh children state command)
    (hid : id ∈ children) : id ∈ reply.children ∨
      (isShutdown command = true ∧ id ∈ reply.awaited) ∨
        ∃ record, state.jobs.lookup id = some record ∧
          SupervisorActor.isTerminal record.status = true := by
  subst hreply
  cases command with
  | submit spec submittedAt => exact Or.inl (List.mem_insert_of_mem hid)
  | remove jobId =>
    unfold SupervisorActor.handleCommand
    dsimp only
    split
    · exact Or.inl hid
    · rename_i record hrow
      split
      · rename_i hterminal
        by_cases heq : id = jobId
        · subst heq
          exact Or.inr (Or.inr ⟨record, hrow, hterminal⟩)
        · exact Or.inl ((List.mem_erase_of_ne heq).mpr hid)
      · exact Or.inl hid
  | shutdown => exact Or.inr (Or.inl ⟨rfl, hid⟩)
  | list | stop _ | resume _ _ | subscribe _ | jobStatusChanged _ _ => exact Or.inl hid

/-- The supervisor takes a command while it awaits nobody. -/
theorem Tended.answered (h : Tended d false id) (hd : Regular setting d)
    {command : SupervisorCommand} {rest : List SupervisorCommand} {reply : SupervisorReply}
    (hp : d.supervisor = some p) (hphase : p.phase = .waiting)
    (hreply : reply = SupervisorActor.handleCommand d.nextJob p.children p.state command) :
    Tended (d.answered p rest reply) (isShutdown command) id := by
  by_cases hid : id = d.nextJob
  · subst hid
    have hnone := (hd.orderly.undrawn d.nextJob (Nat.le_refl _)).1
    rcases answered_jobs rest hreply with ⟨spec, submittedAt, rfl, _⟩ |
        ⟨_, hspawned, _⟩
    · subst hreply
      exact Or.inr ⟨_, rfl, Or.inl List.mem_insert_self⟩
    · refine Or.inl (over_none ?_)
      refine tells_kept (fun slot => slot.proc = none) (fun slot command hproc => ?_) reply.told _ _
        ?_
      · simp [JobSlot.tell, hproc]
      · rw [hspawned]
        exact hnone
  · rcases h with hover | ⟨q, hq, hheld⟩
    · exact Or.inl (answered_kept Over (fun slot command h => h.tell command) hreply hid hover)
    · cases Option.some.inj (hp.symm.trans hq)
      have hchild : id ∈ p.children := by
        rcases hheld with hchild | ⟨hasked, _⟩
        · exact hchild
        · contradiction
      rcases handled_children hreply hchild with hkept | hawaited | ⟨record, hrow, hterminal⟩
      · exact Or.inr ⟨_, rfl, Or.inl hkept⟩
      · exact Or.inr ⟨_, rfl, Or.inr hawaited⟩
      · -- a removed job has reported its end, so its actor stops or has stopped
        rw [hd.tracked p hp (by rw [hphase]; rfl)] at hrow
        have hover := ((hd.orderly.words id).quiet (Or.inl ⟨record, hrow, hterminal⟩)).2
        exact Or.inl (answered_kept Over (fun slot command h => h.tell command) hreply hid hover)

theorem tended_recovered (hd : Regular setting d) (hp : d.supervisor = some p)
    (hphase : p.phase = .recovering) (asked : Bool) (id : JobId) :
    Tended (d.recovered p) asked id := by
  have hnone := (hd.orderly.recovering hp hphase id).1
  cases hspawn : SupervisorActor.toSpawn (SupervisorActor.fold d.log) id with
  | none =>
    refine Or.inl ?_
    change Over (Daemon.respawned (SupervisorActor.fold d.log) d.jobs id)
    unfold Daemon.respawned
    rw [hspawn]
    exact over_none hnone
  | some spec =>
    refine Or.inr ⟨_, rfl, Or.inl (List.mem_filter.mpr ⟨?_, by rw [hspawn]; rfl⟩)⟩
    obtain ⟨record, hrow, _⟩ := toSpawn_listed hspawn
    exact AList.mem_keys.mp (AList.lookup_isSome.mp (by rw [hrow]; rfl))

end Tended

structure Settled (setting : Setting) (slot : JobSlot) : Prop where
  ended : Over slot
  mute : ∀ p, slot.proc = some p → p.phase.events = []
  quiet : ∀ spec, slot.spec = some spec → Quiet (setting.config spec) slot.system

section Settled

variable {slot slot' : JobSlot}

theorem journals_congr (hlog : slot'.log = slot.log)
    (hsame : SameJournals slot.system slot'.system) : journals slot' = journals slot := by
  unfold journals
  rw [hlog, hsame.workflowLog]
  congr 1
  funext sessionId
  exact hsame.events sessionId

theorem Settled.tell (h : Settled setting slot) (command : JobCommand) :
    Settled setting (slot.tell command) := by
  refine ⟨h.ended.tell command, fun q hq => ?_, h.quiet⟩
  obtain ⟨p, hp, rfl⟩ := Option.map_eq_some_iff.mp hq
  rw [JobProc.tell_phase]
  exact h.mute p hp

theorem Settled.persist (h : Settled setting slot) {ok : Bool}
    (hslot : slot.persist ok = some slot') :
    Settled setting slot' ∧ journals slot' = journals slot := by
  have hover := h.ended.persist hslot
  obtain ⟨p, effect, events, hproc, hphase, hevents, rfl⟩ := JobSlot.persist_cases hslot
  have hnone := h.mute p hproc
  rw [hphase, Phase.events_performing] at hnone
  have hempty : events = [] := by
    rw [hevents, hnone, ite_self]
  subst hempty
  refine ⟨⟨hover, fun q hq => ?_, h.quiet⟩,
    journals_congr (List.append_nil _) (SameJournals.refl _)⟩
  cases Option.some.inj hq
  exact Phase.events_called effect

theorem Settled.forward (h : Settled setting slot) (hslot : slot.forward = some slot') :
    Settled setting slot' ∧ journals slot' = journals slot := by
  obtain ⟨n, rest, _, rfl⟩ := JobSlot.forward_cases hslot
  have hdrained : Settled setting { slot with
      system := { slot.system with channel := rest } } := by
    refine ⟨h.ended, h.mute, fun spec hspec => ?_⟩
    obtain ⟨hworkflow, hagents, hruns⟩ := h.quiet spec hspec
    exact ⟨hworkflow, hagents, hruns⟩
  exact ⟨hdrained.tell _, rfl⟩

theorem Settled.worked (h : Settled setting slot) (hs : Base slot.system) {spec : JobSpec}
    {label : Label} {system : System} (hspec : slot.spec = some spec)
    (hinternal : internal label = true)
    (hnext : next (setting.config spec) slot.system label = some system) :
    Settled setting { slot with system := system } ∧
      journals { slot with system := system } = journals slot := by
  obtain ⟨hquiet, hsame⟩ := (h.quiet spec hspec).step hs hinternal (next_step hnext)
  refine ⟨⟨h.ended, h.mute, fun spec' hspec' => ?_⟩, journals_congr rfl hsame⟩
  cases Option.some.inj (hspec.symm.trans hspec')
  exact hquiet

/-- A job that rests when its actor has ended is settled. -/
theorem settled_of_resting (hover : Over slot) (hresting : resting setting slot = true) :
    Settled setting slot := by
  simp only [resting, Bool.and_eq_true] at hresting
  refine ⟨hover, fun p hp => ?_, fun spec hspec => ?_⟩
  · have hempty := hresting.1
    rw [hp, Option.all_some] at hempty
    exact List.isEmpty_iff.mp hempty
  · have hquiet := hresting.2
    rw [hspec, Option.all_some] at hquiet
    exact quiet_iff.mp hquiet

/-- Once all jobs are settled, a step of the process that takes no Submit leaves them so. -/
theorem settled_step (hd : Regular setting d) (hall : ∀ id, Settled setting (d.jobs id))
    {l : DaemonLabel} (hstep : DaemonStep setting d l d')
    (hup : ∃ p, d.supervisor = some p ∧ p.phase.isRecovering = false)
    (hsubmit : (takes d l).any isSubmit = false) (hexits : exits l = false) (id : JobId) :
    Settled setting (d'.jobs id) ∧ journals (d'.jobs id) = journals (d.jobs id) := by
  have hset : ∀ {i slot}, Settled setting slot ∧ journals slot = journals (d.jobs i) →
      Settled setting ((d.setJob i slot).jobs id) ∧
        journals ((d.setJob i slot).jobs id) = journals (d.jobs id) := by
    intro i slot hslot
    exact setJob_all (fun j slot => Settled setting slot ∧ journals slot = journals (d.jobs j))
      hslot (fun j _ => ⟨hall j, rfl⟩) id
  obtain ⟨q, hq, hqphase⟩ := hup
  cases hstep with
  | booted | requested | persisted => exact ⟨hall id, rfl⟩
  | recovered p hp hphase =>
    cases Option.some.inj (hp.symm.trans hq)
    rw [hphase] at hqphase
    contradiction
  | handled p command rest reply hp hphase hmailbox hreply =>
    rcases answered_jobs rest hreply with ⟨spec, submittedAt, rfl, _⟩ |
        ⟨_, hspawned, _⟩
    · simp [takes, hp, hmailbox, isSubmit] at hsubmit
    · refine tells_kept (fun slot => Settled setting slot ∧ journals slot = journals (d.jobs id))
        (fun slot command h => ⟨h.1.tell command, h.2⟩) reply.told _ id ?_
      rw [hspawned]
      exact ⟨hall id, rfl⟩
  | jobRecovered i launch slot hslot =>
    obtain ⟨p, hproc, hphase, _⟩ := JobSlot.recover_cases hslot
    exact absurd (hall i).ended (not_over_recovering hproc hphase)
  | jobHandled i launch slot status hslot =>
    obtain ⟨p, command, rest, hproc, hphase, _⟩ := JobSlot.handle_cases hslot
    exact absurd (hall i).ended (not_over_waiting hproc hphase)
  | jobPersisted i ok slot hslot => exact hset ((hall i).persist hslot)
  | forwarded i slot hslot => exact hset ((hall i).forward hslot)
  | worked i label spec system hspec hinternal hnext =>
    exact hset ((hall i).worked (hd.base i) hspec hinternal hnext)
  | crashed => contradiction

end Settled

/-- What holds of a process that closes: every job is tended until it is over, and all are
settled once a Shutdown has been acknowledged. -/
structure Attended (setting : Setting) (c : Closing) : Prop where
  regular : Regular setting c.daemon
  counted : ∀ id, c.runtimes id = held (c.daemon.jobs id)
  tended : ∀ id, Tended c.daemon c.asked id
  asking : c.asked = true → ∀ p, c.daemon.supervisor = some p → p.children = []
  up : c.asked = true ∨ c.acknowledged.isSome = true →
    ∃ p, c.daemon.supervisor = some p ∧ p.phase.isRecovering = false
  settled : ∀ sealed, c.acknowledged = some sealed → ∀ id,
    Settled setting (c.daemon.jobs id) ∧ journals (c.daemon.jobs id) = sealed id

section Steps

/-- A supervisor that has recovered keeps its children until it takes its next command. -/
theorem supervisor_kept {l : DaemonLabel} (hstep : DaemonStep setting d l d')
    (hhandles : handles l = false) (hexits : exits l = false) {p : SupervisorProc}
    (hp : d.supervisor = some p) (hphase : p.phase.isRecovering = false) :
    ∃ q, d'.supervisor = some q ∧ q.children = p.children ∧ q.awaited = p.awaited ∧
      q.phase.isRecovering = false := by
  have htell : ∀ command, ∃ q, (d.tellSupervisor command).supervisor = some q ∧
      q.children = p.children ∧ q.awaited = p.awaited ∧ q.phase.isRecovering = false := by
    intro command
    refine ⟨p.tell command, by simp [Daemon.tellSupervisor, hp], ?_, ?_, ?_⟩
    · exact SupervisorProc.tell_children command p
    · exact SupervisorProc.tell_awaited command p
    · rw [SupervisorProc.tell_phase]
      exact hphase
  cases hstep with
  | booted hnone =>
    rw [hp] at hnone
    contradiction
  | requested command _ => exact htell command
  | recovered q hq hrecovering =>
    cases Option.some.inj (hp.symm.trans hq)
    rw [hrecovering] at hphase
    contradiction
  | persisted q effect events ok hq _ _ =>
    cases Option.some.inj (hp.symm.trans hq)
    exact ⟨_, rfl, rfl, rfl, Phase.isRecovering_called effect⟩
  | jobHandled i launch slot status _ =>
    cases status with
    | none => exact ⟨p, hp, rfl, rfl, hphase⟩
    | some status => exact htell (.jobStatusChanged i status)
  | jobRecovered | jobPersisted | forwarded | worked => exact ⟨p, hp, rfl, rfl, hphase⟩
  | handled | crashed => contradiction

/-- Steps that take no command from the supervisor's mailbox leave its children tended. -/
theorem tended_others (hd : Regular setting d) {asked : Bool} (h : ∀ id, Tended d asked id)
    {l : DaemonLabel} (hstep : DaemonStep setting d l d') (hhandles : handles l = false)
    (id : JobId) : Tended d' asked id := by
  cases hstep with
  | booted hnone =>
    exact Or.inl (over_none (hd.orderly.down hnone id).1)
  | requested command _ => exact (h id).tell command
  | recovered p hp hphase => exact tended_recovered hd hp hphase asked id
  | handled => contradiction
  | persisted p effect events ok hp _ _ =>
    refine (h id).kept (fun hover => hover) (fun q hq => ?_)
    cases Option.some.inj (hp.symm.trans hq)
    exact ⟨_, rfl, rfl, rfl⟩
  | jobRecovered i launch slot hslot =>
    obtain ⟨p, hproc, hphase, _⟩ := JobSlot.recover_cases hslot
    exact Tended.setJob h (fun hover => absurd hover (not_over_recovering hproc hphase))
  | jobHandled i launch slot status hslot =>
    obtain ⟨p, command, rest, hproc, hphase, _⟩ := JobSlot.handle_cases hslot
    have hset : Tended (d.setJob i slot) asked id :=
      Tended.setJob h (fun hover => absurd hover (not_over_waiting hproc hphase))
    cases status with
    | none => exact hset
    | some status => exact hset.tell _
  | jobPersisted i ok slot hslot => exact Tended.setJob h (fun hover => hover.persist hslot)
  | forwarded i slot hslot =>
    obtain ⟨n, rest, _, rfl⟩ := JobSlot.forward_cases hslot
    refine Tended.setJob h (fun hover => ?_)
    have hover' : Over { d.jobs i with
        system := { (d.jobs i).system with channel := rest } } := hover
    exact hover'.tell _
  | worked i label spec system _ _ _ => exact Tended.setJob h (fun hover => hover)
  | crashed => exact Or.inl (over_none rfl)

theorem stepped_asked {l : DaemonLabel} (hhandles : handles l = false) (hexits : exits l = false) :
    (c.stepped l d').asked = c.asked := by
  cases l <;> first | contradiction | simp [Closing.stepped, exits, takes]

/-- The supervisor takes a command, as none has still to be acknowledged. -/
theorem Attended.handled (h : Attended setting c) {p : SupervisorProc}
    {command : SupervisorCommand} {rest : List SupervisorCommand} {reply : SupervisorReply}
    (hasked : c.asked = false) (hp : c.daemon.supervisor = some p) (hphase : p.phase = .waiting)
    (hmailbox : p.mailbox = command :: rest)
    (hreply : reply = SupervisorActor.handleCommand c.daemon.nextJob p.children p.state command)
    (hregular : Regular setting (c.daemon.answered p rest reply))
    (hsubmit : c.acknowledged.isSome = true → isSubmit command = false) :
    Attended setting (c.stepped .supervisorHandle (c.daemon.answered p rest reply)) := by
  have hstep : DaemonStep setting c.daemon .supervisorHandle (c.daemon.answered p rest reply) :=
    DaemonStep.handled p command rest reply hp hphase hmailbox hreply
  have hnew : (c.stepped .supervisorHandle (c.daemon.answered p rest reply)).asked =
      isShutdown command := by
    simp [Closing.stepped, exits, takes, hasked, hp, hmailbox]
  refine ⟨hregular, fun id => (h.regular.held_step hstep h.counted id).2, fun id => ?_,
    fun hshutdown q hq => ?_, fun _ => ⟨_, rfl, Phase.isRecovering_handled reply.effect⟩,
    fun sealed hsealed id => ?_⟩
  · have htended := h.tended id
    rw [hasked] at htended
    rw [hnew]
    exact htended.answered h.regular hp hphase hreply
  · rw [hnew] at hshutdown
    cases Option.some.inj hq
    subst hreply
    cases command <;> first | rfl | contradiction
  · have hsealed' : c.acknowledged = some sealed := hsealed
    have htakes : (takes c.daemon .supervisorHandle).any isSubmit = false := by
      simpa [takes, hp, hmailbox] using hsubmit (by rw [hsealed']; rfl)
    have hall := h.settled sealed hsealed'
    obtain ⟨hsettled, hsame⟩ := settled_step h.regular (fun i => (hall i).1) hstep
      ⟨p, hp, by rw [hphase]; rfl⟩ htakes rfl id
    exact ⟨hsettled, hsame.trans (hall id).2⟩

/-- The steps of the process besides. -/
theorem Attended.others (h : Attended setting c) {l : DaemonLabel}
    (hstep : DaemonStep setting c.daemon l d') (hhandles : handles l = false)
    (hexits : exits l = false) (hregular : Regular setting d') :
    Attended setting (c.stepped l d') := by
  have hasked : (c.stepped l d').asked = c.asked := stepped_asked hhandles hexits
  have hacknowledged : (c.stepped l d').acknowledged = c.acknowledged := by
    simp [Closing.stepped, hexits]
  have htakes : (takes c.daemon l).any isSubmit = false := by
    cases l <;> first | rfl | contradiction
  refine ⟨hregular, fun id => (h.regular.held_step hstep h.counted id).2, fun id => ?_,
    fun hshutdown q hq => ?_, fun hup => ?_, fun sealed hsealed id => ?_⟩
  · rw [hasked]
    exact tended_others h.regular h.tended hstep hhandles id
  · rw [hasked] at hshutdown
    obtain ⟨p, hp, hphase⟩ := h.up (Or.inl hshutdown)
    obtain ⟨q', hq', hchildren, _⟩ := supervisor_kept hstep hhandles hexits hp hphase
    cases Option.some.inj (hq.symm.trans hq')
    rw [hchildren]
    exact h.asking hshutdown p hp
  · rw [hasked, hacknowledged] at hup
    obtain ⟨p, hp, hphase⟩ := h.up hup
    obtain ⟨q, hq, _, _, hqphase⟩ := supervisor_kept hstep hhandles hexits hp hphase
    exact ⟨q, hq, hqphase⟩
  · rw [hacknowledged] at hsealed
    have hall := h.settled sealed hsealed
    obtain ⟨hsettled, hsame⟩ := settled_step h.regular (fun i => (hall i).1) hstep
      (h.up (Or.inr (by rw [hsealed]; rfl))) htakes hexits id
    exact ⟨hsettled, hsame.trans (hall id).2⟩

theorem Attended.crashed (h : Attended setting c) (hregular : Regular setting c.daemon.crash) :
    Attended setting (c.stepped .crash c.daemon.crash) where
  regular := hregular
  counted id := (h.regular.held_step DaemonStep.crashed h.counted id).2
  tended id := Or.inl (over_none rfl)
  asking hasked := by contradiction
  up hup := by rcases hup with hasked | hsealed <;> contradiction
  settled sealed hsealed := by contradiction

/-- When a Shutdown is acknowledged no child is left, and every job that rests is settled. -/
theorem Attended.acknowledged (h : Attended setting c) (hcloses : Closes setting c .acknowledge)
    (hnext : c.acknowledge = some c') : Attended setting c' := by
  unfold Closing.acknowledge at hnext
  split at hnext
  · rename_i hdone
    cases Option.some.inj hnext
    simp only [Bool.and_eq_true] at hdone
    obtain ⟨hasked, hawaited⟩ := hdone
    obtain ⟨p, hp, hstopped⟩ := (Option.any_eq_true _ _).mp hawaited
    have hover : ∀ id, Over (c.daemon.jobs id) := by
      intro id
      rcases h.tended id with hover | ⟨q, hq, hheld⟩
      · exact hover
      · cases Option.some.inj (hp.symm.trans hq)
        rw [h.asking hasked p hp] at hheld
        rcases hheld with hnone | ⟨_, hmem⟩
        · contradiction
        · exact over_stopped (List.all_eq_true.mp hstopped id hmem)
    have hsettled : ∀ id, Settled setting (c.daemon.jobs id) := by
      intro id
      by_cases hlt : id < c.daemon.nextJob
      · exact settled_of_resting (hover id)
          (List.all_eq_true.mp hcloses id (List.mem_range.mpr hlt))
      · have hle := Nat.le_of_not_lt hlt
        have hspec := h.regular.sound.fresh id hle
        refine ⟨hover id, fun q hq => ?_, fun spec hsome => ?_⟩
        · rw [(h.regular.orderly.undrawn id hle).1] at hq
          contradiction
        · rw [hspec] at hsome
          contradiction
    refine ⟨h.regular, h.counted, fun id => Or.inl (hover id), fun hnot => by contradiction,
      fun _ => h.up (Or.inl hasked), fun sealed hsealed id => ⟨hsettled id, ?_⟩⟩
    cases hold : c.acknowledged with
    | none =>
      rw [hold] at hsealed
      cases Option.some.inj hsealed
      rfl
    | some old =>
      rw [hold] at hsealed
      cases Option.some.inj hsealed
      exact (h.settled old hold id).2
  · contradiction

theorem Attended.step (h : Attended setting c) {l : ClosingLabel} (hcloses : Closes setting c l)
    (hnext : c.next setting l = some c') : Attended setting c' := by
  cases l with
  | acknowledge => exact h.acknowledged hcloses hnext
  | step label =>
    simp only [Closing.next] at hnext
    split at hnext
    · contradiction
    · rename_i hidle
      obtain ⟨d', hdaemon, rfl⟩ := Option.map_eq_some_iff.mp hnext
      have hregular := h.regular.step hdaemon
      have hstep := daemon_step hdaemon
      cases hhandles : handles label with
      | false =>
        cases hexits : exits label with
        | false => exact h.others hstep hhandles hexits hregular
        | true =>
          cases hstep with
          | crashed => exact h.crashed hregular
          | _ => contradiction
      | true =>
        cases hstep with
        | handled p command rest reply hp hphase hmailbox hreply =>
          refine h.handled (by simpa [handles] using hidle) hp hphase hmailbox hreply hregular
            (fun hsome => ?_)
          simpa [Closes, closes, takes, hp, hmailbox, hsome] using hcloses
        | _ => contradiction

theorem attended_init (setting : Setting) : Attended setting Closing.init where
  regular := regular_init setting
  counted _ := rfl
  tended _ := Or.inl (over_none rfl)
  asking hasked := by contradiction
  up hup := by rcases hup with hasked | hsealed <;> contradiction
  settled sealed hsealed := by contradiction

end Steps

/-- If every job rests when a Shutdown is acknowledged and no Submit is taken after it, then
from the acknowledgement until the process exits no runtime is left that was launched and
not shut down, and no journal of a job, a workflow or an agent grows. -/
theorem shutdown_final (setting : Setting) (c : Closing)
    (hrun : Machine.Run (Closing.next setting) (Closes setting) Closing.init c) : Final c := by
  have h := hrun.invariant (Attended setting)
    (fun c l c' h hcloses hnext => h.step hcloses hnext) (attended_init setting)
  intro sealed hsealed id
  obtain ⟨hsettled, hsame⟩ := h.settled sealed hsealed id
  refine ⟨?_, hsame⟩
  rw [h.counted id]
  exact (h.regular.keeping id).released hsettled.ended

def suspending : List DaemonLabel :=
  OrphanedJobs.submitting ++ OrphanedJobs.starting ++
    [.workflow 0 (.agentRecover 0 "m0"), .workflow 0 (.agentHandle 0 "m1"),
      .workflow 0 (.agentPersist 0 true), .request (.stop 0), .supervisorHandle,
      .jobHandle 0 (.ok ()), .workflow 0 .workflowHandle, .workflow 0 (.workflowPersist true),
      .workflow 0 (.agentHandle 0 "m2"), .workflow 0 (.runFinish 0 .cancelled),
      .workflow 0 (.agentHandle 0 "m3"), .workflow 0 (.agentPersist 0 true),
      .workflow 0 (.agentPersist 0 true), .forward 0, .jobHandle 0 (.ok ()), .jobPersist 0 true,
      .supervisorHandle, .supervisorPersist true]

def closing : List ClosingLabel :=
  suspending.map .step ++
    [.step (.request .shutdown), .step .supervisorHandle, .step (.jobHandle 0 (.ok ())),
      .acknowledge, .step (.request (.resume 0 "more")), .step .supervisorHandle]

def closed : Closing :=
  Machine.final (Closing.next OrphanedJobs.soloSetting) (Closes OrphanedJobs.soloSetting)
    Closing.init closing

theorem run_closed : Machine.Run (Closing.next OrphanedJobs.soloSetting)
    (Closes OrphanedJobs.soloSetting) Closing.init closed :=
  Machine.run_final closing (by decide +kernel)

theorem closed_final : closed.acknowledged.isSome = true ∧ Final closed :=
  ⟨by decide +kernel, shutdown_final OrphanedJobs.soloSetting closed run_closed⟩

def overtaken : List ClosingLabel :=
  [.step .boot, .step .supervisorRecover, .step (.request .shutdown),
    .step (.request (.submit OrphanedJobs.soloSpec 0)), .step .supervisorHandle, .acknowledge,
    .step .supervisorHandle, .step (.supervisorPersist true), .step (.jobRecover 1 (.ok ())),
    .step (.jobHandle 1 (.ok ()))]

def relaunched : Closing :=
  Machine.final (Closing.next OrphanedJobs.soloSetting) Machine.free Closing.init overtaken

theorem run_relaunched : Machine.Run (Closing.next OrphanedJobs.soloSetting) Machine.free
    Closing.init relaunched := Machine.run_final overtaken (by decide +kernel)

def outlived : List ClosingLabel :=
  [.step .boot, .step .supervisorRecover, .step (.request (.submit OrphanedJobs.soloSpec 0)),
    .step .supervisorHandle, .step (.supervisorPersist true), .step (.jobRecover 0 (.ok ())),
    .step (.jobHandle 0 (.ok ())), .step (.jobPersist 0 true), .step (.request .shutdown),
    .step .supervisorHandle, .step (.jobHandle 0 (.ok ())), .acknowledge,
    .step (.workflow 0 .workflowRecover), .step (.workflow 0 .workflowHandle),
    .step (.workflow 0 (.workflowPersist true))]

def journaling : Closing :=
  Machine.final (Closing.next OrphanedJobs.soloSetting) Machine.free Closing.init outlived

theorem run_journaling : Machine.Run (Closing.next OrphanedJobs.soloSetting) Machine.free
    Closing.init journaling := Machine.run_final outlived (by decide +kernel)

/-- A runtime may be launched after a Shutdown, and a journal may grow. -/
theorem shutdown_not_final :
    (¬ ∀ (setting : Setting) (c : Closing),
      Machine.Run (Closing.next setting) Machine.free Closing.init c → Final c) ∧
    ¬ ∀ (setting : Setting) (c : Closing),
      Machine.Run (Closing.next setting) Machine.free Closing.init c → ∀ sealed,
      c.acknowledged = some sealed → ∀ id, journals (c.daemon.jobs id) = sealed id := by
  constructor
  · intro h
    obtain ⟨sealed, hsealed⟩ := Option.isSome_iff_exists.mp
      (show relaunched.acknowledged.isSome = true by decide +kernel)
    have hnone := (h OrphanedJobs.soloSetting relaunched run_relaunched sealed hsealed 1).1
    have hone : relaunched.runtimes 1 = 1 := by decide +kernel
    omega
  · intro h
    obtain ⟨sealed, hsealed, hgrown⟩ := (Option.any_eq_true (fun sealed : JobId → Journals =>
      decide ((sealed 0).workflow.length < (journals (journaling.daemon.jobs 0)).workflow.length))
        journaling.acknowledged).mp (by decide +kernel)
    rw [h OrphanedJobs.soloSetting journaling run_journaling sealed hsealed 0] at hgrown
    simp at hgrown

end October.FinalShutdown
