import October.StatusReports
import October.WorkflowInvariants

/-!
The workflow systems of the jobs in a run of the daemon. A step of the daemon leaves the
system of each job as it is, or takes it along steps of its own: launched and told by its
job actor, drained by the forwarder, crashed with the process. So what every step of a
workflow system keeps, every run of the daemon keeps of each job.
-/
namespace October.JobSystems

open WorkflowInvariants SupervisorInvariants StatusReports

/-- Every step of a workflow system, whatever its configuration, keeps the property. -/
def Kept (P : System → Prop) : Prop :=
  ∀ (cfg : Config) (s t : System) (l : Label), P s → Step cfg s l t → P t

variable {P : System → Prop} {setting : Setting} {d d' : Daemon} {slot slot' : JobSlot}

theorem Kept.launch (h : Kept P) (kickoff : Option Kickoff) (hs : P slot.system) :
    P (slot.launch kickoff).system := by
  unfold JobSlot.launch
  split
  · rename_i kickoff spec hspec
    cases hlaunch : slot.system.launch (kickoff.command spec.input) with
    | none => exact hs
    | some t =>
      unfold System.launch at hlaunch
      split at hlaunch
      · contradiction
      · rename_i hnone
        cases Option.some.inj hlaunch
        refine h (solo .file) slot.system _ _ hs
          (Step.launched (kickoff.command spec.input) ?_ hnone)
        cases kickoff <;> simp [Kickoff.command, operator]
  · exact hs

theorem Kept.tellWorkflow (h : Kept P) {told : Option WorkflowCommand}
    (htold : ∀ command, told = some command → operator command = true) (hs : P slot.system) :
    P (slot.tellWorkflow told).system := by
  cases told with
  | none => exact hs
  | some command =>
    exact h (solo .file) slot.system _ _ hs (Step.delivered command (htold command rfl))

theorem Kept.recover (h : Kept P) {launch : Except String Unit}
    (hslot : slot.recover launch = some slot') (hs : P slot.system) : P slot'.system := by
  obtain ⟨p, _, _, rfl⟩ := JobSlot.recover_cases hslot
  exact h.launch _ hs

theorem Kept.handle (h : Kept P) {launch : Except String Unit} {status : Option JobStatus}
    (hslot : slot.handle launch = some (slot', status)) (hs : P slot.system) :
    P slot'.system := by
  obtain ⟨p, command, rest, _, _, _, rfl, _⟩ := JobSlot.handle_cases hslot
  exact h.tellWorkflow (fun _ => told_operator) (h.launch _ hs)

theorem Kept.forward (h : Kept P) (hslot : slot.forward = some slot') (hs : P slot.system) :
    P slot'.system := by
  obtain ⟨n, rest, hchannel, rfl⟩ := JobSlot.forward_cases hslot
  have hdrained := h (solo .file) slot.system _ _ hs Step.drained
  rw [hchannel] at hdrained
  exact hdrained

/-- One job's step, the others as they were. -/
theorem setJob_systems {id : JobId} (hd : ∀ i, P (d.jobs i).system) (hslot : P slot.system)
    (i : JobId) : P ((d.setJob id slot).jobs i).system :=
  setJob_all (fun _ slot => P slot.system) hslot (fun i _ => hd i) i

theorem respawned_system (state : SupervisorState) (jobs : JobId → JobSlot) (id : JobId) :
    (Daemon.respawned state jobs id).system = (jobs id).system := by
  unfold Daemon.respawned
  split <;> rfl

theorem Kept.step (h : Kept P) {l : DaemonLabel} (hstep : DaemonStep setting d l d')
    (hd : ∀ id, P (d.jobs id).system) (id : JobId) : P (d'.jobs id).system := by
  cases hstep with
  | booted | requested | persisted => exact hd id
  | recovered p hp hphase =>
    change P (Daemon.respawned (SupervisorActor.fold d.log) d.jobs id).system
    rw [respawned_system]
    exact hd id
  | handled p command rest reply hp hphase hmailbox hreply =>
    rw [answered_same JobSlot.system (fun _ _ => rfl) (fun _ _ => rfl) hreply id]
    exact hd id
  | jobRecovered i launch slot hslot => exact setJob_systems hd (h.recover hslot (hd i)) id
  | jobHandled i launch slot status hslot =>
    have hset : P ((d.setJob i slot).jobs id).system :=
      setJob_systems hd (h.handle hslot (hd i)) id
    cases status with
    | none => exact hset
    | some status => exact hset
  | jobPersisted i ok slot hslot =>
    obtain ⟨p, effect, events, _, _, _, rfl⟩ := JobSlot.persist_cases hslot
    refine setJob_systems hd ?_ id
    exact hd i
  | forwarded i slot hslot => exact setJob_systems hd (h.forward hslot (hd i)) id
  | worked i label spec system hspec hinternal hnext =>
    exact setJob_systems hd (h _ _ _ _ (hd i) (next_step hnext)) id
  | crashed => exact h (solo .file) (d.jobs id).system _ _ (hd id) Step.crashed

theorem base_kept : Kept Base := fun _ _ _ _ hs hstep => hs.step hstep

end October.JobSystems
