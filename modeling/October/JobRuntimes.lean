import October.StatusReports

/-!
The runtimes of the jobs: how many a job actor has launched and not shut down. Only the
first command of an actor is a Start, and an actor that has launched a runtime takes
another Resume to its workflow, so it launches no second one while it holds the first,
and it shuts down what it holds before it stops.
-/
namespace October.JobRuntimes

open StatusReports

def replies (launch : Except String Unit) (slot : JobSlot) : Option (Bool × JobReply) :=
  slot.proc.bind (fun p => p.mailbox.head?.map (fun command =>
    (p.holds, JobActor.handleCommand launch p.holds command)))

/-- The runtimes after one more is launched, and the one held is shut down. -/
def settled (holds : Bool) (reply : JobReply) (runtimes : ℕ) : ℕ :=
  runtimes + reply.launched.toList.length - (holds && !reply.holds).toNat

def counted (d : Daemon) (runtimes : JobId → ℕ) : DaemonLabel → JobId → ℕ
  | .jobRecover id launch =>
    Function.update runtimes id (runtimes id +
      (JobActor.onRecoveryComplete launch (JobActor.fold (d.jobs id).log)).toList.length)
  | .jobHandle id launch =>
    match replies launch (d.jobs id) with
    | none => runtimes
    | some (holds, reply) => Function.update runtimes id (settled holds reply (runtimes id))
  | .crash => fun _ => 0
  | _ => runtimes

def isStart : JobCommand → Bool
  | .start => true
  | _ => false

/-- Where a job actor stands with the runtime it holds. -/
structure Keeps (log : List JobDomainEvent) (p : JobProc) : Prop where
  first : ∀ c rest, p.mailbox = c :: rest → ∀ c' ∈ rest, isStart c' = false
  starts : ∀ c rest, p.mailbox = c :: rest → isStart c = true →
    p.holds = false ∧ (p.phase = .recovering → (JobActor.fold log).status ≠ some .running)
  recovering : p.phase = .recovering → p.holds = false
  stopping : p.phase.stopping = true → p.holds = false

def Keeping (slot : JobSlot) : Prop := ∀ p, slot.proc = some p → Keeps slot.log p

def held (slot : JobSlot) : ℕ := (slot.proc.any (fun p => p.holds)).toNat

variable {slot slot' : JobSlot} {p : JobProc} {launch : Except String Unit}

theorem held_some (h : slot.proc = some p) : held slot = p.holds.toNat := by
  rw [held, h, Option.any_some]

@[simp] theorem held_tell (command : JobCommand) (slot : JobSlot) :
    held (slot.tell command) = held slot := by
  unfold held JobSlot.tell
  cases slot.proc with
  | none => rfl
  | some p =>
    simp only [Option.map_some, Option.any_some, JobProc.tell]
    split <;> rfl

theorem keeping_none (h : slot.proc = none) : Keeping slot := by
  intro p hp
  rw [h] at hp
  contradiction

theorem keeping_spawn (spec : JobSpec) (slot : JobSlot) : Keeping (slot.spawn spec) := by
  intro p hp
  cases Option.some.inj hp
  exact ⟨fun c rest h => by contradiction, fun c rest h => by contradiction, fun _ => rfl,
    fun _ => rfl⟩

/-- A command that is no Start goes to the end of the mailbox. -/
theorem Keeping.tell (h : Keeping slot) {command : JobCommand}
    (hcommand : isStart command = false) : Keeping (slot.tell command) := by
  intro q hq
  obtain ⟨p, hp, rfl⟩ := Option.map_eq_some_iff.mp hq
  obtain ⟨hfirst, hstarts, hrecovering, hstopping⟩ := h p hp
  unfold JobProc.tell
  split
  · exact ⟨hfirst, hstarts, hrecovering, hstopping⟩
  · refine ⟨fun c rest heq => ?_, fun c rest heq hstart => ?_, hrecovering, hstopping⟩
    · cases hmailbox : p.mailbox with
      | nil =>
        rw [hmailbox] at heq
        obtain ⟨rfl, rfl⟩ := List.cons.inj heq
        intro c' hc'
        contradiction
      | cons first others =>
        rw [hmailbox] at heq
        obtain ⟨rfl, rfl⟩ := List.cons.inj heq
        intro c' hc'
        rcases List.mem_append.mp hc' with hold | hnew
        · exact hfirst _ others hmailbox c' hold
        · rw [List.mem_singleton.mp hnew]
          exact hcommand
    · cases hmailbox : p.mailbox with
      | nil =>
        rw [hmailbox] at heq
        obtain ⟨rfl, rfl⟩ := List.cons.inj heq
        rw [hcommand] at hstart
        contradiction
      | cons first others =>
        rw [hmailbox] at heq
        obtain ⟨rfl, rfl⟩ := List.cons.inj heq
        exact hstarts _ others hmailbox hstart

/-- A Start is told to an actor that has just been spawned, over a journal that is not
Running. -/
theorem keeping_started (spec : JobSpec) (slot : JobSlot)
    (hlog : (JobActor.fold slot.log).status ≠ some .running) :
    Keeping ((slot.spawn spec).tell .start) := by
  intro p hp
  cases Option.some.inj hp
  refine ⟨fun c rest heq => ?_, fun c rest heq _ => ⟨rfl, fun _ => hlog⟩, fun _ => rfl,
    fun _ => rfl⟩
  obtain ⟨_, rfl⟩ := List.cons.inj heq
  intro c' hc'
  contradiction

theorem Keeping.persist (h : Keeping slot) {ok : Bool} (hslot : slot.persist ok = some slot') :
    Keeping slot' ∧ held slot' = held slot := by
  obtain ⟨p, effect, events, hproc, hphase, _, rfl⟩ := JobSlot.persist_cases hslot
  obtain ⟨hfirst, hstarts, _, hstopping⟩ := h p hproc
  rw [hphase] at hstopping
  refine ⟨fun q hq => ?_, ?_⟩
  · cases Option.some.inj hq
    have hup : Phase.called effect ≠ .recovering := by
      intro heq
      have hrecovering := Phase.isRecovering_called effect
      rw [heq] at hrecovering
      contradiction
    refine ⟨hfirst, fun c rest heq hstart => ⟨(hstarts c rest heq hstart).1, fun hrecovering =>
      absurd hrecovering hup⟩, fun hrecovering => absurd hrecovering hup, fun hstops => ?_⟩
    refine hstopping ?_
    rwa [Phase.stopping_called] at hstops
  · rw [held_some hproc]
    rfl

/-- An actor that recovers launches a runtime if its journal is Running. -/
theorem Keeping.recover (h : Keeping slot) (hslot : slot.recover launch = some slot') :
    Keeping slot' ∧ held slot' = held slot +
      (JobActor.onRecoveryComplete launch (JobActor.fold slot.log)).toList.length := by
  obtain ⟨p, hproc, hphase, rfl⟩ := JobSlot.recover_cases hslot
  obtain ⟨hfirst, hstarts, hrecovering, _⟩ := h p hproc
  refine ⟨fun q hq => ?_, ?_⟩
  · cases Option.some.inj hq
    refine ⟨hfirst, fun c rest heq hstart => ⟨?_, fun hnot => by contradiction⟩,
      fun hnot => by contradiction, fun hnot => by contradiction⟩
    have hnot := (hstarts c rest heq hstart).2 hphase
    unfold JobActor.onRecoveryComplete
    dsimp only
    split
    · contradiction
    · rfl
  · rw [held_some hproc, hrecovering hphase]
    change (Option.isSome _).toNat = _
    cases JobActor.onRecoveryComplete launch (JobActor.fold slot.log) <;> rfl

/-- What a handler launches and shuts down, it then holds or does not. -/
theorem settled_held (launch : Except String Unit) {command : JobCommand} {holds : Bool}
    (hstart : isStart command = true → holds = false) :
    settled holds (JobActor.handleCommand launch holds command) holds.toNat =
        (JobActor.handleCommand launch holds command).holds.toNat ∧
      ((JobActor.handleCommand launch holds command).effect.stops = true →
        (JobActor.handleCommand launch holds command).holds = false) := by
  cases command with
  | start =>
    obtain rfl := hstart rfl
    cases launch <;> exact ⟨rfl, fun h => by first | rfl | contradiction⟩
  | resume message =>
    cases holds with
    | true => exact ⟨rfl, fun h => by contradiction⟩
    | false => cases launch <;> exact ⟨rfl, fun h => by first | rfl | contradiction⟩
  | stop | subscribe => cases holds <;> exact ⟨rfl, fun h => by contradiction⟩
  | shutdown => cases holds <;> exact ⟨rfl, fun h => rfl⟩
  | workflowEvent notification =>
    cases notification with
    | finished _ | failed _ => cases holds <;> exact ⟨rfl, fun h => rfl⟩
    | suspended | awaitingUserInput _ => cases holds <;> exact ⟨rfl, fun h => by contradiction⟩

theorem Keeping.handle (h : Keeping slot) {status : Option JobStatus}
    (hslot : slot.handle launch = some (slot', status)) :
    Keeping slot' ∧ ∃ holds reply, replies launch slot = some (holds, reply) ∧
      held slot' = settled holds reply (held slot) := by
  obtain ⟨p, command, rest, hproc, hphase, hmailbox, rfl, _⟩ := JobSlot.handle_cases hslot
  obtain ⟨hfirst, hstarts, _, _⟩ := h p hproc
  have hrest := hfirst command rest hmailbox
  obtain ⟨hsettled, hstops⟩ := settled_held launch
    (fun hstart => (hstarts command rest hmailbox hstart).1)
  refine ⟨fun q hq => ?_, p.holds, JobActor.handleCommand launch p.holds command,
    by simp [replies, hproc, hmailbox], ?_⟩
  · cases Option.some.inj hq
    have hup : Phase.handled (JobActor.handleCommand launch p.holds command).effect ≠
        .recovering := by
      intro heq
      have hrecovering := Phase.isRecovering_handled
        (JobActor.handleCommand launch p.holds command).effect
      rw [heq] at hrecovering
      contradiction
    refine ⟨fun c others heq c' hc' => hrest c' ?_, fun c others heq hstart => ?_,
      fun hrecovering => absurd hrecovering hup, fun hstopping => hstops ?_⟩
    · have heq' : rest = c :: others := heq
      rw [heq']
      exact List.mem_cons_of_mem c hc'
    · have heq' : rest = c :: others := heq
      rw [hrest c (by rw [heq']; exact List.mem_cons_self)] at hstart
      contradiction
    · rwa [Phase.stopping_handled] at hstopping
  · rw [held_some hproc, hsettled]
    rfl

/-- An actor that has stopped or will holds no runtime. -/
theorem Keeping.released (h : Keeping slot) (hover : Over slot) : held slot = 0 := by
  cases hproc : slot.proc with
  | none => simp [held, hproc]
  | some p =>
    rw [held_some hproc, (h p hproc).stopping ((over_some hproc).mp hover)]
    rfl

end October.JobRuntimes
