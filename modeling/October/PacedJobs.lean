import October.RunTokens
import October.StatusReports

/-!
One job over the first life of its actor and of its workflow. The Start that the job actor
has yet to take is a token, and the workflow launched with it holds that token. As long as
there is one, or the end of a run is on its way, the job is active; a step makes a job
active only if it was, and tells an active job nothing of its workflow. So its actor has
nothing to report.
-/
namespace October.PacedJobs

open WorkflowInvariants RunTokens SupervisorInvariants StatusReports

def isLaunch : JobCommand → Bool
  | .start => true
  | _ => false

/-- The Starts that a job actor has yet to take, if it does not stop before. -/
def launches (slot : JobSlot) : ℕ :=
  (slot.proc.map (fun p => if p.phase.stopping then 0 else p.mailbox.countP isLaunch)).getD 0

def Active (cancelled : Bool) (slot : JobSlot) : Prop :=
  0 < launches slot ∨ busy cancelled slot.system

structure Hushed (slot : JobSlot) : Prop where
  channel : slot.system.channel = []
  mailbox : ∀ p, slot.proc = some p → ∀ n, .workflowEvent n ∉ p.mailbox

/-- A job in the first life of its actor and of its workflow, with one token at most. -/
structure Paced (slot : JobSlot) : Prop where
  base : Base slot.system
  first : FirstLife slot.system
  one : launches slot + (starting slot.system + coming slot.system) ≤ 1
  blank : (∀ p, slot.proc = some p → p.phase = .recovering) →
    slot.log = [] ∧ slot.system.workflow = none
  held : ∀ p, slot.proc = some p → p.phase.stopping = false → p.holds = false →
    slot.system.workflow = none
  waits : 0 < launches slot → slot.system.workflow = none ∧
    ∃ p rest, slot.proc = some p ∧ p.mailbox = .start :: rest

structure Calms (cancelled cancelled' : Bool) (slot slot' : JobSlot) : Prop where
  active : Active cancelled' slot' → Active cancelled slot
  hushed : Active cancelled' slot' → Hushed slot → Hushed slot'

section Slots

variable {cancelled : Bool} {slot slot' : JobSlot} {p : JobProc} {s t : System}

theorem launches_some (hproc : slot.proc = some p) :
    launches slot = if p.phase.stopping then 0 else p.mailbox.countP isLaunch := by
  unfold launches
  rw [hproc, Option.map_some, Option.getD_some]

/-- Without a workflow there are no agents, and so no runs. -/
theorem idle_of_absent (hs : Base s) (hnone : s.workflow = none) : starting s + coming s = 0 := by
  have hnil := hs.absent hnone
  have hagents : s.agents = [] := List.map_eq_nil_iff.mp hnil
  have hruns := hs.no_runs hnil
  simp [starting, coming, unfinished, total, queued, hagents, hruns, hnone]

theorem not_active (hone : launches slot + (starting slot.system + coming slot.system) = 0) :
    ¬ Active cancelled slot := by
  unfold Active busy
  omega

theorem Active.mono {cancelled' : Bool} (h : Active cancelled' slot)
    (hle : cancelled' = false → cancelled = false) : Active cancelled slot := by
  rcases h with hwaiting | hstarts | ⟨hcomes, hlive⟩
  · exact Or.inl hwaiting
  · exact Or.inr (Or.inl hstarts)
  · exact Or.inr (Or.inr ⟨hcomes, hle hlive⟩)

theorem paced_empty : Paced JobSlot.empty where
  base := base_init
  first := firstLife_init
  one := by decide
  blank _ := ⟨rfl, rfl⟩
  held _ hproc := by contradiction
  waits hlaunch := by contradiction

/-- What a job actor does to its workflow: it adds this many tokens at most, in silence. -/
structure Hands (tokens : ℕ) (s t : System) : Prop where
  base : Base t
  first : FirstLife t
  channel : t.channel = s.channel
  starting : starting t ≤ starting s + tokens
  coming : coming t = coming s

theorem hands_same (hbase : Base s) (hfirst : FirstLife s) : Hands 0 s s :=
  ⟨hbase, hfirst, rfl, Nat.le_refl _, rfl⟩

theorem hands_told (hbase : Base s) (hfirst : FirstLife s) {command : WorkflowCommand}
    (hoperator : operator command = true) (hstart : isStart command = false) :
    Hands 0 s (s.tellWorkflow command) := by
  have hstep : Step (solo .file) s (.deliver command) (s.tellWorkflow command) :=
    Step.delivered command hoperator
  have hreport : fromAgent command = false := by cases command <;> first | rfl | contradiction
  refine ⟨hbase.step hstep, hfirst.step (by simp) hstep, rfl, Nat.le_of_eq ?_, ?_⟩
  · unfold RunTokens.starting
    rw [queued_tell_same hstart]
    rfl
  · unfold RunTokens.coming
    rw [queued_tell_same hreport]
    rfl

def tokens : Kickoff → ℕ
  | .start => 1
  | _ => 0

theorem hands_launched (hbase : Base slot.system) (hfirst : FirstLife slot.system)
    (hnone : slot.system.workflow = none) (kickoff : Kickoff) :
    Hands (tokens kickoff) slot.system (slot.launch (some kickoff)).system := by
  unfold JobSlot.launch
  cases slot.spec with
  | none => exact ⟨hbase, hfirst, rfl, Nat.le_add_right _ _, rfl⟩
  | some spec =>
    have hstep : Step (solo .file) slot.system (.launch (kickoff.command spec.input))
        { slot.system with
          workflow := some ⟨WorkflowActor.initialState, none,
            (kickoff.command spec.input).toList, .recovering⟩ } := by
      refine Step.launched _ (fun c hc => ?_) hnone
      cases kickoff <;> simp [Kickoff.command] at hc <;> subst hc <;> rfl
    simp only [System.launch, hnone, Option.getD_some]
    refine ⟨hbase.step hstep, hfirst.step (by simp) hstep, rfl, ?_, ?_⟩
    · cases kickoff <;>
        simp [RunTokens.starting, unfinished, queued, hnone, Kickoff.command, tokens, isStart]
    · cases kickoff <;>
        simp [RunTokens.coming, queued, hnone, Kickoff.command, fromAgent,
          WorkflowCommand.reports]

theorem calms_refl : Calms cancelled cancelled slot slot := ⟨fun h => h, fun _ h => h⟩

theorem Calms.trans {slot'' : JobSlot} (h : Calms cancelled cancelled slot slot')
    (h' : Calms cancelled cancelled slot' slot'') : Calms cancelled cancelled slot slot'' :=
  ⟨fun hactive => h.active (h'.active hactive),
    fun hactive hhushed => h'.hushed hactive (h.hushed (h'.active hactive) hhushed)⟩

/-- A step that leaves the workflow, adds no Start and tells the job nothing of a workflow. -/
theorem calms_proc (hsystem : slot'.system = slot.system)
    (hlaunches : launches slot' ≤ launches slot)
    (hmailbox : Hushed slot → ∀ p, slot'.proc = some p → ∀ n, .workflowEvent n ∉ p.mailbox) :
    Calms cancelled cancelled slot slot' := by
  refine ⟨?_, fun _ h => ⟨by rw [hsystem]; exact h.channel, hmailbox h⟩⟩
  unfold Active
  rw [hsystem]
  exact fun h => h.imp (fun hlt => Nat.lt_of_lt_of_le hlt hlaunches) (fun h => h)

theorem launches_tell {command : JobCommand} (h : isLaunch command = false) (slot : JobSlot) :
    launches (slot.tell command) = launches slot := by
  unfold launches JobSlot.tell
  cases slot.proc with
  | none => rfl
  | some p =>
    simp only [Option.map_some, Option.getD_some, JobProc.tell_phase]
    unfold JobProc.tell
    split
    · rfl
    · split <;> simp [h]

/-- Telling the job actor a command that is no Start. -/
theorem Paced.tell (h : Paced slot) {command : JobCommand} (hlaunch : isLaunch command = false) :
    Paced (slot.tell command) := by
  obtain ⟨hbase, hfirst, hone, hblank, hheld, hwaits⟩ := h
  have hproc : ∀ q, (slot.tell command).proc = some q → ∃ p, slot.proc = some p ∧
      q.phase = p.phase ∧ q.holds = p.holds := by
    intro q hq
    obtain ⟨p, hp, rfl⟩ := Option.map_eq_some_iff.mp hq
    refine ⟨p, hp, JobProc.tell_phase command p, ?_⟩
    unfold JobProc.tell
    split <;> rfl
  refine ⟨hbase, hfirst, ?_, fun hdown => hblank (fun p hp => ?_), fun q hq hphase hholds => ?_,
    fun hwaiting => ?_⟩
  · rw [launches_tell hlaunch]
    exact hone
  · have hphase := hdown (p.tell command) (by simp [JobSlot.tell, hp])
    rwa [JobProc.tell_phase] at hphase
  · obtain ⟨p, hp, hsame, hsame'⟩ := hproc q hq
    exact hheld p hp (by rw [← hsame]; exact hphase) (by rw [← hsame']; exact hholds)
  · rw [launches_tell hlaunch] at hwaiting
    obtain ⟨hnone, p, rest, hp, hmailbox⟩ := hwaits hwaiting
    refine ⟨hnone, p.tell command, ?_⟩
    unfold JobProc.tell
    split
    · rename_i hstopped
      exact ⟨rest, by simp [JobSlot.tell, JobProc.tell, hp, hstopped], hmailbox⟩
    · rename_i hlive
      exact ⟨rest ++ [command], by simp [JobSlot.tell, JobProc.tell, hp, hlive], by simp [hmailbox]⟩

def plain : JobCommand → Bool
  | .start => false
  | .workflowEvent _ => false
  | _ => true

/-- The commands that a handler tells to children, besides the Start of a new one. -/
theorem handled_plain {fresh : JobId} {children : List JobId} {state : SupervisorState}
    {command : SupervisorCommand} {reply : SupervisorReply}
    (h : reply = SupervisorActor.handleCommand fresh children state command) :
    (∃ spec submittedAt, command = .submit spec submittedAt) ∨
      reply.spawned = none ∧ ∀ t ∈ reply.told, plain t.2 = true := by
  have hchild : ∀ id told, plain told = true →
      ∀ t ∈ SupervisorActor.toChild children id told, plain t.2 = true := by
    intro id told hplain t ht
    unfold SupervisorActor.toChild at ht
    split at ht
    · rw [List.mem_singleton.mp ht]
      exact hplain
    · contradiction
  subst h
  cases command with
  | submit spec submittedAt => exact Or.inl ⟨spec, submittedAt, rfl⟩
  | stop id => exact Or.inr ⟨rfl, hchild id .stop rfl⟩
  | resume id message => exact Or.inr ⟨rfl, hchild id (.resume message) rfl⟩
  | subscribe id => exact Or.inr ⟨rfl, hchild id .subscribe rfl⟩
  | shutdown =>
    refine Or.inr ⟨rfl, fun t ht => ?_⟩
    obtain ⟨child, _, rfl⟩ := List.mem_map.mp ht
    rfl
  | remove id =>
    refine Or.inr ?_
    unfold SupervisorActor.handleCommand
    dsimp only
    split
    · exact ⟨rfl, fun t ht => by contradiction⟩
    · split <;> exact ⟨rfl, fun t ht => by contradiction⟩
  | list | jobStatusChanged _ _ => exact Or.inr ⟨rfl, fun t ht => by contradiction⟩

theorem isLaunch_of_plain {command : JobCommand} (h : plain command = true) :
    isLaunch command = false := by
  cases command <;> first | rfl | contradiction

theorem calms_tell {command : JobCommand} (h : plain command = true) (slot : JobSlot) :
    Calms cancelled cancelled slot (slot.tell command) := by
  have hlaunch := isLaunch_of_plain h
  refine calms_proc rfl (Nat.le_of_eq (launches_tell hlaunch slot)) (fun hhushed q hq n hmem => ?_)
  obtain ⟨p, hp, rfl⟩ := Option.map_eq_some_iff.mp hq
  unfold JobProc.tell at hmem
  split at hmem
  · exact hhushed.mailbox p hp n hmem
  · rcases List.mem_append.mp hmem with hold | hnew
    · exact hhushed.mailbox p hp n hold
    · rw [← List.mem_singleton.mp hnew] at h
      contradiction

theorem tells_plain (cancelled : Bool) {told : List (JobId × JobCommand)}
    (hplain : ∀ t ∈ told, plain t.2 = true) (jobs : JobId → JobSlot) {id : JobId}
    (h : Paced (jobs id)) : Paced (Daemon.tells told jobs id) ∧
      Calms cancelled cancelled (jobs id) (Daemon.tells told jobs id) := by
  refine tells_kept_of (fun slot => Paced slot ∧ Calms cancelled cancelled (jobs id) slot)
    (fun command => plain command = true) (fun slot command hcommand hslot => ?_) told hplain jobs
    id ⟨h, calms_refl⟩
  exact ⟨hslot.1.tell (isLaunch_of_plain hcommand), hslot.2.trans (calms_tell hcommand slot)⟩

theorem Paced.recover (h : Paced slot) {launch : Except String Unit}
    (hrecover : slot.recover launch = some slot') :
    Paced slot' ∧ Calms cancelled cancelled slot slot' := by
  obtain ⟨p, hproc, hphase, rfl⟩ := JobSlot.recover_cases hrecover
  obtain ⟨hbase, hfirst, hone, hblank, _, hwaits⟩ := h
  obtain ⟨hlog, hnone⟩ := hblank (fun q hq => by
    cases Option.some.inj (hproc.symm.trans hq)
    exact hphase)
  have hkickoff : JobActor.onRecoveryComplete launch (JobActor.fold slot.log) = none := by
    rw [hlog]
    rfl
  rw [hkickoff]
  have hlaunches : launches (slot.recovered none p) = launches slot := by
    rw [launches_some hproc, hphase]
    rfl
  refine ⟨⟨hbase, hfirst, by rw [hlaunches]; exact hone, fun hdown => ?_, fun _ _ _ _ => hnone,
    fun hwaiting => ?_⟩, calms_proc rfl (Nat.le_of_eq hlaunches) (fun hhushed q hq n => ?_)⟩
  · have h := hdown _ rfl
    contradiction
  · rw [hlaunches] at hwaiting
    obtain ⟨_, q, rest, hq, hmailbox⟩ := hwaits hwaiting
    cases Option.some.inj (hproc.symm.trans hq)
    exact ⟨hnone, _, rest, rfl, hmailbox⟩
  · cases Option.some.inj hq
    exact hhushed.mailbox p hproc n

theorem Paced.persist (h : Paced slot) {ok : Bool} (hpersist : slot.persist ok = some slot') :
    Paced slot' ∧ Calms cancelled cancelled slot slot' := by
  obtain ⟨p, effect, events, hproc, hphase, _, rfl⟩ := JobSlot.persist_cases hpersist
  obtain ⟨hbase, hfirst, hone, _, hheld, hwaits⟩ := h
  have hlaunches := launches_some hproc
  rw [hphase] at hlaunches
  have hsame : launches { slot with
      log := slot.log ++ events
      proc := some { p with
        state := events.foldl JobActor.applyEvent p.state
        phase := Phase.called effect } } = launches slot := by
    rw [hlaunches, launches_some rfl, Phase.stopping_called]
    rfl
  refine ⟨⟨hbase, hfirst, by rw [hsame]; exact hone, fun hdown => ?_, fun q hq hlive hholds => ?_,
    fun hwaiting => ?_⟩, calms_proc rfl (Nat.le_of_eq hsame) (fun hhushed q hq n => ?_)⟩
  · have h := congrArg Phase.isRecovering (hdown _ rfl)
    rw [Phase.isRecovering_called] at h
    contradiction
  · cases Option.some.inj hq
    rw [Phase.stopping_called] at hlive
    exact hheld p hproc (by rw [hphase]; exact hlive) hholds
  · rw [hsame] at hwaiting
    obtain ⟨hnone, q, rest, hq, hmailbox⟩ := hwaits hwaiting
    cases Option.some.inj (hproc.symm.trans hq)
    exact ⟨hnone, _, rest, rfl, hmailbox⟩
  · cases Option.some.inj hq
    exact hhushed.mailbox p hproc n

theorem Paced.forward (h : Paced slot) (hforward : slot.forward = some slot') :
    Paced slot' ∧ Calms cancelled cancelled slot slot' := by
  obtain ⟨n, rest, hchannel, rfl⟩ := JobSlot.forward_cases hforward
  obtain ⟨hbase, hfirst, hone, hblank, hheld, hwaits⟩ := h
  have hstep : Step (solo .file) slot.system .drain { slot.system with channel := rest } := by
    have h : Step (solo .file) slot.system .drain
      { slot.system with channel := slot.system.channel.tail } := Step.drained
    rwa [hchannel, List.tail_cons] at h
  have hpaced : Paced { slot with system := { slot.system with channel := rest } } :=
    ⟨hbase.step hstep, hfirst.step (by simp) hstep, hone, hblank, hheld, hwaits⟩
  refine ⟨hpaced.tell rfl, ?_, fun _ hhushed => ?_⟩
  · unfold Active
    rw [launches_tell rfl]
    exact fun h => h
  · have hnil := hhushed.channel
    rw [hchannel] at hnil
    contradiction

theorem Paced.worked (h : Paced slot) {cfg : Config} {l : Label} {system : System}
    (hl : internal l = true)
    (hdrains : HandlesOnly (drains cfg cancelled slot.system) slot.system l)
    (hnext : next cfg slot.system l = some system) :
    Paced { slot with system := system } ∧ Calms cancelled (cancelled || takesCancel slot.system l)
      slot { slot with system := system } := by
  have hstep := next_step hnext
  obtain ⟨hbase, hfirst, hone, hblank, hheld, hwaits⟩ := h
  obtain ⟨hspends, hspeaks⟩ := spends_step hbase hfirst hl hdrains hnext
  have htotal := hspends.total
  have hlive : l ≠ .crash := by
    rintro rfl
    contradiction
  have hpresent : slot.system.workflow ≠ none := present_of_step hbase hl hstep
  have hstarted : ¬ 0 < launches slot := fun hwaiting => hpresent (hwaits hwaiting).1
  refine ⟨⟨hbase.step hstep, hfirst.step hlive hstep, ?_, fun hdown => ?_,
    fun p hp hphase hholds => ?_, fun hwaiting => absurd hwaiting hstarted⟩, fun hactive => ?_,
    fun hactive hhushed => ?_⟩
  · change launches slot + (starting system + coming system) ≤ 1
    omega
  · exact absurd (hblank hdown).2 hpresent
  · exact absurd (hheld p hp hphase hholds) hpresent
  · refine hactive.imp (fun h => h) (hspends.busy (fun h => ?_))
    exact (Bool.or_eq_false_iff.mp h).1
  · refine ⟨?_, hhushed.mailbox⟩
    rcases hspeaks (by omega) with hchannel | hcalm
    · exact hchannel.trans hhushed.channel
    · exact absurd (hactive.resolve_left hstarted) hcalm

/-- What a handled command comes to, if the reply adds no more tokens than the command
was, and keeps the workflow unless the job has none. -/
theorem Paced.answered (h : Paced slot) {command : JobCommand} {rest : List JobCommand}
    (reply : JobReply) (hproc : slot.proc = some p) (hphase : p.phase = .waiting)
    (hmailbox : p.mailbox = command :: rest)
    (hhands : Hands (if isLaunch command = true then 1 else 0) slot.system
      ((slot.launch reply.launched).tellWorkflow reply.told).system)
    (hholds : reply.effect.stops = false → reply.holds = false →
      ((slot.launch reply.launched).tellWorkflow reply.told).system.workflow = none) :
    Paced (slot.answered p rest reply) ∧
      Calms cancelled cancelled slot (slot.answered p rest reply) := by
  obtain ⟨_, _, hone, _, _, hwaits⟩ := h
  obtain ⟨hbase, hfirst, hchannel, hstarting, hcoming⟩ := hhands
  have hlaunches := launches_some hproc
  rw [hphase, if_neg (by simp [Phase.stopping]), hmailbox, List.countP_cons] at hlaunches
  have hrest : rest.countP isLaunch = 0 := by
    by_cases hwaiting : 0 < launches slot
    · obtain ⟨_, q, rest', hq, hmailbox'⟩ := hwaits hwaiting
      cases Option.some.inj (hproc.symm.trans hq)
      obtain ⟨rfl, rfl⟩ := List.cons.inj (hmailbox.symm.trans hmailbox')
      rw [show isLaunch .start = true from rfl, if_pos rfl] at hlaunches
      omega
    · omega
  have hdone : launches (slot.answered p rest reply) = 0 := by
    rw [launches_some rfl]
    split
    · rfl
    · exact hrest
  have hsystem : (slot.answered p rest reply).system =
      ((slot.launch reply.launched).tellWorkflow reply.told).system := rfl
  refine ⟨⟨hbase, hfirst, ?_, fun hdown => ?_, fun q hq hlive hfree => ?_, fun hwaiting => ?_⟩,
    fun hactive => ?_, fun _ hhushed => ⟨hchannel.trans hhushed.channel, fun q hq n hmem => ?_⟩⟩
  · rw [hdone, hsystem]
    omega
  · have h := congrArg Phase.isRecovering (hdown _ rfl)
    rw [Phase.isRecovering_handled] at h
    contradiction
  · cases Option.some.inj hq
    rw [Phase.stopping_handled] at hlive
    exact hholds hlive hfree
  · rw [hdone] at hwaiting
    contradiction
  · rcases hactive with hwaiting | hstarts | ⟨hcomes, hlive⟩
    · rw [hdone] at hwaiting
      contradiction
    · rw [hsystem] at hstarts
      by_cases hwaiting : 0 < launches slot
      · exact Or.inl hwaiting
      · exact Or.inr (Or.inl (by omega))
    · rw [hsystem, hcoming] at hcomes
      exact Or.inr (Or.inr ⟨hcomes, hlive⟩)
  · cases Option.some.inj hq
    exact hhushed.mailbox p hproc n (by rw [hmailbox]; exact List.mem_cons_of_mem _ hmem)

/-- An actor that takes a Start has launched no workflow yet. -/
theorem Paced.unlaunched (h : Paced slot) {rest : List JobCommand} (hproc : slot.proc = some p)
    (hphase : p.phase = .waiting) (hmailbox : p.mailbox = .start :: rest) :
    slot.system.workflow = none := by
  refine (h.waits ?_).1
  rw [launches_some hproc, hphase, if_neg (by simp [Phase.stopping]), hmailbox,
    List.countP_cons_of_pos rfl]
  exact Nat.zero_lt_succ _

theorem Paced.hands (h : Paced slot) {launch : Except String Unit} {command : JobCommand}
    {rest : List JobCommand} {reply : JobReply} (hproc : slot.proc = some p)
    (hphase : p.phase = .waiting) (hmailbox : p.mailbox = command :: rest)
    (hreply : reply = JobActor.handleCommand launch p.holds command) :
    Hands (if isLaunch command = true then 1 else 0) slot.system
        ((slot.launch reply.launched).tellWorkflow reply.told).system ∧
      (reply.effect.stops = false → reply.holds = false →
        ((slot.launch reply.launched).tellWorkflow reply.told).system.workflow = none) := by
  have hheld := h.held p hproc (by rw [hphase]; rfl)
  have hsame := hands_same h.base h.first
  subst hreply
  cases command with
  | start =>
    have hnone := h.unlaunched hproc hphase hmailbox
    cases launch with
    | ok _ => exact ⟨hands_launched h.base h.first hnone .start, fun _ hholds => by contradiction⟩
    | error _ => exact ⟨⟨h.base, h.first, rfl, Nat.le_succ _, rfl⟩, fun hstops => by contradiction⟩
  | resume message =>
    cases hholds : p.holds with
    | true => exact ⟨hands_told h.base h.first rfl rfl, fun _ hholds => by contradiction⟩
    | false =>
      cases launch with
      | ok _ =>
        exact ⟨hands_launched h.base h.first (hheld hholds) (.resume message),
          fun _ hholds => by contradiction⟩
      | error _ => exact ⟨hsame, fun hstops => by contradiction⟩
  | stop =>
    cases hholds : p.holds with
    | true => exact ⟨hands_told h.base h.first rfl rfl, fun _ hholds => by contradiction⟩
    | false => exact ⟨hsame, fun _ _ => hheld hholds⟩
  | subscribe => exact ⟨hsame, fun _ => hheld⟩
  | shutdown => exact ⟨hsame, fun hstops => by contradiction⟩
  | workflowEvent notification =>
    cases notification with
    | finished _ | failed _ => exact ⟨hsame, fun hstops => by contradiction⟩
    | suspended | awaitingUserInput _ => exact ⟨hsame, fun _ => hheld⟩

/-- A job that fails to launch and stops has nothing that runs. -/
theorem not_active_failed (hs : Base slot.system) (hnone : slot.system.workflow = none)
    (rest : List JobCommand) (error : String) (holds : Bool) (kickoff : Kickoff)
    (effect : CommandEffect JobDomainEvent) : ¬ Active cancelled (slot.answered p rest
      (JobActor.launchWorkflow (.error error) holds kickoff effect)) := by
  refine not_active ?_
  rw [launches_some rfl]
  have hidle := idle_of_absent hs hnone
  change 0 + (starting slot.system + coming slot.system) = 0
  omega

/-- A job actor reports nothing of a job that runs, unless it is notified. -/
theorem Paced.handle (h : Paced slot) {launch : Except String Unit} {status : Option JobStatus}
    (hhandle : slot.handle launch = some (slot', status)) :
    Paced slot' ∧ Calms cancelled cancelled slot slot' ∧
      (Active cancelled slot' → Hushed slot → status = none) := by
  obtain ⟨p, command, rest, hproc, hphase, hmailbox, rfl, rfl⟩ := JobSlot.handle_cases hhandle
  obtain ⟨hhands, hholds⟩ := h.hands hproc hphase hmailbox rfl
  obtain ⟨hpaced, hcalms⟩ := h.answered _ hproc hphase hmailbox hhands hholds
  refine ⟨hpaced, hcalms, fun hactive hhushed => ?_⟩
  cases command with
  | start =>
    cases launch with
    | ok _ => rfl
    | error error =>
      have hnone := h.unlaunched hproc hphase hmailbox
      exact absurd hactive
        (not_active_failed h.base hnone rest error p.holds .start (.persist [.jobStarted]))
  | resume message =>
    cases hfree : p.holds with
    | true => rfl
    | false =>
      cases launch with
      | ok _ => rfl
      | error error =>
        have hnone := h.held p hproc (by rw [hphase]; rfl) hfree
        rw [hfree] at hactive
        exact absurd hactive
          (not_active_failed h.base hnone rest error false (.resume message) .none)
  | workflowEvent n => exact absurd (by simp [hmailbox]) (hhushed.mailbox p hproc n)
  | stop | subscribe | shutdown => rfl

/-- A submitted job is spawned with its Start. -/
theorem Paced.submitted (h : Paced slot) (hproc : slot.proc = none) (spec : JobSpec) :
    Paced ((slot.spawn spec).tell .start) ∧ Hushed ((slot.spawn spec).tell .start) := by
  obtain ⟨hlog, hnone⟩ := h.blank (fun p hp => by rw [hproc] at hp; contradiction)
  have hidle := idle_of_absent h.base hnone
  have hlaunches : launches ((slot.spawn spec).tell .start) = 1 := rfl
  refine ⟨⟨h.base, h.first, ?_, fun _ => ⟨hlog, hnone⟩, fun _ _ _ _ => hnone,
    fun _ => ⟨hnone, _, [], rfl, rfl⟩⟩, ⟨(h.first.absent hnone).2, fun p hp n hmem => ?_⟩⟩
  · rw [hlaunches]
    change 1 + (starting slot.system + coming slot.system) ≤ 1
    omega
  · cases Option.some.inj hp
    have hmem' : .workflowEvent n ∈ [JobCommand.start] := hmem
    simp at hmem'

end Slots

end October.PacedJobs
