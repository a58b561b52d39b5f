import October.StreamedRuns

/-!
The journal of an agent session against what its runs emitted. As long as the actor
handles no input while a run is in flight, what it persists is, run by run, the input, the
coarse images of all that the run emitted and the end of a cancelled run, in this order and
each once, and the workflow is told of an outcome only after all of the run is persisted.
An input that waits in the mailbox while the recovery starts a run breaks this.
-/
namespace October.CompleteJournals

open AgentActor StreamedRuns
open SessionLifetime (Setup)

def internal (command : AgentCommand) : Bool := !external command

structure JournalComplete (s : Session) : Prop where
  whole : persisted s.log ++ underway s = s.runs.flatMap StreamedRun.account
  inputs : ∀ run ∈ s.runs, run.account.filter isInput =
    if run.synthetic then [] else [.inputMessage run.input.toMessage]
  settled : ¬ InFlight s → underway s = s.phase.events
  told : ∀ before report, before ++ [.told report] <+: s.log →
    ∃ ran run, ran ++ [run] <+: s.runs.take s.finished ∧ run.toEmit = [] ∧
      .tellParent report ∈ (s.actor.handleFinished run.outcome).2.1 ∧
      persisted before = (ran ++ [run]).flatMap StreamedRun.account

/-- No input is told while a run is in flight, and every persist succeeds. -/
def Spaced (s : Session) : StreamLabel → Prop
  | .tell command => starts command = true → ¬ InFlight s
  | .persist ok => ok = true
  | _ => True

def Alone (s : Session) : StreamLabel → Prop
  | .handle _ _ => ∀ command ∈ s.mailbox.head?, starts command = true → ¬ InFlight s
  | .persist ok => ok = true
  | _ => True

instance (s : Session) : (l : StreamLabel) → Decidable (Spaced s l)
  | .tell command => inferInstanceAs (Decidable (starts command = true → ¬ InFlight s))
  | .persist ok => inferInstanceAs (Decidable (ok = true))
  | .recover _ _ => isTrue trivial
  | .handle _ _ => isTrue trivial
  | .emit _ => isTrue trivial
  | .drop _ => isTrue trivial
  | .receive _ => isTrue trivial
  | .forward _ => isTrue trivial
  | .report _ => isTrue trivial

instance (s : Session) : (l : StreamLabel) → Decidable (Alone s l)
  | .tell _ => isTrue trivial
  | .persist ok => inferInstanceAs (Decidable (ok = true))
  | .recover _ _ => isTrue trivial
  | .handle _ _ => inferInstanceAs
      (Decidable (∀ command ∈ s.mailbox.head?, starts command = true → ¬ InFlight s))
  | .emit _ => isTrue trivial
  | .drop _ => isTrue trivial
  | .receive _ => isTrue trivial
  | .forward _ => isTrue trivial
  | .report _ => isTrue trivial

/-- The sink is open while there is anything to emit, the forwarder ends after it, and the
report comes after the forwarder. -/
structure Sound (r : StreamedRun) : Prop where
  closed : r.sinkOpen = false → r.toEmit = []
  ended : r.forwarder = .ended → r.sinkOpen = false ∧ r.channel = []
  reported : r.reported = true → r.forwarder = .ended

/-- What a step of a run's own tasks comes to: it hands on what it accounts for. -/
structure Advanced (r r' : StreamedRun) : Prop where
  handed : ∃ events, r'.account = r.account ++ events ∧ r'.inHand = r.inHand ++ events
  reported : r'.reported = r.reported
  outcome : r'.outcome = r.outcome
  unreported : r.reported = false
  sound : Sound r'

section Tasks

variable {r r' : StreamedRun}

theorem Sound.launched (config : RunConfig) (synthetic : Bool) (input : AgentInput)
    (history : List Message) (attempts : ℕ → Attempt) :
    Sound (.launched config synthetic input history attempts) :=
  ⟨fun h => (by cases h), fun h => (by cases h), fun h => (by cases h)⟩

theorem Sound.reported_done (h : Sound r) (hreported : r.reported = true) :
    r.toEmit = [] ∧ r.inHand = [] := by
  have hforwarder := h.reported hreported
  obtain ⟨hclosed, hchannel⟩ := h.ended hforwarder
  exact ⟨h.closed hclosed, by rw [StreamedRun.inHand, hforwarder, hchannel]⟩

theorem account_unreported (h : r.reported = false) :
    r.account = (if r.synthetic then [] else [.inputMessage r.input.toMessage]) ++
      r.emitted.filterMap coarseEvent := by
  simp only [StreamedRun.account, h, List.append_nil]

theorem account_reported (h : r.reported = false) :
    ({ r with reported := true } : StreamedRun).account =
      r.account ++ carries (.runFinished r.outcome) := by
  rw [account_unreported h]
  unfold StreamedRun.account
  cases r.outcome <;> rfl

theorem emit_advanced (h : Sound r) (hemit : r.emit = some r') : Advanced r r' := by
  unfold StreamedRun.emit at hemit
  split at hemit
  · contradiction
  · next event rest htoEmit =>
    cases hemit
    have hopen : r.sinkOpen = true := by
      by_contra hclosed
      have hnil := h.closed (by simpa using hclosed)
      rw [htoEmit] at hnil
      cases hnil
    have hforwarder : r.forwarder ≠ .ended := by
      intro hended
      have hclosed := (h.ended hended).1
      rw [hopen] at hclosed
      cases hclosed
    have hreported : r.reported = false := by
      by_contra hreported
      exact hforwarder (h.reported (by simpa using hreported))
    refine ⟨⟨(coarseEvent event).toList, ?_, ?_⟩, rfl, rfl, hreported, ?_⟩
    · rw [account_unreported hreported, account_unreported (by exact hreported)]
      simp [List.filterMap_append, List.filterMap_cons]
      cases coarseEvent event <;> rfl
    · unfold StreamedRun.inHand
      cases hstage : r.forwarder with
      | receiving => rfl
      | telling event' => rfl
      | ended => exact absurd hstage hforwarder
    · refine ⟨fun hclosed => ?_, fun hended => absurd hended hforwarder, h.reported⟩
      exact absurd (hopen.symm.trans hclosed) (by decide)

theorem drop_advanced (h : Sound r) (hdrop : r.drop = some r') : Advanced r r' := by
  unfold StreamedRun.drop at hdrop
  split at hdrop
  · next htoEmit hopen =>
    cases hdrop
    have hforwarder : r.forwarder ≠ .ended := by
      intro hended
      have hclosed := (h.ended hended).1
      rw [hopen] at hclosed
      cases hclosed
    refine ⟨⟨[], (List.append_nil _).symm, (List.append_nil _).symm⟩, rfl, rfl, ?_, ?_⟩
    · by_contra hreported
      exact hforwarder (h.reported (by simpa using hreported))
    · exact ⟨fun _ => htoEmit, fun hended => absurd hended hforwarder, h.reported⟩
  · contradiction

theorem receive_advanced (h : Sound r) (hreceive : r.receive = some r') : Advanced r r' := by
  have hunreported : r.forwarder = .receiving → r.reported = false := by
    intro hstage
    by_contra hreported
    have hended := h.reported (by simpa using hreported)
    rw [hstage] at hended
    cases hended
  unfold StreamedRun.receive at hreceive
  split at hreceive
  · next event rest hstage hchannel =>
    cases hreceive
    refine ⟨⟨[], (List.append_nil _).symm, ?_⟩, rfl, rfl, hunreported hstage, ?_⟩
    · simp only [StreamedRun.inHand, hstage, hchannel, List.append_nil]
    · refine ⟨h.closed, fun hended => (by cases hended), fun hreported => ?_⟩
      exact absurd ((hunreported hstage).symm.trans hreported) (by decide)
  · next hstage hchannel =>
    split at hreceive
    · contradiction
    · next hclosed =>
      cases hreceive
      refine ⟨⟨[], (List.append_nil _).symm, ?_⟩, rfl, rfl, hunreported hstage, ?_⟩
      · simp only [StreamedRun.inHand, hstage, List.append_nil]
      · exact ⟨h.closed, fun _ => ⟨by simpa using hclosed, hchannel⟩, fun _ => rfl⟩
  · contradiction

end Tasks

structure Idle (s : Session) : Prop where
  finished : s.finished = s.runs.length
  reported : ∀ r ∈ s.runs, r.reported = true
  mailbox : ∀ command ∈ s.mailbox, external command = true

structure Busy (s : Session) (done : List StreamedRun) (r : StreamedRun) : Prop where
  runs : s.runs = done ++ [r]
  finished : s.finished = done.length
  reported : ∀ d ∈ done, d.reported = true
  running : s.phase.stopping = false
  mailbox : ∃ batches : List (List AgentDomainEvent),
    s.mailbox.filter internal = batches.map .persistProgress ++
      if r.reported then [.runFinished r.outcome] else []

def ToldAfter (actor : AgentActor) (finished : List StreamedRun) (log : List Note) : Prop :=
  ∀ before report, before ++ [.told report] <+: log →
    ∃ ran run, ran ++ [run] <+: finished ∧ run.toEmit = [] ∧
      .tellParent report ∈ (actor.handleFinished run.outcome).2.1 ∧
      persisted before = (ran ++ [run]).flatMap StreamedRun.account

structure Inv (s : Session) : Prop where
  sound : ∀ r ∈ s.runs, Sound r
  alone : Idle s ∨ ∃ done r, Busy s done r
  fresh : s.phase.isRecovering = true → s.runs = []
  whole : persisted s.log ++ underway s = s.runs.flatMap StreamedRun.account
  told : ToldAfter s.actor (s.runs.take s.finished) s.log

section Session

variable {s t : Session} {done : List StreamedRun} {r : StreamedRun}

theorem persisted_append (log log' : List Note) :
    persisted (log ++ log') = persisted log ++ persisted log' :=
  List.filterMap_append

theorem persisted_events (events : List AgentDomainEvent) :
    persisted (events.map .persisted) = events := by
  unfold persisted
  rw [List.filterMap_map]
  exact List.filterMap_some

theorem ToldAfter.snoc {actor : AgentActor} {finished : List StreamedRun} {log : List Note}
    {event : AgentDomainEvent} (h : ToldAfter actor finished log) :
    ToldAfter actor finished (log ++ [.persisted event]) := by
  intro before report hprefix
  rcases List.prefix_concat_iff.mp hprefix with heq | hprefix
  · have hlast := (List.append_inj' heq rfl).2
    cases hlast
  · exact h before report hprefix

/-- Persisting tells nobody. -/
theorem ToldAfter.persist {actor : AgentActor} {finished : List StreamedRun} {log : List Note}
    (events : List AgentDomainEvent) (h : ToldAfter actor finished log) :
    ToldAfter actor finished (log ++ events.map .persisted) := by
  induction events generalizing log with
  | nil => simpa using h
  | cons event rest ih =>
    rw [List.map_cons, List.append_cons]
    exact ih h.snoc

/-- The workflow is told of the outcome of the last of the finished runs. -/
theorem ToldAfter.tell {actor : AgentActor} {finished : List StreamedRun} {log : List Note}
    {report : WorkflowCommand} (h : ToldAfter actor finished log) (hdone : r.toEmit = [])
    (hreport : .tellParent report ∈ (actor.handleFinished r.outcome).2.1)
    (hpersisted : persisted log = (finished ++ [r]).flatMap StreamedRun.account) :
    ToldAfter actor (finished ++ [r]) (log ++ [.told report]) := by
  intro before report' hprefix
  rcases List.prefix_concat_iff.mp hprefix with heq | hprefix
  · obtain ⟨rfl, hlast⟩ := List.append_inj' heq rfl
    cases hlast
    exact ⟨finished, r, List.prefix_rfl, hdone, hreport, hpersisted⟩
  · obtain ⟨ran, run, hran, htold⟩ := h before report' hprefix
    exact ⟨ran, run, hran.trans (List.prefix_append _ _), htold⟩

theorem ToldAfter.more {actor : AgentActor} {finished : List StreamedRun} {log : List Note}
    (h : ToldAfter actor finished log) :
    ToldAfter actor (finished ++ [r]) log := by
  intro before report hprefix
  obtain ⟨ran, run, hran, htold⟩ := h before report hprefix
  exact ⟨ran, run, hran.trans (List.prefix_append _ _), htold⟩

/-- Runs that reported have nothing left to hand on. -/
theorem inHand_reported (hsound : ∀ d ∈ done, Sound d) (h : ∀ d ∈ done, d.reported = true) :
    done.flatMap StreamedRun.inHand = [] := by
  rw [List.flatMap_eq_nil_iff]
  exact fun d hmem => ((hsound d hmem).reported_done (h d hmem)).2

/-- Commands of others carry no events. -/
theorem carries_external {mailbox : List AgentCommand}
    (h : ∀ command ∈ mailbox, external command = true) : mailbox.flatMap carries = [] := by
  rw [List.flatMap_eq_nil_iff]
  intro command hmem
  have hexternal := h command hmem
  cases command <;> first | rfl | contradiction

theorem Busy.inFlight (h : Busy s done r) : InFlight s := by
  rw [InFlight, h.finished, h.runs, List.length_append]
  exact Nat.lt_succ_self _

/-- What is underway is what the actor has yet to persist once no run is in flight. -/
theorem Idle.underway (h : Idle s) (hsound : ∀ r ∈ s.runs, Sound r) :
    underway s = s.phase.events := by
  rw [StreamedRuns.underway, carries_external h.mailbox, inHand_reported hsound h.reported,
    List.append_nil, List.append_nil]

theorem Busy.underway (h : Busy s done r) (hsound : ∀ r ∈ s.runs, Sound r) :
    underway s = s.phase.events ++ s.mailbox.flatMap carries ++ r.inHand := by
  have hdone : ∀ d ∈ done, Sound d := by
    intro d hmem
    exact hsound d (by rw [h.runs]; exact List.mem_append_left _ hmem)
  rw [StreamedRuns.underway, h.runs, List.flatMap_append, inHand_reported hdone h.reported,
    List.nil_append, List.flatMap_singleton]

theorem Inv.journalComplete (h : Inv s) : JournalComplete s := by
  refine ⟨h.whole, fun run _ => run.account_inputs, fun hflight => ?_, h.told⟩
  rcases h.alone with hidle | ⟨done, r, hbusy⟩
  · exact hidle.underway h.sound
  · exact absurd hbusy.inFlight hflight

/-- With a run in flight everything is accounted for, up to that run. -/
theorem Inv.of_busy (done : List StreamedRun) (r : StreamedRun) (hbusy : Busy s done r)
    (hdone : ∀ d ∈ done, Sound d) (hr : Sound r) (hphase : s.phase.isRecovering = false)
    (hwhole : persisted s.log ++ (s.phase.events ++ s.mailbox.flatMap carries ++ r.inHand) =
      done.flatMap StreamedRun.account ++ r.account)
    (htold : ToldAfter s.actor done s.log) : Inv s := by
  have hsound : ∀ d ∈ s.runs, Sound d := by
    intro d hmem
    rw [hbusy.runs] at hmem
    rcases List.mem_append.mp hmem with hmem | hmem
    · exact hdone d hmem
    · cases List.mem_singleton.mp hmem
      exact hr
  refine ⟨hsound, .inr ⟨done, r, hbusy⟩, fun h => ?_, ?_, ?_⟩
  · exact absurd (hphase.symm.trans h) (by decide)
  · rw [hbusy.underway hsound, hwhole, hbusy.runs, List.flatMap_append, List.flatMap_singleton]
  · rw [hbusy.runs, hbusy.finished, List.take_left]
    exact htold

theorem Inv.of_idle (hidle : Idle s) (hsound : ∀ r ∈ s.runs, Sound r)
    (hfresh : s.phase.isRecovering = true → s.runs = [])
    (hwhole : persisted s.log ++ s.phase.events = s.runs.flatMap StreamedRun.account)
    (htold : ToldAfter s.actor s.runs s.log) : Inv s := by
  refine ⟨hsound, .inl hidle, hfresh, ?_, ?_⟩
  · rw [hidle.underway hsound, hwhole]
  · rw [hidle.finished, List.take_length]
    exact htold

theorem Inv.idle (h : Inv s) (hidle : Idle s) :
    persisted s.log ++ s.phase.events = s.runs.flatMap StreamedRun.account ∧
      ToldAfter s.actor s.runs s.log := by
  have hwhole := h.whole
  have htold := h.told
  rw [hidle.underway h.sound] at hwhole
  rw [hidle.finished, List.take_length] at htold
  exact ⟨hwhole, htold⟩

theorem Inv.busy (h : Inv s) (hbusy : Busy s done r) :
    (∀ d ∈ done, Sound d) ∧ Sound r ∧ s.phase.isRecovering = false ∧
      persisted s.log ++ (s.phase.events ++ s.mailbox.flatMap carries ++ r.inHand) =
        done.flatMap StreamedRun.account ++ r.account ∧
      ToldAfter s.actor done s.log := by
  have hwhole := h.whole
  have htold := h.told
  rw [hbusy.underway h.sound, hbusy.runs, List.flatMap_append, List.flatMap_singleton] at hwhole
  rw [hbusy.runs, hbusy.finished, List.take_left] at htold
  refine ⟨fun d hmem => h.sound d ?_, h.sound r ?_, ?_, hwhole, htold⟩
  · rw [hbusy.runs]
    exact List.mem_append_left _ hmem
  · rw [hbusy.runs]
    exact List.mem_append_right _ (List.mem_singleton_self r)
  · by_contra hphase
    have hnil := h.fresh (by simpa using hphase)
    rw [hbusy.runs] at hnil
    exact List.append_ne_nil_of_right_ne_nil _ (List.cons_ne_nil _ _) hnil

/-- A run that did not report is the one in flight. -/
theorem Inv.live (h : Inv s) {i : ℕ} (hget : s.runs[i]? = some r) (hreported : r.reported = false) :
    ∃ done, Busy s done r ∧ i = done.length := by
  rcases h.alone with hidle | ⟨done, live, hbusy⟩
  · have htrue := hidle.reported r (List.mem_of_getElem? hget)
    exact absurd (hreported.symm.trans htrue) (by decide)
  · rw [hbusy.runs] at hget
    rcases Nat.lt_or_ge i done.length with hlt | hge
    · rw [List.getElem?_append_left hlt] at hget
      have htrue := hbusy.reported r (List.mem_of_getElem? hget)
      exact absurd (hreported.symm.trans htrue) (by decide)
    · rw [List.getElem?_append_right hge] at hget
      obtain ⟨hzero, rfl⟩ := List.getElem?_eq_some_iff.mp hget
      have hi : i = done.length := by
        simp only [List.length_singleton] at hzero
        omega
      subst hi
      refine ⟨done, ?_, rfl⟩
      simpa using hbusy

theorem Busy.not_stopped (h : Busy s done r) : s.phase.isStopped = false := by
  have hrunning := h.running
  cases hphase : s.phase with
  | stopped =>
    rw [hphase] at hrunning
    cases hrunning
  | recovering => rfl
  | waiting => rfl
  | performing effect => rfl

theorem Busy.set (h : Busy s done r) (r' : StreamedRun) :
    s.runs.set done.length r' = done ++ [r'] := by
  rw [h.runs, List.set_append_right _ _ (Nat.le_refl _), Nat.sub_self, List.set_cons_zero]

/-- A step of a run's own tasks. -/
theorem Inv.stepRun (h : Inv s) {i : ℕ} {step : StreamedRun → Option StreamedRun}
    (hadvanced : ∀ r r', Sound r → step r = some r' → Advanced r r')
    (hstep : s.stepRun i step = some t) : Inv t := by
  obtain ⟨r', hbind, rfl⟩ := Option.map_eq_some_iff.mp hstep
  obtain ⟨r, hget, hr'⟩ := Option.bind_eq_some_iff.mp hbind
  have hadv := hadvanced r r' (h.sound r (List.mem_of_getElem? hget)) hr'
  obtain ⟨done, hbusy, rfl⟩ := h.live hget hadv.unreported
  obtain ⟨hdone, -, hphase, hwhole, htold⟩ := h.busy hbusy
  obtain ⟨events, haccount, hinHand⟩ := hadv.handed
  obtain ⟨batches, hmailbox⟩ := hbusy.mailbox
  refine Inv.of_busy done r' ⟨hbusy.set r', hbusy.finished, hbusy.reported, hbusy.running, batches,
    ?_⟩ hdone hadv.sound hphase ?_ htold
  · rw [hadv.reported, hadv.outcome]
    exact hmailbox
  · rw [haccount, hinHand, ← List.append_assoc (done.flatMap StreamedRun.account), ← hwhole]
    simp only [List.append_assoc]

/-- A tell of a running actor lands in its mailbox. -/
theorem tells_running {command : AgentCommand} (hrunning : s.phase.isStopped = false)
    (h : s.tells command = some t) : t = s.push command := by
  unfold Session.tells at h
  rw [hrunning] at h
  simp only [Bool.false_eq_true, if_false] at h
  split at h
  · exact (Option.some.inj h).symm
  · contradiction

theorem filter_push_internal {command : AgentCommand} (h : external command = false) :
    (s.push command).mailbox.filter internal = s.mailbox.filter internal ++ [command] := by
  simp [Session.push, List.filter_append, internal, h]

theorem filter_push_external {command : AgentCommand} (h : external command = true) :
    (s.push command).mailbox.filter internal = s.mailbox.filter internal := by
  simp [Session.push, List.filter_append, internal, h]

theorem push_carries (command : AgentCommand) :
    (s.push command).mailbox.flatMap carries = s.mailbox.flatMap carries ++ carries command := by
  rw [Session.push, List.flatMap_append, List.flatMap_singleton]

theorem Inv.forward (h : Inv s) {i : ℕ} (hstep : s.forward i = some t) : Inv t := by
  unfold Session.forward at hstep
  cases hget : s.runs[i]? with
  | none =>
    rw [hget] at hstep
    cases hstep
  | some r =>
    rw [hget] at hstep
    dsimp only at hstep
    have hsound := h.sound r (List.mem_of_getElem? hget)
    split at hstep
    · next event hforwarder =>
      obtain ⟨u, htells, rfl⟩ := Option.map_eq_some_iff.mp hstep
      have hreported : r.reported = false := by
        by_contra hreported
        have hended := hsound.reported (by simpa using hreported)
        rw [hforwarder] at hended
        cases hended
      obtain ⟨done, hbusy, rfl⟩ := h.live hget hreported
      obtain ⟨hdone, -, hphase, hwhole, htold⟩ := h.busy hbusy
      obtain ⟨batches, hmailbox⟩ := hbusy.mailbox
      obtain rfl := tells_running hbusy.not_stopped htells
      rw [hbusy.not_stopped, if_neg (by decide)]
      refine Inv.of_busy done { r with forwarder := .receiving }
        ⟨hbusy.set _, hbusy.finished, hbusy.reported, hbusy.running, batches ++ [[event]], ?_⟩
        hdone ?_ hphase ?_ htold
      · rw [show (s.push (.persistProgress [event])).mailbox.filter internal =
          s.mailbox.filter internal ++ [.persistProgress [event]] from filter_push_internal rfl,
          hmailbox]
        simp [hreported]
      · refine ⟨hsound.closed, fun hended => (by cases hended), fun htrue => ?_⟩
        exact absurd (hreported.symm.trans htrue) (by decide)
      · have hin : r.inHand = event :: r.channel := by
          rw [StreamedRun.inHand, hforwarder]
        rw [hin] at hwhole
        rw [show (s.push (.persistProgress [event])).mailbox.flatMap carries =
          s.mailbox.flatMap carries ++ [event] from push_carries _]
        rw [show ({ r with forwarder := .receiving } : StreamedRun).account = r.account from rfl,
          ← hwhole]
        simp [StreamedRun.inHand, Session.push]
    · contradiction

theorem Inv.report (h : Inv s) {i : ℕ} (hstep : s.report i = some t) : Inv t := by
  unfold Session.report at hstep
  cases hget : s.runs[i]? with
  | none =>
    rw [hget] at hstep
    cases hstep
  | some r =>
    rw [hget] at hstep
    dsimp only at hstep
    have hsound := h.sound r (List.mem_of_getElem? hget)
    split at hstep
    · next hclosed hforwarder hreported =>
      obtain ⟨u, htells, rfl⟩ := Option.map_eq_some_iff.mp hstep
      obtain ⟨done, hbusy, rfl⟩ := h.live hget hreported
      obtain ⟨hdone, -, hphase, hwhole, htold⟩ := h.busy hbusy
      obtain ⟨batches, hmailbox⟩ := hbusy.mailbox
      obtain rfl := tells_running hbusy.not_stopped htells
      have hin : r.inHand = [] := by
        rw [StreamedRun.inHand, hforwarder, (hsound.ended hforwarder).2]
      refine Inv.of_busy done { r with reported := true }
        ⟨hbusy.set _, hbusy.finished, hbusy.reported, hbusy.running, batches, ?_⟩
        hdone ⟨hsound.closed, hsound.ended, fun _ => hforwarder⟩ hphase ?_ htold
      · rw [show (s.push (.runFinished r.outcome)).mailbox.filter internal =
          s.mailbox.filter internal ++ [.runFinished r.outcome] from filter_push_internal rfl,
          hmailbox]
        simp [hreported]
      · rw [account_reported hreported, ← List.append_assoc (done.flatMap StreamedRun.account),
          ← hwhole, hin]
        rw [show (s.push (.runFinished r.outcome)).mailbox.flatMap carries =
          s.mailbox.flatMap carries ++ carries (.runFinished r.outcome) from push_carries _]
        rw [show ({ r with reported := true } : StreamedRun).inHand = [] from hin]
        simp only [Session.push, List.append_nil, List.append_assoc]
    · contradiction

/-- What others tell the actor carries nothing. -/
theorem Inv.tell (h : Inv s) {command : AgentCommand} (hexternal : external command = true)
    (hstep : s.tells command = some t) : Inv t := by
  cases hstopped : s.phase.isStopped with
  | true =>
    unfold Session.tells at hstep
    rw [if_pos hstopped] at hstep
    cases hstep
    exact h
  | false =>
    obtain rfl := tells_running hstopped hstep
    have hcarries : carries command = [] := by
      cases command <;> first | rfl | contradiction
    rcases h.alone with hidle | ⟨done, r, hbusy⟩
    · obtain ⟨hwhole, htold⟩ := h.idle hidle
      refine Inv.of_idle ⟨hidle.finished, hidle.reported, fun c hmem => ?_⟩ h.sound h.fresh hwhole
        htold
      rcases List.mem_append.mp hmem with hmem | hmem
      · exact hidle.mailbox c hmem
      · cases List.mem_singleton.mp hmem
        exact hexternal
    · obtain ⟨hdone, hr, hphase, hwhole, htold⟩ := h.busy hbusy
      obtain ⟨batches, hmailbox⟩ := hbusy.mailbox
      refine Inv.of_busy done r ⟨hbusy.runs, hbusy.finished, hbusy.reported, hbusy.running, batches,
        (filter_push_external hexternal).trans hmailbox⟩ hdone hr hphase ?_ htold
      rw [push_carries, hcarries, List.append_nil]
      exact hwhole

/-- A journal call moves the effect's events into the journal. -/
theorem Inv.persist (h : Inv s) (hstep : s.persist true = some t) : Inv t := by
  unfold Session.persist at hstep
  split at hstep
  · next effect hphase =>
    cases hstep
    have hcalled : (Phase.called effect).isRecovering = false := Phase.isRecovering_called effect
    rcases h.alone with hidle | ⟨done, r, hbusy⟩
    · obtain ⟨hwhole, htold⟩ := h.idle hidle
      refine Inv.of_idle ⟨hidle.finished, hidle.reported, hidle.mailbox⟩ h.sound
        (fun hrecovering => absurd (hcalled.symm.trans hrecovering) (by decide)) ?_
        (htold.persist effect.events)
      rw [persisted_append, if_pos rfl, persisted_events, Phase.events_called, List.append_nil,
        ← hwhole, hphase, Phase.events_performing]
    · obtain ⟨hdone, hr, -, hwhole, htold⟩ := h.busy hbusy
      refine Inv.of_busy done r ⟨hbusy.runs, hbusy.finished, hbusy.reported, ?_, hbusy.mailbox⟩
        hdone hr hcalled ?_ (htold.persist effect.events)
      · exact (Phase.stopping_called effect).trans (hphase ▸ hbusy.running :)
      · rw [persisted_append, if_pos rfl, persisted_events, Phase.events_called, ← hwhole, hphase,
          Phase.events_performing]
        simp only [List.nil_append, List.append_assoc]
  · contradiction

/-- A recovery starts a run just if the session is not empty. -/
theorem recover_cases {messageId : String} {attempts : ℕ → Attempt}
    (h : s.recover messageId attempts = some t) :
    s.phase = .recovering ∧
      (t = { s with state := s.recovered, phase := .waiting } ∨
        ∃ input history, t =
          { s with
            actor := { s.actor with running := some s.runs.length }
            state := s.recovered
            phase := .waiting
            runs := s.runs ++ [.launched s.setup.config true input history attempts] }) := by
  unfold Session.recover at h
  split at h
  · next hphase =>
    cases h
    refine ⟨hphase, ?_⟩
    unfold onRecoveryComplete
    cases s.recovered.messages with
    | nil => exact .inl rfl
    | cons first rest => exact .inr ⟨_, _, rfl⟩
  · contradiction

inductive Taken (s : Session) (messageId : String) (attempts : ℕ → Attempt)
    (rest : List AgentCommand) : AgentCommand → Session → Prop
  | started (command : AgentCommand) (input : AgentInput) :
      startsRun messageId command = some input →
      Taken s messageId attempts rest command
        { s with
          actor := { s.actor with running := some s.runs.length }
          mailbox := rest
          phase := .performing (.persist [.inputMessage input.toMessage])
          runs := s.runs ++
            [.launched s.setup.config false input s.state.messages attempts] }
  | progressed (events : List AgentDomainEvent) :
      Taken s messageId attempts rest (.persistProgress events)
        { s with mailbox := rest, phase := .performing (.persist events) }
  | cancelled :
      Taken s messageId attempts rest .cancel { s with mailbox := rest, phase := .waiting }
  | ended :
      Taken s messageId attempts rest (.runFinished .cancelled)
        { s with
          actor := { s.actor with running := none }
          mailbox := rest
          phase := .performing (.persistAndSnapshot [.runCancelled])
          finished := s.finished + 1 }
  | told (outcome : RunOutcome) (report : WorkflowCommand) (phase : Phase AgentDomainEvent) :
      carries (.runFinished outcome) = [] →
      .tellParent report ∈ (s.actor.handleFinished outcome).2.1 →
      phase.isRecovering = false → phase.events = [] →
      Taken s messageId attempts rest (.runFinished outcome)
        { s with
          actor := { s.actor with running := none }
          mailbox := rest
          phase := phase
          finished := s.finished + 1
          log := s.log ++ [.told report] }

/-- A report to the workflow is no end of a cancelled run. -/
theorem carries_told {outcome : RunOutcome} {report : WorkflowCommand}
    (h : .tellParent report ∈ (s.actor.handleFinished outcome).2.1) :
    carries (.runFinished outcome) = [] := by
  cases outcome with
  | cancelled => cases h
  | completed text => rfl
  | concluded data toolCallId => rfl
  | failed error recoverable => rfl

theorem handle_cases {messageId : String} {attempts : ℕ → Attempt}
    (h : s.handle messageId attempts = some t) :
    ∃ command rest, s.phase = .waiting ∧ s.mailbox = command :: rest ∧
      Taken s messageId attempts rest command t := by
  unfold Session.handle at h
  split at h
  · next command rest hphase hmailbox =>
    cases h
    refine ⟨command, rest, hphase, hmailbox, ?_⟩
    have hhandled := handleCommand_handled s.actor s.state s.runs.length messageId command
    generalize hreply : s.actor.handleCommand s.state s.runs.length messageId command = reply
      at hhandled
    cases hhandled with
    | started _ input hstarts =>
      have hreports : reports command = false := by
        cases command <;> first | rfl | contradiction
      rw [hreports]
      exact .started command input hstarts
    | progressed events => exact .progressed events
    | cancelled =>
      cases s.actor.running <;> exact .cancelled
    | ended => exact .ended
    | reported outcome report hreports hfinal =>
      have hmem : .tellParent report ∈ (s.actor.handleFinished outcome).2.1 := by
        rw [show s.actor.handleFinished outcome = _ from hreply]
        exact List.mem_singleton_self _
      exact .told outcome report .stopped (carries_told hmem) hmem rfl rfl
    | asked outcome toolCallId question =>
      have hmem : .tellParent (.agentAsked s.actor.sessionId toolCallId question) ∈
          (s.actor.handleFinished outcome).2.1 := by
        rw [show s.actor.handleFinished outcome = _ from hreply]
        exact List.mem_singleton_self _
      exact .told outcome _ (.performing .snapshot) (carries_told hmem) hmem rfl rfl
  · contradiction

/-- What a finished run is reported as does not depend on the run the actor holds. -/
theorem ToldAfter.running {actor : AgentActor} {finished : List StreamedRun} {log : List Note}
    (h : ToldAfter actor finished log) (running : Option ℕ) :
    ToldAfter { actor with running := running } finished log := by
  intro before report hprefix
  obtain ⟨ran, run, hran, hdone, hreport, hpersisted⟩ := h before report hprefix
  refine ⟨ran, run, hran, hdone, ?_, hpersisted⟩
  rw [show AgentActor.handleFinished { actor with running := running } run.outcome =
    actor.handleFinished run.outcome by cases run.outcome <;> rfl]
  exact hreport

/-- A run that starts while none is in flight. -/
theorem Inv.launch (h : Inv s) (hidle : Idle s) (run : StreamedRun)
    (hrun : Sound run) (hreported : run.reported = false) (hruns : t.runs = s.runs ++ [run])
    (hfinished : t.finished = s.finished) (hlog : t.log = s.log)
    (hactor : ∃ running, t.actor = { s.actor with running := running })
    (hmailbox : ∀ command ∈ t.mailbox, external command = true)
    (hstopping : t.phase.stopping = false) (hphase : t.phase.isRecovering = false)
    (hnone : s.phase.events = []) (hopening : t.phase.events ++ run.inHand = run.account) :
    Inv t := by
  obtain ⟨hwhole, htold⟩ := h.idle hidle
  obtain ⟨running, hactor⟩ := hactor
  refine Inv.of_busy s.runs run ⟨hruns, hfinished.trans hidle.finished, hidle.reported, hstopping,
    [], ?_⟩ h.sound hrun hphase ?_ ?_
  · rw [hreported, List.filter_eq_nil_iff.mpr]
    · rfl
    · intro command hmem
      simp [internal, hmailbox command hmem]
  · rw [hnone, List.append_nil] at hwhole
    rw [carries_external hmailbox, List.append_nil, hopening, hlog, hwhole]
  · rw [hactor, hlog]
    exact htold.running running

theorem Inv.recover (h : Inv s) {messageId : String} {attempts : ℕ → Attempt}
    (hstep : s.recover messageId attempts = some t) : Inv t := by
  obtain ⟨hphase, ht⟩ := recover_cases hstep
  have hruns : s.runs = [] := h.fresh (by rw [hphase]; rfl)
  have hidle : Idle s := by
    rcases h.alone with hidle | ⟨done, r, hbusy⟩
    · exact hidle
    · rw [hbusy.runs] at hruns
      exact absurd hruns (List.append_ne_nil_of_right_ne_nil _ (List.cons_ne_nil _ _))
  have hnone : s.phase.events = [] := by
    rw [hphase]
    rfl
  rcases ht with rfl | ⟨input, history, rfl⟩
  · obtain ⟨hwhole, htold⟩ := h.idle hidle
    refine Inv.of_idle ⟨hidle.finished, hidle.reported, hidle.mailbox⟩ h.sound (fun _ => hruns) ?_
      htold
    rw [hnone] at hwhole
    exact hwhole
  · exact h.launch hidle _ (Sound.launched _ _ _ _ _) rfl rfl rfl rfl ⟨_, rfl⟩ hidle.mailbox rfl
      rfl hnone rfl

/-- The commands that start a run. -/
theorem starts_of_startsRun {messageId : String} {command : AgentCommand} {input : AgentInput}
    (h : startsRun messageId command = some input) : starts command = true := by
  cases command <;> first | rfl | contradiction

/-- The task of the run in flight told the first command. -/
theorem Inv.told_internal (h : Inv s) {command : AgentCommand} {rest : List AgentCommand}
    (hmailbox : s.mailbox = command :: rest) (hinternal : external command = false) :
    ∃ done r, ∃ batches : List (List AgentDomainEvent), Busy s done r ∧
      command :: rest.filter internal = batches.map .persistProgress ++
        if r.reported then [.runFinished r.outcome] else [] := by
  rcases h.alone with hidle | ⟨done, r, hbusy⟩
  · have hexternal := hidle.mailbox command (by rw [hmailbox]; exact List.mem_cons_self ..)
    exact absurd (hinternal.symm.trans hexternal) (by decide)
  · obtain ⟨batches, hfilter⟩ := hbusy.mailbox
    rw [hmailbox, List.filter_cons_of_pos (by simp [internal, hinternal])] at hfilter
    exact ⟨done, r, batches, hbusy, hfilter⟩

/-- The report of a run comes after all it told: what it carries is all that is left. -/
theorem Inv.told_report (h : Inv s) {outcome : RunOutcome} {rest : List AgentCommand}
    (hmailbox : s.mailbox = .runFinished outcome :: rest) (hnone : s.phase.events = []) :
    ∃ done r, s.runs = done ++ [r] ∧ s.finished = done.length ∧ r.toEmit = [] ∧
      r.outcome = outcome ∧ (∀ d ∈ s.runs, d.reported = true) ∧
      (∀ command ∈ rest, external command = true) ∧ ToldAfter s.actor done s.log ∧
      persisted s.log ++ carries (.runFinished outcome) =
        s.runs.flatMap StreamedRun.account := by
  obtain ⟨done, r, batches, hbusy, hfilter⟩ := h.told_internal hmailbox rfl
  obtain ⟨-, hr, -, hwhole, htold⟩ := h.busy hbusy
  cases batches with
  | cons events batches =>
    have hhead := (List.cons.inj hfilter).1
    cases hhead
  | nil =>
    cases hreported : r.reported with
    | false =>
      rw [hreported] at hfilter
      cases hfilter
    | true =>
      rw [hreported, if_pos rfl, List.map_nil, List.nil_append] at hfilter
      obtain ⟨houtcome, hrest⟩ := List.cons.inj hfilter
      have hexternal : ∀ command ∈ rest, external command = true := by
        intro command hmem
        have hnot := List.filter_eq_nil_iff.mp hrest command hmem
        simpa [internal] using hnot
      obtain ⟨htoEmit, hinHand⟩ := hr.reported_done hreported
      refine ⟨done, r, hbusy.runs, hbusy.finished, htoEmit,
        (AgentCommand.runFinished.inj houtcome).symm, fun d hmem => ?_, hexternal, htold, ?_⟩
      · rw [hbusy.runs] at hmem
        rcases List.mem_append.mp hmem with hmem | hmem
        · exact hbusy.reported d hmem
        · cases List.mem_singleton.mp hmem
          exact hreported
      · rw [hmailbox, List.flatMap_cons, carries_external hexternal, hnone, hinHand,
          List.nil_append, List.append_nil, List.append_nil] at hwhole
        rw [hwhole, hbusy.runs, List.flatMap_append, List.flatMap_singleton]

theorem Inv.handle (h : Inv s) {messageId : String} {attempts : ℕ → Attempt}
    (halone : ∀ command ∈ s.mailbox.head?, starts command = true → ¬ InFlight s)
    (hstep : s.handle messageId attempts = some t) : Inv t := by
  obtain ⟨command, rest, hphase, hmailbox, htaken⟩ := handle_cases hstep
  have hnone : s.phase.events = [] := by
    rw [hphase]
    rfl
  cases htaken with
  | started _ input hstarts =>
    have hidle : Idle s := by
      rcases h.alone with hidle | ⟨done, r, hbusy⟩
      · exact hidle
      · exact absurd hbusy.inFlight
          (halone command (by rw [hmailbox]; rfl) (starts_of_startsRun hstarts))
    refine h.launch hidle _ (Sound.launched _ _ _ _ _) rfl rfl rfl rfl ⟨_, rfl⟩ ?_ rfl rfl hnone rfl
    intro c hmem
    exact hidle.mailbox c (by rw [hmailbox]; exact List.mem_cons_of_mem _ hmem)
  | progressed events =>
    obtain ⟨done, r, batches, hbusy, hfilter⟩ := h.told_internal hmailbox rfl
    obtain ⟨hdone, hr, -, hwhole, htold⟩ := h.busy hbusy
    cases batches with
    | nil =>
      have hreport : ∀ b : Bool, AgentCommand.persistProgress events :: rest.filter internal ≠
          if b then [.runFinished r.outcome] else [] := by
        intro b heq
        cases b <;> cases heq
      exact absurd hfilter (hreport r.reported)
    | cons first batches =>
      obtain ⟨-, hrest⟩ := List.cons.inj hfilter
      refine Inv.of_busy done r ⟨hbusy.runs, hbusy.finished, hbusy.reported, rfl, batches, hrest⟩
        hdone hr rfl ?_ htold
      rw [hmailbox, List.flatMap_cons, hnone, List.nil_append] at hwhole
      exact hwhole
  | cancelled =>
    rcases h.alone with hidle | ⟨done, r, hbusy⟩
    · obtain ⟨hwhole, htold⟩ := h.idle hidle
      rw [hnone] at hwhole
      refine Inv.of_idle ⟨hidle.finished, hidle.reported, fun c hmem => ?_⟩ h.sound
        (fun hrecovering => by cases hrecovering) hwhole htold
      exact hidle.mailbox c (by rw [hmailbox]; exact List.mem_cons_of_mem _ hmem)
    · obtain ⟨hdone, hr, -, hwhole, htold⟩ := h.busy hbusy
      obtain ⟨batches, hfilter⟩ := hbusy.mailbox
      rw [hmailbox] at hfilter hwhole
      rw [hnone] at hwhole
      exact Inv.of_busy done r ⟨hbusy.runs, hbusy.finished, hbusy.reported, rfl, batches, hfilter⟩
        hdone hr rfl hwhole htold
  | ended =>
    obtain ⟨done, r, hruns, hfinished, -, -, hreported, hrest, htold, hwhole⟩ :=
      h.told_report hmailbox hnone
    refine Inv.of_idle ⟨?_, hreported, hrest⟩ h.sound (fun hrecovering => by cases hrecovering)
      hwhole ?_
    · show s.finished + 1 = s.runs.length
      rw [hfinished, hruns, List.length_append, List.length_singleton]
    · show ToldAfter _ s.runs s.log
      rw [hruns]
      exact (htold.running none).more
  | told outcome report phase hcarries hreport hrecovering hevents =>
    obtain ⟨done, r, hruns, hfinished, htoEmit, houtcome, hreported, hrest, htold, hwhole⟩ :=
      h.told_report hmailbox hnone
    rw [hcarries, List.append_nil] at hwhole
    refine Inv.of_idle ⟨?_, hreported, hrest⟩ h.sound
      (fun h => absurd (hrecovering.symm.trans h) (by decide)) ?_ ?_
    · show s.finished + 1 = s.runs.length
      rw [hfinished, hruns, List.length_append, List.length_singleton]
    · show persisted (s.log ++ [.told report]) ++ phase.events = _
      rw [persisted_append, hevents, List.append_nil]
      exact (List.append_nil _).trans hwhole
    · show ToldAfter _ s.runs (s.log ++ [.told report])
      rw [hruns] at hwhole ⊢
      rw [← houtcome] at hreport
      exact (htold.tell htoEmit hreport hwhole).running none

/-- Every step keeps the account of the journal. -/
theorem Inv.step (h : Inv s) {l : StreamLabel} (halone : Alone s l)
    (hstep : StreamedRuns.next s l = some t) : Inv t := by
  cases l with
  | tell command =>
    simp only [StreamedRuns.next] at hstep
    split at hstep
    next hexternal => exact h.tell hexternal hstep
    next => contradiction
  | recover messageId attempts => exact h.recover hstep
  | handle messageId attempts => exact h.handle halone hstep
  | persist ok =>
    cases (halone : ok = true)
    exact h.persist hstep
  | emit run => exact h.stepRun (fun _ _ => emit_advanced) hstep
  | drop run => exact h.stepRun (fun _ _ => drop_advanced) hstep
  | receive run => exact h.stepRun (fun _ _ => receive_advanced) hstep
  | forward run => exact h.forward hstep
  | report run => exact h.report hstep

end Session

/-- An actor that handles no input while a run is in flight journals, run by run, the input,
what the run emitted and its cancellation, and tells its workflow of it afterwards. -/
theorem journal_complete (setup : Setup) (recovered : AgentState) (s : Session)
    (hrun : Machine.Run StreamedRuns.next Alone (spawned setup recovered) s) :
    JournalComplete s := by
  have hinit : Inv (spawned setup recovered) := by
    refine Inv.of_idle ⟨rfl, fun _ hmem => (by cases hmem), fun _ hmem => (by cases hmem)⟩
      (fun _ hmem => (by cases hmem)) (fun _ => rfl) rfl (fun before report hprefix => ?_)
    exact absurd (List.prefix_nil.mp hprefix) (by simp)
  exact (hrun.invariant Inv (fun _ _ _ h halone hstep => h.step halone hstep)
    hinit).journalComplete

def textRun : List StreamLabel :=
  [.emit 0, .emit 0, .emit 0, .emit 0, .receive 0, .emit 0, .drop 0, .forward 0, .receive 0,
    .forward 0, .receive 0, .report 0]

def textHandled : List StreamLabel :=
  [.handle "p0" SessionLifetime.textOnly, .persist true, .handle "p1" SessionLifetime.textOnly,
    .persist true, .handle "p2" SessionLifetime.textOnly]

def oneInput : List StreamLabel :=
  [.recover "m0" SessionLifetime.textOnly, .tell (.run "go"),
    .handle "m1" SessionLifetime.textOnly, .persist true] ++ textRun ++ textHandled

theorem journal_complete_oneInput :
    JournalComplete (Machine.final StreamedRuns.next Alone
      (spawned SessionLifetime.plainSetup ⟨[]⟩) oneInput) :=
  journal_complete _ _ _ (Machine.run_final oneInput (by decide +kernel))

def resumed : Session :=
  spawned SessionLifetime.plainSetup ⟨[(AgentInput.userMessage "m" "go").toMessage]⟩

def inputAtSpawn : List StreamLabel :=
  [.tell (.run "more"), .recover "m0" SessionLifetime.textOnly,
    .handle "m1" SessionLifetime.textOnly, .persist true] ++ textRun ++ textHandled

/-- The input of the second run is journaled before what the first one emitted. -/
theorem input_before_recovered_run :
    ¬ ∀ (setup : Setup) (recovered : AgentState) (s : Session),
      Machine.Run StreamedRuns.next Spaced (spawned setup recovered) s → JournalComplete s := by
  intro h
  have hcomplete := h _ _ _ (Machine.run_final (s := resumed) inputAtSpawn (by decide +kernel))
  have hwhole := congrArg (List.map System.streamed) hcomplete.whole
  revert hwhole
  decide +kernel

end October.CompleteJournals
