import October.CompleteJournals
import October.LogStreams

/-!
What one step of a session does to what its sinks hand on. The events of a kind that a
session has journaled or has on their way there grow only by what a sink hands to its
forwarder, and a sink that is dropped has nothing left to emit.
-/
namespace October.SinkSteps

open AgentActor StreamedRuns LogStreams

def streamed : AgentDomainEvent → Bool
  | .inputMessage _ => false
  | .messageComplete _ => true
  | .toolComplete _ _ _ => true
  | .runComplete _ _ => true
  | .runCancelled => false

def Streamed (p : AgentDomainEvent → Bool) : Prop := ∀ event, p event = true → streamed event = true

/-- How many events of a kind a session has journaled or has on their way there. -/
def held (p : AgentDomainEvent → Bool) (s : Session) : ℕ :=
  (persisted s.log).countP p + s.phase.events.countP p + (s.mailbox.flatMap carries).countP p +
    (s.runs.flatMap StreamedRun.inHand).countP p

def hands (s : Session) : StreamLabel → List AgentDomainEvent
  | .emit run => ((nextEvent s run).bind coarseEvent).toList
  | _ => []

section Sessions

variable {p : AgentDomainEvent → Bool} {s t : Session}

theorem Streamed.input (hp : Streamed p) (message : Message) :
    p (.inputMessage message) = false := by
  by_contra h
  exact Bool.noConfusion (hp _ (by simpa using h))

theorem Streamed.cancelled (hp : Streamed p) : p .runCancelled = false := by
  by_contra h
  exact Bool.noConfusion (hp _ (by simpa using h))

theorem carries_external {command : AgentCommand} (h : external command = true) :
    carries command = [] := by
  cases command <;> first | rfl | contradiction

theorem carries_starts {messageId : String} {command : AgentCommand} {input : AgentInput}
    (h : startsRun messageId command = some input) : carries command = [] := by
  cases command <;> first | rfl | contradiction

/-- The report of a run carries nothing that a sink hands on. -/
theorem countP_report (hp : Streamed p) (outcome : RunOutcome) :
    (carries (.runFinished outcome)).countP p = 0 := by
  cases outcome <;> simp [carries, hp.cancelled]

theorem countP_flatMap_set {R : Type*} (f : R → List AgentDomainEvent) {l : List R} {k : ℕ} {r : R}
    (hget : l[k]? = some r) (r' : R) :
    ((l.set k r').flatMap f).countP p + (f r).countP p =
      (l.flatMap f).countP p + (f r').countP p := by
  induction l generalizing k with
  | nil => cases hget
  | cons first rest ih =>
    cases k with
    | zero =>
      cases Option.some.inj hget
      simp only [List.set_cons_zero, List.flatMap_cons, List.countP_append]
      omega
    | succ k =>
      have hrest := ih (k := k) hget
      simp only [List.set_cons_succ, List.flatMap_cons, List.countP_append]
      omega

theorem tells_cases {command : AgentCommand} (h : s.tells command = some t) :
    t = s ∨ t = s.push command := by
  unfold Session.tells at h
  split at h
  · exact .inl (Option.some.inj h).symm
  · split at h
    · exact .inr (Option.some.inj h).symm
    · cases h

theorem held_push (command : AgentCommand) :
    held p (s.push command) = held p s + (carries command).countP p := by
  simp only [held, Session.push, List.flatMap_append, List.flatMap_singleton, List.countP_append]
  omega

theorem stepRun_cases {k : ℕ} {step : StreamedRun → Option StreamedRun}
    (h : s.stepRun k step = some t) :
    ∃ r r', s.runs[k]? = some r ∧ step r = some r' ∧ t = { s with runs := s.runs.set k r' } := by
  obtain ⟨r', hstep, rfl⟩ := Option.map_eq_some_iff.mp h
  obtain ⟨r, hget, hstep⟩ := Option.bind_eq_some_iff.mp hstep
  exact ⟨r, r', hget, hstep, rfl⟩

/-- A step of the tasks of run `k`. -/
theorem held_setRun {k : ℕ} {r r' : StreamedRun} (hget : s.runs[k]? = some r)
    (hlog : t.log = s.log) (hphase : t.phase = s.phase) (hmailbox : t.mailbox = s.mailbox)
    (hruns : t.runs = s.runs.set k r') :
    held p t + r.inHand.countP p = held p s + r'.inHand.countP p := by
  have hset := countP_flatMap_set (p := p) StreamedRun.inHand hget r'
  simp only [held, hlog, hphase, hmailbox, hruns]
  omega

theorem held_recover {messageId : String} {attempts : ℕ → Attempt}
    (h : s.recover messageId attempts = some t) : held p t = held p s := by
  obtain ⟨hphase, rfl | ⟨input, history, rfl⟩⟩ := CompleteJournals.recover_cases h
  · simp [held, hphase]
  · simp [held, hphase, StreamedRun.launched, StreamedRun.inHand]

theorem held_handle (hp : Streamed p) {messageId : String} {attempts : ℕ → Attempt}
    (h : s.handle messageId attempts = some t) : held p t = held p s := by
  obtain ⟨command, rest, hphase, hmailbox, htaken⟩ := CompleteJournals.handle_cases h
  have hrest : held p s = (persisted s.log).countP p + (carries command).countP p +
      (rest.flatMap carries).countP p + (s.runs.flatMap StreamedRun.inHand).countP p := by
    simp only [held, hphase, hmailbox, Phase.events_waiting, List.countP_nil, List.flatMap_cons,
      List.countP_append]
    omega
  rw [hrest]
  cases htaken with
  | started _ input hstarts =>
    simp [held, StreamedRun.launched, StreamedRun.inHand, carries_starts hstarts, hp.input]
  | progressed events =>
    simp only [held, Phase.events_performing, CommandEffect.events, carries]
  | cancelled => simp [held, carries]
  | ended => simp [held, carries, hp.cancelled]
  | told outcome report phase hcarries _ _ hevents =>
    simp [held, hcarries, hevents, persisted]

theorem held_persist {ok : Bool} (h : s.persist ok = some t) : held p t ≤ held p s := by
  unfold Session.persist at h
  split at h
  · next effect hphase =>
    cases h
    have hcalled : (Phase.called effect : Phase AgentDomainEvent).events = [] := by
      cases effect <;> rfl
    simp only [held, hphase, hcalled, CompleteJournals.persisted_append,
      CompleteJournals.persisted_events, List.countP_append, Phase.events_performing]
    cases ok <;> simp
  · cases h

theorem held_forward {k : ℕ} (h : s.forward k = some t) : held p t ≤ held p s := by
  unfold Session.forward at h
  split at h
  · cases h
  · next r hget =>
    split at h
    · next event hforwarder =>
      obtain ⟨u, htells, rfl⟩ := Option.map_eq_some_iff.mp h
      have hhand : r.inHand = event :: r.channel := by simp [StreamedRun.inHand, hforwarder]
      split_ifs with hstopped
      · -- the actor is gone: the forwarder ends with what it has
        obtain rfl : s = u := by
          rw [Session.tells, if_pos hstopped] at htells
          exact Option.some.inj htells
        have hset := held_setRun (p := p) (t := { s with
          runs := s.runs.set k { r with channel := [], forwarder := .ended } }) hget rfl rfl rfl rfl
        rw [hhand] at hset
        simp only [StreamedRun.inHand, List.countP_nil] at hset
        omega
      · obtain rfl : s.push (.persistProgress [event]) = u := by
          rw [Session.tells, if_neg hstopped] at htells
          split at htells
          · exact Option.some.inj htells
          · cases htells
        have hpush := held_push (p := p) (s := s) (.persistProgress [event])
        have hset := held_setRun (p := p) (s := s.push (.persistProgress [event])) (t :=
          { s.push (.persistProgress [event]) with
            runs := s.runs.set k { r with forwarder := .receiving } }) hget rfl rfl rfl rfl
        rw [hhand, hpush] at hset
        simp only [StreamedRun.inHand, carries, List.countP_cons, List.countP_nil] at hset
        omega
    · cases h

theorem held_report (hp : Streamed p) {k : ℕ} (h : s.report k = some t) :
    held p t ≤ held p s := by
  unfold Session.report at h
  split at h
  · cases h
  · next r hget =>
    split at h
    · next hforwarder _ =>
      obtain ⟨u, htells, rfl⟩ := Option.map_eq_some_iff.mp h
      have hu : held p u = held p s ∧ u.runs = s.runs := by
        rcases tells_cases htells with rfl | rfl
        · exact ⟨rfl, rfl⟩
        · exact ⟨by rw [held_push, countP_report hp, Nat.add_zero], rfl⟩
      have hset := held_setRun (s := u) (p := p) (t :=
        { u with runs := s.runs.set k { r with reported := true } }) (hu.2 ▸ hget) rfl rfl rfl
        (by rw [hu.2])
      have hhand : ({ r with reported := true } : StreamedRun).inHand = r.inHand := rfl
      rw [hhand] at hset
      omega
    · cases h

/-- A step adds to what a session holds at most what it hands to a forwarder. -/
theorem held_step (hp : Streamed p) {l : StreamLabel} (h : StreamedRuns.next s l = some t) :
    held p t ≤ held p s + (hands s l).countP p := by
  cases l with
  | tell command =>
    simp only [StreamedRuns.next] at h
    split at h
    · next hexternal =>
      rcases tells_cases h with rfl | rfl
      · exact Nat.le_add_right _ _
      · rw [held_push, carries_external hexternal]
        exact Nat.le_refl _
    · cases h
  | recover messageId attempts => exact (held_recover h).le
  | handle messageId attempts => exact (held_handle hp h).le
  | persist ok => exact held_persist h
  | emit k =>
    obtain ⟨r, r', hget, hstep, rfl⟩ := stepRun_cases h
    have hset := held_setRun (p := p) (t := { s with runs := s.runs.set k r' }) hget rfl rfl rfl rfl
    unfold StreamedRun.emit at hstep
    split at hstep
    · cases hstep
    · next event rest htoEmit =>
      cases hstep
      have hhands : hands s (.emit k) = (coarseEvent event).toList := by
        simp [hands, nextEvent, hget, htoEmit]
      rw [hhands]
      unfold StreamedRun.inHand at hset
      cases hforwarder : r.forwarder <;>
        simp only [hforwarder, List.countP_append, List.countP_cons, List.append_nil] at hset ⊢ <;>
        omega
  | drop k =>
    obtain ⟨r, r', hget, hstep, rfl⟩ := stepRun_cases h
    have hset := held_setRun (p := p) (t := { s with runs := s.runs.set k r' }) hget rfl rfl rfl rfl
    have hhand : r'.inHand = r.inHand := by
      unfold StreamedRun.drop at hstep
      split at hstep
      · cases hstep
        rfl
      · cases hstep
    rw [hhand] at hset
    omega
  | receive k =>
    obtain ⟨r, r', hget, hstep, rfl⟩ := stepRun_cases h
    have hset := held_setRun (p := p) (t := { s with runs := s.runs.set k r' }) hget rfl rfl rfl rfl
    have hhand : r'.inHand = r.inHand := by
      unfold StreamedRun.receive at hstep
      split at hstep
      · next hforwarder hchannel =>
        cases hstep
        simp [StreamedRun.inHand, hforwarder, hchannel]
      · next hforwarder hchannel =>
        split_ifs at hstep
        cases hstep
        simp [StreamedRun.inHand, hforwarder]
      · cases hstep
    rw [hhand] at hset
    omega
  | forward k => exact held_forward h
  | report k => exact held_report hp h

/-- A sink that was dropped has nothing left to emit. -/
def Drained (s : Session) : Prop := ∀ r ∈ s.runs, r.sinkOpen = false → r.toEmit = []

def Gone (s : Session) : Prop :=
  s.phase.isStopped = true ∧ ∀ r ∈ s.runs, r.sinkOpen = false

inductive SinkStep (k : ℕ) (r r' : StreamedRun) : StreamLabel → Prop
  | kept (l : StreamLabel) : r'.sinkOpen = r.sinkOpen → r'.toEmit = r.toEmit → SinkStep k r r' l
  | emitted (event : AgentEvent) : r.toEmit = event :: r'.toEmit → r'.sinkOpen = r.sinkOpen →
      SinkStep k r r' (.emit k)
  | dropped : r.toEmit = [] → r'.toEmit = [] → r'.sinkOpen = false → SinkStep k r r' (.drop k)

inductive RunsStep (s t : Session) (l : StreamLabel) : Prop
  | same : t.runs = s.runs → RunsStep s t l
  | started (r : StreamedRun) : t.runs = s.runs ++ [r] → r.sinkOpen = true →
      s.phase.isStopped = false → RunsStep s t l
  | stepped (k : ℕ) (r r' : StreamedRun) : s.runs[k]? = some r → t.runs = s.runs.set k r' →
      SinkStep k r r' l → RunsStep s t l

theorem runs_step {l : StreamLabel} (h : StreamedRuns.next s l = some t) : RunsStep s t l := by
  cases l with
  | tell command =>
    simp only [StreamedRuns.next] at h
    split at h
    · rcases tells_cases h with rfl | rfl <;> exact .same rfl
    · cases h
  | recover messageId attempts =>
    obtain ⟨hphase, rfl | ⟨input, history, rfl⟩⟩ := CompleteJournals.recover_cases h
    · exact .same rfl
    · exact .started _ rfl rfl (by rw [hphase]; rfl)
  | handle messageId attempts =>
    obtain ⟨command, rest, hphase, hmailbox, htaken⟩ := CompleteJournals.handle_cases h
    cases htaken with
    | started _ input hstarts => exact .started _ rfl rfl (by rw [hphase]; rfl)
    | progressed | cancelled | ended | told => exact .same rfl
  | persist ok =>
    simp only [StreamedRuns.next, Session.persist] at h
    split at h
    · cases h
      exact .same rfl
    · cases h
  | emit k =>
    obtain ⟨r, r', hget, hstep, rfl⟩ := stepRun_cases h
    refine .stepped k r r' hget rfl ?_
    unfold StreamedRun.emit at hstep
    split at hstep
    · cases hstep
    · next event rest htoEmit =>
      cases hstep
      exact .emitted event htoEmit rfl
  | drop k =>
    obtain ⟨r, r', hget, hstep, rfl⟩ := stepRun_cases h
    refine .stepped k r r' hget rfl ?_
    unfold StreamedRun.drop at hstep
    split at hstep
    · next htoEmit _ =>
      cases hstep
      exact .dropped htoEmit htoEmit rfl
    · cases hstep
  | receive k =>
    obtain ⟨r, r', hget, hstep, rfl⟩ := stepRun_cases h
    refine .stepped k r r' hget rfl ?_
    unfold StreamedRun.receive at hstep
    split at hstep
    · cases hstep
      exact .kept _ rfl rfl
    · split_ifs at hstep
      cases hstep
      exact .kept _ rfl rfl
    · cases hstep
  | forward k =>
    simp only [StreamedRuns.next, Session.forward] at h
    split at h
    · cases h
    · next r hget =>
      split at h
      · obtain ⟨u, htells, rfl⟩ := Option.map_eq_some_iff.mp h
        split_ifs
        · exact .stepped k r _ hget rfl (.kept _ rfl rfl)
        · exact .stepped k r _ hget rfl (.kept _ rfl rfl)
      · cases h
  | report k =>
    simp only [StreamedRuns.next, Session.report] at h
    split at h
    · cases h
    · next r hget =>
      split at h
      · obtain ⟨u, htells, rfl⟩ := Option.map_eq_some_iff.mp h
        exact .stepped k r _ hget rfl (.kept _ rfl rfl)
      · cases h

theorem tells_phase {command : AgentCommand} (h : s.tells command = some t) :
    t.phase = s.phase := by
  rcases tells_cases h with rfl | rfl <;> rfl

/-- An actor that has stopped stays so. -/
theorem stopped_step {l : StreamLabel} (h : StreamedRuns.next s l = some t)
    (hstopped : s.phase.isStopped = true) : t.phase.isStopped = true := by
  cases l with
  | tell command =>
    simp only [StreamedRuns.next] at h
    split at h
    · rwa [tells_phase h]
    · cases h
  | recover messageId attempts =>
    rw [(CompleteJournals.recover_cases h).1] at hstopped
    cases hstopped
  | handle messageId attempts =>
    obtain ⟨command, rest, hphase, -⟩ := CompleteJournals.handle_cases h
    rw [hphase] at hstopped
    cases hstopped
  | persist ok =>
    simp only [StreamedRuns.next, Session.persist] at h
    split at h
    · next hphase =>
      rw [hphase] at hstopped
      cases hstopped
    · cases h
  | emit k | drop k | receive k =>
    obtain ⟨r, r', -, -, rfl⟩ := stepRun_cases h
    exact hstopped
  | forward k =>
    simp only [StreamedRuns.next, Session.forward] at h
    split at h
    · cases h
    · split at h
      · obtain ⟨u, htells, rfl⟩ := Option.map_eq_some_iff.mp h
        rw [← tells_phase htells] at hstopped
        split_ifs <;> exact hstopped
      · cases h
  | report k =>
    simp only [StreamedRuns.next, Session.report] at h
    split at h
    · cases h
    · split at h
      · obtain ⟨u, htells, rfl⟩ := Option.map_eq_some_iff.mp h
        rw [← tells_phase htells] at hstopped
        exact hstopped
      · cases h

theorem Drained.step {l : StreamLabel} (hs : Drained s) (h : StreamedRuns.next s l = some t) :
    Drained t := by
  intro r hr hclosed
  cases runs_step h with
  | same hruns => exact hs r (hruns ▸ hr) hclosed
  | started first hruns hopen _ =>
    rw [hruns] at hr
    rcases List.mem_append.mp hr with hr | hr
    · exact hs r hr hclosed
    · rw [List.mem_singleton.mp hr, hopen] at hclosed
      cases hclosed
  | stepped k before after hget hruns hstep =>
    rw [hruns] at hr
    rcases List.mem_or_eq_of_mem_set hr with hr | rfl
    · exact hs r hr hclosed
    · cases hstep with
      | kept _ hsame htoEmit =>
        rw [htoEmit]
        exact hs before (List.mem_of_getElem? hget) (hsame ▸ hclosed)
      | emitted event htoEmit hsame =>
        have hnil := hs before (List.mem_of_getElem? hget) (hsame ▸ hclosed)
        rw [htoEmit] at hnil
        cases hnil
      | dropped _ hnone _ => exact hnone

/-- A sink stays open until it is dropped. -/
theorem open_step {l : StreamLabel} (h : StreamedRuns.next s l = some t) {k : ℕ}
    {r : StreamedRun} (hget : s.runs[k]? = some r) (hopen : r.sinkOpen = true)
    (hdrop : l ≠ .drop k) : ∃ r', t.runs[k]? = some r' ∧ r'.sinkOpen = true := by
  have hlt := (List.getElem?_eq_some_iff.mp hget).1
  cases runs_step h with
  | same hruns => exact ⟨r, by rw [hruns, hget], hopen⟩
  | started first hruns _ _ =>
    exact ⟨r, by rw [hruns, List.getElem?_append_left hlt, hget], hopen⟩
  | stepped i before after hbefore hruns hstep =>
    by_cases hi : i = k
    · subst hi
      obtain rfl : before = r := Option.some.inj (hbefore.symm.trans hget)
      refine ⟨after, by rw [hruns, List.getElem?_set_self hlt], ?_⟩
      cases hstep with
      | kept _ hsame _ => rw [hsame, hopen]
      | emitted event _ hsame => rw [hsame, hopen]
      | dropped => exact absurd rfl hdrop
    · exact ⟨r, by rw [hruns, List.getElem?_set_ne hi, hget], hopen⟩

theorem Gone.step {l : StreamLabel} (hgone : Gone s)
    (h : StreamedRuns.next s l = some t) : Gone t := by
  obtain ⟨hstopped, hclosed⟩ := hgone
  refine ⟨stopped_step h hstopped, fun r hr => ?_⟩
  cases runs_step h with
  | same hruns => exact hclosed r (hruns ▸ hr)
  | started first hruns hopen hlive =>
    rw [hstopped] at hlive
    cases hlive
  | stepped k before after hget hruns hstep =>
    have hbefore := hclosed before (List.mem_of_getElem? hget)
    rw [hruns] at hr
    rcases List.mem_or_eq_of_mem_set hr with hr | rfl
    · exact hclosed r hr
    · cases hstep with
      | kept _ hsame _ => rw [hsame, hbefore]
      | emitted event _ hsame => rw [hsame, hbefore]
      | dropped _ _ hdropped => exact hdropped

/-- What is left to emit keeps the sink open. -/
theorem Drained.nextEvent (hs : Drained s) {k : ℕ} {event : AgentEvent}
    (h : LogStreams.nextEvent s k = some event) :
    ∃ r, s.runs[k]? = some r ∧ r.sinkOpen = true := by
  obtain ⟨r, hget, hhead⟩ := Option.bind_eq_some_iff.mp h
  refine ⟨r, hget, ?_⟩
  by_contra hclosed
  rw [hs r (List.mem_of_getElem? hget) (by simpa using hclosed)] at hhead
  cases hhead

end Sessions

end October.SinkSteps
