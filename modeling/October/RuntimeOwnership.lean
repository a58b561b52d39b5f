import October.Executor

/-!
Who answers for a runtime's handles. While nothing works on an id, every handle that
was created under it is the one stored in its entry or has been stopped; while a task
works on the id, its entry is closed to the others and one handle more is in the task's
hands. Operations that are about other ids leave all of this as it is.
-/
namespace October.RuntimeOwnership

open Await Executor

def answeredStep (id : String) (answered : Bool) : LinkEvent → Bool
  | .received ⟨_, .createRuntime runtimeId _⟩ => if runtimeId = id then false else answered
  | .sent ⟨_, .runtimeStateChanged runtimeId .stopped⟩ =>
    if runtimeId = id then true else answered
  | _ => answered

/-- A destroy of `id` was answered Stopped, and no create of `id` was received since. -/
def answered (id : String) (log : List LinkEvent) : Bool := log.foldl (answeredStep id) false

theorem answered_append (id : String) (log : List LinkEvent) (e : LinkEvent) :
    answered id (log ++ [e]) = answeredStep id (answered id log) e := by
  simp [answered]

def stored (id : String) (m : Memory) : Option RuntimeHandle :=
  (m.registry.get id).bind RuntimeEntry.handle

def Clean (id : String) (m : Memory) : Prop := ∀ h, (id, h) ∈ m.created → h ∈ m.stopped

def Held (id : String) (taken : Option RuntimeHandle) (m : Memory) : Prop :=
  ∀ h, (id, h) ∈ m.created → stored id m = some h ∨ h ∈ m.stopped ∨ taken = some h

def Ready (id : String) (m : Memory) : Prop :=
  ∀ entry, m.registry.get id = some entry → RuntimeRegistry.leavable entry.state = true

def Vacant (id : String) (m : Memory) : Prop :=
  ∃ entry, m.registry.get id = some entry ∧ entry.handle = none ∧
    RuntimeRegistry.leavable entry.state = false

def Closed (id : String) (m : Memory) : Prop :=
  ∀ entry, m.registry.get id = some entry → RuntimeRegistry.leavable entry.state = false

structure Settled (id : String) (m : Memory) : Prop where
  held : Held id none m
  absent : answered id m.log = true → m.registry.get id = none
  ready : Ready id m

structure Working (id : String) (taken : Option RuntimeHandle) (m : Memory) : Prop where
  held : Held id taken m
  unanswered : answered id m.log = false
  vacant : Vacant id m

structure Opened (id : String) (m : Memory) : Prop where
  held : Held id none m
  unanswered : answered id m.log = false
  ready : Ready id m

/-- Nothing about `id` changed, except that more handles may have been stopped. -/
structure Same (id : String) (m m' : Memory) : Prop where
  entry : m'.registry.get id = m.registry.get id
  created : ∀ h, (id, h) ∈ m'.created ↔ (id, h) ∈ m.created
  stopped : ∀ h, h ∈ m.stopped → h ∈ m'.stopped
  answered : RuntimeOwnership.answered id m'.log = RuntimeOwnership.answered id m.log

variable {id : String} {m m' : Memory} {taken : Option RuntimeHandle}

theorem Same.refl (id : String) (m : Memory) : Same id m m :=
  ⟨rfl, fun _ => Iff.rfl, fun _ h => h, rfl⟩

theorem Same.trans {m'' : Memory} (h : Same id m m') (h' : Same id m' m'') : Same id m m'' where
  entry := h'.entry.trans h.entry
  created x := (h'.created x).trans (h.created x)
  stopped x hx := h'.stopped x (h.stopped x hx)
  answered := h'.answered.trans h.answered

theorem Same.stored_eq (h : Same id m m') : stored id m' = stored id m := by
  rw [stored, h.entry, stored]

theorem Held.same (hheld : Held id taken m) (h : Same id m m') : Held id taken m' := by
  intro x hx
  rw [h.stored_eq]
  rcases hheld x ((h.created x).mp hx) with hstored | hstopped | htaken
  · exact Or.inl hstored
  · exact Or.inr (Or.inl (h.stopped x hstopped))
  · exact Or.inr (Or.inr htaken)

theorem Ready.same (hm : Ready id m) (h : Same id m m') : Ready id m' := by
  unfold Ready
  rw [h.entry]
  exact hm

theorem Closed.same (hm : Closed id m) (h : Same id m m') : Closed id m' := by
  unfold Closed
  rw [h.entry]
  exact hm

theorem Vacant.same (hm : Vacant id m) (h : Same id m m') : Vacant id m' := by
  unfold Vacant
  rw [h.entry]
  exact hm

theorem Vacant.closed (hm : Vacant id m) : Closed id m := by
  intro found hfound
  obtain ⟨entry, hentry, _, hbusy⟩ := hm
  cases Option.some.inj (hentry.symm.trans hfound)
  exact hbusy

theorem Settled.same (hm : Settled id m) (h : Same id m m') : Settled id m' where
  held := hm.held.same h
  absent := by
    rw [h.answered, h.entry]
    exact hm.absent
  ready := hm.ready.same h

theorem Working.same (hm : Working id taken m) (h : Same id m m') : Working id taken m' where
  held := hm.held.same h
  unanswered := h.answered.trans hm.unanswered
  vacant := hm.vacant.same h

theorem Opened.same (hm : Opened id m) (h : Same id m m') : Opened id m' :=
  ⟨hm.held.same h, h.answered.trans hm.unanswered, hm.ready.same h⟩

theorem Opened.settled (hm : Opened id m) : Settled id m :=
  ⟨hm.held, fun h => by rw [hm.unanswered] at h; contradiction, hm.ready⟩

theorem Settled.opened (hm : Settled id m) (h : answered id m.log = false) : Opened id m :=
  ⟨hm.held, h, hm.ready⟩

/-- An id without a stored handle is clean. -/
theorem Held.clean (hheld : Held id none m) (hnone : m.registry.get id = none) : Clean id m := by
  intro h hcreated
  rcases hheld h hcreated with hstored | hstopped | htaken
  · simp [stored, hnone] at hstored
  · exact hstopped
  · contradiction

theorem Settled.clean (hm : Settled id m) (hanswered : answered id m.log = true) : Clean id m :=
  hm.held.clean (hm.absent hanswered)

theorem Settled.unanswered (hm : Settled id m) {entry : RuntimeEntry}
    (hentry : m.registry.get id = some entry) : answered id m.log = false := by
  cases hanswered : answered id m.log with
  | false => rfl
  | true =>
    rw [hm.absent hanswered] at hentry
    contradiction

section Others

def target : Op → Option String
  | .send ⟨_, .runtimeStateChanged id .stopped⟩ => some id
  | .beginCreate id _ => some id
  | .completeCreate id _ => some id
  | .markFailed id _ => some id
  | .beginStop id => some id
  | .completeStop id => some id
  | .beginRestart id => some id
  | .create id _ => some id
  | _ => none

/-- A method of the registry leaves the entries of other ids alone. -/
theorem registry_other {other : String} (hne : id ≠ other) (r : RuntimeRegistry) :
    (∀ config, (r.beginCreate other config).2.get id = r.get id) ∧
    (∀ h, (r.completeCreate other h).2.get id = r.get id) ∧
    (r.markFailed other).2.get id = r.get id ∧
    (∀ action f, (∀ entry, (f entry).id = entry.id) →
      (r.leave other action f).2.get id = r.get id) ∧
    (r.completeStop other).2.get id = r.get id := by
  have hinsert : ∀ (entry found : RuntimeEntry), r.get other = some found → entry.id = found.id →
      (r.insert entry).get id = r.get id := by
    intro entry found hfound hid
    refine RuntimeRegistry.get_insert_ne ?_
    rw [hid, RuntimeRegistry.id_of_get hfound]
    exact hne
  refine ⟨fun config => ?_, fun h => ?_, ?_, fun action f hf => ?_, ?_⟩
  · unfold RuntimeRegistry.beginCreate
    split
    · rfl
    · exact RuntimeRegistry.get_insert_ne hne
  · unfold RuntimeRegistry.completeCreate
    split
    · rfl
    · rename_i found hfound
      exact hinsert _ found hfound rfl
  · unfold RuntimeRegistry.markFailed
    split
    · rfl
    · rename_i found hfound
      exact hinsert _ found hfound rfl
  · unfold RuntimeRegistry.leave
    split
    · rfl
    · rename_i found hfound
      split
      · exact hinsert _ found hfound (hf found)
      · rfl
  · unfold RuntimeRegistry.completeStop
    split
    · rfl
    · exact RuntimeRegistry.get_erase_ne hne

theorem section_same {α : Type} {f : RuntimeRegistry → α × RuntimeRegistry}
    (hget : (f m.registry).2.get id = m.registry.get id) : Same id m (m.section f).2 :=
  ⟨hget, fun _ => Iff.rfl, fun _ h => h, rfl⟩

theorem answeredStep_sent {msg : ExecutorOutboundMessage} (h : target (.send msg) ≠ some id)
    (b : Bool) : answeredStep id b (.sent msg) = b := by
  obtain ⟨req, event⟩ := msg
  cases event with
  | runtimeStateChanged runtimeId state =>
    cases state with
    | stopped =>
      have hne : runtimeId ≠ id := fun heq => h (congrArg some heq)
      simp [answeredStep, hne]
    | _ => rfl
  | _ => rfl

/-- What an operation can answer and leave, whatever the environment decides. -/
def Can : Semantics Op Ans Memory :=
  fun o m a m' => ∃ choice, Executor.perform m o choice = some (a, m')

theorem can_section {α : Type} {f : RuntimeRegistry → α × RuntimeRegistry} {a : α}
    (h : some (m.section f) = some (a, m')) :
    (f m.registry).1 = a ∧ m' = { m with registry := (f m.registry).2 } := by
  have heq := Option.some.inj h
  exact ⟨congrArg Prod.fst heq, (congrArg Prod.snd heq).symm⟩

/-- An operation that is not about `id` changes nothing about it. -/
theorem can_same {o : Op} {a : Ans o} (htarget : target o ≠ some id) (h : Can o m a m') :
    Same id m m' := by
  obtain ⟨choice, h⟩ := h
  have hother : ∀ other, target o = some other → id ≠ other := by
    rintro other hsome rfl
    exact htarget hsome
  cases o with
  | send msg =>
    cases choice with
    | sent ok =>
      cases Option.some.inj h
      cases ok with
      | false => exact Same.refl id m
      | true =>
        refine ⟨rfl, fun _ => Iff.rfl, fun _ hx => hx, ?_⟩
        simp only [↓reduceIte]
        rw [answered_append, answeredStep_sent htarget]
    | _ => contradiction
  | beginCreate other config =>
    cases choice with
    | proceed =>
      obtain ⟨_, rfl⟩ := can_section h
      exact section_same ((registry_other (hother other rfl) m.registry).1 config)
    | _ => contradiction
  | completeCreate other handle =>
    cases choice with
    | proceed =>
      obtain ⟨_, rfl⟩ := can_section h
      exact section_same ((registry_other (hother other rfl) m.registry).2.1 handle)
    | _ => contradiction
  | markFailed other cause =>
    cases choice with
    | proceed =>
      obtain ⟨_, rfl⟩ := can_section h
      exact section_same (registry_other (hother other rfl) m.registry).2.2.1
    | _ => contradiction
  | beginStop other =>
    cases choice with
    | proceed =>
      obtain ⟨_, rfl⟩ := can_section h
      exact section_same ((registry_other (hother other rfl) m.registry).2.2.2.1 _ _ fun _ => rfl)
    | _ => contradiction
  | completeStop other =>
    cases choice with
    | proceed =>
      obtain ⟨_, rfl⟩ := can_section h
      exact section_same (registry_other (hother other rfl) m.registry).2.2.2.2
    | _ => contradiction
  | beginRestart other =>
    cases choice with
    | proceed =>
      obtain ⟨_, rfl⟩ := can_section h
      exact section_same ((registry_other (hother other rfl) m.registry).2.2.2.1 _ _ fun _ => rfl)
    | _ => contradiction
  | create other config =>
    cases choice with
    | created result =>
      cases result with
      | error e =>
        cases Option.some.inj h
        exact Same.refl id m
      | ok handle =>
        cases Option.some.inj h
        refine ⟨rfl, fun x => ?_, fun _ hx => hx, rfl⟩
        simp [hother other rfl]
    | _ => contradiction
  | stop handle =>
    cases choice with
    | stopped result =>
      cases Option.some.inj h
      exact ⟨rfl, fun _ => Iff.rfl, fun _ hx => List.mem_append_left _ hx, rfl⟩
    | _ => contradiction
  | list =>
    cases choice with
    | listed order =>
      obtain ⟨_, heq⟩ := Option.ite_none_right_eq_some.mp h
      cases Option.some.inj heq
      exact Same.refl id m
    | _ => contradiction
  | runningHandles =>
    cases choice with
    | handles order =>
      obtain ⟨_, heq⟩ := Option.ite_none_right_eq_some.mp h
      cases Option.some.inj heq
      exact Same.refl id m
    | _ => contradiction
  | newUuid | getConfig _ | getRestartCount _ | healthCheck _ _ =>
    cases choice <;> first
      | contradiction
      | (cases Option.some.inj h; exact Same.refl id m)

end Others

section Own

variable {config : RuntimeConfig} {h : RuntimeHandle}

/-- A handle that leaves its entry is taken. -/
theorem Held.take {entry : RuntimeEntry} (hheld : Held id none m)
    (hentry : m.registry.get id = some entry) (r : RuntimeRegistry) :
    Held id entry.handle { m with registry := r } := by
  intro x hx
  rcases hheld x hx with hstored | hstopped | htaken
  · right
    right
    simpa [stored, hentry] using hstored
  · exact Or.inr (Or.inl hstopped)
  · contradiction

theorem beginCreate_opened {a : Except RuntimeError Unit} (hm : Opened id m)
    (hcan : Can (.beginCreate id config) m a m') :
    (∃ e, a = .error e ∧ m' = m) ∨ (a = .ok () ∧ Working id none m') := by
  obtain ⟨choice, hstep⟩ := hcan
  cases choice with
  | proceed =>
    obtain ⟨rfl, rfl⟩ := can_section hstep
    unfold RuntimeRegistry.beginCreate
    cases hentry : m.registry.get id with
    | some entry => exact Or.inl ⟨_, rfl, rfl⟩
    | none =>
      refine Or.inr ⟨rfl, fun x hx => ?_, hm.unanswered, _, RuntimeRegistry.get_insert_self,
        rfl, rfl⟩
      exact Or.inr (Or.inl (hm.held.clean hentry x hx))
  | _ => contradiction

theorem create_working {a : Except RuntimeError RuntimeHandle} (hm : Working id none m)
    (hcan : Can (.create id config) m a m') :
    (∃ e, a = .error e ∧ m' = m) ∨ ∃ handle, a = .ok handle ∧ Working id (some handle) m' := by
  obtain ⟨choice, hstep⟩ := hcan
  cases choice with
  | created result =>
    cases result with
    | error e =>
      cases Option.some.inj hstep
      exact Or.inl ⟨e, rfl, rfl⟩
    | ok handle =>
      cases Option.some.inj hstep
      refine Or.inr ⟨handle, rfl, fun x hx => ?_, hm.unanswered, hm.vacant⟩
      rcases List.mem_append.mp hx with hold | hnew
      · rcases hm.held x hold with hstored | hstopped | htaken
        · exact Or.inl hstored
        · exact Or.inr (Or.inl hstopped)
        · contradiction
      · cases List.mem_singleton.mp hnew
        exact Or.inr (Or.inr rfl)
  | _ => contradiction

theorem completeCreate_working {a : Except RuntimeError Unit} (hm : Working id (some h) m)
    (hcan : Can (.completeCreate id h) m a m') : a = .ok () ∧ Opened id m' := by
  obtain ⟨choice, hstep⟩ := hcan
  cases choice with
  | proceed =>
    obtain ⟨entry, hentry, hvacant, _⟩ := hm.vacant
    obtain ⟨rfl, rfl⟩ := can_section hstep
    unfold RuntimeRegistry.completeCreate
    rw [hentry]
    have hfiled : entry.id = id := RuntimeRegistry.id_of_get hentry
    have hput := RuntimeRegistry.get_insert m.registry
      { entry with state := .running, handle := some h } hfiled
    refine ⟨rfl, fun x hx => ?_, hm.unanswered, fun found hfound => ?_⟩
    · rcases hm.held x hx with hstored | hstopped | htaken
      · simp [stored, hentry, hvacant] at hstored
      · exact Or.inr (Or.inl hstopped)
      · left
        simpa [stored, hput] using htaken
    · cases Option.some.inj (hput.symm.trans hfound)
      rfl
  | _ => contradiction

/-- Marking a runtime Failed drops its handle, so that one has to be stopped already. -/
theorem markFailed_section {taken : Option RuntimeHandle} (hheld : Held id taken m)
    (hstored : ∀ x, stored id m = some x → x ∈ m.stopped) :
    Held id taken (m.section (RuntimeRegistry.markFailed id)).2 := by
  unfold Memory.section RuntimeRegistry.markFailed
  cases hentry : m.registry.get id with
  | none => exact hheld
  | some entry =>
    intro x hx
    rcases hheld x hx with hkept | hstopped | htaken
    · exact Or.inr (Or.inl (hstored x hkept))
    · exact Or.inr (Or.inl hstopped)
    · exact Or.inr (Or.inr htaken)

theorem markFailed_ready : Ready id (m.section (RuntimeRegistry.markFailed id)).2 := by
  unfold Memory.section RuntimeRegistry.markFailed
  cases hentry : m.registry.get id with
  | none =>
    intro found hfound
    exact absurd (hentry.symm.trans hfound) (by simp)
  | some entry =>
    intro found hfound
    have hfiled : entry.id = id := RuntimeRegistry.id_of_get hentry
    have hput := RuntimeRegistry.get_insert m.registry
      { entry with state := .failed, handle := none } hfiled
    cases Option.some.inj (hput.symm.trans hfound)
    rfl

theorem markFailed_settled {a : Except RuntimeError Unit} {cause : Cause} (hm : Settled id m)
    (hstored : ∀ x, stored id m = some x → x ∈ m.stopped)
    (hcan : Can (.markFailed id cause) m a m') : Settled id m' := by
  obtain ⟨choice, hstep⟩ := hcan
  cases choice with
  | proceed =>
    obtain ⟨rfl, rfl⟩ := can_section hstep
    refine ⟨markFailed_section hm.held hstored, fun hanswered => ?_, markFailed_ready⟩
    have hnone := hm.absent hanswered
    unfold RuntimeRegistry.markFailed
    rw [hnone]
    exact hnone
  | _ => contradiction

theorem markFailed_working {a : Except RuntimeError Unit} {cause : Cause}
    (hm : Working id none m) (hcan : Can (.markFailed id cause) m a m') : Opened id m' := by
  obtain ⟨entry, hentry, hnone, _⟩ := hm.vacant
  obtain ⟨choice, hstep⟩ := hcan
  cases choice with
  | proceed =>
    obtain ⟨rfl, rfl⟩ := can_section hstep
    refine ⟨markFailed_section hm.held (fun x hx => ?_), hm.unanswered, markFailed_ready⟩
    simp [stored, hentry, hnone] at hx
  | _ => contradiction

/-- What stopping and restarting a runtime begin with: its handle is taken. -/
theorem leave_settled (action : String) (f : RuntimeEntry → RuntimeEntry) (hm : Settled id m)
    (hf : ∀ entry, (f entry).id = entry.id ∧ (f entry).handle = none ∧
      RuntimeRegistry.leavable (f entry).state = false) :
    (∃ e, (m.section (RuntimeRegistry.leave id action f)).1 = .error e ∧
      (m.section (RuntimeRegistry.leave id action f)).2 = m) ∨
    ∃ handle, (m.section (RuntimeRegistry.leave id action f)).1 = .ok handle ∧
      Working id handle (m.section (RuntimeRegistry.leave id action f)).2 := by
  unfold Memory.section
  rcases RuntimeRegistry.leave_cases id action f m.registry with ⟨e, heq⟩ | ⟨entry, hentry, heq⟩
  · rw [heq]
    exact Or.inl ⟨e, rfl, rfl⟩
  · rw [heq]
    obtain ⟨hid, hnone, hbusy⟩ := hf entry
    have hfiled : (f entry).id = id := hid.trans (RuntimeRegistry.id_of_get hentry)
    exact Or.inr ⟨entry.handle, rfl, hm.held.take hentry _, hm.unanswered hentry, f entry,
      RuntimeRegistry.get_insert _ _ hfiled, hnone, hbusy⟩

/-- An entry that a task works on is neither stopped nor restarted by the other. -/
theorem leave_closed (action : String) (f : RuntimeEntry → RuntimeEntry) (hm : Closed id m) :
    ∃ e, (m.section (RuntimeRegistry.leave id action f)).1 = .error e ∧
      (m.section (RuntimeRegistry.leave id action f)).2 = m := by
  unfold Memory.section RuntimeRegistry.leave
  cases hentry : m.registry.get id with
  | none => exact ⟨_, rfl, rfl⟩
  | some entry =>
    have hnot : ¬ RuntimeRegistry.leavable entry.state = true := by
      rw [hm entry hentry]
      exact Bool.false_ne_true
    dsimp only
    rw [if_neg hnot]
    exact ⟨_, rfl, rfl⟩

theorem beginStop_closed {a : Except RuntimeError (Option RuntimeHandle)} (hm : Closed id m)
    (hcan : Can (.beginStop id) m a m') : ∃ e, a = .error e ∧ m' = m := by
  obtain ⟨choice, hstep⟩ := hcan
  cases choice with
  | proceed =>
    obtain ⟨rfl, rfl⟩ := can_section hstep
    exact leave_closed _ _ hm
  | _ => contradiction

theorem beginRestart_closed {a : Except RuntimeError (Option RuntimeHandle)} (hm : Closed id m)
    (hcan : Can (.beginRestart id) m a m') : ∃ e, a = .error e ∧ m' = m := by
  obtain ⟨choice, hstep⟩ := hcan
  cases choice with
  | proceed =>
    obtain ⟨rfl, rfl⟩ := can_section hstep
    exact leave_closed _ _ hm
  | _ => contradiction

theorem beginCreate_vacant {a : Except RuntimeError Unit} (hm : Vacant id m)
    (hcan : Can (.beginCreate id config) m a m') : ∃ e, a = .error e ∧ m' = m := by
  obtain ⟨choice, hstep⟩ := hcan
  cases choice with
  | proceed =>
    obtain ⟨entry, hentry, _⟩ := hm
    obtain ⟨rfl, rfl⟩ := can_section hstep
    unfold RuntimeRegistry.beginCreate
    rw [hentry]
    exact ⟨_, rfl, rfl⟩
  | _ => contradiction

theorem markFailed_absent {a : Except RuntimeError Unit} {cause : Cause}
    (hm : m.registry.get id = none) (hcan : Can (.markFailed id cause) m a m') : m' = m := by
  obtain ⟨choice, hstep⟩ := hcan
  cases choice with
  | proceed =>
    obtain ⟨rfl, rfl⟩ := can_section hstep
    unfold RuntimeRegistry.markFailed
    rw [hm]
  | _ => contradiction

theorem beginStop_settled {a : Except RuntimeError (Option RuntimeHandle)} (hm : Settled id m)
    (hcan : Can (.beginStop id) m a m') :
    (∃ e, a = .error e ∧ m' = m) ∨ ∃ handle, a = .ok handle ∧ Working id handle m' := by
  obtain ⟨choice, hstep⟩ := hcan
  cases choice with
  | proceed =>
    obtain ⟨rfl, rfl⟩ := can_section hstep
    exact leave_settled _ _ hm (fun _ => ⟨rfl, rfl, rfl⟩)
  | _ => contradiction

theorem beginRestart_settled {a : Except RuntimeError (Option RuntimeHandle)} (hm : Settled id m)
    (hcan : Can (.beginRestart id) m a m') :
    (∃ e, a = .error e ∧ m' = m) ∨ ∃ handle, a = .ok handle ∧ Working id handle m' := by
  obtain ⟨choice, hstep⟩ := hcan
  cases choice with
  | proceed =>
    obtain ⟨rfl, rfl⟩ := can_section hstep
    exact leave_settled _ _ hm (fun _ => ⟨rfl, rfl, rfl⟩)
  | _ => contradiction

theorem stop_working {a : Except RuntimeError Unit} (hm : Working id (some h) m)
    (hcan : Can (.stop h) m a m') : Working id none m' := by
  obtain ⟨choice, hstep⟩ := hcan
  cases choice with
  | stopped result =>
    cases Option.some.inj hstep
    refine ⟨fun x hx => ?_, hm.unanswered, hm.vacant⟩
    rcases hm.held x hx with hstored | hstopped | htaken
    · exact Or.inl hstored
    · exact Or.inr (Or.inl (List.mem_append_left _ hstopped))
    · cases Option.some.inj htaken
      exact Or.inr (Or.inl (by simp))
  | _ => contradiction

theorem completeStop_working {a : Except RuntimeError Unit} (hm : Working id none m)
    (hcan : Can (.completeStop id) m a m') :
    a = .ok () ∧ Opened id m' ∧ m'.registry.get id = none := by
  obtain ⟨choice, hstep⟩ := hcan
  cases choice with
  | proceed =>
    obtain ⟨entry, hentry, hvacant, _⟩ := hm.vacant
    obtain ⟨rfl, rfl⟩ := can_section hstep
    unfold RuntimeRegistry.completeStop
    rw [hentry]
    have hgone : (m.registry.erase id).get id = none := RuntimeRegistry.get_erase_self
    refine ⟨rfl, ⟨fun x hx => ?_, hm.unanswered, fun found hfound => ?_⟩, hgone⟩
    · rcases hm.held x hx with hstored | hstopped | htaken
      · simp [stored, hentry, hvacant] at hstored
      · exact Or.inr (Or.inl hstopped)
      · contradiction
    · exact absurd (hgone.symm.trans hfound) (by simp)
  | _ => contradiction

/-- Answering a destroy once the entry is gone. -/
theorem sendStopped_settled {req : String} {a : Unit} (hm : Opened id m)
    (hnone : m.registry.get id = none)
    (hcan : Can (.send ⟨req, .runtimeStateChanged id .stopped⟩) m a m') : Settled id m' := by
  obtain ⟨choice, hstep⟩ := hcan
  cases choice with
  | sent ok =>
    cases Option.some.inj hstep
    cases ok with
    | false => exact hm.settled
    | true => exact ⟨hm.held, fun _ => hnone, hm.ready⟩
  | _ => contradiction

end Own

end October.RuntimeOwnership
