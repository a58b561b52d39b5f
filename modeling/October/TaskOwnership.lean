import October.RuntimeOwnership

/-!
Which of the two loops works on a runtime id. A loop takes the id by creating, stopping
or restarting it, and gives it back when that is complete; its entry is closed to the
other loop in the meantime. The one operation outside this discipline is marking a
runtime Failed after an unhealthy answer, which looks at nothing: it is allowed here only
when nothing works on the id and its stored handle has been stopped.
-/
namespace October.TaskOwnership

open Await Executor RuntimeOwnership

inductive Loop where
  | dispatch
  | check
  deriving DecidableEq, Repr

def Loop.other : Loop → Loop
  | .dispatch => .check
  | .check => .dispatch

/-- The shared memory, and the loop that works on `id`. -/
structure Ledger where
  memory : Memory
  owner : Option Loop

def ownerAfter (id : String) (loop : Loop) : (o : Op) → Ans o → Option Loop → Option Loop
  | .beginCreate other _, .ok _, owner => if other = id then some loop else owner
  | .beginStop other, .ok _, owner => if other = id then some loop else owner
  | .beginRestart other, .ok _, owner => if other = id then some loop else owner
  | .completeCreate other _, _, owner => if other = id then none else owner
  | .markFailed other .notCreated, _, owner => if other = id then none else owner
  | .send ⟨_, .runtimeStateChanged other .stopped⟩, _, owner =>
    if other = id then none else owner
  | _, _, owner => owner

/-- Nothing works on `id`, and a handle stored for it has been stopped. -/
def spent (id : String) (m : Memory) : Bool :=
  (m.registry.get id).all (fun entry =>
    RuntimeRegistry.leavable entry.state && entry.handle.all (fun h => decide (h ∈ m.stopped)))

def Acts (id : String) (loop : Loop) : Semantics Op Ans Ledger := fun o g a g' =>
  Can o g.memory a g'.memory ∧ g'.owner = ownerAfter id loop o a g.owner ∧
    (loop = .check → o = .markFailed id .unhealthy → spent id g.memory = true)

/-- What is true of `id` at every await point of either loop. -/
def Consistent (id : String) (g : Ledger) : Prop :=
  match g.owner with
  | none => Settled id g.memory
  | some .dispatch => answered id g.memory.log = false ∧ Closed id g.memory
  | some .check => answered id g.memory.log = false ∧ Vacant id g.memory

/-- What the other loop may do from the point of view of `loop`. -/
structure Respects (id : String) (loop : Loop) (g g' : Ledger) : Prop where
  consistent : Consistent id g → Consistent id g'
  mine : g.owner = some loop → g'.owner = some loop ∧ Same id g.memory g'.memory
  others : g.owner ≠ some loop → g'.owner ≠ some loop
  answered : loop = .dispatch →
    RuntimeOwnership.answered id g'.memory.log = RuntimeOwnership.answered id g.memory.log

def creates : Op → Option String
  | .create id _ => some id
  | _ => none

structure During (id : String) (loop : Loop) (o : Op) (g : Ledger) : Prop where
  consistent : Consistent id g
  creating : creates o = some id → g.owner = some loop
  marking : o = .markFailed id .unhealthy → g.owner ≠ some loop

def contract (id : String) (loop : Loop) : Contract Op Ledger where
  rely := Respects id loop
  guarantee := Respects id loop.other
  during := During id loop

variable {id : String} {loop : Loop} {g g' : Ledger}

theorem Respects.refl (id : String) (loop : Loop) (g : Ledger) : Respects id loop g g :=
  ⟨fun h => h, fun h => ⟨h, Same.refl id g.memory⟩, fun h => h, fun _ => rfl⟩

theorem Respects.trans {g'' : Ledger} (h : Respects id loop g g') (h' : Respects id loop g' g'') :
    Respects id loop g g'' where
  consistent hg := h'.consistent (h.consistent hg)
  mine hg := ⟨(h'.mine (h.mine hg).1).1, (h.mine hg).2.trans (h'.mine (h.mine hg).1).2⟩
  others hg := h'.others (h.others hg)
  answered hloop := (h'.answered hloop).trans (h.answered hloop)

theorem contract_preorder (id : String) (loop : Loop) : (contract id loop).Preorder where
  refl := Respects.refl id loop
  trans _ _ _ := Respects.trans

theorem Loop.ne_other (loop : Loop) : loop.other ≠ loop := by
  cases loop <;> simp [Loop.other]

theorem Loop.eq_other {l : Loop} (h : l ≠ loop) : l = loop.other := by
  cases l <;> cases loop <;> simp_all [Loop.other]

section Assertions

theorem Consistent.free (h : Consistent id g) (hnone : g.owner = none) : Settled id g.memory := by
  unfold Consistent at h
  rwa [hnone] at h

theorem Consistent.taken {l : Loop} (h : Consistent id g) (howner : g.owner = some l) :
    answered id g.memory.log = false ∧ Closed id g.memory := by
  unfold Consistent at h
  rw [howner] at h
  cases l with
  | dispatch => exact h
  | check => exact ⟨h.1, h.2.closed⟩

/-- A destroy that was answered left no live handle. -/
theorem Consistent.clean (h : Consistent id g) (hanswered : answered id g.memory.log = true) :
    Clean id g.memory := by
  cases howner : g.owner with
  | none => exact (h.free howner).clean hanswered
  | some l =>
    rw [(h.taken howner).1] at hanswered
    contradiction

theorem consistent_settled (hnone : g.owner = none) (h : Settled id g.memory) :
    Consistent id g := by
  unfold Consistent
  rwa [hnone]

theorem Consistent.same (h : Consistent id g) (howner : g'.owner = g.owner)
    (hsame : Same id g.memory g'.memory) : Consistent id g' := by
  unfold Consistent at h ⊢
  rw [howner]
  cases hcases : g.owner with
  | none =>
    rw [hcases] at h
    exact Settled.same h hsame
  | some l =>
    rw [hcases] at h
    cases l with
    | dispatch => exact ⟨hsame.answered.trans h.1, h.2.same hsame⟩
    | check => exact ⟨hsame.answered.trans h.1, h.2.same hsame⟩

structure Idle (id : String) (loop : Loop) (g : Ledger) : Prop where
  consistent : Consistent id g
  other : g.owner ≠ some loop

structure Asked (id : String) (g : Ledger) : Prop where
  idle : Idle id .dispatch g
  unanswered : answered id g.memory.log = false

structure Works (id : String) (loop : Loop) (taken : Option RuntimeHandle) (g : Ledger) :
    Prop where
  owner : g.owner = some loop
  working : Working id taken g.memory

structure Gone (id : String) (g : Ledger) : Prop where
  owner : g.owner = some .dispatch
  opened : Opened id g.memory
  absent : g.memory.registry.get id = none

theorem Works.consistent {taken : Option RuntimeHandle} (h : Works id loop taken g) :
    Consistent id g := by
  unfold Consistent
  rw [h.owner]
  cases loop with
  | dispatch => exact ⟨h.working.unanswered, h.working.vacant.closed⟩
  | check => exact ⟨h.working.unanswered, h.working.vacant⟩

theorem Gone.consistent (h : Gone id g) : Consistent id g := by
  unfold Consistent
  rw [h.owner]
  exact ⟨h.opened.unanswered, fun entry hentry => by rw [h.absent] at hentry; contradiction⟩

theorem idle_opened (hnone : g.owner = none) (h : Opened id g.memory) : Idle id loop g :=
  ⟨consistent_settled hnone h.settled, by simp [hnone]⟩

structure Kept (id : String) (loop : Loop) (pre : Ledger → Prop) : Prop where
  stable : ∀ g g', Respects id loop g g' → pre g → pre g'
  consistent : ∀ g, pre g → Consistent id g

theorem kept_idle (id : String) (loop : Loop) : Kept id loop (Idle id loop) :=
  ⟨fun _ _ hrely hg => ⟨hrely.consistent hg.consistent, hrely.others hg.other⟩,
    fun _ hg => hg.consistent⟩

theorem kept_asked (id : String) : Kept id .dispatch (Asked id) :=
  ⟨fun _ _ hrely hg => ⟨(kept_idle id .dispatch).stable _ _ hrely hg.idle,
    (hrely.answered rfl).trans hg.unanswered⟩, fun _ hg => hg.idle.consistent⟩

theorem kept_works (id : String) (loop : Loop) (taken : Option RuntimeHandle) :
    Kept id loop (Works id loop taken) :=
  ⟨fun _ _ hrely hg => ⟨(hrely.mine hg.owner).1, hg.working.same (hrely.mine hg.owner).2⟩,
    fun _ hg => hg.consistent⟩

theorem kept_gone (id : String) : Kept id .dispatch (Gone id) := by
  refine ⟨fun _ _ hrely hg => ?_, fun _ hg => hg.consistent⟩
  obtain ⟨howner, hsame⟩ := hrely.mine hg.owner
  exact ⟨howner, hg.opened.same hsame, hsame.entry.trans hg.absent⟩

end Assertions

section Steps

variable {config : RuntimeConfig} {h : RuntimeHandle} {taken : Option RuntimeHandle}

/-- What the loop that works on `id` does is no concern of the other loop. -/
theorem respects_owned (howner : g.owner = some loop) (hother : g'.owner ≠ some loop.other)
    (hconsistent : Consistent id g')
    (hanswered : loop = .check → answered id g'.memory.log = answered id g.memory.log) :
    Respects id loop.other g g' where
  consistent _ := hconsistent
  mine hmine := by
    rw [howner] at hmine
    exact absurd (Option.some.inj hmine).symm loop.ne_other
  others _ := hother
  answered hloop := by
    cases loop with
    | dispatch => contradiction
    | check => exact hanswered rfl

/-- An operation that is not about `id` is no concern of either loop. -/
theorem acts_other {o : Op} {a : Ans o} (htarget : target o ≠ some id)
    (hact : Acts id loop o g a g') :
    g'.owner = g.owner ∧ Same id g.memory g'.memory := by
  obtain ⟨hcan, howner, _⟩ := hact
  refine ⟨?_, can_same htarget hcan⟩
  rw [howner]
  have hne : ∀ other, target o = some other → other ≠ id := by
    rintro other hsome rfl
    exact htarget hsome
  cases o with
  | send msg =>
    obtain ⟨req, event⟩ := msg
    cases event with
    | runtimeStateChanged other state =>
      cases state with
      | stopped => exact if_neg (hne other rfl)
      | _ => rfl
    | _ => rfl
  | beginCreate other _ | beginStop other | beginRestart other =>
    cases a with
    | error _ => rfl
    | ok _ => exact if_neg (hne other rfl)
  | completeCreate other _ => exact if_neg (hne other rfl)
  | markFailed other cause =>
    cases cause with
    | unhealthy => rfl
    | notCreated => exact if_neg (hne other rfl)
  | _ => rfl

theorem respects_same (l : Loop) (howner : g'.owner = g.owner)
    (hsame : Same id g.memory g'.memory) : Respects id l g g' where
  consistent hg := hg.same howner hsame
  mine hmine := ⟨howner.trans hmine, hsame⟩
  others hothers := by rwa [howner]
  answered _ := hsame.answered

/-- Taking `id` succeeds only if nothing works on it. -/
theorem take_idle {β : Type} {a : Except RuntimeError β} (held : β → Option RuntimeHandle)
    (hg : Idle id loop g) (hlog : g'.memory.log = g.memory.log)
    (hopen : g.owner = none → (∃ e, a = .error e ∧ g'.memory = g.memory) ∨
      ∃ b, a = .ok b ∧ Working id (held b) g'.memory)
    (hclosed : g.owner = some loop.other → ∃ e, a = .error e ∧ g'.memory = g.memory)
    (herror : ∀ e, a = .error e → g'.owner = g.owner)
    (hok : ∀ b, a = .ok b → g'.owner = some loop) :
    Respects id loop.other g g' ∧
      ((∃ e, a = .error e ∧ g' = g) ∨ ∃ b, a = .ok b ∧ Works id loop (held b) g') := by
  have hfailed : ∀ e, a = .error e → g'.memory = g.memory → g' = g := by
    intro e ha hmemory
    cases g
    cases g'
    simp only [Ledger.mk.injEq]
    exact ⟨hmemory, herror e ha⟩
  cases howner : g.owner with
  | none =>
    rcases hopen howner with ⟨e, ha, hmemory⟩ | ⟨b, ha, hworking⟩
    · cases hfailed e ha hmemory
      exact ⟨Respects.refl _ _ _, Or.inl ⟨e, ha, rfl⟩⟩
    · have hworks : Works id loop (held b) g' := ⟨hok b ha, hworking⟩
      refine ⟨⟨fun _ => hworks.consistent, fun hmine => ?_, fun _ => ?_, fun _ => ?_⟩,
        Or.inr ⟨b, ha, hworks⟩⟩
      · rw [howner] at hmine
        contradiction
      · rw [hok b ha]
        exact fun h => loop.ne_other (Option.some.inj h).symm
      · rw [hlog]
  | some l =>
    have hother : l = loop.other := by
      refine Loop.eq_other (fun heq => hg.other ?_)
      rw [howner, heq]
    obtain ⟨e, ha, hmemory⟩ := hclosed (howner.trans (congrArg some hother))
    cases hfailed e ha hmemory
    exact ⟨Respects.refl _ _ _, Or.inl ⟨e, ha, rfl⟩⟩

theorem can_log {o : Op} {m m' : Memory} {a : Ans o} (hcan : Can o m a m')
    (hsend : ∀ msg, o ≠ .send msg) : m'.log = m.log := by
  obtain ⟨choice, hstep⟩ := hcan
  cases o with
  | send msg => exact absurd rfl (hsend msg)
  | create other config =>
    cases choice with
    | created result =>
      cases result with
      | error e =>
        cases Option.some.inj hstep
        rfl
      | ok handle =>
        cases Option.some.inj hstep
        rfl
    | _ => contradiction
  | list =>
    cases choice with
    | listed order =>
      obtain ⟨_, heq⟩ := Option.ite_none_right_eq_some.mp hstep
      cases Option.some.inj heq
      rfl
    | _ => contradiction
  | runningHandles =>
    cases choice with
    | handles order =>
      obtain ⟨_, heq⟩ := Option.ite_none_right_eq_some.mp hstep
      cases Option.some.inj heq
      rfl
    | _ => contradiction
  | _ =>
    cases choice <;> first
      | contradiction
      | (cases Option.some.inj hstep; rfl)

theorem beginStop_idle {a : Except RuntimeError (Option RuntimeHandle)} (hg : Idle id loop g)
    (hact : Acts id loop (.beginStop id) g a g') :
    Respects id loop.other g g' ∧
      ((∃ e, a = .error e ∧ g' = g) ∨ ∃ handle, a = .ok handle ∧ Works id loop handle g') := by
  obtain ⟨hcan, howner, _⟩ := hact
  refine take_idle (fun handle => handle) hg (can_log hcan (by simp)) (fun hnone => ?_)
    (fun hsome => ?_) (fun e ha => ?_) (fun b ha => ?_)
  · exact beginStop_settled (hg.consistent.free hnone) hcan
  · exact beginStop_closed (hg.consistent.taken hsome).2 hcan
  · subst ha
    exact howner
  · subst ha
    exact howner.trans (if_pos rfl)

theorem beginRestart_idle {a : Except RuntimeError (Option RuntimeHandle)}
    (hg : Idle id loop g) (hact : Acts id loop (.beginRestart id) g a g') :
    Respects id loop.other g g' ∧
      ((∃ e, a = .error e ∧ g' = g) ∨ ∃ handle, a = .ok handle ∧ Works id loop handle g') := by
  obtain ⟨hcan, howner, _⟩ := hact
  refine take_idle (fun handle => handle) hg (can_log hcan (by simp)) (fun hnone => ?_)
    (fun hsome => ?_) (fun e ha => ?_) (fun b ha => ?_)
  · exact beginRestart_settled (hg.consistent.free hnone) hcan
  · exact beginRestart_closed (hg.consistent.taken hsome).2 hcan
  · subst ha
    exact howner
  · subst ha
    exact howner.trans (if_pos rfl)

theorem beginCreate_asked {a : Except RuntimeError Unit} (hg : Asked id g)
    (hact : Acts id .dispatch (.beginCreate id config) g a g') :
    Respects id .check g g' ∧
      ((∃ e, a = .error e ∧ g' = g) ∨ ∃ b, a = .ok b ∧ Works id .dispatch none g') := by
  obtain ⟨hcan, howner, _⟩ := hact
  refine take_idle (fun _ => none) hg.idle (can_log hcan (by simp)) (fun hnone => ?_)
    (fun hsome => ?_) (fun e ha => ?_) (fun b ha => ?_)
  · rcases beginCreate_opened ((hg.idle.consistent.free hnone).opened hg.unanswered) hcan with
      herror | ⟨ha, hworking⟩
    · exact Or.inl herror
    · exact Or.inr ⟨(), ha, hworking⟩
  · have hconsistent := hg.idle.consistent
    unfold Consistent at hconsistent
    rw [hsome] at hconsistent
    exact beginCreate_vacant hconsistent.2 hcan
  · subst ha
    exact howner
  · subst ha
    exact howner.trans (if_pos rfl)

/-- An operation of the loop that works on `id` after which it still does. -/
theorem respects_works {taken' : Option RuntimeHandle} (hg : Works id loop taken g)
    (hg' : Works id loop taken' g') : Respects id loop.other g g' := by
  refine respects_owned hg.owner ?_ hg'.consistent (fun _ => ?_)
  · rw [hg'.owner]
    exact fun h => loop.ne_other (Option.some.inj h).symm
  · rw [hg'.working.unanswered, hg.working.unanswered]

/-- An operation by which the loop gives `id` back. -/
theorem respects_opened (hg : Works id loop taken g) (hnone : g'.owner = none)
    (hopened : Opened id g'.memory) : Respects id loop.other g g' ∧ Idle id loop g' := by
  have hidle : Idle id loop g' := idle_opened hnone hopened
  refine ⟨respects_owned hg.owner (by simp [hnone]) hidle.consistent (fun _ => ?_), hidle⟩
  rw [hopened.unanswered, hg.working.unanswered]

theorem create_works {a : Except RuntimeError RuntimeHandle} (hg : Works id loop none g)
    (hact : Acts id loop (.create id config) g a g') :
    Respects id loop.other g g' ∧ ((∃ e, a = .error e ∧ Works id loop none g') ∨
      ∃ handle, a = .ok handle ∧ Works id loop (some handle) g') := by
  obtain ⟨hcan, howner, _⟩ := hact
  have hkeeps : g'.owner = some loop := howner.trans hg.owner
  rcases create_working hg.working hcan with ⟨e, ha, hmemory⟩ | ⟨handle, ha, hworking⟩
  · have hg' : Works id loop none g' := ⟨hkeeps, by rw [hmemory]; exact hg.working⟩
    exact ⟨respects_works hg hg', Or.inl ⟨e, ha, hg'⟩⟩
  · have hg' : Works id loop (some handle) g' := ⟨hkeeps, hworking⟩
    exact ⟨respects_works hg hg', Or.inr ⟨handle, ha, hg'⟩⟩

theorem stop_works {a : Except RuntimeError Unit} (hg : Works id loop (some h) g)
    (hact : Acts id loop (.stop h) g a g') :
    Respects id loop.other g g' ∧ Works id loop none g' := by
  have hg' : Works id loop none g' := ⟨hact.2.1.trans hg.owner, stop_working hg.working hact.1⟩
  exact ⟨respects_works hg hg', hg'⟩

theorem completeCreate_works {a : Except RuntimeError Unit} (hg : Works id loop (some h) g)
    (hact : Acts id loop (.completeCreate id h) g a g') :
    Respects id loop.other g g' ∧ a = .ok () ∧ Idle id loop g' := by
  obtain ⟨ha, hopened⟩ := completeCreate_working hg.working hact.1
  obtain ⟨hrespects, hidle⟩ := respects_opened hg (hact.2.1.trans (if_pos rfl)) hopened
  exact ⟨hrespects, ha, hidle⟩

theorem markFailed_works {a : Except RuntimeError Unit} (hg : Works id loop none g)
    (hact : Acts id loop (.markFailed id .notCreated) g a g') :
    Respects id loop.other g g' ∧ Idle id loop g' :=
  respects_opened hg (hact.2.1.trans (if_pos rfl)) (markFailed_working hg.working hact.1)

theorem completeStop_works {a : Except RuntimeError Unit} (hg : Works id .dispatch none g)
    (hact : Acts id .dispatch (.completeStop id) g a g') :
    Respects id .check g g' ∧ a = .ok () ∧ Gone id g' := by
  obtain ⟨ha, hopened, habsent⟩ := completeStop_working hg.working hact.1
  have hgone : Gone id g' := ⟨hact.2.1.trans hg.owner, hopened, habsent⟩
  refine ⟨respects_owned hg.owner ?_ hgone.consistent (fun h => by contradiction), ha, hgone⟩
  rw [hgone.owner]
  simp [Loop.other]

theorem sendStopped_gone {req : String} {a : Unit} (hg : Gone id g)
    (hact : Acts id .dispatch (.send ⟨req, .runtimeStateChanged id .stopped⟩) g a g') :
    Respects id .check g g' ∧ Idle id .dispatch g' := by
  obtain ⟨hcan, howner, _⟩ := hact
  have hnone : g'.owner = none := howner.trans (if_pos rfl)
  have hsettled : Settled id g'.memory := sendStopped_settled hg.opened hg.absent hcan
  have hconsistent : Consistent id g' := consistent_settled hnone hsettled
  refine ⟨respects_owned hg.owner (by simp [hnone]) hconsistent (fun h => by contradiction), ?_⟩
  exact ⟨hconsistent, by simp [hnone]⟩

theorem spent_ready {m : Memory} (h : spent id m = true) : Ready id m := by
  intro entry hentry
  unfold spent at h
  rw [hentry, Option.all_some, Bool.and_eq_true] at h
  exact h.1

theorem spent_stored {m : Memory} (h : spent id m = true) :
    ∀ x, stored id m = some x → x ∈ m.stopped := by
  intro x hx
  obtain ⟨entry, hentry, hhandle⟩ := Option.bind_eq_some_iff.mp hx
  unfold spent at h
  rw [hentry, Option.all_some, Bool.and_eq_true, hhandle, Option.all_some, decide_eq_true_iff] at h
  exact h.2

/-- Marking a runtime Failed that nothing works on and whose handle has been stopped. -/
theorem markFailed_idle {a : Except RuntimeError Unit} (hg : Idle id .check g)
    (hact : Acts id .check (.markFailed id .unhealthy) g a g') :
    Respects id .dispatch g g' ∧ Idle id .check g' := by
  obtain ⟨hcan, howner, hspent⟩ := hact
  have howner' : g'.owner = g.owner := howner
  have hlog := can_log hcan (by simp)
  cases hcases : g.owner with
  | none =>
    have hnone : g'.owner = none := howner'.trans hcases
    have hsettled : Settled id g'.memory :=
      markFailed_settled (hg.consistent.free hcases) (spent_stored (hspent rfl rfl)) hcan
    have hconsistent : Consistent id g' := consistent_settled hnone hsettled
    refine ⟨⟨fun _ => hconsistent, fun hmine => ?_, fun _ => by simp [hnone], fun _ => ?_⟩,
      hconsistent, by simp [hnone]⟩
    · rw [hcases] at hmine
      contradiction
    · rw [hlog]
  | some l =>
    have habsent : g.memory.registry.get id = none := by
      cases hentry : g.memory.registry.get id with
      | none => rfl
      | some entry =>
        have hclosed := (hg.consistent.taken hcases).2 entry hentry
        rw [spent_ready (hspent rfl rfl) entry hentry] at hclosed
        contradiction
    have hsame : Same id g.memory g'.memory := by
      rw [markFailed_absent habsent hcan]
      exact Same.refl id g.memory
    refine ⟨respects_same _ howner' hsame, hg.consistent.same howner' hsame, ?_⟩
    rw [howner']
    exact hg.other

end Steps

end October.TaskOwnership
