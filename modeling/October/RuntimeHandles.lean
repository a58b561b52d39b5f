import October.OneInstance

/-!
No handle is leaked when commands and health checks run one after another. Nothing works
on an id between two of them, so a handle that was created is stored or stopped. The one
way to lose a handle is the mark that follows an unhealthy answer: it drops the handle
from the entry, and the restart after it finds none to stop.
-/
namespace October.RuntimeHandles

open Await Executor RuntimeOwnership TaskOwnership OneInstance

def handleStopped (id : String) (m : Memory) : Bool :=
  (stored id m).all (fun h => decide (h ∈ m.stopped))

def oneAtATime (s : Executor) : ExecutorLabel → Bool
  | .receive _ => s.checking.isDone
  | .tick => s.dispatching.isDone
  | _ => true

/-- One after another, and a mark after an unhealthy answer drops only a stopped handle. -/
def DropsStopped (s : Executor) (l : ExecutorLabel) : Prop :=
  oneAtATime s l = true ∧ (marking s l).all (fun id => handleStopped id s.memory) = true

instance (s : Executor) (l : ExecutorLabel) : Decidable (DropsStopped s l) :=
  inferInstanceAs (Decidable (_ ∧ _))

structure Sequential (s : Executor) : Prop where
  inv : ∀ id, Inv id s
  alone : s.dispatching.isDone = true ∨ s.checking.isDone = true

variable {s t : Executor} {l : ExecutorLabel} {maxRestarts : UInt32}

theorem marking_awaits {id : String} (h : marking s l = some id) :
    ∃ k, s.checking = .call (.markFailed id .unhealthy) k := by
  cases l with
  | check choice =>
    unfold marking at h
    cases hchecking : s.checking with
    | done a =>
      rw [hchecking] at h
      contradiction
    | call o k =>
      rw [hchecking] at h
      cases o with
      | markFailed other cause =>
        cases cause with
        | unhealthy =>
          cases Option.some.inj h
          exact ⟨k, rfl⟩
        | notCreated => contradiction
      | _ => contradiction
  | _ => contradiction

/-- An id that neither loop works on. -/
theorem owner_free {owner : Option Loop} (hdispatch : owner ≠ some .dispatch)
    (hcheck : owner ≠ some .check) : owner = none := by
  cases owner with
  | none => rfl
  | some l =>
    cases l with
    | dispatch => contradiction
    | check => contradiction

/-- While the dispatch loop is idle, what a health check marks is worked on by nothing. -/
theorem Sequential.marksSpent (hs : Sequential s) (hguard : DropsStopped s l) (id : String) :
    MarksSpent id s l := by
  intro hmarking
  obtain ⟨k, hchecking⟩ := marking_awaits hmarking
  have hstopped : handleStopped id s.memory = true := by
    have hall := hguard.2
    rwa [hmarking] at hall
  have hdispatch : s.dispatching.isDone = true := by
    rcases hs.alone with hdone | hdone
    · exact hdone
    · rw [hchecking] at hdone
      contradiction
  obtain ⟨owner, howned⟩ := hs.inv id
  have hsafe := howned.checking
  rw [hchecking] at hsafe
  have hcheck : owner ≠ some .check := (hsafe.during (contract_preorder id .check)).marking rfl
  have hfree : owner = none := owner_free (howned.dispatch_idle hdispatch).other hcheck
  have hsettled : Settled id s.memory := howned.consistent.free hfree
  unfold spent
  cases hentry : s.memory.registry.get id with
  | none => rfl
  | some entry =>
    rw [Option.all_some, hsettled.ready entry hentry, Bool.true_and]
    unfold handleStopped stored at hstopped
    rwa [hentry] at hstopped

theorem Sequential.step (hs : Sequential s) (hguard : DropsStopped s l)
    (hstep : next maxRestarts s l = some t) : Sequential t := by
  refine ⟨fun id => (hs.inv id).step (hs.marksSpent hguard id) hstep, ?_⟩
  cases l with
  | receive msg =>
    obtain ⟨_, heq⟩ := Option.ite_none_right_eq_some.mp hstep
    cases Option.some.inj heq
    exact Or.inr hguard.1
  | tick =>
    obtain ⟨_, heq⟩ := Option.ite_none_right_eq_some.mp hstep
    cases Option.some.inj heq
    exact Or.inl hguard.1
  | dispatch choice =>
    obtain ⟨r, htask, heq⟩ := Option.map_eq_some_iff.mp hstep
    cases heq
    rcases hs.alone with hdone | hdone
    · rw [eq_done hdone] at htask
      contradiction
    · exact Or.inr hdone
  | check choice =>
    obtain ⟨r, htask, heq⟩ := Option.map_eq_some_iff.mp hstep
    cases heq
    rcases hs.alone with hdone | hdone
    · exact Or.inl hdone
    · rw [eq_done hdone] at htask
      contradiction

theorem init_sequential : Sequential init :=
  ⟨fun id => ⟨none, init_owned id⟩, Or.inl rfl⟩

/-- Whatever the provider and the handles answer, whenever nothing is in progress every
handle that was created is stored under its id or has been stopped. -/
theorem handle_accounted (maxRestarts : UInt32) (s : Executor)
    (hrun : Machine.Run (next maxRestarts) DropsStopped init s)
    (hidle : s.dispatching.isDone = true ∧ s.checking.isDone = true) (id : String)
    (h : RuntimeHandle) (hcreated : (id, h) ∈ s.memory.created) :
    stored id s.memory = some h ∨ h ∈ s.memory.stopped := by
  have hs : Sequential s := hrun.invariant Sequential
    (fun _ _ _ hinv hguard hstep => hinv.step hguard hstep) init_sequential
  obtain ⟨owner, howned⟩ := hs.inv id
  have hfree : owner = none :=
    owner_free (howned.dispatch_idle hidle.1).other (howned.check_idle hidle.2).other
  have hsettled : Settled id s.memory := howned.consistent.free hfree
  rcases hsettled.held h hcreated with hstored | hstopped | htaken
  · exact Or.inl hstored
  · exact Or.inr hstopped
  · contradiction

def restarted : List ExecutorLabel :=
  [.receive ⟨"1", .createRuntime "rt" ⟨"/work"⟩⟩, .dispatch (.sent true), .dispatch .proceed,
    .dispatch (.created (.ok 0)), .dispatch .proceed, .dispatch (.sent true), .tick,
    .check (.handles [("rt", 0)]), .check (.checked (.ok .healthy)),
    .receive ⟨"2", .restartRuntime "rt"⟩, .dispatch .proceed, .dispatch .proceed,
    .dispatch (.sent true), .dispatch (.stopped (.ok ())), .dispatch (.created (.ok 1)),
    .dispatch .proceed, .dispatch (.sent true)]

theorem restarted_accounted :
    stored "rt" (Machine.final (next 3) DropsStopped init restarted).memory = some 0 ∨
      0 ∈ (Machine.final (next 3) DropsStopped init restarted).memory.stopped :=
  handle_accounted 3 _ (Machine.run_final restarted (by decide +kernel)) (by decide +kernel) "rt" 0
    (by decide +kernel)

def revived : List ExecutorLabel :=
  [.receive ⟨"1", .createRuntime "rt" ⟨"/work"⟩⟩, .dispatch (.sent true), .dispatch .proceed,
    .dispatch (.created (.ok 0)), .dispatch .proceed, .dispatch (.sent true), .tick,
    .check (.handles [("rt", 0)]), .check (.checked (.ok (.unhealthy "runtime disconnected"))),
    .check .proceed, .check (.drawn "u"), .check (.sent true), .check .proceed, .check .proceed,
    .check .proceed, .check (.sent true), .check (.created (.ok 1)), .check .proceed,
    .check (.sent true)]

def OneAtATime (s : Executor) (l : ExecutorLabel) : Prop := oneAtATime s l = true

instance (s : Executor) (l : ExecutorLabel) : Decidable (OneAtATime s l) :=
  inferInstanceAs (Decidable (_ = true))

theorem handle_leaked :
    ¬ ∀ (maxRestarts : UInt32) (s : Executor),
      Machine.Run (next maxRestarts) OneAtATime init s →
        s.dispatching.isDone = true ∧ s.checking.isDone = true →
          ∀ (id : String) (h : RuntimeHandle), (id, h) ∈ s.memory.created →
            stored id s.memory = some h ∨ h ∈ s.memory.stopped := by
  intro h
  have hleak := h 3 _ (Machine.run_final revived (by decide +kernel)) (by decide +kernel) "rt" 0
    (by decide +kernel)
  have hnot : ¬ (stored "rt" (Machine.final (next 3) OneAtATime init revived).memory = some 0 ∨
      0 ∈ (Machine.final (next 3) OneAtATime init revived).memory.stopped) := by
    decide +kernel
  exact hnot hleak

end October.RuntimeHandles
