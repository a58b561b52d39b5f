import October.CommandOwnership
import October.Machine

/-!
One instance of a runtime at a time. The two loops interleave at every await, and the
invariant says who works on the id. It holds as long as a health check marks the id
Failed only when nothing works on it and its stored handle, if there is one, has been
stopped; `mark_failed` itself checks neither.
-/
namespace October.OneInstance

open Await Executor RuntimeOwnership TaskOwnership

def creating (id : String) (p : Program Unit) : Bool :=
  match p.awaits with
  | some (.create other _) => other == id
  | _ => false

def marking (s : Executor) : ExecutorLabel → Option String
  | .check _ =>
    match s.checking.awaits with
    | some (.markFailed id .unhealthy) => some id
    | _ => none
  | _ => none

def MarksSpent (id : String) (s : Executor) (l : ExecutorLabel) : Prop :=
  marking s l = some id → spent id s.memory = true

instance (id : String) (s : Executor) (l : ExecutorLabel) : Decidable (MarksSpent id s l) :=
  inferInstanceAs (Decidable (_ → _))

/-- What is true of `id` at every await, given the loop that works on it. -/
structure Owned (id : String) (s : Executor) (owner : Option Loop) : Prop where
  consistent : Consistent id ⟨s.memory, owner⟩
  dispatching : Safe (Acts id .dispatch) (contract id .dispatch) (fun _ => Idle id .dispatch)
    s.dispatching ⟨s.memory, owner⟩
  checking : Safe (Acts id .check) (contract id .check) (fun _ => Idle id .check)
    s.checking ⟨s.memory, owner⟩

def Inv (id : String) (s : Executor) : Prop := ∃ owner, Owned id s owner

variable {id : String} {s t : Executor} {owner : Option Loop} {maxRestarts : UInt32}

theorem eq_done {p : Program Unit} (h : p.isDone = true) : p = .done () := by
  cases p with
  | done a => rfl
  | call o k => contradiction

theorem Owned.dispatch_idle (h : Owned id s owner) (hdone : s.dispatching.isDone = true) :
    Idle id .dispatch ⟨s.memory, owner⟩ := by
  have hsafe := h.dispatching
  rw [eq_done hdone] at hsafe
  exact hsafe.done (contract_preorder id .dispatch)

theorem Owned.check_idle (h : Owned id s owner) (hdone : s.checking.isDone = true) :
    Idle id .check ⟨s.memory, owner⟩ := by
  have hsafe := h.checking
  rw [eq_done hdone] at hsafe
  exact hsafe.done (contract_preorder id .check)

theorem init_owned (id : String) : Owned id init none := by
  have hsettled : Settled id Memory.init := by
    refine ⟨fun h hcreated => ?_, fun _ => rfl, fun entry hentry => ?_⟩
    · simp [Memory.init] at hcreated
    · contradiction
  have hconsistent : Consistent id ⟨Memory.init, none⟩ := hsettled
  exact ⟨hconsistent, safe_done (kept_idle id .dispatch) ⟨hconsistent, by simp⟩ (fun _ h => h),
    safe_done (kept_idle id .check) ⟨hconsistent, by simp⟩ (fun _ h => h)⟩

/-- A command of which `answered` keeps what it was. -/
theorem answered_received {log : List LinkEvent} {msg : ExecutorInboundMessage}
    (h : answered id (log ++ [.received msg]) = true) : answered id log = true := by
  rw [answered_append] at h
  obtain ⟨req, command⟩ := msg
  cases command with
  | createRuntime other config =>
    simp only [answeredStep] at h
    split at h
    · contradiction
    · exact h
  | _ => exact h

theorem answered_create {log : List LinkEvent} {msg : ExecutorInboundMessage}
    {config : RuntimeConfig} (h : msg.command = .createRuntime id config) :
    answered id (log ++ [.received msg]) = false := by
  rw [answered_append]
  obtain ⟨req, command⟩ := msg
  subst h
  simp [answeredStep]

/-- Receiving a command while the dispatch loop is idle. -/
theorem Owned.receive {msg : ExecutorInboundMessage} (h : Owned id s owner)
    (hdone : s.dispatching.isDone = true) :
    Owned id ⟨{ s.memory with log := s.memory.log ++ [.received msg] }, dispatch msg, s.checking⟩
      owner := by
  have hidle := h.dispatch_idle hdone
  have hstill : answered id s.memory.log = false →
      answered id (s.memory.log ++ [.received msg]) = false := by
    intro hfalse
    refine Bool.eq_false_iff.mpr (fun htrue => ?_)
    rw [answered_received htrue] at hfalse
    contradiction
  have hconsistent : Consistent id
      ⟨{ s.memory with log := s.memory.log ++ [.received msg] }, owner⟩ := by
    have hbefore := h.consistent
    unfold Consistent at hbefore ⊢
    cases owner with
    | none =>
      have hsettled : Settled id s.memory := hbefore
      exact ⟨hsettled.held, fun htrue => hsettled.absent (answered_received htrue),
        hsettled.ready⟩
    | some l =>
      cases l with
      | dispatch => exact absurd rfl hidle.other
      | check => exact ⟨hstill hbefore.1, hbefore.2⟩
  have hrespects : Respects id .check ⟨s.memory, owner⟩
      ⟨{ s.memory with log := s.memory.log ++ [.received msg] }, owner⟩ := by
    refine ⟨fun _ => hconsistent, fun hmine => ⟨hmine, rfl, fun _ => Iff.rfl, fun _ hx => hx, ?_⟩,
      fun hother => hother, fun hloop => by contradiction⟩
    have hfalse := (h.consistent.taken hmine).1
    exact (hstill hfalse).trans hfalse.symm
  have hidle' : Idle id .dispatch
      ⟨{ s.memory with log := s.memory.log ++ [.received msg] }, owner⟩ :=
    ⟨hconsistent, hidle.other⟩
  refine ⟨hconsistent, dispatch_safe hidle' (fun config hcommand => ?_),
    h.checking.stable (contract_preorder id .check) hrespects⟩
  exact ⟨hidle', answered_create hcommand⟩

theorem stepTask_cases {m m' : Memory} {choice : Choice} {p p' : Program Unit}
    (h : stepTask m choice p = some (p', m')) :
    ∃ o k a, p = .call o k ∧ Can o m a m' ∧ p' = k a := by
  cases p with
  | done a => contradiction
  | call o k =>
    obtain ⟨⟨a, m''⟩, hperform, heq⟩ := Option.map_eq_some_iff.mp h
    cases heq
    exact ⟨o, k, a, rfl, ⟨choice, hperform⟩, rfl⟩

theorem Owned.dispatch_step {m' : Memory} {choice : Choice} {p' : Program Unit}
    (h : Owned id s owner) (hstep : stepTask s.memory choice s.dispatching = some (p', m')) :
    Inv id { s with dispatching := p', memory := m' } := by
  obtain ⟨o, k, a, hcall, hcan, rfl⟩ := stepTask_cases hstep
  have hsafe := h.dispatching
  rw [hcall] at hsafe
  have hact : Acts id .dispatch o ⟨s.memory, owner⟩ a
      ⟨m', ownerAfter id .dispatch o a owner⟩ := ⟨hcan, rfl, fun h => by contradiction⟩
  obtain ⟨hrespects, hrest⟩ := hsafe.step (contract_preorder id .dispatch) hact
  exact ⟨_, hrespects.consistent h.consistent, hrest,
    h.checking.stable (contract_preorder id .check) hrespects⟩

theorem Owned.check_step {m' : Memory} {choice : Choice} {p' : Program Unit}
    (h : Owned id s owner) (hmarks : MarksSpent id s (.check choice))
    (hstep : stepTask s.memory choice s.checking = some (p', m')) :
    Inv id { s with checking := p', memory := m' } := by
  obtain ⟨o, k, a, hcall, hcan, rfl⟩ := stepTask_cases hstep
  have hsafe := h.checking
  rw [hcall] at hsafe
  have hact : Acts id .check o ⟨s.memory, owner⟩ a ⟨m', ownerAfter id .check o a owner⟩ := by
    refine ⟨hcan, rfl, fun _ ho => hmarks ?_⟩
    subst ho
    unfold marking
    rw [hcall]
    rfl
  obtain ⟨hrespects, hrest⟩ := hsafe.step (contract_preorder id .check) hact
  exact ⟨_, hrespects.consistent h.consistent,
    h.dispatching.stable (contract_preorder id .dispatch) hrespects, hrest⟩

/-- Every step that marks `id` only when it is spent keeps the invariant. -/
theorem Inv.step {l : ExecutorLabel} (h : Inv id s) (hmarks : MarksSpent id s l)
    (hstep : next maxRestarts s l = some t) : Inv id t := by
  obtain ⟨owner, hs⟩ := h
  cases l with
  | receive msg =>
    obtain ⟨hdone, heq⟩ := Option.ite_none_right_eq_some.mp hstep
    cases Option.some.inj heq
    exact ⟨owner, hs.receive hdone⟩
  | tick =>
    obtain ⟨hdone, heq⟩ := Option.ite_none_right_eq_some.mp hstep
    cases Option.some.inj heq
    exact ⟨owner, hs.consistent, hs.dispatching,
      runHealthCheck_safe maxRestarts (hs.check_idle hdone)⟩
  | dispatch choice =>
    obtain ⟨⟨p', m'⟩, htask, heq⟩ := Option.map_eq_some_iff.mp hstep
    cases heq
    exact hs.dispatch_step htask
  | check choice =>
    obtain ⟨⟨p', m'⟩, htask, heq⟩ := Option.map_eq_some_iff.mp hstep
    cases heq
    exact hs.check_step hmarks htask

theorem creating_owner {p : Program Unit} {l : Loop} {g : Ledger}
    (hsafe : Safe (Acts id l) (contract id l) (fun _ => Idle id l) p g)
    (hcreating : creating id p = true) : g.owner = some l := by
  cases p with
  | done a => contradiction
  | call o k =>
    have hduring : During id l o g := hsafe.during (contract_preorder id l)
    refine hduring.creating ?_
    cases o with
    | create other config =>
      have hother : other = id := beq_iff_eq.mp hcreating
      rw [hother]
      rfl
    | _ => contradiction

/-- In every interleaving of the two loops in which a health check marks the id Failed only
when it is spent, at most one create of the id is in flight, and an answered destroy leaves
no live handle. -/
theorem one_instance (maxRestarts : UInt32) (id : String) (s : Executor)
    (hrun : Machine.Run (next maxRestarts) (MarksSpent id) init s) :
    ¬ (creating id s.dispatching = true ∧ creating id s.checking = true) ∧
      (answered id s.memory.log = true → Clean id s.memory) := by
  obtain ⟨owner, hs⟩ := hrun.invariant (Inv id)
    (fun _ _ _ hinv hmarks hstep => hinv.step hmarks hstep) ⟨none, init_owned id⟩
  refine ⟨fun ⟨hdispatch, hcheck⟩ => ?_, hs.consistent.clean⟩
  have hfirst : owner = some .dispatch := creating_owner hs.dispatching hdispatch
  have hsecond : owner = some .check := creating_owner hs.checking hcheck
  rw [hfirst] at hsecond
  contradiction

def destroyedMeanwhile : List ExecutorLabel :=
  [.receive ⟨"1", .createRuntime "rt" ⟨"/work"⟩⟩, .dispatch (.sent true), .dispatch .proceed,
    .dispatch (.created (.ok 0)), .dispatch .proceed, .dispatch (.sent true), .tick,
    .check (.handles [("rt", 0)]), .receive ⟨"2", .destroyRuntime "rt"⟩, .dispatch .proceed,
    .dispatch (.sent true), .dispatch (.stopped (.ok ())), .dispatch .proceed,
    .dispatch (.sent true), .check (.checked (.ok (.unhealthy "gone"))), .check .proceed,
    .check (.drawn "u"), .check (.sent true), .check .proceed]

theorem destroyed_clean :
    answered "rt" (Machine.final (next 3) (MarksSpent "rt") init destroyedMeanwhile).memory.log =
        true ∧
      Clean "rt" (Machine.final (next 3) (MarksSpent "rt") init destroyedMeanwhile).memory := by
  have hanswered : answered "rt"
      (Machine.final (next 3) (MarksSpent "rt") init destroyedMeanwhile).memory.log = true := by
    decide +kernel
  refine ⟨hanswered, (one_instance 3 "rt" _ ?_).2 hanswered⟩
  exact Machine.run_final destroyedMeanwhile (by decide +kernel)

def restartedTwice : List ExecutorLabel :=
  [.receive ⟨"1", .createRuntime "rt" ⟨"/work"⟩⟩, .dispatch (.sent true), .dispatch .proceed,
    .dispatch (.created (.ok 0)), .dispatch .proceed, .dispatch (.sent true), .tick,
    .check (.handles [("rt", 0)]), .receive ⟨"2", .restartRuntime "rt"⟩, .dispatch .proceed,
    .dispatch .proceed, .dispatch (.sent true), .dispatch (.stopped (.ok ())),
    .check (.checked (.ok (.unhealthy "runtime disconnected"))), .check .proceed,
    .check (.drawn "u"), .check (.sent true), .check .proceed, .check .proceed, .check .proceed,
    .check (.sent true)]

theorem two_in_flight :
    ¬ ∀ (maxRestarts : UInt32) (id : String) (s : Executor),
      Machine.Run (next maxRestarts) Machine.free init s →
        ¬ (creating id s.dispatching = true ∧ creating id s.checking = true) ∧
          (answered id s.memory.log = true → Clean id s.memory) := by
  intro h
  have hrun : Machine.Run (next 3) Machine.free init
      (Machine.final (next 3) Machine.free init restartedTwice) :=
    Machine.run_final restartedTwice (by decide +kernel)
  exact (h 3 "rt" _ hrun).1 (by decide +kernel)

end October.OneInstance
