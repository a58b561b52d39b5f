import Mathlib.Data.List.Basic

/-!
Guarded runs of a labelled machine. The machine is a partial function from a
state and a label to the next state, so all nondeterminism sits in the labels.
A guard restricts the steps a run may take; invariants are proved once per step
and carried along a run of any length.
-/
namespace Machine

variable {State Label : Type*}

/-- Runs of `next` in which every step taken meets the guard `ok`. -/
inductive Run (next : State → Label → Option State) (ok : State → Label → Prop) :
    State → State → Prop
  | refl (s : State) : Run next ok s s
  | tail {s t u : State} {l : Label} :
      Run next ok s t → ok t l → next t l = some u → Run next ok s u

def free : State → Label → Prop := fun _ _ => True

instance (s : State) (l : Label) : Decidable (free s l) := isTrue trivial

variable {next : State → Label → Option State} {ok ok' : State → Label → Prop}

theorem Run.head {s t u : State} {l : Label} (hok : ok s l) (hstep : next s l = some t)
    (hrun : Run next ok t u) : Run next ok s u := by
  induction hrun with
  | refl => exact Run.tail (Run.refl _) hok hstep
  | tail _ hok' hstep' ih => exact Run.tail ih hok' hstep'

theorem Run.trans {s t u : State} (hrun : Run next ok s t) (hrun' : Run next ok t u) :
    Run next ok s u := by
  induction hrun' with
  | refl => exact hrun
  | tail _ hok hstep ih => exact Run.tail ih hok hstep

theorem Run.mono {s t : State} (hle : ∀ s l, ok s l → ok' s l)
    (hrun : Run next ok s t) : Run next ok' s t := by
  induction hrun with
  | refl => exact Run.refl _
  | tail _ hok hstep ih => exact Run.tail ih (hle _ _ hok) hstep

/-- A property that every guarded step keeps holds along every guarded run. -/
theorem Run.invariant {s t : State} (Inv : State → Prop)
    (hkeep : ∀ s l t, Inv s → ok s l → next s l = some t → Inv t)
    (hrun : Run next ok s t) (hs : Inv s) : Inv t := by
  induction hrun with
  | refl => exact hs
  | tail _ hok hstep ih => exact hkeep _ _ _ ih hok hstep

/-- A relation between the first and the last state of a run, kept by each step. -/
theorem Run.relation {s t : State} (Rel : State → State → Prop)
    (hrefl : ∀ s, Rel s s)
    (hkeep : ∀ s t l u, Rel s t → ok t l → next t l = some u → Rel s u)
    (hrun : Run next ok s t) : Rel s t := by
  induction hrun with
  | refl => exact hrefl _
  | tail _ hok hstep ih => exact hkeep _ _ _ _ ih hok hstep

def exec (next : State → Label → Option State) (ok : State → Label → Prop)
    [∀ s l, Decidable (ok s l)] : State → List Label → Option State
  | s, [] => some s
  | s, l :: ls => if ok s l then (next s l).bind (fun t => exec next ok t ls) else none

def final (next : State → Label → Option State) (ok : State → Label → Prop)
    [∀ s l, Decidable (ok s l)] (s : State) (ls : List Label) : State :=
  (exec next ok s ls).getD s

theorem exec_cons [∀ s l, Decidable (ok s l)] {s t : State} {l : Label} (ls : List Label)
    (hok : ok s l) (hstep : next s l = some t) : exec next ok s (l :: ls) = exec next ok t ls := by
  rw [exec, if_pos hok, hstep, Option.bind_some]

theorem run_of_exec [∀ s l, Decidable (ok s l)] {s t : State} (ls : List Label)
    (h : exec next ok s ls = some t) : Run next ok s t := by
  induction ls generalizing s with
  | nil =>
    cases Option.some.inj h
    exact Run.refl _
  | cons l ls ih =>
    simp only [exec] at h
    split at h
    · rename_i hok
      obtain ⟨u, hstep, hrest⟩ := Option.bind_eq_some_iff.mp h
      exact Run.head hok hstep (ih hrest)
    · contradiction

theorem run_final [∀ s l, Decidable (ok s l)] {s : State} (ls : List Label)
    (h : (exec next ok s ls).isSome = true) : Run next ok s (final next ok s ls) := by
  obtain ⟨t, ht⟩ := Option.isSome_iff_exists.mp h
  rw [final, ht]
  exact run_of_exec ls ht

/-- The machine together with all that its steps have shown so far. -/
def observed {Obs : Type*} (next : State → Label → Option State) (shows : State → Label → List Obs)
    (s : State × List Obs) (l : Label) : Option (State × List Obs) :=
  (next s.1 l).map (fun t => (t, s.2 ++ shows s.1 l))

theorem observed_step {Obs : Type*} {shows : State → Label → List Obs} {s t : State × List Obs}
    {l : Label} (h : observed next shows s l = some t) :
    next s.1 l = some t.1 ∧ t.2 = s.2 ++ shows s.1 l := by
  obtain ⟨u, hu, rfl⟩ := Option.map_eq_some_iff.mp h
  exact ⟨hu, rfl⟩

end Machine
