import Mathlib.Logic.Basic

/-!
Programs that await one operation after another over a shared memory. Others may
change the memory between two operations, never within one, so each operation is an
atomic step and the await points are the only places where programs interleave. A
program is safe under a contract: what it may assume of the others' changes, what it
grants them, and what holds while it awaits.
-/
namespace Await

/-- A program over operations with typed answers; `call o k` is about to perform `o`. -/
inductive Prog (Op : Type) (Ans : Op → Type) (α : Type) where
  | done (a : α)
  | call (o : Op) (k : Ans o → Prog Op Ans α)

variable {Op : Type} {Ans : Op → Type} {α β : Type}

namespace Prog

def bind : Prog Op Ans α → (α → Prog Op Ans β) → Prog Op Ans β
  | .done a, f => f a
  | .call o k, f => .call o (fun a => (k a).bind f)

instance : Monad (Prog Op Ans) where
  pure := .done
  bind := bind

def perform (o : Op) : Prog Op Ans (Ans o) := .call o .done

def awaits : Prog Op Ans α → Option Op
  | .done _ => none
  | .call o _ => some o

def isDone : Prog Op Ans α → Bool
  | .done _ => true
  | .call _ _ => false

@[simp] theorem pure_eq (a : α) : (pure a : Prog Op Ans α) = .done a := rfl

@[simp] theorem done_bind (a : α) (f : α → Prog Op Ans β) : (.done a >>= f) = f a := rfl

@[simp] theorem call_bind (o : Op) (k : Ans o → Prog Op Ans α) (f : α → Prog Op Ans β) :
    (.call o k >>= f) = .call o (fun a => k a >>= f) := rfl

@[simp] theorem perform_bind (o : Op) (f : Ans o → Prog Op Ans β) :
    (perform o >>= f) = .call o f := rfl

end Prog

abbrev Semantics (Op : Type) (Ans : Op → Type) (Mem : Type) :=
  (o : Op) → Mem → Ans o → Mem → Prop

/-- What a program relies on, what it guarantees and what holds while it awaits. -/
structure Contract (Op Mem : Type) where
  rely : Mem → Mem → Prop
  guarantee : Mem → Mem → Prop
  during : Op → Mem → Prop

variable {Mem : Type}

/-- Under any changes relied on, every step keeps the guarantee, `during` holds at each
await and `post` at the end. -/
def Safe (can : Semantics Op Ans Mem) (c : Contract Op Mem) (post : α → Mem → Prop) :
    Prog Op Ans α → Mem → Prop
  | .done a, m => ∀ m', c.rely m m' → post a m'
  | .call o k, m => ∀ m', c.rely m m' → c.during o m' ∧
      ∀ a m'', can o m' a m'' → c.guarantee m' m'' ∧ Safe can c post (k a) m''

structure Contract.Preorder (c : Contract Op Mem) : Prop where
  refl : ∀ m, c.rely m m
  trans : ∀ m m' m'', c.rely m m' → c.rely m' m'' → c.rely m m''

section Rules

variable {can : Semantics Op Ans Mem} {c : Contract Op Mem} {post : α → Mem → Prop}

/-- A safe program stays safe whatever the others do. -/
theorem Safe.stable (hc : c.Preorder) {p : Prog Op Ans α} {m m' : Mem}
    (h : Safe can c post p m) (hrely : c.rely m m') : Safe can c post p m' := by
  cases p with
  | done a => exact fun m'' h' => h m'' (hc.trans _ _ _ hrely h')
  | call o k => exact fun m'' h' => h m'' (hc.trans _ _ _ hrely h')

theorem Safe.during (hc : c.Preorder) {o : Op} {k : Ans o → Prog Op Ans α} {m : Mem}
    (h : Safe can c post (.call o k) m) : c.during o m := (h m (hc.refl m)).1

/-- One step of a safe program. -/
theorem Safe.step (hc : c.Preorder) {o : Op} {k : Ans o → Prog Op Ans α} {m m' : Mem}
    {a : Ans o} (h : Safe can c post (.call o k) m) (hstep : can o m a m') :
    c.guarantee m m' ∧ Safe can c post (k a) m' := (h m (hc.refl m)).2 a m' hstep

theorem Safe.done (hc : c.Preorder) {a : α} {m : Mem} (h : Safe can c post (.done a) m) :
    post a m := h m (hc.refl m)

/-- Programs compose at a condition that what others do keeps. -/
theorem Safe.bind (hc : c.Preorder) {post' : β → Mem → Prop} {p : Prog Op Ans α}
    {f : α → Prog Op Ans β} {m : Mem} (h : Safe can c post p m)
    (hf : ∀ a m', post a m' → Safe can c post' (f a) m') : Safe can c post' (p >>= f) m := by
  induction p generalizing m with
  | done a => exact hf a m (h.done hc)
  | call o k ih =>
    intro m' hrely
    obtain ⟨hduring, hstep⟩ := h m' hrely
    refine ⟨hduring, fun a m'' hcan => ?_⟩
    obtain ⟨hguar, hrest⟩ := hstep a m'' hcan
    exact ⟨hguar, ih a hrest⟩

/-- A condition that the others keep is one to start the next operation from. -/
theorem Safe.call {o : Op} {k : Ans o → Prog Op Ans α} {m : Mem} {pre : Mem → Prop}
    (hpre : pre m) (hstable : ∀ m m', c.rely m m' → pre m → pre m')
    (hduring : ∀ m', pre m' → c.during o m')
    (hstep : ∀ m' a m'', pre m' → can o m' a m'' →
      c.guarantee m' m'' ∧ Safe can c post (k a) m'') : Safe can c post (.call o k) m := by
  intro m' hrely
  have hpre' := hstable m m' hrely hpre
  exact ⟨hduring m' hpre', fun a m'' hcan => hstep m' a m'' hpre' hcan⟩

theorem Safe.ret {a : α} {m : Mem} {pre : Mem → Prop} (hpre : pre m)
    (hstable : ∀ m m', c.rely m m' → pre m → pre m') (hpost : ∀ m', pre m' → post a m') :
    Safe can c post (.done a) m := fun m' hrely => hpost m' (hstable m m' hrely hpre)

/-- A program that is safe for two ends is safe for both. -/
theorem Safe.and {post' : α → Mem → Prop} {p : Prog Op Ans α} {m : Mem}
    (h : Safe can c post p m) (h' : Safe can c post' p m) :
    Safe can c (fun a m => post a m ∧ post' a m) p m := by
  induction p generalizing m with
  | done a => exact fun m' hrely => ⟨h m' hrely, h' m' hrely⟩
  | call o k ih =>
    intro m' hrely
    obtain ⟨hduring, hstep⟩ := h m' hrely
    refine ⟨hduring, fun a m'' hcan => ?_⟩
    obtain ⟨hguar, hrest⟩ := hstep a m'' hcan
    exact ⟨hguar, ih a hrest (((h' m' hrely).2 a m'' hcan).2)⟩

def Prog.Only (ok : Op → Prop) : Prog Op Ans α → Prop
  | .done _ => True
  | .call o k => ok o ∧ ∀ a, (k a).Only ok

theorem Prog.Only.bind {ok : Op → Prop} {p : Prog Op Ans α} {f : α → Prog Op Ans β}
    (hp : p.Only ok) (hf : ∀ a, (f a).Only ok) : (p >>= f).Only ok := by
  induction p with
  | done a => exact hf a
  | call o k ih => exact ⟨hp.1, fun a => ih a (hp.2 a)⟩

theorem Prog.Only.mono {ok ok' : Op → Prop} {p : Prog Op Ans α} (hp : p.Only ok)
    (h : ∀ o, ok o → ok' o) : p.Only ok' := by
  induction p with
  | done a => exact trivial
  | call o k ih => exact ⟨h o hp.1, fun a => ih a (hp.2 a)⟩

/-- The program can come to perform `o`. -/
inductive Prog.Reaches (o : Op) : Prog Op Ans α → Prop
  | now {k : Ans o → Prog Op Ans α} : Reaches o (.call o k)
  | later {o' : Op} {k : Ans o' → Prog Op Ans α} (a : Ans o') :
      Reaches o (k a) → Reaches o (.call o' k)

theorem Prog.Only.reaches {ok : Op → Prop} {p : Prog Op Ans α} {o : Op} (hp : p.Only ok)
    (h : p.Reaches o) : ok o := by
  induction h with
  | now => exact hp.1
  | later a _ ih => exact ih (hp.2 a)

inductive Prog.Gives : Prog Op Ans α → α → Prop
  | done (a : α) : Gives (.done a) a
  | call {o : Op} {k : Ans o → Prog Op Ans α} {b : α} (a : Ans o) :
      Gives (k a) b → Gives (.call o k) b

theorem Prog.Gives.bind_inv {p : Prog Op Ans α} {f : α → Prog Op Ans β} {b : β}
    (h : (p >>= f).Gives b) : ∃ a, p.Gives a ∧ (f a).Gives b := by
  induction p with
  | done a => exact ⟨a, .done a, h⟩
  | call o k ih =>
    cases h with
    | call a h =>
      obtain ⟨c, hp, hf⟩ := ih a h
      exact ⟨c, .call a hp, hf⟩

inductive Prog.Within : Prog Op Ans α → Nat → Prop
  | done (a : α) (n : Nat) : Within (.done a) n
  | call {o : Op} {k : Ans o → Prog Op Ans α} {n : Nat} :
      (∀ a, Within (k a) n) → Within (.call o k) (n + 1)

theorem Prog.Within.mono {p : Prog Op Ans α} {m n : Nat} (h : p.Within m) (hle : m ≤ n) :
    p.Within n := by
  induction h generalizing n with
  | done a => exact .done a n
  | call _ ih =>
    obtain ⟨n, rfl⟩ := Nat.exists_eq_add_of_lt hle
    exact .call (fun a => ih a (Nat.le_add_right _ _))

theorem Prog.Within.bind {p : Prog Op Ans α} {f : α → Prog Op Ans β} {m n : Nat} (h : p.Within m)
    (hf : ∀ a, (f a).Within n) : (p >>= f).Within (m + n) := by
  induction h with
  | done a m => exact (hf a).mono (Nat.le_add_left n m)
  | call _ ih =>
    rw [Nat.succ_add]
    exact .call ih

/-- A program of operations that keep a condition keeps it. -/
theorem Prog.Only.safe {ok : Op → Prop} {pre : Mem → Prop}
    (hstable : ∀ m m', c.rely m m' → pre m → pre m')
    (hduring : ∀ o m, ok o → pre m → c.during o m)
    (hstep : ∀ o m a m', ok o → pre m → can o m a m' → c.guarantee m m' ∧ pre m')
    {p : Prog Op Ans α} {m : Mem} (hp : p.Only ok) (hpre : pre m) :
    Safe can c (fun _ => pre) p m := by
  induction p generalizing m with
  | done a => exact fun m' hrely => hstable m m' hrely hpre
  | call o k ih =>
    intro m' hrely
    have hpre' := hstable m m' hrely hpre
    refine ⟨hduring o m' hp.1 hpre', fun a m'' hcan => ?_⟩
    obtain ⟨hguar, hpost⟩ := hstep o m' a m'' hp.1 hpre' hcan
    exact ⟨hguar, ih a (hp.2 a) hpost⟩

end Rules

section Alone

def Contract.alone : Contract Op Mem where
  rely := Eq
  guarantee _ _ := True
  during _ _ := True

variable {can : Semantics Op Ans Mem} {post : α → Mem → Prop} {m : Mem}

theorem alone_preorder : (Contract.alone : Contract Op Mem).Preorder :=
  ⟨fun _ => rfl, fun _ _ _ => Eq.trans⟩

theorem Safe.alone_done {a : α} (h : post a m) : Safe can Contract.alone post (.done a) m := by
  intro m' hm
  cases hm
  exact h

theorem Safe.alone_call {o : Op} {k : Ans o → Prog Op Ans α}
    (h : ∀ a m', can o m a m' → Safe can Contract.alone post (k a) m') :
    Safe can Contract.alone post (.call o k) m := by
  intro m' hm
  cases hm
  exact ⟨trivial, fun a m' hcan => ⟨trivial, h a m' hcan⟩⟩

/-- A program alone, of operations that keep a condition, keeps it. -/
theorem Prog.Only.alone {ok : Op → Prop} {pre : Mem → Prop}
    (hstep : ∀ o m a m', ok o → pre m → can o m a m' → pre m') {p : Prog Op Ans α}
    (hp : p.Only ok) (hpre : pre m) : Safe can Contract.alone (fun _ => pre) p m :=
  hp.safe (fun _ _ heq h => heq ▸ h) (fun _ _ _ _ => trivial)
    (fun o m a m' hok h hcan => ⟨trivial, hstep o m a m' hok h hcan⟩) hpre

inductive Prog.Runs (can : Semantics Op Ans Mem) : Prog Op Ans α → Mem → α → Mem → Prop
  | done (a : α) (m : Mem) : Runs can (.done a) m a m
  | call {o : Op} {k : Ans o → Prog Op Ans α} {m m' m'' : Mem} {a : Ans o} {b : α} :
      can o m a m' → Runs can (k a) m' b m'' → Runs can (.call o k) m b m''

/-- What is safe alone ends as promised. -/
theorem Safe.runs {p : Prog Op Ans α} {a : α} {m' : Mem}
    (h : Safe can Contract.alone post p m) (hruns : p.Runs can m a m') : post a m' := by
  induction hruns with
  | done a m => exact h.done alone_preorder
  | call hcan _ ih => exact ih (h.step alone_preorder hcan).2

end Alone

end Await
