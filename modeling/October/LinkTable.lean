import Mathlib.Logic.Basic

/-!
A table of links that are entered under a key and taken out again, with the link entered
last under each key. The table is fresh if a key whose last link is open finds that link.
Entering, withdrawing and closing keep it fresh; a key is taken out for a link that has
ended without harm exactly if the last link of the key has ended too.
-/
namespace LinkTable

/-- The links by key, the one entered last that was not withdrawn, and which have ended. -/
structure Table (Key Link : Type) where
  entry : Key → Option Link
  latest : Key → Option Link
  ended : Link → Prop

variable {Key Link : Type}

def Table.Fresh (t : Table Key Link) : Prop :=
  ∀ k c, t.latest k = some c → ¬ t.ended c → t.entry k = some c

structure Table.Frame (t t' : Table Key Link) (k : Key) : Prop where
  entry : ∀ k', k' ≠ k → t'.entry k' = t.entry k'
  latest : ∀ k', k' ≠ k → t'.latest k' = t.latest k'
  ended : ∀ c, t.ended c → t'.ended c

variable {t t' : Table Key Link} {k : Key} {c : Link}

/-- What holds at every other key holds by the frame. -/
theorem Table.Fresh.frame (h : t.Fresh) (hframe : t.Frame t' k)
    (hk : ∀ c, t'.latest k = some c → ¬ t'.ended c → t'.entry k = some c) : t'.Fresh := by
  intro k' c hlatest hopen
  by_cases hk' : k' = k
  · subst hk'
    exact hk c hlatest hopen
  · rw [hframe.latest k' hk'] at hlatest
    rw [hframe.entry k' hk']
    exact h k' c hlatest (fun hended => hopen (hframe.ended c hended))

theorem Table.Fresh.enter (h : t.Fresh) (c : Link) (hframe : t.Frame t' k)
    (hentry : t'.entry k = some c) (hlatest : t'.latest k = some c) : t'.Fresh := by
  refine h.frame hframe (fun c' hc' _ => ?_)
  rw [hentry, ← hlatest, hc']

theorem Table.Fresh.withdraw (h : t.Fresh) (hframe : t.Frame t' k)
    (hlatest : t'.latest k = none) : t'.Fresh := by
  refine h.frame hframe (fun c' hc' _ => ?_)
  rw [hlatest] at hc'
  contradiction

theorem Table.Fresh.close (h : t.Fresh) (hentry : t'.entry = t.entry)
    (hlatest : t'.latest = t.latest) (hended : ∀ c, t.ended c → t'.ended c) : t'.Fresh := by
  intro k c hc hopen
  rw [hlatest] at hc
  rw [hentry]
  exact h k c hc (fun hc' => hopen (hended c hc'))

/-- Taking a key out is harmless exactly if its last link has ended. -/
theorem Table.Fresh.evict_iff (h : t.Fresh) (hframe : t.Frame t' k) (hentry : t'.entry k = none)
    (hlatest : t'.latest k = t.latest k) (hended : ∀ c, t'.ended c ↔ t.ended c) :
    t'.Fresh ↔ ∀ c, t.latest k = some c → t.ended c := by
  refine ⟨fun hfresh c hc => ?_, fun hall => h.frame hframe (fun c hc hopen => ?_)⟩
  · refine Classical.byContradiction (fun hopen => ?_)
    have hfound := hfresh k c (hlatest.trans hc) (fun hc' => hopen ((hended c).mp hc'))
    rw [hentry] at hfound
    contradiction
  · exact absurd ((hended c).mpr (hall c (hlatest ▸ hc))) hopen

end LinkTable
