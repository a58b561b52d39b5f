import Mathlib.Data.List.DropRight

/-!
A bounded window of recent values. Pushing a value and dropping the oldest one when
there are too many keeps exactly the last values of the whole sequence, so a window
of equal values is a run of equal values at its end.
-/

namespace RecentWindow

variable {α : Type*}

def push (n : ℕ) (x : α) (recent : List α) : List α :=
  let pushed := recent ++ [x]
  if n < pushed.length then pushed.tail else pushed

/-- The window keeps the last `n` values of the sequence. -/
theorem push_rtake (n : ℕ) (x : α) (xs : List α) :
    push n x (xs.rtake n) = (xs ++ [x]).rtake n := by
  simp only [push, List.rtake, List.length_append, List.length_drop, List.length_singleton]
  by_cases hshort : xs.length < n
  · have hkept : ¬ n < xs.length - (xs.length - n) + 1 := by omega
    have hall : xs.length - n = 0 := by omega
    have hall' : xs.length + 1 - n = 0 := by omega
    rw [if_neg hkept, hall, hall', List.drop_zero, List.drop_zero]
  · have hdropped : n < xs.length - (xs.length - n) + 1 := by omega
    have hnext : xs.length + 1 - n = xs.length - n + 1 := by omega
    rw [if_pos hdropped, hnext, ← List.drop_drop, List.drop_one,
      List.drop_append_of_le_length (Nat.sub_le _ _)]

theorem length_rtake (n : ℕ) (xs : List α) : (xs.rtake n).length = min n xs.length := by
  simp only [List.rtake, List.length_drop]
  omega

/-- A window as long as its bound and of one value is a run of that value. -/
theorem replicate_suffix_iff (n : ℕ) (x : α) (xs : List α) :
    List.replicate n x <:+ xs ↔ n ≤ (xs.rtake n).length ∧ ∀ y ∈ xs.rtake n, y = x := by
  rw [List.suffix_iff_eq_drop, List.length_replicate, length_rtake]
  constructor
  · intro h
    have hlength := congrArg List.length h
    rw [List.length_replicate, List.length_drop] at hlength
    refine ⟨by omega, fun y hy => ?_⟩
    rw [List.rtake, ← h] at hy
    exact List.eq_of_mem_replicate hy
  · rintro ⟨hlong, hall⟩
    have hlength : (xs.drop (xs.length - n)).length = n := by
      rw [List.length_drop]
      omega
    exact (List.eq_replicate_iff.mpr ⟨hlength, hall⟩).symm

/-- A run at the end contains the shorter runs. -/
theorem replicate_suffix_of_le {m n : ℕ} (hmn : m ≤ n) (x : α) {xs : List α}
    (h : List.replicate n x <:+ xs) : List.replicate m x <:+ xs := by
  refine List.IsSuffix.trans ⟨List.replicate (n - m) x, ?_⟩ h
  rw [← List.replicate_add, Nat.sub_add_cancel hmn]

/-- A nonempty run at the end is of the last value. -/
theorem eq_of_replicate_suffix {n : ℕ} (hn : 0 < n) {x y : α} {xs : List α}
    (h : List.replicate n x <:+ xs ++ [y]) : x = y := by
  have hlast : List.replicate 1 x <:+ xs ++ [y] := replicate_suffix_of_le hn x h
  simpa using List.suffix_iff_eq_drop.mp hlast

end RecentWindow
