import Mathlib.Data.List.Basic
import Mathlib.Data.List.Forall2

/-!
Numbered logs that are compacted behind a snapshot. Items are numbered from one
in the order they were written and keep their number when older items are
dropped. A log represents a history when its items are a numbered suffix of it
and its snapshot covers a prefix that reaches at least to the dropped part; then
the items numbered above the snapshot are exactly the rest of the history.
-/
namespace StampedLog

variable {E B : Type*}

def stamp (k : ℕ) : List E → List (ℕ × E)
  | [] => []
  | x :: xs => (k + 1, x) :: stamp (k + 1) xs

theorem stamp_append (k : ℕ) (xs ys : List E) :
    stamp k (xs ++ ys) = stamp k xs ++ stamp (k + xs.length) ys := by
  induction xs generalizing k with
  | nil => simp [stamp]
  | cons x xs ih =>
    simp only [List.cons_append, stamp, ih, List.length_cons]
    rw [Nat.add_right_comm, Nat.add_assoc]

theorem map_snd_stamp (k : ℕ) (xs : List E) : (stamp k xs).map Prod.snd = xs := by
  induction xs generalizing k with
  | nil => rfl
  | cons x xs ih => simp [stamp, ih]

/-- Keeping the items numbered above `n` drops the first `n - k` of them. -/
theorem filter_stamp (n k : ℕ) (xs : List E) :
    (stamp k xs).filter (fun p => decide (n < p.1)) = stamp (max k n) (xs.drop (n - k)) := by
  induction xs generalizing k with
  | nil => simp [stamp]
  | cons x xs ih =>
    by_cases h : n < k + 1
    · have hsub : n - k = 0 := by omega
      have hsub' : n - (k + 1) = 0 := by omega
      have hmax : max k n = k := by omega
      have hmax' : max (k + 1) n = k + 1 := by omega
      simp [stamp, h, ih, hsub, hsub', hmax, hmax']
    · have hsub : n - k = n - (k + 1) + 1 := by omega
      have hmax : max (k + 1) n = max k n := by omega
      simp [stamp, h, ih, hsub, hmax]

/-- The log `events`, `lastSeq`, `snapshot` represents `history`: `dropped` items
were compacted away, and no snapshot means that none was. -/
structure Represents (covers : B → List E → Prop) (events : List (ℕ × E)) (lastSeq : ℕ)
    (snapshot : Option (B × ℕ)) (history : List E) (dropped : ℕ) : Prop where
  events_eq : events = stamp dropped (history.drop dropped)
  lastSeq_eq : lastSeq = history.length
  dropped_zero : snapshot = none → dropped = 0
  covered : ∀ b k, snapshot = some (b, k) →
    dropped ≤ k ∧ k ≤ history.length ∧ covers b (history.take k)

namespace Represents

variable {covers : B → List E → Prop} {events : List (ℕ × E)} {lastSeq dropped : ℕ}
variable {snapshot : Option (B × ℕ)} {history : List E}

theorem nil : Represents covers ([] : List (ℕ × E)) 0 (none : Option (B × ℕ)) [] 0 where
  events_eq := rfl
  lastSeq_eq := rfl
  dropped_zero _ := rfl
  covered b k h := by contradiction

theorem dropped_le (h : Represents covers events lastSeq snapshot history dropped) :
    dropped ≤ history.length := by
  cases hs : snapshot with
  | none =>
    have := h.dropped_zero hs
    omega
  | some p =>
    have := h.covered p.1 p.2 hs
    omega

/-- Items written next take the numbers after the last one. -/
theorem append (h : Represents covers events lastSeq snapshot history dropped) (xs : List E) :
    Represents covers (events ++ stamp lastSeq xs) (lastSeq + xs.length) snapshot
      (history ++ xs) dropped where
  events_eq := by
    have hle := h.dropped_le
    have hlen : dropped + (history.drop dropped).length = history.length := by
      simp only [List.length_drop]
      omega
    rw [h.events_eq, h.lastSeq_eq, List.drop_append_of_le_length hle, stamp_append, hlen]
  lastSeq_eq := by rw [h.lastSeq_eq, List.length_append]
  dropped_zero := h.dropped_zero
  covered b k hs := by
    obtain ⟨hd, hk, hc⟩ := h.covered b k hs
    refine ⟨hd, ?_, ?_⟩
    · rw [List.length_append]
      omega
    · rwa [List.take_append_of_le_length hk]

/-- A snapshot of the whole history may replace the one kept so far. -/
theorem snapshotAll (h : Represents covers events lastSeq snapshot history dropped) {b : B}
    (hb : covers b history) :
    Represents covers events (max lastSeq history.length) (some (b, history.length))
      history dropped where
  events_eq := h.events_eq
  lastSeq_eq := by rw [h.lastSeq_eq, Nat.max_self]
  dropped_zero hs := by contradiction
  covered b' k hs := by
    obtain ⟨rfl, rfl⟩ : b = b' ∧ history.length = k := by simpa using hs
    exact ⟨h.dropped_le, Nat.le_refl _, by rwa [List.take_length]⟩

/-- Compaction may drop everything the snapshot covers. -/
theorem compact {b : B} {n : ℕ}
    (h : Represents covers events lastSeq (some (b, n)) history dropped) :
    Represents covers (events.filter (fun p => decide (n < p.1))) lastSeq (some (b, n))
      history n where
  events_eq := by
    obtain ⟨hd, _, _⟩ := h.covered b n rfl
    have hmax : max dropped n = n := by omega
    have hsum : dropped + (n - dropped) = n := by omega
    rw [h.events_eq, filter_stamp, List.drop_drop, hmax, hsum]
  lastSeq_eq := h.lastSeq_eq
  dropped_zero hs := by contradiction
  covered b' k hs := by
    obtain ⟨rfl, rfl⟩ : b = b' ∧ n = k := by simpa using hs
    obtain ⟨_, hk, hc⟩ := h.covered b n rfl
    exact ⟨Nat.le_refl _, hk, hc⟩

/-- Items numbered above a position that is not dropped are the rest of the history. -/
theorem replay (h : Represents covers events lastSeq snapshot history dropped) {n : ℕ}
    (hn : dropped ≤ n) :
    (events.filter (fun p => decide (n < p.1))).map Prod.snd = history.drop n := by
  have hsum : dropped + (n - dropped) = n := by omega
  rw [h.events_eq, filter_stamp, map_snd_stamp, List.drop_drop, hsum]

end Represents

end StampedLog
