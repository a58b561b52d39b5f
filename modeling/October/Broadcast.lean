import Mathlib.Data.List.Basic

/-!
A broadcast channel that keeps its last values only. A receiver reads at its own pace; one
that was overtaken is told how many values it missed and goes on with the oldest value that
is kept. What it was handed accounts for every value in front of where it reads next.
-/
namespace Broadcast

variable {A : Type*}

/-- What a receiver is handed: a value, or how many values it lagged behind. -/
inductive Handed (A : Type*) where
  | value (a : A)
  | lagged (missed : ℕ)

structure Channel (A : Type*) where
  capacity : ℕ
  sent : List A

namespace Channel

def send (c : Channel A) (a : A) : Channel A := { c with sent := c.sent ++ [a] }

def oldest (c : Channel A) : ℕ := c.sent.length - c.capacity

/-- One read at `next`, with where the reader reads next; `none` if there is nothing yet. -/
def recv (c : Channel A) (next : ℕ) : Option (Handed A × ℕ) :=
  if next < c.oldest then some (.lagged (c.oldest - next), c.oldest)
  else (c.sent[next]?).map (fun a => (.value a, next + 1))

@[simp] theorem send_capacity (c : Channel A) (a : A) : (c.send a).capacity = c.capacity := rfl

@[simp] theorem send_sent (c : Channel A) (a : A) : (c.send a).sent = c.sent ++ [a] := rfl

theorem oldest_le (c : Channel A) : c.oldest ≤ c.sent.length := Nat.sub_le _ _

theorem oldest_send (c : Channel A) (a : A) : c.oldest ≤ (c.send a).oldest := by
  simp only [oldest, send_sent, send_capacity, List.length_append, List.length_singleton]
  omega

end Channel

def values (handed : List (Handed A)) : List A :=
  handed.filterMap (fun h => match h with
    | .value a => some a
    | .lagged _ => none)

inductive Accounts : List (Handed A) → List A → Prop
  | nil : Accounts [] []
  | value {handed : List (Handed A)} {stretch : List A} (a : A) :
      Accounts handed stretch → Accounts (handed ++ [.value a]) (stretch ++ [a])
  | lagged {handed : List (Handed A)} {stretch : List A} (missed : List A) :
      Accounts handed stretch →
        Accounts (handed ++ [.lagged missed.length]) (stretch ++ missed)

theorem values_value (handed : List (Handed A)) (a : A) :
    values (handed ++ [.value a]) = values handed ++ [a] := by
  simp [values]

theorem values_lagged (handed : List (Handed A)) (missed : ℕ) :
    values (handed ++ [.lagged missed]) = values handed := by
  simp [values]

/-- What was handed over came in the order in which it was sent, each value once. -/
theorem Accounts.sublist {handed : List (Handed A)} {stretch : List A}
    (h : Accounts handed stretch) : (values handed).Sublist stretch := by
  induction h with
  | nil => exact List.Sublist.refl _
  | value a _ ih =>
    rw [values_value]
    exact ih.append (List.Sublist.refl _)
  | lagged missed _ ih =>
    rw [values_lagged]
    exact ih.trans (List.sublist_append_left _ _)

/-- A receiver that subscribed at `start` and reads next at `next`. -/
structure Follows (c : Channel A) (start next : ℕ) (handed : List (Handed A)) : Prop where
  start_le : start ≤ next
  next_le : next ≤ c.sent.length
  accounts : Accounts handed ((c.sent.take next).drop start)
  recent : (c.sent.take next).drop (max start c.oldest) <:+ values handed

section Follows

variable {c : Channel A} {start next next' : ℕ} {handed : List (Handed A)} {h : Handed A}

theorem Follows.subscribed (c : Channel A) : Follows c c.sent.length c.sent.length [] where
  start_le := Nat.le_refl _
  next_le := Nat.le_refl _
  accounts := by
    rw [List.take_length, List.drop_length]
    exact .nil
  recent := by
    rw [List.take_length, List.drop_eq_nil_of_le (by omega)]
    exact List.suffix_rfl

theorem Follows.send (hf : Follows c start next handed) (a : A) :
    Follows (c.send a) start next handed where
  start_le := hf.start_le
  next_le := by
    have hle := hf.next_le
    rw [Channel.send_sent, List.length_append]
    omega
  accounts := by
    rw [Channel.send_sent, List.take_append_of_le_length hf.next_le]
    exact hf.accounts
  recent := by
    rw [Channel.send_sent, List.take_append_of_le_length hf.next_le]
    refine List.IsSuffix.trans ?_ hf.recent
    have holdest := c.oldest_send a
    have hmax : max start c.oldest ≤ max start (c.send a).oldest := by omega
    obtain ⟨more, hmore⟩ := Nat.exists_eq_add_of_le hmax
    rw [hmore, ← List.drop_drop]
    exact List.drop_suffix _ _

/-- A read hands over the next value, or all that is no longer kept as missed. -/
theorem Follows.recv (hf : Follows c start next handed)
    (hrecv : c.recv next = some (h, next')) :
    Follows c start next' (handed ++ [h]) ∧ next < next' := by
  have hstart := hf.start_le
  unfold Channel.recv at hrecv
  split at hrecv
  · next hbehind =>
    cases hrecv
    have hle := c.oldest_le
    have hstretch : (c.sent.take c.oldest).drop start =
        (c.sent.take next).drop start ++ (c.sent.take c.oldest).drop next := by
      conv_lhs => rw [← List.take_append_drop next (c.sent.take c.oldest), List.take_take,
        Nat.min_eq_left (Nat.le_of_lt hbehind)]
      rw [List.drop_append_of_le_length (by simp; omega)]
    have hmissed : ((c.sent.take c.oldest).drop next).length = c.oldest - next := by
      simp
      omega
    refine ⟨⟨by omega, hle, ?_, ?_⟩, hbehind⟩
    · rw [hstretch, ← hmissed]
      exact .lagged _ hf.accounts
    · rw [List.drop_eq_nil_of_le (by rw [List.length_take]; omega)]
      exact List.nil_suffix
  · next hkept =>
    obtain ⟨a, hget, hpair⟩ := Option.map_eq_some_iff.mp hrecv
    cases hpair
    obtain ⟨hlt, rfl⟩ := List.getElem?_eq_some_iff.mp hget
    have htake : c.sent.take (next + 1) = c.sent.take next ++ [c.sent[next]] :=
      List.take_succ_eq_append_getElem hlt
    refine ⟨⟨by omega, hlt, ?_, ?_⟩, Nat.lt_succ_self _⟩
    · rw [htake, List.drop_append_of_le_length (by simp; omega)]
      exact .value _ hf.accounts
    · rw [htake, List.drop_append_of_le_length (by simp; omega), values_value]
      obtain ⟨earlier, hearlier⟩ := hf.recent
      exact ⟨earlier, by rw [← List.append_assoc, hearlier]⟩

/-- A receiver that has read everything was handed the last values that were sent. -/
theorem Follows.drained (hf : Follows c start c.sent.length handed) :
    c.sent.drop (max start c.oldest) <:+ values handed := by
  have h := hf.recent
  rwa [List.take_length] at h

end Follows

end Broadcast
