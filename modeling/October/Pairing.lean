import Mathlib.Data.List.Nodup

/-!
Requests and answers between barriers. Scanning a sequence keeps the keys that are
open; a key may be closed only while it is open, and a barrier may be passed only
when none is. In a sequence that opens no key twice the open keys are those opened
and not closed.
-/
namespace Pairing

inductive Token (K : Type*) where
  | barrier
  | opens (k : K)
  | closes (k : K)

section Keys

variable {K : Type*}

def opened (ts : List (Token K)) : List K :=
  ts.filterMap (fun t => match t with
    | .opens k => some k
    | _ => none)

def closed (ts : List (Token K)) : List K :=
  ts.filterMap (fun t => match t with
    | .closes k => some k
    | _ => none)

@[simp] theorem opened_append (ts us : List (Token K)) :
    opened (ts ++ us) = opened ts ++ opened us := List.filterMap_append

@[simp] theorem closed_append (ts us : List (Token K)) :
    closed (ts ++ us) = closed ts ++ closed us := List.filterMap_append

end Keys

variable {K : Type*} [DecidableEq K]

def step (pending : List K) : Token K → Option (List K)
  | .barrier => if pending = [] then some [] else none
  | .opens k => if k ∈ pending then none else some (pending ++ [k])
  | .closes k => if k ∈ pending then some (pending.erase k) else none

/-- The keys open after a sequence, or `none` if it goes wrong. -/
def scan : List K → List (Token K) → Option (List K)
  | pending, [] => some pending
  | pending, t :: rest => (step pending t).bind (fun p => scan p rest)

@[simp] theorem scan_nil (pending : List K) : scan pending [] = some pending := rfl

theorem scan_append (pending : List K) (ts us : List (Token K)) :
    scan pending (ts ++ us) = (scan pending ts).bind (fun p => scan p us) := by
  induction ts generalizing pending with
  | nil => rfl
  | cons t rest ih =>
    simp only [List.cons_append, scan, Option.bind_assoc]
    exact congrArg _ (funext fun p => ih p)

@[simp] theorem scan_barrier (ts : List (Token K)) :
    scan [] (.barrier :: ts) = scan [] ts := by simp [scan, step]

theorem scan_opens (pending ks : List K) (h : (pending ++ ks).Nodup) :
    scan pending (ks.map .opens) = some (pending ++ ks) := by
  induction ks generalizing pending with
  | nil => simp
  | cons k rest ih =>
    have hnot : k ∉ pending := by
      intro hk
      exact (List.nodup_append.mp h).2.2 k hk k (by simp) rfl
    have hassoc : pending ++ k :: rest = (pending ++ [k]) ++ rest := by simp
    rw [hassoc] at h ⊢
    simp only [List.map_cons, scan, step, hnot, if_false, Option.bind_some]
    exact ih _ h

/-- Closing all open keys in order. -/
theorem scan_closes (ks : List K) : scan ks (ks.map .closes) = some [] := by
  induction ks with
  | nil => rfl
  | cons k rest ih => simpa [scan, step] using ih

/-- A barrier is passed with nothing open. -/
theorem nil_of_scan_barrier (pending ks : List K) (ts : List (Token K))
    (h : scan pending (.barrier :: ts) = some ks) : pending = [] := by
  by_contra hne
  simp [scan, step, hne] at h

/-- What is open is what was open before or opened since, and not closed. -/
theorem pending_eq (pending ks : List K) (ts : List (Token K))
    (hnodup : (pending ++ opened ts).Nodup) (h : scan pending ts = some ks) :
    ks = (pending ++ opened ts).filter (fun k => decide (k ∉ closed ts)) := by
  induction ts generalizing pending with
  | nil =>
    cases Option.some.inj h
    simp [opened, closed]
  | cons t rest ih =>
    cases t with
    | barrier =>
      obtain rfl := nil_of_scan_barrier pending ks rest h
      rw [scan_barrier] at h
      exact ih [] hnodup h
    | opens k =>
      have hassoc : pending ++ opened (.opens k :: rest) = (pending ++ [k]) ++ opened rest := by
        simp [opened]
      have hnot : k ∉ pending := by
        intro hk
        simp [scan, step, hk] at h
      simp only [scan, step, hnot, if_false, Option.bind_some] at h
      rw [hassoc] at hnodup ⊢
      exact ih _ hnodup h
    | closes k =>
      have hk : k ∈ pending := by
        by_contra hk
        simp [scan, step, hk] at h
      have hopened : opened (.closes k :: rest) = opened rest := rfl
      have hclosed : closed (.closes k :: rest) = k :: closed rest := rfl
      rw [hopened] at hnodup
      obtain ⟨hpending, _, hdisjoint⟩ := List.nodup_append.mp hnodup
      have hnot : k ∉ opened rest := fun hk' => hdisjoint k hk k hk' rfl
      simp only [scan, step, hk, if_true, Option.bind_some] at h
      have hrest := ih (pending.erase k)
        (hnodup.sublist (List.Sublist.append_right List.erase_sublist _)) h
      rw [hrest, hopened, hclosed, hpending.erase_eq_filter, List.filter_append,
        List.filter_append, List.filter_filter]
      congr 1
      · apply List.filter_congr
        intro x _
        by_cases hx : x = k <;> simp [hx]
      · apply List.filter_congr
        intro x hx
        have hne : x ≠ k := fun he => hnot (he ▸ hx)
        simp [hne]

end Pairing
