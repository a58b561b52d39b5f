import Mathlib.Data.List.Basic

/-!
Reading from a stream that arrives in pieces. An exact read takes its items from
as many pieces as it needs and leaves the rest of the last one it touched, so what
a sequence of exact reads returns does not depend on where the stream was cut.
-/

namespace ChunkedReads

variable {α ε : Type}

/-- Reads exactly the given number of items. Each arrival is a piece of the stream,
empty when nothing was ready yet, or a failure of the stream; running out of
arrivals is the end of the stream. -/
def readExact (eof : ε) : Nat → List (Except ε (List α)) →
    Except ε (List α) × List (Except ε (List α))
  | 0, source => (.ok [], source)
  | _ + 1, [] => (.error eof, [])
  | _ + 1, .error e :: source => (.error e, source)
  | n + 1, .ok piece :: source =>
    if n + 1 ≤ piece.length then
      (.ok (piece.take (n + 1)), .ok (piece.drop (n + 1)) :: source)
    else
      match readExact eof (n + 1 - piece.length) source with
      | (.ok rest, source) => (.ok (piece ++ rest), source)
      | (.error e, source) => (.error e, source)

def arrivals (pieces : List (List α)) : List (Except ε (List α)) := pieces.map .ok

@[simp] theorem arrivals_cons (piece : List α) (pieces : List (List α)) :
    (arrivals (piece :: pieces) : List (Except ε (List α))) = .ok piece :: arrivals pieces := rfl

/-- Wherever the stream is cut, a read of the length of its first part returns
that part and leaves some cut of the other. -/
theorem readExact_append (eof : ε) (front back : List α) (pieces : List (List α))
    (h : pieces.flatten = front ++ back) :
    ∃ left, readExact eof front.length (arrivals pieces) = (.ok front, arrivals left) ∧
      left.flatten = back := by
  induction pieces generalizing front with
  | nil =>
    obtain ⟨rfl, rfl⟩ : front = [] ∧ back = [] := by simpa using h
    exact ⟨[], rfl, rfl⟩
  | cons piece pieces ih =>
    cases front with
    | nil => exact ⟨piece :: pieces, rfl, h⟩
    | cons x front =>
      rw [List.flatten_cons] at h
      rcases List.append_eq_append_iff.mp h with ⟨rest, hfront, hrest⟩ | ⟨rest, hpiece, hback⟩
      · -- the piece is used up, and the read goes on for what is missing
        cases rest with
        | nil =>
          refine ⟨[] :: pieces, ?_, by simpa using hrest⟩
          obtain rfl : x :: front = piece := by simpa using hfront
          simp [readExact]
        | cons y rest =>
          obtain ⟨left, hread, hleft⟩ := ih (y :: rest) hrest
          refine ⟨left, ?_, hleft⟩
          have hlong : ¬ front.length + 1 ≤ piece.length := by
            have := congrArg List.length hfront
            simp only [List.length_cons, List.length_append] at this
            omega
          have hmissing : front.length + 1 - piece.length = (y :: rest).length := by
            have := congrArg List.length hfront
            simp only [List.length_cons, List.length_append] at this ⊢
            omega
          simp only [List.length_cons, arrivals_cons, readExact, hlong, if_false]
          rw [hmissing, hread, hfront]
      · refine ⟨rest :: pieces, ?_, by simpa using hback.symm⟩
        subst hpiece
        simp [readExact]

/-- A stream that ends before the read is complete is consumed to its end. -/
theorem readExact_short (eof : ε) (n : Nat) (pieces : List (List α))
    (h : pieces.flatten.length < n) :
    readExact eof n (arrivals pieces) = (.error eof, []) := by
  induction pieces generalizing n with
  | nil =>
    cases n with
    | zero => simp at h
    | succ n => rfl
  | cons piece pieces ih =>
    cases n with
    | zero => simp at h
    | succ n =>
      simp only [List.flatten_cons, List.length_append] at h
      have hlong : ¬ n + 1 ≤ piece.length := by omega
      simp only [arrivals_cons, readExact, hlong, if_false]
      rw [ih (n + 1 - piece.length) (by omega)]

end ChunkedReads
