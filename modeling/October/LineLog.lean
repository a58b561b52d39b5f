import Mathlib.Data.List.Basic

/-!
Logs of terminated records. Every record is followed by a separator that no
record contains, so splitting at the separator gives the records back, followed
by whatever the rest of the log splits into.
-/
namespace LineLog

variable {α : Type*} [DecidableEq α]

def terminate (sep : α) (records : List (List α)) : List α :=
  records.flatMap (fun record => record ++ [sep])

/-- The records that are terminated; what follows the last separator is dropped. -/
def terminated (sep : α) (log : List α) : List (List α) := (log.splitOn sep).dropLast

omit [DecidableEq α] in
theorem terminate_append (sep : α) (xs ys : List (List α)) :
    terminate sep (xs ++ ys) = terminate sep xs ++ terminate sep ys := by
  simp [terminate]

theorem splitOn_terminate (sep : α) (records : List (List α)) (rest : List α)
    (h : ∀ record ∈ records, sep ∉ record) :
    (terminate sep records ++ rest).splitOn sep = records ++ rest.splitOn sep := by
  induction records with
  | nil => rfl
  | cons record records ih =>
    have hrecord := h record List.mem_cons_self
    have hrecords := ih (fun r hr => h r (List.mem_cons_of_mem _ hr))
    have hshape : terminate sep (record :: records) ++ rest =
        record ++ sep :: (terminate sep records ++ rest) := by
      simp [terminate]
    rw [hshape, List.splitOn_append_cons_self_of_not_mem hrecord, hrecords, List.cons_append]

/-- Terminated records are read back whatever follows them. -/
theorem terminated_terminate (sep : α) (records : List (List α)) (rest : List α)
    (h : ∀ record ∈ records, sep ∉ record) :
    terminated sep (terminate sep records ++ rest) = records ++ terminated sep rest := by
  unfold terminated
  rw [splitOn_terminate sep records rest h,
    List.dropLast_append_of_ne_nil (List.splitOn_ne_nil sep rest)]

/-- What no separator ends is dropped. -/
theorem terminated_of_notMem (sep : α) (rest : List α) (h : sep ∉ rest) :
    terminated sep rest = [] := by
  unfold terminated
  rw [List.splitOn_eq_singleton h]
  rfl

section Blocks

variable {β : Type*}

def ContainsInOrder : List (List β) → List β → Prop
  | [], _ => True
  | block :: blocks, xs =>
    ∃ before after, xs = before ++ block ++ after ∧ ContainsInOrder blocks after

theorem ContainsInOrder.append {blocks blocks' : List (List β)} {xs ys : List β}
    (h : ContainsInOrder blocks xs) (h' : ContainsInOrder blocks' ys) :
    ContainsInOrder (blocks ++ blocks') (xs ++ ys) := by
  induction blocks generalizing xs with
  | nil =>
    cases blocks' with
    | nil => trivial
    | cons block blocks' =>
      obtain ⟨before, after, rfl, hrest⟩ := h'
      exact ⟨xs ++ before, after, by simp, hrest⟩
  | cons block blocks ih =>
    obtain ⟨before, after, rfl, hrest⟩ := h
    exact ⟨before, after ++ ys, by simp, ih hrest⟩

theorem ContainsInOrder.nil_block : ContainsInOrder [([] : List β)] [] :=
  ⟨[], [], rfl, trivial⟩

theorem ContainsInOrder.single (block : List β) : ContainsInOrder [block] block :=
  ⟨[], [], by simp, trivial⟩

theorem ContainsInOrder.extend {blocks : List (List β)} {xs : List β}
    (h : ContainsInOrder blocks xs) (ys : List β) : ContainsInOrder blocks (xs ++ ys) := by
  have hnil : ContainsInOrder ([] : List (List β)) ys := trivial
  simpa using h.append hnil

end Blocks

end LineLog
