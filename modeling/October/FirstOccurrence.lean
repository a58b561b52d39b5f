import Mathlib.Data.List.Infix

/-!
Replacing the first occurrence of a word in a text. The text is taken apart in front of
and behind that occurrence, and the replacement can be taken back by the reverse one
exactly if the new word does not stand earlier in the new text.
-/

namespace FirstOccurrence

variable {α : Type*}

/-- The word stands in the text behind `before`, and nowhere earlier. -/
structure FirstAt (word text before after : List α) : Prop where
  split : text = before ++ word ++ after
  first : ∀ n < before.length, ¬ word <+: text.drop n

variable {word new text before after : List α}

theorem FirstAt.nil (h : word <+: text) : FirstAt word text [] (text.drop word.length) := by
  obtain ⟨rest, rfl⟩ := h
  exact ⟨by simp, fun n hn => absurd hn (Nat.not_lt_zero n)⟩

theorem FirstAt.cons {c : α} (hc : ¬ word <+: c :: text) (h : FirstAt word text before after) :
    FirstAt word (c :: text) (c :: before) after := by
  refine ⟨by rw [h.split, List.cons_append, List.cons_append], fun n hn => ?_⟩
  cases n with
  | zero => exact hc
  | succ n => exact h.first n (Nat.lt_of_succ_lt_succ hn)

/-- There is one first occurrence only. -/
theorem FirstAt.unique {before' after' : List α} (h : FirstAt word text before after)
    (h' : FirstAt word text before' after') : before = before' ∧ after = after' := by
  have hstarts {b a : List α} (hb : FirstAt word text b a) : word <+: text.drop b.length := by
    rw [hb.split, List.append_assoc, List.drop_left]
    exact List.prefix_append word a
  have hlength : before.length = before'.length :=
    Nat.le_antisymm (Nat.le_of_not_lt fun hlt => h.first _ hlt (hstarts h'))
      (Nat.le_of_not_lt fun hlt => h'.first _ hlt (hstarts h))
  have hsplit := h.split.symm.trans h'.split
  rw [List.append_assoc, List.append_assoc] at hsplit
  obtain ⟨rfl, hrest⟩ := List.append_inj hsplit hlength
  exact ⟨rfl, List.append_cancel_left hrest⟩

variable [DecidableEq α]

def replaceFirst (word new : List α) : List α → List α
  | [] => if word = [] then new else []
  | c :: text =>
    if word <+: c :: text then new ++ (c :: text).drop word.length
    else c :: replaceFirst word new text

/-- A text in which a word occurs is taken apart at the first occurrence, and there the
new word is put. -/
theorem exists_firstAt (new : List α) (h : word <:+: text) :
    ∃ before after, FirstAt word text before after ∧
      replaceFirst word new text = before ++ new ++ after := by
  induction text with
  | nil =>
    cases List.infix_nil.mp h
    exact ⟨[], [], FirstAt.nil List.prefix_rfl, by simp [replaceFirst]⟩
  | cons c text ih =>
    by_cases hc : word <+: c :: text
    · exact ⟨[], _, FirstAt.nil hc, by rw [replaceFirst, if_pos hc]; rfl⟩
    · obtain ⟨before, after, hfirst, hreplaced⟩ := ih ((List.infix_cons_iff.mp h).resolve_left hc)
      exact ⟨c :: before, after, hfirst.cons hc, by rw [replaceFirst, if_neg hc, hreplaced]; rfl⟩

/-- The reverse replacement restores the text if and only if the new word has no earlier
occurrence in the replaced one. -/
theorem replaceFirst_restores_iff (h : FirstAt word text before after) :
    replaceFirst new word (before ++ new ++ after) = text ↔
      ∀ n < before.length, ¬ new <+: (before ++ new ++ after).drop n := by
  have hinfix : new <:+: before ++ new ++ after := ⟨before, after, rfl⟩
  obtain ⟨before', after', hfirst, hreplaced⟩ := exists_firstAt word hinfix
  rw [hreplaced]
  constructor
  · intro hback n hn
    -- the old word stands behind `before'` in the old text too, so not in front of `before`
    have hle : before.length ≤ before'.length := by
      refine Nat.le_of_not_lt fun hlt => h.first _ hlt ?_
      rw [← hback, List.append_assoc, List.drop_left]
      exact List.prefix_append word after'
    exact hfirst.first n (Nat.lt_of_lt_of_le hn hle)
  · intro hfirst'
    obtain ⟨rfl, rfl⟩ := hfirst.unique ⟨rfl, hfirst'⟩
    exact h.split.symm

end FirstOccurrence
