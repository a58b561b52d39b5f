import Mathlib.Data.List.Basic
import Mathlib.Data.List.TakeDrop

/-!
Texts and their lines. A text is cut after every newline into pieces; the line of a
piece is what stands before its newline, without a carriage return at its end. Joining
lines with newlines gives every line a plain newline and the last one none, so it gives
a text back just if that is how its lines were ended.
-/

namespace TextLines

variable {α : Type*} [DecidableEq α]

/-- The pieces of a text, each up to and including a newline; what follows the last
newline is a piece of its own, unless it is empty. -/
def pieces (newline : α) : List α → List (List α)
  | [] => []
  | c :: text =>
    if c = newline then [c] :: pieces newline text
    else
      match pieces newline text with
      | [] => [[c]]
      | piece :: rest => (c :: piece) :: rest

def Ended (newline : α) (piece : List α) : Prop := piece.getLast? = some newline

instance (newline : α) (piece : List α) : Decidable (Ended newline piece) :=
  inferInstanceAs (Decidable (_ = _))

def lineOf (newline carriage : α) (piece : List α) : List α :=
  if Ended newline piece then
    if Ended carriage piece.dropLast then piece.dropLast.dropLast else piece.dropLast
  else piece

def lines (newline carriage : α) (text : List α) : List (List α) :=
  (pieces newline text).map (lineOf newline carriage)

def plainPiece (newline carriage : α) (piece : List α) : List α :=
  lineOf newline carriage piece ++ [newline]

def closed (newline : α) (text : List α) : List α :=
  if text = [] ∨ Ended newline text then text else text ++ [newline]

def finalEnd (newline carriage : α) (text : List α) : List α :=
  if Ended newline text then
    if Ended carriage text.dropLast then [carriage, newline] else [newline]
  else []

/-- Lines between two texts, each a line of its own; at the end of the text the last one
is ended by `final`. -/
def insertLines (newline : α) (final before : List α) (inserted : List (List α))
    (after : List α) : List α :=
  if inserted = [] then before ++ after
  else closed newline before ++ [newline].intercalate inserted ++
    (if after = [] then final else [newline] ++ after)

section Pieces

variable (newline : α)

theorem flatten_pieces (text : List α) : (pieces newline text).flatten = text := by
  induction text with
  | nil => rfl
  | cons c text ih =>
    unfold pieces
    split
    · rw [List.flatten_cons, ih, List.singleton_append]
    · split
      · rename_i hnil
        rw [hnil] at ih
        simpa using ih
      · rename_i piece rest hcons
        rw [hcons, List.flatten_cons] at ih
        rw [List.flatten_cons, List.cons_append, ih]

theorem pieces_ne_nil (text : List α) : ∀ piece ∈ pieces newline text, piece ≠ [] := by
  induction text with
  | nil => simp [pieces]
  | cons c text ih =>
    unfold pieces
    split
    · simpa using ih
    · split
      · simp
      · rename_i piece rest hcons
        rw [hcons] at ih
        simpa using fun p hp => ih p (List.mem_cons_of_mem _ hp)

theorem pieces_eq_nil_iff (text : List α) : pieces newline text = [] ↔ text = [] := by
  constructor
  · intro h
    rw [← flatten_pieces newline text, h, List.flatten_nil]
  · rintro rfl
    rfl

variable {newline}

omit [DecidableEq α] in
theorem Ended.cons {piece : List α} (c : α) (h : Ended newline piece) :
    Ended newline (c :: piece) := by
  rw [Ended, List.getLast?_cons, h]
  rfl

variable (newline)

/-- Every piece but the last one ends with a newline. -/
theorem pieces_ended (text : List α) :
    ∀ piece ∈ (pieces newline text).dropLast, Ended newline piece := by
  induction text with
  | nil => simp [pieces]
  | cons c text ih =>
    unfold pieces
    split
    · rename_i hc
      cases hpieces : pieces newline text with
      | nil => simp
      | cons piece rest =>
        rw [hpieces] at ih
        rw [List.dropLast_cons_cons]
        intro p hp
        rcases List.mem_cons.mp hp with rfl | hp
        · exact congrArg some hc
        · exact ih p hp
    · cases hpieces : pieces newline text with
      | nil => simp
      | cons piece rest =>
        rw [hpieces] at ih
        cases rest with
        | nil => simp
        | cons next rest =>
          simp only [List.dropLast_cons_cons] at ih ⊢
          intro p hp
          rcases List.mem_cons.mp hp with rfl | hp
          · exact (ih piece List.mem_cons_self).cons c
          · exact ih p (List.mem_cons_of_mem _ hp)

end Pieces

section Lines

variable {newline : α} (carriage : α)

/-- The end of a piece that ends with a newline is not longer when it is plain. -/
theorem length_plainPiece_le {piece : List α} (h : Ended newline piece) :
    (plainPiece newline carriage piece).length ≤ piece.length := by
  obtain ⟨line, rfl⟩ := List.getLast?_eq_some_iff.mp h
  simp only [plainPiece, lineOf, if_pos h, List.dropLast_concat, List.length_append]
  split <;> simp

/-- Only a plain end is the same when it is made plain. -/
theorem plainPiece_eq_iff {piece : List α} (h : Ended newline piece) :
    plainPiece newline carriage piece = piece ↔ ¬ [carriage, newline] <:+ piece := by
  obtain ⟨line, rfl⟩ := List.getLast?_eq_some_iff.mp h
  have hsuffix : [carriage, newline] <:+ line ++ [newline] ↔ Ended carriage line := by
    rw [Ended, List.getLast?_eq_some_iff]
    constructor
    · rintro ⟨front, hfront⟩
      refine ⟨front, ?_⟩
      have hfront' : (front ++ [carriage]) ++ [newline] = line ++ [newline] := by simpa using hfront
      exact (List.append_cancel_right hfront').symm
    · rintro ⟨front, rfl⟩
      exact ⟨front, by simp⟩
  rw [hsuffix]
  simp only [plainPiece, lineOf, if_pos h, List.dropLast_concat]
  constructor
  · intro heq hend
    rw [if_pos hend] at heq
    obtain ⟨front, rfl⟩ := List.getLast?_eq_some_iff.mp hend
    have hlength := congrArg List.length heq
    simp at hlength
  · intro hend
    rw [if_neg hend]

variable (newline)

theorem length_lineOf_le (piece : List α) :
    (lineOf newline carriage piece).length ≤ piece.length := by
  unfold lineOf
  split
  · split <;> simp only [List.length_dropLast] <;> omega
  · exact Nat.le_refl _

/-- Only a piece without a newline is its own line. -/
theorem lineOf_eq_iff (piece : List α) :
    lineOf newline carriage piece = piece ↔ ¬ Ended newline piece := by
  constructor
  · intro heq hend
    have hshort := length_plainPiece_le carriage hend
    rw [plainPiece, heq, List.length_append, List.length_singleton] at hshort
    omega
  · intro hend
    rw [lineOf, if_neg hend]

end Lines

section Joins

variable {β : Type*}

/-- Parts that are not longer than others, and together the same, are the same. -/
theorem append_eq_of_length_le {a a' b b' : List β} (ha : a.length ≤ a'.length)
    (hb : b.length ≤ b'.length) (h : a ++ b = a' ++ b') : a = a' ∧ b = b' := by
  have hlength := congrArg List.length h
  simp only [List.length_append] at hlength
  exact List.append_inj h (by omega)

theorem flatMap_length_le {f g : List β → List β} {xs : List (List β)}
    (h : ∀ x ∈ xs, (f x).length ≤ (g x).length) :
    (xs.flatMap f).length ≤ (xs.flatMap g).length := by
  induction xs with
  | nil => exact Nat.le_refl _
  | cons x xs ih =>
    have hx := h x List.mem_cons_self
    have hxs := ih (fun y hy => h y (List.mem_cons_of_mem _ hy))
    simp only [List.flatMap_cons, List.length_append]
    omega

/-- Parts that are not longer than others give the same whole only if each is the same. -/
theorem flatMap_eq_iff {f g : List β → List β} {xs : List (List β)}
    (h : ∀ x ∈ xs, (f x).length ≤ (g x).length) :
    xs.flatMap f = xs.flatMap g ↔ ∀ x ∈ xs, f x = g x := by
  induction xs with
  | nil => simp
  | cons x xs ih =>
    have hxs : ∀ y ∈ xs, (f y).length ≤ (g y).length :=
      fun y hy => h y (List.mem_cons_of_mem _ hy)
    rw [List.flatMap_cons, List.flatMap_cons, List.forall_mem_cons, ← ih hxs]
    constructor
    · exact append_eq_of_length_le (h x List.mem_cons_self) (flatMap_length_le hxs)
    · rintro ⟨hx, hrest⟩
      rw [hx, hrest]

theorem flatMap_length_le_flatten {f : List β → List β} {xs : List (List β)}
    (h : ∀ x ∈ xs, (f x).length ≤ x.length) : (xs.flatMap f).length ≤ xs.flatten.length := by
  rw [List.flatten_eq_flatMap]
  exact flatMap_length_le h

theorem flatMap_eq_flatten_iff {f : List β → List β} {xs : List (List β)}
    (h : ∀ x ∈ xs, (f x).length ≤ x.length) :
    xs.flatMap f = xs.flatten ↔ ∀ x ∈ xs, f x = x := by
  rw [List.flatten_eq_flatMap]
  exact flatMap_eq_iff h

variable [DecidableEq β] {newline : β} (carriage : β)

omit [DecidableEq β] in
/-- Every line in front of others gets a newline. -/
theorem intercalate_append (front : List (List β)) {rest : List (List β)} (h : rest ≠ []) :
    [newline].intercalate (front ++ rest) =
      front.flatMap (· ++ [newline]) ++ [newline].intercalate rest := by
  induction front with
  | nil => rfl
  | cons line front ih =>
    have hne : front ++ rest ≠ [] := by simp [h]
    rw [List.cons_append, List.intercalate_cons_of_ne_nil hne, ih, List.flatMap_cons]
    simp

/-- Lines of pieces in front of others are joined as plain pieces. -/
theorem intercalate_map_append (front : List (List β)) {rest : List (List β)}
    (h : rest ≠ []) :
    [newline].intercalate (front.map (lineOf newline carriage) ++ rest) =
      front.flatMap (plainPiece newline carriage) ++ [newline].intercalate rest := by
  rw [intercalate_append _ h, List.flatMap_map]
  rfl

omit [DecidableEq β] in
theorem not_crlf_of_not_ended {piece : List β} (h : ¬ Ended newline piece) :
    ¬ [carriage, newline] <:+ piece := by
  rintro ⟨line, rfl⟩
  exact h (by simp [Ended])

/-- The pieces that are given back when their lines are joined: those in front end with
a plain newline, and the last one with none. -/
theorem plain_pieces_iff {front : List (List β)} {last : List β}
    (h : ∀ piece ∈ front, Ended newline piece) :
    ((∀ piece ∈ front, plainPiece newline carriage piece = piece) ∧
        lineOf newline carriage last = last) ↔
      (∀ piece ∈ front ++ [last], ¬ [carriage, newline] <:+ piece) ∧ ¬ Ended newline last := by
  have hfront : (∀ piece ∈ front, plainPiece newline carriage piece = piece) ↔
      ∀ piece ∈ front, ¬ [carriage, newline] <:+ piece :=
    forall₂_congr (fun piece hpiece => plainPiece_eq_iff carriage (h piece hpiece))
  rw [hfront, lineOf_eq_iff, List.forall_mem_append, List.forall_mem_singleton]
  constructor
  · rintro ⟨hall, hnot⟩
    exact ⟨⟨hall, not_crlf_of_not_ended carriage hnot⟩, hnot⟩
  · rintro ⟨⟨hall, -⟩, hnot⟩
    exact ⟨hall, hnot⟩

/-- Joining the lines of pieces gives the pieces back only if their ends are plain. -/
theorem intercalate_eq_flatten_iff {front : List (List β)} (last : List β)
    (h : ∀ piece ∈ front, Ended newline piece) :
    [newline].intercalate ((front ++ [last]).map (lineOf newline carriage)) =
        (front ++ [last]).flatten ↔
      (∀ piece ∈ front ++ [last], ¬ [carriage, newline] <:+ piece) ∧ ¬ Ended newline last := by
  have hle : ∀ piece ∈ front, (plainPiece newline carriage piece).length ≤ piece.length :=
    fun piece hpiece => length_plainPiece_le carriage (h piece hpiece)
  rw [← plain_pieces_iff carriage h, ← flatMap_eq_flatten_iff hle, List.map_append,
    List.map_singleton, intercalate_map_append carriage front (List.cons_ne_nil _ _),
    List.flatten_append, List.flatten_singleton, List.intercalate_singleton]
  constructor
  · exact append_eq_of_length_le (flatMap_length_le_flatten hle)
      (length_lineOf_le newline carriage last)
  · rintro ⟨hfront, hlast⟩
    rw [hfront, hlast]

/-- A piece with its end made plain is not longer than the piece with an end, and differs
from it only if a carriage return was part of the end. -/
theorem plainPiece_closed {piece : List β} (hne : piece ≠ []) :
    (plainPiece newline carriage piece).length ≤ (closed newline piece).length ∧
      (plainPiece newline carriage piece = closed newline piece ↔
        ¬ [carriage, newline] <:+ piece) := by
  by_cases hend : Ended newline piece
  · rw [closed, if_pos (.inr hend)]
    exact ⟨length_plainPiece_le carriage hend, plainPiece_eq_iff carriage hend⟩
  · have hplain : plainPiece newline carriage piece = closed newline piece := by
      rw [plainPiece, lineOf, if_neg hend, closed, if_neg (by simp [hne, hend])]
    exact ⟨hplain ▸ Nat.le_refl _, iff_of_true hplain (not_crlf_of_not_ended carriage hend)⟩

/-- Pieces with ends stay as they are. -/
theorem flatMap_closed {ps : List (List β)} (h : ∀ piece ∈ ps, Ended newline piece) :
    ps.flatMap (closed newline) = ps.flatten := by
  rw [List.flatten_eq_flatMap]
  exact List.flatMap_congr (fun piece hpiece => if_pos (.inr (h piece hpiece)))

/-- Pieces in a row with an end for the last one. -/
theorem closed_flatten {ps : List (List β)} (hne : ∀ piece ∈ ps, piece ≠ [])
    (h : ∀ piece ∈ ps.dropLast, Ended newline piece) :
    closed newline ps.flatten = ps.flatMap (closed newline) := by
  rcases List.eq_nil_or_concat ps with rfl | ⟨front, last, rfl⟩
  · rfl
  · rw [List.concat_eq_append] at *
    rw [List.dropLast_concat] at h
    have hlast : last ≠ [] := hne last (by simp)
    have hend : Ended newline (front.flatten ++ last) ↔ Ended newline last := by
      rw [Ended, Ended, List.getLast?_append_of_ne_nil _ hlast]
    rw [List.flatMap_append, flatMap_closed h, List.flatMap_singleton, List.flatten_append,
      List.flatten_singleton, closed, closed]
    by_cases hlastEnd : Ended newline last
    · rw [if_pos (.inr (hend.mpr hlastEnd)), if_pos (.inr hlastEnd)]
    · rw [if_neg (by simp [hend, hlastEnd, hlast]), if_neg (by simp [hlastEnd, hlast]),
        List.append_assoc]

/-- Lines put behind the lines of a text, at the end of it. -/
theorem intercalate_append_eq_iff {before inserted : List (List β)} (final : List β)
    (hne : ∀ piece ∈ before, piece ≠ [])
    (h : ∀ piece ∈ before.dropLast, Ended newline piece) (hinserted : inserted ≠ []) :
    [newline].intercalate (before.map (lineOf newline carriage) ++ inserted) =
        insertLines newline final before.flatten inserted [] ↔
      (∀ piece ∈ before, ¬ [carriage, newline] <:+ piece) ∧ final = [] := by
  have hle : ∀ piece ∈ before,
      (plainPiece newline carriage piece).length ≤ (closed newline piece).length :=
    fun piece hpiece => (plainPiece_closed carriage (hne piece hpiece)).1
  have hiff : (∀ piece ∈ before, plainPiece newline carriage piece = closed newline piece) ↔
      ∀ piece ∈ before, ¬ [carriage, newline] <:+ piece :=
    forall₂_congr (fun piece hpiece => (plainPiece_closed carriage (hne piece hpiece)).2)
  rw [intercalate_map_append carriage before hinserted, insertLines, if_neg hinserted,
    if_pos rfl, closed_flatten hne h, ← hiff, ← flatMap_eq_iff hle, List.append_assoc]
  constructor
  · intro heq
    obtain ⟨hbefore, hrest⟩ := append_eq_of_length_le (flatMap_length_le hle)
      (by simp only [List.length_append]; omega) heq
    exact ⟨hbefore, List.append_right_eq_self.mp hrest.symm⟩
  · rintro ⟨hbefore, hfinal⟩
    rw [hbefore, hfinal, List.append_nil]

omit [DecidableEq β] in
theorem intercalate_concat {lines : List (List β)} (h : lines ≠ []) :
    [newline].intercalate lines ++ [newline] = lines.flatMap (· ++ [newline]) := by
  obtain ⟨front, last, hlines⟩ := (List.eq_nil_or_concat lines).resolve_left h
  rw [hlines, List.concat_eq_append, intercalate_append front (List.cons_ne_nil _ _),
    List.intercalate_singleton, List.flatMap_append, List.flatMap_singleton, List.append_assoc]

/-- Between texts the inserted lines all get a newline. -/
theorem insertLines_between {before : List (List β)} (final : List β)
    (inserted : List (List β)) {after : List β} (hne : ∀ piece ∈ before, piece ≠ [])
    (h : ∀ piece ∈ before, Ended newline piece) (hafter : after ≠ []) :
    insertLines newline final before.flatten inserted after =
      before.flatten ++ (inserted.flatMap (· ++ [newline]) ++ after) := by
  have hclosed : closed newline before.flatten = before.flatten := by
    rw [closed_flatten hne (fun piece hpiece => h piece (List.dropLast_subset _ hpiece)),
      flatMap_closed h]
  by_cases hinserted : inserted = []
  · rw [insertLines, if_pos hinserted, hinserted]
    rfl
  · rw [insertLines, if_neg hinserted, if_neg hafter, hclosed, ← intercalate_concat hinserted]
    simp only [List.append_assoc]

/-- Lines put between the lines of two texts. -/
theorem intercalate_between_eq_iff {before after : List (List β)} {last : List β}
    (final : List β) (inserted : List (List β)) (hne : ∀ piece ∈ before, piece ≠ [])
    (h : ∀ piece ∈ before ++ after, Ended newline piece) (hlast : last ≠ []) :
    [newline].intercalate (before.map (lineOf newline carriage) ++
          (inserted ++ (after ++ [last]).map (lineOf newline carriage))) =
        insertLines newline final before.flatten inserted (after ++ [last]).flatten ↔
      (∀ piece ∈ before ++ after ++ [last], ¬ [carriage, newline] <:+ piece) ∧
        ¬ Ended newline last := by
  have hbefore : ∀ piece ∈ before, Ended newline piece :=
    fun piece hpiece => h piece (List.mem_append_left _ hpiece)
  have hle : ∀ ps ⊆ before ++ after,
      (ps.flatMap (plainPiece newline carriage)).length ≤ ps.flatten.length := by
    intro ps hps
    exact flatMap_length_le_flatten
      (fun piece hpiece => length_plainPiece_le carriage (h piece (hps hpiece)))
  have hiff : ∀ ps ⊆ before ++ after,
      (ps.flatMap (plainPiece newline carriage) = ps.flatten ↔
        ∀ piece ∈ ps, plainPiece newline carriage piece = piece) := by
    intro ps hps
    exact flatMap_eq_flatten_iff
      (fun piece hpiece => length_plainPiece_le carriage (h piece (hps hpiece)))
  have hleft := hle before (List.subset_append_left _ _)
  have hright := hle after (List.subset_append_right _ _)
  have hend := length_lineOf_le newline carriage last
  have hrest : (after ++ [last]).flatten ≠ [] := by simp [hlast]
  rw [← plain_pieces_iff carriage h, List.forall_mem_append,
    ← hiff before (List.subset_append_left _ _), ← hiff after (List.subset_append_right _ _),
    insertLines_between final inserted hne hbefore hrest,
    intercalate_map_append carriage before (by simp),
    intercalate_append inserted (by simp), List.map_append, List.map_singleton,
    intercalate_map_append carriage after (List.cons_ne_nil _ _), List.intercalate_singleton,
    List.flatten_append, List.flatten_singleton]
  constructor
  · intro heq
    obtain ⟨hfront, hback⟩ := append_eq_of_length_le hleft
      (by simp only [List.length_append]; omega) heq
    obtain ⟨hmiddle, hline⟩ :=
      append_eq_of_length_le hright hend (List.append_cancel_left hback)
    exact ⟨⟨hfront, hmiddle⟩, hline⟩
  · rintro ⟨⟨hfront, hmiddle⟩, hline⟩
    rw [hfront, hmiddle, hline]

variable (newline)

/-- A text that is not empty has a last piece, and ends as it does. -/
theorem exists_last_piece {text : List β} (h : text ≠ []) :
    ∃ front last, pieces newline text = front ++ [last] ∧
      (∀ piece ∈ front, Ended newline piece) ∧ (Ended newline last ↔ Ended newline text) := by
  have hne : pieces newline text ≠ [] := fun hnil => h ((pieces_eq_nil_iff newline text).mp hnil)
  refine ⟨(pieces newline text).dropLast, (pieces newline text).getLast hne,
    (List.dropLast_concat_getLast hne).symm, pieces_ended newline text, ?_⟩
  have hlast : (pieces newline text).getLast hne ≠ [] :=
    pieces_ne_nil newline text _ (List.getLast_mem hne)
  have htext : text.getLast? = ((pieces newline text).getLast hne).getLast? := by
    conv_lhs => rw [← flatten_pieces newline text,
      ← List.dropLast_concat_getLast hne, List.flatten_append, List.flatten_singleton]
    exact List.getLast?_append_of_ne_nil _ hlast
  rw [Ended, Ended, htext]

/-- Joining the first lines of a text gives it back only if these are all its lines, and
their ends are plain. -/
theorem intercalate_take_eq_iff {text : List β} (h : text ≠ []) (n : ℕ) :
    [newline].intercalate ((lines newline carriage text).take n) = text ↔
      (lines newline carriage text).length ≤ n ∧
        (∀ piece ∈ pieces newline text, ¬ [carriage, newline] <:+ piece) ∧
        ¬ Ended newline text := by
  obtain ⟨front, last, hpieces, hfront, hend⟩ := exists_last_piece newline h
  have htext : text = (front ++ [last]).flatten := by rw [← hpieces, flatten_pieces]
  have hlines : lines newline carriage text = (front ++ [last]).map (lineOf newline carriage) := by
    rw [lines, hpieces]
  by_cases hn : (lines newline carriage text).length ≤ n
  · have hjoin := intercalate_eq_flatten_iff carriage last hfront
    rw [← htext, ← hlines, ← hpieces, hend] at hjoin
    rw [List.take_of_length_le hn, hjoin]
    exact ⟨fun hplain => ⟨hn, hplain⟩, fun hplain => hplain.2⟩
  · -- the first line that is left out had an end of its own
    refine iff_of_false (fun heq => ?_) (fun hall => hn hall.1)
    have hfew : n ≤ front.length := by
      rw [hlines, List.length_map, List.length_append, List.length_singleton] at hn
      omega
    rw [hlines, ← List.map_take, List.take_append_of_le_length hfew] at heq
    rcases List.eq_nil_or_concat (front.take n) with hkept | ⟨kept, piece, hkept⟩
    · rw [hkept] at heq
      exact h heq.symm
    · have hended : ∀ p ∈ kept ++ [piece], Ended newline p := by
        intro p hp
        rw [← List.concat_eq_append, ← hkept] at hp
        exact hfront p (List.mem_of_mem_take hp)
      have hpiece := length_plainPiece_le carriage (hended piece (by simp))
      have hshort : (kept.flatMap (plainPiece newline carriage)).length ≤ kept.flatten.length :=
        flatMap_length_le_flatten (fun p hp =>
          length_plainPiece_le carriage (hended p (List.mem_append_left _ hp)))
      have hlong : (kept ++ [piece]).flatten.length ≤ text.length := by
        rw [← List.concat_eq_append, ← hkept, htext, ← List.take_append_drop n front,
          List.append_assoc, List.flatten_append, List.length_append]
        simp
      rw [hkept, List.concat_eq_append, List.map_append, List.map_singleton,
        intercalate_map_append carriage kept (List.cons_ne_nil _ _),
        List.intercalate_singleton] at heq
      have hlength := congrArg List.length heq
      rw [plainPiece, List.length_append, List.length_singleton] at hpiece
      simp only [List.length_append, List.flatten_append, List.flatten_singleton]
        at hlength hlong hshort
      omega

/-- The last of the first pieces ends with a newline, unless it is the last of all. -/
theorem ended_last_iff {text : List β} {n : ℕ} {kept : List (List β)} {last : List β}
    (h : (pieces newline text).take n = kept ++ [last]) :
    ¬ Ended newline last ↔ ¬ Ended newline text ∧ (pieces newline text).length ≤ n := by
  have htext : text ≠ [] := by
    rintro rfl
    simp [pieces] at h
  obtain ⟨front, final, hpieces, hfront, hend⟩ := exists_last_piece newline htext
  by_cases hn : (pieces newline text).length ≤ n
  · rw [List.take_of_length_le hn, hpieces] at h
    have hsame : final = last := List.singleton_inj.mp (List.append_inj' h rfl).2
    rw [← hend, hsame]
    simp [hn]
  · have hlast : last ∈ front := by
      rw [hpieces, List.take_append_of_le_length (by simp [hpieces] at hn; omega)] at h
      exact List.mem_of_mem_take (h ▸ List.mem_append_right _ List.mem_cons_self)
    exact iff_of_false (not_not_intro (hfront last hlast)) (fun hall => hn hall.2)

theorem finalEnd_eq_nil_iff (text : List β) :
    finalEnd newline carriage text = [] ↔ ¬ Ended newline text := by
  unfold finalEnd
  split <;> rename_i hend
  · refine iff_of_false ?_ (not_not_intro hend)
    split <;> exact List.cons_ne_nil _ _
  · exact iff_of_true rfl hend

/-- Lines put in the place of a range of lines of a text leave the rest of it as it was
only if the ends outside the range are plain and the text ends in no newline, and the
line in front of the range does not become the last one; or if nothing is left at all. -/
theorem replace_lines_iff (text : List β) (inserted : List (List β)) {start stop : ℕ}
    (h : start ≤ stop ∨ (pieces newline text).length ≤ stop) :
    [newline].intercalate (((pieces newline text).take start).map (lineOf newline carriage) ++
          (inserted ++ ((pieces newline text).drop stop).map (lineOf newline carriage))) =
        insertLines newline (finalEnd newline carriage text)
          ((pieces newline text).take start).flatten inserted
          ((pieces newline text).drop stop).flatten ↔
      ((∀ piece ∈ (pieces newline text).take start ++ (pieces newline text).drop stop,
            ¬ [carriage, newline] <:+ piece) ∧ ¬ Ended newline text ∧
          (inserted ≠ [] ∨ stop < (pieces newline text).length ∨
            (pieces newline text).length ≤ start)) ∨
        (inserted = [] ∧ (pieces newline text).take start = [] ∧
          (pieces newline text).drop stop = []) := by
  have hne : ∀ piece ∈ (pieces newline text).take start, piece ≠ [] :=
    fun piece hpiece => pieces_ne_nil newline text piece (List.mem_of_mem_take hpiece)
  have hended : ∀ piece ∈ ((pieces newline text).take start).dropLast, Ended newline piece := by
    rw [List.dropLast_take_eq_take_dropLast]
    exact fun piece hpiece => pieces_ended newline text piece (List.mem_of_mem_take hpiece)
  by_cases hstop : (pieces newline text).length ≤ stop
  · rw [List.drop_of_length_le hstop, List.map_nil, List.append_nil, List.append_nil,
      List.flatten_nil]
    by_cases hinserted : inserted = []
    · rw [hinserted, List.append_nil, insertLines, if_pos rfl, List.append_nil]
      rcases List.eq_nil_or_concat ((pieces newline text).take start) with hnil | hconcat
      · rw [hnil]
        exact iff_of_true rfl (.inr ⟨rfl, rfl, rfl⟩)
      · obtain ⟨kept, last, hbefore⟩ := hconcat
        rw [List.concat_eq_append] at hbefore
        rw [hbefore, List.dropLast_concat] at hended
        have hlast := ended_last_iff newline hbefore
        rw [hbefore, intercalate_eq_flatten_iff carriage last hended, hlast]
        simp [Nat.not_lt.mpr hstop]
    · rw [intercalate_append_eq_iff carriage _ hne hended hinserted, finalEnd_eq_nil_iff]
      simp [hinserted]
  · have htext : text ≠ [] := fun hnil => hstop (by simp [hnil, pieces])
    obtain ⟨front, last, hpieces, hfront, hend⟩ := exists_last_piece newline htext
    have hlength : (pieces newline text).length = front.length + 1 := by
      rw [hpieces, List.length_append, List.length_singleton]
    have hbefore : (pieces newline text).take start = front.take start := by
      rw [hpieces, List.take_append_of_le_length (by omega)]
    have hafter : (pieces newline text).drop stop = front.drop stop ++ [last] := by
      rw [hpieces, List.drop_append_of_le_length (by omega)]
    have hall : ∀ piece ∈ front.take start ++ front.drop stop, Ended newline piece := by
      intro piece hpiece
      rcases List.mem_append.mp hpiece with hpiece | hpiece
      · exact hfront piece (List.mem_of_mem_take hpiece)
      · exact hfront piece (List.mem_of_mem_drop hpiece)
    have hlast : last ≠ [] := pieces_ne_nil newline text last (by simp [hpieces])
    rw [hbefore] at hne
    rw [hbefore, hafter, intercalate_between_eq_iff carriage _ inserted hne hall hlast, hend,
      List.append_assoc]
    have hlt : stop < (pieces newline text).length := Nat.lt_of_not_le hstop
    simp [hlt]

end Joins

end TextLines
