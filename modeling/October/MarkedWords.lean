import Mathlib.Data.List.Infix
import Mathlib.Data.List.Count

/-!
Replacing each occurrence of a word in a text, from the left. The words here begin with a
mark that does not occur in their rest, so no two occurrences overlap, and a text can be
taken apart in front of every mark.
-/

namespace MarkedWords

variable {α : Type*} [DecidableEq α]

/-- The text after the first `skip` letters with `new` for each occurrence of the word. -/
def replaceFrom (word new : List α) : ℕ → List α → List α
  | _, [] => []
  | skip + 1, _ :: text => replaceFrom word new skip text
  | 0, c :: text =>
    if word <+: c :: text then new ++ replaceFrom word new (word.length - 1) text
    else c :: replaceFrom word new 0 text

def replace (word new text : List α) : List α := replaceFrom word new 0 text

section Scan

variable (word new : List α)

theorem replaceFrom_append (passed text : List α) :
    replaceFrom word new passed.length (passed ++ text) = replace word new text := by
  induction passed with
  | nil => rfl
  | cons c passed ih => exact ih

theorem replace_nil : replace word new [] = [] := rfl

variable {word}

theorem replace_word (hword : word ≠ []) (text : List α) :
    replace word new (word ++ text) = new ++ replace word new text := by
  obtain ⟨c, tail, rfl⟩ := List.exists_cons_of_ne_nil hword
  have hpre : c :: tail <+: c :: (tail ++ text) := List.prefix_append (c :: tail) text
  rw [replace, List.cons_append, replaceFrom, if_pos hpre]
  exact congrArg (new ++ ·) (replaceFrom_append (c :: tail) new tail text)

variable {new}

theorem replace_cons {c : α} {text : List α} (h : ¬ word <+: c :: text) :
    replace word new (c :: text) = c :: replace word new text := by
  rw [replace, replaceFrom, if_neg h]
  rfl

/-- A text is read word by word where the word stands, and letter by letter elsewhere. -/
theorem scan_induct {motive : List α → Prop} (hword : word ≠ []) (nil : motive [])
    (occurrence : ∀ text, motive text → motive (word ++ text))
    (letter : ∀ c text, ¬ word <+: c :: text → motive text → motive (c :: text))
    (text : List α) : motive text := by
  induction hn : text.length using Nat.strong_induction_on generalizing text with
  | _ n ih =>
    cases text with
    | nil => exact nil
    | cons c text =>
      by_cases hpre : word <+: c :: text
      · obtain ⟨rest, hrest⟩ := hpre
        have hlength := congrArg List.length hrest
        have hpos := List.length_pos_iff.mpr hword
        rw [List.length_append] at hlength
        exact hrest ▸ occurrence rest (ih rest.length (by omega) rest rfl)
      · exact letter c text hpre (ih text.length (by simp [← hn]) text rfl)

theorem replace_of_absent (hword : word ≠ []) {text : List α} (h : ¬ word <:+: text) :
    replace word new text = text := by
  induction text using scan_induct hword with
  | nil => rfl
  | occurrence text ih => exact absurd (List.prefix_append word text).isInfix h
  | letter c text hc ih =>
    rw [replace_cons hc, ih (fun hfound => h (List.infix_cons hfound))]

end Scan

section Marks

omit [DecidableEq α] in
theorem prefix_before_mark {mark : α} {u front text : List α} (hu : mark ∉ u)
    (h : u <+: front ++ mark :: text) : u <+: front := by
  rcases List.prefix_or_prefix_of_prefix h (List.prefix_append front _) with hle | ⟨rest, rfl⟩
  · exact hle
  · rw [List.prefix_append_right_inj, List.prefix_cons_iff] at h
    rcases h with rfl | ⟨rest, rfl, -⟩
    · rw [List.append_nil]
    · simp at hu

omit [DecidableEq α] in
/-- A word with its mark stands in a text behind letters other than the mark only if it
stands in the rest. -/
theorem infix_append_iff_of_notMem {mark : α} {u front text : List α} (hfront : mark ∉ front) :
    mark :: u <:+: front ++ text ↔ mark :: u <:+: text := by
  induction front with
  | nil => rfl
  | cons c front ih =>
    have hc : mark ≠ c := fun heq => hfront (heq ▸ List.mem_cons_self)
    rw [List.cons_append, List.infix_cons_iff, List.cons_prefix_cons,
      ih (fun hmem => hfront (List.mem_cons_of_mem _ hmem))]
    simp [hc]

variable {mark : α} {tail : List α} (htail : mark ∉ tail) (new : List α)

include htail in
/-- In front of a mark a text can be taken apart. -/
theorem replace_append_mark (front text : List α) :
    replace (mark :: tail) new (front ++ mark :: text) =
      replace (mark :: tail) new front ++ replace (mark :: tail) new (mark :: text) := by
  have hword : mark :: tail ≠ [] := List.cons_ne_nil _ _
  induction front using scan_induct hword with
  | nil => rfl
  | occurrence front ih =>
    rw [List.append_assoc, replace_word new hword, ih, replace_word new hword,
      List.append_assoc]
  | letter c front hc ih =>
    have hc' : ¬ mark :: tail <+: c :: (front ++ mark :: text) := by
      rw [List.cons_prefix_cons] at hc ⊢
      exact fun hpre => hc ⟨hpre.1, prefix_before_mark htail hpre.2⟩
    rw [List.cons_append, replace_cons hc', ih, replace_cons hc, List.cons_append]

theorem replace_letter {c : α} (hc : c ≠ mark) (text : List α) :
    replace (mark :: tail) new (c :: text) = c :: replace (mark :: tail) new text := by
  refine replace_cons (fun hpre => hc ?_)
  exact (List.cons_prefix_cons.mp hpre).1.symm

/-- Letters other than the mark stay. -/
theorem replace_letters {front : List α} (hfront : mark ∉ front) (text : List α) :
    replace (mark :: tail) new (front ++ text) = front ++ replace (mark :: tail) new text := by
  induction front with
  | nil => rfl
  | cons c front ih =>
    have hc : c ≠ mark := fun heq => hfront (heq ▸ List.mem_cons_self)
    rw [List.cons_append, replace_letter new hc, List.cons_append,
      ih (fun hmem => hfront (List.mem_cons_of_mem _ hmem))]

variable {new} (hnew : mark ∉ new)

include hnew in
/-- The marks of a text get fewer just if the word stands in it. -/
theorem count_replace (text : List α) :
    (replace (mark :: tail) new text).count mark ≤ text.count mark ∧
      ((replace (mark :: tail) new text).count mark = text.count mark →
        ¬ mark :: tail <:+: text) := by
  have hword : mark :: tail ≠ [] := List.cons_ne_nil _ _
  induction text using scan_induct hword with
  | nil => simp [replace_nil]
  | occurrence text ih =>
    have hcount : ((mark :: tail) ++ text).count mark ≥ text.count mark + 1 := by
      simp only [List.cons_append, List.count_cons_self, List.count_append]
      omega
    rw [replace_word new hword, List.count_append, List.count_eq_zero_of_not_mem hnew]
    exact ⟨by omega, fun heq => by omega⟩
  | letter c text hc ih =>
    rw [replace_cons hc, List.count_cons, List.count_cons, List.infix_cons_iff, not_or]
    exact ⟨by omega, fun heq => ⟨hc, ih.2 (by omega)⟩⟩

include hnew in
/-- Replacing two words in turn changes a text just if one of them stands in it. -/
theorem replace_replace_eq_iff (other : List α) (text : List α) :
    replace (mark :: other) new (replace (mark :: tail) new text) = text ↔
      ¬ mark :: tail <:+: text ∧ ¬ mark :: other <:+: text := by
  constructor
  · intro heq
    have hfirst := @count_replace α _ mark tail new hnew text
    have hsecond := @count_replace α _ mark other new hnew (replace (mark :: tail) new text)
    rw [heq] at hsecond
    have hcount : (replace (mark :: tail) new text).count mark = text.count mark := by omega
    have hnone := hfirst.2 hcount
    rw [replace_of_absent (List.cons_ne_nil _ _) hnone] at hsecond
    exact ⟨hnone, hsecond.2 rfl⟩
  · rintro ⟨hfirst, hsecond⟩
    rw [replace_of_absent (List.cons_ne_nil _ _) hfirst,
      replace_of_absent (List.cons_ne_nil _ _) hsecond]

end Marks

section Separated

variable {mark separator : α} {tail new : List α}

/-- The new text begins with a letter that does not stand in `u`, so no part of `u` comes
from it. -/
theorem prefix_of_prefix_replace {word u : List α} (hword : word ≠ [])
    (hu : separator ∉ u) {text : List α}
    (h : u <+: replace word (separator :: new) text) : u <+: text := by
  induction u generalizing text with
  | nil => exact List.nil_prefix
  | cons c u ih =>
    have hc : c ≠ separator := fun heq => hu (heq ▸ List.mem_cons_self)
    have hu' : separator ∉ u := fun hmem => hu (List.mem_cons_of_mem _ hmem)
    induction text using scan_induct hword with
    | nil => exact h
    | occurrence text _ =>
      rw [replace_word _ hword, List.cons_append, List.cons_prefix_cons] at h
      exact absurd h.1 hc
    | letter d text hd _ =>
      rw [replace_cons hd, List.cons_prefix_cons] at h
      exact List.cons_prefix_cons.mpr ⟨h.1, ih hu' h.2⟩

theorem replace_eq_nil_iff {word : List α} (hword : word ≠ []) (text : List α) :
    replace word (separator :: new) text = [] ↔ text = [] := by
  induction text using scan_induct hword with
  | nil => exact Iff.rfl
  | occurrence text _ => simp [replace_word _ hword, hword]
  | letter c text hc _ => simp [replace_cons hc]

/-- A word that stands in the result stood in the text, and was not replaced there. -/
theorem infix_of_infix_replace {u : List α} (hnew : mark ∉ separator :: new)
    (hu : separator ∉ u) {text : List α}
    (h : mark :: u <:+: replace (mark :: tail) (separator :: new) text) :
    mark :: u <:+: text ∧ u ≠ tail := by
  have hword : mark :: tail ≠ [] := List.cons_ne_nil _ _
  induction text using scan_induct hword with
  | nil => simp [replace_nil] at h
  | occurrence text ih =>
    rw [replace_word _ hword, infix_append_iff_of_notMem hnew] at h
    exact ⟨List.infix_append_of_infix_right (ih h).1, (ih h).2⟩
  | letter c text hc ih =>
    rw [replace_cons hc, List.infix_cons_iff, List.cons_prefix_cons] at h
    rcases h with ⟨rfl, hpre⟩ | hfound
    · have hpre' : mark :: u <+: mark :: text :=
        List.cons_prefix_cons.mpr ⟨rfl, prefix_of_prefix_replace hword hu hpre⟩
      exact ⟨hpre'.isInfix, fun heq => hc (heq ▸ hpre')⟩
    · exact ⟨List.infix_cons (ih hfound).1, (ih hfound).2⟩

/-- Neither of two words stands in a text where both were replaced. -/
theorem not_infix_replace_replace {other : List α} (hnew : mark ∉ separator :: new)
    (htail : separator ∉ tail) (hother : separator ∉ other) (text : List α) :
    ¬ mark :: tail <:+: replace (mark :: other) (separator :: new)
        (replace (mark :: tail) (separator :: new) text) ∧
      ¬ mark :: other <:+: replace (mark :: other) (separator :: new)
        (replace (mark :: tail) (separator :: new) text) := by
  constructor
  · intro h
    exact (infix_of_infix_replace hnew htail (infix_of_infix_replace hnew htail h).1).2 rfl
  · intro h
    exact (infix_of_infix_replace hnew hother h).2 rfl

end Separated

section Stripped

variable (mark : α) (first second : List α)

/-- The text without two words, of which the first is taken out first. -/
def strip (text : List α) : List α :=
  replace (mark :: second) [] (replace (mark :: first) [] text)

/-- The text consists of the words; the second one may stand around first ones. -/
def Blank (text : List α) : Prop := strip mark first second text = []

/-- The letters stand in the text from its start to the rest, with nothing but the words
between them. -/
def Spelled : List α → List α → List α → Prop
  | [], text, rest => text = rest
  | c :: u, text, rest =>
    ∃ blank behind, text = blank ++ c :: behind ∧ Blank mark first second blank ∧
      Spelled u behind rest

def Bare (text : List α) : Prop :=
  ¬ first <+: text ∧ ¬ second <+: replace (mark :: first) [] text

variable {mark first second}

/-- Where a letter of the result stands in the text. -/
theorem replace_split {word : List α} (hword : word ≠ []) {text x y : List α} {c : α}
    (h : replace word [] text = x ++ c :: y) :
    ∃ before rest, text = before ++ c :: rest ∧ ¬ word <+: c :: rest ∧
      replace word [] before = x ∧ replace word [] rest = y := by
  induction text using scan_induct hword generalizing x with
  | nil => simp [replace_nil] at h
  | occurrence text ih =>
    rw [replace_word _ hword, List.nil_append] at h
    obtain ⟨before, rest, rfl, hrest, hbefore, hbehind⟩ := ih h
    exact ⟨word ++ before, rest, by rw [List.append_assoc], hrest,
      by rw [replace_word _ hword, List.nil_append, hbefore], hbehind⟩
  | letter d text hd ih =>
    rw [replace_cons hd] at h
    cases x with
    | nil =>
      obtain ⟨rfl, hy⟩ := List.cons.inj h
      exact ⟨[], text, rfl, hd, rfl, hy⟩
    | cons d' x =>
      obtain ⟨rfl, hx⟩ := List.cons.inj h
      obtain ⟨before, rest, rfl, hrest, hbefore, hbehind⟩ := ih hx
      have hd' : ¬ word <+: d :: before := fun hpre =>
        hd (hpre.trans (List.prefix_append (d :: before) (c :: rest)))
      exact ⟨d :: before, rest, rfl, hrest, by rw [replace_cons hd', hbefore], hbehind⟩

theorem strip_split {text x y : List α} {c : α}
    (h : strip mark first second text = x ++ c :: y) :
    ∃ before rest, text = before ++ c :: rest ∧ (c = mark → Bare mark first second rest) ∧
      strip mark first second before = x ∧ strip mark first second rest = y := by
  obtain ⟨before', rest', htext', hsecond, hbefore', hrest'⟩ :=
    replace_split (List.cons_ne_nil _ _) h
  obtain ⟨before, rest, htext, hfirst, rfl, rfl⟩ := replace_split (List.cons_ne_nil _ _) htext'
  refine ⟨before, rest, htext, ?_, hbefore', hrest'⟩
  rintro rfl
  exact ⟨fun hpre => hfirst (List.cons_prefix_cons.mpr ⟨rfl, hpre⟩),
    fun hpre => hsecond (List.cons_prefix_cons.mpr ⟨rfl, hpre⟩)⟩

variable (hfirst : mark ∉ first) (hsecond : mark ∉ second)

include hfirst hsecond in
/-- A mark that does not begin one of the words stays, and what stands in front of it and
behind it is read apart. -/
theorem strip_append_mark (before : List α) {rest : List α} (h : Bare mark first second rest) :
    strip mark first second (before ++ mark :: rest) =
      strip mark first second before ++ mark :: strip mark first second rest := by
  have hfirst' : ¬ mark :: first <+: mark :: rest :=
    fun hpre => h.1 (List.cons_prefix_cons.mp hpre).2
  have hsecond' : ¬ mark :: second <+: mark :: replace (mark :: first) [] rest :=
    fun hpre => h.2 (List.cons_prefix_cons.mp hpre).2
  rw [strip, replace_append_mark hfirst, replace_cons hfirst', replace_append_mark hsecond,
    replace_cons hsecond']
  rfl

/-- What becomes letters other than the mark can be taken off. -/
theorem replace_front {u : List α} (hu : mark ∉ u) {text y : List α}
    (h : replace (mark :: first) [] text = u ++ y) :
    ∃ front rest, text = front ++ rest ∧ replace (mark :: first) [] rest = y ∧
      ∀ behind, replace (mark :: first) [] (front ++ behind) =
        u ++ replace (mark :: first) [] behind := by
  have hword : mark :: first ≠ [] := List.cons_ne_nil _ _
  induction text using scan_induct hword generalizing u with
  | nil =>
    obtain ⟨rfl, rfl⟩ := List.append_eq_nil_iff.mp h.symm
    exact ⟨[], [], rfl, rfl, fun _ => rfl⟩
  | occurrence text ih =>
    rw [replace_word _ hword, List.nil_append] at h
    obtain ⟨front, rest, rfl, hrest, hfront⟩ := ih hu h
    refine ⟨(mark :: first) ++ front, rest, by rw [List.append_assoc], hrest, fun behind => ?_⟩
    rw [List.append_assoc, replace_word _ hword, List.nil_append, hfront]
  | letter c text hc ih =>
    cases u with
    | nil => exact ⟨[], c :: text, rfl, h, fun _ => rfl⟩
    | cons c' u =>
      rw [replace_cons hc] at h
      obtain ⟨rfl, hu'⟩ := List.cons.inj h
      obtain ⟨front, rest, rfl, hrest, hfront⟩ :=
        ih (fun hmem => hu (List.mem_cons_of_mem _ hmem)) hu'
      have hcmark : c ≠ mark := by
        rintro rfl
        exact hu List.mem_cons_self
      refine ⟨c :: front, rest, rfl, hrest, fun behind => ?_⟩
      rw [List.cons_append, replace_letter _ hcmark, hfront]
      rfl

include hfirst hsecond in
/-- A blank in front of a text is read apart, when the first word does not begin like the
second. -/
theorem strip_blank_append (hdiff : ¬ second <+: first) {blank : List α}
    (h : Blank mark first second blank) (text : List α) :
    strip mark first second (blank ++ text) = strip mark first second text := by
  have hword : ∀ tail : List α, mark :: tail ≠ [] := fun tail => List.cons_ne_nil _ _
  induction hn : blank.length using Nat.strong_induction_on generalizing blank with
  | _ n ih =>
    cases blank with
    | nil => rfl
    | cons c blank =>
      by_cases hpre : mark :: first <+: c :: blank
      · obtain ⟨blank', hblank⟩ := hpre
        rw [← hblank] at h hn ⊢
        rw [List.append_assoc, strip, replace_word _ (hword first), List.nil_append]
        rw [Blank, strip, replace_word _ (hword first), List.nil_append] at h
        have hlt : blank'.length < n := by
          simp only [← hn, List.length_append, List.length_cons]
          omega
        exact ih blank'.length hlt h rfl
      · rw [Blank, strip, replace_cons hpre] at h
        by_cases hpre' : mark :: second <+: c :: replace (mark :: first) [] blank
        · -- the second word stands here, around first ones
          obtain ⟨rfl, y, hy⟩ := List.cons_prefix_cons.mp hpre'
          obtain ⟨front, blank', rfl, hblank', hfront⟩ := replace_front hsecond hy.symm
          have hbare : ¬ mark :: first <+: mark :: (front ++ (blank' ++ text)) := by
            intro hall
            have hall' := (List.cons_prefix_cons.mp hall).2
            rw [← List.append_assoc] at hall'
            rcases List.prefix_or_prefix_of_prefix hall' (List.prefix_append _ text) with
              hle | hle
            · exact hpre (List.cons_prefix_cons.mpr ⟨rfl, hle⟩)
            · have hmem : mark ∉ front ++ blank' := fun hmem => hfirst (hle.subset hmem)
              have hsame := @replace_letters α _ mark first [] _ hmem []
              rw [List.append_nil, replace_nil, List.append_nil, ← hy] at hsame
              exact hdiff ((List.prefix_append second y).trans (hsame ▸ hle))
          rw [← hy, ← List.cons_append, replace_word _ (hword second), List.nil_append] at h
          rw [List.cons_append, List.append_assoc, strip, replace_cons hbare, hfront,
            ← List.cons_append, replace_word _ (hword second), List.nil_append]
          have hlt : blank'.length < n := by
            simp only [← hn, List.length_append, List.length_cons]
            omega
          refine ih blank'.length hlt ?_ rfl
          rw [Blank, strip, hblank', h]
        · rw [replace_cons hpre'] at h
          cases h

include hfirst hsecond in
/-- Letters are the first of a text without the words just if they are spelled there. -/
theorem strip_eq_append_iff (hdiff : ¬ second <+: first) {u : List α} (hu : mark ∉ u)
    (text y : List α) :
    strip mark first second text = u ++ y ↔
      ∃ rest, Spelled mark first second u text rest ∧ strip mark first second rest = y := by
  induction u generalizing text with
  | nil => simp [Spelled]
  | cons c u ih =>
    have hu' : mark ∉ u := fun hmem => hu (List.mem_cons_of_mem _ hmem)
    have hc : c ≠ mark := by
      rintro rfl
      exact hu List.mem_cons_self
    constructor
    · intro h
      obtain ⟨blank, behind, htext, -, hblank, hbehind⟩ := strip_split (x := []) h
      obtain ⟨rest, hspelled, hrest⟩ := (ih hu' behind).mp hbehind
      exact ⟨rest, ⟨blank, behind, htext, hblank, hspelled⟩, hrest⟩
    · rintro ⟨rest, ⟨blank, behind, rfl, hblank, hspelled⟩, hrest⟩
      have hbehind := (ih hu' behind).mpr ⟨rest, hspelled, hrest⟩
      rw [strip_blank_append hfirst hsecond hdiff hblank, strip, replace_letter _ hc,
        replace_letter _ hc]
      exact congrArg (c :: ·) hbehind

include hfirst hsecond in
/-- A word with the mark stands in a text without the words just if it is spelled there
behind a bare mark. -/
theorem infix_strip_iff (hdiff : ¬ second <+: first) {u : List α} (hu : mark ∉ u)
    (text : List α) :
    mark :: u <:+: strip mark first second text ↔
      ∃ before rest behind, text = before ++ mark :: rest ∧ Bare mark first second rest ∧
        Spelled mark first second u rest behind := by
  constructor
  · rintro ⟨x, y, h⟩
    rw [List.append_assoc] at h
    obtain ⟨before, rest, htext, hbare, -, hrest⟩ := strip_split (x := x) h.symm
    obtain ⟨behind, hspelled, -⟩ :=
      (strip_eq_append_iff hfirst hsecond hdiff hu rest y).mp hrest
    exact ⟨before, rest, behind, htext, hbare rfl, hspelled⟩
  · rintro ⟨before, rest, behind, rfl, hbare, hspelled⟩
    have hrest := (strip_eq_append_iff hfirst hsecond hdiff hu rest _).mpr ⟨behind, hspelled, rfl⟩
    rw [strip_append_mark hfirst hsecond before hbare, hrest]
    exact ⟨_, _, List.append_assoc _ _ _⟩

end Stripped

end MarkedWords
