import Mathlib.Data.List.Basic

/-!
Texts that tell where they end. The text of a value is told from the texts of the
others if, in front of whatever may follow it, it is the text of no other value and
ends nowhere else. Words, pairs and separated lists of such texts are such texts again,
so what they are written from can be read back.
-/

namespace SelfDelimiting

variable {α β γ : Type*}

/-- Among the texts of `others`, and in front of what satisfies `stop`, the text of `x`
is that of `x` alone, and ends where it ends. -/
def Told (code : α → List β) (others : α → Prop) (stop : List β → Prop) (x : α) : Prop :=
  ∀ y, others y → ∀ rest rest', stop rest → stop rest' →
    code x ++ rest = code y ++ rest' → x = y ∧ rest = rest'

def StopsAt (p : β → Prop) (rest : List β) : Prop := ∀ c ∈ rest.head?, ¬ p c

theorem stopsAt_nil (p : β → Prop) : StopsAt p [] := by
  intro c hc
  cases hc

theorem stopsAt_cons {p : β → Prop} {c : β} (rest : List β) (h : ¬ p c) :
    StopsAt p (c :: rest) := by
  intro d hd
  cases Option.some.inj (Option.mem_def.mp hd)
  exact h

theorem StopsAt.not_of_cons {p : β → Prop} {c : β} {rest : List β}
    (h : StopsAt p (c :: rest)) : ¬ p c := h c rfl

/-- What stops at the letters that a text starts with is not that text. -/
theorem StopsAt.ne_append {p : β → Prop} {rest text : List β} (h : StopsAt p rest)
    (hstarts : ∃ c tail, text = c :: tail ∧ p c) (back : List β) : rest ≠ text ++ back := by
  obtain ⟨c, tail, rfl, hc⟩ := hstarts
  rintro rfl
  exact h.not_of_cons hc

theorem Told.mono {code : α → List β} {others : α → Prop} {stop stop' : List β → Prop} {x : α}
    (h : Told code others stop x) (hstop : ∀ rest, stop' rest → stop rest) :
    Told code others stop' x :=
  fun y hy rest rest' hrest hrest' heq =>
    h y hy rest rest' (hstop rest hrest) (hstop rest' hrest') heq

/-- What can be read back is told. -/
theorem told_of_read {code : α → List β} (read : List β → Option (α × List β))
    (hread : ∀ x rest, read (code x ++ rest) = some (x, rest)) (x : α) :
    Told code (fun _ => True) (fun _ => True) x := by
  intro y _ rest rest' _ _ heq
  have hsame : some (x, rest) = some (y, rest') := by rw [← hread, ← hread, heq]
  exact Prod.mk.inj (Option.some.inj hsame)

/-- A word over some letters ends at the first other one. -/
theorem told_word {p : β → Prop} {word : List β} (hword : ∀ c ∈ word, p c) :
    Told id (fun other => ∀ c ∈ other, p c) (StopsAt p) word := by
  induction word with
  | nil =>
    intro other hother rest rest' hrest _ heq
    cases other with
    | nil => exact ⟨rfl, heq⟩
    | cons c other =>
      obtain rfl : rest = c :: (other ++ rest') := heq
      exact absurd (hother c List.mem_cons_self) hrest.not_of_cons
  | cons c word ih =>
    intro other hother rest rest' hrest hrest' heq
    cases other with
    | nil =>
      obtain rfl : c :: (word ++ rest) = rest' := heq
      exact absurd (hword c List.mem_cons_self) hrest'.not_of_cons
    | cons d other =>
      obtain ⟨rfl, htail⟩ := List.cons.inj heq
      obtain ⟨rfl, hsame⟩ := ih (fun e he => hword e (List.mem_cons_of_mem _ he)) other
        (fun e he => hother e (List.mem_cons_of_mem _ he)) rest rest' hrest hrest' htail
      exact ⟨rfl, hsame⟩

/-- Two texts with a mark between them, at which the first of them ends. -/
theorem told_pair {code₁ : α → List β} {code₂ : γ → List β} {others₁ : α → Prop}
    {others₂ : γ → Prop} {stop₁ stop₂ : List β → Prop} {mark : β} {x : α × γ}
    (hfirst : Told code₁ others₁ stop₁ x.1) (hmark : ∀ rest, stop₁ (mark :: rest))
    (hsecond : Told code₂ others₂ stop₂ x.2) :
    Told (fun p : α × γ => code₁ p.1 ++ mark :: code₂ p.2)
      (fun p => others₁ p.1 ∧ others₂ p.2) stop₂ x := by
  rintro y ⟨hy₁, hy₂⟩ rest rest' hrest hrest' heq
  simp only [List.append_assoc, List.cons_append] at heq
  obtain ⟨hfst, htail⟩ := hfirst y.1 hy₁ _ _ (hmark _) (hmark _) heq
  obtain ⟨hsnd, hsame⟩ :=
    hsecond y.2 hy₂ rest rest' hrest hrest' (List.cons.inj htail).2
  exact ⟨Prod.ext hfst hsnd, hsame⟩

/-- Texts one after the other, each of which starts with a letter that what follows
the last one does not start with. -/
theorem told_flatMap {code : α → List β} {others : α → Prop} {stop : List β → Prop}
    {starts : β → Prop} {xs : List α} (hcode : ∀ x ∈ xs, Told code others stop x)
    (hxs : ∀ x ∈ xs, others x)
    (hstarts : ∀ y, others y → ∃ c rest, code y = c :: rest ∧ starts c)
    (hstop : ∀ c rest, starts c → stop (c :: rest)) :
    Told (fun xs => xs.flatMap code) (fun ys => ∀ y ∈ ys, others y)
      (fun rest => stop rest ∧ StopsAt starts rest) xs := by
  have hfollow : ∀ zs : List α, (∀ z ∈ zs, others z) → ∀ rest, stop rest →
      stop (zs.flatMap code ++ rest) := by
    intro zs hzs rest hrest
    cases zs with
    | nil => exact hrest
    | cons z zs =>
      obtain ⟨c, tail, hz, hc⟩ := hstarts z (hzs z List.mem_cons_self)
      rw [List.flatMap_cons, hz]
      exact hstop c _ hc
  -- a list that goes on where the other one has ended starts with a letter it must not
  have hended : ∀ z zs, others z → ∀ rest rest', StopsAt starts rest →
      rest ≠ (z :: zs).flatMap code ++ rest' := by
    intro z zs hz rest rest' hrest
    rw [List.flatMap_cons, List.append_assoc]
    exact hrest.ne_append (hstarts z hz) _
  induction xs with
  | nil =>
    intro ys hys rest rest' hrest hrest' heq
    cases ys with
    | nil => exact ⟨rfl, heq⟩
    | cons y ys => exact absurd heq (hended y ys (hys y List.mem_cons_self) _ _ hrest.2)
  | cons x xs ih =>
    intro ys hys rest rest' hrest hrest' heq
    cases ys with
    | nil => exact absurd heq.symm (hended x xs (hxs x List.mem_cons_self) _ _ hrest'.2)
    | cons y ys =>
      have hxs' : ∀ z ∈ xs, others z := fun z hz => hxs z (List.mem_cons_of_mem _ hz)
      have hys' : ∀ z ∈ ys, others z := fun z hz => hys z (List.mem_cons_of_mem _ hz)
      simp only [List.flatMap_cons, List.append_assoc] at heq
      obtain ⟨rfl, htail⟩ := hcode x List.mem_cons_self y (hys y List.mem_cons_self) _ _
        (hfollow xs hxs' rest hrest.1) (hfollow ys hys' rest' hrest'.1) heq
      obtain ⟨rfl, hsame⟩ := ih (fun z hz => hcode z (List.mem_cons_of_mem _ hz)) hxs' ys hys'
        rest rest' hrest hrest' htail
      exact ⟨rfl, hsame⟩

def separated (sep : β) (code : α → List β) : List α → List β
  | [] => []
  | x :: xs => code x ++ xs.flatMap (fun y => sep :: code y)

/-- Separated texts end where neither a separator nor the start of another text
follows. -/
theorem told_separated {code : α → List β} {others : α → Prop} {stop : List β → Prop}
    {starts : β → Prop} {sep : β} {xs : List α}
    (hcode : ∀ x ∈ xs, Told code others stop x) (hxs : ∀ x ∈ xs, others x)
    (hstarts : ∀ y, others y → ∃ c rest, code y = c :: rest ∧ starts c)
    (hsep : ∀ rest, stop (sep :: rest)) :
    Told (separated sep code) (fun ys => ∀ y ∈ ys, others y)
      (fun rest => stop rest ∧ StopsAt starts rest ∧ StopsAt (· = sep) rest) xs := by
  have hended : ∀ z zs, others z → ∀ rest rest', StopsAt starts rest →
      rest ≠ separated sep code (z :: zs) ++ rest' := by
    intro z zs hz rest rest' hrest
    rw [separated, List.append_assoc]
    exact hrest.ne_append (hstarts z hz) _
  have hfollow : ∀ (zs : List α) (rest : List β), stop rest →
      stop (zs.flatMap (fun y => sep :: code y) ++ rest) := by
    intro zs rest hrest
    cases zs with
    | nil => exact hrest
    | cons z zs => exact hsep _
  intro ys hys rest rest' hrest hrest' heq
  cases xs with
  | nil =>
    cases ys with
    | nil => exact ⟨rfl, heq⟩
    | cons y ys => exact absurd heq (hended y ys (hys y List.mem_cons_self) _ _ hrest.2.1)
  | cons x xs =>
    cases ys with
    | nil => exact absurd heq.symm (hended x xs (hxs x List.mem_cons_self) _ _ hrest'.2.1)
    | cons y ys =>
      simp only [separated, List.append_assoc] at heq
      obtain ⟨rfl, htail⟩ := hcode x List.mem_cons_self y (hys y List.mem_cons_self) _ _
        (hfollow xs rest hrest.1) (hfollow ys rest' hrest'.1) heq
      have hlater : ∀ z ∈ xs, Told (fun y => sep :: code y) others stop z := by
        intro z hz w hw back back' hback hback' hsame
        exact hcode z (List.mem_cons_of_mem _ hz) w hw back back' hback hback'
          (List.cons.inj hsame).2
      have hlist : Told (fun zs => zs.flatMap (fun y => sep :: code y))
          (fun ys => ∀ y ∈ ys, others y) (fun rest => stop rest ∧ StopsAt (· = sep) rest) xs :=
        told_flatMap hlater (fun z hz => hxs z (List.mem_cons_of_mem _ hz))
          (fun y _ => ⟨sep, code y, rfl, rfl⟩) (fun c rest hc => hc ▸ hsep rest)
      obtain ⟨rfl, hsame⟩ := hlist ys (fun z hz => hys z (List.mem_cons_of_mem _ hz)) rest rest'
        ⟨hrest.1, hrest.2.2⟩ ⟨hrest'.1, hrest'.2.2⟩ htail
      exact ⟨rfl, hsame⟩

/-- Separated texts in brackets end at the closing one. -/
theorem told_enclosed {code : α → List β} {others : α → Prop} {stop : List β → Prop}
    {starts : β → Prop} {opening sep closing : β} {xs : List α}
    (hcode : ∀ x ∈ xs, Told code others stop x) (hxs : ∀ x ∈ xs, others x)
    (hstarts : ∀ y, others y → ∃ c rest, code y = c :: rest ∧ starts c)
    (hsep : ∀ rest, stop (sep :: rest)) (hclosing : ∀ rest, stop (closing :: rest))
    (hnot : ¬ starts closing) (hne : closing ≠ sep) :
    Told (fun xs => opening :: (separated sep code xs ++ [closing]))
      (fun ys => ∀ y ∈ ys, others y) (fun _ => True) xs := by
  intro ys hys rest rest' _ _ heq
  have hend : ∀ rest, stop (closing :: rest) ∧ StopsAt starts (closing :: rest) ∧
      StopsAt (· = sep) (closing :: rest) := fun rest =>
    ⟨hclosing rest, stopsAt_cons rest hnot, stopsAt_cons rest hne⟩
  simp only [List.cons_append, List.append_assoc, List.nil_append] at heq
  obtain ⟨rfl, htail⟩ := told_separated hcode hxs hstarts hsep ys hys _ _ (hend rest)
    (hend rest') (List.cons.inj heq).2
  exact ⟨rfl, (List.cons.inj htail).2⟩

/-- Separated texts are joined with the separator. -/
theorem intercalate_eq_separated (sep : β) (code : α → List β) (xs : List α) :
    [sep].intercalate (xs.map code) = separated sep code xs := by
  cases xs with
  | nil => rfl
  | cons x xs =>
    induction xs generalizing x with
    | nil => simp [separated, List.intercalate]
    | cons y ys ih =>
      rw [List.map_cons, List.map_cons, List.intercalate_cons_cons, ← List.map_cons, ih]
      simp [separated]

end SelfDelimiting
