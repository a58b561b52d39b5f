/-!
Programs that may fail, or never return, and work on a state that outlives them. A failure
ends the program where it happens; what it has done to the state by then stays, unless a
guard undoes it on the way out.
-/

/-- What a program returns and the state it leaves, if it returns. -/
def Fallible (σ ε α : Type) : Type := σ → Option (Except ε α × σ)

namespace Fallible

variable {σ ε α β : Type}

instance : Monad (Fallible σ ε) where
  pure a := fun s => some (.ok a, s)
  bind x f := fun s =>
    match x s with
    | none => none
    | some (.error e, s') => some (.error e, s')
    | some (.ok a, s') => f a s'

def attempt (result : Except ε α) : Fallible σ ε α := fun s => some (result, s)

def update (f : σ → σ) : Fallible σ ε Unit := fun s => some (.ok (), f s)

/-- A failure inside is passed on after `undo`. -/
def guarded (undo : σ → σ) (x : Fallible σ ε α) : Fallible σ ε α := fun s =>
  match x s with
  | some (.error e, s') => some (.error e, undo s')
  | result => result

def Fails (x : Fallible σ ε α) (s s' : σ) : Prop := ∃ e, x s = some (.error e, s')

def Gives (x : Fallible σ ε α) (s : σ) (a : α) (s' : σ) : Prop := x s = some (.ok a, s')

variable {s s' : σ}

theorem bind_apply (x : Fallible σ ε α) (f : α → Fallible σ ε β) (s : σ) :
    (x >>= f) s = match x s with
      | none => none
      | some (.error e, s') => some (.error e, s')
      | some (.ok a, s') => f a s' := rfl

@[simp] theorem fails_pure (a : α) : ¬ (pure a : Fallible σ ε α).Fails s s' := by
  rintro ⟨e, h⟩
  cases h

@[simp] theorem gives_pure (a b : α) :
    (pure a : Fallible σ ε α).Gives s b s' ↔ b = a ∧ s' = s := by
  constructor
  · intro h
    cases h
    exact ⟨rfl, rfl⟩
  · rintro ⟨rfl, rfl⟩
    rfl

/-- A sequence fails in its first part, or in what follows it. -/
@[simp] theorem fails_bind (x : Fallible σ ε α) (f : α → Fallible σ ε β) :
    (x >>= f).Fails s s' ↔ x.Fails s s' ∨ ∃ a t, x.Gives s a t ∧ (f a).Fails t s' := by
  unfold Fails Gives
  rw [bind_apply]
  rcases x s with - | ⟨e | a, t⟩
  · simp
  · simp
  · constructor
    · exact fun h => .inr ⟨a, t, rfl, h⟩
    · rintro (⟨e, h⟩ | ⟨b, u, h, hfails⟩)
      · cases h
      · cases h
        exact hfails

@[simp] theorem gives_bind (x : Fallible σ ε α) (f : α → Fallible σ ε β) (b : β) :
    (x >>= f).Gives s b s' ↔ ∃ a t, x.Gives s a t ∧ (f a).Gives t b s' := by
  unfold Gives
  rw [bind_apply]
  rcases x s with - | ⟨e | a, t⟩
  · simp
  · simp
  · constructor
    · exact fun h => ⟨a, t, rfl, h⟩
    · rintro ⟨a', u, h, hgives⟩
      cases h
      exact hgives

@[simp] theorem fails_attempt (result : Except ε α) :
    (attempt result : Fallible σ ε α).Fails s s' ↔ (∃ e, result = .error e) ∧ s' = s := by
  constructor
  · rintro ⟨e, h⟩
    obtain ⟨rfl, rfl⟩ := Prod.mk.inj (Option.some.inj h)
    exact ⟨⟨e, rfl⟩, rfl⟩
  · rintro ⟨⟨e, rfl⟩, rfl⟩
    exact ⟨e, rfl⟩

@[simp] theorem gives_attempt (result : Except ε α) (a : α) :
    (attempt result : Fallible σ ε α).Gives s a s' ↔ result = .ok a ∧ s' = s := by
  constructor
  · intro h
    obtain ⟨rfl, rfl⟩ := Prod.mk.inj (Option.some.inj h)
    exact ⟨rfl, rfl⟩
  · rintro ⟨rfl, rfl⟩
    rfl

@[simp] theorem fails_update (f : σ → σ) : ¬ (update f : Fallible σ ε Unit).Fails s s' := by
  rintro ⟨e, h⟩
  cases h

@[simp] theorem gives_update (f : σ → σ) (u : Unit) :
    (update f : Fallible σ ε Unit).Gives s u s' ↔ s' = f s := by
  constructor
  · intro h
    exact (Prod.mk.inj (Option.some.inj h)).2.symm
  · rintro rfl
    rfl

/-- An attempt fails, or its result goes on to what follows. -/
theorem fails_attempt_bind (result : Except ε α) (f : α → Fallible σ ε β) :
    (attempt result >>= f).Fails s s' ↔
      (∃ e, result = .error e) ∧ s' = s ∨ ∃ a, result = .ok a ∧ (f a).Fails s s' := by
  rw [fails_bind, fails_attempt]
  refine or_congr_right (exists_congr (fun a => ?_))
  constructor
  · rintro ⟨t, hgives, hfails⟩
    obtain ⟨hok, rfl⟩ := (gives_attempt _ _).mp hgives
    exact ⟨hok, hfails⟩
  · rintro ⟨hok, hfails⟩
    exact ⟨s, (gives_attempt _ _).mpr ⟨hok, rfl⟩, hfails⟩

theorem fails_update_bind (g : σ → σ) (f : Unit → Fallible σ ε β) :
    (update g >>= f).Fails s s' ↔ (f ()).Fails (g s) s' := by
  constructor
  · intro h
    rcases (fails_bind _ _).mp h with h | ⟨u, t, hgives, hfails⟩
    · exact absurd h (fails_update g)
    · rw [(gives_update g u).mp hgives] at hfails
      exact hfails
  · intro h
    exact (fails_bind _ _).mpr (.inr ⟨(), g s, (gives_update g ()).mpr rfl, h⟩)

theorem gives_attempt_bind (result : Except ε α) (f : α → Fallible σ ε β) (b : β) :
    (attempt result >>= f).Gives s b s' ↔ ∃ a, result = .ok a ∧ (f a).Gives s b s' := by
  rw [gives_bind]
  refine exists_congr (fun a => ?_)
  constructor
  · rintro ⟨t, hgives, hrest⟩
    obtain ⟨hok, rfl⟩ := (gives_attempt _ _).mp hgives
    exact ⟨hok, hrest⟩
  · rintro ⟨hok, hrest⟩
    exact ⟨s, (gives_attempt _ _).mpr ⟨hok, rfl⟩, hrest⟩

theorem gives_update_bind (g : σ → σ) (f : Unit → Fallible σ ε β) (b : β) :
    (update g >>= f).Gives s b s' ↔ (f ()).Gives (g s) b s' := by
  rw [gives_bind]
  constructor
  · rintro ⟨u, t, hgives, hrest⟩
    rw [(gives_update g u).mp hgives] at hrest
    exact hrest
  · exact fun h => ⟨(), g s, (gives_update g ()).mpr rfl, h⟩

@[simp] theorem mapError_error {ε' : Type} (f : ε → ε') (x : Except ε α) :
    (∃ e, x.mapError f = .error e) ↔ ∃ e, x = .error e := by
  cases x with
  | error e => exact iff_of_true ⟨f e, rfl⟩ ⟨e, rfl⟩
  | ok a =>
    constructor
    · rintro ⟨e, h⟩
      cases h
    · rintro ⟨e, h⟩
      cases h

@[simp] theorem mapError_ok {ε' : Type} (f : ε → ε') (x : Except ε α) (a : α) :
    x.mapError f = .ok a ↔ x = .ok a := by
  constructor
  · intro h
    cases x with
    | error e => cases h
    | ok b => exact congrArg Except.ok (Except.ok.inj h)
  · rintro rfl
    rfl

/-- A guarded program fails where its inside does, after undoing. -/
@[simp] theorem fails_guarded (undo : σ → σ) (x : Fallible σ ε α) :
    (guarded undo x).Fails s s' ↔ ∃ t, x.Fails s t ∧ s' = undo t := by
  unfold Fails guarded
  rcases x s with - | ⟨e | a, t⟩
  · simp
  · constructor
    · rintro ⟨e', h⟩
      cases h
      exact ⟨t, ⟨e, rfl⟩, rfl⟩
    · rintro ⟨u, ⟨e', h⟩, rfl⟩
      cases h
      exact ⟨e, rfl⟩
  · simp

/-- Success goes through a guard unchanged. -/
@[simp] theorem gives_guarded (undo : σ → σ) (x : Fallible σ ε α) (a : α) :
    (guarded undo x).Gives s a s' ↔ x.Gives s a s' := by
  unfold Gives guarded
  rcases x s with - | ⟨e | b, t⟩
  · rfl
  · simp
  · rfl

end Fallible
