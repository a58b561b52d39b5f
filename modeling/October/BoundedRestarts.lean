import October.EntrySteps
import October.OneInstance

/-!
How often the health check restarts a runtime. Between the creation of an entry and its
removal it does so at most `max_restarts` times, whatever the dispatch loop does beside
it: the restart count is at least the number of automatic restarts, and only the health
check adds to those after it has read the count. This needs that the count never wraps,
which `begin_restart` does not prevent.
-/
namespace October.BoundedRestarts

open Await Executor RuntimeOwnership TaskOwnership EntrySteps

inductive RestartEvent where
  | removed (id : String)
  | restarted (id : String)
  deriving DecidableEq

def removes (m : Memory) : Op → List RestartEvent
  | .completeStop id => if (m.registry.get id).isSome then [.removed id] else []
  | _ => []

def restarts (m : Memory) : Op → List RestartEvent
  | .beginRestart id =>
    match (m.registry.beginRestart id).1 with
    | .ok _ => [.restarted id]
    | .error _ => []
  | _ => []

def events (loop : Loop) (m : Memory) (o : Op) : List RestartEvent :=
  match loop with
  | .dispatch => removes m o
  | .check => removes m o ++ restarts m o

def shows (s : Executor) : ExecutorLabel → List RestartEvent
  | .dispatch _ => s.dispatching.awaits.elim [] (events .dispatch s.memory)
  | .check _ => s.checking.awaits.elim [] (events .check s.memory)
  | _ => []

def countEvent (id : String) (n : ℕ) : RestartEvent → ℕ
  | .removed other => if other = id then 0 else n
  | .restarted other => if other = id then n + 1 else n

/-- The restarts that the health check began since the entry of `id` was created. -/
def autoRestarts (id : String) (shown : List RestartEvent) : ℕ := shown.foldl (countEvent id) 0

def begins (s : Executor) : ExecutorLabel → Option String
  | .dispatch _ => s.dispatching.awaits.bind restartOf
  | .check _ => s.checking.awaits.bind restartOf
  | _ => none
where
  restartOf : Op → Option String
    | .beginRestart id => some id
    | _ => none

def unwrapped (s : Executor) (l : ExecutorLabel) : Bool :=
  (begins s l).all (fun id =>
    (s.memory.registry.get id).all (fun entry => entry.restartCount != 4294967295))

def Unwrapped (x : Executor × List RestartEvent) (l : ExecutorLabel) : Prop :=
  unwrapped x.1 l = true

instance (x : Executor × List RestartEvent) (l : ExecutorLabel) : Decidable (Unwrapped x l) :=
  inferInstanceAs (Decidable (_ = true))

abbrev Counted := Memory × ℕ

variable {id : String} {loop : Loop} {g g' : Counted} {α : Type}

/-- What an operation of a loop does to the memory and to the restarts of `id`. -/
def Acts (id : String) (loop : Loop) : Semantics Op Ans Counted := fun o g a g' =>
  Can o g.1 a g'.1 ∧ g'.2 = (events loop g.1 o).foldl (countEvent id) g.2 ∧
    (o = .beginRestart id → ∀ entry, g.1.registry.get id = some entry →
      entry.restartCount ≠ 4294967295)

def Bound (id : String) (g : Counted) : Prop :=
  match g.1.registry.get id with
  | some entry => g.2 ≤ entry.restartCount.toNat
  | none => g.2 = 0

theorem Bound.congr (h : Bound id g) (hget : g'.1.registry.get id = g.1.registry.get id)
    (hcount : g'.2 = g.2) : Bound id g' := by
  unfold Bound
  rw [hget, hcount]
  exact h

theorem bound_some {entry : RuntimeEntry} (hget : g.1.registry.get id = some entry) :
    Bound id g ↔ g.2 ≤ entry.restartCount.toNat := by
  unfold Bound
  rw [hget]

theorem bound_none (hget : g.1.registry.get id = none) : Bound id g ↔ g.2 = 0 := by
  unfold Bound
  rw [hget]

theorem removes_count (id other : String) (m : Memory) (n : ℕ) :
    (removes m (.completeStop other)).foldl (countEvent id) n = n ∨
      (other = id ∧ (removes m (.completeStop other)).foldl (countEvent id) n = 0) := by
  cases hentry : (m.registry.get other).isSome with
  | false => exact Or.inl (by simp [removes, hentry])
  | true =>
    by_cases hid : other = id
    · subst hid
      exact Or.inr (by simp [removes, hentry, countEvent])
    · exact Or.inl (by simp [removes, hentry, hid, countEvent])

theorem restarts_count (id other : String) (m : Memory) (n : ℕ) :
    (restarts m (.beginRestart other)).foldl (countEvent id) n = n ∨
      (other = id ∧ (restarts m (.beginRestart other)).foldl (countEvent id) n = n + 1) := by
  cases hanswer : (m.registry.beginRestart other).1 with
  | error e => exact Or.inl (by simp [restarts, hanswer])
  | ok handle =>
    by_cases hid : other = id
    · subst hid
      exact Or.inr (by simp [restarts, hanswer, countEvent])
    · exact Or.inl (by simp [restarts, hanswer, hid, countEvent])

theorem events_completeStop (loop : Loop) (m : Memory) (id : String) :
    events loop m (.completeStop id) = removes m (.completeStop id) := by
  cases loop with
  | dispatch => rfl
  | check => exact List.append_nil _

/-- An operation about another id counts nothing. -/
theorem events_other {o : Op} {m : Memory} (htarget : target o ≠ some id) (n : ℕ) :
    (events loop m o).foldl (countEvent id) n = n := by
  cases o with
  | completeStop other =>
    rw [events_completeStop]
    exact (removes_count id other m n).resolve_right (fun h => htarget (congrArg some h.1))
  | beginRestart other =>
    cases loop with
    | dispatch => rfl
    | check =>
      exact (restarts_count id other m n).resolve_right (fun h => htarget (congrArg some h.1))
  | _ => cases loop <;> rfl

def counts : Op → Bool
  | .completeStop _ => true
  | .beginRestart _ => true
  | _ => false

theorem events_uncounted {o : Op} {m : Memory} (ho : counts o = false) : events loop m o = [] := by
  cases loop <;> cases o <;> first | rfl | contradiction

theorem beginRestart_answer {a : Except RuntimeError (Option RuntimeHandle)} {m m' : Memory}
    (h : Can (.beginRestart id) m a m') : (m.registry.beginRestart id).1 = a := by
  obtain ⟨choice, hstep⟩ := h
  cases choice with
  | proceed => exact (can_section hstep).1
  | _ => contradiction

/-- A restart adds to both counts, or to the entry's alone. -/
theorem beginRestart_bound {a : Except RuntimeError (Option RuntimeHandle)} (h : Bound id g)
    (hact : Acts id loop (.beginRestart id) g a g') : Bound id g' := by
  obtain ⟨hcan, hcount, hwrap⟩ := hact
  have hanswer := beginRestart_answer hcan
  rcases beginRestart_can hcan with ⟨e, rfl, hsame⟩ | ⟨entry, hentry, rfl, hget⟩
  · have hnone : events loop g.1 (.beginRestart id) = [] := by
      cases loop with
      | dispatch => rfl
      | check => simp [events, removes, restarts, hanswer]
    rw [hnone] at hcount
    exact h.congr (congrArg _ hsame) hcount
  · have hle : g'.2 ≤ g.2 + 1 := by
      rw [hcount]
      cases loop with
      | dispatch => exact Nat.le_succ _
      | check => simp [events, removes, restarts, hanswer, countEvent]
    have hmax := hwrap rfl entry hentry
    have hadd : (entry.restartCount + 1).toNat = entry.restartCount.toNat + 1 := by
      have hne : entry.restartCount.toNat ≠ 4294967295 := by
        intro heq
        exact hmax (UInt32.toNat_inj.mp heq)
      have hlt := entry.restartCount.toNat_lt
      rw [UInt32.toNat_add]
      change (entry.restartCount.toNat + 1) % 4294967296 = _
      omega
    rw [bound_some hget]
    have hbound := (bound_some hentry).mp h
    change g'.2 ≤ (entry.restartCount + 1).toNat
    omega

theorem completeStop_bound {a : Except RuntimeError Unit} (h : Bound id g)
    (hact : Acts id loop (.completeStop id) g a g') : Bound id g' := by
  obtain ⟨hcan, hcount, _⟩ := hact
  rw [events_completeStop, removes] at hcount
  rcases completeStop_can hcan with ⟨e, hnone, rfl, hsame⟩ | ⟨entry, hentry, rfl, hget⟩
  · rw [hnone] at hcount
    exact h.congr (congrArg _ hsame) hcount
  · rw [hentry] at hcount
    rw [bound_none hget, hcount]
    exact if_pos rfl

theorem acts_bound {o : Op} {a : Ans o} (h : Bound id g) (hact : Acts id loop o g a g') :
    Bound id g' := by
  by_cases htarget : target o = some id
  · have hkept : counts o = false → g'.2 = g.2 := by
      intro ho
      rw [hact.2.1, events_uncounted ho]
      rfl
    cases o with
    | beginRestart other =>
      cases Option.some.inj htarget
      exact beginRestart_bound h hact
    | completeStop other =>
      cases Option.some.inj htarget
      exact completeStop_bound h hact
    | beginCreate other config =>
      cases Option.some.inj htarget
      rcases beginCreate_can hact.1 with ⟨_, _, _, _, hsame⟩ | ⟨hnone, _, hget⟩
      · exact h.congr (congrArg _ hsame) (hkept rfl)
      · rw [bound_some hget, hkept rfl, (bound_none hnone).mp h]
        exact Nat.zero_le _
    | completeCreate other handle =>
      cases Option.some.inj htarget
      rcases completeCreate_can hact.1 with ⟨_, _, _, hsame⟩ | ⟨entry, hentry, _, hget⟩
      · exact h.congr (congrArg _ hsame) (hkept rfl)
      · rw [bound_some hget, hkept rfl]
        exact (bound_some hentry).mp h
    | markFailed other cause =>
      cases Option.some.inj htarget
      rcases markFailed_can hact.1 with ⟨_, _, _, hsame⟩ | ⟨entry, hentry, _, hget⟩
      · exact h.congr (congrArg _ hsame) (hkept rfl)
      · rw [bound_some hget, hkept rfl]
        exact (bound_some hentry).mp h
    | beginStop other =>
      cases Option.some.inj htarget
      rcases beginStop_can hact.1 with ⟨_, _, hsame⟩ | ⟨entry, hentry, _, hget⟩
      · exact h.congr (congrArg _ hsame) (hkept rfl)
      · rw [bound_some hget, hkept rfl]
        exact (bound_some hentry).mp h
    | _ => exact h.congr (congrArg _ (can_reads rfl hact.1)) (hkept rfl)
  · refine h.congr (can_same htarget hact.1).entry ?_
    rw [hact.2.1, events_other htarget]

/-- Only the health check adds to the automatic restarts, by beginning one. -/
theorem acts_le {o : Op} {a : Ans o} (hact : Acts id loop o g a g') :
    g'.2 ≤ g.2 ∨ (loop = .check ∧ o = .beginRestart id ∧ g'.2 = g.2 + 1) := by
  rw [hact.2.1]
  cases o with
  | beginRestart other =>
    cases loop with
    | dispatch => exact Or.inl (Nat.le_refl _)
    | check =>
      rcases restarts_count id other g.1 g.2 with hsame | ⟨rfl, hmore⟩
      · exact Or.inl (Nat.le_of_eq hsame)
      · exact Or.inr ⟨rfl, rfl, hmore⟩
  | completeStop other =>
    rw [events_completeStop]
    rcases removes_count id other g.1 g.2 with hsame | ⟨_, hzero⟩
    · exact Or.inl (Nat.le_of_eq hsame)
    · exact Or.inl (Nat.le_trans (Nat.le_of_eq hzero) (Nat.zero_le _))
  | _ =>
    rw [events_uncounted rfl]
    exact Or.inl (Nat.le_refl _)

/-- The dispatch loop keeps the bound and adds no automatic restart; the health check begins
one only below the limit. -/
def contract (id : String) (maxRestarts : UInt32) : Contract Op Counted where
  rely g g' := (Bound id g → Bound id g') ∧ g'.2 ≤ g.2
  guarantee _ _ := True
  during o g := o = .beginRestart id → g.2 < maxRestarts.toNat

section Checks

variable {maxRestarts : UInt32} {post : α → Counted → Prop}

theorem contract_preorder (id : String) (maxRestarts : UInt32) :
    (contract id maxRestarts).Preorder :=
  ⟨fun _ => ⟨fun h => h, Nat.le_refl _⟩,
    fun _ _ _ h h' => ⟨fun hb => h'.1 (h.1 hb), Nat.le_trans h'.2 h.2⟩⟩

def other (id : String) (o : Op) : Prop := o ≠ .beginRestart id

def Below (id : String) (maxRestarts : UInt32) (g : Counted) : Prop :=
  Bound id g ∧ g.2 < maxRestarts.toNat

theorem other_safe {p : Program α} (hg : Bound id g) (hp : p.Only (other id)) :
    Safe (Acts id .check) (contract id maxRestarts) (fun _ => Bound id) p g :=
  have hstable : ∀ g g', (contract id maxRestarts).rely g g' → Bound id g → Bound id g' :=
    fun _ _ hrely h => hrely.1 h
  hp.safe hstable (fun _ _ ho _ heq => absurd heq ho)
    (fun _ _ _ _ _ h hact => ⟨trivial, acts_bound h hact⟩) hg

/-- An operation other than the restart, and what follows. -/
theorem bound_call {o : Op} {k : Ans o → Program α} (hg : Bound id g) (ho : other id o)
    (hk : ∀ a g', Bound id g' →
      Safe (Acts id .check) (contract id maxRestarts) post (k a) g') :
    Safe (Acts id .check) (contract id maxRestarts) post (.call o k) g :=
  Safe.call hg (fun _ _ hrely h => hrely.1 h) (fun _ _ heq => absurd heq ho)
    (fun _ a g'' h hact => ⟨trivial, hk a g'' (acts_bound h hact)⟩)

theorem below_call {o : Op} {k : Ans o → Program α} (hg : Below id maxRestarts g)
    (ho : other id o) (hk : ∀ a g', Below id maxRestarts g' →
      Safe (Acts id .check) (contract id maxRestarts) post (k a) g') :
    Safe (Acts id .check) (contract id maxRestarts) post (.call o k) g := by
  refine Safe.call hg (fun _ _ hrely h => ⟨hrely.1 h.1, Nat.lt_of_le_of_lt hrely.2 h.2⟩)
    (fun _ _ heq => absurd heq ho) (fun g' a g'' h hact => ⟨trivial, hk a g'' ?_⟩)
  refine ⟨acts_bound h.1 hact, ?_⟩
  rcases acts_le hact with hle | ⟨_, heq, _⟩
  · exact Nat.lt_of_le_of_lt hle h.2
  · exact absurd heq ho

/-- Reading a count below the limit. -/
theorem count_call {k : Option UInt32 → Program α} (hg : Bound id g)
    (hk : ∀ count g', Bound id g' →
      (¬ maxRestarts ≤ count.getD 4294967295 → Below id maxRestarts g') →
      Safe (Acts id .check) (contract id maxRestarts) post (k count) g') :
    Safe (Acts id .check) (contract id maxRestarts) post (.call (.getRestartCount id) k) g := by
  refine Safe.call hg (fun _ _ hrely h => hrely.1 h) (fun _ _ heq => by contradiction)
    (fun g' count g'' h hact => ⟨trivial, hk count g'' (acts_bound h hact) (fun hlt => ?_)⟩)
  refine ⟨acts_bound h hact, ?_⟩
  have hcount := getRestartCount_can hact.1
  have hsame : g''.2 = g'.2 := by
    rw [hact.2.1, events_uncounted rfl]
    rfl
  cases hentry : g'.1.registry.get id with
  | none =>
    rw [hentry] at hcount
    subst hcount
    exact absurd (UInt32.le_iff_toNat_le.mpr (Nat.le_of_lt_succ maxRestarts.toNat_lt)) hlt
  | some entry =>
    rw [hentry] at hcount
    subst hcount
    have hless : entry.restartCount.toNat < maxRestarts.toNat :=
      Nat.lt_of_not_le (fun hle => hlt (UInt32.le_iff_toNat_le.mpr hle))
    have hbound := (bound_some hentry).mp h
    omega

theorem stopHandle_other (old : Option RuntimeHandle) :
    (stopHandle old).Only (other id) := by
  cases old with
  | none => trivial
  | some _ => exact ⟨nofun, fun _ => trivial⟩

/-- A restart begins, and what follows begins no other one. -/
theorem revive_begins (id runtimeId req : String) (config : RuntimeConfig) :
    ∃ k, reviveRuntime runtimeId req config = .call (.beginRestart runtimeId) k ∧
      ∀ a, (k a).Only (other id) := by
  refine ⟨_, rfl, fun a => ?_⟩
  cases a with
  | error _ => trivial
  | ok old =>
    refine ⟨nofun, fun _ => (stopHandle_other old).bind (fun _ => ⟨nofun, fun b => ?_⟩)⟩
    cases b with
    | error _ => exact ⟨nofun, fun _ => ⟨nofun, fun _ => trivial⟩⟩
    | ok _ => exact ⟨nofun, fun _ => ⟨nofun, fun _ => trivial⟩⟩

theorem reviveRuntime_safe {req : String} {config : RuntimeConfig}
    (hg : Below id maxRestarts g) :
    Safe (Acts id .check) (contract id maxRestarts) (fun _ => Bound id)
      (reviveRuntime id req config) g := by
  obtain ⟨k, hk, hrest⟩ := revive_begins id id req config
  rw [hk]
  refine Safe.call hg (fun _ _ hrely h => ⟨hrely.1 h.1, Nat.lt_of_le_of_lt hrely.2 h.2⟩)
    (fun _ h _ => h.2) (fun g' a g'' h hact => ⟨trivial, ?_⟩)
  exact other_safe (acts_bound h.1 hact) (hrest a)

theorem reviveRuntime_other {runtimeId req : String} {config : RuntimeConfig}
    (hne : runtimeId ≠ id) : (reviveRuntime runtimeId req config).Only (other id) := by
  obtain ⟨k, hk, hrest⟩ := revive_begins id runtimeId req config
  rw [hk]
  exact ⟨fun heq => hne (Op.beginRestart.inj heq), hrest⟩

/-- Whatever it finds, the health check begins a restart of `id` only below the limit. -/
theorem onUnhealthy_safe (runtimeId : String) (hg : Bound id g) :
    Safe (Acts id .check) (contract id maxRestarts) (fun _ => Bound id)
      (onUnhealthy maxRestarts runtimeId) g := by
  refine bound_call hg nofun (fun _ g₁ hg₁ => bound_call hg₁ nofun (fun unsolicited g₂ hg₂ => ?_))
  refine bound_call hg₂ nofun (fun _ g₃ hg₃ => ?_)
  by_cases hid : runtimeId = id
  · subst hid
    refine count_call hg₃ (fun count g₄ hg₄ hbelow => ?_)
    change Safe _ _ _ (if _ then _ else _) g₄
    split
    · exact other_safe hg₄ trivial
    · rename_i hlt
      refine below_call (hbelow hlt) nofun (fun found g₅ hg₅ => ?_)
      cases found with
      | none => exact other_safe hg₅.1 trivial
      | some config => exact reviveRuntime_safe hg₅
  · refine other_safe hg₃ ⟨nofun, fun count => ?_⟩
    change Prog.Only _ (if _ then _ else _)
    split
    · trivial
    · refine ⟨nofun, fun found => ?_⟩
      cases found with
      | none => trivial
      | some config => exact reviveRuntime_other hid

theorem checkHandles_safe (handles : List (String × RuntimeHandle)) (hg : Bound id g) :
    Safe (Acts id .check) (contract id maxRestarts) (fun _ => Bound id)
      (checkHandles maxRestarts handles) g := by
  induction handles generalizing g with
  | nil => exact other_safe hg trivial
  | cons p rest ih =>
    refine bound_call hg nofun (fun answer g₁ hg₁ => ?_)
    change Safe _ _ _ (if _ then _ else _) g₁
    split
    · exact ih hg₁
    · exact Safe.bind (contract_preorder id maxRestarts) (onUnhealthy_safe p.1 hg₁)
        (fun _ _ hg₂ => ih hg₂)

theorem runHealthCheck_safe (hg : Bound id g) :
    Safe (Acts id .check) (contract id maxRestarts) (fun _ => Bound id)
      (runHealthCheck maxRestarts) g :=
  bound_call hg nofun (fun handles _ hg₁ => checkHandles_safe handles hg₁)

end Checks

section System

variable {s t : Executor × List RestartEvent} {l : ExecutorLabel} {maxRestarts : UInt32}

def counted (id : String) (s : Executor × List RestartEvent) : Counted :=
  (s.1.memory, autoRestarts id s.2)

structure Inv (id : String) (maxRestarts : UInt32) (s : Executor × List RestartEvent) : Prop where
  bound : Bound id (counted id s)
  limit : autoRestarts id s.2 ≤ maxRestarts.toNat
  checking : Safe (Acts id .check) (contract id maxRestarts) (fun _ => Bound id) s.1.checking
    (counted id s)

/-- A step of a loop is an operation that it awaits. -/
theorem stepTask_acts (id : String) {p p' : Program Unit} {m m' : Memory} {choice : Choice}
    (h : stepTask m choice p = some (p', m')) (shown : List RestartEvent)
    (hwrap : (p.awaits.bind begins.restartOf).all (fun id =>
      (m.registry.get id).all (fun entry => entry.restartCount != 4294967295)) = true)
    (loop : Loop) :
    ∃ o k, p = .call o k ∧ ∃ a, p' = k a ∧ Acts id loop o (m, autoRestarts id shown) a
      (m', autoRestarts id (shown ++ p.awaits.elim [] (events loop m))) := by
  cases p with
  | done a => contradiction
  | call o k =>
    obtain ⟨⟨a, m''⟩, hperform, heq⟩ := Option.map_eq_some_iff.mp h
    cases heq
    refine ⟨o, k, rfl, a, rfl, ⟨choice, hperform⟩, List.foldl_append, ?_⟩
    rintro rfl entry hentry
    have hall : (m.registry.get id).all (fun entry => entry.restartCount != 4294967295) = true :=
      hwrap
    rw [show m.registry.get id = some entry from hentry] at hall
    exact ne_of_beq_false (by simpa using hall)

theorem Inv.step (h : Inv id maxRestarts s) (hok : Unwrapped s l)
    (hstep : Machine.observed (next maxRestarts) shows s l = some t) : Inv id maxRestarts t := by
  obtain ⟨hnext, hshown⟩ := Machine.observed_step hstep
  obtain ⟨s, shown⟩ := s
  obtain ⟨t, shown'⟩ := t
  dsimp only at hnext hshown
  subst hshown
  have hsafe := h.checking
  cases l with
  | receive msg =>
    obtain ⟨_, heq⟩ := Option.ite_none_right_eq_some.mp hnext
    cases Option.some.inj heq
    rw [show shows s (.receive msg) = [] from rfl, List.append_nil]
    exact ⟨h.bound, h.limit,
      hsafe.stable (contract_preorder id maxRestarts) ⟨fun _ => h.bound, Nat.le_refl _⟩⟩
  | tick =>
    obtain ⟨_, heq⟩ := Option.ite_none_right_eq_some.mp hnext
    cases Option.some.inj heq
    rw [show shows s .tick = [] from rfl, List.append_nil]
    exact ⟨h.bound, h.limit, runHealthCheck_safe h.bound⟩
  | dispatch choice =>
    obtain ⟨⟨p, m⟩, htask, heq⟩ := Option.map_eq_some_iff.mp hnext
    cases heq
    obtain ⟨o, k, _, a, rfl, hact⟩ := stepTask_acts id htask shown hok .dispatch
    have hle : autoRestarts id (shown ++ shows s (.dispatch choice)) ≤ autoRestarts id shown :=
      (acts_le hact).resolve_right (fun h => by have := h.1; contradiction)
    have hbound := acts_bound h.bound hact
    exact ⟨hbound, Nat.le_trans hle h.limit,
      hsafe.stable (contract_preorder id maxRestarts) ⟨fun _ => hbound, hle⟩⟩
  | check choice =>
    obtain ⟨⟨p, m⟩, htask, heq⟩ := Option.map_eq_some_iff.mp hnext
    cases heq
    obtain ⟨o, k, hcall, a, rfl, hact⟩ := stepTask_acts id htask shown hok .check
    dsimp only at hsafe
    rw [hcall] at hsafe
    refine ⟨acts_bound h.bound hact, ?_, (hsafe.step (contract_preorder id maxRestarts) hact).2⟩
    rcases acts_le hact with hle | ⟨_, hrestart, hmore⟩
    · exact Nat.le_trans hle h.limit
    · have hbelow := hsafe.during (contract_preorder id maxRestarts) hrestart
      exact Nat.le_trans (Nat.le_of_eq hmore) hbelow

end System

/-- If no restart count wraps, the health check restarts a runtime at most `max_restarts`
times between the creation of its entry and the removal. -/
theorem restarts_bounded (maxRestarts : UInt32) (s : Executor × List RestartEvent)
    (hrun : Machine.Run (Machine.observed (next maxRestarts) shows) Unwrapped (init, []) s)
    (id : String) : autoRestarts id s.2 ≤ maxRestarts.toNat := by
  have hinit : Inv id maxRestarts (init, []) := ⟨rfl, Nat.zero_le _, other_safe rfl trivial⟩
  have hinv : Inv id maxRestarts s :=
    hrun.invariant (Inv id maxRestarts) (fun _ _ _ h hok hstep => h.step hok hstep) hinit
  exact hinv.limit

def restartedOnce : List ExecutorLabel :=
  [.receive ⟨"1", .createRuntime "rt" ⟨"/work"⟩⟩, .dispatch (.sent true), .dispatch .proceed,
    .dispatch (.created (.ok 0)), .dispatch .proceed, .dispatch (.sent true), .tick,
    .check (.handles [("rt", 0)]), .check (.checked (.ok (.unhealthy "gone"))),
    .check .proceed, .check (.drawn "u"), .check (.sent true), .check .proceed, .check .proceed,
    .check .proceed, .check (.sent true), .check (.created (.error (.provider "no more"))),
    .check .proceed, .check (.sent true)]

theorem run_restartedOnce :
    Machine.Run (Machine.observed (next 1) shows) Unwrapped (init, [])
      (Machine.final (Machine.observed (next 1) shows) Unwrapped (init, []) restartedOnce) :=
  Machine.run_final restartedOnce (by decide +kernel)

theorem restartedOnce_bounded :
    autoRestarts "rt"
      (Machine.final (Machine.observed (next 1) shows) Unwrapped (init, []) restartedOnce).2 ≤ 1 :=
  restarts_bounded 1 _ run_restartedOnce "rt"

def single (entry : RuntimeEntry) : RuntimeRegistry := RuntimeRegistry.new.insert entry

section Single

variable (entry : RuntimeEntry)

theorem single_get (h : entry.id = id) : (single entry).get id = some entry :=
  RuntimeRegistry.get_insert _ _ h

theorem single_insert {entry' : RuntimeEntry} (h : entry'.id = entry.id) :
    (single entry).insert entry' = single entry' := by
  unfold single RuntimeRegistry.insert
  congr 1
  dsimp only
  rw [h]
  exact AList.insert_insert _

theorem single_getConfig (h : entry.id = id) :
    (single entry).getConfig id = some entry.config := by
  rw [RuntimeRegistry.getConfig, single_get entry h, Option.map_some]

theorem single_beginRestart (h : entry.id = id)
    (hleave : RuntimeRegistry.leavable entry.state = true) :
    (single entry).beginRestart id = (.ok entry.handle, single { entry with
      state := .creating, restartCount := entry.restartCount + 1, handle := none }) := by
  unfold RuntimeRegistry.beginRestart RuntimeRegistry.leave
  rw [single_get entry h]
  dsimp only
  rw [if_pos hleave, single_insert entry (by rfl)]

theorem single_markFailed (h : entry.id = id) :
    (single entry).markFailed id =
      (.ok (), single { entry with state := .failed, handle := none }) := by
  unfold RuntimeRegistry.markFailed
  rw [single_get entry h]
  dsimp only
  rw [single_insert entry (by rfl)]

theorem single_completeCreate (h : entry.id = id) (handle : RuntimeHandle) :
    (single entry).completeCreate id handle =
      (.ok (), single { entry with state := .running, handle := some handle }) := by
  unfold RuntimeRegistry.completeCreate
  rw [single_get entry h]
  dsimp only
  rw [single_insert entry (by rfl)]

end Single

def holding (entry : RuntimeEntry) (m : Memory) : Memory := { m with registry := single entry }

def resting (entry : RuntimeEntry) (m : Memory) : Executor :=
  ⟨holding entry m, .done (), .done ()⟩

def goes : Executor × List RestartEvent → Executor × List RestartEvent → Prop :=
  Machine.Run (Machine.observed (next 1) shows) Machine.free

section Symbolic

variable {entry entry' : RuntimeEntry} {m m' : Memory} {shown : List RestartEvent}
  {x : Executor × List RestartEvent} {o : Op} {k : Ans o → Program Unit} {a : Ans o}

theorem receive_goes (msg : ExecutorInboundMessage)
    (hrest : goes (⟨holding entry { m with log := m.log ++ [.received msg] }, dispatch msg,
      .done ()⟩, shown) x) : goes (resting entry m, shown) x := by
  refine Machine.Run.head (l := .receive msg) trivial ?_ hrest
  exact congrArg (fun shown => some (_, shown)) (List.append_nil shown)

theorem tick_goes (hrest : goes (⟨holding entry m, .done (), runHealthCheck 1⟩, shown) x) :
    goes (resting entry m, shown) x := by
  refine Machine.Run.head (l := .tick) trivial ?_ hrest
  exact congrArg (fun shown => some (_, shown)) (List.append_nil shown)

/-- A step of the dispatch loop that shows nothing. -/
theorem dispatch_goes (choice : Choice)
    (hperform : Executor.perform (holding entry m) o choice = some (a, holding entry' m'))
    (hquiet : events .dispatch (holding entry m) o = [])
    (hrest : goes (⟨holding entry' m', k a, .done ()⟩, shown) x) :
    goes (⟨holding entry m, .call o k, .done ()⟩, shown) x := by
  refine Machine.Run.head (l := .dispatch choice) trivial ?_ hrest
  simp only [Machine.observed, next, stepTask, hperform, shows, Prog.awaits, Option.elim_some,
    hquiet, List.append_nil, Option.map_some]

/-- A step of the health check. -/
theorem check_shows (choice : Choice)
    (hperform : Executor.perform (holding entry m) o choice = some (a, holding entry' m')) :
    Machine.observed (next 1) shows (⟨holding entry m, .done (), .call o k⟩, shown)
      (.check choice) =
      some (⟨holding entry' m', .done (), k a⟩, shown ++ events .check (holding entry m) o) := by
  simp only [Machine.observed, next, stepTask, hperform, shows, Prog.awaits, Option.elim_some,
    Option.map_some]

/-- A step of the health check that shows nothing. -/
theorem check_goes (choice : Choice)
    (hperform : Executor.perform (holding entry m) o choice = some (a, holding entry' m'))
    (hquiet : events .check (holding entry m) o = [])
    (hrest : goes (⟨holding entry' m', .done (), k a⟩, shown) x) :
    goes (⟨holding entry m, .done (), .call o k⟩, shown) x := by
  refine Machine.Run.head (l := .check choice) trivial ?_ hrest
  rw [check_shows choice hperform, hquiet, List.append_nil]

/-- A critical section on the one entry. -/
theorem perform_section {α : Type} {f : RuntimeRegistry → α × RuntimeRegistry} {answer : α}
    (h : f (single entry) = (answer, single entry')) :
    some ((holding entry m).section f) = some (answer, holding entry' m) := by
  unfold Memory.section holding
  dsimp only
  rw [h]

theorem perform_created (id : String) (config : RuntimeConfig) (h : RuntimeHandle) :
    Executor.perform (holding entry m) (.create id config) (.created (.ok h)) =
      some (.ok h, holding entry { m with created := m.created ++ [(id, h)] }) := rfl

end Symbolic

/-- A client's restart for which the provider creates nothing. -/
theorem restartInVain_run (count : UInt32) (m : Memory) (shown : List RestartEvent) :
    ∃ m', goes (resting ⟨"rt", .failed, ⟨"/work"⟩, count, none⟩ m, shown)
      (resting ⟨"rt", .failed, ⟨"/work"⟩, count + 1, none⟩ m', shown) := by
  have hget := single_getConfig ⟨"rt", .failed, ⟨"/work"⟩, count, none⟩ rfl
  refine ⟨{ m with log := m.log ++ [.received ⟨"r", .restartRuntime "rt"⟩] }, ?_⟩
  refine receive_goes ⟨"r", .restartRuntime "rt"⟩ ?_
  refine dispatch_goes .proceed (congrArg (fun found => some (found, _)) hget) rfl ?_
  refine dispatch_goes .proceed (perform_section (single_beginRestart _ rfl rfl)) rfl ?_
  refine dispatch_goes (.sent false) rfl rfl ?_
  refine dispatch_goes (.created (.error (.provider "no more"))) rfl rfl ?_
  refine dispatch_goes .proceed (perform_section (single_markFailed _ rfl)) rfl ?_
  refine dispatch_goes (.sent false) rfl rfl ?_
  refine dispatch_goes (.sent false) rfl rfl ?_
  exact Machine.Run.refl _

/-- A client's restart that works. -/
theorem restartRunning_run (count : UInt32) (m : Memory) (shown : List RestartEvent) :
    ∃ m', goes (resting ⟨"rt", .failed, ⟨"/work"⟩, count, none⟩ m, shown)
      (resting ⟨"rt", .running, ⟨"/work"⟩, count + 1, some 1⟩ m', shown) := by
  have hget := single_getConfig ⟨"rt", .failed, ⟨"/work"⟩, count, none⟩ rfl
  refine ⟨{ m with
    created := m.created ++ [("rt", 1)]
    log := m.log ++ [.received ⟨"r", .restartRuntime "rt"⟩] }, ?_⟩
  refine receive_goes ⟨"r", .restartRuntime "rt"⟩ ?_
  refine dispatch_goes .proceed (congrArg (fun found => some (found, _)) hget) rfl ?_
  refine dispatch_goes .proceed (perform_section (single_beginRestart _ rfl rfl)) rfl ?_
  refine dispatch_goes (.sent false) rfl rfl ?_
  refine dispatch_goes (.created (.ok 1)) (perform_created _ _ 1) rfl ?_
  have hcomplete := single_completeCreate ⟨"rt", .creating, ⟨"/work"⟩, count + 1, none⟩ rfl 1
  refine dispatch_goes .proceed (perform_section hcomplete) rfl ?_
  refine dispatch_goes (.sent false) rfl rfl ?_
  exact Machine.Run.refl _

/-- A health check that finds the runtime gone and begins to restart it. -/
theorem unhealthy_run (m : Memory) (shown : List RestartEvent) :
    ∃ t, goes (resting ⟨"rt", .running, ⟨"/work"⟩, 0, some 1⟩ m, shown)
      (t, shown ++ [.restarted "rt"]) := by
  have hrunning : (single ⟨"rt", .running, ⟨"/work"⟩, 0, some 1⟩).runningHandles = [("rt", 1)] := by
    decide +kernel
  have hperm : [("rt", (1 : RuntimeHandle))].isPerm [("rt", 1)] = true := by decide +kernel
  have hlist : Executor.perform (holding ⟨"rt", .running, ⟨"/work"⟩, 0, some 1⟩ m) .runningHandles
      (.handles [("rt", 1)]) =
      some ([("rt", 1)], holding ⟨"rt", .running, ⟨"/work"⟩, 0, some 1⟩ m) := by
    unfold Executor.perform holding
    dsimp only
    rw [hrunning, if_pos hperm]
  have hcount : (single ⟨"rt", .failed, ⟨"/work"⟩, 0, none⟩).getRestartCount "rt" = some 0 := by
    decide +kernel
  have hget := single_getConfig ⟨"rt", .failed, ⟨"/work"⟩, 0, none⟩ rfl
  have hbegin := single_beginRestart ⟨"rt", .failed, ⟨"/work"⟩, 0, none⟩ rfl rfl
  have hshown : events .check (holding ⟨"rt", .failed, ⟨"/work"⟩, 0, none⟩ m)
      (.beginRestart "rt") = [.restarted "rt"] := by
    have hanswer : ((single ⟨"rt", .failed, ⟨"/work"⟩, 0, none⟩).beginRestart "rt").1 = .ok none :=
      congrArg Prod.fst hbegin
    unfold events removes restarts holding
    dsimp only
    rw [hanswer]
    rfl
  rw [← hshown]
  apply Exists.intro
  refine tick_goes ?_
  refine check_goes (.handles [("rt", 1)]) hlist rfl ?_
  refine check_goes (.checked (.error (.provider "gone"))) rfl rfl ?_
  refine check_goes .proceed (perform_section (single_markFailed _ rfl)) rfl ?_
  refine check_goes (.drawn "u") rfl rfl ?_
  refine check_goes (.sent false) rfl rfl ?_
  refine check_goes .proceed (congrArg (fun found => some (found, _)) hcount) rfl ?_
  refine check_goes .proceed (congrArg (fun found => some (found, _)) hget) rfl ?_
  refine Machine.Run.head (l := .check .proceed) trivial ?_ (Machine.Run.refl _)
  exact check_shows (o := .beginRestart "rt") .proceed (perform_section hbegin)

/-- Any number of restarts in vain. -/
theorem restartsInVain_run (count : UInt32) (m : Memory) (shown : List RestartEvent) (k : ℕ) :
    ∃ m', goes (resting ⟨"rt", .failed, ⟨"/work"⟩, count, none⟩ m, shown)
      (resting ⟨"rt", .failed, ⟨"/work"⟩, count + UInt32.ofNat k, none⟩ m', shown) := by
  induction k with
  | zero =>
    refine ⟨m, ?_⟩
    rw [show count + UInt32.ofNat 0 = count from UInt32.add_zero count]
    exact Machine.Run.refl _
  | succ k ih =>
    obtain ⟨m₁, hrun⟩ := ih
    obtain ⟨m₂, hlast⟩ := restartInVain_run (count + UInt32.ofNat k) m₁ shown
    refine ⟨m₂, ?_⟩
    rw [UInt32.ofNat_add, ← UInt32.add_assoc]
    exact hrun.trans hlast

theorem eq_single {r : RuntimeRegistry} {entry : RuntimeEntry}
    (h : r.entries.entries = [⟨entry.id, entry⟩]) : r = single entry := by
  obtain ⟨entries, filed⟩ := r
  unfold single RuntimeRegistry.insert
  congr 1
  exact AList.ext h

/-- Two idle loops and one entry. -/
theorem eq_resting {s : Executor} (entry : RuntimeEntry)
    (hdispatch : s.dispatching.isDone = true)
    (hcheck : s.checking.isDone = true)
    (hentries : s.memory.registry.entries.entries = [⟨entry.id, entry⟩]) :
    s = resting entry s.memory := by
  obtain ⟨memory, dispatching, checking⟩ := s
  have hdispatching : dispatching = .done () := OneInstance.eq_done hdispatch
  have hchecking : checking = .done () := OneInstance.eq_done hcheck
  subst hdispatching hchecking
  unfold resting holding
  rw [← eq_single hentries]

/-- The runtime is Failed after the health check restarted it once. -/
theorem restartedOnce_run :
    ∃ m, goes (init, []) (resting ⟨"rt", .failed, ⟨"/work"⟩, 1, none⟩ m,
      [.restarted "rt"]) := by
  have hrun : goes (init, []) (Machine.final (Machine.observed (next 1) shows) Machine.free
      (init, []) restartedOnce) :=
    Machine.run_final restartedOnce (by decide +kernel)
  have hresting := eq_resting ⟨"rt", .failed, ⟨"/work"⟩, 1, none⟩
    (s := (Machine.final (Machine.observed (next 1) shows) Machine.free (init, [])
      restartedOnce).1) (by decide +kernel) (by decide +kernel) (by decide +kernel)
  have hshown : (Machine.final (Machine.observed (next 1) shows) Machine.free (init, [])
      restartedOnce).2 = [.restarted "rt"] := by
    decide +kernel
  generalize Machine.final (Machine.observed (next 1) shows) Machine.free (init, [])
    restartedOnce = x at hrun hresting hshown
  obtain ⟨s, shown⟩ := x
  dsimp only at hresting hshown
  subst hshown
  rw [hresting] at hrun
  exact ⟨s.memory, hrun⟩

/-- After 2 ^ 32 restarts the count is 0 again, and the health check restarts once more. -/
theorem wrapped_unbounded :
    ¬ ∀ (maxRestarts : UInt32) (s : Executor × List RestartEvent),
      Machine.Run (Machine.observed (next maxRestarts) shows) Machine.free (init, []) s →
        ∀ id, autoRestarts id s.2 ≤ maxRestarts.toNat := by
  intro h
  obtain ⟨m₁, hrun₁⟩ := restartedOnce_run
  obtain ⟨m₂, hrun₂⟩ := restartsInVain_run 1 m₁ [.restarted "rt"] 4294967294
  rw [show (1 : UInt32) + UInt32.ofNat 4294967294 = 4294967295 from rfl] at hrun₂
  obtain ⟨m₃, hrun₃⟩ := restartRunning_run 4294967295 m₂ [.restarted "rt"]
  rw [show (4294967295 : UInt32) + 1 = 0 from rfl] at hrun₃
  obtain ⟨t, hrun₄⟩ := unhealthy_run m₃ [.restarted "rt"]
  have hle := h 1 _ (((hrun₁.trans hrun₂).trans hrun₃).trans hrun₄) "rt"
  have htwo : autoRestarts "rt" ([.restarted "rt"] ++ [.restarted "rt"]) = 2 := by decide +kernel
  rw [htwo] at hle
  contradiction

end October.BoundedRestarts
