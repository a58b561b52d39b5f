import October.EntrySteps
import October.RuntimeHandles

/-!
What the server is told of a runtime's state. Commands and health checks that run one
after another leave the last announcement of every id true, if no runtime is created
under an id whose runtime is at work: `do_create` announces Creating, and Failed when it
is refused, before it knows whether there is anything to create.
-/
namespace October.AnnouncedStates

open Await Executor RuntimeOwnership OneInstance RuntimeHandles EntrySteps

def announcement : Op → List (String × RuntimeState)
  | .send ⟨_, .runtimeStateChanged id state⟩ => [(id, state)]
  | _ => []

def announces (s : Executor) : ExecutorLabel → List (String × RuntimeState)
  | .dispatch _ => s.dispatching.awaits.elim [] announcement
  | .check _ => s.checking.awaits.elim [] announcement
  | _ => []

def lastAnnounced (id : String) (announced : List (String × RuntimeState)) : Option RuntimeState :=
  announced.foldl (fun last a => if a.1 = id then some a.2 else last) none

abbrev Told := Memory × List (String × RuntimeState)

/-- The last announcement of `id` is the state of its entry; Stopped or none of no entry. -/
def Truthful (id : String) (x : Told) : Prop :=
  match x.1.registry.get id with
  | some entry => lastAnnounced id x.2 = some entry.state
  | none => lastAnnounced id x.2 = none ∨ lastAnnounced id x.2 = some .stopped

/-- A create finds no entry, or one that is Failed. -/
def createsIdle (s : Executor) : ExecutorLabel → Bool
  | .receive ⟨_, .createRuntime id _⟩ =>
    (s.memory.registry.get id).all (fun entry => entry.state == .failed)
  | _ => true

def CreatesIdle (x : Executor × List (String × RuntimeState)) (l : ExecutorLabel) : Prop :=
  oneAtATime x.1 l = true ∧ createsIdle x.1 l = true

instance (x : Executor × List (String × RuntimeState)) (l : ExecutorLabel) :
    Decidable (CreatesIdle x l) := inferInstanceAs (Decidable (_ ∧ _))

def Tells : Semantics Op Ans Told := fun o x a x' =>
  Can o x.1 a x'.1 ∧ x'.2 = x.2 ++ announcement o

variable {id : String} {x x' : Told} {α : Type} {post : α → Told → Prop}

theorem lastAnnounced_append (id : String) (announced : List (String × RuntimeState))
    (a : String × RuntimeState) :
    lastAnnounced id (announced ++ [a]) =
      if a.1 = id then some a.2 else lastAnnounced id announced := by
  simp [lastAnnounced]

theorem lastAnnounced_other (announced news : List (String × RuntimeState))
    (h : ∀ a ∈ news, a.1 ≠ id) : lastAnnounced id (announced ++ news) =
      lastAnnounced id announced := by
  induction news generalizing announced with
  | nil => rw [List.append_nil]
  | cons a rest ih =>
    rw [List.append_cons, ih (announced ++ [a]) (fun b hb => h b (List.mem_cons_of_mem _ hb)),
      lastAnnounced_append, if_neg (h a List.mem_cons_self)]

theorem Truthful.congr (h : Truthful id x) (hget : x'.1.registry.get id = x.1.registry.get id)
    (hlast : lastAnnounced id x'.2 = lastAnnounced id x.2) : Truthful id x' := by
  unfold Truthful
  rw [hget, hlast]
  exact h

def AllTrue (x : Told) : Prop := ∀ id, Truthful id x

/-- Truthful about all but `id`, whose entry is in state `state`. -/
structure Busy (id : String) (state : Option RuntimeState) (x : Told) : Prop where
  others : ∀ other, other ≠ id → Truthful other x
  entry : (x.1.registry.get id).map RuntimeEntry.state = state

theorem AllTrue.busy (h : AllTrue x) (id : String) :
    Busy id ((x.1.registry.get id).map RuntimeEntry.state) x :=
  ⟨fun other _ => h other, rfl⟩

def about (id : String) (o : Op) : Prop :=
  (target o = none ∨ target o = some id) ∧
    (announcement o = [] ∨ ∃ state, announcement o = [(id, state)])

theorem others_tells {o : Op} {a : Ans o} (hx : ∀ other, other ≠ id → Truthful other x)
    (habout : about id o) (h : Tells o x a x') : ∀ other, other ≠ id → Truthful other x' := by
  intro other hother
  obtain ⟨hcan, htold⟩ := h
  refine (hx other hother).congr ?_ ?_
  · refine (can_same (fun htarget => ?_) hcan).entry
    rcases habout.1 with hnone | hid
    · rw [hnone] at htarget
      contradiction
    · exact hother (Option.some.inj (htarget.symm.trans hid))
  · rw [htold]
    refine lastAnnounced_other _ _ (fun a ha => ?_)
    rcases habout.2 with hnone | ⟨state, hstate⟩
    · rw [hnone] at ha
      contradiction
    · rw [hstate] at ha
      cases List.mem_singleton.mp ha
      exact Ne.symm hother

theorem Busy.reads {state : Option RuntimeState} {o : Op} {a : Ans o} (hx : Busy id state x)
    (habout : about id o) (ho : reads o = true) (h : Tells o x a x') : Busy id state x' := by
  refine ⟨others_tells hx.others habout h, ?_⟩
  rw [can_reads ho h.1]
  exact hx.entry

/-- Reading without announcing changes nothing. -/
theorem AllTrue.reads {o : Op} {a : Ans o} (hx : AllTrue x) (ho : reads o = true)
    (hquiet : announcement o = []) (h : Tells o x a x') : AllTrue x' := by
  intro id
  refine (hx id).congr (congrArg (RuntimeRegistry.get id) (can_reads ho h.1)) ?_
  rw [h.2, hquiet, List.append_nil]

section Announce

variable {k : Unit → Program α} {req : String} {state : RuntimeState}

theorem about_emit (id req : String) (state : RuntimeState) :
    about id (.send ⟨req, .runtimeStateChanged id state⟩) := by
  refine ⟨?_, Or.inr ⟨state, rfl⟩⟩
  cases state with
  | stopped => exact Or.inr rfl
  | _ => exact Or.inl rfl

/-- An announcement on the way. -/
theorem emit_busy {st : Option RuntimeState} (hx : Busy id st x)
    (hk : ∀ x', Busy id st x' → Safe Tells Contract.alone post (k ()) x') :
    Safe Tells Contract.alone post (emitState req id state >>= k) x :=
  Safe.alone_call (fun _ _ h => hk _ (hx.reads (about_emit id req state) rfl h))

/-- Announcing the state that the entry is in, or Stopped when there is none. -/
theorem emit_true {st : Option RuntimeState} (hx : Busy id st x)
    (hst : st = some state ∨ (st = none ∧ state = .stopped))
    (hk : ∀ x', AllTrue x' → Safe Tells Contract.alone post (k ()) x') :
    Safe Tells Contract.alone post (emitState req id state >>= k) x := by
  refine Safe.alone_call (fun a x' h => hk x' (fun other => ?_))
  have hbusy := hx.reads (about_emit id req state) rfl h
  by_cases hother : other = id
  · subst hother
    have hlast : lastAnnounced other x'.2 = some state := by
      rw [h.2]
      exact (lastAnnounced_append other x.2 (other, state)).trans (if_pos rfl)
    have hentry := hbusy.entry
    unfold Truthful
    rw [hlast]
    cases hget : x'.1.registry.get other with
    | none =>
      rw [hget] at hentry
      rcases hst with rfl | ⟨_, rfl⟩
      · contradiction
      · exact Or.inr rfl
    | some entry =>
      rw [hget] at hentry
      rcases hst with rfl | ⟨rfl, _⟩
      · exact hentry.symm
      · contradiction
  · exact hbusy.others other hother

end Announce

section Entry

variable {st : Option RuntimeState} {config : RuntimeConfig}

theorem stopHandle_busy {k : Unit → Program α} {taken : Option RuntimeHandle} (hx : Busy id st x)
    (hk : ∀ x', Busy id st x' → Safe Tells Contract.alone post (k ()) x') :
    Safe Tells Contract.alone post (stopHandle taken >>= k) x := by
  cases taken with
  | none => exact hk x hx
  | some handle =>
    exact Safe.alone_call (fun _ _ h => hk _ (hx.reads ⟨Or.inl rfl, Or.inl rfl⟩ rfl h))

theorem create_busy {k : Except RuntimeError RuntimeHandle → Program α} (hx : Busy id st x)
    (hk : ∀ a x', Busy id st x' → Safe Tells Contract.alone post (k a) x') :
    Safe Tells Contract.alone post (.call (.create id config) k) x := by
  exact Safe.alone_call (fun a x' h => hk a x' (hx.reads ⟨Or.inr rfl, Or.inl rfl⟩ rfl h))

/-- The entry exists. -/
theorem Busy.get {state : RuntimeState} (hx : Busy id (some state) x) :
    ∃ entry, x.1.registry.get id = some entry := by
  obtain ⟨entry, hentry, _⟩ := Option.map_eq_some_iff.mp hx.entry
  exact ⟨entry, hentry⟩

theorem completeCreate_busy {k : Except RuntimeError Unit → Program α} {handle : RuntimeHandle}
    {state : RuntimeState} (hx : Busy id (some state) x)
    (hk : ∀ x', Busy id (some .running) x' → Safe Tells Contract.alone post (k (.ok ())) x') :
    Safe Tells Contract.alone post (.call (.completeCreate id handle) k) x := by
  refine Safe.alone_call (fun a x' h => ?_)
  have hothers := others_tells hx.others ⟨Or.inr rfl, Or.inl rfl⟩ h
  obtain ⟨found, hfound⟩ := hx.get
  rcases completeCreate_can h.1 with ⟨e, hnone, _⟩ | ⟨entry, _, rfl, hget⟩
  · rw [hfound] at hnone
    contradiction
  · exact hk x' ⟨hothers, by rw [hget]; rfl⟩

theorem markFailed_busy {k : Except RuntimeError Unit → Program α} {cause : Cause}
    {state : RuntimeState} (hx : Busy id (some state) x)
    (hk : ∀ a x', Busy id (some .failed) x' → Safe Tells Contract.alone post (k a) x') :
    Safe Tells Contract.alone post (.call (.markFailed id cause) k) x := by
  refine Safe.alone_call (fun a x' h => ?_)
  have hothers := others_tells hx.others ⟨Or.inr rfl, Or.inl rfl⟩ h
  obtain ⟨found, hfound⟩ := hx.get
  rcases markFailed_can h.1 with ⟨e, hnone, _⟩ | ⟨entry, _, rfl, hget⟩
  · rw [hfound] at hnone
    contradiction
  · exact hk _ x' ⟨hothers, by rw [hget]; rfl⟩

theorem beginRestart_busy {k : Except RuntimeError (Option RuntimeHandle) → Program α}
    (hx : AllTrue x) (herror : ∀ e x', AllTrue x' →
      Safe Tells Contract.alone post (k (.error e)) x')
    (hok : ∀ handle x', Busy id (some .creating) x' →
      Safe Tells Contract.alone post (k (.ok handle)) x') :
    Safe Tells Contract.alone post (.call (.beginRestart id) k) x := by
  refine Safe.alone_call (fun a x' h => ?_)
  have hothers : ∀ other, other ≠ id → Truthful other x' := others_tells (fun other _ => hx other)
    ⟨Or.inr rfl, Or.inl rfl⟩ h
  rcases beginRestart_can h.1 with ⟨e, rfl, hsame⟩ | ⟨entry, _, rfl, hget⟩
  · refine herror e x' (fun other => (hx other).congr (congrArg _ hsame) ?_)
    rw [h.2]
    exact lastAnnounced_other _ _ nofun
  · exact hok _ x' ⟨hothers, by rw [hget]; rfl⟩

def Created (id : String) : Except RuntimeError Unit → Told → Prop
  | .ok (), x => Busy id (some .running) x
  | .error _, x => Busy id (some .failed) x

theorem createCore_busy (hx : Busy id st x) (hst : st = none ∨ st = some .failed) :
    Safe Tells Contract.alone (Created id) (createCore id config) x := by
  refine Safe.alone_call (fun a x₁ h => ?_)
  have hothers := others_tells hx.others ⟨Or.inr rfl, Or.inl rfl⟩ h
  rcases beginCreate_can h.1 with ⟨entry, e, hentry, rfl, hsame⟩ | ⟨hnone, rfl, hget⟩
  · refine Safe.alone_done ⟨hothers, ?_⟩
    have hfailed := hx.entry
    rw [hentry] at hfailed
    rw [hsame, hentry]
    exact hfailed.trans (hst.resolve_left (fun hnone => by rw [hnone] at hfailed; contradiction))
  · have hx₁ : Busy id (some .creating) x₁ := ⟨hothers, by rw [hget]; rfl⟩
    refine create_busy hx₁ (fun result x₂ hx₂ => ?_)
    cases result with
    | ok handle => exact completeCreate_busy hx₂ (fun x₃ hx₃ => Safe.alone_done hx₃)
    | error e => exact markFailed_busy hx₂ (fun _ x₃ hx₃ => Safe.alone_done hx₃)

end Entry

section Commands

variable {req : String} {config : RuntimeConfig}

theorem doCreate_true (hx : AllTrue x)
    (hidle : (x.1.registry.get id).all (fun entry => entry.state == .failed) = true) :
    Safe Tells Contract.alone (fun _ => AllTrue) (doCreate id config req) x := by
  have hst : (x.1.registry.get id).map RuntimeEntry.state = none ∨
      (x.1.registry.get id).map RuntimeEntry.state = some .failed := by
    cases hentry : x.1.registry.get id with
    | none => exact Or.inl rfl
    | some entry =>
      rw [hentry] at hidle
      exact Or.inr (congrArg some (eq_of_beq hidle))
  refine emit_busy (hx.busy id) (fun x₁ hx₁ => ?_)
  refine Safe.bind alone_preorder (createCore_busy hx₁ hst) (fun result x₂ hx₂ => ?_)
  cases result with
  | ok _ => exact emit_true hx₂ (Or.inl rfl) (fun _ hx₃ => Safe.alone_done hx₃)
  | error _ => exact emit_true hx₂ (Or.inl rfl) (fun _ hx₃ => Safe.alone_done hx₃)

theorem doDestroy_true (hx : AllTrue x) :
    Safe Tells Contract.alone (fun _ => AllTrue) (doDestroy id req) x := by
  refine Safe.alone_call (fun a x₁ h => ?_)
  have hothers : ∀ other, other ≠ id → Truthful other x₁ := others_tells (fun other _ => hx other)
    ⟨Or.inr rfl, Or.inl rfl⟩ h
  rcases beginStop_can h.1 with ⟨e, rfl, hsame⟩ | ⟨entry, _, rfl, hget⟩
  · refine Safe.alone_done (fun other => (hx other).congr (congrArg _ hsame) ?_)
    rw [h.2]
    exact lastAnnounced_other _ _ nofun
  · have hx₁ : Busy id (some .stopping) x₁ := ⟨hothers, by rw [hget]; rfl⟩
    refine emit_busy hx₁ (fun x₂ hx₂ => stopHandle_busy hx₂ (fun x₃ hx₃ => ?_))
    refine Safe.alone_call (fun b x₄ h₄ => ?_)
    have hothers₄ := others_tells hx₃.others
      ⟨Or.inr rfl, Or.inl rfl⟩ h₄
    obtain ⟨found, hfound⟩ := hx₃.get
    rcases completeStop_can h₄.1 with ⟨e, hnone, _⟩ | ⟨entry, _, rfl, hgone⟩
    · rw [hfound] at hnone
      contradiction
    · have hx₄ : Busy id none x₄ := ⟨hothers₄, by rw [hgone]; rfl⟩
      exact emit_true hx₄ (Or.inr ⟨rfl, rfl⟩) (fun _ hx₅ => Safe.alone_done hx₅)

theorem doRestart_true (hx : AllTrue x) :
    Safe Tells Contract.alone (fun _ => AllTrue) (doRestart id req) x := by
  refine Safe.alone_call (fun found x₁ h => ?_)
  have hx₁ := hx.reads rfl rfl h
  cases found with
  | none => exact Safe.alone_done hx₁
  | some config =>
    refine beginRestart_busy hx₁ (fun _ _ hx₂ => Safe.alone_done hx₂) (fun old x₂ hx₂ => ?_)
    refine emit_busy hx₂ (fun x₃ hx₃ => stopHandle_busy hx₃ (fun x₄ hx₄ => ?_))
    refine create_busy hx₄ (fun result x₅ hx₅ => ?_)
    cases result with
    | ok handle =>
      refine completeCreate_busy hx₅ (fun x₆ hx₆ => ?_)
      exact emit_true hx₆ (Or.inl rfl) (fun _ hx₇ => Safe.alone_done hx₇)
    | error e =>
      refine markFailed_busy hx₅ (fun _ x₆ hx₆ => ?_)
      exact emit_true hx₆ (Or.inl rfl) (fun _ hx₇ => Safe.alone_done hx₇)

/-- Every command leaves all announcements true, given that a create finds its id idle. -/
theorem dispatch_true {msg : ExecutorInboundMessage} (hx : AllTrue x)
    (hidle : ∀ id config, msg.command = .createRuntime id config →
      (x.1.registry.get id).all (fun entry => entry.state == .failed) = true) :
    Safe Tells Contract.alone (fun _ => AllTrue) (dispatch msg) x := by
  have hrun : Safe Tells Contract.alone (fun _ => AllTrue) (runCommand msg.requestId msg.command)
      x := by
    cases hcommand : msg.command with
    | createRuntime id config => exact doCreate_true hx (hidle id config hcommand)
    | destroyRuntime id => exact doDestroy_true hx
    | restartRuntime id => exact doRestart_true hx
    | queryRuntimes =>
      refine Safe.alone_call (fun _ x₁ h₁ => Safe.alone_call (fun _ x₂ h₂ => ?_))
      exact Safe.alone_done ((hx.reads rfl rfl h₁).reads rfl rfl h₂)
  refine Safe.bind alone_preorder hrun (fun result x₁ hx₁ => ?_)
  cases result with
  | ok _ => exact Safe.alone_done hx₁
  | error e =>
    exact Safe.alone_call (fun _ x₂ h₂ => Safe.alone_done (hx₁.reads rfl rfl h₂))

end Commands

section Checks

variable {config : RuntimeConfig} {maxRestarts : UInt32}

theorem reviveRuntime_true {req : String} (hx : AllTrue x) :
    Safe Tells Contract.alone (fun _ => AllTrue) (reviveRuntime id req config) x := by
  refine beginRestart_busy hx (fun _ _ hx₁ => Safe.alone_done hx₁) (fun old x₁ hx₁ => ?_)
  refine emit_busy hx₁ (fun x₂ hx₂ => stopHandle_busy hx₂ (fun x₃ hx₃ => ?_))
  refine create_busy hx₃ (fun result x₄ hx₄ => ?_)
  cases result with
  | ok handle =>
    refine completeCreate_busy hx₄ (fun x₅ hx₅ => ?_)
    exact emit_true (k := fun _ => .done ()) hx₅ (Or.inl rfl) (fun _ hx₆ => Safe.alone_done hx₆)
  | error e =>
    refine markFailed_busy hx₄ (fun _ x₅ hx₅ => ?_)
    exact emit_true (k := fun _ => .done ()) hx₅ (Or.inl rfl) (fun _ hx₆ => Safe.alone_done hx₆)

theorem onUnhealthy_true (maxRestarts : UInt32) (hx : AllTrue x)
    (hpresent : (x.1.registry.get id).isSome = true) :
    Safe Tells Contract.alone (fun _ => AllTrue) (onUnhealthy maxRestarts id) x := by
  obtain ⟨entry, hentry⟩ := Option.isSome_iff_exists.mp hpresent
  have hbusy : Busy id (some entry.state) x := by
    have hid := hx.busy id
    rwa [hentry] at hid
  refine markFailed_busy hbusy (fun _ x₁ hx₁ => ?_)
  refine Safe.alone_call (fun unsolicited x₂ h₂ => ?_)
  refine emit_true (hx₁.reads ⟨Or.inl rfl, Or.inl rfl⟩ rfl h₂) (Or.inl rfl) (fun x₃ hx₃ => ?_)
  refine Safe.alone_call (fun count x₄ h₄ => ?_)
  have hx₄ := hx₃.reads rfl rfl h₄
  change Safe _ _ _ (if _ then _ else _) x₄
  split
  · exact Safe.alone_done hx₄
  · refine Safe.alone_call (fun found x₅ h₅ => ?_)
    have hx₅ := hx₄.reads rfl rfl h₅
    cases found with
    | none => exact Safe.alone_done hx₅
    | some config => exact reviveRuntime_true hx₅

def keeps : Op → Bool
  | .completeStop _ => false
  | _ => true

theorem entry_kept {o : Op} {m m' : Memory} {a : Ans o} (ho : keeps o = true) (h : Can o m a m')
    (hentry : (m.registry.get id).isSome = true) : (m'.registry.get id).isSome = true := by
  by_cases htarget : target o = some id
  · cases o with
    | beginCreate other config =>
      cases Option.some.inj htarget
      rcases beginCreate_can h with ⟨_, _, _, _, hsame⟩ | ⟨_, _, hget⟩
      · rw [hsame]
        exact hentry
      · rw [hget]
        rfl
    | completeCreate other handle =>
      cases Option.some.inj htarget
      rcases completeCreate_can h with ⟨_, _, _, hsame⟩ | ⟨_, _, _, hget⟩
      · rw [hsame]
        exact hentry
      · rw [hget]
        rfl
    | markFailed other cause =>
      cases Option.some.inj htarget
      rcases markFailed_can h with ⟨_, _, _, hsame⟩ | ⟨_, _, _, hget⟩
      · rw [hsame]
        exact hentry
      · rw [hget]
        rfl
    | beginStop other =>
      cases Option.some.inj htarget
      rcases beginStop_can h with ⟨_, _, hsame⟩ | ⟨_, _, _, hget⟩
      · rw [hsame]
        exact hentry
      · rw [hget]
        rfl
    | beginRestart other =>
      cases Option.some.inj htarget
      rcases beginRestart_can h with ⟨_, _, hsame⟩ | ⟨_, _, _, hget⟩
      · rw [hsame]
        exact hentry
      · rw [hget]
        rfl
    | completeStop other => contradiction
    | _ =>
      rw [can_reads rfl h]
      exact hentry
  · rw [(can_same htarget h).entry]
    exact hentry

theorem reviveRuntime_keeps (id req : String) (config : RuntimeConfig) :
    (reviveRuntime id req config).Only (fun o => keeps o = true) := by
  refine ⟨rfl, fun a => ?_⟩
  cases a with
  | error _ => trivial
  | ok old =>
    have hstop : (stopHandle old).Only (fun o => keeps o = true) := by
      cases old with
      | none => trivial
      | some _ => exact ⟨rfl, fun _ => trivial⟩
    refine ⟨rfl, fun _ => hstop.bind (fun _ => ⟨rfl, fun b => ?_⟩)⟩
    cases b with
    | error _ => exact ⟨rfl, fun _ => ⟨rfl, fun _ => trivial⟩⟩
    | ok _ => exact ⟨rfl, fun _ => ⟨rfl, fun _ => trivial⟩⟩

theorem onUnhealthy_keeps (maxRestarts : UInt32) (id : String) :
    (onUnhealthy maxRestarts id).Only (fun o => keeps o = true) := by
  refine ⟨rfl, fun _ => ⟨rfl, fun unsolicited => ⟨rfl, fun _ => ⟨rfl, fun count => ?_⟩⟩⟩⟩
  change Prog.Only _ (if _ then _ else _)
  split
  · trivial
  · refine ⟨rfl, fun config => ?_⟩
    cases config with
    | none => trivial
    | some config => exact reviveRuntime_keeps id unsolicited config

def Listed (handles : List (String × RuntimeHandle)) (x : Told) : Prop :=
  ∀ p ∈ handles, (x.1.registry.get p.1).isSome = true

theorem checkHandles_true (handles : List (String × RuntimeHandle)) (hx : AllTrue x)
    (hlisted : Listed handles x) :
    Safe Tells Contract.alone (fun _ => AllTrue) (checkHandles maxRestarts handles) x := by
  induction handles generalizing x with
  | nil => exact Safe.alone_done hx
  | cons p rest ih =>
    refine Safe.alone_call (fun answer x₁ h₁ => ?_)
    have hx₁ := hx.reads rfl rfl h₁
    have hlisted₁ : Listed (p :: rest) x₁ := fun q hq => entry_kept rfl h₁.1 (hlisted q hq)
    have hrest : Listed rest x₁ := fun q hq => hlisted₁ q (List.mem_cons_of_mem _ hq)
    change Safe _ _ _ (if _ then _ else _) x₁
    split
    · exact ih hx₁ hrest
    · have hkeeps : Safe Tells Contract.alone (fun _ => Listed rest)
          (onUnhealthy maxRestarts p.1) x₁ :=
        (onUnhealthy_keeps maxRestarts p.1).alone
          (fun _ _ _ _ ho hpre h q hq => entry_kept ho h.1 (hpre q hq)) hrest
      have htrue := onUnhealthy_true maxRestarts hx₁ (hlisted₁ p List.mem_cons_self)
      exact Safe.bind alone_preorder (htrue.and hkeeps) (fun _ _ hx₂ => ih hx₂.1 hx₂.2)

/-- A health check leaves all announcements true. -/
theorem runHealthCheck_true (hx : AllTrue x) :
    Safe Tells Contract.alone (fun _ => AllTrue) (runHealthCheck maxRestarts) x := by
  refine Safe.alone_call (fun handles x₁ h₁ => ?_)
  have hregistry := can_reads rfl h₁.1
  refine checkHandles_true handles (hx.reads rfl rfl h₁) (fun p hp => ?_)
  rw [hregistry]
  exact listed_entry ((runningHandles_can h₁.1).mem_iff.mp hp)

end Checks

section System

variable {s t : Executor × List (String × RuntimeState)} {l : ExecutorLabel}
  {maxRestarts : UInt32}

def told (s : Executor × List (String × RuntimeState)) : Told := (s.1.memory, s.2)

def Inv (s : Executor × List (String × RuntimeState)) : Prop :=
  (s.1.checking = .done () ∧
    Safe Tells Contract.alone (fun _ => AllTrue) s.1.dispatching (told s)) ∨
  (s.1.dispatching = .done () ∧
    Safe Tells Contract.alone (fun _ => AllTrue) s.1.checking (told s))

theorem Inv.idle (h : Inv s) (hdispatch : s.1.dispatching.isDone = true)
    (hcheck : s.1.checking.isDone = true) : AllTrue (told s) := by
  rcases h with ⟨_, hsafe⟩ | ⟨_, hsafe⟩
  · rw [eq_done hdispatch] at hsafe
    exact hsafe.done alone_preorder
  · rw [eq_done hcheck] at hsafe
    exact hsafe.done alone_preorder

/-- A step of a loop is an operation it awaits. -/
theorem stepTask_tells {p p' : Program Unit} {m m' : Memory} {choice : Choice}
    (h : stepTask m choice p = some (p', m')) (announced : List (String × RuntimeState)) :
    ∃ o k, p = .call o k ∧ ∃ a, p' = k a ∧
      Tells o (m, announced) a (m', announced ++ p.awaits.elim [] announcement) := by
  cases p with
  | done a => contradiction
  | call o k =>
    obtain ⟨⟨a, m''⟩, hperform, heq⟩ := Option.map_eq_some_iff.mp h
    cases heq
    exact ⟨o, k, rfl, a, rfl, ⟨choice, hperform⟩, rfl⟩

theorem Inv.step (h : Inv s) (hok : CreatesIdle s l)
    (hstep : Machine.observed (next maxRestarts) announces s l = some t) : Inv t := by
  obtain ⟨hnext, htold⟩ := Machine.observed_step hstep
  obtain ⟨s, announced⟩ := s
  obtain ⟨t, announced'⟩ := t
  dsimp only at hnext htold
  subst htold
  cases l with
  | receive msg =>
    obtain ⟨hdone, heq⟩ := Option.ite_none_right_eq_some.mp hnext
    cases Option.some.inj heq
    have hall := h.idle hdone hok.1
    refine Or.inl ⟨eq_done hok.1, dispatch_true (fun id => ?_) (fun id config hmsg => ?_)⟩
    · exact (hall id).congr rfl (congrArg _ (List.append_nil _))
    · obtain ⟨req, command⟩ := msg
      cases hmsg
      exact hok.2
  | tick =>
    obtain ⟨hdone, heq⟩ := Option.ite_none_right_eq_some.mp hnext
    cases Option.some.inj heq
    have hall := h.idle hok.1 hdone
    refine Or.inr ⟨eq_done hok.1, runHealthCheck_true (fun id => ?_)⟩
    exact (hall id).congr rfl (congrArg _ (List.append_nil _))
  | dispatch choice =>
    obtain ⟨⟨p, m⟩, htask, heq⟩ := Option.map_eq_some_iff.mp hnext
    cases heq
    obtain ⟨o, k, hcall, a, rfl, htells⟩ := stepTask_tells htask announced
    rcases h with ⟨hdone, hsafe⟩ | ⟨hdone, _⟩
    · refine Or.inl ⟨hdone, ?_⟩
      unfold told at hsafe
      dsimp only at hsafe
      rw [hcall] at hsafe
      exact (hsafe.step alone_preorder htells).2
    · dsimp only at hdone
      rw [hdone] at hcall
      contradiction
  | check choice =>
    obtain ⟨⟨p, m⟩, htask, heq⟩ := Option.map_eq_some_iff.mp hnext
    cases heq
    obtain ⟨o, k, hcall, a, rfl, htells⟩ := stepTask_tells htask announced
    rcases h with ⟨hdone, _⟩ | ⟨hdone, hsafe⟩
    · dsimp only at hdone
      rw [hdone] at hcall
      contradiction
    · refine Or.inr ⟨hdone, ?_⟩
      unfold told at hsafe
      dsimp only at hsafe
      rw [hcall] at hsafe
      exact (hsafe.step alone_preorder htells).2

end System

/-- If a create never finds a runtime at work under its id, then whenever nothing is in
progress the last announcement for every id is the state it has. -/
theorem announced_true (maxRestarts : UInt32) (s : Executor × List (String × RuntimeState))
    (hrun : Machine.Run (Machine.observed (next maxRestarts) announces) CreatesIdle (init, []) s)
    (hidle : s.1.dispatching.isDone = true ∧ s.1.checking.isDone = true) (id : String) :
    Truthful id (s.1.memory, s.2) := by
  have hinit : AllTrue (told (init, [])) := fun _ => Or.inl rfl
  have hinv : Inv s := hrun.invariant Inv (fun _ _ _ h hok hstep => h.step hok hstep)
    (Or.inl ⟨rfl, Safe.alone_done hinit⟩)
  exact hinv.idle hidle.1 hidle.2 id

def toldRight : List ExecutorLabel :=
  revived ++ [.tick, .check (.handles [("rt", 1)]), .check (.checked (.error (.provider "gone"))),
    .check .proceed, .check (.drawn "v"), .check (.sent false), .check .proceed,
    .receive ⟨"2", .createRuntime "rt" ⟨"/work"⟩⟩, .dispatch (.sent true), .dispatch .proceed,
    .dispatch (.sent true), .dispatch (.sent true)]

theorem run_toldRight :
    Machine.Run (Machine.observed (next 1) announces) CreatesIdle (init, [])
      (Machine.final (Machine.observed (next 1) announces) CreatesIdle (init, []) toldRight) :=
  Machine.run_final toldRight (by decide +kernel)

theorem toldRight_true :
    Truthful "rt"
      ((Machine.final (Machine.observed (next 1) announces) CreatesIdle (init, [])
        toldRight).1.memory,
        (Machine.final (Machine.observed (next 1) announces) CreatesIdle (init, [])
          toldRight).2) :=
  announced_true 1 _ run_toldRight (by decide +kernel) "rt"

def createdTwice : List ExecutorLabel :=
  [.receive ⟨"1", .createRuntime "rt" ⟨"/work"⟩⟩, .dispatch (.sent true), .dispatch .proceed,
    .dispatch (.created (.ok 0)), .dispatch .proceed, .dispatch (.sent true),
    .receive ⟨"2", .createRuntime "rt" ⟨"/work"⟩⟩, .dispatch (.sent true), .dispatch .proceed,
    .dispatch (.sent true), .dispatch (.sent true)]

def Sequenced (x : Executor × List (String × RuntimeState)) (l : ExecutorLabel) : Prop :=
  OneAtATime x.1 l

instance (x : Executor × List (String × RuntimeState)) (l : ExecutorLabel) :
    Decidable (Sequenced x l) := inferInstanceAs (Decidable (OneAtATime _ _))

theorem run_createdTwice :
    Machine.Run (Machine.observed (next 3) announces) Sequenced (init, [])
      (Machine.final (Machine.observed (next 3) announces) Sequenced (init, []) createdTwice) :=
  Machine.run_final createdTwice (by decide +kernel)

/-- A refused create is announced as Failed while the runtime is Running. -/
theorem running_told_failed :
    ¬ ∀ (maxRestarts : UInt32) (s : Executor × List (String × RuntimeState)),
      Machine.Run (Machine.observed (next maxRestarts) announces) Sequenced (init, []) s →
        s.1.dispatching.isDone = true ∧ s.1.checking.isDone = true →
          ∀ id, Truthful id (s.1.memory, s.2) := by
  intro h
  have htrue := h 3 _ run_createdTwice (by decide +kernel) "rt"
  have hentry : (Machine.final (Machine.observed (next 3) announces) Sequenced (init, [])
      createdTwice).1.memory.registry.get "rt" = some ⟨"rt", .running, ⟨"/work"⟩, 0, some 0⟩ := by
    decide +kernel
  have hlast : lastAnnounced "rt" (Machine.final (Machine.observed (next 3) announces) Sequenced
      (init, []) createdTwice).2 = some .failed := by
    decide +kernel
  unfold Truthful at htrue
  rw [hentry, hlast] at htrue
  contradiction

end October.AnnouncedStates
