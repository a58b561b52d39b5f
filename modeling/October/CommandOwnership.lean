import October.TaskOwnership

/-!
Every command and every health check is safe beside the other loop: it takes an id before
it works on it, works on it alone, and gives it back. A command that names another id
leaves this one as it is.
-/
namespace October.TaskOwnership

open Await Executor RuntimeOwnership

variable {id : String} {loop : Loop} {g : Ledger} {α : Type} {pre : Ledger → Prop}
  {post : α → Ledger → Prop}

theorem safe_call {o : Op} {k : Ans o → Program α} (hkept : Kept id loop pre) (hpre : pre g)
    (hcreates : creates o = some id → ∀ g', pre g' → g'.owner = some loop)
    (hmarks : o = .markFailed id .unhealthy → ∀ g', pre g' → g'.owner ≠ some loop)
    (hstep : ∀ g' a g'', pre g' → Acts id loop o g' a g'' →
      Respects id loop.other g' g'' ∧ Safe (Acts id loop) (contract id loop) post (k a) g'') :
    Safe (Acts id loop) (contract id loop) post (.call o k) g :=
  Safe.call hpre hkept.stable
    (fun g' hpre' => ⟨hkept.consistent g' hpre', fun h => hcreates h g' hpre',
      fun h => hmarks h g' hpre'⟩) hstep

/-- An operation that neither creates a runtime nor marks one unhealthy. -/
theorem safe_plain {o : Op} {k : Ans o → Program α} (hkept : Kept id loop pre) (hpre : pre g)
    (hcreates : creates o ≠ some id) (hmarks : o ≠ .markFailed id .unhealthy)
    (hstep : ∀ g' a g'', pre g' → Acts id loop o g' a g'' →
      Respects id loop.other g' g'' ∧ Safe (Acts id loop) (contract id loop) post (k a) g'') :
    Safe (Acts id loop) (contract id loop) post (.call o k) g :=
  safe_call hkept hpre (fun h => absurd h hcreates) (fun h => absurd h hmarks) hstep

theorem safe_done {a : α} (hkept : Kept id loop pre) (hpre : pre g)
    (hpost : ∀ g', pre g' → post a g') :
    Safe (Acts id loop) (contract id loop) post (.done a) g :=
  Safe.ret hpre hkept.stable hpost

/-- Operations that are not about `id` keep what is known about it. -/
theorem safe_only {p : Program α} (hkept : Kept id loop pre) (hpre : pre g)
    (hp : p.Only (fun o => target o ≠ some id)) :
    Safe (Acts id loop) (contract id loop) (fun _ => pre) p g := by
  refine hp.safe hkept.stable (fun o g' htarget hpre' => ?_)
    (fun o g' a g'' htarget hpre' hact => ?_) hpre
  · refine ⟨hkept.consistent g' hpre', fun h => ?_, fun h => ?_⟩
    · cases o with
      | create other _ => exact absurd h htarget
      | _ => contradiction
    · subst h
      exact absurd rfl htarget
  · obtain ⟨howner, hsame⟩ := acts_other htarget hact
    exact ⟨respects_same _ howner hsame, hkept.stable g' g'' (respects_same _ howner hsame) hpre'⟩

/-- An operation about something else. -/
theorem safe_other {o : Op} {k : Ans o → Program α} (hkept : Kept id loop pre) (hpre : pre g)
    (htarget : target o ≠ some id)
    (hk : ∀ a g', pre g' → Safe (Acts id loop) (contract id loop) post (k a) g') :
    Safe (Acts id loop) (contract id loop) post (.call o k) g := by
  have hcall : Safe (Acts id loop) (contract id loop) (fun _ => pre) (.call o .done) g :=
    safe_only hkept hpre ⟨htarget, fun _ => trivial⟩
  exact Safe.bind (contract_preorder id loop) hcall hk

theorem target_emit (req runtimeId : String) {state : RuntimeState} (h : state ≠ .stopped) :
    target (.send ⟨req, .runtimeStateChanged runtimeId state⟩) = none := by
  cases state <;> first | contradiction | rfl

/-- Announcing a state other than Stopped, and what follows. -/
theorem emitState_safe {k : Unit → Program α} (hkept : Kept id loop pre) (hpre : pre g)
    (req runtimeId : String) (state : RuntimeState) (h : state ≠ .stopped)
    (hk : ∀ a g', pre g' → Safe (Acts id loop) (contract id loop) post (k a) g') :
    Safe (Acts id loop) (contract id loop) post (emitState req runtimeId state >>= k) g := by
  have htarget : target (.send ⟨req, .runtimeStateChanged runtimeId state⟩) ≠ some id := by
    rw [target_emit req runtimeId h]
    exact Option.some_ne_none id |>.symm
  exact safe_other hkept hpre htarget hk

section Own

variable {config : RuntimeConfig} {h : RuntimeHandle} {taken : Option RuntimeHandle}

theorem stopHandle_safe {k : Unit → Program α} (hg : Works id loop taken g)
    (hk : ∀ a g', Works id loop none g' → Safe (Acts id loop) (contract id loop) post (k a) g') :
    Safe (Acts id loop) (contract id loop) post (stopHandle taken >>= k) g := by
  have hstop : Safe (Acts id loop) (contract id loop) (fun _ => Works id loop none)
      (stopHandle taken) g := by
    cases taken with
    | none => exact safe_done (kept_works id loop none) hg (fun _ h => h)
    | some handle =>
      refine safe_plain (kept_works id loop (some handle)) hg (by simp [creates]) (by simp)
        (fun g' a g'' hg' hact => ?_)
      obtain ⟨hrespects, hg''⟩ := stop_works hg' hact
      exact ⟨hrespects, safe_done (kept_works id loop none) hg'' (fun _ h => h)⟩
  exact Safe.bind (contract_preorder id loop) hstop hk

theorem create_safe {k : Except RuntimeError RuntimeHandle → Program α}
    (hg : Works id loop none g)
    (herror : ∀ e g', Works id loop none g' →
      Safe (Acts id loop) (contract id loop) post (k (.error e)) g')
    (hok : ∀ handle g', Works id loop (some handle) g' →
      Safe (Acts id loop) (contract id loop) post (k (.ok handle)) g') :
    Safe (Acts id loop) (contract id loop) post (.call (.create id config) k) g := by
  refine safe_call (kept_works id loop none) hg (fun _ _ hg' => hg'.owner)
    (fun h => by contradiction) (fun g' a g'' hg' hact => ?_)
  rcases create_works hg' hact with ⟨hrespects, ⟨e, rfl, hg''⟩ | ⟨handle, rfl, hg''⟩⟩
  · exact ⟨hrespects, herror e g'' hg''⟩
  · exact ⟨hrespects, hok handle g'' hg''⟩

theorem completeCreate_safe {k : Except RuntimeError Unit → Program α}
    (hg : Works id loop (some h) g)
    (hk : ∀ g', Idle id loop g' → Safe (Acts id loop) (contract id loop) post (k (.ok ())) g') :
    Safe (Acts id loop) (contract id loop) post (.call (.completeCreate id h) k) g := by
  refine safe_plain (kept_works id loop (some h)) hg (by simp [creates]) (by simp)
    (fun g' a g'' hg' hact => ?_)
  obtain ⟨hrespects, rfl, hg''⟩ := completeCreate_works hg' hact
  exact ⟨hrespects, hk g'' hg''⟩

theorem markFailed_safe {k : Except RuntimeError Unit → Program α} (hg : Works id loop none g)
    (hk : ∀ a g', Idle id loop g' → Safe (Acts id loop) (contract id loop) post (k a) g') :
    Safe (Acts id loop) (contract id loop) post (.call (.markFailed id .notCreated) k) g := by
  refine safe_plain (kept_works id loop none) hg (by simp [creates]) (by simp)
    (fun g' a g'' hg' hact => ?_)
  obtain ⟨hrespects, hg''⟩ := markFailed_works hg' hact
  exact ⟨hrespects, hk a g'' hg''⟩

theorem createCore_safe (hg : Asked id g) :
    Safe (Acts id .dispatch) (contract id .dispatch) (fun _ => Idle id .dispatch)
      (createCore id config) g := by
  refine safe_plain (kept_asked id) hg (by simp [creates]) (by simp)
    (fun g₁ a g₂ hg₁ hact => ?_)
  rcases beginCreate_asked hg₁ hact with ⟨hrespects, ⟨e, rfl, rfl⟩ | ⟨_, rfl, hg₂⟩⟩
  · exact ⟨hrespects, safe_done (kept_asked id) hg₁ (fun _ h => h.idle)⟩
  · refine ⟨hrespects, create_safe hg₂ (fun e g₃ hg₃ => ?_) (fun handle g₃ hg₃ => ?_)⟩
    · exact markFailed_safe hg₃
        (fun _ _ hg₄ => safe_done (kept_idle id .dispatch) hg₄ (fun _ h => h))
    · exact completeCreate_safe hg₃
        (fun _ hg₄ => safe_done (kept_idle id .dispatch) hg₄ (fun _ h => h))

theorem doCreate_safe {req : String} (hg : Asked id g) :
    Safe (Acts id .dispatch) (contract id .dispatch) (fun _ => Idle id .dispatch)
      (doCreate id config req) g := by
  refine emitState_safe (kept_asked id) hg req id .creating (by simp) (fun _ g₁ hg₁ => ?_)
  refine Safe.bind (contract_preorder id .dispatch) (createCore_safe hg₁) (fun result g₂ hg₂ => ?_)
  cases result with
  | ok _ =>
    exact emitState_safe (kept_idle id .dispatch) hg₂ req id .running (by simp)
      (fun _ _ hg₃ => safe_done (kept_idle id .dispatch) hg₃ (fun _ h => h))
  | error e =>
    exact emitState_safe (kept_idle id .dispatch) hg₂ req id .failed (by simp)
      (fun _ _ hg₃ => safe_done (kept_idle id .dispatch) hg₃ (fun _ h => h))

theorem doDestroy_safe {req : String} (hg : Idle id .dispatch g) :
    Safe (Acts id .dispatch) (contract id .dispatch) (fun _ => Idle id .dispatch)
      (doDestroy id req) g := by
  refine safe_plain (kept_idle id .dispatch) hg (by simp [creates]) (by simp)
    (fun g₁ a g₂ hg₁ hact => ?_)
  rcases beginStop_idle hg₁ hact with ⟨hrespects, ⟨e, rfl, rfl⟩ | ⟨handle, rfl, hg₂⟩⟩
  · exact ⟨hrespects, safe_done (kept_idle id .dispatch) hg₁ (fun _ h => h)⟩
  · refine ⟨hrespects, ?_⟩
    refine emitState_safe (kept_works id .dispatch handle) hg₂ req id .stopping (by simp)
      (fun _ g₃ hg₃ => ?_)
    refine stopHandle_safe hg₃ (fun _ g₄ hg₄ => ?_)
    refine safe_plain (kept_works id .dispatch none) hg₄ (by simp [creates]) (by simp)
      (fun g₅ b g₆ hg₅ hact' => ?_)
    obtain ⟨hrespects', rfl, hg₆⟩ := completeStop_works hg₅ hact'
    refine ⟨hrespects', safe_plain (kept_gone id) hg₆ (by simp [creates]) (by simp)
      (fun g₇ c g₈ hg₇ hact'' => ?_)⟩
    obtain ⟨hrespects'', hg₈⟩ := sendStopped_gone hg₇ hact''
    exact ⟨hrespects'', safe_done (kept_idle id .dispatch) hg₈ (fun _ h => h)⟩

theorem doRestart_safe {req : String} (hg : Idle id .dispatch g) :
    Safe (Acts id .dispatch) (contract id .dispatch) (fun _ => Idle id .dispatch)
      (doRestart id req) g := by
  refine safe_other (kept_idle id .dispatch) hg (by simp [target]) (fun found g₁ hg₁ => ?_)
  cases found with
  | none => exact safe_done (kept_idle id .dispatch) hg₁ (fun _ h => h)
  | some config =>
    refine safe_plain (kept_idle id .dispatch) hg₁ (by simp [creates]) (by simp)
      (fun g₂ a g₃ hg₂ hact => ?_)
    rcases beginRestart_idle hg₂ hact with ⟨hrespects, ⟨e, rfl, rfl⟩ | ⟨handle, rfl, hg₃⟩⟩
    · exact ⟨hrespects, safe_done (kept_idle id .dispatch) hg₂ (fun _ h => h)⟩
    · refine ⟨hrespects, ?_⟩
      refine emitState_safe (kept_works id .dispatch handle) hg₃ req id .creating (by simp)
        (fun _ g₄ hg₄ => ?_)
      refine stopHandle_safe hg₄ (fun _ g₅ hg₅ => ?_)
      refine create_safe hg₅ (fun e g₆ hg₆ => ?_) (fun created g₆ hg₆ => ?_)
      · refine markFailed_safe hg₆ (fun _ g₇ hg₇ => ?_)
        exact emitState_safe (kept_idle id .dispatch) hg₇ req id .failed (by simp)
          (fun _ _ hg₈ => safe_done (kept_idle id .dispatch) hg₈ (fun _ h => h))
      · refine completeCreate_safe hg₆ (fun g₇ hg₇ => ?_)
        exact emitState_safe (kept_idle id .dispatch) hg₇ req id .running (by simp)
          (fun _ _ hg₈ => safe_done (kept_idle id .dispatch) hg₈ (fun _ h => h))

theorem reviveRuntime_safe {req : String} (hg : Idle id .check g) :
    Safe (Acts id .check) (contract id .check) (fun _ => Idle id .check)
      (reviveRuntime id req config) g := by
  refine safe_plain (kept_idle id .check) hg (by simp [creates]) (by simp)
    (fun g₁ a g₂ hg₁ hact => ?_)
  rcases beginRestart_idle hg₁ hact with ⟨hrespects, ⟨e, rfl, rfl⟩ | ⟨handle, rfl, hg₂⟩⟩
  · exact ⟨hrespects, safe_done (kept_idle id .check) hg₁ (fun _ h => h)⟩
  · refine ⟨hrespects, ?_⟩
    refine emitState_safe (kept_works id .check handle) hg₂ req id .creating (by simp)
      (fun _ g₃ hg₃ => ?_)
    refine stopHandle_safe hg₃ (fun _ g₄ hg₄ => ?_)
    refine create_safe hg₄ (fun e g₅ hg₅ => ?_) (fun created g₅ hg₅ => ?_)
    · refine markFailed_safe hg₅ (fun _ g₆ hg₆ => ?_)
      exact safe_only (kept_idle id .check) hg₆ ⟨by simp [target], fun _ => trivial⟩
    · refine completeCreate_safe hg₅ (fun g₆ hg₆ => ?_)
      exact safe_only (kept_idle id .check) hg₆ ⟨by simp [target], fun _ => trivial⟩

/-- The loop goes on after a runtime found unhealthy, whoever works on it by then. -/
theorem onUnhealthy_safe (maxRestarts : UInt32) (hg : Idle id .check g) :
    Safe (Acts id .check) (contract id .check) (fun _ => Idle id .check)
      (onUnhealthy maxRestarts id) g := by
  refine safe_call (kept_idle id .check) hg (fun h => by contradiction)
    (fun _ _ hg' => hg'.other) (fun g₁ a g₂ hg₁ hact => ?_)
  obtain ⟨hrespects, hg₂⟩ := markFailed_idle hg₁ hact
  refine ⟨hrespects, ?_⟩
  refine safe_other (kept_idle id .check) hg₂ (by simp [target]) (fun unsolicited g₃ hg₃ => ?_)
  refine emitState_safe (kept_idle id .check) hg₃ unsolicited id .failed (by simp)
    (fun _ g₄ hg₄ => ?_)
  refine safe_other (kept_idle id .check) hg₄ (by simp [target]) (fun count g₅ hg₅ => ?_)
  change Safe _ _ _ (if _ then _ else _) g₅
  split
  · exact safe_done (kept_idle id .check) hg₅ (fun _ h => h)
  · refine safe_other (kept_idle id .check) hg₅ (by simp [target]) (fun found g₆ hg₆ => ?_)
    cases found with
    | none => exact safe_done (kept_idle id .check) hg₆ (fun _ h => h)
    | some config => exact reviveRuntime_safe hg₆

end Own

section Others

variable {other req : String} (hne : other ≠ id)
include hne

theorem emitState_only (state : RuntimeState) :
    (emitState req other state).Only (fun o => target o ≠ some id) := by
  refine ⟨?_, fun _ => trivial⟩
  cases state with
  | stopped => exact fun h => hne (Option.some.inj h)
  | _ => simp [target]

theorem createCore_only (config : RuntimeConfig) :
    (createCore other config).Only (fun o => target o ≠ some id) := by
  have hother : some other ≠ some id := fun h => hne (Option.some.inj h)
  refine ⟨hother, fun a => ?_⟩
  cases a with
  | error _ => trivial
  | ok _ =>
    refine ⟨hother, fun b => ?_⟩
    cases b with
    | error _ => exact ⟨hother, fun _ => trivial⟩
    | ok _ => exact ⟨hother, fun _ => trivial⟩

theorem doCreate_only (config : RuntimeConfig) :
    (doCreate other config req).Only (fun o => target o ≠ some id) := by
  refine (emitState_only hne .creating).bind (fun _ => ?_)
  refine (createCore_only hne config).bind (fun result => ?_)
  cases result with
  | ok _ => exact (emitState_only hne .running).bind (fun _ => trivial)
  | error _ => exact (emitState_only hne .failed).bind (fun _ => trivial)

omit hne in
theorem stopHandle_only (taken : Option RuntimeHandle) :
    (stopHandle taken).Only (fun o => target o ≠ some id) := by
  cases taken with
  | none => trivial
  | some _ => exact ⟨by simp [target], fun _ => trivial⟩

theorem doDestroy_only : (doDestroy other req).Only (fun o => target o ≠ some id) := by
  have hother : some other ≠ some id := fun h => hne (Option.some.inj h)
  refine ⟨hother, fun a => ?_⟩
  cases a with
  | error _ => trivial
  | ok handle =>
    refine (emitState_only hne .stopping).bind (fun _ => ?_)
    refine (stopHandle_only handle).bind (fun _ => ?_)
    refine ⟨hother, fun b => ?_⟩
    cases b with
    | error _ => trivial
    | ok _ => exact (emitState_only hne .stopped).bind (fun _ => trivial)

theorem doRestart_only : (doRestart other req).Only (fun o => target o ≠ some id) := by
  have hother : some other ≠ some id := fun h => hne (Option.some.inj h)
  refine ⟨by simp [target], fun a => ?_⟩
  cases a with
  | none => trivial
  | some config =>
    refine ⟨hother, fun b => ?_⟩
    cases b with
    | error _ => trivial
    | ok handle =>
      refine (emitState_only hne .creating).bind (fun _ => ?_)
      refine (stopHandle_only handle).bind (fun _ => ?_)
      refine ⟨hother, fun c => ?_⟩
      cases c with
      | error _ =>
        exact ⟨hother, fun _ => (emitState_only hne .failed).bind (fun _ => trivial)⟩
      | ok _ =>
        refine ⟨hother, fun d => ?_⟩
        cases d with
        | error _ => trivial
        | ok _ => exact (emitState_only hne .running).bind (fun _ => trivial)

theorem reviveRuntime_only (config : RuntimeConfig) :
    (reviveRuntime other req config).Only (fun o => target o ≠ some id) := by
  have hother : some other ≠ some id := fun h => hne (Option.some.inj h)
  refine ⟨hother, fun a => ?_⟩
  cases a with
  | error _ => trivial
  | ok old =>
    refine (emitState_only hne .creating).bind (fun _ => ?_)
    refine (stopHandle_only old).bind (fun _ => ?_)
    refine ⟨hother, fun b => ?_⟩
    cases b with
    | error _ => exact ⟨hother, fun _ => emitState_only hne .failed⟩
    | ok _ => exact ⟨hother, fun _ => emitState_only hne .running⟩

theorem onUnhealthy_only (maxRestarts : UInt32) :
    (onUnhealthy maxRestarts other).Only (fun o => target o ≠ some id) := by
  have hother : some other ≠ some id := fun h => hne (Option.some.inj h)
  refine ⟨hother, fun _ => ⟨by simp [target], fun unsolicited => ?_⟩⟩
  refine (emitState_only hne .failed).bind (fun _ => ⟨by simp [target], fun count => ?_⟩)
  change Prog.Only _ (if _ then _ else _)
  split
  · trivial
  · refine ⟨by simp [target], fun config => ?_⟩
    cases config with
    | none => trivial
    | some config => exact reviveRuntime_only hne config

end Others

/-- The dispatch of a command. -/
theorem dispatch_safe {msg : ExecutorInboundMessage} (hg : Idle id .dispatch g)
    (hasked : ∀ config, msg.command = .createRuntime id config → Asked id g) :
    Safe (Acts id .dispatch) (contract id .dispatch) (fun _ => Idle id .dispatch)
      (dispatch msg) g := by
  have hrun : Safe (Acts id .dispatch) (contract id .dispatch) (fun _ => Idle id .dispatch)
      (runCommand msg.requestId msg.command) g := by
    cases hcommand : msg.command with
    | createRuntime other config =>
      by_cases hother : other = id
      · subst hother
        exact doCreate_safe (hasked config hcommand)
      · exact safe_only (kept_idle id .dispatch) hg (doCreate_only hother config)
    | destroyRuntime other =>
      by_cases hother : other = id
      · subst hother
        exact doDestroy_safe hg
      · exact safe_only (kept_idle id .dispatch) hg (doDestroy_only hother)
    | restartRuntime other =>
      by_cases hother : other = id
      · subst hother
        exact doRestart_safe hg
      · exact safe_only (kept_idle id .dispatch) hg (doRestart_only hother)
    | queryRuntimes =>
      exact safe_only (kept_idle id .dispatch) hg
        ⟨by simp [target], fun _ => ⟨by simp [target], fun _ => trivial⟩⟩
  refine Safe.bind (contract_preorder id .dispatch) hrun (fun result g' hg' => ?_)
  cases result with
  | ok _ => exact safe_done (kept_idle id .dispatch) hg' (fun _ h => h)
  | error e => exact safe_only (kept_idle id .dispatch) hg' ⟨by simp [target], fun _ => trivial⟩

/-- The loop over the handles listed, however stale the list has become. -/
theorem checkHandles_safe (maxRestarts : UInt32) (handles : List (String × RuntimeHandle))
    (hg : Idle id .check g) :
    Safe (Acts id .check) (contract id .check) (fun _ => Idle id .check)
      (checkHandles maxRestarts handles) g := by
  induction handles generalizing g with
  | nil => exact safe_done (kept_idle id .check) hg (fun _ h => h)
  | cons listed rest ih =>
    obtain ⟨other, handle⟩ := listed
    refine safe_other (kept_idle id .check) hg (by simp [target]) (fun answer g₁ hg₁ => ?_)
    change Safe _ _ _ (if _ then _ else _) g₁
    split
    · exact ih hg₁
    · have hunhealthy : Safe (Acts id .check) (contract id .check) (fun _ => Idle id .check)
          (onUnhealthy maxRestarts other) g₁ := by
        by_cases hother : other = id
        · subst hother
          exact onUnhealthy_safe maxRestarts hg₁
        · exact safe_only (kept_idle id .check) hg₁ (onUnhealthy_only hother maxRestarts)
      exact Safe.bind (contract_preorder id .check) hunhealthy (fun _ _ hg₂ => ih hg₂)

theorem runHealthCheck_safe (maxRestarts : UInt32) (hg : Idle id .check g) :
    Safe (Acts id .check) (contract id .check) (fun _ => Idle id .check)
      (runHealthCheck maxRestarts) g :=
  safe_other (kept_idle id .check) hg (by simp [target])
    (fun handles _ hg' => checkHandles_safe maxRestarts handles hg')

end October.TaskOwnership
