import October.RuntimeOwnership

/-!
What the operations of the executor's loops do to the entry of an id: one lemma for each
critical section of the registry that changes it, with the answer it gives, and one for
all operations that only read.
-/
namespace October.EntrySteps

open Await Executor RuntimeOwnership

variable {id : String} {m m' : Memory}

def reads : Op → Bool
  | .beginCreate _ _ => false
  | .completeCreate _ _ => false
  | .markFailed _ _ => false
  | .beginStop _ => false
  | .completeStop _ => false
  | .beginRestart _ => false
  | _ => true

theorem can_reads {o : Op} {a : Ans o} (ho : reads o = true) (h : Can o m a m') :
    m'.registry = m.registry := by
  obtain ⟨choice, h⟩ := h
  cases o with
  | send msg =>
    cases choice with
    | sent ok =>
      cases Option.some.inj h
      cases ok <;> rfl
    | _ => contradiction
  | create id config =>
    cases choice with
    | created result =>
      cases result <;> (cases Option.some.inj h; rfl)
    | _ => contradiction
  | stop handle =>
    cases choice with
    | stopped result =>
      cases Option.some.inj h
      rfl
    | _ => contradiction
  | list =>
    cases choice with
    | listed order =>
      obtain ⟨_, heq⟩ := Option.ite_none_right_eq_some.mp h
      cases Option.some.inj heq
      rfl
    | _ => contradiction
  | runningHandles =>
    cases choice with
    | handles order =>
      obtain ⟨_, heq⟩ := Option.ite_none_right_eq_some.mp h
      cases Option.some.inj heq
      rfl
    | _ => contradiction
  | newUuid | getConfig _ | getRestartCount _ | healthCheck _ _ =>
    cases choice <;> first
      | contradiction
      | (cases Option.some.inj h; rfl)
  | _ => contradiction

/-- An entry is created only under an id that has none. -/
theorem beginCreate_can {config : RuntimeConfig} {a : Except RuntimeError Unit}
    (h : Can (.beginCreate id config) m a m') :
    (∃ entry e, m.registry.get id = some entry ∧ a = .error e ∧ m'.registry = m.registry) ∨
    (m.registry.get id = none ∧ a = .ok () ∧
      m'.registry.get id = some ⟨id, .creating, config, 0, none⟩) := by
  obtain ⟨choice, hstep⟩ := h
  cases choice with
  | proceed =>
    obtain ⟨rfl, rfl⟩ := can_section hstep
    unfold RuntimeRegistry.beginCreate
    cases hentry : m.registry.get id with
    | some entry => exact Or.inl ⟨entry, _, rfl, rfl, rfl⟩
    | none => exact Or.inr ⟨rfl, rfl, RuntimeRegistry.get_insert_self⟩
  | _ => contradiction

/-- What completing and failing a creation do to the entry. -/
theorem refile_section {a : Except RuntimeError Unit} {f : RuntimeEntry → RuntimeEntry}
    {change : RuntimeRegistry → Except RuntimeError Unit × RuntimeRegistry}
    (hid : ∀ entry, (f entry).id = entry.id)
    (hchange : change m.registry = match m.registry.get id with
      | none => (.error (.notFound id), m.registry)
      | some entry => (.ok (), m.registry.insert (f entry)))
    (h : some (m.section change) = some (a, m')) :
    (∃ e, m.registry.get id = none ∧ a = .error e ∧ m'.registry = m.registry) ∨
    ∃ entry, m.registry.get id = some entry ∧ a = .ok () ∧ m'.registry.get id = some (f entry) := by
  obtain ⟨rfl, rfl⟩ := can_section h
  rw [hchange]
  cases hentry : m.registry.get id with
  | none => exact Or.inl ⟨_, rfl, rfl, rfl⟩
  | some entry =>
    have hfiled : (f entry).id = id := (hid entry).trans (RuntimeRegistry.id_of_get hentry)
    exact Or.inr ⟨entry, rfl, rfl, RuntimeRegistry.get_insert _ _ hfiled⟩

theorem completeCreate_can {handle : RuntimeHandle} {a : Except RuntimeError Unit}
    (h : Can (.completeCreate id handle) m a m') :
    (∃ e, m.registry.get id = none ∧ a = .error e ∧ m'.registry = m.registry) ∨
    ∃ entry, m.registry.get id = some entry ∧ a = .ok () ∧
      m'.registry.get id = some { entry with state := .running, handle := some handle } := by
  obtain ⟨choice, hstep⟩ := h
  cases choice with
  | proceed => exact refile_section (fun _ => rfl) rfl hstep
  | _ => contradiction

theorem markFailed_can {cause : Cause} {a : Except RuntimeError Unit}
    (h : Can (.markFailed id cause) m a m') :
    (∃ e, m.registry.get id = none ∧ a = .error e ∧ m'.registry = m.registry) ∨
    ∃ entry, m.registry.get id = some entry ∧ a = .ok () ∧
      m'.registry.get id = some { entry with state := .failed, handle := none } := by
  obtain ⟨choice, hstep⟩ := h
  cases choice with
  | proceed => exact refile_section (fun _ => rfl) rfl hstep
  | _ => contradiction

/-- What stopping and restarting begin with. -/
theorem leave_section {a : Except RuntimeError (Option RuntimeHandle)} {action : String}
    {f : RuntimeEntry → RuntimeEntry} (hid : ∀ entry, (f entry).id = entry.id)
    (h : some (m.section (RuntimeRegistry.leave id action f)) = some (a, m')) :
    (∃ e, a = .error e ∧ m'.registry = m.registry) ∨
    ∃ entry, m.registry.get id = some entry ∧ a = .ok entry.handle ∧
      m'.registry.get id = some (f entry) := by
  obtain ⟨rfl, rfl⟩ := can_section h
  rcases RuntimeRegistry.leave_cases id action f m.registry with ⟨e, heq⟩ | ⟨entry, hentry, heq⟩
  · rw [heq]
    exact Or.inl ⟨e, rfl, rfl⟩
  · rw [heq]
    have hfiled : (f entry).id = id := (hid entry).trans (RuntimeRegistry.id_of_get hentry)
    exact Or.inr ⟨entry, hentry, rfl, RuntimeRegistry.get_insert _ _ hfiled⟩

theorem beginStop_can {a : Except RuntimeError (Option RuntimeHandle)}
    (h : Can (.beginStop id) m a m') :
    (∃ e, a = .error e ∧ m'.registry = m.registry) ∨
    ∃ entry, m.registry.get id = some entry ∧ a = .ok entry.handle ∧
      m'.registry.get id = some { entry with state := .stopping, handle := none } := by
  obtain ⟨choice, hstep⟩ := h
  cases choice with
  | proceed => exact leave_section (fun _ => rfl) hstep
  | _ => contradiction

theorem beginRestart_can {a : Except RuntimeError (Option RuntimeHandle)}
    (h : Can (.beginRestart id) m a m') :
    (∃ e, a = .error e ∧ m'.registry = m.registry) ∨
    ∃ entry, m.registry.get id = some entry ∧ a = .ok entry.handle ∧
      m'.registry.get id = some { entry with
        state := .creating, restartCount := entry.restartCount + 1, handle := none } := by
  obtain ⟨choice, hstep⟩ := h
  cases choice with
  | proceed => exact leave_section (fun _ => rfl) hstep
  | _ => contradiction

theorem completeStop_can {a : Except RuntimeError Unit} (h : Can (.completeStop id) m a m') :
    (∃ e, m.registry.get id = none ∧ a = .error e ∧ m'.registry = m.registry) ∨
    ∃ entry, m.registry.get id = some entry ∧ a = .ok () ∧ m'.registry.get id = none := by
  obtain ⟨choice, hstep⟩ := h
  cases choice with
  | proceed =>
    obtain ⟨rfl, rfl⟩ := can_section hstep
    unfold RuntimeRegistry.completeStop
    cases hentry : m.registry.get id with
    | none => exact Or.inl ⟨_, rfl, rfl, rfl⟩
    | some entry => exact Or.inr ⟨entry, rfl, rfl, RuntimeRegistry.get_erase_self⟩
  | _ => contradiction

theorem getRestartCount_can {a : Option UInt32} (h : Can (.getRestartCount id) m a m') :
    a = (m.registry.get id).map RuntimeEntry.restartCount := by
  obtain ⟨choice, hstep⟩ := h
  cases choice with
  | proceed => exact (congrArg Prod.fst (Option.some.inj hstep)).symm
  | _ => contradiction

theorem runningHandles_can {a : List (String × RuntimeHandle)} (h : Can .runningHandles m a m') :
    a.Perm m.registry.runningHandles := by
  obtain ⟨choice, hstep⟩ := h
  cases choice with
  | handles order =>
    obtain ⟨hperm, heq⟩ := Option.ite_none_right_eq_some.mp hstep
    cases Option.some.inj heq
    exact List.isPerm_iff.mp hperm
  | _ => contradiction

/-- An id whose runtime is listed as Running has an entry. -/
theorem listed_entry {handle : RuntimeHandle} {r : RuntimeRegistry}
    (h : (id, handle) ∈ r.runningHandles) : (r.get id).isSome = true := by
  obtain ⟨⟨key, entry⟩, hmem, hrunning⟩ := List.mem_filterMap.mp h
  have hentry : r.get key = some entry := AList.mem_lookup_iff.mpr hmem
  have hid : entry.id = id := by
    unfold RuntimeRegistry.runningHandle at hrunning
    split at hrunning
    · obtain ⟨found, _, heq⟩ := Option.map_eq_some_iff.mp hrunning
      exact congrArg Prod.fst heq
    · contradiction
  rw [← hid, RuntimeRegistry.id_of_get hentry, hentry]
  rfl

end October.EntrySteps
