import October.RegistryFrames

/-!
The registry as a family of rows, one for each job id: what an event makes of one row
depends on that row alone. A submission creates it, a status report overwrites its
status if it is there, a removal clears it.
-/
namespace October.RegistryRows

open SupervisorInvariants

def subject : SupervisorEvent → JobId
  | .jobSubmitted id _ _ => id
  | .jobStatusChanged id _ => id
  | .jobRemoved id => id

def renewed (r : Option JobRecord) : SupervisorEvent → Option JobRecord
  | .jobSubmitted _ spec submittedAt => some ⟨spec, .running, submittedAt⟩
  | .jobStatusChanged _ status => r.map (fun record => { record with status := status })
  | .jobRemoved _ => none

variable {log events : List SupervisorEvent} {e : SupervisorEvent} {id : JobId}

@[simp] theorem row_nil (id : JobId) : row [] id = none := rfl

theorem lookup_applyEvent_eq (state : SupervisorState) (e : SupervisorEvent) (id : JobId) :
    (SupervisorActor.applyEvent state e).jobs.lookup id =
      if id = subject e then renewed (state.jobs.lookup id) e else state.jobs.lookup id := by
  by_cases hid : id = subject e
  · rw [if_pos hid]
    subst hid
    cases e with
    | jobSubmitted id spec submittedAt => exact AList.lookup_insert _
    | jobStatusChanged id status =>
      simp only [SupervisorActor.applyEvent, subject, renewed]
      cases hold : state.jobs.lookup id with
      | none => simpa using hold
      | some record => exact AList.lookup_insert _
    | jobRemoved id => exact AList.lookup_erase _ _
  · rw [if_neg hid]
    cases e with
    | jobSubmitted id' spec submittedAt => exact AList.lookup_insert_ne hid
    | jobStatusChanged id' status =>
      simp only [SupervisorActor.applyEvent]
      cases state.jobs.lookup id' with
      | none => rfl
      | some record => exact AList.lookup_insert_ne hid
    | jobRemoved id' => exact AList.lookup_erase_ne hid

theorem row_snoc (log : List SupervisorEvent) (e : SupervisorEvent) (id : JobId) :
    row (log ++ [e]) id = if id = subject e then renewed (row log id) e else row log id := by
  rw [row, SupervisorActor.fold, List.foldl_append]
  exact lookup_applyEvent_eq (SupervisorActor.fold log) e id

theorem row_subject (log : List SupervisorEvent) (e : SupervisorEvent) (h : id = subject e) :
    row (log ++ [e]) id = renewed (row log id) e := by
  rw [row_snoc, if_pos h]

theorem row_other (log : List SupervisorEvent) (e : SupervisorEvent) (h : id ≠ subject e) :
    row (log ++ [e]) id = row log id := by
  rw [row_snoc, if_neg h]

def isReport : SupervisorEvent → Bool
  | .jobStatusChanged _ _ => true
  | _ => false

theorem row_reports (h : events.all isReport = true) :
    row (log ++ events) id = none ↔ row log id = none := by
  induction events using List.reverseRecOn with
  | nil => rw [List.append_nil]
  | append_singleton events e ih =>
    rw [List.all_append, Bool.and_eq_true] at h
    obtain ⟨hevents, he⟩ := h
    rw [← ih hevents, ← List.append_assoc, row_snoc]
    by_cases hid : id = subject e
    · rw [if_pos hid]
      cases e with
      | jobStatusChanged _ status => simp [renewed]
      | jobSubmitted _ _ _ | jobRemoved _ => simp [isReport] at he
    · rw [if_neg hid]

def Ended (log : List SupervisorEvent) (id : JobId) : Prop :=
  ∃ record, row log id = some record ∧ SupervisorActor.isTerminal record.status = true

/-- A row that is there or is created stays, unless it is cleared. -/
theorem row_kept (events : List SupervisorEvent)
    (h : row log id ≠ none ∨ ∃ spec submittedAt, .jobSubmitted id spec submittedAt ∈ events) :
    row (log ++ events) id ≠ none ∨ .jobRemoved id ∈ events := by
  induction events using List.reverseRecOn with
  | nil =>
    rw [List.append_nil]
    refine h.imp (fun h => h) ?_
    rintro ⟨_, _, hmem⟩
    contradiction
  | append_singleton events e ih =>
    rw [← List.append_assoc]
    have hold : (∀ spec submittedAt, e ≠ .jobSubmitted id spec submittedAt) →
        row (log ++ events) id ≠ none ∨ .jobRemoved id ∈ events := by
      intro hne
      refine ih (h.imp (fun h => h) ?_)
      rintro ⟨spec, submittedAt, hmem⟩
      refine ⟨spec, submittedAt, ?_⟩
      rcases List.mem_append.mp hmem with hmem | hmem
      · exact hmem
      · exact absurd (List.mem_singleton.mp hmem).symm (hne spec submittedAt)
    by_cases hid : id = subject e
    · rw [row_subject _ e hid]
      cases e with
      | jobSubmitted id' spec submittedAt => exact Or.inl (by simp [renewed])
      | jobStatusChanged id' status =>
        refine (hold (fun _ _ heq => by contradiction)).imp (fun hrow => ?_)
          (fun hmem => List.mem_append_left _ hmem)
        simpa [renewed] using hrow
      | jobRemoved id' =>
        have hid' : id = id' := hid
        exact Or.inr (by simp [hid'])
    · rw [row_other _ e hid]
      refine (hold (fun _ _ heq => hid (by rw [heq]; rfl))).imp (fun h => h)
        (fun hmem => List.mem_append_left _ hmem)

/-- What may follow a log: a submission under a new id, a report on a job that has not
ended, any removal. -/
def Permits (log : List SupervisorEvent) : SupervisorEvent → Prop
  | .jobSubmitted id _ _ => ∀ e ∈ log, subject e ≠ id
  | .jobStatusChanged id _ => ¬ Ended log id
  | .jobRemoved _ => True

def Lawful (log : List SupervisorEvent) : Prop :=
  ∀ before e after, log = before ++ e :: after → Permits before e

theorem lawful_nil : Lawful [] := fun before e after h => by simp at h

theorem Lawful.append_left (h : Lawful (log ++ events)) : Lawful log := by
  intro before e after hlog
  exact h before e (after ++ events) (by rw [hlog, List.append_assoc, List.cons_append])

theorem Lawful.snoc (h : Lawful log) (he : Permits log e) : Lawful (log ++ [e]) := by
  intro before e' after hlog
  rcases List.eq_nil_or_concat after with rfl | ⟨after', e'', rfl⟩
  · obtain ⟨hinit, hlast⟩ := List.append_inj' hlog rfl
    cases List.singleton_inj.mp hlast
    rw [← hinit]
    exact he
  · rw [List.concat_eq_append, ← List.cons_append, ← List.append_assoc] at hlog
    obtain ⟨hinit, _⟩ := List.append_inj' hlog rfl
    exact h before e' after' hinit

theorem Lawful.last (h : Lawful (log ++ [e])) : Permits log e := h log e [] rfl

/-- A job without events has no row. -/
theorem row_unheard (h : ∀ e ∈ log, subject e ≠ id) : row log id = none := by
  induction log using List.reverseRecOn with
  | nil => rfl
  | append_singleton log e ih =>
    have hother : id ≠ subject e := fun heq => h e (by simp) heq.symm
    rw [row_other log e hother]
    exact ih (fun e' he' => h e' (List.mem_append_left _ he'))

theorem row_heard (h : row log id ≠ none) : ∃ e ∈ log, subject e = id :=
  Classical.byContradiction (fun hnot => h (row_unheard (fun e he heq => hnot ⟨e, he, heq⟩)))

theorem Ended.heard (h : Ended log id) : ∃ e ∈ log, subject e = id := by
  obtain ⟨record, hrow, _⟩ := h
  exact row_heard (by simp [hrow])

/-- Only the report of an end makes a job an ended one. -/
theorem ended_snoc (h : Ended (log ++ [e]) id) : Ended log id ∨
    ∃ status, e = .jobStatusChanged id status ∧ SupervisorActor.isTerminal status = true := by
  unfold Ended at h
  by_cases hid : id = subject e
  · rw [row_subject log e hid] at h
    obtain ⟨record, hrow, hterminal⟩ := h
    cases e with
    | jobSubmitted id' spec submittedAt =>
      cases Option.some.inj hrow
      contradiction
    | jobStatusChanged id' status =>
      have hid' : id = id' := hid
      subst hid'
      obtain ⟨old, _, rfl⟩ := Option.map_eq_some_iff.mp hrow
      exact Or.inr ⟨status, rfl, hterminal⟩
    | jobRemoved id' => contradiction
  · rw [row_other log e hid] at h
    exact Or.inl h

/-- After a job has ended its row says so until it is cleared. -/
theorem Lawful.ended {later : List SupervisorEvent} (h : Lawful (log ++ later))
    (hended : Ended log id) : Ended (log ++ later) id ∨ row (log ++ later) id = none := by
  induction later using List.reverseRecOn with
  | nil =>
    rw [List.append_nil]
    exact Or.inl hended
  | append_singleton later e ih =>
    rw [← List.append_assoc] at h ⊢
    have hpermits := h.last
    have hbefore := ih h.append_left
    by_cases hid : id = subject e
    · cases e with
      | jobSubmitted id' spec submittedAt =>
        obtain ⟨e', he', hsubject⟩ := hended.heard
        exact absurd (hsubject.trans hid) (hpermits e' (List.mem_append_left _ he'))
      | jobStatusChanged id' status =>
        have hid' : id = id' := hid
        subst hid'
        rcases hbefore with hstill | hnone
        · exact absurd hstill hpermits
        · refine Or.inr ?_
          rw [row_subject _ (.jobStatusChanged id status) hid, hnone]
          rfl
      | jobRemoved id' => exact Or.inr (row_subject _ (.jobRemoved id') hid)
    · unfold Ended
      rw [row_other _ e hid]
      exact hbefore

/-- An ended job stays listed as ended until it is removed. -/
theorem Lawful.kept (h : Lawful (log ++ events)) (hended : Ended log id) :
    Ended (log ++ events) id ∨ .jobRemoved id ∈ events := by
  rcases h.ended hended with hstill | hnone
  · exact Or.inl hstill
  · obtain ⟨record, hrow, _⟩ := hended
    exact Or.inr ((row_kept events (Or.inl (by simp [hrow]))).resolve_left (not_not_intro hnone))

/-- The report of an end makes a listed job an ended one. -/
theorem Lawful.reported {status : JobStatus} (h : Lawful (log ++ events))
    (hlisted : row log id ≠ none) (hreport : .jobStatusChanged id status ∈ events)
    (hterminal : SupervisorActor.isTerminal status = true) :
    Ended (log ++ events) id ∨ .jobRemoved id ∈ events := by
  obtain ⟨before, after, rfl⟩ := List.append_of_mem hreport
  rcases row_kept before (Or.inl hlisted) with hrow | hremoved
  · obtain ⟨record, hrow'⟩ := Option.ne_none_iff_exists'.mp hrow
    have hended : Ended ((log ++ before) ++ [.jobStatusChanged id status]) id := by
      refine ⟨{ record with status := status }, ?_, hterminal⟩
      have hid : id = subject (.jobStatusChanged id status) := rfl
      rw [row_subject _ (.jobStatusChanged id status) hid, hrow']
      rfl
    rw [show log ++ (before ++ .jobStatusChanged id status :: after) =
      ((log ++ before) ++ [.jobStatusChanged id status]) ++ after by simp] at h ⊢
    exact (h.kept hended).imp (fun h => h)
      (fun hmem => List.mem_append_right _ (List.mem_cons_of_mem _ hmem))
  · exact Or.inr (List.mem_append_left _ hremoved)

/-- After a job was removed it has no row. -/
theorem Lawful.removed (h : Lawful log) (hremoved : .jobRemoved id ∈ log) :
    row log id = none := by
  induction log using List.reverseRecOn with
  | nil => contradiction
  | append_singleton log e ih =>
    have hpermits := h.last
    by_cases hid : id = subject e
    · rw [row_subject log e hid]
      cases e with
      | jobRemoved id' => rfl
      | jobSubmitted id' spec submittedAt =>
        have hold : .jobRemoved id ∈ log := by simpa using hremoved
        exact absurd hid (hpermits _ hold)
      | jobStatusChanged id' status =>
        have hold : .jobRemoved id ∈ log := by simpa using hremoved
        rw [ih h.append_left hold]
        rfl
    · rw [row_other log e hid]
      refine ih h.append_left ?_
      rcases List.mem_append.mp hremoved with hold | hnew
      · exact hold
      · exact absurd (by rw [← List.mem_singleton.mp hnew]; rfl) hid

end October.RegistryRows
