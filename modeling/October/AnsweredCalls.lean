import October.RunLoop

/-!
How often a tool call is answered. If every cancel takes effect before its call was
answered, no aborted task answers, and the end of the loop drops no task that has its
answer still to give, then no call id is answered twice, and once the loop and all tasks
are done each requested id was answered once. The loop itself does not see to this: it
answers every cancel, also one that comes after the answer, and waits for no task.
-/
namespace October.AnsweredCalls

open RunLoop

/-- The answers that a task's call has had: the task's own, or the one of its cancel. -/
def due (phase : LoopPhase) (c : CallTask) : ℕ :=
  if c.aborted then (if phase = .answering c.callId then 0 else 1)
  else if c.hasAnswered then 1
  else 0

/-- Only the answer to its cancel changes what a task that stands still has had. -/
theorem due_congr {phase phase' : LoopPhase} {c : CallTask} (h : phase ≠ .answering c.callId)
    (h' : phase' ≠ .answering c.callId) : due phase c = due phase' c := by
  rw [due, due, if_neg h, if_neg h']

structure TaskInv (s : RunLoop) (i : ℕ) (c : CallTask) : Prop where
  requested : c.callId ∈ s.requested
  filed : c.aborted = false → c.hasAnswered = false →
    s.phase = .inserting c.callId i ∨ s.inFlight.lookup c.callId = some i
  cancelled : c.aborted = true → c.callId ∈ s.cancelled ∧ s.phase ≠ .cancelling c.callId
  answers : s.answersTo c.callId = due s.phase c

structure Spawned (s : RunLoop) : Prop where
  distinct : ∀ i j c d, s.tasks i = some c → s.tasks j = some d → c.callId = d.callId → i = j
  spawned : ∀ callId ∈ s.requested, ∃ i c, s.tasks i = some c ∧ c.callId = callId

def LoopInv (s : RunLoop) : Prop :=
  match s.phase with
  | .inserting callId i => ∃ c, s.tasks i = some c ∧ c.callId = callId
  | .cancelling callId => callId ∈ s.requested ∧ callId ∈ s.cancelled
  | .answering callId => ∃ i c, s.tasks i = some c ∧ c.callId = callId ∧ c.aborted = true
  | _ => True

structure Inv (s : RunLoop) : Prop where
  spawned : Spawned s
  loop : LoopInv s
  task : ∀ i c, s.tasks i = some c → TaskInv s i c
  silent : ∀ callId, callId ∉ s.requested → s.answersTo callId = 0

variable {s t : RunLoop} {i j : ℕ} {c d : CallTask} {callId : String}

section Fields

theorem tasks_setTask (h : (s.setTask i c).tasks j = some d) :
    (j = i ∧ d = c) ∨ (j ≠ i ∧ s.tasks j = some d) := by
  unfold setTask at h
  dsimp only at h
  by_cases hj : j = i
  · rw [if_pos hj] at h
    exact Or.inl ⟨hj, (Option.some.inj h).symm⟩
  · rw [if_neg hj] at h
    exact Or.inr ⟨hj, h⟩

theorem setTask_self (s : RunLoop) (i : ℕ) (c : CallTask) : (s.setTask i c).tasks i = some c :=
  if_pos rfl

theorem abort_eq (hi : s.tasks i = some c) :
    s.abort i = s.setTask i { c with aborted := true } := by
  unfold abort setTask
  congr 1
  funext j
  by_cases hj : j = i
  · subst hj
    rw [if_pos rfl, if_pos rfl, hi, Option.map_some]
  · rw [if_neg hj, if_neg hj]

theorem answersTo_append (s : RunLoop) (id : String) (result : ToolResult) (phase : LoopPhase) :
    answersTo { s with
      phase := phase
      responses := s.responses ++ [(id, result)] } callId =
      s.answersTo callId + if id = callId then 1 else 0 := by
  simp [answersTo, List.count_append, List.count_singleton]

end Fields

/-- A task goes on under its call id. -/
theorem Spawned.setTask (h : Spawned s) (hi : s.tasks i = some c) (hid : d.callId = c.callId) :
    Spawned (s.setTask i d) := by
  constructor
  · intro j k e f he hf hef
    rcases tasks_setTask he with ⟨rfl, rfl⟩ | ⟨-, he'⟩ <;>
      rcases tasks_setTask hf with ⟨rfl, rfl⟩ | ⟨-, hf'⟩
    · rfl
    · exact h.distinct _ _ _ _ hi hf' (hid.symm.trans hef)
    · exact h.distinct _ _ _ _ he' hi (hef.trans hid)
    · exact h.distinct _ _ _ _ he' hf' hef
  · intro id hmem
    obtain ⟨j, e, he, rfl⟩ := h.spawned id hmem
    by_cases hj : j = i
    · subst hj
      rw [hi] at he
      cases Option.some.inj he
      exact ⟨j, d, setTask_self s j d, hid⟩
    · exact ⟨j, e, (if_neg hj).trans he, rfl⟩

/-- The loop's next task is still there when a task goes on. -/
theorem LoopInv.setTask (h : LoopInv s) (hi : s.tasks i = some c) (hid : d.callId = c.callId)
    (haborted : c.aborted = true → d.aborted = true) : LoopInv (s.setTask i d) := by
  have hkeep : ∀ j e, s.tasks j = some e → ∃ e', (s.setTask i d).tasks j = some e' ∧
      e'.callId = e.callId ∧ (e.aborted = true → e'.aborted = true) := by
    intro j e he
    by_cases hj : j = i
    · subst hj
      rw [hi] at he
      cases Option.some.inj he
      exact ⟨d, setTask_self s j d, hid, haborted⟩
    · exact ⟨e, (if_neg hj).trans he, rfl, id⟩
  unfold LoopInv at h ⊢
  change match s.phase with
    | .inserting callId k => ∃ c, (s.setTask i d).tasks k = some c ∧ c.callId = callId
    | .cancelling callId => callId ∈ s.requested ∧ callId ∈ s.cancelled
    | .answering callId =>
      ∃ k c, (s.setTask i d).tasks k = some c ∧ c.callId = callId ∧ c.aborted = true
    | _ => True
  cases hphase : s.phase with
  | inserting callId k =>
    rw [hphase] at h
    obtain ⟨e, he, hcall⟩ := h
    obtain ⟨e', he', hcall', -⟩ := hkeep k e he
    exact ⟨e', he', hcall'.trans hcall⟩
  | answering callId =>
    rw [hphase] at h
    obtain ⟨k, e, he, hcall, hab⟩ := h
    obtain ⟨e', he', hcall', hab'⟩ := hkeep k e he
    exact ⟨k, e', he', hcall'.trans hcall, hab' hab⟩
  | cancelling callId =>
    rw [hphase] at h
    exact h
  | reading => trivial
  | ended => trivial

/-- A task goes on without answering; its handle may be taken out once it has answered. -/
theorem Inv.goOn (h : Inv s) (hi : s.tasks i = some c) (hid : d.callId = c.callId)
    (haborted : d.aborted = c.aborted)
    (hanswered : c.aborted = false → d.hasAnswered = c.hasAnswered) : Inv (s.setTask i d) := by
  refine ⟨h.spawned.setTask hi hid, h.loop.setTask hi hid (fun hab => haborted.trans hab),
    fun j e he => ?_, h.silent⟩
  rcases tasks_setTask he with ⟨rfl, rfl⟩ | ⟨hj, he⟩
  · have htask := h.task j c hi
    refine ⟨hid ▸ htask.requested, fun hab hans => ?_, fun hab => ?_, ?_⟩
    · rw [hid]
      exact htask.filed (haborted ▸ hab) ((hanswered (haborted ▸ hab)) ▸ hans)
    · rw [hid]
      exact htask.cancelled (haborted ▸ hab)
    · have hdue : due s.phase e = due s.phase c := by
        unfold due
        rw [hid, haborted]
        cases hab : c.aborted with
        | true => rfl
        | false => rw [hanswered hab]
      calc (s.setTask j e).answersTo e.callId = s.answersTo c.callId := congrArg s.answersTo hid
        _ = due s.phase c := htask.answers
        _ = due s.phase e := hdue.symm
  · have htask := h.task j e he
    exact ⟨htask.requested, htask.filed, htask.cancelled, htask.answers⟩

/-- The map gives up the handle of a task that has answered. -/
theorem Inv.unfile (h : Inv s) (hi : s.tasks i = some c) (hanswered : c.hasAnswered = true) :
    Inv { s with inFlight := s.inFlight.erase c.callId } := by
  refine ⟨⟨h.spawned.distinct, h.spawned.spawned⟩, h.loop, fun j d hd => ?_, h.silent⟩
  have htask := h.task j d hd
  refine ⟨htask.requested, fun hab hans => ?_, htask.cancelled, htask.answers⟩
  have hne : d.callId ≠ c.callId := by
    intro hid
    have hji := h.spawned.distinct _ _ _ _ hd hi hid
    subst hji
    rw [hi] at hd
    cases Option.some.inj hd
    rw [hanswered] at hans
    contradiction
  exact (htask.filed hab hans).imp_right (fun hl => (AList.lookup_erase_ne hne).trans hl)

theorem inv_insert {task : ℕ} (h : Inv s) (hphase : s.phase = .inserting callId task) :
    Inv { s with
      phase := .reading
      inFlight := s.inFlight.insert callId task } := by
  refine ⟨⟨h.spawned.distinct, h.spawned.spawned⟩, trivial, fun j d hd => ?_, h.silent⟩
  have htask := h.task j d hd
  refine ⟨htask.requested, fun hab hans => Or.inr ?_, fun hab => ⟨(htask.cancelled hab).1, nofun⟩,
    htask.answers.trans (due_congr (hphase ▸ nofun) nofun)⟩
  · have hloop := h.loop
    unfold LoopInv at hloop
    rw [hphase] at hloop
    obtain ⟨c, hc, hcall⟩ := hloop
    by_cases hid : d.callId = callId
    · have hj := h.spawned.distinct _ _ _ _ hd hc (hid.trans hcall.symm)
      rw [hid, hj]
      exact AList.lookup_insert _
    · refine (AList.lookup_insert_ne hid).trans ?_
      refine (htask.filed hab hans).resolve_left (fun hins => hid ?_)
      rw [hphase] at hins
      exact (LoopPhase.inserting.inj hins).1.symm

/-- The loop takes up a cancel of a call that was not cancelled before. -/
theorem inv_cancelCall (h : Inv s) (hphase : s.phase = .reading) (hreq : callId ∈ s.requested)
    (hnew : callId ∉ s.cancelled) :
    Inv { s with
      phase := .cancelling callId
      cancelled := s.cancelled ++ [callId] } := by
  refine ⟨⟨h.spawned.distinct, h.spawned.spawned⟩, ⟨hreq, by simp⟩, fun j d hd => ?_, h.silent⟩
  have htask := h.task j d hd
  refine ⟨htask.requested, fun hab hans => Or.inr ?_, fun hab => ?_,
    htask.answers.trans (due_congr (hphase ▸ nofun) nofun)⟩
  · refine (htask.filed hab hans).resolve_left (fun hins => ?_)
    rw [hphase] at hins
    contradiction
  · have hmem := (htask.cancelled hab).1
    refine ⟨List.mem_append_left _ hmem, fun heq => hnew ?_⟩
    cases LoopPhase.cancelling.inj heq
    exact hmem

/-- A tool call with a new id spawns its task. -/
theorem inv_toolCall {task : ℕ} {call : Value} (h : Inv s) (hphase : s.phase = .reading)
    (hfree : s.tasks task = none) (hnew : callId ∉ s.requested) :
    Inv { s.setTask task ⟨callId, call, .running, false⟩ with
      phase := .inserting callId task
      requested := s.requested ++ [callId] } := by
  have hother : ∀ j d, s.tasks j = some d → d.callId ≠ callId ∧ j ≠ task := by
    intro j d hd
    refine ⟨fun hid => hnew (hid ▸ (h.task j d hd).requested), fun hj => ?_⟩
    rw [hj, hfree] at hd
    contradiction
  refine ⟨⟨?_, ?_⟩, ⟨_, setTask_self s task _, rfl⟩, fun j d hd => ?_, fun id hid => ?_⟩
  · intro j k e f he hf hef
    rcases tasks_setTask he with ⟨rfl, rfl⟩ | ⟨-, he'⟩ <;>
      rcases tasks_setTask hf with ⟨rfl, rfl⟩ | ⟨-, hf'⟩
    · rfl
    · exact absurd hef.symm (hother _ _ hf').1
    · exact absurd hef (hother _ _ he').1
    · exact h.spawned.distinct _ _ _ _ he' hf' hef
  · intro id hid
    rcases List.mem_append.mp hid with hid | hid
    · obtain ⟨j, d, hd, hcall⟩ := h.spawned.spawned id hid
      exact ⟨j, d, (if_neg (hother j d hd).2).trans hd, hcall⟩
    · exact ⟨task, _, setTask_self s task _, (List.mem_singleton.mp hid).symm⟩
  · rcases tasks_setTask hd with ⟨rfl, rfl⟩ | ⟨hj, hd⟩
    · exact ⟨List.mem_append_right _ (List.mem_singleton.mpr rfl), fun _ _ => Or.inl rfl,
        nofun, h.silent callId hnew⟩
    · have htask := h.task j d hd
      refine ⟨List.mem_append_left _ htask.requested, fun hab hans => Or.inr ?_,
        fun hab => ⟨(htask.cancelled hab).1, nofun⟩,
        htask.answers.trans (due_congr (hphase ▸ nofun) nofun)⟩
      refine (htask.filed hab hans).resolve_left (fun hins => ?_)
      rw [hphase] at hins
      contradiction
  · exact h.silent id (fun hmem => hid (List.mem_append_left _ hmem))

/-- A task that was not aborted answers. -/
theorem inv_answer {call : Value} {result : ToolResult} (h : Inv s)
    (hi : s.tasks i = some ⟨callId, call, .answering result, false⟩) :
    Inv { s.setTask i ⟨callId, call, .removing, false⟩ with
      responses := s.responses ++ [(callId, result)] } := by
  have hcount : ∀ id, answersTo { s.setTask i ⟨callId, call, .removing, false⟩ with
      responses := s.responses ++ [(callId, result)] } id =
      s.answersTo id + if callId = id then 1 else 0 :=
    fun id => answersTo_append s callId result s.phase
  have hspawned := h.spawned.setTask (d := ⟨callId, call, .removing, false⟩) hi rfl
  have hloop := h.loop.setTask (d := ⟨callId, call, .removing, false⟩) hi rfl id
  refine ⟨⟨hspawned.distinct, hspawned.spawned⟩, hloop, fun j d hd => ?_, fun id hid => ?_⟩
  · rcases tasks_setTask hd with ⟨rfl, rfl⟩ | ⟨hj, hd⟩
    · have htask := h.task j _ hi
      refine ⟨htask.requested, fun _ hans => by contradiction, nofun, ?_⟩
      rw [hcount, htask.answers]
      simp [due, CallTask.hasAnswered]
    · have htask := h.task j d hd
      refine ⟨htask.requested, htask.filed, htask.cancelled, ?_⟩
      have hne : callId ≠ d.callId := by
        intro hid
        exact hj (h.spawned.distinct _ _ _ _ hd hi hid.symm)
      rw [hcount, if_neg hne, Nat.add_zero]
      exact htask.answers
  · rw [hcount, h.silent id hid, if_neg]
    rintro rfl
    exact hid (h.task i _ hi).requested

/-- A cancel that comes before the answer finds the handle of the task, which it aborts. -/
theorem inv_takeHandle (h : Inv s) (hphase : s.phase = .cancelling callId)
    (hsilent : s.answersTo callId = 0) :
    Inv { s.abortHandle (s.inFlight.lookup callId) with
      phase := .answering callId
      inFlight := s.inFlight.erase callId } := by
  have hloop := h.loop
  unfold LoopInv at hloop
  rw [hphase] at hloop
  obtain ⟨hreq, hcancelled⟩ := hloop
  obtain ⟨i, c, hi, rfl⟩ := h.spawned.spawned callId hreq
  have htask := h.task i c hi
  have hab : c.aborted = false := by
    rw [Bool.eq_false_iff]
    exact fun hab => (htask.cancelled hab).2 hphase
  have hans : c.hasAnswered = false := by
    have hcount := htask.answers
    rw [hsilent, due, hab] at hcount
    cases hans : c.hasAnswered with
    | false => rfl
    | true =>
      rw [hans] at hcount
      contradiction
  have hfiled : s.inFlight.lookup c.callId = some i := by
    refine (htask.filed hab hans).resolve_left (fun hins => ?_)
    rw [hphase] at hins
    contradiction
  rw [hfiled, abortHandle, abort_eq hi]
  have hspawned := h.spawned.setTask (d := { c with aborted := true }) hi rfl
  refine ⟨⟨hspawned.distinct, hspawned.spawned⟩, ⟨i, _, setTask_self s i _, rfl, rfl⟩,
    fun j d hd => ?_, h.silent⟩
  rcases tasks_setTask hd with ⟨rfl, rfl⟩ | ⟨hj, hd⟩
  · refine ⟨hreq, nofun, fun _ => ⟨hcancelled, nofun⟩, ?_⟩
    exact hsilent.trans (if_pos rfl).symm
  · have hother := h.task j d hd
    have hne : d.callId ≠ c.callId := fun hid => hj (h.spawned.distinct _ _ _ _ hd hi hid)
    refine ⟨hother.requested, fun hab hans => Or.inr ?_,
      fun hab => ⟨(hother.cancelled hab).1, nofun⟩,
      hother.answers.trans (due_congr (hphase ▸ nofun) (fun heq => ?_))⟩
    · refine (AList.lookup_erase_ne hne).trans ?_
      refine (hother.filed hab hans).resolve_left (fun hins => ?_)
      rw [hphase] at hins
      contradiction
    · exact hne (LoopPhase.answering.inj heq).symm

/-- The loop answers in place of the task it aborted. -/
theorem inv_answerCancel (h : Inv s) (hphase : s.phase = .answering callId) :
    Inv { s with
      phase := .reading
      responses := s.responses ++ [(callId, .err "cancelled")] } := by
  have hloop := h.loop
  unfold LoopInv at hloop
  rw [hphase] at hloop
  obtain ⟨i, c, hi, rfl, hab⟩ := hloop
  refine ⟨⟨h.spawned.distinct, h.spawned.spawned⟩, trivial, fun j d hd => ?_, fun id hid => ?_⟩
  · have htask := h.task j d hd
    refine ⟨htask.requested, fun hab hans => Or.inr ?_,
      fun hab => ⟨(htask.cancelled hab).1, nofun⟩, ?_⟩
    · refine (htask.filed hab hans).resolve_left (fun hins => ?_)
      rw [hphase] at hins
      contradiction
    · rw [answersTo_append, htask.answers]
      by_cases hid : c.callId = d.callId
      · have hji := h.spawned.distinct _ _ _ _ hd hi hid.symm
        subst hji
        rw [hi] at hd
        cases Option.some.inj hd
        simp [due, hab, hphase]
      · simp [due, hphase, hid]
  · rw [answersTo_append, h.silent id hid, if_neg]
    rintro rfl
    exact hid (h.task i c hi).requested

theorem inv_receive {inbound : RuntimeInboundMessage} {task : ℕ} (h : Inv s)
    (hok : s.asked (.receive (.text (some inbound)) task) = true) (hphase : s.phase = .reading)
    (hfree : s.tasks task = none) : Inv (s.receive task inbound) := by
  cases inbound with
  | toolCall request =>
    have hnew : request.callId ∉ s.requested := by simpa [asked] using hok
    exact inv_toolCall h hphase hfree hnew
  | cancelCall callId =>
    have hboth : callId ∈ s.requested ∧ callId ∉ s.cancelled := by simpa [asked] using hok
    exact inv_cancelCall h hphase hboth.1 hboth.2

theorem inv_step {l : LoopLabel} (h : Inv s) (hok : InTime s l) (hstep : next s l = some t) :
    Inv t := by
  cases l with
  | receive item task =>
    simp only [next] at hstep
    split at hstep
    · rename_i hphase hfree
      split at hstep
      · cases Option.some.inj hstep
        exact inv_receive h hok.1 hphase hfree
      · cases Option.some.inj hstep
        split
        · refine ⟨⟨h.spawned.distinct, h.spawned.spawned⟩, trivial, fun j d hd => ?_, h.silent⟩
          have htask := h.task j d hd
          refine ⟨htask.requested, fun hab hans => Or.inr ?_,
            fun hab => ⟨(htask.cancelled hab).1, nofun⟩,
            htask.answers.trans (due_congr (hphase ▸ nofun) nofun)⟩
          refine (htask.filed hab hans).resolve_left (fun hins => ?_)
          rw [hphase] at hins
          contradiction
        · exact h
    · contradiction
  | insert =>
    simp only [next] at hstep
    split at hstep
    · cases Option.some.inj hstep
      exact inv_insert h ‹_›
    · contradiction
  | takeHandle =>
    simp only [next] at hstep
    split at hstep
    · rename_i callId hphase
      cases Option.some.inj hstep
      refine inv_takeHandle h hphase ?_
      simpa [inTime, hphase] using hok.2
    · contradiction
  | answerCancel =>
    simp only [next] at hstep
    split at hstep
    · cases Option.some.inj hstep
      exact inv_answerCancel h ‹_›
    · contradiction
  | finish i result =>
    simp only [next] at hstep
    split at hstep
    · rename_i callId call aborted hi
      cases Option.some.inj hstep
      exact h.goOn hi rfl rfl (fun _ => rfl)
    · contradiction
  | answer i =>
    simp only [next] at hstep
    split at hstep
    · rename_i callId call result aborted hi
      have hab : aborted = false := by simpa [inTime, hi] using hok.2
      subst hab
      cases Option.some.inj hstep
      exact inv_answer h hi
    · contradiction
  | remove i =>
    simp only [next] at hstep
    split at hstep
    · rename_i callId call aborted hi
      cases Option.some.inj hstep
      have hended := h.goOn (d := ⟨callId, call, .ended, aborted⟩) hi rfl rfl (fun _ => rfl)
      exact hended.unfile (setTask_self s i _) rfl
    · contradiction
  | drop i =>
    simp only [next] at hstep
    split at hstep
    · rename_i c hi
      split at hstep
      · cases Option.some.inj hstep
        refine h.goOn hi rfl rfl (fun hab => ?_)
        have hanswered : c.aborted = true ∨ c.hasAnswered = true := by
          simpa [inTime, hi] using hok.2
        exact (hanswered.resolve_left (by simp [hab])).symm
      · contradiction
    · contradiction

theorem inv_init : Inv init :=
  ⟨⟨nofun, nofun⟩, trivial, nofun, fun _ _ => rfl⟩

theorem inv_run (hrun : Machine.Run next InTime init s) : Inv s :=
  hrun.invariant Inv (fun _ _ _ h hok hstep => inv_step h hok hstep) inv_init

theorem due_le_one (phase : LoopPhase) (c : CallTask) : due phase c ≤ 1 := by
  unfold due
  split
  · split <;> omega
  · split <;> omega

/-- If every cancel of a call takes effect before the call was answered, no aborted task
answers, and no other task is dropped before its answer, no call id is answered twice, and
each requested one is answered once when all is done. -/
theorem answered_once (s : RunLoop) (hrun : Machine.Run next InTime init s) :
    (∀ callId, s.answersTo callId ≤ 1) ∧
      (s.Settled → ∀ callId ∈ s.requested, s.answersTo callId = 1) := by
  have hinv := inv_run hrun
  refine ⟨fun callId => ?_, fun hsettled callId hreq => ?_⟩
  · by_cases hreq : callId ∈ s.requested
    · obtain ⟨i, c, hi, rfl⟩ := hinv.spawned.spawned callId hreq
      rw [(hinv.task i c hi).answers]
      exact due_le_one s.phase c
    · rw [hinv.silent callId hreq]
      exact Nat.zero_le 1
  · obtain ⟨i, c, hi, rfl⟩ := hinv.spawned.spawned callId hreq
    have hended : c.hasAnswered = true := by
      rw [CallTask.hasAnswered, hsettled.tasks i c hi]
    have hphase : s.phase ≠ .answering c.callId := by
      rcases hsettled.loop with hloop | hloop <;> rw [hloop] <;> nofun
    rw [(hinv.task i c hi).answers, due, if_neg hphase, if_pos hended, ite_self]

def cancelledInTime : List LoopLabel :=
  [.receive (.text (some (.toolCall ⟨"a", .null⟩))) 0, .insert,
    .receive (.text (some (.cancelCall "a"))) 1, .takeHandle, .answerCancel, .drop 0]

theorem run_cancelledInTime :
    Machine.Run next InTime init (Machine.final next InTime init cancelledInTime) :=
  Machine.run_final cancelledInTime (by decide +kernel)

theorem cancelledInTime_once :
    (Machine.final next InTime init cancelledInTime).answersTo "a" ≤ 1 :=
  (answered_once _ run_cancelledInTime).1 "a"

def cancelledLate : List LoopLabel :=
  [.receive (.text (some (.toolCall ⟨"a", .null⟩))) 0, .insert, .finish 0 (.err "no such tool"),
    .answer 0, .remove 0, .receive (.text (some (.cancelCall "a"))) 1, .takeHandle, .answerCancel]

theorem run_cancelledLate :
    Machine.Run next Asked init (Machine.final next Asked init cancelledLate) :=
  Machine.run_final cancelledLate (by decide +kernel)

theorem cancelledLate_twice :
    ¬ ∀ s : RunLoop, Machine.Run next Asked init s →
      (∀ callId, s.answersTo callId ≤ 1) ∧
        (s.Settled → ∀ callId ∈ s.requested, s.answersTo callId = 1) := by
  intro h
  have hle := (h _ run_cancelledLate).1 "a"
  have htwo : (Machine.final next Asked init cancelledLate).answersTo "a" = 2 := by
    decide +kernel
  rw [htwo] at hle
  contradiction

end October.AnsweredCalls
