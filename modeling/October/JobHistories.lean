import October.ForkedConversation
import October.TailedLogs
import October.TransitionPaths

/-!
The rendered history of a job whose workflow and agents run over one file journal.
The steps of the system are taken together with the journal calls they make, each of which
may fail at any of its I/O calls, so at every point of a run the files hold the events of
the workflow and of each session. The history shows all of them, each session in one
place, and what it has shown it goes on to show. A persist that fails must leave less than
its line for that, or the history shows what no actor holds, and nothing may be written
behind a part of a line, or the history ends there.
-/
namespace October.JobHistories

open WalkedPaths FailedPersists TailedLogs RenderedHistory WorkflowInvariants RecoveryRefinesLive
  TransitionPaths ContinuedTask ForkedConversation

/-- A step of a job. A persist that fails, or is cut short by a crash, gets as far as
`fault`; no other step looks at it. -/
structure Act where
  label : Label
  fault : Option (IoStep × String)

section Calls

variable {c : Codec} (d : JobSerde) (jobId : String) (cfg : Config)

/-- Save the snapshot of a state, then compact the log behind it. The file journal refuses
neither. -/
def snapshotCalls (pid : PersistenceId) (state : AgentState) (seqNr : ℕ) (ok : Bool)
    (f : FileJournal c) : Option (FileJournal c) :=
  match d.agentState.toVec state with
  | .error _ => if ok then none else some f
  | .ok bytes =>
    let saved := Journal.saveSnapshot pid bytes seqNr f
    if ok then some (Journal.deleteEventsBefore pid seqNr saved.2).2 else none

def callsOf (s : System) (f : FileJournal c) (act : Act) : Option (FileJournal c) :=
  match act.label with
  | .workflowPersist ok =>
    match s.workflow with
    | none => some f
    | some wf =>
      persistCall d.workflowActor c (JobSerde.workflowPid jobId) wf.phase.events ok act.fault f
  | .agentPersist ref ok =>
    match s.agents[ref]? with
    | none => some f
    | some p =>
      let pid := d.agentPid p.actor.sessionId
      match p.phase with
      | .performing .snapshot =>
        snapshotCalls d pid p.state (s.sessions p.actor.sessionId).events.length ok f
      | phase => persistCall d.agentActor c pid phase.events ok act.fault f
  | .workflowHandle =>
    match s.workflow with
    | none => some f
    | some wf =>
      match wf.mailbox with
      | [] => some f
      | command :: _ =>
        match (WorkflowActor.handleCommand cfg.workflow (s.fresh cfg command) wf.child wf.state
          command).copied with
        | none => some f
        | some (source, target) =>
          some (Journal.copySnapshot (d.agentPid source) (d.agentPid target) f).2
  | _ => some f

def journaledNext (s : System × FileJournal c) (act : Act) : Option (System × FileJournal c) :=
  (next cfg s.1 act.label).bind (fun t =>
    (callsOf d jobId cfg s.1 s.2 act).map (fun f => (t, f)))

def batchOf (s : System) : Label → Option (PersistenceId × List Bytes)
  | .workflowPersist _ =>
    s.workflow.bind (fun wf => (encodeAll d.workflowActor wf.phase.events).toOption.map
      (fun encoded => (JobSerde.workflowPid jobId, encoded)))
  | .agentPersist ref _ =>
    s.agents[ref]?.bind (fun p => (encodeAll d.agentActor p.phase.events).toOption.map
      (fun encoded => (d.agentPid p.actor.sessionId, encoded)))
  | _ => none

/-- Nothing is written behind a part of a line, and a persist that fails leaves less than
its line. -/
def Tidy (s : System × FileJournal c) (act : Act) : Prop :=
  (batchOf d jobId s.1 act.label).all (fun batch =>
    tidy c ⟨batch.2, act.fault⟩ ((s.2.file batch.1).getD [])) = true

instance (s : System × FileJournal c) (act : Act) : Decidable (Tidy d jobId s act) :=
  inferInstanceAs (Decidable (_ = true))

theorem journaledNext_eq {s t : System × FileJournal c} {act : Act}
    (h : journaledNext d jobId cfg s act = some t) :
    next cfg s.1 act.label = some t.1 ∧ callsOf d jobId cfg s.1 s.2 act = some t.2 := by
  obtain ⟨u, hu, h⟩ := Option.bind_eq_some_iff.mp h
  obtain ⟨f, hf, rfl⟩ := Option.map_eq_some_iff.mp h
  exact ⟨hu, hf⟩

end Calls

/-- Ids as the supervisor and the workflow draw them: one name each, and two sessions have
different ones. -/
structure Named (d : JobSerde) (jobId : String) : Prop where
  job : Plain jobId
  session : ∀ sessionId, Plain (d.sessionText sessionId)
  distinct : Function.Injective d.sessionText

def transcript (s : System) : List String :=
  s.workflowLog.flatMap (eventLines (fun sessionId => sessionLines (s.sessions sessionId).state))

def startedSessions (log : List WorkflowDomainEvent) : List Uuid := (starts log).map Prod.snd

section Distinct

variable {cfg : Config} {s t : System}

theorem startedSessions_append (log events : List WorkflowDomainEvent) :
    startedSessions (log ++ events) = startedSessions log ++ startedSessions events := by
  simp [startedSessions, starts]

theorem mem_startedSessions {log : List WorkflowDomainEvent} {sessionId : Uuid}
    (h : sessionId ∈ startedSessions log) : ∃ e ∈ log, entersSession e = some sessionId := by
  obtain ⟨⟨agentName, sid⟩, hstart, rfl⟩ := List.mem_map.mp h
  obtain ⟨e, he, hstarted⟩ := List.mem_filterMap.mp hstart
  refine ⟨e, he, ?_⟩
  cases e with
  | agentStarted _ _ _ =>
    cases Option.some.inj hstarted
    rfl
  | _ => contradiction

/-- A handler starts one agent at most, on the session it drew. -/
theorem handled_starts {wf : Workflow} {fresh : Fresh} {child : Option ActorRef}
    {state : WorkflowState} {command : WorkflowCommand} {reply : Reply}
    (h : WorkflowActor.Handled wf fresh child state command reply) :
    startedSessions reply.effect.events = [] ∨
      startedSessions reply.effect.events = [fresh.sessionId] := by
  cases h with
  | started _ _ _ | transitioned _ _ _ _ _ _ _ _ | forked _ _ _ _ _ _ _ _ => exact Or.inr rfl
  | _ => exact Or.inl rfl

theorem distinct_step (hs : Base s) (h : (startedSessions (record s)).Nodup) {l : Label}
    (hstep : Step cfg s l t) : (startedSessions (record t)).Nodup := by
  have hframe := step_frame hstep
  have hlog : (startedSessions s.workflowLog).Nodup := by
    rw [record, startedSessions_append] at h
    exact h.of_append_left
  cases hstep with
  | launched kickoff _ _ => simpa [record] using hlog
  | recovered wf spawned _ _ _ =>
    cases spawned <;> simpa [record, System.spawns, System.spawnAgent] using hlog
  | handled wf command rest reply channel _ _ _ hreply =>
    have hrecord : record (s.answered cfg wf rest reply channel) =
        s.workflowLog ++ reply.effect.events := by
      simp [record, System.answered]
    rw [hrecord, startedSessions_append]
    rcases handled_starts (hreply ▸ WorkflowActor.handleCommand_handled command) with hnone | hone
    · rwa [hnone, List.append_nil]
    · -- every session recorded so far was drawn earlier
      rw [hone]
      refine List.nodup_append.mpr ⟨hlog, List.nodup_singleton _, ?_⟩
      intro a ha b hb hab
      obtain rfl : b = s.nextSession := List.mem_singleton.mp hb
      obtain ⟨e, he, henters⟩ := mem_startedSessions (hab ▸ ha)
      exact Nat.lt_irrefl _ (hs.recorded e (List.mem_append_left _ he) _ henters)
  | persisted wf effect events ok hwf hphase hevents =>
    cases ok with
    | false =>
      simp only [Bool.false_eq_true, if_false] at hevents
      simpa [record, hevents] using hlog
    | true => simpa [record, hwf, hphase, hevents] using h
  | crashed => simpa [record, System.crash] using hlog
  | _ =>
    rw [record_frame (hframe rfl)]
    exact h

end Distinct

section Files

variable (c : Codec) (d : JobSerde) (jobId : String) {cfg : Config}

structure Mirrors (s : System × FileJournal c) : Prop where
  workflow : Holds d.workflowActor c (JobSerde.workflowPid jobId) s.2 s.1.workflowLog
  sessions : ∀ sessionId, (s.1.sessions sessionId).base = AgentActor.initialState ∧
    Holds d.agentActor c (d.agentPid sessionId) s.2 (s.1.sessions sessionId).events

def fresh (root : List FileName) : System × FileJournal c := (System.init, FileJournal.new root)

variable {c d jobId}

theorem plain_workflow : Plain "workflow" := ⟨by decide, by decide, by decide, by decide⟩

theorem plain_agent : Plain "agent" := ⟨by decide, by decide, by decide, by decide⟩

theorem Named.apart (h : Named d jobId) (root : List FileName) :
    Apart root { pid | pid = JobSerde.workflowPid jobId ∨
      ∃ sessionId, pid = d.agentPid sessionId } := by
  refine apart_plain root ?_
  rintro pid (rfl | ⟨sessionId, rfl⟩)
  · exact ⟨plain_workflow, h.job⟩
  · exact ⟨plain_agent, h.session sessionId⟩

theorem Named.workflow_ne (h : Named d jobId) (root : List FileName) (sessionId : Uuid) :
    journalPath root (d.agentPid sessionId) ≠ journalPath root (JobSerde.workflowPid jobId) :=
  (h.apart root).path_ne (Or.inl rfl) (Or.inr ⟨sessionId, rfl⟩)
    (by simp [JobSerde.agentPid, JobSerde.workflowPid])

theorem Named.agent_ne (h : Named d jobId) (root : List FileName) {sessionId other : Uuid}
    (hne : other ≠ sessionId) :
    journalPath root (d.agentPid other) ≠ journalPath root (d.agentPid sessionId) := by
  refine (h.apart root).path_ne (Or.inr ⟨sessionId, rfl⟩) (Or.inr ⟨other, rfl⟩) ?_
  intro heq
  exact hne (h.distinct (PersistenceId.mk.inj heq).2)

/-- Snapshots and compaction leave the files alone. -/
theorem snapshotCalls_file {pid : PersistenceId} {state : AgentState} {seqNr : ℕ} {ok : Bool}
    {f g : FileJournal c} (h : snapshotCalls d pid state seqNr ok f = some g) : g = f := by
  unfold snapshotCalls at h
  cases htext : d.agentState.toVec state <;> cases ok <;> simp [htext] at h <;> exact h.symm

/-- Copying a snapshot leaves the files alone. -/
theorem callsOf_handle (s : System) (f g : FileJournal c) (fault : Option (IoStep × String))
    (h : callsOf d jobId cfg s f ⟨.workflowHandle, fault⟩ = some g) : g = f := by
  simp only [callsOf] at h
  split at h
  · exact (Option.some.inj h).symm
  · split at h
    · exact (Option.some.inj h).symm
    · split at h <;> exact (Option.some.inj h).symm

theorem copies_file (hfile : cfg.backend = .file) (s : System)
    (copied : Option (Uuid × Uuid)) : (s.copies cfg copied).sessions = s.sessions := by
  cases copied with
  | none => rfl
  | some pair => simp [System.copies, copySnapshot, hfile]

/-- Of a journal call of an agent the file journal keeps the events. -/
theorem journalCall_file (ok : Bool) (effect : CommandEffect AgentDomainEvent)
    (state : AgentState) (log : SessionLog) :
    (System.journalCall .file ok effect state log).base = log.base ∧
      (System.journalCall .file ok effect state log).events =
        log.events ++ if ok then effect.events else [] := by
  cases ok with
  | false => exact ⟨rfl, (List.append_nil _).symm⟩
  | true =>
    cases effect with
    | snapshot => exact ⟨rfl, (List.append_nil _).symm⟩
    | _ => exact ⟨rfl, rfl⟩

/-- A persist of the workflow reaches its own file only. -/
theorem Mirrors.persisted (hnames : Named d jobId) {s t : System} {f g : FileJournal c}
    (h : Mirrors c d jobId (s, f)) {wf : WorkflowProc} {ok : Bool}
    {fault : Option (IoStep × String)} {effect : CommandEffect WorkflowDomainEvent}
    (hwf : s.workflow = some wf) (hphase : wf.phase = .performing effect)
    (hcall : callsOf d jobId cfg s f ⟨.workflowPersist ok, fault⟩ = some g)
    (htidy : Tidy d jobId (s, f) ⟨.workflowPersist ok, fault⟩)
    (hlog : t.workflowLog = s.workflowLog ++ if ok then effect.events else [])
    (hsessions : t.sessions = s.sessions) : Mirrors c d jobId (t, g) := by
  have hevents : wf.phase.events = effect.events := by rw [hphase, Phase.events_performing]
  simp only [callsOf, hwf, hevents] at hcall
  obtain ⟨-, hother⟩ := persistCall_frame hcall
  have hown := persistCall_holds hcall h.workflow (fun encoded hencoded => by
    simpa [Tidy, batchOf, hwf, hevents, hencoded, Except.toOption] using htidy)
  constructor
  · rw [hlog]
    exact hown
  · intro sessionId
    obtain ⟨hbase, hstored⟩ := h.sessions sessionId
    rw [hsessions]
    exact ⟨hbase, hstored.congr (hother _ (hnames.workflow_ne f.root sessionId))⟩

/-- A journal call of an agent reaches the file of its session only. -/
theorem Mirrors.called (hnames : Named d jobId) (hfile : cfg.backend = .file)
    {s t : System} {f g : FileJournal c} (h : Mirrors c d jobId (s, f)) {ref : ActorRef}
    {p : AgentProc} {ok : Bool} {fault : Option (IoStep × String)}
    {effect : CommandEffect AgentDomainEvent}
    (hp : s.agents[ref]? = some p) (hphase : p.phase = .performing effect)
    (hcall : callsOf d jobId cfg s f ⟨.agentPersist ref ok, fault⟩ = some g)
    (htidy : Tidy d jobId (s, f) ⟨.agentPersist ref ok, fault⟩)
    (hlog : t.workflowLog = s.workflowLog)
    (hsessions : t.sessions = Function.update s.sessions p.actor.sessionId
      (System.journalCall cfg.backend ok effect p.state (s.sessions p.actor.sessionId))) :
    Mirrors c d jobId (t, g) := by
  obtain ⟨hbase, hstored⟩ := h.sessions p.actor.sessionId
  obtain ⟨hcallBase, hcallEvents⟩ :=
    journalCall_file ok effect p.state (s.sessions p.actor.sessionId)
  have hown : Holds d.agentActor c (d.agentPid p.actor.sessionId) g
        ((s.sessions p.actor.sessionId).events ++ if ok then effect.events else []) ∧
      ∀ other, journalPath f.root other ≠ journalPath f.root (d.agentPid p.actor.sessionId) →
        g.file other = f.file other := by
    simp only [callsOf, hp, hphase] at hcall
    split at hcall
    · rename_i hsnapshot
      obtain rfl : effect = .snapshot := by simpa using hsnapshot
      obtain rfl := snapshotCalls_file hcall
      refine ⟨?_, fun _ _ => rfl⟩
      cases ok <;> simpa using hstored
    · rw [Phase.events_performing] at hcall
      refine ⟨persistCall_holds hcall hstored (fun encoded hencoded => ?_),
        (persistCall_frame hcall).2⟩
      simpa [Tidy, batchOf, hp, hphase, hencoded, Except.toOption] using htidy
  constructor
  · rw [hlog]
    exact h.workflow.congr (hown.2 _ (hnames.workflow_ne f.root _).symm)
  · intro sessionId
    rw [hsessions, hfile]
    by_cases heq : sessionId = p.actor.sessionId
    · subst heq
      rw [Function.update_self, hcallBase, hcallEvents]
      exact ⟨hbase, hown.1⟩
    · rw [Function.update_of_ne heq]
      obtain ⟨hbase', hstored'⟩ := h.sessions sessionId
      exact ⟨hbase', hstored'.congr (hown.2 _ (hnames.agent_ne f.root heq))⟩

theorem Mirrors.step (hnames : Named d jobId) (hfile : cfg.backend = .file)
    {s t : System × FileJournal c} (h : Mirrors c d jobId s) {act : Act}
    (htidy : Tidy d jobId s act) (hnext : journaledNext d jobId cfg s act = some t) :
    Mirrors c d jobId t := by
  obtain ⟨s, f⟩ := s
  obtain ⟨t, g⟩ := t
  obtain ⟨label, fault⟩ := act
  obtain ⟨hstep, hcall⟩ := journaledNext_eq d jobId cfg hnext
  replace hstep : Step cfg s label t := next_step hstep
  change callsOf d jobId cfg s f ⟨label, fault⟩ = some g at hcall
  have hsame : ∀ {u : System}, u.workflowLog = s.workflowLog → u.sessions = s.sessions →
      Mirrors c d jobId (u, f) := by
    intro u hlog hsessions
    exact ⟨hlog ▸ h.workflow, hsessions ▸ h.sessions⟩
  cases hstep with
  | handled wf command rest reply channel _ _ _ _ =>
    rw [callsOf_handle s f g fault hcall]
    exact hsame rfl (copies_file hfile s reply.copied)
  | recovered wf spawned _ _ _ =>
    obtain rfl := Option.some.inj hcall
    cases spawned <;> exact hsame rfl rfl
  | persisted wf effect events ok hwf hphase hevents =>
    subst hevents
    exact h.persisted hnames hwf hphase hcall htidy rfl rfl
  | agentCalled ref ok p effect events hp hphase hevents =>
    exact h.called hnames hfile hp hphase hcall htidy rfl rfl
  | _ =>
    obtain rfl := Option.some.inj hcall
    exact hsame rfl rfl

/-- The conversation shown for a session is the one its log folds to. -/
theorem Mirrors.conversation {s : System} {f : FileJournal c} (h : Mirrors c d jobId (s, f))
    (sessionId : Uuid) : agentSessionState d sessionId f = (s.sessions sessionId).state := by
  obtain ⟨hbase, hstored⟩ := h.sessions sessionId
  rw [agentSessionState_recovered d hstored.recovered, SessionLog.state, hbase]
  rfl

/-- The history rendered from files that mirror a system is its transcript. -/
theorem Mirrors.rendered {s : System} {f : FileJournal c} (h : Mirrors c d jobId (s, f)) :
    renderHistory d jobId f = (transcript s).map (fun text => ⟨jobId, text⟩) := by
  have hworkflow : workflowEvents d jobId f = s.workflowLog :=
    h.workflow.readable_replay
  have hsessions : ∀ sessionId, agentSessionLines d sessionId f =
      sessionLines (s.sessions sessionId).state := by
    intro sessionId
    rw [agentSessionLines, h.conversation]
  simp only [renderHistory, hworkflow, hsessions]
  rfl

theorem mirrors_fresh (root : List FileName) : Mirrors c d jobId (fresh c root) :=
  ⟨holds_nil rfl, fun _ => ⟨rfl, holds_nil rfl⟩⟩

/-- What every state of a run of the system and its files has. -/
theorem reachable_mirrors (hnames : Named d jobId) (hfile : cfg.backend = .file)
    (root : List FileName) {s : System × FileJournal c}
    (hrun : Machine.Run (journaledNext d jobId cfg) (Tidy d jobId) (fresh c root) s) :
    Mirrors c d jobId s ∧ Base s.1 ∧ Snapped s.1 ∧ (startedSessions (record s.1)).Nodup := by
  refine hrun.invariant (fun s => Mirrors c d jobId s ∧ Base s.1 ∧ Snapped s.1 ∧
    (startedSessions (record s.1)).Nodup) ?_ ?_
  · intro s act t h htidy hnext
    obtain ⟨hmirrors, hbase, hsnapped, hdistinct⟩ := h
    have hstep := next_step (journaledNext_eq d jobId cfg hnext).1
    exact ⟨hmirrors.step hnames hfile htidy hnext, hbase.step hstep, hsnapped.step hbase hstep,
      distinct_step hbase hdistinct hstep⟩
  · refine ⟨mirrors_fresh root, base_init, snapped_init, ?_⟩
    simp [fresh, record, System.init, startedSessions, starts]

/-- At every point of every tidy run of a job the rendered history is the transcript of its
journals: each event of the workflow in order, each agent started with its whole
conversation behind it, which no other place shows. An agent that is up has the
conversation that is shown. -/
theorem history_complete (c : Codec) (d : JobSerde) (jobId : String) (cfg : Config)
    (hnames : Named d jobId) (hfile : cfg.backend = .file) (root : List FileName)
    (s : System × FileJournal c)
    (hrun : Machine.Run (journaledNext d jobId cfg) (Tidy d jobId) (fresh c root) s) :
    renderHistory d jobId s.2 = (transcript s.1).map (fun text => ⟨jobId, text⟩) ∧
      (startedSessions s.1.workflowLog).Nodup ∧
      ∀ (ref : ActorRef) (p : AgentProc), s.1.agents[ref]? = some p →
        p.phase.isRecovering = false →
          agentSessionState d p.actor.sessionId s.2 = p.state := by
  obtain ⟨hmirrors, _, hsnapped, hdistinct⟩ := reachable_mirrors hnames hfile root hrun
  rw [record, startedSessions_append] at hdistinct
  refine ⟨hmirrors.rendered, hdistinct.of_append_left, fun ref p hp hphase => ?_⟩
  rw [hmirrors.conversation, hsnapped.live ref p hp hphase]

structure Grown (s t : System) : Prop where
  workflow : s.workflowLog <+: t.workflowLog
  sessions : ∀ sessionId,
    (s.sessions sessionId).state.messages <+: (t.sessions sessionId).state.messages

theorem Grown.refl (s : System) : Grown s s :=
  ⟨List.prefix_rfl, fun _ => List.prefix_rfl⟩

theorem Grown.trans {s t u : System} (h : Grown s t) (h' : Grown t u) : Grown s u :=
  ⟨h.workflow.trans h'.workflow, fun sessionId =>
    (h.sessions sessionId).trans (h'.sessions sessionId)⟩

theorem grown_step (hfile : cfg.backend = .file) {s t : System} {l : Label}
    (hstep : Step cfg s l t) : Grown s t := by
  have hsame : ∀ {u : System}, u.workflowLog = s.workflowLog → u.sessions = s.sessions →
      Grown s u := by
    intro u hlog hsessions
    exact ⟨hlog ▸ List.prefix_rfl, fun sessionId => hsessions ▸ List.prefix_rfl⟩
  cases hstep with
  | handled wf command rest reply channel _ _ _ _ =>
    exact hsame rfl (copies_file hfile s reply.copied)
  | recovered wf spawned _ _ _ => cases spawned <;> exact hsame rfl rfl
  | persisted wf effect events ok _ _ _ =>
    exact ⟨List.prefix_append _ _, fun _ => List.prefix_rfl⟩
  | agentCalled ref ok p effect events _ _ _ =>
    cases ok with
    | false => exact hsame rfl (Function.update_eq_self _ _)
    | true =>
      refine ⟨List.prefix_rfl, fun sessionId => ?_⟩
      by_cases heq : sessionId = p.actor.sessionId
      · subst heq
        obtain ⟨more, hmore⟩ :=
          foldl_messages effect.events (s.sessions p.actor.sessionId).state
        simp only [Function.update_self, journalCall_state, hmore]
        exact List.prefix_append _ _
      · simp only [Function.update_of_ne heq]
        exact List.prefix_rfl
  | _ => exact hsame rfl rfl

theorem eventLines_sublist {session session' : Uuid → List String}
    (h : ∀ sessionId, (session sessionId).Sublist (session' sessionId))
    (e : WorkflowDomainEvent) : (eventLines session e).Sublist (eventLines session' e) := by
  cases e with
  | agentStarted agentName sessionId input => exact (h sessionId).cons_cons _
  | _ => exact List.Sublist.refl _

theorem flatMap_sublist {α β : Type} {lines lines' : α → List β}
    (h : ∀ a, (lines a).Sublist (lines' a)) (log : List α) :
    (log.flatMap lines).Sublist (log.flatMap lines') := by
  induction log with
  | nil => exact List.Sublist.refl _
  | cons a rest ih => exact (h a).append ih

/-- A transcript that has grown has the older one in it. -/
theorem Grown.transcript {s t : System} (h : Grown s t) :
    (transcript s).Sublist (transcript t) := by
  obtain ⟨more, hmore⟩ := h.workflow
  have hlines : ∀ e, (eventLines (fun sessionId => sessionLines (s.sessions sessionId).state)
      e).Sublist (eventLines (fun sessionId => sessionLines (t.sessions sessionId).state) e) := by
    refine eventLines_sublist (fun sessionId => ?_)
    exact ((h.sessions sessionId).filterMap renderMessage).sublist
  unfold JobHistories.transcript
  rw [← hmore, List.flatMap_append]
  exact (flatMap_sublist hlines _).trans (List.sublist_append_left _ _)

/-- What the history of a job has shown it goes on to show, in the same order, through
crashes and failing persists: later histories only have more lines. -/
theorem history_grows (c : Codec) (d : JobSerde) (jobId : String) (cfg : Config)
    (hnames : Named d jobId) (hfile : cfg.backend = .file) (root : List FileName)
    (s t : System × FileJournal c)
    (hrun : Machine.Run (journaledNext d jobId cfg) (Tidy d jobId) (fresh c root) s)
    (hlater : Machine.Run (journaledNext d jobId cfg) (Tidy d jobId) s t) :
    (renderHistory d jobId s.2).Sublist (renderHistory d jobId t.2) := by
  have hgrown : Grown s.1 t.1 := by
    refine hlater.relation (fun s t => Grown s.1 t.1) (fun s => Grown.refl s.1) ?_
    intro s t act u h _ hnext
    exact h.trans (grown_step hfile (next_step (journaledNext_eq d jobId cfg hnext).1))
  obtain ⟨hbefore, _⟩ := reachable_mirrors hnames hfile root hrun
  obtain ⟨hafter, _⟩ := reachable_mirrors hnames hfile root (hrun.trans hlater)
  rw [hbefore.rendered, hafter.rendered]
  exact hgrown.transcript.map _

end Files

section Solo

def soloSerde : JobSerde where
  workflowState :=
    { toVec := fun _ => .error "not written"
      fromSlice := fun _ => .error "not written"
      lossless := fun _ _ h => by contradiction }
  workflowEvent :=
    { toVec := fun e => match e with
        | .workflowStarted => .ok [0]
        | .agentStarted name sessionId input =>
          if name = "solo" ∧ sessionId = 0 ∧ input = "go" then .ok [1] else .error "not written"
        | .workflowSuspended => .ok [3]
        | _ => .error "not written"
      fromSlice := fun bytes =>
        if bytes = [0] then .ok .workflowStarted
        else if bytes = [1] then .ok (.agentStarted "solo" 0 "go")
        else if bytes = [3] then .ok .workflowSuspended else .error "not written"
      lossless := by
        intro e bytes h
        cases e with
        | workflowStarted | workflowSuspended =>
          cases Except.ok.inj h
          rfl
        | agentStarted name sessionId input =>
          simp only at h
          split at h
          · rename_i hnames
            obtain ⟨rfl, rfl, rfl⟩ := hnames
            cases Except.ok.inj h
            rfl
          · contradiction
        | _ => contradiction }
  agentState :=
    { toVec := fun _ => .error "not written"
      fromSlice := fun _ => .error "not written"
      lossless := fun _ _ h => by contradiction }
  agentEvent :=
    { toVec := fun e => match e with
        | .inputMessage ⟨id, .user, [.text text]⟩ =>
          if id = "m1" ∧ text = "go" then .ok [2] else .error "not written"
        | _ => .error "not written"
      fromSlice := fun bytes =>
        if bytes = [2] then .ok (.inputMessage (Message.user "m1" "go"))
        else .error "not written"
      lossless := by
        intro e bytes h
        split at h
        · split at h
          · rename_i hnames
            obtain ⟨rfl, rfl⟩ := hnames
            cases Except.ok.inj h
            rfl
          · contradiction
        · contradiction }
  sessionText := fun sessionId => String.ofList ('s' :: List.replicate sessionId '0')

theorem soloSerde_named : Named soloSerde "job" where
  job := ⟨by decide, by decide, by decide, by decide⟩
  session sessionId := by
    constructor <;> simp [soloSerde, List.mem_replicate]
  distinct a b h := by
    simpa [soloSerde] using congrArg String.length h

def soloFiles : System × FileJournal standardCodec :=
  Machine.final (journaledNext soloSerde "job" (solo .file)) (Tidy soloSerde "job")
    (fresh standardCodec []) (soloRunning.map (fun label => ⟨label, none⟩))

theorem soloFiles_reached :
    Machine.Run (journaledNext soloSerde "job" (solo .file)) (Tidy soloSerde "job")
      (fresh standardCodec []) soloFiles :=
  Machine.run_final _ (by decide +kernel)

theorem history_complete_solo :
    (renderHistory soloSerde "job" soloFiles.2).map JobEventFrame.text =
      ["● workflow started\n", "\n▸ agent solo\n", "» go\n"] := by
  rw [(history_complete standardCodec soloSerde "job" (solo .file) soloSerde_named rfl []
    soloFiles soloFiles_reached).1]
  decide +kernel

def soloCut : List Act :=
  [⟨.deliver .cancel, none⟩, ⟨.workflowHandle, none⟩,
    ⟨.workflowPersist false, some (.writeAll 3, "no space left on device")⟩, ⟨.crash, none⟩]

theorem history_grows_solo :
    (renderHistory soloSerde "job" soloFiles.2).Sublist
      (renderHistory soloSerde "job"
        (Machine.final (journaledNext soloSerde "job" (solo .file)) (Tidy soloSerde "job")
          soloFiles soloCut).2) :=
  history_grows standardCodec soloSerde "job" (solo .file) soloSerde_named rfl [] soloFiles _
    soloFiles_reached (Machine.run_final soloCut (by decide +kernel))

end Solo

end October.JobHistories
