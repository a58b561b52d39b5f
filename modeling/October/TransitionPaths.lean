import October.OpenSystem
import October.WorkflowInvariants

/-!
The workflow's journal as a path of the transition graph, whatever reports come in and
whenever. A handler appends to the journal that its state is folded from: a transition
leaves the session that was started last, with a session that was never started, and
right before the start of that session. So every session is left at most once.
-/
namespace October.TransitionPaths

open WorkflowActor WorkflowInvariants

def Matches (wf : Workflow) (output : Value) (t : WorkflowTransition) : Prop :=
  match t.condition with
  | none => True
  | some condition => ∃ v, wf.evalCondition condition output = .ok v ∧ v.asBool = some true

/-- The first transition in order that matches has this target and condition. -/
def FirstMatch (wf : Workflow) (output : Value) (transitions : List WorkflowTransition)
    (target : String) (condition : Option String) : Prop :=
  ∃ before t after, transitions = before ++ t :: after ∧ t.target = target ∧
    t.condition = condition ∧ Matches wf output t ∧ ∀ t' ∈ before, ¬ Matches wf output t'

def transitionsOf (wf : Workflow) (agentName : String) : List WorkflowTransition :=
  ((agentDef wf agentName).bind WorkflowAgentDef.transitions).getD []

theorem findNextTransition_first {wf : Workflow} {output : Value}
    {transitions : List WorkflowTransition} {target : String} {condition : Option String}
    (h : findNextTransition wf output transitions = some (target, condition)) :
    FirstMatch wf output transitions target condition := by
  induction transitions with
  | nil => cases h
  | cons t rest ih =>
    have hskip : ¬ Matches wf output t →
        findNextTransition wf output rest = some (target, condition) →
        FirstMatch wf output (t :: rest) target condition := by
      intro hnot hrest
      obtain ⟨before, t', after, rfl, htarget, hcondition, hmatches, hbefore⟩ := ih hrest
      exact ⟨t :: before, t', after, rfl, htarget, hcondition, hmatches,
        List.forall_mem_cons.mpr ⟨hnot, hbefore⟩⟩
    unfold findNextTransition at h
    cases hc : t.condition with
    | none =>
      rw [hc] at h
      cases h
      exact ⟨[], t, rest, rfl, rfl, hc, by simp [Matches, hc], List.forall_mem_nil _⟩
    | some c =>
      rw [hc] at h
      dsimp only at h
      cases heval : wf.evalCondition c output with
      | error e =>
        rw [heval] at h
        exact hskip (by simp [Matches, hc, heval]) h
      | ok v =>
        rw [heval] at h
        dsimp only at h
        split at h
        next htrue =>
          cases h
          exact ⟨[], t, rest, rfl, rfl, hc, by simp [Matches, hc, heval, htrue],
            List.forall_mem_nil _⟩
        next hfalse => exact hskip (by simp [Matches, hc, heval, hfalse]) h

def startedBy : WorkflowDomainEvent → Option (String × Uuid)
  | .agentStarted agentName sessionId _ => some (agentName, sessionId)
  | _ => none

def leftBy : WorkflowDomainEvent → Option Uuid
  | .agentTransitioned _ _ fromSession _ _ => some fromSession
  | _ => none

def starts (log : List WorkflowDomainEvent) : List (String × Uuid) := log.filterMap startedBy

def lastStarted (log : List WorkflowDomainEvent) : Option (String × Uuid) :=
  (starts log).getLast?

def left (log : List WorkflowDomainEvent) : List Uuid := log.filterMap leftBy

section Lists

variable (log : List WorkflowDomainEvent) (e : WorkflowDomainEvent)

theorem starts_snoc : starts (log ++ [e]) = starts log ++ (startedBy e).toList := by
  simp only [starts, List.filterMap_append, List.filterMap_cons, List.filterMap_nil]
  cases startedBy e <;> rfl

theorem lastStarted_snoc : lastStarted (log ++ [e]) = (startedBy e).or (lastStarted log) := by
  unfold lastStarted
  rw [starts_snoc]
  cases startedBy e <;> simp

theorem left_snoc : left (log ++ [e]) = left log ++ (leftBy e).toList := by
  simp only [left, List.filterMap_append, List.filterMap_cons, List.filterMap_nil]
  cases leftBy e <;> rfl

/-- An element of a list with one more at the end is that one or an earlier one. -/
theorem snoc_split {log before after : List WorkflowDomainEvent} {e x : WorkflowDomainEvent}
    (h : log ++ [e] = before ++ x :: after) :
    (before = log ∧ x = e ∧ after = []) ∨
      ∃ after', after = after' ++ [e] ∧ log = before ++ x :: after' := by
  rcases List.eq_nil_or_concat after with rfl | ⟨after', last, rfl⟩
  · obtain ⟨hlog, hlast⟩ := List.append_inj' h rfl
    exact .inl ⟨hlog.symm, (List.cons.inj hlast).1.symm, rfl⟩
  · rw [List.concat_eq_append, ← List.cons_append, ← List.append_assoc] at h
    obtain ⟨hlog, hlast⟩ := List.append_inj' h rfl
    exact .inr ⟨after', by rw [List.concat_eq_append, (List.cons.inj hlast).1], hlog⟩

end Lists

/-- Journals that grow as handlers append to them; `reported` are the outputs that sessions
reported. -/
inductive Path (wf : Workflow) (reported : List (Uuid × Value)) :
    List WorkflowDomainEvent → Prop
  | nil : Path wf reported []
  | noted {log : List WorkflowDomainEvent} (e : WorkflowDomainEvent) :
      Path wf reported log → entersSession e = none → Path wf reported (log ++ [e])
  | started {log : List WorkflowDomainEvent} (agentName : String) (sessionId : Uuid)
      (input : String) : Path wf reported log → (∀ start ∈ starts log, start.2 ≠ sessionId) →
      Path wf reported (log ++ [.agentStarted agentName sessionId input])
  | transitioned {log : List WorkflowDomainEvent} (source target : String)
      (fromSession toSession : Uuid) (condition : Option String) (output : Value) :
      Path wf reported log → lastStarted log = some (source, fromSession) →
      (fromSession, output) ∈ reported →
      FirstMatch wf output (transitionsOf wf source) target condition →
      (∀ start ∈ starts log, start.2 ≠ toSession) →
      Path wf reported (log ++ [.agentTransitioned source target fromSession toSession condition] ++
        [.agentStarted target toSession (outputAsInput output)])

namespace Path

variable {wf : Workflow} {reported reported' : List (Uuid × Value)}
  {log : List WorkflowDomainEvent}

theorem mono (h : Path wf reported log) (hsub : ∀ r ∈ reported, r ∈ reported') :
    Path wf reported' log := by
  induction h with
  | nil => exact .nil
  | noted e _ hnone ih => exact .noted e ih hnone
  | started agentName sessionId input _ hnew ih => exact .started agentName sessionId input ih hnew
  | transitioned source target fromSession toSession condition output _ hlast hreported hfirst
      hnew ih =>
    exact .transitioned source target fromSession toSession condition output ih hlast
      (hsub _ hreported) hfirst hnew

/-- A path's state is at the agent and the session that were started last. -/
theorem current (h : Path wf reported log) :
    (fold log).currentAgent = (lastStarted log).map Prod.fst ∧
      (fold log).currentSessionId = (lastStarted log).map Prod.snd := by
  induction h with
  | nil => exact ⟨rfl, rfl⟩
  | @noted log e _ hnone ih =>
    rw [lastStarted_snoc, fold_append]
    cases e <;> first | exact ih | cases hnone
  | started agentName sessionId input _ _ _ =>
    rw [lastStarted_snoc, fold_append]
    exact ⟨rfl, rfl⟩
  | transitioned source target fromSession toSession condition output _ _ _ _ _ _ =>
    rw [lastStarted_snoc, fold_append]
    exact ⟨rfl, rfl⟩

/-- What a transition in a journal says of the events around it. -/
def Linked (wf : Workflow) (reported : List (Uuid × Value)) (log : List WorkflowDomainEvent) :
    Prop :=
  ∀ before after source target fromSession toSession condition,
    log = before ++ .agentTransitioned source target fromSession toSession condition :: after →
    lastStarted before = some (source, fromSession) ∧
    ∃ output rest, after = .agentStarted target toSession (outputAsInput output) :: rest ∧
      (fromSession, output) ∈ reported ∧
      FirstMatch wf output (transitionsOf wf source) target condition

theorem linked_snoc (h : Linked wf reported log) {e : WorkflowDomainEvent}
    (hnone : leftBy e = none) : Linked wf reported (log ++ [e]) := by
  intro before after source target fromSession toSession condition heq
  rcases snoc_split heq with ⟨-, rfl, -⟩ | ⟨after', rfl, hlog⟩
  · cases hnone
  · obtain ⟨hlast, output, rest, rfl, hreported⟩ := h _ _ _ _ _ _ _ hlog
    exact ⟨hlast, output, rest ++ [e], rfl, hreported⟩

theorem linked (h : Path wf reported log) : Linked wf reported log := by
  induction h with
  | nil =>
    intro before after _ _ _ _ _ heq
    exact absurd heq.symm (by simp)
  | @noted log e _ hnone ih =>
    refine linked_snoc ih ?_
    cases e <;> first | rfl | cases hnone
  | started agentName sessionId input _ _ ih => exact linked_snoc ih rfl
  | @transitioned log source target fromSession toSession condition output _ hlast hreported
      hfirst hnew ih =>
    intro before after source' target' fromSession' toSession' condition' heq
    rcases snoc_split heq with ⟨-, hlast, -⟩ | ⟨after', rfl, hinner⟩
    · cases hlast
    · rcases snoc_split hinner with ⟨rfl, htransition, rfl⟩ | ⟨after'', rfl, hlog⟩
      · cases htransition
        exact ⟨hlast, output, [], rfl, hreported, hfirst⟩
      · obtain ⟨hlast', output', rest, rfl, hrest⟩ := ih _ _ _ _ _ _ _ hlog
        exact ⟨hlast', output', rest ++ [_] ++ [_], rfl, hrest⟩

/-- The sessions that were left are different, were started and are not the last one. -/
theorem left_nodup (h : Path wf reported log) :
    (left log).Nodup ∧ ∀ sessionId ∈ left log, (∃ start ∈ starts log, start.2 = sessionId) ∧
      ∀ start, lastStarted log = some start → start.2 ≠ sessionId := by
  induction h with
  | nil => exact ⟨List.nodup_nil, List.forall_mem_nil _⟩
  | @noted log e _ hnone ih =>
    have hleft : leftBy e = none := by cases e <;> first | rfl | cases hnone
    have hstart : startedBy e = none := by cases e <;> first | rfl | cases hnone
    rw [left_snoc, hleft, starts_snoc, lastStarted_snoc, hstart]
    simpa using ih
  | @started log agentName sessionId input _ hnew ih =>
    obtain ⟨hnodup, hleft⟩ := ih
    rw [left_snoc, starts_snoc, lastStarted_snoc]
    simp only [leftBy, startedBy, Option.toList_none, List.append_nil, Option.toList_some]
    refine ⟨hnodup, fun other hother => ?_⟩
    obtain ⟨⟨start, hstart, rfl⟩, -⟩ := hleft other hother
    refine ⟨⟨start, List.mem_append_left _ hstart, rfl⟩, fun last hlast => ?_⟩
    cases hlast
    exact (hnew start hstart).symm
  | @transitioned log source target fromSession toSession condition output _ hlast _ _ hnew ih =>
    obtain ⟨hnodup, hleft⟩ := ih
    have hfrom : (source, fromSession) ∈ starts log := List.mem_of_getLast? hlast
    simp only [left_snoc, starts_snoc, lastStarted_snoc, leftBy, startedBy, Option.toList_none,
      List.append_nil, Option.toList_some]
    have hstarted : ∀ other ∈ left log ++ [fromSession], ∃ start ∈ starts log,
        start.2 = other := by
      intro other hother
      rcases List.mem_append.mp hother with hother | hother
      · exact (hleft other hother).1
      · exact ⟨_, hfrom, (List.mem_singleton.mp hother).symm⟩
    refine ⟨?_, fun other hother => ?_⟩
    · rw [List.nodup_append]
      refine ⟨hnodup, List.nodup_singleton _, fun a ha b hb hab => ?_⟩
      obtain rfl := List.mem_singleton.mp hb
      exact (hleft a ha).2 _ hlast hab.symm
    · obtain ⟨start, hstart, rfl⟩ := hstarted other hother
      refine ⟨⟨start, List.mem_append_left _ hstart, rfl⟩, fun last hlast => ?_⟩
      cases hlast
      exact (hnew start hstart).symm

end Path

section Handlers

variable {wf : Workflow} {fresh : Fresh} {child : Option ActorRef}
  {reported : List (Uuid × Value)} {log : List WorkflowDomainEvent}

def reportedBy : WorkflowCommand → List (Uuid × Value)
  | .agentConcluded sessionId output => [(sessionId, output)]
  | _ => []

theorem path_concluded (h : Path wf reported log) (sessionId : Uuid) (output : Value)
    (hreported : (sessionId, output) ∈ reported)
    (hfresh : ∀ start ∈ starts log, start.2 ≠ fresh.sessionId) :
    Path wf reported
      (log ++ (onConcluded wf fresh child (fold log) sessionId output).effect.events) := by
  obtain ⟨hagent, hsession⟩ := h.current
  have hignored : ∀ events : List WorkflowDomainEvent, events = [] →
      Path wf reported (log ++ events) := by
    rintro _ rfl
    rwa [List.append_nil]
  unfold onConcluded
  split
  · exact hignored _ rfl
  · rename_i hcurrent
    rw [hsession] at hcurrent
    cases hlast : lastStarted log with
    | none => simp [hlast] at hcurrent
    | some start =>
      obtain ⟨source, current⟩ := start
      rw [hagent, hlast]
      obtain rfl : current = sessionId := by simpa [hlast] using hcurrent
      dsimp only [Option.map_some]
      split
      · exact .noted _ h rfl
      · rename_i target condition hnext
        split
        · exact .noted _ h rfl
        · split
          · exact .noted _ h rfl
          · have hstep := Path.transitioned source target current fresh.sessionId condition output
              h hlast hreported (findNextTransition_first hnext) hfresh
            rw [List.append_assoc] at hstep
            exact hstep

/-- Every handler continues the path that its state is folded from. -/
theorem path_handled (h : Path wf reported log) (command : WorkflowCommand)
    (hreported : ∀ r ∈ reportedBy command, r ∈ reported)
    (hfresh : ∀ start ∈ starts log, start.2 ≠ fresh.sessionId) :
    Path wf reported
      (log ++ (handleCommand wf fresh child (fold log) command).effect.events) := by
  by_cases hconcluded : ∃ sessionId output, command = .agentConcluded sessionId output
  · obtain ⟨sessionId, output, rfl⟩ := hconcluded
    exact path_concluded h sessionId output (hreported _ (List.mem_singleton_self _)) hfresh
  · have hhandled := @handleCommand_handled wf fresh child (fold log) command
    revert hhandled
    generalize handleCommand wf fresh child (fold log) command = reply
    intro hhandled
    cases hhandled with
    | stale command sessionId _ _ => simpa [ignored] using h
    | unresumed message => simpa [ignored] using h
    | unforked source message => simpa [ignored] using h
    | failed command copied error notify _ => exact .noted _ h rfl
    | finished sessionId output _ => exact .noted _ h rfl
    | started input d _ =>
      have hstarted := Path.started wf.definition.start fresh.sessionId input
        (Path.noted (.workflowStarted) h rfl) (by simpa [starts_snoc, startedBy] using hfresh)
      rw [List.append_assoc] at hstarted
      exact hstarted
    | transitioned sessionId output source target condition d _ _ =>
      exact absurd ⟨sessionId, output, rfl⟩ hconcluded
    | forked source message agentName d _ _ _ _ =>
      exact .started agentName fresh.sessionId message h hfresh
    | resumed message ref command _ _ => simpa using h
    | respawned message agentName sessionId command d _ _ _ _ _ => simpa [entered] using h
    | cancelled => exact .noted _ h rfl
    | suspended sessionId error _ => exact .noted _ h rfl
    | paused sessionId toolCallId question _ => exact .noted _ h rfl

end Handlers

def shows (s : System) : OpenLabel → List (Uuid × Value)
  | .step .workflowHandle => (nextCommand s).elim [] reportedBy
  | _ => []

/-- The journal is a path, with the events about to be persisted and without, of sessions
that were drawn. -/
structure Inv (cfg : Config) (s : System × List (Uuid × Value)) : Prop where
  journal : Path cfg.workflow s.2 s.1.workflowLog
  record : Path cfg.workflow s.2 (record s.1)
  below : ∀ start ∈ starts (WorkflowInvariants.record s.1), start.2 < s.1.nextSession
  folded : ∀ wf, s.1.workflow = some wf → wf.phase.isRecovering = false →
    wf.state = fold s.1.workflowLog

namespace Inv

variable {cfg : Config} {s t : System} {reported reported' : List (Uuid × Value)}

/-- Steps that leave the workflow as it is, up to a command that it is told. -/
theorem frame (h : Inv cfg (s, reported)) (hlog : t.workflowLog = s.workflowLog)
    (hnext : t.nextSession = s.nextSession)
    (hworkflow : t.workflow = s.workflow ∨
      ∃ command, t.workflow = s.workflow.map (WorkflowProc.tell command)) :
    Inv cfg (t, reported) := by
  have hrecord : WorkflowInvariants.record t = WorkflowInvariants.record s := by
    unfold WorkflowInvariants.record
    rw [hlog]
    rcases hworkflow with hsame | ⟨command, htold⟩
    · rw [hsame]
    · rw [htold]
      cases s.workflow <;> simp
  refine ⟨?_, ?_, ?_, fun wf hwf hphase => ?_⟩
  · simpa only [hlog] using h.journal
  · simpa only [hrecord] using h.record
  · simpa only [hrecord, hnext] using h.below
  · dsimp only at hwf ⊢
    rw [hlog]
    rcases hworkflow with hsame | ⟨command, htold⟩
    · exact h.folded wf (hsame ▸ hwf) hphase
    · obtain ⟨wf', hwf', rfl⟩ := Option.map_eq_some_iff.mp (htold ▸ hwf)
      rw [WorkflowProc.tell_state]
      exact h.folded wf' hwf' (by simpa using hphase)

theorem handled (h : Inv cfg (s, reported)) {wf : WorkflowProc} {command : WorkflowCommand}
    {rest : List WorkflowCommand} {reply : Reply} {channel : List WorkflowNotification}
    (hwf : s.workflow = some wf) (hphase : wf.phase = .waiting)
    (hmailbox : wf.mailbox = command :: rest)
    (hreply : reply =
      handleCommand cfg.workflow (s.fresh cfg command) wf.child wf.state command) :
    Inv cfg (s.answered cfg wf rest reply channel,
      reported ++ shows s (.step .workflowHandle)) := by
  have hfolded : wf.state = fold s.workflowLog := h.folded wf hwf (by rw [hphase]; rfl)
  have hshows : shows s (.step .workflowHandle) = reportedBy command := by
    simp [shows, nextCommand, hwf, hmailbox]
  have hrecord : WorkflowInvariants.record (s.answered cfg wf rest reply channel) =
      s.workflowLog ++ reply.effect.events := by
    simp [WorkflowInvariants.record, System.answered]
  have hold : WorkflowInvariants.record s = s.workflowLog := by
    simp [WorkflowInvariants.record, hwf, hphase]
  have hbelow : ∀ start ∈ starts s.workflowLog, start.2 < s.nextSession := by
    simpa only [hold] using h.below
  have hjournal := h.journal.mono (fun r hr => List.mem_append_left (reportedBy command) hr)
  rw [hshows]
  refine ⟨hjournal, ?_, fun start hstart => ?_, fun wf' hwf' hphase' => ?_⟩
  · dsimp only
    rw [hrecord, hreply, hfolded]
    exact path_handled hjournal command (fun r hr => List.mem_append_right _ hr)
      (fun start hstart => Nat.ne_of_lt (hbelow start hstart))
  · dsimp only at hstart ⊢
    rw [hrecord, starts, List.filterMap_append] at hstart
    rcases List.mem_append.mp hstart with hstart | hstart
    · exact Nat.lt_succ_of_lt (hbelow start hstart)
    · obtain ⟨e, he, hstarted⟩ := List.mem_filterMap.mp hstart
      have henters : entersSession e = some start.2 := by
        cases e with
        | agentStarted agentName sessionId input =>
          cases hstarted
          rfl
        | _ => cases hstarted
      rw [hreply] at he
      rw [handled_enters (handleCommand_handled command) he henters]
      exact Nat.lt_succ_self _
  · cases hwf'
    exact hfolded

theorem persisted (h : Inv cfg (s, reported)) {wf : WorkflowProc}
    {effect : CommandEffect WorkflowDomainEvent} {events : List WorkflowDomainEvent} {ok : Bool}
    (hwf : s.workflow = some wf) (hphase : wf.phase = .performing effect)
    (hevents : events = (if ok then effect.events else [])) :
    Inv cfg ({ s with
      workflowLog := s.workflowLog ++ events
      workflow := some { wf with
        state := events.foldl applyEvent wf.state
        phase := Phase.called effect } }, reported) := by
  have hold : WorkflowInvariants.record s = s.workflowLog ++ effect.events := by
    simp [WorkflowInvariants.record, hwf, hphase]
  have hpath : Path cfg.workflow reported (s.workflowLog ++ events) := by
    rw [hevents]
    cases ok with
    | false => simpa using h.journal
    | true => exact hold ▸ h.record
  have hsub : ∀ start ∈ starts (s.workflowLog ++ events), start.2 < s.nextSession := by
    intro start hstart
    refine h.below start ?_
    rw [hold]
    rw [hevents] at hstart
    cases ok with
    | false =>
      rw [if_neg Bool.false_ne_true, List.append_nil] at hstart
      rw [starts, List.filterMap_append]
      exact List.mem_append_left _ hstart
    | true => exact hstart
  refine ⟨hpath, ?_, ?_, fun wf' hwf' _ => ?_⟩
  · simpa [WorkflowInvariants.record] using hpath
  · simpa [WorkflowInvariants.record] using hsub
  · cases hwf'
    dsimp only
    rw [fold_append, h.folded wf hwf (by rw [hphase]; rfl)]

/-- What is left of the system when its workflow is gone or has yet to recover. -/
theorem restarted (h : Inv cfg (s, reported)) (hlog : t.workflowLog = s.workflowLog)
    (hnext : t.nextSession = s.nextSession)
    (hworkflow : ∀ wf, t.workflow = some wf → wf.phase.events = [] ∧
      (wf.phase.isRecovering = false → wf.state = fold s.workflowLog)) :
    Inv cfg (t, reported) := by
  have hrecord : WorkflowInvariants.record t = s.workflowLog := by
    unfold WorkflowInvariants.record
    rw [hlog]
    cases hwf : t.workflow with
    | none => simp
    | some wf => simp [(hworkflow wf hwf).1]
  refine ⟨by simpa only [hlog] using h.journal, by simpa only [hrecord] using h.journal,
    fun start hstart => ?_, fun wf hwf hphase => ?_⟩
  · dsimp only at hstart ⊢
    rw [hrecord] at hstart
    rw [hnext]
    refine h.below start ?_
    unfold WorkflowInvariants.record
    rw [starts, List.filterMap_append]
    exact List.mem_append_left _ hstart
  · dsimp only
    rw [hlog]
    exact (hworkflow wf hwf).2 hphase

theorem step (h : Inv cfg (s, reported)) {l : OpenLabel} (hstep : openNext cfg s l = some t) :
    Inv cfg (t, reported ++ shows s l) := by
  cases openNext_step hstep with
  | toldWorkflow command =>
    rw [show shows s (.tellWorkflow command) = [] from rfl, List.append_nil]
    exact h.frame rfl rfl (.inr ⟨command, rfl⟩)
  | toldAgent ref command _ =>
    rw [show shows s (.tellAgent ref command) = [] from rfl, List.append_nil]
    exact h.frame rfl rfl (.inl rfl)
  | stepped label _ hstep =>
    by_cases hframe : ofWorkflow label = false
    · have hshows : shows s (.step label) = [] := by
        cases label <;> first | rfl | cases hframe
      rw [hshows, List.append_nil]
      obtain ⟨-, hlog, hnext, hheard⟩ := step_frame hstep hframe
      refine h.frame hlog hnext ?_
      rcases hheard with hsame | ⟨command, -, htold⟩
      · exact .inl hsame
      · exact .inr ⟨command, htold⟩
    · cases hstep with
      | launched kickoff _ _ =>
        rw [show shows s (.step (.launch kickoff)) = [] from rfl, List.append_nil]
        exact h.restarted rfl rfl (fun wf hwf => by
          cases hwf
          exact ⟨rfl, fun heq => by cases heq⟩)
      | recovered wf spawned _ _ _ =>
        rw [show shows s (.step .workflowRecover) = [] from rfl, List.append_nil]
        have hlog : (s.spawns spawned).workflowLog = s.workflowLog := by cases spawned <;> rfl
        have hnext : (s.spawns spawned).nextSession = s.nextSession := by cases spawned <;> rfl
        exact h.restarted hlog hnext (fun wf' hwf' => by
          cases hwf'
          exact ⟨rfl, fun _ => rfl⟩)
      | handled wf command rest reply channel hwf hphase hmailbox hreply =>
        exact h.handled hwf hphase hmailbox hreply
      | persisted wf effect events ok hwf hphase hevents =>
        rw [show shows s (.step (.workflowPersist ok)) = [] from rfl, List.append_nil]
        exact h.persisted hwf hphase hevents
      | crashed =>
        rw [show shows s (.step .crash) = [] from rfl, List.append_nil]
        exact h.restarted rfl rfl (fun wf hwf => by cases hwf)
      | _ => exact absurd rfl hframe

end Inv

/-- Every reachable journal is a path of the graph: a transition leaves the session that was
started last, for the first transition that matches an output that it reported, is followed
by the start of its target with that output, and no session is left twice. -/
theorem journal_path (cfg : Config) (s : System × List (Uuid × Value))
    (hrun : Machine.Run (Machine.observed (openNext cfg) shows) Machine.free (System.init, []) s) :
    (∀ before after source target fromSession toSession condition,
      s.1.workflowLog =
        before ++ .agentTransitioned source target fromSession toSession condition :: after →
      lastStarted before = some (source, fromSession) ∧
      ∃ output rest, after = .agentStarted target toSession (outputAsInput output) :: rest ∧
        (fromSession, output) ∈ s.2 ∧
        FirstMatch cfg.workflow output (transitionsOf cfg.workflow source) target condition) ∧
    (left s.1.workflowLog).Nodup := by
  have hinv : Inv cfg s := by
    refine hrun.invariant (Inv cfg) ?_ ?_
    · rintro s l t h - hstep
      obtain ⟨hnext, hshown⟩ := Machine.observed_step hstep
      have ht := h.step hnext
      rwa [← hshown] at ht
    · exact ⟨.nil, .nil, List.forall_mem_nil _, fun wf hwf => by cases hwf⟩
  exact ⟨hinv.journal.linked, hinv.journal.left_nodup.1⟩

def handover : Config where
  workflow :=
    { definition := ⟨"a",
        [⟨"a", none, "m", none, false, some [⟨"b", some "output == 'done'"⟩], none, none, none⟩,
          ⟨"b", none, "m", none, false, none, none, none, none⟩]⟩
      hasProvider := fun _ => true
      evalCondition := fun _ _ => .ok (.bool true) }
  backend := .file
  notifyCapacity := 256

def handedOver : List OpenLabel :=
  [.step (.launch (some (.start "go"))), .step .workflowRecover, .step .workflowHandle,
    .step (.workflowPersist true), .tellWorkflow (.agentConcluded 0 (.string "done")),
    .step .workflowHandle, .step (.workflowPersist true), .step .crash, .step (.launch none),
    .step .workflowRecover, .tellWorkflow (.agentConcluded 0 (.string "done")),
    .step .workflowHandle]

def afterHandover : System × List (Uuid × Value) :=
  Machine.final (Machine.observed (openNext handover) shows) Machine.free (System.init, [])
    handedOver

theorem journal_path_handover :
    left afterHandover.1.workflowLog = [0] ∧
    (∀ before after source target fromSession toSession condition,
      afterHandover.1.workflowLog =
        before ++ .agentTransitioned source target fromSession toSession condition :: after →
      lastStarted before = some (source, fromSession) ∧
      ∃ output rest, after = .agentStarted target toSession (outputAsInput output) :: rest ∧
        (fromSession, output) ∈ afterHandover.2 ∧
        FirstMatch handover.workflow output (transitionsOf handover.workflow source) target
          condition) ∧
    (left afterHandover.1.workflowLog).Nodup :=
  ⟨by decide +kernel,
    journal_path handover afterHandover (Machine.run_final handedOver (by decide +kernel))⟩

end October.TransitionPaths
