import October.ExecutorLinks
import October.LinkTable

/-!
The connection a command to an executor goes to. It is the one registered last for the id,
as long as that one has not ended, if no task removes an id whose last connection goes on:
`remove` takes out whatever stands under the id, also a newer connection.
-/
namespace October.FreshExecutors

open LinkTable ExecutorLinks

def table (s : ExecutorLinks) : Table String ℕ where
  entry executorId := (s.registry.conns.lookup executorId).map ExecutorConn.sink
  latest := s.latest
  ended i := s.hasEnded i = true

variable {s t : ExecutorLinks} {i : ℕ} {executorId : String}

theorem latest_append (s : ExecutorLinks) (conn : ExecutorConn) (id : String) :
    ExecutorLinks.latest { s with log := s.log ++ [conn] } id =
      if conn.executorId = id then some conn.sink else s.latest id := by
  simp [ExecutorLinks.latest]

theorem hasEnded_setTask (s : ExecutorLinks) (i : ℕ) (phase : ExecutorPhase) (j : ℕ) :
    (s.setTask i phase).hasEnded j = if j = i then phase.hasEnded else s.hasEnded j := by
  unfold hasEnded setTask
  by_cases hj : j = i <;> simp [hj]

/-- A task that goes on does not take back that its connection ended. -/
theorem keeps_ended {phase : ExecutorPhase}
    (h : s.hasEnded i = true → phase.hasEnded = true) {j : ℕ} (hj : s.hasEnded j = true) :
    (s.setTask i phase).hasEnded j = true := by
  rw [hasEnded_setTask]
  split
  · rename_i hji
    exact h (hji ▸ hj)
  · exact hj

/-- What a step does: a task goes on, registers or removes, or the lock changes hands. -/
theorem next_cases {l : ExecutorLinksLabel} (h : next s l = some t) :
    (∃ i phase handled, (s.hasEnded i = true → phase.hasEnded = true) ∧
      t = { s.setTask i phase with
        handled := handled }) ∨
    (∃ i executorId, l = .register i ∧ s.hasEnded i = false ∧
      t = { s.setTask i (.serving executorId) with
        registry := s.registry.register ⟨executorId, i⟩
        log := s.log ++ [⟨executorId, i⟩] }) ∨
    (∃ i executorId, l = .remove i ∧ s.tasks i = some (.removing executorId) ∧
      t = { s.setTask i .finished with registry := s.registry.remove executorId }) ∨
    (∃ sending, t = { s with sending := sending }) := by
  have hnot : ∀ {i : ℕ} {o : Option ExecutorPhase}, s.tasks i = o →
      o.any ExecutorPhase.hasEnded = false → s.hasEnded i = false := by
    intro i o hi ho
    rw [hasEnded, hi, ho]
  cases l with
  | accept i upgraded =>
    simp only [next] at h
    split at h
    · rename_i hi
      refine Or.inl ⟨i, _, s.handled, fun hended => ?_, (Option.some.inj h).symm⟩
      rw [hnot hi rfl] at hended
      contradiction
    · contradiction
  | receive i item =>
    simp only [next] at h
    split at h
    · rename_i hi
      refine Or.inl ⟨i, _, s.handled, fun hended => ?_, (Option.some.inj h).symm⟩
      rw [hnot hi rfl] at hended
      contradiction
    · rename_i hi
      refine Or.inl ⟨i, _, _, fun hended => ?_, (Option.some.inj h).symm⟩
      rw [hnot hi rfl] at hended
      contradiction
    · contradiction
  | register i =>
    simp only [next] at h
    split at h
    · rename_i hi _
      exact Or.inr (Or.inl ⟨i, _, rfl, hnot hi rfl, (Option.some.inj h).symm⟩)
    · contradiction
  | remove i =>
    simp only [next] at h
    split at h
    · rename_i hi _
      exact Or.inr (Or.inr (Or.inl ⟨i, _, rfl, hi, (Option.some.inj h).symm⟩))
    · contradiction
  | command executorId =>
    simp only [next] at h
    split at h
    · exact Or.inr (Or.inr (Or.inr ⟨_, (Option.some.inj h).symm⟩))
    · contradiction
  | sent =>
    simp only [next] at h
    split at h
    · contradiction
    · exact Or.inr (Or.inr (Or.inr ⟨_, (Option.some.inj h).symm⟩))

/-- Registering a connection that has not ended. -/
theorem fresh_register (hs : (table s).Fresh) (hi : s.hasEnded i = false) :
    (table { s.setTask i (.serving executorId) with
      registry := s.registry.register ⟨executorId, i⟩
      log := s.log ++ [⟨executorId, i⟩] }).Fresh := by
  refine hs.enter (k := executorId) i ⟨fun id hid => ?_, fun id hid => ?_, fun j hj => ?_⟩ ?_ ?_
  · exact congrArg (Option.map ExecutorConn.sink) (AList.lookup_insert_ne hid)
  · exact (latest_append s _ id).trans (if_neg (Ne.symm hid))
  · refine keeps_ended (fun hended => ?_) hj
    rw [hi] at hended
    contradiction
  · change ((s.registry.conns.insert executorId _).lookup executorId).map _ = _
    rw [AList.lookup_insert, Option.map_some]
  · exact (latest_append s _ executorId).trans (if_pos rfl)

/-- Removing an id keeps the table fresh exactly if the last connection of the id has
ended. -/
theorem fresh_remove (hs : (table s).Fresh) (hi : s.tasks i = some (.removing executorId)) :
    (table { s.setTask i .finished with registry := s.registry.remove executorId }).Fresh ↔
      (s.latest executorId).all s.hasEnded = true := by
  have hended : ∀ j, (s.setTask i .finished).hasEnded j = s.hasEnded j := by
    intro j
    rw [hasEnded_setTask]
    split
    · rename_i hj
      subst hj
      rw [hasEnded, hi]
      rfl
    · rfl
  have hgone : ((s.registry.conns.erase executorId).lookup executorId).map ExecutorConn.sink =
      none := by
    rw [AList.lookup_erase, Option.map_none]
  have hframe : (table s).Frame
      (table { s.setTask i .finished with registry := s.registry.remove executorId })
      executorId :=
    ⟨fun id hid => congrArg (Option.map ExecutorConn.sink) (AList.lookup_erase_ne hid),
      fun _ _ => rfl, fun j hj => (hended j).trans hj⟩
  have hiff := hs.evict_iff hframe hgone rfl
    (fun j => iff_of_eq (congrArg (· = true) (hended j)))
  rw [hiff]
  simp [Option.all_eq_true, table]

theorem fresh_step {l : ExecutorLinksLabel} (hs : (table s).Fresh) (hstale : StaleOnly s l)
    (hstep : next s l = some t) : (table t).Fresh := by
  rcases next_cases hstep with ⟨i, phase, handled, hkeep, rfl⟩ | ⟨i, executorId, rfl, hi, rfl⟩ |
    ⟨i, executorId, rfl, hi, rfl⟩ | ⟨sending, rfl⟩
  · exact hs.close rfl rfl (fun _ hj => keeps_ended hkeep hj)
  · exact fresh_register hs hi
  · refine (fresh_remove hs hi).mpr ?_
    unfold StaleOnly staleOnly at hstale
    dsimp only at hstale
    rwa [hi] at hstale
  · exact hs.close rfl rfl (fun _ hj => hj)

theorem fresh_run (hrun : Machine.Run next StaleOnly init s) : (table s).Fresh := by
  refine hrun.invariant (fun s => (table s).Fresh)
    (fun _ _ _ hs hstale hstep => fresh_step hs hstale hstep) (fun id j hj => ?_)
  contradiction

/-- A sink sends or fails, but knows nothing of executors that are not found. -/
theorem wsCommandSink_found (outcome : SendOutcome) (executorId : String) :
    wsCommandSink outcome ≠ .error (.executorNotFound executorId) := by
  cases outcome <;> simp [wsCommandSink]

/-- In every interleaving of connection tasks in which a task removes its id only if the
connection registered last for it has ended, a command to an id whose last connection has
not ended is sent through that connection. -/
theorem latest_commanded (s : ExecutorLinks) (hrun : Machine.Run next StaleOnly init s)
    (executorId : String) (i : ℕ) (hlatest : s.latest executorId = some i)
    (hopen : s.hasEnded i = false) (sinks : ℕ → ExecutorInboundMessage → SendOutcome)
    (requestId : String) (command : ExecutorCommand) :
    s.registry.sendCommand sinks executorId requestId command =
        wsCommandSink (sinks i ⟨requestId, command⟩) ∧
      ∀ id, s.registry.sendCommand sinks executorId requestId command ≠
        .error (.executorNotFound id) := by
  have hentry : (s.registry.conns.lookup executorId).map ExecutorConn.sink = some i := by
    refine fresh_run hrun executorId i hlatest (fun hended => ?_)
    rw [show s.hasEnded i = true from hended] at hopen
    contradiction
  obtain ⟨conn, hconn, rfl⟩ := Option.map_eq_some_iff.mp hentry
  have hsend : s.registry.sendCommand sinks executorId requestId command =
      wsCommandSink (sinks conn.sink ⟨requestId, command⟩) := by
    rw [ExecutorRegistry.sendCommand, hconn]
  refine ⟨hsend, fun id => ?_⟩
  rw [hsend]
  exact wsCommandSink_found _ id

def announce (i : ℕ) (executorId : String) : List ExecutorLinksLabel :=
  [.accept i true, .receive i (.text (some ⟨"", .registered executorId⟩)), .register i]

def inOrder : List ExecutorLinksLabel :=
  announce 0 "ex" ++ [.receive 0 .close, .remove 0] ++ announce 1 "ex"

theorem run_inOrder :
    Machine.Run next StaleOnly init (Machine.final next StaleOnly init inOrder) :=
  Machine.run_final inOrder (by decide +kernel)

theorem inOrder_commanded :
    (Machine.final next StaleOnly init inOrder).registry.sendCommand (fun _ _ => .sent) "ex" "r"
        .queryRuntimes = .ok () :=
  (latest_commanded _ run_inOrder "ex" 1 (by decide +kernel) (by decide +kernel)
    (fun _ _ => .sent) "r" .queryRuntimes).1

def lateRemove : List ExecutorLinksLabel :=
  announce 0 "ex" ++ announce 1 "ex" ++ [.receive 0 .ended, .remove 0]

theorem run_lateRemove :
    Machine.Run next Machine.free init (Machine.final next Machine.free init lateRemove) :=
  Machine.run_final lateRemove (by decide +kernel)

theorem newer_removed :
    ¬ ∀ s : ExecutorLinks, Machine.Run next Machine.free init s →
      ∀ (executorId : String) (i : ℕ), s.latest executorId = some i → s.hasEnded i = false →
        ∀ (sinks : ℕ → ExecutorInboundMessage → SendOutcome) (requestId : String)
          (command : ExecutorCommand),
          s.registry.sendCommand sinks executorId requestId command =
              wsCommandSink (sinks i ⟨requestId, command⟩) ∧
            ∀ id, s.registry.sendCommand sinks executorId requestId command ≠
              .error (.executorNotFound id) := by
  intro h
  have hsent := (h _ run_lateRemove "ex" 1 (by decide +kernel) (by decide +kernel)
    (fun _ _ => .sent) "r" .queryRuntimes).1
  have hgone : (Machine.final next Machine.free init lateRemove).registry.conns.lookup "ex" =
      none := by
    decide +kernel
  rw [ExecutorRegistry.sendCommand, hgone] at hsent
  contradiction

end October.FreshExecutors
