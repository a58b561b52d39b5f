import October.ConnectedRegistry

/-!
The transport found for a runtime id. It is that of the link registered last, as long as
that link is open and the id was not stopped, if no task cleans up for an id whose last
link is open: `remove` takes out whatever stands under the id, also a newer link.
-/
namespace October.FreshLinks

open LinkTable RuntimeLinks

def table (s : RuntimeLinks) : Table String ℕ where
  entry runtimeId := s.registry.runtimeTransport runtimeId
  latest := s.latest
  ended i := s.hasClosed i = true

variable {s t : RuntimeLinks} {i : ℕ} {c : Connection} {runtimeId : String}

theorem latest_append (s : RuntimeLinks) (e : RegistryEvent) (id : String) :
    RuntimeLinks.latest { s with log := s.log ++ [e] } id =
      latestStep id (s.latest id) e := by
  simp [RuntimeLinks.latest]

/-- A task goes on without opening its link again. -/
theorem hasClosed_setConnection (h : (s.connections i).any Connection.closed = true →
    c.closed = true) {j : ℕ} (hj : s.hasClosed j = true) :
    (s.setConnection i c).hasClosed j = true := by
  unfold hasClosed setConnection
  by_cases hji : j = i
  · subst hji
    simp only [if_pos]
    exact h hj
  · simp only [if_neg hji]
    exact hj

/-- A step of a task that leaves the registry and its history alone. -/
theorem fresh_setConnection (hs : (table s).Fresh)
    (h : (s.connections i).any Connection.closed = true → c.closed = true) :
    (table (s.setConnection i c)).Fresh :=
  hs.close rfl rfl (fun _ hj => hasClosed_setConnection h hj)

/-- Registering a connection under an id. -/
theorem fresh_register (hs : (table s).Fresh) {closed : Bool}
    (hi : s.connections i = some ⟨.registering runtimeId, closed⟩) (ready : List ℕ) :
    (table { s.setConnection i ⟨.serving runtimeId, closed⟩ with
      registry := (s.registry.registerTransport runtimeId i).2
      ready := ready
      log := s.log ++ [.registered runtimeId i] }).Fresh := by
  have hframe : Table.Frame (table s) (table { s.setConnection i ⟨.serving runtimeId, closed⟩ with
      registry := (s.registry.registerTransport runtimeId i).2
      ready := ready
      log := s.log ++ [.registered runtimeId i] }) runtimeId := by
    refine ⟨fun id hid => AList.lookup_insert_ne hid, fun id hid => ?_, fun j hj => ?_⟩
    · exact (latest_append s _ id).trans (if_neg (Ne.symm hid))
    · exact hasClosed_setConnection (fun h => by rw [hi] at h; exact h) hj
  refine hs.enter i hframe ?_ ?_
  · exact AList.lookup_insert _
  · exact (latest_append s _ runtimeId).trans (if_pos rfl)

/-- Stopping an id. -/
theorem fresh_stop (hs : (table s).Fresh) (runtimeId : String) :
    (table { s with
      registry := s.registry.remove runtimeId
      log := s.log ++ [.stopped runtimeId] }).Fresh := by
  have hframe : Table.Frame (table s) (table { s with
      registry := s.registry.remove runtimeId
      log := s.log ++ [.stopped runtimeId] }) runtimeId := by
    refine ⟨fun id hid => AList.lookup_erase_ne hid, fun id hid => ?_, fun _ hj => hj⟩
    exact (latest_append s _ id).trans (if_neg (Ne.symm hid))
  exact hs.withdraw hframe ((latest_append s _ runtimeId).trans (if_pos rfl))

/-- A clean-up keeps the table fresh exactly if the last link of the id is closed. -/
theorem fresh_cleanUp (hs : (table s).Fresh)
    (hi : s.connections i = some ⟨.serving runtimeId, true⟩) :
    (table { s.setConnection i ⟨.finished, true⟩ with
      registry := s.registry.remove runtimeId }).Fresh ↔
      (s.latest runtimeId).all s.hasClosed = true := by
  have hended : ∀ j, (s.setConnection i ⟨.finished, true⟩).hasClosed j = s.hasClosed j := by
    intro j
    unfold hasClosed setConnection
    by_cases hj : j = i
    · subst hj
      rw [hi]
      simp
    · simp only [if_neg hj]
  have hframe : Table.Frame (table s) (table { s.setConnection i ⟨.finished, true⟩ with
      registry := s.registry.remove runtimeId }) runtimeId :=
    ⟨fun id hid => AList.lookup_erase_ne hid, fun _ _ => rfl, fun j hj => (hended j).trans hj⟩
  rw [hs.evict_iff hframe (AList.lookup_erase _ _) rfl (fun j => by
    change (_ = true) ↔ (_ = true)
    rw [← hended j]
    rfl)]
  simp [Option.all_eq_true, table]

theorem fresh_step {l : LinksLabel} (hs : (table s).Fresh) (hstale : StaleOnly s l)
    (hstep : next s l = some t) : (table t).Fresh := by
  cases l with
  | accept i =>
    simp only [next] at hstep
    cases hi : s.connections i with
    | some c =>
      rw [hi] at hstep
      contradiction
    | none =>
      rw [hi] at hstep
      cases Option.some.inj hstep
      exact fresh_setConnection hs (fun h => by rw [hi] at h; contradiction)
  | handshake i item =>
    simp only [next] at hstep
    cases hi : s.connections i with
    | none =>
      rw [hi] at hstep
      contradiction
    | some c =>
      obtain ⟨phase, closed⟩ := c
      rw [hi] at hstep
      cases phase with
      | handshaking =>
        cases Option.some.inj hstep
        exact fresh_setConnection hs (fun h => by rw [hi] at h; exact h)
      | _ => contradiction
  | register i =>
    simp only [next] at hstep
    cases hi : s.connections i with
    | none =>
      rw [hi] at hstep
      contradiction
    | some c =>
      obtain ⟨phase, closed⟩ := c
      rw [hi] at hstep
      cases phase with
      | registering runtimeId =>
        cases Option.some.inj hstep
        exact fresh_register hs hi _
      | _ => contradiction
  | closed i =>
    simp only [next] at hstep
    cases hi : s.connections i with
    | none =>
      rw [hi] at hstep
      contradiction
    | some c =>
      obtain ⟨phase, closed⟩ := c
      rw [hi] at hstep
      cases closed with
      | true => cases phase <;> contradiction
      | false =>
        cases phase with
        | registering runtimeId =>
          cases Option.some.inj hstep
          exact fresh_setConnection hs (fun _ => rfl)
        | serving runtimeId =>
          cases Option.some.inj hstep
          exact fresh_setConnection hs (fun _ => rfl)
        | _ => contradiction
  | cleanUp i =>
    simp only [next] at hstep
    cases hi : s.connections i with
    | none =>
      rw [hi] at hstep
      contradiction
    | some c =>
      obtain ⟨phase, closed⟩ := c
      rw [hi] at hstep
      cases phase with
      | serving runtimeId =>
        cases closed with
        | false => contradiction
        | true =>
          cases Option.some.inj hstep
          refine (fresh_cleanUp hs hi).mpr ?_
          unfold StaleOnly staleOnly at hstale
          dsimp only at hstale
          rwa [hi] at hstale
      | _ => cases closed <;> contradiction
  | stop runtimeId =>
    cases Option.some.inj hstep
    exact fresh_stop hs runtimeId
  | notifyWhenReady runtimeId waiter =>
    cases Option.some.inj hstep
    exact hs.close rfl rfl (fun _ hj => hj)

/-- In every interleaving of connection tasks in which a task cleans up only for an id
whose last link is closed, the link registered last is found as long as it is open and the
id was not stopped. -/
theorem latest_found (s : RuntimeLinks) (hrun : Machine.Run next StaleOnly init s)
    (runtimeId : String) (i : ℕ) (hlatest : s.latest runtimeId = some i)
    (hopen : s.hasClosed i = false) : s.registry.runtimeTransport runtimeId = some i := by
  have hfresh : (table s).Fresh := by
    refine hrun.invariant (fun s => (table s).Fresh)
      (fun _ _ _ hs hstale hstep => fresh_step hs hstale hstep) (fun id j hj => ?_)
    contradiction
  refine hfresh runtimeId i hlatest (fun hended => ?_)
  have hclosed : s.hasClosed i = true := hended
  rw [hopen] at hclosed
  contradiction

def inOrder : List LinksLabel :=
  [.accept 0, .handshake 0 (some (.text (some (.ready "rt")))), .register 0, .stop "rt",
    .closed 0, .cleanUp 0, .accept 1, .handshake 1 (some (.text (some (.ready "rt")))),
    .register 1]

theorem inOrder_found :
    (Machine.final next StaleOnly init inOrder).registry.runtimeTransport "rt" = some 1 :=
  latest_found _ (Machine.run_final inOrder (by decide +kernel)) "rt" 1 (by decide +kernel)
    (by decide +kernel)

def lateCleanUp : List LinksLabel :=
  [.accept 0, .handshake 0 (some (.text (some (.ready "rt")))), .register 0, .stop "rt",
    .accept 1, .handshake 1 (some (.text (some (.ready "rt")))), .register 1, .closed 0,
    .cleanUp 0]

theorem fresh_evicted :
    ¬ ∀ s : RuntimeLinks, Machine.Run next Machine.free init s →
      ∀ (runtimeId : String) (i : ℕ), s.latest runtimeId = some i → s.hasClosed i = false →
        s.registry.runtimeTransport runtimeId = some i := by
  intro h
  have hfound := h _ (Machine.run_final lateCleanUp (by decide +kernel)) "rt" 1
    (by decide +kernel) (by decide +kernel)
  have hgone : (Machine.final next Machine.free init lateCleanUp).registry.runtimeTransport "rt" =
      none := by
    decide +kernel
  rw [hgone] at hfound
  contradiction

end October.FreshLinks
