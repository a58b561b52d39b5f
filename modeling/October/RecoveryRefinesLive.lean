import October.InMemoryJournal
import October.Runtime

/-!
Recovery over the in-memory journal agrees with the live actor. The invariant
ties the entry of the actor to the acknowledged events: the stored bytes are a
numbered suffix of their encodings and the snapshot covers the rest. Every
journal call keeps it, whether the call succeeds or fails, so recovery from any
configuration of the command loop folds exactly the acknowledged events.
-/
namespace October.RecoveryRefinesLive

open StampedLog

variable {S E : Type} (a : EventSourcedActor S E) (pid : PersistenceId)

def Decodes (bytes : Bytes) (event : E) : Prop := a.eventSerde.fromSlice bytes = .ok event

def Covers (bytes : Bytes) (log : List Bytes) : Prop :=
  ∃ events, List.Forall₂ (Decodes a) log events ∧
    a.stateSerde.fromSlice bytes = .ok (events.foldl a.applyEvent a.initialState)

def entryOf (j : InMemoryJournal) : Entry := (j pid).getD Entry.default

/-- The journal stores encodings of exactly the events in `history`. -/
def Stores (j : InMemoryJournal) (history : List E) : Prop :=
  ∃ log dropped, List.Forall₂ (Decodes a) log history ∧
    Represents (Covers a) (entryOf pid j).events (entryOf pid j).lastSeq
      (entryOf pid j).snapshot log dropped

/-- The live configuration is the fold of the acknowledged events, and the
journal stores those. -/
structure Sound (l : Live InMemoryJournal S E) : Prop where
  state_eq : l.state = l.acknowledged.foldl a.applyEvent a.initialState
  seqNr_eq : l.seqNr = l.acknowledged.length
  stores : Stores a pid l.journal l.acknowledged

@[simp] theorem entryOf_update (j : InMemoryJournal) (e : Entry) :
    entryOf pid (Function.update j pid (some e)) = e := by simp [entryOf]

theorem decodes_unique : Relator.RightUnique (Decodes a) := by
  intro bytes e e' h h'
  exact Except.ok.inj (h.symm.trans h')

theorem encodeAll_decodes (events : List E) (encoded : List Bytes)
    (h : encodeAll a events = .ok encoded) : List.Forall₂ (Decodes a) encoded events := by
  induction events generalizing encoded with
  | nil =>
    cases Except.ok.inj h
    exact List.Forall₂.nil
  | cons event rest ih =>
    simp only [encodeAll] at h
    split at h
    · contradiction
    · rename_i bytes hbytes
      split at h
      · contradiction
      · rename_i tail htail
        cases Except.ok.inj h
        exact List.Forall₂.cons (a.eventSerde.lossless event bytes hbytes) (ih tail htail)

theorem replayInto_decoded (log : List Bytes) (events : List E) (state : S) (seqNr : ℕ)
    (h : List.Forall₂ (Decodes a) log events) :
    replayInto a (log.map .ok) state seqNr =
      .ok (events.foldl a.applyEvent state, seqNr + events.length) := by
  induction h generalizing state seqNr with
  | nil => rfl
  | @cons bytes event log events hd _ ih =>
    simp only [List.map_cons, replayInto, show a.eventSerde.fromSlice bytes = .ok event from hd,
      List.foldl_cons, List.length_cons]
    rw [ih, Nat.add_right_comm, Nat.add_assoc]

theorem replay_entryOf (j : InMemoryJournal) (n : ℕ) :
    Journal.replay pid n j =
      (((entryOf pid j).events.filter (fun p => decide (n < p.1))).map Prod.snd).map .ok := by
  change InMemoryJournal.replay pid n j = _
  unfold InMemoryJournal.replay entryOf
  cases j pid with
  | none => rfl
  | some e => simp [Function.comp_def]

theorem latestSnapshot_entryOf (j : InMemoryJournal) :
    Journal.latestSnapshot pid j = .ok (entryOf pid j).snapshot := by
  change InMemoryJournal.latestSnapshot pid j = _
  unfold InMemoryJournal.latestSnapshot entryOf
  cases j pid with
  | none => rfl
  | some e => rfl

/-- A journal that stores a history is recovered to its fold and its length. -/
theorem recover_of_stores (j : InMemoryJournal) (history : List E) (h : Stores a pid j history) :
    recover a pid j =
      .ok (history.foldl a.applyEvent a.initialState, history.length) := by
  obtain ⟨log, dropped, hlog, hrep⟩ := h
  unfold recover
  rw [latestSnapshot_entryOf]
  cases hsnap : (entryOf pid j).snapshot with
  | none =>
    have hzero : dropped = 0 := hrep.dropped_zero hsnap
    have hreplay := hrep.replay (n := 0) (by omega)
    simp only [replay_entryOf, hreplay, List.drop_zero]
    simpa using replayInto_decoded a log history a.initialState 0 hlog
  | some snapshot =>
    obtain ⟨bytes, k⟩ := snapshot
    obtain ⟨hd, hk, events, hevents, hstate⟩ := hrep.covered bytes k hsnap
    have hprefix : events = history.take k :=
      List.right_unique_forall₂' (decodes_unique a) hevents (List.forall₂_take k hlog)
    have hlen : log.length = history.length := hlog.length_eq
    simp only [hstate, replay_entryOf, hrep.replay hd]
    rw [replayInto_decoded a (log.drop k) (history.drop k) _ k (List.forall₂_drop k hlog),
      hprefix, ← List.foldl_append, List.take_append_drop, List.length_drop]
    have hsum : k + (history.length - k) = history.length := by omega
    rw [hsum]

theorem persist_stores (j : InMemoryJournal) (history events : List E) (encoded : List Bytes)
    (h : Stores a pid j history) (henc : List.Forall₂ (Decodes a) encoded events) :
    Stores a pid (InMemoryJournal.persist pid encoded j).2 (history ++ events) := by
  obtain ⟨log, dropped, hlog, hrep⟩ := h
  refine ⟨log ++ encoded, dropped, List.rel_append hlog henc, ?_⟩
  have hentry : entryOf pid (InMemoryJournal.persist pid encoded j).2 =
      encoded.foldl Entry.push (entryOf pid j) := entryOf_update pid j _
  rw [hentry, Entry.foldl_push]
  exact hrep.append encoded

theorem persistEvents_sound (fails : Bool) (events : List E) (l : Live InMemoryJournal S E)
    (hl : Sound a pid l) : Sound a pid (persistEvents a pid fails events l) := by
  unfold persistEvents
  cases hencode : encodeAll a events with
  | error e => exact hl
  | ok encoded =>
    cases fails with
    | true => exact hl
    | false =>
      have henc := encodeAll_decodes a events encoded hencode
      refine ⟨?_, ?_, persist_stores a pid l.journal l.acknowledged events encoded hl.stores henc⟩
      · change events.foldl a.applyEvent l.state =
          (l.acknowledged ++ events).foldl a.applyEvent a.initialState
        rw [List.foldl_append, ← hl.state_eq]
      · change l.seqNr + events.length = (l.acknowledged ++ events).length
        rw [hl.seqNr_eq, List.length_append]

theorem saveSnapshot_stores (j : InMemoryJournal) (history : List E) (bytes : Bytes)
    (h : Stores a pid j history)
    (hbytes : a.stateSerde.fromSlice bytes =
      .ok (history.foldl a.applyEvent a.initialState)) :
    Stores a pid (InMemoryJournal.saveSnapshot pid bytes history.length j).2 history := by
  obtain ⟨log, dropped, hlog, hrep⟩ := h
  have hlen : history.length = log.length := hlog.length_eq.symm
  refine ⟨log, dropped, hlog, ?_⟩
  simp only [InMemoryJournal.saveSnapshot, entryOf_update, hlen]
  exact hrep.snapshotAll ⟨history, hlog, hbytes⟩

theorem deleteEventsBefore_stores (j : InMemoryJournal) (history : List E) (bytes : Bytes) (n : ℕ)
    (h : Stores a pid j history) (hsnap : (entryOf pid j).snapshot = some (bytes, n)) :
    Stores a pid (InMemoryJournal.deleteEventsBefore pid n j).2 history := by
  obtain ⟨log, dropped, hlog, hrep⟩ := h
  unfold InMemoryJournal.deleteEventsBefore
  cases hentry : j pid with
  | none => exact ⟨log, dropped, hlog, hrep⟩
  | some e =>
    have he : entryOf pid j = e := by simp [entryOf, hentry]
    rw [he] at hrep hsnap
    rw [hsnap] at hrep
    refine ⟨log, n, hlog, ?_⟩
    simp only [entryOf_update, hsnap]
    exact hrep.compact

/-- Every configuration of snapshotting is sound, also the one between saving the
snapshot and compacting the log. -/
theorem snapshotState_sound (faults : Faults) (l p : Live InMemoryJournal S E)
    (hl : Sound a pid l) (hp : p ∈ snapshotState a pid faults l) : Sound a pid p := by
  unfold snapshotState at hp
  cases hbytes : a.stateSerde.toVec l.state with
  | error e => simp [hbytes] at hp
  | ok bytes =>
    have hread := a.stateSerde.lossless _ _ hbytes
    rw [hl.state_eq] at hread
    cases hsave : faults.saveSnapshot with
    | true =>
      simp only [hbytes, hsave, faulty, if_true, List.mem_singleton] at hp
      subst p
      exact hl
    | false =>
      have hsaved := saveSnapshot_stores a pid l.journal l.acknowledged bytes hl.stores hread
      rw [← hl.seqNr_eq] at hsaved
      have hsnap : (entryOf pid
          (InMemoryJournal.saveSnapshot pid bytes l.seqNr l.journal).2).snapshot =
            some (bytes, l.seqNr) := by
        simp [InMemoryJournal.saveSnapshot]
      simp only [hbytes, hsave, faulty, Bool.false_eq_true, if_false] at hp
      rcases List.mem_pair.mp hp with rfl | rfl
      · exact ⟨hl.state_eq, hl.seqNr_eq, hsaved⟩
      · refine ⟨hl.state_eq, hl.seqNr_eq, ?_⟩
        cases faults.deleteEvents with
        | true => exact hsaved
        | false => exact deleteEventsBefore_stores a pid _ _ bytes l.seqNr hsaved hsnap

theorem perform_sound (faults : Faults) (effect : CommandEffect E)
    (l p : Live InMemoryJournal S E) (hl : Sound a pid l)
    (hp : p ∈ perform a pid faults effect l) : Sound a pid p := by
  cases effect with
  | none => simp [perform] at hp
  | stop => simp [perform] at hp
  | persist events =>
    obtain rfl : p = _ := List.mem_singleton.mp hp
    exact persistEvents_sound a pid _ events l hl
  | persistAndStop events =>
    obtain rfl : p = _ := List.mem_singleton.mp hp
    exact persistEvents_sound a pid _ events l hl
  | snapshot => exact snapshotState_sound a pid faults l p hl hp
  | persistAndSnapshot events =>
    have hpersisted := persistEvents_sound a pid faults.persist events l hl
    rcases List.mem_cons.mp hp with rfl | hp
    · exact hpersisted
    · exact snapshotState_sound a pid faults _ p hpersisted hp

theorem stores_absent (j : InMemoryJournal) (h : j pid = none) : Stores a pid j [] := by
  refine ⟨[], 0, List.Forall₂.nil, ?_⟩
  have hentry : entryOf pid j = Entry.default := by simp [entryOf, h]
  rw [hentry]
  exact Represents.nil

def boolSerde : Serde Bool where
  toVec b := .ok (if b then [116, 114, 117, 101] else [102, 97, 108, 115, 101])
  fromSlice bytes :=
    if bytes = [116, 114, 117, 101] then .ok true
    else if bytes = [102, 97, 108, 115, 101] then .ok false
    else .error "expected a boolean"
  lossless b bytes h := by
    cases Except.ok.inj h
    cases b <;> rfl

def toggle : EventSourcedActor Bool Bool where
  initialState := false
  applyEvent := xor
  stateSerde := boolSerde
  eventSerde := boolSerde

end October.RecoveryRefinesLive
