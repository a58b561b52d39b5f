import October.RecoveryRefinesLive
import October.LogTails

/-!
The same sequence of actor effects and snapshot copies run over the in-memory and
over the file journal. Both journals store a history for every id: effects append
the same events to both, whatever snapshots and compaction do, so recovery agrees.
Copies do not: the file journal keeps no snapshots and accepts a copy without
storing anything, so an id that a snapshot was copied onto starts empty there.
-/
namespace October.InterchangeableJournals

open RecoveryRefinesLive StampedLog WalkedPaths FileJournal LogTails

section Worlds

variable {S E J : Type} [Journal J]

inductive Op (E : Type) where
  | effect (pid : PersistenceId) (effect : CommandEffect E)
  | copy (source target : PersistenceId)

/-- A journal with the actors running on it, each with its state and number, and
the state last snapshotted for each id, which the code does not keep. -/
structure World (J S : Type) where
  journal : J
  live : PersistenceId → Option (S × ℕ)
  snapshotted : PersistenceId → Option S

def World.fresh (j : J) : World J S := ⟨j, fun _ => none, fun _ => none⟩

variable (a : EventSourcedActor S E)

def World.actor (w : World J S) (pid : PersistenceId) : JournalResult (S × ℕ) :=
  match w.live pid with
  | some state => .ok state
  | none => recover a pid w.journal

def World.start (w : World J S) (state : S × ℕ) : Live J S E := ⟨w.journal, state.1, state.2, []⟩

/-- The configurations an effect passes through, no journal call failing. -/
def World.points (w : World J S) (pid : PersistenceId) (effect : CommandEffect E)
    (state : S × ℕ) : List (Live J S E) :=
  perform a pid ⟨false, false, false⟩ effect (w.start state)

def World.settle (w : World J S) (pid : PersistenceId) (effect : CommandEffect E)
    (last : Live J S E) : World J S where
  journal := last.journal
  live := Function.update w.live pid
    (if effect.stops then none else some (last.state, last.seqNr))
  snapshotted :=
    if effect.snapshots && (a.stateSerde.toVec last.state).toBool then
      Function.update w.snapshotted pid (some last.state)
    else w.snapshotted

def World.step (w : World J S) : Op E → World J S
  | .effect pid effect =>
    match w.actor a pid with
    | .error _ => w
    | .ok state => w.settle a pid effect ((w.points a pid effect state).getLastD (w.start state))
  | .copy source target =>
    let copied := Journal.copySnapshot source target w.journal
    { w with
      journal := copied.2
      snapshotted :=
        if copied.1.toBool then Function.update w.snapshotted target (w.snapshotted source)
        else w.snapshotted }

def World.journalAt (w : World J S) (op : Op E) (i : ℕ) : J :=
  match op with
  | .effect pid effect =>
    match w.actor a pid with
    | .error _ => w.journal
    | .ok state => (((w.points a pid effect state)[i]?).map Live.journal).getD (w.step a op).journal
  | .copy _ _ => (w.step a op).journal

def recoveredState (pid : PersistenceId) (j : J) : JournalResult S :=
  (recover a pid j).map Prod.fst

def fold (history : List E) : S := history.foldl a.applyEvent a.initialState

theorem fold_append (history events : List E) :
    fold a (history ++ events) = events.foldl a.applyEvent (fold a history) :=
  List.foldl_append

def appended (effect : CommandEffect E) : List E :=
  match encodeAll a effect.events with
  | .error _ => []
  | .ok _ => effect.events

/-- How a journal stores the histories of these ids: recovery folds one, a persist
appends to it, a snapshot of its fold followed by compaction leaves it, and no call about
one id is seen by another. -/
structure HistoryStore (ids : Set PersistenceId) (J : Type) [Journal J] where
  stores : PersistenceId → J → List E → Prop
  recovers : ∀ pid j history, stores pid j history →
    recover a pid j = .ok (fold a history, history.length)
  persists : ∀ pid j history encoded events, stores pid j history →
    List.Forall₂ (Decodes a) encoded events →
      (Journal.persist pid encoded j).1 = .ok () ∧
        stores pid (Journal.persist pid encoded j).2 (history ++ events)
  saves : ∀ pid j history bytes, stores pid j history →
    a.stateSerde.fromSlice bytes = .ok (fold a history) →
      let saved := Journal.saveSnapshot pid bytes history.length j
      saved.1 = .ok () ∧ stores pid saved.2 history ∧
        stores pid (Journal.deleteEventsBefore pid history.length saved.2).2 history
  persist_other : ∀ pid other j history encoded, pid ∈ ids → other ∈ ids → other ≠ pid →
    stores other j history → stores other (Journal.persist pid encoded j).2 history
  save_other : ∀ pid other j history bytes n, pid ∈ ids → other ∈ ids → other ≠ pid →
    stores other j history → stores other (Journal.saveSnapshot pid bytes n j).2 history
  delete_other : ∀ pid other j history n, pid ∈ ids → other ∈ ids → other ≠ pid →
    stores other j history → stores other (Journal.deleteEventsBefore pid n j).2 history

variable {a} {ids : Set PersistenceId} (store : HistoryStore a ids J)

structure Sound (pid : PersistenceId) (history : PersistenceId → List E) (l : Live J S E) :
    Prop where
  stores : ∀ other ∈ ids, store.stores other l.journal (history other)
  state_eq : l.state = fold a (history pid)
  seqNr_eq : l.seqNr = (history pid).length

variable {pid : PersistenceId} {history : PersistenceId → List E} {l p : Live J S E}

theorem persistEvents_sound (hpid : pid ∈ ids) (effect : CommandEffect E)
    (h : Sound store pid history l) :
    Sound store pid (Function.update history pid (history pid ++ appended a effect))
      (persistEvents a pid false effect.events l) := by
  unfold persistEvents appended
  cases hencode : encodeAll a effect.events with
  | error e =>
    simp only [List.append_nil, Function.update_eq_self]
    exact h
  | ok encoded =>
    have henc := encodeAll_decodes a effect.events encoded hencode
    obtain ⟨hok, hstores⟩ := store.persists pid l.journal (history pid) encoded effect.events
      (h.stores pid hpid) henc
    have hcall : faulty false (Journal.persist pid encoded) l.journal =
        (.ok (), (Journal.persist pid encoded l.journal).2) := by
      rw [← hok]
      rfl
    simp only [hcall]
    refine ⟨?_, ?_, ?_⟩
    · intro other hmem
      by_cases hother : other = pid
      · subst hother
        simpa using hstores
      · rw [Function.update_of_ne hother]
        exact store.persist_other pid other l.journal _ encoded hpid hmem hother
          (h.stores other hmem)
    · rw [Function.update_self, fold_append, ← h.state_eq]
    · rw [Function.update_self, List.length_append, ← h.seqNr_eq]

/-- Saving a snapshot and compacting change no history. -/
theorem snapshotState_sound (hpid : pid ∈ ids) (h : Sound store pid history l)
    (hp : p ∈ snapshotState a pid ⟨false, false, false⟩ l) : Sound store pid history p := by
  unfold snapshotState at hp
  cases hbytes : a.stateSerde.toVec l.state with
  | error e => simp [hbytes] at hp
  | ok bytes =>
    have hread := a.stateSerde.lossless _ _ hbytes
    rw [h.state_eq] at hread
    obtain ⟨hok, hsaved, hcompacted⟩ := store.saves pid l.journal (history pid) bytes
      (h.stores pid hpid) hread
    rw [← h.seqNr_eq] at hok hsaved hcompacted
    have hcall : faulty false (Journal.saveSnapshot pid bytes l.seqNr) l.journal =
        (.ok (), (Journal.saveSnapshot pid bytes l.seqNr l.journal).2) := by
      rw [← hok]
      rfl
    have hother : ∀ other ∈ ids, other ≠ pid →
        store.stores other (Journal.saveSnapshot pid bytes l.seqNr l.journal).2
          (history other) := fun other hmem hne =>
      store.save_other pid other l.journal _ bytes l.seqNr hpid hmem hne (h.stores other hmem)
    simp only [hbytes, hcall] at hp
    rcases List.mem_pair.mp hp with rfl | rfl
    · refine ⟨fun other hmem => ?_, h.state_eq, h.seqNr_eq⟩
      by_cases hne : other = pid
      · exact hne ▸ hsaved
      · exact hother other hmem hne
    · refine ⟨fun other hmem => ?_, h.state_eq, h.seqNr_eq⟩
      by_cases hne : other = pid
      · exact hne ▸ hcompacted
      · exact store.delete_other pid other _ _ l.seqNr hpid hmem hne (hother other hmem hne)

/-- Every configuration of an effect has the history with its events appended. -/
theorem perform_sound (hpid : pid ∈ ids) (effect : CommandEffect E)
    (h : Sound store pid history l)
    (hp : p ∈ perform a pid ⟨false, false, false⟩ effect l) :
    Sound store pid (Function.update history pid (history pid ++ appended a effect)) p := by
  cases effect with
  | none => simp [perform] at hp
  | stop => simp [perform] at hp
  | persist events =>
    obtain rfl : p = _ := List.mem_singleton.mp hp
    exact persistEvents_sound store hpid (.persist events) h
  | persistAndStop events =>
    obtain rfl : p = _ := List.mem_singleton.mp hp
    exact persistEvents_sound store hpid (.persistAndStop events) h
  | snapshot =>
    have hsame : history pid ++ appended a (.snapshot : CommandEffect E) = history pid :=
      List.append_nil _
    rw [hsame, Function.update_eq_self]
    exact snapshotState_sound store hpid h hp
  | persistAndSnapshot events =>
    have hpersisted := persistEvents_sound store hpid (.persistAndSnapshot events) h
    rcases List.mem_cons.mp hp with rfl | hp
    · exact hpersisted
    · exact snapshotState_sound store hpid hpersisted hp

/-- An effect without a journal call appends nothing. -/
theorem appended_of_no_points (effect : CommandEffect E)
    (h : perform a pid ⟨false, false, false⟩ effect l = []) : appended a effect = [] := by
  cases effect with
  | none => rfl
  | stop => rfl
  | snapshot => rfl
  | persist events => simp [perform] at h
  | persistAndStop events => simp [perform] at h
  | persistAndSnapshot events => simp [perform] at h

/-- Every id has its history in the journal, and every running actor has its fold. -/
structure World.Tracks (w : World J S) (history : PersistenceId → List E) : Prop where
  stores : ∀ pid ∈ ids, store.stores pid w.journal (history pid)
  live : ∀ pid, w.live pid = none ∨
    w.live pid = some (fold a (history pid), (history pid).length)

variable {w : World J S}

/-- An id that is not live takes over a copied history. -/
theorem World.Tracks.copied (h : w.Tracks store history) {target : PersistenceId} {j : J}
    {snapshotted : PersistenceId → Option S} {events : List E}
    (hstores : store.stores target j events)
    (hother : ∀ pid ∈ ids, pid ≠ target → store.stores pid j (history pid))
    (hlive : w.live target = none) :
    ({ w with journal := j, snapshotted := snapshotted } : World J S).Tracks store
      (Function.update history target events) := by
  constructor
  · intro pid hmem
    by_cases hpid : pid = target
    · subst hpid
      rw [Function.update_self]
      exact hstores
    · rw [Function.update_of_ne hpid]
      exact hother pid hmem hpid
  · intro pid
    by_cases hpid : pid = target
    · subst hpid
      exact Or.inl hlive
    · rw [Function.update_of_ne hpid]
      exact h.live pid

theorem World.Tracks.actor (h : w.Tracks store history) {pid : PersistenceId} (hpid : pid ∈ ids) :
    w.actor a pid = .ok (fold a (history pid), (history pid).length) := by
  unfold World.actor
  rcases h.live pid with hnone | hsome
  · rw [hnone]
    exact store.recovers pid w.journal (history pid) (h.stores pid hpid)
  · rw [hsome]

theorem World.Tracks.recovered (h : w.Tracks store history) {pid : PersistenceId}
    (hpid : pid ∈ ids) : recoveredState a pid w.journal = .ok (fold a (history pid)) := by
  unfold recoveredState
  rw [store.recovers pid w.journal (history pid) (h.stores pid hpid)]
  rfl

/-- The last configuration of an effect. -/
theorem World.Tracks.last (h : w.Tracks store history) {pid : PersistenceId}
    (hpid : pid ∈ ids) (effect : CommandEffect E) :
    Sound store pid (Function.update history pid (history pid ++ appended a effect))
      ((w.points a pid effect (fold a (history pid), (history pid).length)).getLastD
        (w.start (fold a (history pid), (history pid).length))) := by
  have hstart : Sound store pid history (w.start (fold a (history pid), (history pid).length)) :=
    ⟨h.stores, rfl, rfl⟩
  rw [List.getLastD_eq_getLast?]
  cases hlast : (w.points a pid effect
      (fold a (history pid), (history pid).length)).getLast? with
  | none =>
    have hnil := appended_of_no_points effect (List.getLast?_eq_none_iff.mp hlast)
    rw [hnil, List.append_nil, Function.update_eq_self]
    exact hstart
  | some last => exact perform_sound store hpid effect hstart (List.mem_of_getLast? hlast)

theorem World.Tracks.step_effect (h : w.Tracks store history) {pid : PersistenceId}
    (hpid : pid ∈ ids) (effect : CommandEffect E) :
    w.step a (.effect pid effect) = w.settle a pid effect
      ((w.points a pid effect (fold a (history pid), (history pid).length)).getLastD
        (w.start (fold a (history pid), (history pid).length))) := by
  simp only [World.step, h.actor store hpid]

/-- An effect appends its events to the history of its id. -/
theorem World.Tracks.effect (h : w.Tracks store history) {pid : PersistenceId}
    (hpid : pid ∈ ids) (effect : CommandEffect E) :
    (w.step a (.effect pid effect)).Tracks store
      (Function.update history pid (history pid ++ appended a effect)) := by
  have hlast := h.last store hpid effect
  rw [h.step_effect store hpid effect]
  refine ⟨hlast.stores, ?_⟩
  intro other
  by_cases hother : other = pid
  · subst hother
    cases hstops : effect.stops with
    | true => exact Or.inl (by simp [World.settle, hstops])
    | false =>
      refine Or.inr ?_
      rw [← hlast.state_eq, ← hlast.seqNr_eq]
      simp [World.settle, hstops]
  · simpa only [World.settle, Function.update_of_ne hother] using h.live other

/-- Also between two journal calls of an effect every id recovers to its history. -/
theorem World.Tracks.recovered_at (h : w.Tracks store history) {pid other : PersistenceId}
    (hpid : pid ∈ ids) (hother : other ∈ ids) (effect : CommandEffect E) (i : ℕ) :
    recoveredState a other (w.journalAt a (.effect pid effect) i) =
      .ok (fold a (Function.update history pid (history pid ++ appended a effect) other)) := by
  have hnext := h.effect store hpid effect
  unfold World.journalAt
  simp only [h.actor store hpid]
  cases hpoint : (w.points a pid effect (fold a (history pid), (history pid).length))[i]? with
  | none => exact hnext.recovered store hother
  | some point =>
    have hstart : Sound store pid history
        (w.start (fold a (history pid), (history pid).length)) := ⟨h.stores, rfl, rfl⟩
    have hsound := perform_sound store hpid effect hstart (List.mem_of_getElem? hpoint)
    unfold recoveredState
    simp only [Option.map_some, Option.getD_some]
    rw [store.recovers other _ _ (hsound.stores other hother)]
    rfl

end Worlds

variable {S E : Type} (a : EventSourcedActor S E) (c : Codec)

def Op.within (ids : Set PersistenceId) : Op E → Prop
  | .effect pid _ => pid ∈ ids
  | .copy source target => source ∈ ids ∧ target ∈ ids

def FreshTargets : List PersistenceId → List (Op E) → Prop
  | _, [] => True
  | written, .effect pid _ :: rest => FreshTargets (pid :: written) rest
  | written, .copy _ target :: rest => target ∉ written ∧ FreshTargets (target :: written) rest

section Claims

variable (m : World InMemoryJournal S) (f : World (FileJournal c) S)

def SameRecovery (apart : Set PersistenceId) (j : InMemoryJournal) (k : FileJournal c) : Prop :=
  ∀ pid, pid ∉ apart → recoveredState a pid j = recoveredState a pid k

/-- A copy succeeds on both journals or on none, and after one that succeeds the
target recovers to the state last snapshotted for the source. -/
def CopyAgrees : Op E → Prop
  | .effect _ _ => True
  | .copy source target =>
    let copied := Journal.copySnapshot source target m.journal
    let copied' := Journal.copySnapshot source target f.journal
    (copied.1 = .ok () ↔ copied'.1 = .ok ()) ∧
      (copied.1 = .ok () → ∃ state, m.snapshotted source = some state ∧
        recoveredState a target copied.2 = .ok state ∧
        recoveredState a target copied'.2 = .ok state)

/-- The file journal accepts every copy and leaves the target empty; the in-memory
journal copies exactly what was last snapshotted for the source, if anything was. -/
def CopyDiffers : Op E → Prop
  | .effect _ _ => True
  | .copy source target =>
    let copied := Journal.copySnapshot source target m.journal
    let copied' := Journal.copySnapshot source target f.journal
    copied'.1 = .ok () ∧ recoveredState a target copied'.2 = .ok a.initialState ∧
      (copied.1 = .ok () ↔ (m.snapshotted source).isSome = true) ∧
      ∀ state, m.snapshotted source = some state →
        recoveredState a target copied.2 = .ok state

def parted (apart : Set PersistenceId) : Op E → Set PersistenceId
  | .effect _ _ => apart
  | .copy source target =>
    { pid | pid ∈ apart ∨
      pid = target ∧ ∃ state, m.snapshotted source = some state ∧ state ≠ a.initialState }

end Claims

def Interchangeable : List (Op E) → World InMemoryJournal S → World (FileJournal c) S → Prop
  | [], m, f => SameRecovery a c ∅ m.journal f.journal
  | op :: rest, m, f =>
    SameRecovery a c ∅ m.journal f.journal ∧
      (∀ i, SameRecovery a c ∅ (m.journalAt a op i) (f.journalAt a op i)) ∧
      CopyAgrees a c m f op ∧ Interchangeable rest (m.step a op) (f.step a op)

/-- The two journals agree over a sequence of operations on all ids but those that a
copied snapshot made different. -/
def AgreeApart : List (Op E) → Set PersistenceId → World InMemoryJournal S →
    World (FileJournal c) S → Prop
  | [], apart, m, f => SameRecovery a c apart m.journal f.journal
  | op :: rest, apart, m, f =>
    SameRecovery a c apart m.journal f.journal ∧
      (∀ i, SameRecovery a c (parted a m apart op) (m.journalAt a op i) (f.journalAt a op i)) ∧
      CopyDiffers a c m f op ∧
      AgreeApart rest (parted a m apart op) (m.step a op) (f.step a op)

section Stores

theorem stores_congr (pid : PersistenceId) (j j' : InMemoryJournal) (history : List E)
    (h : Stores a pid j history) (heq : j' pid = j pid) : Stores a pid j' history := by
  have hentry : entryOf pid j' = entryOf pid j := by simp [entryOf, heq]
  unfold Stores
  rw [hentry]
  exact h

theorem deleteEventsBefore_other (pid other : PersistenceId) (n : ℕ) (j : InMemoryJournal)
    (h : other ≠ pid) : (InMemoryJournal.deleteEventsBefore pid n j).2 other = j other := by
  unfold InMemoryJournal.deleteEventsBefore
  split
  · rfl
  · exact Function.update_of_ne h _ _

def memoryStore (ids : Set PersistenceId) : HistoryStore a ids InMemoryJournal where
  stores := Stores a
  recovers := recover_of_stores a
  persists pid j history encoded events h henc :=
    ⟨rfl, persist_stores a pid j history events encoded h henc⟩
  saves pid j history bytes h hread := by
    have hsaved := saveSnapshot_stores a pid j history bytes h hread
    have hheld : (entryOf pid (Journal.saveSnapshot pid bytes history.length j).2).snapshot =
        some (bytes, history.length) := by
      simp [Journal.saveSnapshot, InMemoryJournal.saveSnapshot]
    exact ⟨rfl, hsaved, deleteEventsBefore_stores a pid _ _ bytes history.length hsaved hheld⟩
  persist_other pid other j history encoded _ _ hne h :=
    stores_congr a other j _ history h (Function.update_of_ne hne _ _)
  save_other pid other j history bytes n _ _ hne h :=
    stores_congr a other j _ history h (Function.update_of_ne hne _ _)
  delete_other pid other j history n _ _ hne h :=
    stores_congr a other j _ history h (deleteEventsBefore_other pid other n j hne)

def FileStores (pid : PersistenceId) (f : FileJournal c) (history : List E) : Prop :=
  ∃ batches, (f.file pid).getD [] = fileOf c batches ∧
    List.Forall₂ (Decodes a) batches.flatten history

theorem recover_of_fileStores (pid : PersistenceId) (f : FileJournal c) (history : List E)
    (h : FileStores a c pid f history) :
    recover a pid f = .ok (fold a history, history.length) := by
  obtain ⟨batches, hfile, hdecodes⟩ := h
  have hdecode := decodeAfter_fileOf c batches [] 0 (by simp) rfl
  rw [List.append_nil, ← hfile] at hdecode
  have hreplay : Journal.replay pid 0 f = batches.flatten.map .ok := by
    rw [replay_eq]
    cases hread : f.file pid with
    | none =>
      rw [hread] at hdecode
      rw [← List.drop_zero (l := batches.flatten), ← hdecode]
      simp [decodeAfter, readToString, validUtf8, utf8From, LineLog.terminated, decodeLines]
    | some content =>
      rw [hread, Option.getD_some] at hdecode
      rw [hdecode, List.drop_zero]
  have hsnap : Journal.latestSnapshot pid f = .ok none := rfl
  unfold recover
  rw [hsnap]
  simp only [hreplay]
  rw [replayInto_decoded a batches.flatten history a.initialState 0 hdecodes, Nat.zero_add]
  rfl

theorem persist_fileStores (pid : PersistenceId) (f : FileJournal c) (history : List E)
    (encoded : List Bytes) (events : List E) (h : FileStores a c pid f history)
    (henc : List.Forall₂ (Decodes a) encoded events) :
    (FileJournal.persist c pid encoded f).1 = .ok () ∧
      FileStores a c pid (FileJournal.persist c pid encoded f).2 (history ++ events) := by
  obtain ⟨batches, hfile, hdecodes⟩ := h
  unfold FileJournal.persist
  by_cases hempty : encoded = []
  · subst hempty
    cases henc
    refine ⟨rfl, batches, ?_, ?_⟩
    · simpa using hfile
    · simpa using hdecodes
  · refine ⟨by simp [hempty], batches ++ [encoded], ?_, ?_⟩
    · simp [hempty, hfile, fileOf]
    · rw [List.flatten_append, List.flatten_singleton]
      exact List.rel_append hdecodes henc

theorem persist_root (pid : PersistenceId) (f : FileJournal c) (encoded : List Bytes) :
    (FileJournal.persist c pid encoded f).2.root = f.root := by
  unfold FileJournal.persist
  split <;> rfl

/-- Other files are left alone. -/
theorem persist_file_other (f : FileJournal c) {pid other : PersistenceId}
    (encoded : List Bytes) (h : journalPath f.root other ≠ journalPath f.root pid) :
    (FileJournal.persist c pid encoded f).2.file other = f.file other := by
  unfold FileJournal.persist
  split
  · rfl
  · exact file_setFile_of_ne f _ h

def fileStore {root : List FileName} {ids : Set PersistenceId} (hapart : Apart root ids) :
    HistoryStore a ids (FileJournal c) where
  stores pid f history := f.root = root ∧ FileStores a c pid f history
  recovers pid f history h := recover_of_fileStores a c pid f history h.2
  persists pid f history encoded events h henc := by
    obtain ⟨hok, hstores⟩ := persist_fileStores a c pid f history encoded events h.2 henc
    exact ⟨hok, (persist_root c pid f encoded).trans h.1, hstores⟩
  saves pid f history bytes h hread := ⟨rfl, h, h⟩
  persist_other pid other f history encoded hpid hmem hne h := by
    obtain ⟨hroot, batches, hfile, hdecodes⟩ := h
    subst hroot
    refine ⟨persist_root c pid f encoded, batches, ?_, hdecodes⟩
    rw [← hfile]
    exact congrArg (fun file => Option.getD file [])
      (persist_file_other c f encoded (hapart.path_ne hpid hmem hne))
  save_other pid other f history bytes n _ _ _ h := h
  delete_other pid other f history n _ _ _ h := h

end Stores

section Held

def heldState (j : InMemoryJournal) (pid : PersistenceId) : Option S :=
  (entryOf pid j).snapshot.bind (fun p => (a.stateSerde.fromSlice p.1).toOption)

theorem heldState_congr (pid : PersistenceId) (j j' : InMemoryJournal) (h : j' pid = j pid) :
    heldState a j' pid = heldState a j pid := by
  simp only [heldState, entryOf, h]

theorem persist_snapshot (pid : PersistenceId) (events : List Bytes) (j : InMemoryJournal) :
    (entryOf pid (InMemoryJournal.persist pid events j).2).snapshot = (entryOf pid j).snapshot := by
  simp only [InMemoryJournal.persist, entryOf_update, Entry.foldl_push]
  rfl

theorem deleteEventsBefore_snapshot (pid : PersistenceId) (n : ℕ) (j : InMemoryJournal) :
    (entryOf pid (InMemoryJournal.deleteEventsBefore pid n j).2).snapshot =
      (entryOf pid j).snapshot := by
  unfold InMemoryJournal.deleteEventsBefore
  split
  · rfl
  · rename_i e hentry
    simp only [entryOf_update]
    simp [entryOf, hentry]

theorem persistEvents_held (pid other : PersistenceId) (events : List E)
    (l : Live InMemoryJournal S E) :
    heldState a (persistEvents a pid false events l).journal other =
      heldState a l.journal other := by
  unfold persistEvents
  cases encodeAll a events with
  | error e => rfl
  | ok encoded =>
    by_cases hother : other = pid
    · subst hother
      exact congrArg (fun snapshot => Option.bind snapshot
        (fun p => (a.stateSerde.fromSlice p.1).toOption))
        (persist_snapshot other encoded l.journal)
    · exact heldState_congr a other _ _ (Function.update_of_ne hother _ _)

/-- What the held snapshots are after a snapshot was taken. -/
theorem snapshotState_held (pid other : PersistenceId) (l : Live InMemoryJournal S E) :
    let last := (snapshotState a pid ⟨false, false, false⟩ l).getLastD l
    last.state = l.state ∧ heldState a last.journal other =
      if (a.stateSerde.toVec l.state).toBool ∧ other = pid then some l.state
      else heldState a l.journal other := by
  unfold snapshotState
  cases hbytes : a.stateSerde.toVec l.state with
  | error e => simp [Except.toBool]
  | ok bytes =>
    have hread := a.stateSerde.lossless _ _ hbytes
    refine ⟨rfl, ?_⟩
    change heldState a (InMemoryJournal.deleteEventsBefore pid l.seqNr
      (InMemoryJournal.saveSnapshot pid bytes l.seqNr l.journal).2).2 other = _
    by_cases hother : other = pid
    · subst hother
      simp only [heldState, deleteEventsBefore_snapshot]
      simp [InMemoryJournal.saveSnapshot, hread, Except.toBool, Except.toOption]
    · rw [heldState_congr a other _ _ (deleteEventsBefore_other pid other l.seqNr _ hother),
        heldState_congr a other l.journal
          (InMemoryJournal.saveSnapshot pid bytes l.seqNr l.journal).2
          (Function.update_of_ne hother _ _)]
      simp [hother]

def HeldAfter (pid : PersistenceId) (effect : CommandEffect E) (j : InMemoryJournal)
    (last : Live InMemoryJournal S E) : Prop :=
  ∀ other, heldState a last.journal other =
    if (effect.snapshots && (a.stateSerde.toVec last.state).toBool) ∧ other = pid then
      some last.state
    else heldState a j other

theorem perform_held (pid : PersistenceId) (effect : CommandEffect E)
    (l : Live InMemoryJournal S E) :
    HeldAfter a pid effect l.journal
      ((perform a pid ⟨false, false, false⟩ effect l).getLastD l) := by
  intro other
  cases effect with
  | none => simp [perform, CommandEffect.snapshots]
  | stop => simp [perform, CommandEffect.snapshots]
  | persist events =>
    simpa [perform, CommandEffect.snapshots] using persistEvents_held a pid other events l
  | persistAndStop events =>
    simpa [perform, CommandEffect.snapshots] using persistEvents_held a pid other events l
  | snapshot =>
    obtain ⟨hstate, hheld⟩ := snapshotState_held a pid other l
    simp only [perform, CommandEffect.snapshots, Bool.true_and]
    rw [hheld, hstate]
  | persistAndSnapshot events =>
    have hkept := persistEvents_held a pid other events l
    obtain ⟨hstate, hheld⟩ := snapshotState_held a pid other (persistEvents a pid false events l)
    simp only [perform, CommandEffect.snapshots, Bool.true_and, List.getLastD_cons]
    rw [hheld, hstate, hkept]

end Held

variable {root : List FileName} {ids : Set PersistenceId} (hapart : Apart root ids)

/-- The two worlds run the same sequence: each journal stores its histories, which
fold alike outside `apart`; nothing was written to the file of an unwritten id. -/
structure Linked (written : List PersistenceId) (apart : Set PersistenceId)
    (memory file : PersistenceId → List E) (m : World InMemoryJournal S)
    (f : World (FileJournal c) S) : Prop where
  inMemory : m.Tracks (memoryStore a ids) memory
  inFile : f.Tracks (fileStore a c hapart) file
  outside : ∀ pid, pid ∉ apart → pid ∈ ids
  fold_eq : ∀ pid, pid ∉ apart → fold a (memory pid) = fold a (file pid)
  unwritten : ∀ pid, pid ∉ written → file pid = [] ∧ m.live pid = none
  held : ∀ pid, m.snapshotted pid = heldState a m.journal pid

variable {written : List PersistenceId} {apart : Set PersistenceId}
  {memory file : PersistenceId → List E} {m : World InMemoryJournal S}
  {f : World (FileJournal c) S}

theorem Linked.same (h : Linked a c hapart written apart memory file m f) :
    SameRecovery a c apart m.journal f.journal := by
  intro pid hpid
  have hmem := h.outside pid hpid
  rw [h.inMemory.recovered _ hmem, h.inFile.recovered _ hmem, h.fold_eq pid hpid]

/-- Histories that fold alike still do when the same events are appended to both. -/
theorem fold_update (pid other : PersistenceId) (events : List E)
    (h : fold a (memory other) = fold a (file other)) :
    fold a (Function.update memory pid (memory pid ++ events) other) =
      fold a (Function.update file pid (file pid ++ events) other) := by
  by_cases hother : other = pid
  · subst hother
    rw [Function.update_self, Function.update_self, fold_append, fold_append, h]
  · rw [Function.update_of_ne hother, Function.update_of_ne hother, h]

theorem Linked.same_at (h : Linked a c hapart written apart memory file m f)
    {pid : PersistenceId} (hpid : pid ∈ ids) (effect : CommandEffect E) (i : ℕ) :
    SameRecovery a c apart (m.journalAt a (.effect pid effect) i)
      (f.journalAt a (.effect pid effect) i) := by
  intro other hother
  have hmem := h.outside other hother
  rw [h.inMemory.recovered_at _ hpid hmem effect i, h.inFile.recovered_at _ hpid hmem effect i,
    fold_update a pid other _ (h.fold_eq other hother)]

/-- An effect keeps the worlds linked. -/
theorem Linked.effect (h : Linked a c hapart written apart memory file m f)
    {pid : PersistenceId} (hpid : pid ∈ ids) (effect : CommandEffect E) :
    Linked a c hapart (pid :: written) apart
      (Function.update memory pid (memory pid ++ appended a effect))
      (Function.update file pid (file pid ++ appended a effect))
      (m.step a (.effect pid effect)) (f.step a (.effect pid effect)) := by
  refine ⟨h.inMemory.effect _ hpid effect, h.inFile.effect _ hpid effect, h.outside, ?_, ?_, ?_⟩
  · intro other hother
    exact fold_update a pid other _ (h.fold_eq other hother)
  · intro other hmem
    obtain ⟨hother, hrest⟩ := not_or.mp (fun hor => hmem (List.mem_cons.mpr hor))
    rw [h.inMemory.step_effect _ hpid]
    simpa only [World.settle, Function.update_of_ne hother] using h.unwritten other hrest
  · intro other
    have hbefore := h.held other
    have hheld : HeldAfter a pid effect m.journal
        ((m.points a pid effect (fold a (memory pid), (memory pid).length)).getLastD
          (m.start (fold a (memory pid), (memory pid).length))) := perform_held a pid effect _
    rw [h.inMemory.step_effect _ hpid]
    generalize (m.points a pid effect (fold a (memory pid), (memory pid).length)).getLastD
      (m.start (fold a (memory pid), (memory pid).length)) = last at hheld ⊢
    simp only [World.settle, hheld other]
    by_cases hother : other = pid
    · subst hother
      split <;> simp_all
    · split <;> simp [hother, hbefore]

/-- A copied snapshot stores the prefix of the source's history it was taken of. -/
theorem copy_stores (source target : PersistenceId) (j : InMemoryJournal) (history : List E)
    (bytes : Bytes) (k : ℕ) (h : Stores a source j history)
    (hsnap : (entryOf source j).snapshot = some (bytes, k)) :
    ∃ copied, Stores a target (Function.update j target (some ⟨[], k, some (bytes, k)⟩)) copied ∧
      a.stateSerde.fromSlice bytes = .ok (fold a copied) := by
  obtain ⟨log, dropped, hlog, hrep⟩ := h
  obtain ⟨_, hk, events, hevents, hstate⟩ := hrep.covered bytes k hsnap
  have hcopied := List.forall₂_take k hlog
  have hprefix : events = history.take k :=
    List.right_unique_forall₂' (decodes_unique a) hevents hcopied
  subst hprefix
  refine ⟨history.take k, ⟨log.take k, k, hcopied, ?_⟩, hstate⟩
  rw [entryOf_update]
  have hlen : (log.take k).length = k := by
    rw [List.length_take]
    omega
  constructor
  · simp [stamp]
  · exact hlen.symm
  · intro hnone
    contradiction
  · intro b n heq
    obtain ⟨rfl, rfl⟩ : bytes = b ∧ k = n := by simpa using heq
    refine ⟨Nat.le_refl k, Nat.le_of_eq hlen.symm, history.take k, ?_, hstate⟩
    rw [List.take_take, Nat.min_self]
    exact hcopied

/-- A copy on the in-memory journal, by what was last snapshotted for the source. -/
theorem Linked.copySnapshot_cases (h : Linked a c hapart written apart memory file m f)
    {source : PersistenceId} (hsource : source ∈ ids) (target : PersistenceId) :
    (∃ error, m.snapshotted source = none ∧
        Journal.copySnapshot source target m.journal = (.error error, m.journal)) ∨
      ∃ bytes k state copied, m.snapshotted source = some state ∧
        Journal.copySnapshot source target m.journal =
          (.ok (), Function.update m.journal target (some ⟨[], k, some (bytes, k)⟩)) ∧
        Stores a target (Function.update m.journal target (some ⟨[], k, some (bytes, k)⟩))
          copied ∧
        a.stateSerde.fromSlice bytes = .ok state ∧ fold a copied = state := by
  have hheld := h.held source
  have hentry : (m.journal source).bind Entry.snapshot = (entryOf source m.journal).snapshot := by
    unfold entryOf
    cases m.journal source <;> rfl
  change (∃ error, _ ∧ InMemoryJournal.copySnapshot source target m.journal = _) ∨
    ∃ bytes k state copied, _ ∧ InMemoryJournal.copySnapshot source target m.journal = _ ∧ _
  unfold InMemoryJournal.copySnapshot heldState at *
  rw [hentry]
  cases hsnap : (entryOf source m.journal).snapshot with
  | none =>
    rw [hsnap] at hheld
    exact Or.inl ⟨_, hheld, rfl⟩
  | some snapshot =>
    obtain ⟨bytes, k⟩ := snapshot
    obtain ⟨copied, hstores, hread⟩ := copy_stores a source target m.journal (memory source)
      bytes k (h.inMemory.stores source hsource) hsnap
    rw [hsnap, Option.bind_some, hread] at hheld
    exact Or.inr ⟨bytes, k, fold a copied, copied, hheld, rfl, hstores, hread, rfl⟩

theorem Linked.copied_file (h : Linked a c hapart written apart memory file m f)
    {target : PersistenceId} (hmem : target ∈ ids) (htarget : target ∉ written) :
    recoveredState a target f.journal = .ok a.initialState := by
  rw [h.inFile.recovered _ hmem, (h.unwritten target htarget).1]
  rfl

/-- A copy behaves on each journal as told and keeps the worlds linked. -/
theorem Linked.copy (h : Linked a c hapart written apart memory file m f)
    {source target : PersistenceId} (hsource : source ∈ ids) (hmem : target ∈ ids)
    (htarget : target ∉ written) :
    CopyDiffers a c m f (.copy source target : Op E) ∧
      ∃ memory', Linked a c hapart (target :: written)
        (parted a m apart (.copy source target : Op E)) memory' file
        (m.step a (.copy source target)) (f.step a (.copy source target)) := by
  have hfile : Journal.copySnapshot source target f.journal = (.ok (), f.journal) := rfl
  have hempty := h.copied_file a c hapart hmem htarget
  obtain ⟨hnil, hlive⟩ := h.unwritten target htarget
  have hfstep : (f.step a (.copy source target)).Tracks (fileStore a c hapart) file :=
    ⟨h.inFile.stores, h.inFile.live⟩
  have hrest : ∀ pid, pid ∉ target :: written → file pid = [] ∧ m.live pid = none := by
    intro pid hmem
    exact h.unwritten pid (fun hwritten => hmem (List.mem_cons_of_mem _ hwritten))
  rcases h.copySnapshot_cases a c hapart hsource target with
    ⟨error, hnone, hcopy⟩ | ⟨bytes, k, state, copied, hsome, hcopy, hstores, hread, hfold⟩
  · have hmstep : m.step a (.copy source target) = m := by
      simp only [World.step, hcopy, Except.toBool, Bool.false_eq_true, if_false]
    refine ⟨?_, memory, ?_⟩
    · simp only [CopyDiffers, hcopy, hfile, hnone]
      exact ⟨trivial, hempty, by simp, by simp⟩
    · rw [hmstep]
      refine ⟨h.inMemory, hfstep, fun pid hpid => h.outside pid (fun h' => hpid (Or.inl h')), ?_,
        hrest, h.held⟩
      intro pid hpid
      exact h.fold_eq pid (fun h' => hpid (Or.inl h'))
  · have hother : ∀ pid ∈ ids, pid ≠ target → Stores a pid
        (Function.update m.journal target (some ⟨[], k, some (bytes, k)⟩)) (memory pid) :=
      fun pid hids hpid => stores_congr a pid m.journal _ (memory pid)
        (h.inMemory.stores pid hids) (Function.update_of_ne hpid _ _)
    refine ⟨?_, Function.update memory target copied, ?_⟩
    · simp only [CopyDiffers, hcopy, hfile, hsome]
      refine ⟨trivial, hempty, by simp, ?_⟩
      intro other heq
      obtain rfl := Option.some.inj heq
      unfold recoveredState
      rw [recover_of_stores a target _ copied hstores, ← hfold]
      rfl
    · have hmstep : m.step a (.copy source target) =
          { m with
            journal := Function.update m.journal target (some ⟨[], k, some (bytes, k)⟩)
            snapshotted := Function.update m.snapshotted target (some state) } := by
        simp only [World.step, hcopy, Except.toBool, if_true, hsome]
      rw [hmstep]
      refine ⟨h.inMemory.copied _ hstores hother hlive, hfstep,
        fun pid hpid => h.outside pid (fun h' => hpid (Or.inl h')), ?_, hrest, ?_⟩
      · intro pid hpid
        obtain ⟨houtside, hnot⟩ := not_or.mp hpid
        by_cases heq : pid = target
        · subst heq
          rw [Function.update_self, hfold, hnil]
          by_cases hstate : state = a.initialState
          · exact hstate
          · exact (hnot ⟨rfl, state, hsome, hstate⟩).elim
        · rw [Function.update_of_ne heq]
          exact h.fold_eq pid houtside
      · intro pid
        by_cases hpid : pid = target
        · subst hpid
          simp only [Function.update_self, heldState, entryOf_update, Option.bind_some, hread]
          rfl
        · simp only [Function.update_of_ne hpid, h.held pid]
          exact (heldState_congr a pid _ _ (Function.update_of_ne hpid _ _)).symm

theorem Linked.agreeApart (ops : List (Op E)) (hops : ∀ op ∈ ops, op.within ids)
    (h : Linked a c hapart written apart memory file m f) (hfresh : FreshTargets written ops) :
    AgreeApart a c ops apart m f := by
  induction ops generalizing written apart memory file m f with
  | nil => exact h.same
  | cons op rest ih =>
    have hop := hops op List.mem_cons_self
    have hrest : ∀ op' ∈ rest, op'.within ids := fun op' h' => hops op' (List.mem_cons_of_mem _ h')
    cases op with
    | effect pid effect =>
      exact ⟨h.same, h.same_at a c hapart hop effect, trivial,
        ih hrest (h.effect a c hapart hop effect) hfresh⟩
    | copy source target =>
      obtain ⟨htarget, hfresh⟩ := hfresh
      obtain ⟨hcopy, memory', hnext⟩ := h.copy a c hapart hop.1 hop.2 htarget
      exact ⟨h.same, fun _ => hnext.same, hcopy, ih hrest hnext hfresh⟩

/-- Started empty, the in-memory and the file journal agree over every sequence of
effects and copies onto fresh ids, at every journal call, on all ids whose files are apart but
those that a snapshot of another state than the initial one was copied onto. -/
theorem journals_agree (hapart : Apart root ids) (ops : List (Op E))
    (hops : ∀ op ∈ ops, op.within ids)
    (hfresh : FreshTargets [] ops) :
    AgreeApart a c ops { pid | pid ∉ ids } (World.fresh InMemoryJournal.new)
      (World.fresh (FileJournal.new root)) := by
  have hstart : Linked a c hapart [] { pid | pid ∉ ids } (fun _ => []) (fun _ => [])
      (World.fresh InMemoryJournal.new) (World.fresh (FileJournal.new root)) :=
    ⟨⟨fun pid _ => stores_absent a pid _ rfl, fun _ => Or.inl rfl⟩,
      ⟨fun _ _ => ⟨rfl, [], rfl, List.Forall₂.nil⟩, fun _ => Or.inl rfl⟩,
      fun _ hpid => Classical.not_not.mp hpid, fun _ _ => rfl, fun _ _ => ⟨rfl, rfl⟩,
      fun _ => rfl⟩
  exact hstart.agreeApart a c hapart ops hops hfresh

def forked : List (Op Bool) :=
  [.effect ⟨"agent", "s1"⟩ (.persistAndSnapshot [true]),
   .copy ⟨"agent", "s1"⟩ ⟨"agent", "s2"⟩,
   .effect ⟨"agent", "s2"⟩ (.persist [true])]

def sessions : Set PersistenceId := { pid | pid = ⟨"agent", "s1"⟩ ∨ pid = ⟨"agent", "s2"⟩ }

theorem apart_sessions : Apart [] sessions := by
  refine apart_plain [] (fun pid hpid => ?_)
  rcases hpid with rfl | rfl <;>
    exact ⟨⟨by decide, by decide, by decide, by decide⟩,
      ⟨by decide, by decide, by decide, by decide⟩⟩

theorem forked_within : ∀ op ∈ forked, op.within sessions := by
  simp [forked, Op.within, sessions]

theorem journals_agree_forked :
    AgreeApart toggle standardCodec forked { pid | pid ∉ sessions }
      (World.fresh InMemoryJournal.new) (World.fresh (FileJournal.new [])) :=
  journals_agree toggle standardCodec apart_sessions forked forked_within
    (by simp [FreshTargets, forked])

def copied : List (Op Bool) :=
  [.effect ⟨"agent", "s1"⟩ (.persistAndSnapshot [true]),
   .copy ⟨"agent", "s1"⟩ ⟨"agent", "s2"⟩]

def nested : List (Op Bool) := [.effect ⟨"agent", "x/s1"⟩ (.persist [true])]

/-- A copied snapshot is there in the in-memory journal and not in the file journal, and what
was written for one id the file journal recovers for another one whose path is the same. -/
theorem journals_differ :
    (FreshTargets [] copied ∧
      ¬ Interchangeable toggle standardCodec copied (World.fresh InMemoryJournal.new)
        (World.fresh (FileJournal.new []))) ∧
    FreshTargets [] nested ∧
      ¬ Interchangeable toggle standardCodec nested (World.fresh InMemoryJournal.new)
        (World.fresh (FileJournal.new [])) := by
  refine ⟨⟨by simp [FreshTargets, copied], ?_⟩, by simp [FreshTargets, nested], ?_⟩
  · rintro ⟨_, _, _, _, _, _, hsame⟩
    have hmemory : recoveredState toggle ⟨"agent", "s2"⟩ ((World.fresh InMemoryJournal.new).step
        toggle (.effect ⟨"agent", "s1"⟩ (.persistAndSnapshot [true])) |>.step toggle
          (.copy ⟨"agent", "s1"⟩ ⟨"agent", "s2"⟩)).journal = .ok true := by
      rfl
    have hfile : recoveredState toggle ⟨"agent", "s2"⟩ (((World.fresh (FileJournal.new []) :
        World (FileJournal standardCodec) Bool).step
        toggle (.effect ⟨"agent", "s1"⟩ (.persistAndSnapshot [true])) |>.step toggle
          (.copy ⟨"agent", "s1"⟩ ⟨"agent", "s2"⟩)).journal) = .ok false := by
      rfl
    have hstates := hsame ⟨"agent", "s2"⟩ (by simp)
    rw [hmemory, hfile] at hstates
    contradiction
  · rintro ⟨_, _, _, hsame⟩
    have hmemory : recoveredState toggle ⟨"agent/x", "s1"⟩ ((World.fresh InMemoryJournal.new).step
        toggle (.effect ⟨"agent", "x/s1"⟩ (.persist [true]))).journal = .ok false := by
      rfl
    have hfile : recoveredState toggle ⟨"agent/x", "s1"⟩ (((World.fresh (FileJournal.new []) :
        World (FileJournal standardCodec) Bool).step
        toggle (.effect ⟨"agent", "x/s1"⟩ (.persist [true]))).journal) = .ok true := by
      rfl
    have hstates := hsame ⟨"agent/x", "s1"⟩ (by simp)
    rw [hmemory, hfile] at hstates
    cases hstates

end October.InterchangeableJournals
