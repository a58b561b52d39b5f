import October.Journal

/-!
The actor runtime: recovery from the latest snapshot and the events after it,
persisting, snapshotting with compaction, and the effect loop of one actor. Each
mutating journal call may be made to fail; a failed call leaves the journal as it
was. The loop is given as the configurations it passes through, one after every
journal call.
-/
namespace October

variable {S E J : Type} [Journal J]

structure Faults where
  persist : Bool
  saveSnapshot : Bool
  deleteEvents : Bool
  deriving DecidableEq, Repr

def faulty (fails : Bool) (call : J → JournalResult Unit × J) (j : J) :
    JournalResult Unit × J :=
  if fails then (.error (.backend "unavailable"), j) else call j

def replayInto (a : EventSourcedActor S E) :
    List (JournalResult Bytes) → S → ℕ → JournalResult (S × ℕ)
  | [], state, seqNr => .ok (state, seqNr)
  | .error e :: _, _, _ => .error e
  | .ok bytes :: rest, state, seqNr =>
    match a.eventSerde.fromSlice bytes with
    | .error e => .error (.serialization e)
    | .ok event => replayInto a rest (a.applyEvent state event) (seqNr + 1)

def recover (a : EventSourcedActor S E) (pid : PersistenceId) (j : J) : JournalResult (S × ℕ) :=
  match Journal.latestSnapshot pid j with
  | .error e => .error e
  | .ok none => replayInto a (Journal.replay pid 0 j) a.initialState 0
  | .ok (some (bytes, seq)) =>
    match a.stateSerde.fromSlice bytes with
    | .error e => .error (.serialization e)
    | .ok state => replayInto a (Journal.replay pid seq j) state seq

def encodeAll (a : EventSourcedActor S E) : List E → Except String (List Bytes)
  | [] => .ok []
  | event :: rest =>
    match a.eventSerde.toVec event with
    | .error e => .error e
    | .ok bytes =>
      match encodeAll a rest with
      | .error e => .error e
      | .ok encoded => .ok (bytes :: encoded)

/-- A running actor: the journal, its live state and sequence number, and the
events whose persist returned `Ok`, which the code itself does not keep. -/
structure Live (J S E : Type) where
  journal : J
  state : S
  seqNr : ℕ
  acknowledged : List E

/-- Persist `events`, then fold them; on failure state and number stay. -/
def persistEvents (a : EventSourcedActor S E) (pid : PersistenceId) (fails : Bool)
    (events : List E) (l : Live J S E) : Live J S E :=
  match encodeAll a events with
  | .error _ => l
  | .ok encoded =>
    match faulty fails (Journal.persist pid encoded) l.journal with
    | (.error _, j) => { l with journal := j }
    | (.ok _, j) =>
      { journal := j
        state := events.foldl a.applyEvent l.state
        seqNr := l.seqNr + events.length
        acknowledged := l.acknowledged ++ events }

def snapshotState (a : EventSourcedActor S E) (pid : PersistenceId) (faults : Faults)
    (l : Live J S E) : List (Live J S E) :=
  match a.stateSerde.toVec l.state with
  | .error _ => []
  | .ok bytes =>
    match faulty faults.saveSnapshot (Journal.saveSnapshot pid bytes l.seqNr) l.journal with
    | (.error _, j) => [{ l with journal := j }]
    | (.ok _, j) =>
      let saved := { l with journal := j }
      let compacted := faulty faults.deleteEvents (Journal.deleteEventsBefore pid l.seqNr) j
      [saved, { l with journal := compacted.2 }]

/-- One effect of the loop, as the configurations after each journal call. -/
def perform (a : EventSourcedActor S E) (pid : PersistenceId) (faults : Faults)
    (effect : CommandEffect E) (l : Live J S E) : List (Live J S E) :=
  match effect with
  | .none => []
  | .stop => []
  | .persist events => [persistEvents a pid faults.persist events l]
  | .persistAndStop events => [persistEvents a pid faults.persist events l]
  | .snapshot => snapshotState a pid faults l
  | .persistAndSnapshot events =>
    let persisted := persistEvents a pid faults.persist events l
    persisted :: snapshotState a pid faults persisted

end October
