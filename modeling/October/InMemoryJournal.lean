import October.Journal
import October.StampedLog

/-!
The in-memory journal. An entry keeps its numbered events, the number assigned
last and the latest snapshot; compaction never changes a number.
-/
namespace October

structure Entry where
  events : List (ℕ × Bytes)
  lastSeq : ℕ
  snapshot : Option (Bytes × ℕ)
  deriving DecidableEq, Repr

namespace Entry

def default : Entry := ⟨[], 0, none⟩

/-- One iteration of the loop of `persist`: assign the next number, then push. -/
def push (e : Entry) (bytes : Bytes) : Entry :=
  { e with lastSeq := e.lastSeq + 1, events := e.events ++ [(e.lastSeq + 1, bytes)] }

theorem foldl_push (e : Entry) (events : List Bytes) :
    events.foldl push e =
      { e with
        lastSeq := e.lastSeq + events.length
        events := e.events ++ StampedLog.stamp e.lastSeq events } := by
  induction events generalizing e with
  | nil => simp [StampedLog.stamp]
  | cons bytes rest ih =>
    rw [List.foldl_cons, ih]
    simp [push, StampedLog.stamp, Nat.add_assoc, Nat.add_comm 1]

end Entry

abbrev InMemoryJournal := PersistenceId → Option Entry

namespace InMemoryJournal

def new : InMemoryJournal := fun _ => none

def persist (pid : PersistenceId) (events : List Bytes) (j : InMemoryJournal) :
    JournalResult Unit × InMemoryJournal :=
  let entry := (j pid).getD Entry.default
  (.ok (), Function.update j pid (some (events.foldl Entry.push entry)))

def replay (pid : PersistenceId) (afterSeq : ℕ) (j : InMemoryJournal) :
    List (JournalResult Bytes) :=
  match j pid with
  | none => []
  | some e => (e.events.filter (fun p => decide (afterSeq < p.1))).map (fun p => .ok p.2)

def saveSnapshot (pid : PersistenceId) (state : Bytes) (seqNr : ℕ) (j : InMemoryJournal) :
    JournalResult Unit × InMemoryJournal :=
  let entry := (j pid).getD Entry.default
  (.ok (), Function.update j pid
    (some { entry with lastSeq := max entry.lastSeq seqNr, snapshot := some (state, seqNr) }))

def latestSnapshot (pid : PersistenceId) (j : InMemoryJournal) :
    JournalResult (Option (Bytes × ℕ)) :=
  .ok ((j pid).bind Entry.snapshot)

def deleteEventsBefore (pid : PersistenceId) (seqNr : ℕ) (j : InMemoryJournal) :
    JournalResult Unit × InMemoryJournal :=
  match j pid with
  | none => (.ok (), j)
  | some e => (.ok (), Function.update j pid
      (some { e with events := e.events.filter (fun p => decide (seqNr < p.1)) }))

def copySnapshot (source target : PersistenceId) (j : InMemoryJournal) :
    JournalResult Unit × InMemoryJournal :=
  match (j source).bind Entry.snapshot with
  | none => (.error (.backend ("no snapshot for '" ++ source.display ++ "'")), j)
  | some snapshot => (.ok (), Function.update j target (some ⟨[], snapshot.2, some snapshot⟩))

def clear (pid : PersistenceId) (j : InMemoryJournal) : JournalResult Unit × InMemoryJournal :=
  (.ok (), Function.update j pid none)

instance : Journal InMemoryJournal where
  persist := persist
  replay := replay
  saveSnapshot := saveSnapshot
  latestSnapshot := latestSnapshot
  deleteEventsBefore := deleteEventsBefore
  copySnapshot := copySnapshot
  clear := clear

end InMemoryJournal

end October
