import Mathlib.Data.List.AList

/-!
The executor's registry of runtimes: one entry for each runtime id, with its state,
its restart count and the handle of the running instance. Every method is one
critical section. A handle stands for the reference the provider returned.
-/
namespace October

inductive RuntimeState where
  | creating
  | running
  | stopping
  | stopped
  | failed
  deriving DecidableEq, Repr

def RuntimeState.display : RuntimeState → String
  | .creating => "Creating"
  | .running => "Running"
  | .stopping => "Stopping"
  | .stopped => "Stopped"
  | .failed => "Failed"

structure RuntimeConfig where
  workingDir : String
  deriving DecidableEq, Repr

inductive RuntimeError where
  | alreadyExists (id : String)
  | notFound (id : String)
  | invalidTransition (source action : String)
  | provider (reason : String)
  deriving DecidableEq, Repr

def RuntimeError.display : RuntimeError → String
  | .alreadyExists id => "runtime already exists: " ++ id
  | .notFound id => "runtime not found: " ++ id
  | .invalidTransition source action =>
    "invalid state transition from " ++ source ++ ": cannot " ++ action
  | .provider reason => "provider error: " ++ reason

abbrev RuntimeHandle := ℕ

structure RuntimeEntry where
  id : String
  state : RuntimeState
  config : RuntimeConfig
  restartCount : UInt32
  handle : Option RuntimeHandle
  deriving DecidableEq

structure RuntimeInfo where
  runtimeId : String
  state : RuntimeState
  restartCount : UInt32
  deriving DecidableEq

/-- Every entry is filed under its own id. -/
structure RuntimeRegistry where
  entries : AList (fun _ : String => RuntimeEntry)
  filed : ∀ id entry, entries.lookup id = some entry → entry.id = id

namespace RuntimeRegistry

def new : RuntimeRegistry := ⟨∅, fun _ _ h => by contradiction⟩

def get (id : String) (r : RuntimeRegistry) : Option RuntimeEntry := r.entries.lookup id

def insert (entry : RuntimeEntry) (r : RuntimeRegistry) : RuntimeRegistry where
  entries := r.entries.insert entry.id entry
  filed := by
    intro id found h
    by_cases hid : id = entry.id
    · subst hid
      rw [AList.lookup_insert] at h
      cases Option.some.inj h
      rfl
    · rw [AList.lookup_insert_ne hid] at h
      exact r.filed id found h

def erase (id : String) (r : RuntimeRegistry) : RuntimeRegistry where
  entries := r.entries.erase id
  filed := by
    intro other found h
    by_cases hid : other = id
    · subst hid
      rw [AList.lookup_erase] at h
      contradiction
    · rw [AList.lookup_erase_ne hid] at h
      exact r.filed other found h

def beginCreate (id : String) (config : RuntimeConfig) (r : RuntimeRegistry) :
    Except RuntimeError Unit × RuntimeRegistry :=
  match r.get id with
  | some _ => (.error (.alreadyExists id), r)
  | none => (.ok (), r.insert ⟨id, .creating, config, 0, none⟩)

def completeCreate (id : String) (handle : RuntimeHandle) (r : RuntimeRegistry) :
    Except RuntimeError Unit × RuntimeRegistry :=
  match r.get id with
  | none => (.error (.notFound id), r)
  | some entry => (.ok (), r.insert { entry with state := .running, handle := some handle })

def markFailed (id : String) (r : RuntimeRegistry) : Except RuntimeError Unit × RuntimeRegistry :=
  match r.get id with
  | none => (.error (.notFound id), r)
  | some entry => (.ok (), r.insert { entry with state := .failed, handle := none })

def leavable : RuntimeState → Bool
  | .running => true
  | .failed => true
  | _ => false

def leave (id action : String) (f : RuntimeEntry → RuntimeEntry) (r : RuntimeRegistry) :
    Except RuntimeError (Option RuntimeHandle) × RuntimeRegistry :=
  match r.get id with
  | none => (.error (.notFound id), r)
  | some entry =>
    if leavable entry.state then (.ok entry.handle, r.insert (f entry))
    else (.error (.invalidTransition entry.state.display action), r)

def beginStop (id : String) :
    RuntimeRegistry → Except RuntimeError (Option RuntimeHandle) × RuntimeRegistry :=
  leave id "stop" (fun entry => { entry with state := .stopping, handle := none })

def completeStop (id : String) (r : RuntimeRegistry) : Except RuntimeError Unit × RuntimeRegistry :=
  match r.get id with
  | none => (.error (.notFound id), r)
  | some _ => (.ok (), r.erase id)

def beginRestart (id : String) :
    RuntimeRegistry → Except RuntimeError (Option RuntimeHandle) × RuntimeRegistry :=
  leave id "restart" (fun entry => { entry with
    state := .creating, restartCount := entry.restartCount + 1, handle := none })

/-- Snapshot all entries; the map's own order is not specified. -/
def list (r : RuntimeRegistry) : List RuntimeInfo :=
  r.entries.entries.map (fun e => ⟨e.2.id, e.2.state, e.2.restartCount⟩)

def runningHandle (entry : RuntimeEntry) : Option (String × RuntimeHandle) :=
  match entry.state with
  | .running => entry.handle.map (fun handle => (entry.id, handle))
  | _ => none

def runningHandles (r : RuntimeRegistry) : List (String × RuntimeHandle) :=
  r.entries.entries.filterMap (fun e => runningHandle e.2)

def getConfig (id : String) (r : RuntimeRegistry) : Option RuntimeConfig :=
  (r.get id).map RuntimeEntry.config

def getRestartCount (id : String) (r : RuntimeRegistry) : Option UInt32 :=
  (r.get id).map RuntimeEntry.restartCount

variable {id other : String} {entry : RuntimeEntry} {r : RuntimeRegistry}

@[simp] theorem get_insert_self : (r.insert entry).get entry.id = some entry :=
  AList.lookup_insert _

theorem get_insert_ne (h : other ≠ entry.id) : (r.insert entry).get other = r.get other :=
  AList.lookup_insert_ne h

@[simp] theorem get_erase_self : (r.erase id).get id = none := AList.lookup_erase _ _

theorem get_erase_ne (h : other ≠ id) : (r.erase id).get other = r.get other :=
  AList.lookup_erase_ne h

theorem id_of_get (h : r.get id = some entry) : entry.id = id := r.filed id entry h

/-- Refiling an entry of `id` with other contents. -/
theorem get_insert (r : RuntimeRegistry) (entry : RuntimeEntry) (h : entry.id = id) :
    (r.insert entry).get id = some entry := by
  subst h
  exact get_insert_self

theorem leave_cases (id action : String) (f : RuntimeEntry → RuntimeEntry) (r : RuntimeRegistry) :
    (∃ e, r.leave id action f = (.error e, r)) ∨
      ∃ entry, r.get id = some entry ∧
        r.leave id action f = (.ok entry.handle, r.insert (f entry)) := by
  unfold leave
  cases hentry : r.get id with
  | none => exact Or.inl ⟨_, rfl⟩
  | some entry =>
    by_cases hleave : leavable entry.state = true
    · exact Or.inr ⟨entry, rfl, if_pos hleave⟩
    · exact Or.inl ⟨_, if_neg hleave⟩

end RuntimeRegistry

end October
