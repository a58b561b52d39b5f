import October.LogTails
import October.WholeBatches

/-!
Persists of one file journal log that fail at any of their I/O calls. A call that
fails before its first byte leaves the log as it was. A call that fails later
leaves a trace: behind a part of a line the next batch is lost, and a whole line
whose flush or sync failed is replayed although its persist returned an error.
-/
namespace October.FailedPersists

open LineLog WalkedPaths FileJournal LogTails WholeBatches

variable (c : Codec) (root : List FileName) (pid : PersistenceId)

/-- The I/O calls of `persist`; `writeAll n` fails after `n` bytes. -/
inductive IoStep where
  | createDirAll
  | openFile
  | writeAll (n : ℕ)
  | flush
  | syncAll
  deriving DecidableEq, Repr

structure Call where
  events : List Bytes
  fault : Option (IoStep × String)
  deriving DecidableEq, Repr

def sound (events : List Bytes) : Call := ⟨events, none⟩

def persist (call : Call) (j : FileJournal c) : JournalResult Unit × FileJournal c :=
  if call.events = [] then (.ok (), j)
  else
    let content := (j.file pid).getD []
    let appended := fun bytes => j.setFile pid (some (content ++ bytes))
    match call.fault with
    | none => (.ok (), appended (line c call.events))
    | some (.createDirAll, message) => (.error (.backend message), j)
    | some (.openFile, message) => (.error (.backend message), j)
    | some (.writeAll n, message) =>
      (.error (.backend message), appended ((line c call.events).take n))
    | some (.flush, message) => (.error (.backend message), appended (line c call.events))
    | some (.syncAll, message) => (.error (.backend message), appended (line c call.events))

def logAfter (calls : List Call) : FileJournal c :=
  calls.foldl (fun j call => (persist c pid call j).2) (FileJournal.new root)

def Call.fails (call : Call) : Bool := !call.events.isEmpty && call.fault.isSome

/-- The call fails after a byte of its line has reached the file. -/
def Call.late (call : Call) : Bool :=
  !call.events.isEmpty &&
    match call.fault with
    | some (.writeAll n, _) => decide (0 < n)
    | some (.flush, _) => true
    | some (.syncAll, _) => true
    | _ => false

def acknowledged (calls : List Call) : List (List Bytes) :=
  (calls.filter (fun call => !call.fails)).map Call.events

/-- After the failed call replay yields what it yielded before, and after further
successful calls it yields the events of all acknowledged batches. -/
structure NoTrace (prior : List Call) (call : Call) : Prop where
  unchanged : ∀ k, Journal.replay pid k (logAfter c root pid (prior ++ [call])) =
    Journal.replay pid k (logAfter c root pid prior)
  agrees : ∀ k further, Journal.replay pid k (logAfter c root pid
      (prior ++ call :: further.map sound)) =
    ((acknowledged prior ++ further).flatten.drop k).map .ok

def FailuresLeaveNoTrace (calls : List Call) : Prop :=
  ∀ prior call rest, calls = prior ++ call :: rest →
    (persist c pid call (logAfter c root pid prior)).1 ≠ .ok () → NoTrace c root pid prior call

/-- A line that starts with a part of another line holds no batch. Base64 decodes
in groups of four symbols, and JSON has one array in a text. -/
structure Strict : Prop where
  decode_splice : ∀ (x y z : Bytes) (n : ℕ), 0 < n → n ≤ (c.encode x).length →
    c.decode ((c.encode x).take n ++ c.encode y) = some z → ∃ m, 0 < m ∧ z = x.take m ++ y
  fromJson_splice : ∀ (events events' : List Bytes) (m : ℕ), 0 < m → events' ≠ [] →
    c.fromJson ((c.toJson (events.map c.encode)).take m ++
      c.toJson (events'.map c.encode)) = none

theorem strict_standardCodec : Strict standardCodec where
  decode_splice := Base64.decode_splice
  fromJson_splice events events' m hm hne := by
    obtain ⟨m, rfl⟩ : ∃ k, m = k + 1 := ⟨m - 1, by omega⟩
    obtain ⟨event, rest, rfl⟩ := List.exists_cons_of_ne_nil hne
    exact StandardCodec.fromJson_front _ _ _
      (StandardCodec.notMem_encode event 44 (by simp [Base64.Plain]))

theorem fails_iff (call : Call) (j : FileJournal c) :
    (persist c pid call j).1 ≠ .ok () ↔ call.fails = true := by
  unfold persist Call.fails
  by_cases hempty : call.events = []
  · simp [hempty]
  · simp only [hempty, if_false]
    cases call.fault with
    | none => simp
    | some fault =>
      obtain ⟨step, message⟩ := fault
      cases step <;> simp [hempty]

def Call.written (call : Call) : Bytes :=
  if call.events = [] then []
  else
    match call.fault with
    | none => line c call.events
    | some (.createDirAll, _) => []
    | some (.openFile, _) => []
    | some (.writeAll n, _) => (line c call.events).take n
    | some (.flush, _) => line c call.events
    | some (.syncAll, _) => line c call.events

theorem persist_file (call : Call) (j : FileJournal c) :
    ((persist c pid call j).2.file pid).getD [] = (j.file pid).getD [] ++ call.written c := by
  unfold persist Call.written
  by_cases hempty : call.events = []
  · simp [hempty]
  · simp only [hempty, if_false]
    cases call.fault with
    | none => simp
    | some fault =>
      obtain ⟨step, message⟩ := fault
      cases step <;> simp

theorem foldl_persist_file (calls : List Call) (j : FileJournal c) :
    ((calls.foldl (fun j call => (persist c pid call j).2) j).file pid).getD [] =
      (j.file pid).getD [] ++ calls.flatMap (Call.written c) := by
  induction calls generalizing j with
  | nil => simp
  | cons call rest ih =>
    rw [List.foldl_cons, ih, persist_file, List.flatMap_cons, List.append_assoc]

theorem logAfter_file (calls : List Call) :
    ((logAfter c root pid calls).file pid).getD [] = calls.flatMap (Call.written c) := by
  unfold logAfter
  rw [foldl_persist_file]
  rfl

/-- Replay depends on the bytes of the file alone; a missing file reads as empty. -/
theorem replay_of_file (k : ℕ) (j : FileJournal c) :
    Journal.replay pid k j = (decodeAfter c k (some ((j.file pid).getD []))).map .ok := by
  rw [replay_eq]
  cases hread : j.file pid with
  | none => simp [decodeAfter, readToString, validUtf8, utf8From, terminated, decodeLines]
  | some content => simp

/-- A call that is not late appends a line if it succeeds and nothing if it fails. -/
theorem written_of_not_late (call : Call) (h : call.late = false) :
    call.written c = if call.fails then [] else
      fileOf c ([call.events].filter (fun events => !events.isEmpty)) := by
  unfold Call.late at h
  unfold Call.written Call.fails
  by_cases hempty : call.events = []
  · simp [hempty, fileOf]
  · cases hfault : call.fault with
    | none => simp [hempty, fileOf]
    | some fault =>
      obtain ⟨step, message⟩ := fault
      cases step <;> simp_all

theorem acknowledged_cons (call : Call) (rest : List Call) :
    acknowledged (call :: rest) =
      if call.fails then acknowledged rest else call.events :: acknowledged rest := by
  cases hfails : call.fails <;> simp [acknowledged, hfails]

theorem written_of_none_late (calls : List Call) (h : ∀ call ∈ calls, call.late = false) :
    calls.flatMap (Call.written c) =
      fileOf c ((acknowledged calls).filter (fun events => !events.isEmpty)) := by
  induction calls with
  | nil => rfl
  | cons call rest ih =>
    have hcall := written_of_not_late c call (h call List.mem_cons_self)
    have hrest := ih (fun call hmem => h call (List.mem_cons_of_mem _ hmem))
    rw [List.flatMap_cons, hcall, hrest, acknowledged_cons]
    cases hfails : call.fails with
    | true => simp
    | false => by_cases hempty : call.events = [] <;> simp [hempty, fileOf]

/-- As long as no call was late, replay yields the acknowledged batches. -/
theorem replay_of_none_late (calls : List Call) (h : ∀ call ∈ calls, call.late = false) (k : ℕ) :
    Journal.replay pid k (logAfter c root pid calls) =
      ((acknowledged calls).flatten.drop k).map .ok := by
  have hdecode := decodeAfter_fileOf c
    ((acknowledged calls).filter (fun events => !events.isEmpty)) [] k (by simp) rfl
  rw [List.append_nil, flatten_filter] at hdecode
  rw [replay_of_file, logAfter_file, written_of_none_late c calls h, hdecode]

theorem late_sound (events : List Bytes) : (sound events).late = false := by
  simp [Call.late, sound]

theorem acknowledged_sound (further : List (List Bytes)) :
    acknowledged (further.map sound) = further := by
  induction further with
  | nil => rfl
  | cons events rest ih =>
    rw [List.map_cons, acknowledged_cons, ih]
    simp [Call.fails, sound]

theorem acknowledged_append (calls calls' : List Call) :
    acknowledged (calls ++ calls') = acknowledged calls ++ acknowledged calls' := by
  simp [acknowledged]

/-- A call that failed before its first byte left no trace. -/
theorem noTrace_of_not_late (prior : List Call) (call : Call) (hfails : call.fails = true)
    (hprior : ∀ earlier ∈ prior, earlier.late = false) (hcall : call.late = false) :
    NoTrace c root pid prior call := by
  have hall : ∀ further : List (List Bytes),
      ∀ any ∈ prior ++ call :: further.map sound, any.late = false := by
    intro further any hmem
    rcases List.mem_append.mp hmem with hmem | hmem
    · exact hprior any hmem
    · rcases List.mem_cons.mp hmem with rfl | hmem
      · exact hcall
      · obtain ⟨events, _, rfl⟩ := List.mem_map.mp hmem
        exact late_sound events
  have hacked : ∀ further : List (List Bytes),
      acknowledged (prior ++ call :: further.map sound) = acknowledged prior ++ further := by
    intro further
    rw [acknowledged_append, acknowledged_cons, acknowledged_sound, hfails, if_pos rfl]
  constructor
  · intro k
    have hone := hall []
    have hsame := hacked []
    rw [List.map_nil] at hone hsame
    rw [replay_of_none_late c root pid _ hone, replay_of_none_late c root pid _ hprior, hsame,
      List.append_nil]
  · intro k further
    rw [replay_of_none_late c root pid _ (hall further), hacked]

/-- A part of a line before another line is not read as a batch. -/
theorem lineTexts_splice (hc : Strict c) (events events' : List Bytes) (n : ℕ) (hn : 0 < n)
    (hle : n ≤ (batchText c events).length) (hne : events' ≠ []) :
    lineTexts c ((batchText c events).take n ++ batchText c events') = none := by
  unfold lineTexts
  split
  · rfl
  · cases hdecode : c.decode ((batchText c events).take n ++ batchText c events') with
    | none => rfl
    | some json =>
      obtain ⟨m, hm, rfl⟩ := hc.decode_splice _ _ _ n hn hle hdecode
      exact hc.fromJson_splice events events' m hm hne

/-- The batch behind a part of a line is lost. -/
theorem decodeAfter_torn (hc : Strict c) (batches : List (List Bytes)) (events events' : List Bytes)
    (n : ℕ) (hn : 0 < n) (hle : n ≤ (batchText c events).length) (hne : events' ≠ []) :
    decodeAfter c 0 (some (fileOf c batches ++ ((batchText c events).take n ++
      line c events'))) = batches.flatten := by
  have hascii : ∀ b ∈ fileOf c batches ++ ((batchText c events).take n ++ line c events'),
      b < 128 := by
    intro b hb
    simp only [List.mem_append] at hb
    rcases hb with hb | hb | hb
    · exact fileOf_ascii c batches b hb
    · exact c.encode_ascii _ b (List.mem_of_mem_take hb)
    · exact line_ascii c events' b hb
  have hvalid : validUtf8 (fileOf c batches ++ ((batchText c events).take n ++
      line c events')) = true := utf8From_ascii _ _ _ hascii
  have hlines : ∀ text ∈ batches.map (batchText c), newline ∉ text := by
    intro text htext
    obtain ⟨events, _, rfl⟩ := List.mem_map.mp htext
    exact newline_notMem_batchText c events
  have hspliced : newline ∉ (batchText c events).take n ++ batchText c events' := by
    intro hmem
    rcases List.mem_append.mp hmem with hmem | hmem
    · exact newline_notMem_batchText c events (List.mem_of_mem_take hmem)
    · exact newline_notMem_batchText c events' hmem
  have hone : terminated newline ((batchText c events).take n ++ line c events') =
      [(batchText c events).take n ++ batchText c events'] := by
    have h := terminated_terminate newline
      [(batchText c events).take n ++ batchText c events'] [] (by simpa using hspliced)
    simpa [terminate, line, terminated] using h
  have htexts := lineTexts_splice c hc events events' n hn hle hne
  simp only [decodeAfter, readToString, hvalid, if_true]
  rw [← terminate_batchText, terminated_terminate newline _ _ hlines, hone,
    decodeLines_batches, decodeLines_eq]
  simp [wholeLines, brokenPart, lineEvents, htexts]

/-- A late call has appended its whole line, or a part of it without the newline. -/
theorem written_of_late (call : Call) (h : call.late = true) :
    call.events ≠ [] ∧ (call.written c = line c call.events ∨
      ∃ n, 0 < n ∧ n ≤ (batchText c call.events).length ∧
        call.written c = (batchText c call.events).take n) := by
  unfold Call.late at h
  obtain ⟨hempty, hlate⟩ := Bool.and_eq_true_iff.mp h
  have hne : call.events ≠ [] := by simpa using hempty
  refine ⟨hne, ?_⟩
  unfold Call.written
  cases hfault : call.fault with
  | none => simp [hfault] at hlate
  | some fault =>
    obtain ⟨step, message⟩ := fault
    cases step with
    | createDirAll => simp [hfault] at hlate
    | openFile => simp [hfault] at hlate
    | flush => exact Or.inl (by simp [hne])
    | syncAll => exact Or.inl (by simp [hne])
    | writeAll n =>
      have hpos : 0 < n := by simpa [hfault] using hlate
      have hlen : (line c call.events).length = (batchText c call.events).length + 1 := by
        simp [line]
      by_cases hpart : n ≤ (batchText c call.events).length
      · refine Or.inr ⟨n, hpos, hpart, ?_⟩
        simp only [hne, if_false, line]
        exact List.take_append_of_le_length hpart
      · refine Or.inl ?_
        simp only [hne, if_false]
        exact List.take_of_length_le (by omega)

/-- A call that failed later left a trace. -/
theorem trace_of_late (hc : Strict c) (prior : List Call) (call : Call)
    (hprior : ∀ earlier ∈ prior, earlier.late = false) (hcall : call.late = true) :
    ¬ NoTrace c root pid prior call := by
  intro h
  have hfile := written_of_none_late c prior hprior
  have hflatten := flatten_filter (acknowledged prior)
  obtain ⟨hne, hwhole | ⟨n, hpos, hle, hpart⟩⟩ := written_of_late c call hcall
  · have hreplay := h.agrees 0 []
    have hdecode := decodeAfter_fileOf c
      ((acknowledged prior).filter (fun events => !events.isEmpty) ++ [call.events]) [] 0
      (by simp) rfl
    have hlines : fileOf c ((acknowledged prior).filter (fun events => !events.isEmpty)) ++
        line c call.events =
          fileOf c ((acknowledged prior).filter (fun events => !events.isEmpty) ++
            [call.events]) := by
      simp [fileOf]
    rw [List.append_nil, List.drop_zero, List.flatten_append, hflatten] at hdecode
    rw [replay_of_file, logAfter_file, List.map_nil, List.flatMap_append, hfile,
      List.flatMap_singleton, hwhole, hlines, hdecode] at hreplay
    have hlen := congrArg List.length hreplay
    have hevents : 0 < call.events.length := List.length_pos_iff.mpr hne
    simp only [List.length_map, List.length_append, List.flatten_singleton, List.append_nil,
      List.drop_zero] at hlen
    omega
  · have hreplay := h.agrees 0 [[[]]]
    have hdecode := decodeAfter_torn c hc
      ((acknowledged prior).filter (fun events => !events.isEmpty)) call.events [[]] n hpos hle
      (by simp)
    have hsound : (sound [[]]).written c = line c [[]] := by simp [Call.written, sound]
    rw [hflatten] at hdecode
    rw [replay_of_file, logAfter_file, List.map_singleton, List.flatMap_append, hfile,
      List.flatMap_cons, List.flatMap_singleton, hpart, hsound, hdecode] at hreplay
    have hlen := congrArg List.length hreplay
    simp at hlen

/-- The calls of a history split at the first late one. -/
theorem exists_first_late (calls : List Call) (h : ∃ call ∈ calls, call.late = true) :
    ∃ prior call rest, calls = prior ++ call :: rest ∧ call.late = true ∧
      ∀ earlier ∈ prior, earlier.late = false := by
  induction calls with
  | nil => simp at h
  | cons head tail ih =>
    by_cases hhead : head.late = true
    · exact ⟨[], head, tail, rfl, hhead, by simp⟩
    · obtain ⟨call, hmem, hlate⟩ := h
      have htail : call ∈ tail := by
        rcases List.mem_cons.mp hmem with rfl | htail
        · contradiction
        · exact htail
      obtain ⟨prior, first, rest, rfl, hfirst, hprior⟩ := ih ⟨call, htail, hlate⟩
      refine ⟨head :: prior, first, rest, rfl, hfirst, ?_⟩
      intro earlier hearlier
      rcases List.mem_cons.mp hearlier with rfl | hearlier
      · simpa using hhead
      · exact hprior earlier hearlier

theorem fails_of_late (call : Call) (h : call.late = true) : call.fails = true := by
  unfold Call.late at h
  unfold Call.fails
  obtain ⟨hempty, hlate⟩ := Bool.and_eq_true_iff.mp h
  cases hfault : call.fault with
  | none => simp [hfault] at hlate
  | some fault => simpa using hempty

/-- In any history of one log the calls that returned an error left no trace
exactly if each of them failed before its first byte reached the file. -/
theorem failures_leave_no_trace_iff (hc : Strict c) (calls : List Call) :
    FailuresLeaveNoTrace c root pid calls ↔ ∀ call ∈ calls, call.late = false := by
  constructor
  · intro h call hmem
    by_cases hlate : call.late = true
    · obtain ⟨prior, first, rest, heq, hfirst, hprior⟩ :=
        exists_first_late calls ⟨call, hmem, hlate⟩
      have herror := (fails_iff c pid first (logAfter c root pid prior)).mpr
        (fails_of_late first hfirst)
      have htrace := h prior first rest heq herror
      exact (trace_of_late c root pid hc prior first hprior hfirst htrace).elim
    · simpa using hlate
  · intro h prior call rest heq herror
    subst heq
    have hfails := (fails_iff c pid call (logAfter c root pid prior)).mp herror
    refine noTrace_of_not_late c root pid prior call hfails ?_ (h call (by simp))
    intro earlier hearlier
    exact h earlier (List.mem_append_left _ hearlier)

theorem failures_leave_no_trace_iff_open :
    FailuresLeaveNoTrace standardCodec [] ⟨"test", "r1"⟩
        [sound [[1]], ⟨[[2]], some (.openFile, "permission denied")⟩] ↔
      ∀ call ∈ [sound [[1]], ⟨[[2]], some (.openFile, "permission denied")⟩],
        call.late = false :=
  failures_leave_no_trace_iff standardCodec [] ⟨"test", "r1"⟩ strict_standardCodec
    [sound [[1]], ⟨[[2]], some (.openFile, "permission denied")⟩]

/-- A persist whose sync fails returns an error, but its batch is replayed. -/
theorem failed_sync_replayed :
    ¬ ∀ (c : Codec) (root : List FileName) (pid : PersistenceId) (calls : List Call),
      Strict c → FailuresLeaveNoTrace c root pid calls := by
  intro h
  have hall := h standardCodec [] ⟨"test", "r1"⟩ [⟨[[1]], some (.syncAll, "input/output error")⟩]
    strict_standardCodec
  have htrace := hall [] ⟨[[1]], some (.syncAll, "input/output error")⟩ [] rfl (by decide)
  have hbefore : Journal.replay ⟨"test", "r1"⟩ 0
      (logAfter standardCodec [] ⟨"test", "r1"⟩ []) = [] := by
    decide
  have hafter : Journal.replay ⟨"test", "r1"⟩ 0 (logAfter standardCodec [] ⟨"test", "r1"⟩
      ([] ++ [⟨[[1]], some (.syncAll, "input/output error")⟩])) = [.ok [1]] := by
    decide
  have hsame := htrace.unchanged 0
  rw [hbefore, hafter] at hsame
  contradiction

end October.FailedPersists
