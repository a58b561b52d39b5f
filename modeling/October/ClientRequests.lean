import October.CutFrames
import October.DaemonConnection

/-!
What a client of the daemon learns over a connection that may be lost. A request that does
not arrive whole reaches nobody. A call returns what the supervisor answered if the whole
response arrives, and an error otherwise. A log stream prints exactly the lines whose
frames arrived whole; a loss between two frames looks like the end of the stream.
-/
namespace October.ClientRequests

open ChunkedReads DaemonFrames DaemonConnection CutFrames RenderedHistory

section Frames

variable {A : Type} {toVec : A → Except String Bytes} {fromSlice : Bytes → Except String A}

def frame (toVec : A → Except String Bytes) (value : A) : Bytes := (writeFrame toVec [] value).2

theorem writeFrame_eq {value : A} (h : RoundTrips toVec fromSlice value) :
    writeFrame toVec [] value = (.ok (), frame toVec value) := by
  obtain ⟨bytes, hbytes, hlen, -⟩ := h
  rw [frame, writeFrame_ok hbytes hlen]

theorem written_cons (value : A) (values : List A) :
    written toVec [] (value :: values) = frame toVec value ++ written toVec [] values :=
  written_append _ values

/-- How much of the frames of some values has arrived: `whole` of them and, of the next one,
a part `tail` that is less than all of it. -/
structure Arrived (toVec : A → Except String Bytes) (values : List A) (bytes : Bytes)
    (whole : ℕ) (tail : Bytes) : Prop where
  whole_le : whole ≤ values.length
  bytes_eq : bytes = written toVec [] (values.take whole) ++ tail
  part : ∀ value, values[whole]? = some value →
    tail <+: frame toVec value ∧ tail ≠ frame toVec value
  all : whole = values.length → tail = []

theorem Arrived.cons {value : A} {values : List A} {bytes tail : Bytes} {whole : ℕ}
    (h : Arrived toVec values bytes whole tail) :
    Arrived toVec (value :: values) (frame toVec value ++ bytes) (whole + 1) tail where
  whole_le := Nat.succ_le_succ h.whole_le
  bytes_eq := by rw [List.take_succ_cons, written_cons, List.append_assoc, ← h.bytes_eq]
  part next hnext := h.part next (by simpa using hnext)
  all hall := h.all (by simpa using hall)

/-- However a stream of frames is cut into pieces and wherever it is lost, the reads return
the values whose frames arrived whole; what is left then is a part of the next frame. -/
theorem readFrames_arrived (values : List A)
    (hvalues : ∀ value ∈ values, RoundTrips toVec fromSlice value) (pieces : List Bytes)
    (hlost : pieces.flatten <+: written toVec [] values) :
    ∃ whole left, Arrived toVec values pieces.flatten whole left.flatten ∧
      ∀ n, readFrames fromSlice (whole + n) (arrivals pieces) =
        (values.take whole).map (fun value => .ok (some value)) ++
          readFrames fromSlice n (arrivals left) := by
  induction values generalizing pieces with
  | nil =>
    have hnil : pieces.flatten = [] := List.prefix_nil.mp hlost
    refine ⟨0, pieces, ⟨Nat.le_refl 0, ?_, by simp, fun _ => hnil⟩, fun n => ?_⟩
    · rw [hnil]
      rfl
    · rw [Nat.zero_add]
      rfl
  | cons value values ih =>
    rw [written_cons] at hlost
    have hvalue := hvalues value List.mem_cons_self
    by_cases hfirst : frame toVec value <+: pieces.flatten
    · -- the first frame arrived: it is read, and the rest of the stream is left
      obtain ⟨back, hback⟩ := hfirst
      rw [← hback, List.prefix_append_right_inj] at hlost
      obtain ⟨left, hread, hleft⟩ := readFrame_written hvalue pieces back hback.symm
      rw [← hleft] at hlost
      obtain ⟨whole, rest, harrived, hreads⟩ :=
        ih (fun v hv => hvalues v (List.mem_cons_of_mem _ hv)) left hlost
      refine ⟨whole + 1, rest, ?_, fun n => ?_⟩
      · rw [← hback, ← hleft]
        exact harrived.cons
      · have hcount : whole + 1 + n = (whole + n) + 1 := by omega
        rw [hcount, readFrames, hread, hreads n]
        rfl
    · refine ⟨0, pieces, ⟨Nat.zero_le _, rfl, ?_, by simp⟩, fun n => ?_⟩
      · intro next hnext
        obtain rfl : value = next := by simpa using hnext
        refine ⟨?_, fun heq => hfirst (heq ▸ List.prefix_rfl)⟩
        exact (List.prefix_or_prefix_of_prefix hlost (List.prefix_append _ _)).resolve_right hfirst
      · rw [Nat.zero_add]
        rfl

/-- The next read after the frames that arrived whole sees the end of the stream, or an
error if a whole header has arrived. -/
theorem Arrived.next {values : List A} {bytes : Bytes} {whole : ℕ} {left : List Bytes}
    (h : Arrived toVec values bytes whole left.flatten)
    (hvalues : ∀ value ∈ values, RoundTrips toVec fromSlice value) :
    (readFrame fromSlice (arrivals left)).1 =
      if left.flatten.length < 4 then .ok none else .error .unexpectedEof := by
  by_cases hshort : left.flatten.length < 4
  · rw [if_pos hshort]
    exact verdict_short hshort
  · rw [if_neg hshort]
    cases hvalue : values[whole]? with
    | none =>
      have hall : whole = values.length :=
        Nat.le_antisymm h.whole_le (List.getElem?_eq_none_iff.mp hvalue)
      rw [h.all hall] at hshort
      simp at hshort
    | some value =>
      obtain ⟨hpart, hne⟩ := h.part value hvalue
      exact verdict_cut (writeFrame_eq (hvalues value (List.mem_of_getElem? hvalue))) hpart hne
        (Nat.le_of_not_lt hshort)

/-- A single frame is read if all of it arrives. -/
theorem readFrame_one {value : A} (h : RoundTrips toVec fromSlice value) (pieces : List Bytes)
    (hall : pieces.flatten = frame toVec value) :
    (readFrame fromSlice (arrivals pieces)).1 = .ok (some value) := by
  obtain ⟨left, hread, -⟩ := readFrame_written h pieces [] (by rw [hall, List.append_nil]; rfl)
  rw [hread]

/-- Of a single frame that is cut nothing is read. -/
theorem readFrame_part {value : A} (h : RoundTrips toVec fromSlice value) (pieces : List Bytes)
    (hpart : pieces.flatten <+: frame toVec value) (hne : pieces.flatten ≠ frame toVec value) :
    (readFrame fromSlice (arrivals pieces)).1 = .ok none ∨
      (readFrame fromSlice (arrivals pieces)).1 = .error .unexpectedEof := by
  by_cases hshort : pieces.flatten.length < 4
  · exact Or.inl (verdict_short hshort)
  · exact Or.inr (verdict_cut (writeFrame_eq h) hpart hne (Nat.le_of_not_lt hshort))

end Frames

/-- The calls of the client that one response answers, with what they return. -/
inductive Call : Type → Type
  | submit (workflow : WorkflowDefinition) (workdir input : String)
      (capabilities : Option CapabilitySpec) (workflowName : String) : Call JobId
  | list : Call (List JobSummary)
  | status : Call StatusInfo
  | stop (jobId : JobId) : Call Unit
  | resume (jobId : JobId) (message : String) : Call Unit
  | remove (jobId : JobId) : Call Unit
  | shutdown (drain : Bool) : Call Unit

namespace Call

variable {R : Type}

def request : Call R → DaemonRequest
  | .submit workflow workdir input capabilities workflowName =>
    .submit workflow workdir input capabilities workflowName
  | .list => .list
  | .status => .status
  | .stop jobId => .stop jobId
  | .resume jobId message => .resume jobId message
  | .remove jobId => .remove jobId
  | .shutdown drain => .shutdown drain

def perform (readResponse : Bytes → Except String DaemonResponse) :
    Call R → List Bytes → Except ClientError R
  | .submit _ _ _ _ _ => DaemonConnection.submit readResponse
  | .list => DaemonConnection.list readResponse
  | .status => DaemonConnection.status readResponse
  | .stop _ => DaemonConnection.stop readResponse
  | .resume _ _ => DaemonConnection.resume readResponse
  | .remove _ => DaemonConnection.remove readResponse
  | .shutdown _ => DaemonConnection.shutdown readResponse

def count (statuses : List JobStatus) (jobs : List JobSummary) : UInt32 :=
  UInt32.ofNat (jobs.countP (fun j => j.status ∈ statuses))

def direct (a : Answers) : Call R → Except ClientError R
  | .submit _ _ _ _ _ => a.submitted.elim (.error ⟨"submit failed"⟩) .ok
  | .list => .ok (a.listed 0)
  | .status =>
    let jobs := a.listed 0
    .ok ⟨a.pid, a.uptimeSecs, count [.running] jobs, count [.suspended, .awaitingUserInput] jobs,
      count [.finished] jobs, count [.failed] jobs⟩
  | .stop _ => .ok ()
  | .resume _ _ => .ok ()
  | .remove _ =>
    match a.removed with
    | none => .error ⟨"remove failed"⟩
    | some (.error msg) => .error ⟨msg⟩
    | some (.ok ()) => .ok ()
  | .shutdown _ => .ok ()

end Call

section Counts

theorem ofNat_succ (n : ℕ) : UInt32.ofNat (n + 1) = UInt32.ofNat n + 1 := by
  apply UInt32.toNat_inj.mp
  simp [UInt32.toNat_add]

theorem count_cons (statuses : List JobStatus) (j : JobSummary) (jobs : List JobSummary) :
    Call.count statuses (j :: jobs) =
      if j.status ∈ statuses then Call.count statuses jobs + 1 else Call.count statuses jobs := by
  unfold Call.count
  by_cases h : j.status ∈ statuses
  · rw [if_pos h, List.countP_cons_of_pos (by simpa using h), ofNat_succ]
  · rw [if_neg h, List.countP_cons_of_neg (by simpa using h)]

theorem foldl_countJob (jobs : List JobSummary) (info : StatusInfo) :
    jobs.foldl countJob info =
      ⟨info.pid, info.uptimeSecs, info.running + Call.count [.running] jobs,
        info.suspended + Call.count [.suspended, .awaitingUserInput] jobs,
        info.finished + Call.count [.finished] jobs, info.failed + Call.count [.failed] jobs⟩ := by
  induction jobs generalizing info with
  | nil => simp [Call.count]
  | cons j jobs ih =>
    rw [List.foldl_cons, ih]
    simp only [count_cons]
    unfold countJob
    cases j.status <;> simp [UInt32.add_assoc, UInt32.add_comm]

end Counts

section Calls

variable {R : Type} (readResponse : Bytes → Except String DaemonResponse)

/-- A call is answered with one response, which its function takes for its result. -/
theorem handleConn_call (call : Call R) (a : Answers) (polls : ℕ) (served : Served)
    (hserved : handleConn a polls call.request = some served) :
    ∃ resp, served.responses = [resp] ∧ ∀ pieces, response readResponse pieces = .ok resp →
      call.perform readResponse pieces = call.direct a := by
  cases call with
  | submit workflow workdir input capabilities workflowName =>
    obtain rfl := Option.some.inj hserved
    refine ⟨_, rfl, fun pieces hresp => ?_⟩
    simp only [Call.perform, DaemonConnection.submit, expecting, hresp, Call.direct]
    cases a.submitted <;> rfl
  | list =>
    obtain rfl := Option.some.inj hserved
    refine ⟨_, rfl, fun pieces hresp => ?_⟩
    simp only [Call.perform, DaemonConnection.list, expecting, hresp, Call.direct, asJobList]
  | status =>
    obtain rfl := Option.some.inj hserved
    refine ⟨_, rfl, fun pieces hresp => ?_⟩
    simp only [Call.perform, DaemonConnection.status, expecting, hresp, Call.direct, asStatus,
      foldl_countJob, UInt32.zero_add]
  | stop jobId | resume jobId message =>
    obtain rfl := Option.some.inj hserved
    refine ⟨_, rfl, fun pieces hresp => ?_⟩
    simp only [Call.perform, DaemonConnection.stop, DaemonConnection.resume, expecting, hresp,
      Call.direct, asAck]
  | remove jobId =>
    obtain rfl := Option.some.inj hserved
    refine ⟨_, rfl, fun pieces hresp => ?_⟩
    simp only [Call.perform, DaemonConnection.remove, expecting, hresp, Call.direct]
    rcases a.removed with _ | (_ | _) <;> rfl
  | shutdown drain =>
    obtain ⟨listings, _, rfl⟩ := Option.map_eq_some_iff.mp hserved
    refine ⟨_, rfl, fun pieces hresp => ?_⟩
    simp only [Call.perform, DaemonConnection.shutdown, expecting, hresp, Call.direct, asAck]

/-- A call whose response does not arrive fails. -/
theorem perform_unanswered (call : Call R) (pieces : List Bytes) {e : ClientError}
    (h : response readResponse pieces = .error e) :
    call.perform readResponse pieces = .error e := by
  cases call <;>
    simp only [Call.perform, DaemonConnection.submit, DaemonConnection.list,
      DaemonConnection.status, DaemonConnection.stop, DaemonConnection.resume,
      DaemonConnection.remove, DaemonConnection.shutdown, expecting, h]

end Calls

section Claims

variable {R : Type} (writeRequest : DaemonRequest → Except String Bytes)
  (readRequest : Bytes → Except String DaemonRequest)
  (writeResponse : DaemonResponse → Except String Bytes)
  (readResponse : Bytes → Except String DaemonResponse)

/-- A request reaches the daemon whole or not at all, and the client's call returns what
the supervisor answered if the response arrives whole, and an error if it does not. -/
theorem call_answered (call : Call R) (a : Answers) (polls : ℕ) (served : Served)
    (hserved : handleConn a polls call.request = some served)
    (hrequest : RoundTrips writeRequest readRequest call.request)
    (hresponses : ∀ resp ∈ served.responses, RoundTrips writeResponse readResponse resp)
    (sent received : List Bytes) (hsent : sent.flatten <+: frame writeRequest call.request)
    (hreceived : received.flatten <+: written writeResponse [] served.responses) :
    serveConnection readRequest a polls sent =
        some (if sent.flatten = frame writeRequest call.request then served
          else Served.nothing) ∧
      (received.flatten = written writeResponse [] served.responses →
        call.perform readResponse received = call.direct a) ∧
      (received.flatten ≠ written writeResponse [] served.responses →
        ∃ e, call.perform readResponse received = .error e) := by
  obtain ⟨resp, hone, hperform⟩ := handleConn_call readResponse call a polls served hserved
  have hresp := hresponses resp (by simp [hone])
  have hwritten : written writeResponse [] served.responses = frame writeResponse resp := by
    rw [hone]
    rfl
  rw [hwritten] at hreceived
  rw [hwritten]
  refine ⟨?_, fun hall => ?_, fun hcut => ?_⟩
  · unfold serveConnection
    split_ifs with hwhole
    · rw [readFrame_one hrequest sent hwhole]
      exact hserved
    · rcases readFrame_part hrequest sent hsent hwhole with hread | hread <;> rw [hread]
  · apply hperform
    rw [response, readFrame_one hresp received hall]
  · rcases readFrame_part hresp received hreceived hcut with hread | hread
    · exact ⟨_, perform_unanswered readResponse call received (by rw [response, hread])⟩
    · exact ⟨_, perform_unanswered readResponse call received (by rw [response, hread])⟩

def shown (a : Answers) (follow : Bool) : List String :=
  (a.history ++ if follow then liveFrames (a.live.getD []) else []).map JobEventFrame.text

/-- Frames of log lines are printed one after another. -/
theorem logsLoop_frames (frames : List JobEventFrame)
    (rest : List (Except IoError (Option DaemonResponse))) :
    logsLoop (frames.map (fun f => .ok (some (.logFrame f))) ++ rest) =
      (frames.map JobEventFrame.text ++ (logsLoop rest).1, (logsLoop rest).2) := by
  induction frames with
  | nil => rfl
  | cons f frames ih =>
    simp only [List.map_cons, List.cons_append, logsLoop, ih]

/-- A log stream prints exactly the lines whose frames arrived whole, in order: first the
history of the job and then what its subscription received. It ends well if the whole
stream arrives, and also if it is lost with less than a header of the next frame; any other
loss is an error. -/
theorem logs_printed (a : Answers) (jobId : JobId) (follow : Bool)
    (hresponses : ∀ resp ∈ (streamLogs a jobId follow).responses,
      RoundTrips writeResponse readResponse resp) (received : List Bytes)
    (hreceived : received.flatten <+:
      written writeResponse [] (streamLogs a jobId follow).responses) :
    ∃ (whole : ℕ) (tail : Bytes),
      Arrived writeResponse (streamLogs a jobId follow).responses received.flatten whole tail ∧
      ∀ reads, whole < reads → logs readResponse reads received =
        ((shown a follow).take whole,
          some (if tail.length < 4 then .ok () else .error ⟨"early eof"⟩)) := by
  obtain ⟨whole, left, harrived, hreads⟩ := readFrames_arrived _ hresponses received hreceived
  refine ⟨whole, left.flatten, harrived, fun reads hmore => ?_⟩
  obtain ⟨n, rfl⟩ := Nat.exists_eq_add_of_lt hmore
  have hnext := harrived.next hresponses
  set frames := a.history ++ if follow then liveFrames (a.live.getD []) else [] with hframes
  have hresp : (streamLogs a jobId follow).responses =
      frames.map .logFrame ++ [.ended] := rfl
  have hend : logsLoop (readFrames readResponse (n + 1) (arrivals left)) =
      ([], some (if left.flatten.length < 4 then .ok () else .error ⟨"early eof"⟩)) := by
    rw [readFrames, hnext]
    split_ifs <;> rfl
  rw [logs, Nat.add_assoc, hreads (n + 1), hresp]
  by_cases hlast : whole ≤ frames.length
  · -- the end mark did not arrive
    have htake : (frames.map DaemonResponse.logFrame ++ [DaemonResponse.ended]).take whole =
        (frames.take whole).map DaemonResponse.logFrame := by
      rw [List.take_append_of_le_length (by simpa using hlast), List.map_take]
    rw [htake, List.map_map]
    have hloop := logsLoop_frames (frames.take whole)
      (readFrames readResponse (n + 1) (arrivals left))
    rw [hend, List.append_nil] at hloop
    rw [shown, ← hframes, ← List.map_take]
    exact hloop
  · have hle := harrived.whole_le
    rw [hresp] at hle
    simp only [List.length_append, List.length_map, List.length_singleton] at hle
    have hall : whole = frames.length + 1 := by omega
    have htail := harrived.all (by rw [hresp]; simp [hall])
    have htake : (frames.map DaemonResponse.logFrame ++ [DaemonResponse.ended]).take whole =
        frames.map DaemonResponse.logFrame ++ [DaemonResponse.ended] := by
      rw [hall]
      exact List.take_of_length_le (by simp)
    rw [htake, List.map_append, List.map_map, List.append_assoc]
    have hloop := logsLoop_frames frames
      (.ok (some .ended) :: readFrames readResponse (n + 1) (arrivals left))
    have hended : logsLoop (.ok (some .ended) :: readFrames readResponse (n + 1) (arrivals left)) =
        ([], some (.ok ())) := rfl
    rw [hended, List.append_nil] at hloop
    have hshown : (frames.map JobEventFrame.text).take whole = frames.map JobEventFrame.text := by
      rw [hall]
      exact List.take_of_length_le (by simp)
    rw [shown, ← hframes, htail, hshown]
    exact hloop

end Claims

section Loss

def writeSome : DaemonResponse → Except String Bytes
  | .ack => .ok [97]
  | .logFrame f => if f = ⟨"7", "hi"⟩ then .ok [102] else .error "not written"
  | .ended => .ok [101]
  | _ => .error "not written"

def readSome (bytes : Bytes) : Except String DaemonResponse :=
  if bytes = [97] then .ok .ack
  else if bytes = [102] then .ok (.logFrame ⟨"7", "hi"⟩)
  else if bytes = [101] then .ok .ended else .error "not written"

def writeStop : DaemonRequest → Except String Bytes
  | .stop jobId => .ok [UInt8.ofNat jobId]
  | _ => .error "not written"

def readStop : Bytes → Except String DaemonRequest
  | [b] => .ok (.stop b.toNat)
  | _ => .error "not written"

def answers : Answers where
  home := none
  defaultCaps := ⟨.block, []⟩
  nowMillis := 0
  pid := 1
  uptimeSecs := 0
  submitted := some 7
  listed := fun _ => []
  removed := some (.ok ())
  history := [⟨"7", "hi"⟩]
  live := some [.lagged 3, .value ⟨"7", "hi"⟩]

/-- The request arrives whole and the acknowledgement without its last byte. -/
theorem call_answered_stop :
    serveConnection readStop answers 0 [[0, 0, 0], [1, 7]] =
        some ⟨[.stop 7], none, [.ack], false⟩ ∧
      ∃ e, DaemonConnection.stop readSome [[0, 0, 0, 1]] = .error e := by
  have hresponses : ∀ resp ∈ [DaemonResponse.ack], RoundTrips writeSome readSome resp := by
    intro resp hresp
    obtain rfl := List.mem_singleton.mp hresp
    exact ⟨[97], rfl, by decide, rfl⟩
  have h := call_answered writeStop readStop writeSome readSome (.stop 7) answers 0
    ⟨[.stop 7], none, [.ack], false⟩ rfl ⟨[7], rfl, by decide, rfl⟩ hresponses
    [[0, 0, 0], [1, 7]] [[0, 0, 0, 1]] (by decide) (by decide)
  exact ⟨h.1, h.2.2 (by decide)⟩

/-- The stream is lost in the header of the second line: one line is printed, and the loss
looks like the end. -/
theorem logs_printed_lost :
    logs readSome 5 [[0, 0, 0, 1, 102, 0], [0]] = (["hi"], some (.ok ())) := by
  have hresponses : ∀ resp ∈ (streamLogs answers 7 true).responses,
      RoundTrips writeSome readSome resp := by
    intro resp hresp
    have hmem : resp = .logFrame ⟨"7", "hi"⟩ ∨ resp = .ended := by
      simpa [streamLogs, liveFrames, Broadcast.values, answers] using hresp
    rcases hmem with rfl | rfl
    · exact ⟨[102], rfl, by decide, rfl⟩
    · exact ⟨[101], rfl, by decide, rfl⟩
  obtain ⟨whole, tail, harrived, hlogs⟩ := logs_printed writeSome readSome answers 7 true
    hresponses [[0, 0, 0, 1, 102, 0], [0]] (by decide)
  have hbytes := congrArg List.length harrived.bytes_eq
  rw [List.length_append] at hbytes
  have htotal : ([[0, 0, 0, 1, 102, 0], [0]] : List Bytes).flatten.length = 7 := rfl
  have hsize (n : ℕ) :
      (written writeSome [] ((streamLogs answers 7 true).responses.take n)).length =
        5 * min n 3 := by
    rcases Nat.lt_or_ge n 3 with hlt | hge
    · obtain rfl | rfl | rfl : n = 0 ∨ n = 1 ∨ n = 2 := by omega
      all_goals decide
    · rw [List.take_of_length_le (by
        simpa [streamLogs, answers, liveFrames, Broadcast.values] using hge), Nat.min_eq_right hge]
      decide
  rw [htotal, hsize] at hbytes
  obtain rfl : whole = 1 := by
    rcases whole with _ | _ | n
    · have hpart := (harrived.part _ rfl).1.length_le
      have hframe : (frame writeSome (.logFrame ⟨"7", "hi"⟩)).length = 5 := by decide
      omega
    · rfl
    · omega
  rw [hlogs 5 (by decide), if_pos (by omega)]
  decide

end Loss

end October.ClientRequests
