import October.ChunkedReads
import October.Journal

/-!
Length-prefixed JSON frame codec for the daemon control socket. Each frame is a
4-byte big-endian length followed by that many bytes of JSON. The reader may get
the stream in any pieces; it returns the values that were written and then the
end of the stream.
-/

namespace October.DaemonFrames

open ChunkedReads

def toBeBytes (len : UInt32) : Bytes :=
  [(len >>> 24).toUInt8, (len >>> 16).toUInt8, (len >>> 8).toUInt8, len.toUInt8]

def fromBeBytes (lenBuf : Bytes) : UInt32 :=
  lenBuf.foldl (fun len byte => len * 256 + byte.toUInt32) 0

theorem fromBeBytes_toBeBytes (len : UInt32) : fromBeBytes (toBeBytes len) = len := by
  apply UInt32.toNat_inj.mp
  have hlen : len.toNat < 4294967296 := len.toNat_lt
  simp only [fromBeBytes, toBeBytes, List.foldl_cons, List.foldl_nil, UInt32.toNat_add,
    UInt32.toNat_mul, UInt8.toNat_toUInt32, UInt32.toNat_toUInt8, UInt32.toNat_shiftRight,
    UInt32.toNat_ofNat, Nat.shiftRight_eq_div_pow, Nat.reduceMod, Nat.reducePow]
  omega

/-- `std::io::Error`, as far as its kind is told apart. -/
inductive IoError where
  | unexpectedEof
  | other (message : String)
  deriving DecidableEq, Repr

def tryFromLen (len : Nat) : Except String UInt32 :=
  if len < UInt32.size then .ok (UInt32.ofNat len)
  else .error "out of range integral type conversion attempted"

theorem tryFromLen_ok {len : Nat} (h : len < UInt32.size) :
    tryFromLen len = .ok (UInt32.ofNat len) := if_pos h

section Frames

variable {A : Type} (toVec : A → Except String Bytes) (fromSlice : Bytes → Except String A)

def writeFrame (w : Bytes) (value : A) : Except IoError Unit × Bytes :=
  match toVec value with
  | .error e => (.error (.other e), w)
  | .ok bytes =>
    match tryFromLen bytes.length with
    | .error e => (.error (.other e), w)
    | .ok len => (.ok (), w ++ toBeBytes len ++ bytes)

/-- Read one frame; nothing on an end of the stream before a whole length was read. -/
def readFrame (r : List (Except IoError Bytes)) :
    Except IoError (Option A) × List (Except IoError Bytes) :=
  match readExact .unexpectedEof 4 r with
  | (.error .unexpectedEof, r) => (.ok none, r)
  | (.error (.other e), r) => (.error (.other e), r)
  | (.ok lenBuf, r) =>
    match readExact .unexpectedEof (fromBeBytes lenBuf).toNat r with
    | (.error e, r) => (.error e, r)
    | (.ok buf, r) =>
      match fromSlice buf with
      | .error e => (.error (.other e), r)
      | .ok value => (.ok (some value), r)

def written (w : Bytes) (values : List A) : Bytes :=
  values.foldl (fun w value => (writeFrame toVec w value).2) w

def readFrames : Nat → List (Except IoError Bytes) → List (Except IoError (Option A))
  | 0, _ => []
  | n + 1, r => (readFrame fromSlice r).1 :: readFrames n (readFrame fromSlice r).2

/-- The value has a JSON text of a length below 2^32 that reads back as the value. -/
def RoundTrips (value : A) : Prop :=
  ∃ bytes, toVec value = .ok bytes ∧ bytes.length < UInt32.size ∧ fromSlice bytes = .ok value

variable {toVec fromSlice}

theorem writeFrame_ok {bytes : Bytes} {value : A} (hbytes : toVec value = .ok bytes)
    (hlen : bytes.length < UInt32.size) (w : Bytes) :
    writeFrame toVec w value =
      (.ok (), w ++ (toBeBytes (UInt32.ofNat bytes.length) ++ bytes)) := by
  simp [writeFrame, hbytes, tryFromLen_ok hlen]

/-- Writing appends to what the stream holds. -/
theorem written_append (w : Bytes) (values : List A) :
    written toVec w values = w ++ written toVec [] values := by
  have hone (w : Bytes) (value : A) :
      (writeFrame toVec w value).2 = w ++ (writeFrame toVec [] value).2 := by
    unfold writeFrame
    cases toVec value with
    | error e => simp
    | ok bytes => cases hlen : tryFromLen bytes.length <;> simp [hlen]
  induction values generalizing w with
  | nil => simp [written]
  | cons value values ih =>
    have hcons (w : Bytes) : written toVec w (value :: values) =
        written toVec (writeFrame toVec w value).2 values := rfl
    rw [hcons, hcons, ih, ih (writeFrame toVec [] value).2, hone, List.append_assoc]

/-- One frame at the front of the stream is read as the value it was written for,
however the stream is cut, and the rest of the stream is left. -/
theorem readFrame_written {value : A} (h : RoundTrips toVec fromSlice value)
    (pieces : List Bytes) (back : Bytes)
    (hcut : pieces.flatten = (writeFrame toVec [] value).2 ++ back) :
    ∃ left, readFrame fromSlice (arrivals pieces) = (.ok (some value), arrivals left) ∧
      left.flatten = back := by
  obtain ⟨bytes, hbytes, hlen, hback⟩ := h
  rw [writeFrame_ok hbytes hlen, List.nil_append, List.append_assoc] at hcut
  obtain ⟨afterLen, hheader, hrest⟩ := readExact_append IoError.unexpectedEof _ _ pieces hcut
  obtain ⟨left, hbody, hleft⟩ := readExact_append IoError.unexpectedEof _ _ afterLen hrest
  refine ⟨left, ?_, hleft⟩
  have hsize : (toBeBytes (UInt32.ofNat bytes.length)).length = 4 := rfl
  have hcount : (UInt32.ofNat bytes.length).toNat = bytes.length :=
    UInt32.toNat_ofNat_of_lt' hlen
  rw [hsize] at hheader
  simp only [readFrame, hheader, fromBeBytes_toBeBytes, hcount, hbody, hback]

/-- At the end of the stream every read says so. -/
theorem readFrames_ended (n : Nat) (pieces : List Bytes) (h : pieces.flatten = []) :
    readFrames fromSlice n (arrivals pieces) = List.replicate n (.ok none) := by
  have hread (pieces : List Bytes) (h : pieces.flatten = []) :
      readFrame fromSlice (arrivals pieces) = (.ok none, []) := by
    unfold readFrame
    rw [readExact_short _ 4 pieces (by simp [h])]
  cases n with
  | zero => rfl
  | succ n =>
    simp only [readFrames, hread pieces h, List.replicate_succ, List.cons.injEq, true_and]
    induction n with
    | zero => rfl
    | succ n ih =>
      have hnil : readFrame fromSlice ([] : List (Except IoError Bytes)) = (.ok none, []) :=
        hread [] rfl
      simp only [readFrames, hnil, List.replicate_succ, ih]

/-- Every frame written to the stream is read back in order, wherever the stream
is cut on its way, and after the last one the reader sees the end. -/
theorem frames_round_trip (toVec : A → Except String Bytes)
    (fromSlice : Bytes → Except String A) (values : List A)
    (hvalues : ∀ value ∈ values, RoundTrips toVec fromSlice value)
    (pieces : List Bytes) (hcut : pieces.flatten = written toVec [] values) (extra : Nat) :
    readFrames fromSlice (values.length + extra) (arrivals pieces) =
      values.map (fun value => .ok (some value)) ++ List.replicate extra (.ok none) := by
  induction values generalizing pieces with
  | nil => simpa using readFrames_ended extra pieces hcut
  | cons value values ih =>
    have hfirst : written toVec [] (value :: values) =
        (writeFrame toVec [] value).2 ++ written toVec [] values := written_append _ values
    rw [hfirst] at hcut
    obtain ⟨left, hread, hleft⟩ :=
      readFrame_written (hvalues value List.mem_cons_self) pieces _ hcut
    have hrest := ih (fun v hv => hvalues v (List.mem_cons_of_mem _ hv)) left hleft
    have hcount : (value :: values).length + extra = (values.length + extra) + 1 := by
      simp only [List.length_cons]
      omega
    rw [hcount, readFrames, hread]
    simp only [List.map_cons, List.cons_append, hrest]

end Frames

def boolToVec : Bool → Except String Bytes
  | true => .ok [116, 114, 117, 101]
  | false => .ok [102, 97, 108, 115, 101]

def boolFromSlice (buf : Bytes) : Except String Bool :=
  if buf = [116, 114, 117, 101] then .ok true
  else if buf = [102, 97, 108, 115, 101] then .ok false
  else .error "expected value at line 1 column 1"

/-- Two values read back from a stream that is cut inside a length and inside both texts. -/
theorem frames_round_trip_booleans :
    readFrames boolFromSlice 4 (arrivals
      [[0, 0], [0, 4, 116], [], [114, 117, 101, 0, 0, 0, 5, 102, 97], [108, 115, 101]]) =
      [.ok (some true), .ok (some false), .ok none, .ok none] := by
  refine frames_round_trip boolToVec boolFromSlice [true, false] ?_ _ (by decide) 2
  intro value _
  cases value with
  | true => exact ⟨_, rfl, by decide, rfl⟩
  | false => exact ⟨_, rfl, by decide, rfl⟩

end October.DaemonFrames
