import October.DaemonFrames

/-!
What the reader of the control socket makes of a stream that was cut. The header is
read as a whole, so a cut inside it looks like the end of the stream before a frame:
only from the fourth byte on is a cut told from a clean end.
-/

namespace October.CutFrames

open ChunkedReads DaemonFrames

section Frames

variable {A : Type} (toVec : A → Except String Bytes) (fromSlice : Bytes → Except String A)

def verdict (pieces : List Bytes) : Except IoError (Option A) :=
  (readFrame fromSlice (arrivals pieces)).1

/-- The end of the stream is clean exactly if there is nothing before it; a frame that
was begun and cut is an error. -/
structure TellsCuts (pieces : List Bytes) : Prop where
  cleanEnd : verdict fromSlice pieces = .ok none ↔ pieces.flatten = []
  cutFrame : ∀ value frame, writeFrame toVec [] value = (.ok (), frame) →
    pieces.flatten <+: frame → pieces.flatten ≠ [] → pieces.flatten ≠ frame →
    ∃ e, verdict fromSlice pieces = .error e

variable {toVec fromSlice}

/-- A stream with less than a header in it looks like its end. -/
theorem verdict_short {pieces : List Bytes} (h : pieces.flatten.length < 4) :
    verdict fromSlice pieces = .ok none := by
  rw [verdict, readFrame, readExact_short _ 4 pieces h]

/-- A stream with a whole header is never taken for the end of the stream. -/
theorem verdict_long {pieces : List Bytes} (h : 4 ≤ pieces.flatten.length) :
    verdict fromSlice pieces ≠ .ok none := by
  have hcut : pieces.flatten = pieces.flatten.take 4 ++ pieces.flatten.drop 4 :=
    (List.take_append_drop 4 _).symm
  obtain ⟨left, hheader, -⟩ := readExact_append IoError.unexpectedEof _ _ pieces hcut
  rw [List.length_take_of_le h] at hheader
  rw [verdict, readFrame, hheader]
  dsimp only
  cases hbody : readExact IoError.unexpectedEof
      (fromBeBytes (pieces.flatten.take 4)).toNat (arrivals left) with
  | mk result rest =>
    cases result with
    | error e => simp
    | ok buf =>
      dsimp only
      cases fromSlice buf <;> simp

/-- A frame that is cut after its header is an error. -/
theorem verdict_cut {value : A} {frame : Bytes} {pieces : List Bytes}
    (hframe : writeFrame toVec [] value = (.ok (), frame)) (hpre : pieces.flatten <+: frame)
    (hcut : pieces.flatten ≠ frame) (hheader : 4 ≤ pieces.flatten.length) :
    verdict fromSlice pieces = .error .unexpectedEof := by
  unfold writeFrame at hframe
  cases hbytes : toVec value with
  | error e => simp [hbytes] at hframe
  | ok bytes =>
    rw [hbytes] at hframe
    dsimp only at hframe
    by_cases hlen : bytes.length < UInt32.size
    · rw [tryFromLen_ok hlen] at hframe
      obtain rfl : toBeBytes (UInt32.ofNat bytes.length) ++ bytes = frame := by
        simpa using hframe
      obtain ⟨cut, hcut'⟩ := List.prefix_of_prefix_length_le
        (List.prefix_append (toBeBytes (UInt32.ofNat bytes.length)) bytes) hpre hheader
      obtain ⟨left, hread, hleft⟩ :=
        readExact_append IoError.unexpectedEof _ _ pieces hcut'.symm
      have hsize : (toBeBytes (UInt32.ofNat bytes.length)).length = 4 := rfl
      have hcount : (UInt32.ofNat bytes.length).toNat = bytes.length :=
        UInt32.toNat_ofNat_of_lt' hlen
      have hshort : left.flatten.length < bytes.length := by
        rw [← hcut', List.prefix_append_right_inj] at hpre
        rw [hleft]
        refine Nat.lt_of_le_of_ne hpre.length_le (fun hsame => hcut ?_)
        rw [← hcut', hpre.eq_of_length hsame]
      rw [hsize] at hread
      rw [verdict, readFrame, hread]
      simp only [fromBeBytes_toBeBytes, hcount, readExact_short _ _ left hshort]
    · simp [tryFromLen, hlen] at hframe

end Frames

/-- A cut is told from a clean end exactly if it is not inside the header. -/
theorem tellsCuts_iff {A : Type} (toVec : A → Except String Bytes)
    (fromSlice : Bytes → Except String A) (pieces : List Bytes) :
    TellsCuts toVec fromSlice pieces ↔
      pieces.flatten = [] ∨ 4 ≤ pieces.flatten.length := by
  constructor
  · intro h
    by_cases hshort : pieces.flatten.length < 4
    · exact Or.inl (h.cleanEnd.mp (verdict_short hshort))
    · exact Or.inr (Nat.le_of_not_lt hshort)
  · rintro (hempty | hlong)
    · refine ⟨⟨fun _ => hempty, fun _ => verdict_short (by simp [hempty])⟩, ?_⟩
      intro value frame _ _ hne _
      exact absurd hempty hne
    · refine ⟨⟨fun h => absurd h (verdict_long hlong), fun h => ?_⟩, ?_⟩
      · simp [h] at hlong
      · intro value frame hframe hpre _ hcut
        exact ⟨_, verdict_cut hframe hpre hcut hlong⟩

/-- The first byte of a frame is taken for a clean end of the stream. -/
theorem header_byte_taken_for_end : ¬ TellsCuts boolToVec boolFromSlice [[0]] := by
  intro h
  have hclean := h.cleanEnd.mp (by decide)
  simp at hclean

end October.CutFrames
