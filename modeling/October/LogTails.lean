import October.StandardCodec

/-!
What follows the last complete line of a file journal log. Cutting the file at
any byte leaves exactly the batches whose line, newline included, lies in front
of the cut. Bytes without a newline behind the last line add nothing, but the
reader takes the file for UTF-8 text as a whole, so bytes that are not UTF-8
hide every committed batch.
-/
namespace October.LogTails

open LineLog WalkedPaths FileJournal

variable (c : Codec) (root : List FileName) (pid : PersistenceId)

def persistAll (batches : List (List Bytes)) : FileJournal c :=
  batches.foldl (fun j events => (FileJournal.persist c pid events j).2) (FileJournal.new root)

def truncate (n : ℕ) (j : FileJournal c) : FileJournal c :=
  j.setFile pid ((j.file pid).map (List.take n))

def litter (tail : Bytes) (j : FileJournal c) : FileJournal c :=
  j.setFile pid (some ((j.file pid).getD [] ++ tail))

/-- Of batches whose lines follow each other from byte `start` on, those whose
line, its newline included, lies within the first `n` bytes. -/
def linesWithin (n : ℕ) : ℕ → List (List Bytes) → List (List Bytes)
  | _, [] => []
  | start, events :: rest =>
    let stop := start + (line c events).length
    if stop ≤ n then events :: linesWithin n stop rest else linesWithin n stop rest

def fileOf (batches : List (List Bytes)) : Bytes := batches.flatMap (line c)

theorem replay_eq (k : ℕ) (j : FileJournal c) :
    Journal.replay pid k j = (decodeAfter c k (j.file pid)).map .ok := rfl

theorem terminate_batchText (batches : List (List Bytes)) :
    terminate newline (batches.map (batchText c)) = fileOf c batches := by
  unfold terminate fileOf
  rw [List.flatMap_map]
  rfl

theorem fileOf_ascii (batches : List (List Bytes)) : ∀ b ∈ fileOf c batches, b < 128 := by
  intro b hb
  obtain ⟨events, _, hb⟩ := List.mem_flatMap.mp hb
  exact line_ascii c events b hb

/-- Complete lines with a rest that has no newline: the rest is not replayed. -/
theorem decodeAfter_fileOf (batches : List (List Bytes)) (rest : Bytes) (k : ℕ)
    (hrest : newline ∉ rest) (hutf8 : validUtf8 rest = true) :
    decodeAfter c k (some (fileOf c batches ++ rest)) = batches.flatten.drop k := by
  have hvalid : validUtf8 (fileOf c batches ++ rest) = true := by
    unfold validUtf8
    rw [utf8From_append _ _ _ _ (fileOf_ascii c batches)]
    exact hutf8
  have hlines : ∀ text ∈ batches.map (batchText c), newline ∉ text := by
    intro text htext
    obtain ⟨events, _, rfl⟩ := List.mem_map.mp htext
    exact newline_notMem_batchText c events
  have hdecode := decodeLines_batches c k batches [] [] 0
  simp only [decodeAfter, readToString, hvalid, if_true]
  rw [← terminate_batchText, terminated_terminate newline _ rest hlines,
    terminated_of_notMem newline rest hrest, hdecode]
  simp [decodeLines]

/-- A file that is not UTF-8 is not read at all. -/
theorem decodeAfter_invalid (batches : List (List Bytes)) (rest : Bytes) (k : ℕ)
    (hutf8 : validUtf8 rest = false) :
    decodeAfter c k (some (fileOf c batches ++ rest)) = [] := by
  have hvalid : validUtf8 (fileOf c batches ++ rest) = false := by
    unfold validUtf8
    rw [utf8From_append _ _ _ _ (fileOf_ascii c batches)]
    exact hutf8
  simp only [decodeAfter, readToString, hvalid, Bool.false_eq_true, if_false]

theorem foldl_persist (batches : List (List Bytes)) (j : FileJournal c) :
    ((batches.foldl (fun j events => (FileJournal.persist c pid events j).2) j).file pid).getD [] =
      (j.file pid).getD [] ++ fileOf c (batches.filter (fun events => !events.isEmpty)) := by
  induction batches generalizing j with
  | nil => simp [fileOf]
  | cons events rest ih =>
    rw [List.foldl_cons, ih]
    by_cases hempty : events = []
    · simp [FileJournal.persist, hempty]
    · simp [FileJournal.persist, hempty, fileOf]

theorem persistAll_file (batches : List (List Bytes)) :
    ((persistAll c root pid batches).file pid).getD [] =
      fileOf c (batches.filter (fun events => !events.isEmpty)) := by
  unfold persistAll
  rw [foldl_persist]
  rfl

/-- Empty batches hold no events. -/
theorem flatten_filter (batches : List (List Bytes)) :
    (batches.filter (fun events => !events.isEmpty)).flatten = batches.flatten := by
  induction batches with
  | nil => rfl
  | cons events rest ih =>
    by_cases hempty : events = []
    · simp [hempty, ih]
    · simp [hempty, ih]

theorem linesWithin_past (n start : ℕ) (batches : List (List Bytes)) (h : n < start) :
    linesWithin c n start batches = [] := by
  induction batches generalizing start with
  | nil => rfl
  | cons events rest ih =>
    have hstop : ¬ start + (line c events).length ≤ n := by omega
    simp only [linesWithin, hstop, if_false]
    exact ih _ (by omega)

/-- A cut leaves the lines that end in front of it and a rest without a newline. -/
theorem take_fileOf (n start : ℕ) (batches : List (List Bytes)) (h : start ≤ n) :
    ∃ rest, (fileOf c batches).take (n - start) =
      fileOf c (linesWithin c n start batches) ++ rest ∧ newline ∉ rest ∧
        ∀ b ∈ rest, b < 128 := by
  induction batches generalizing start with
  | nil => exact ⟨[], by simp [fileOf, linesWithin], by simp, by simp⟩
  | cons events batches ih =>
    have hshape : fileOf c (events :: batches) = line c events ++ fileOf c batches := by
      simp [fileOf]
    by_cases hstop : start + (line c events).length ≤ n
    · obtain ⟨rest, hrest, hnewline, hascii⟩ := ih (start + (line c events).length) hstop
      refine ⟨rest, ?_, hnewline, hascii⟩
      have hlen : (line c events).length ≤ n - start := by omega
      have hsub : n - start - (line c events).length =
          n - (start + (line c events).length) := by omega
      simp only [linesWithin, hstop, if_true]
      rw [hshape, List.take_append, List.take_of_length_le hlen, hsub, hrest, ← List.append_assoc]
      simp [fileOf]
    · have hlen : (line c events).length = (batchText c events).length + 1 := by simp [line]
      have hcut : n - start ≤ (batchText c events).length := by omega
      refine ⟨(batchText c events).take (n - start), ?_, ?_, ?_⟩
      · simp only [linesWithin, hstop, if_false]
        rw [linesWithin_past c n _ batches (by omega), hshape]
        have htake : (line c events).take (n - start) = (batchText c events).take (n - start) := by
          simp only [line]
          exact List.take_append_of_le_length hcut
        rw [List.take_append_of_le_length (by omega), htake]
        simp [fileOf]
      · intro hmem
        exact newline_notMem_batchText c events (List.mem_of_mem_take hmem)
      · intro b hb
        exact c.encode_ascii _ b (List.mem_of_mem_take hb)

/-- Replay of a file cut at any byte: the events of the batches whose line ends
in front of the cut, without the first `k`. -/
theorem replay_truncated (batches : List (List Bytes)) (hbatches : ∀ events ∈ batches, events ≠ [])
    (n k : ℕ) :
    Journal.replay pid k (truncate c pid n (persistAll c root pid batches)) =
      ((linesWithin c n 0 batches).flatten.drop k).map .ok := by
  have hfilter : batches.filter (fun events => !events.isEmpty) = batches := by
    apply List.filter_eq_self.mpr
    intro events hevents
    simpa using hbatches events hevents
  have hfile := persistAll_file c root pid batches
  rw [hfilter] at hfile
  obtain ⟨rest, hcut, hnewline, hascii⟩ := take_fileOf c n 0 batches (Nat.zero_le n)
  rw [Nat.sub_zero] at hcut
  have hutf8 : validUtf8 rest = true := utf8From_ascii _ _ _ hascii
  have hdecode := decodeAfter_fileOf c (linesWithin c n 0 batches) rest k hnewline hutf8
  rw [← hcut] at hdecode
  rw [replay_eq, ← hdecode]
  congr 1
  cases hread : (persistAll c root pid batches).file pid with
  | none =>
    rw [hread] at hfile
    simp only [truncate, file_setFile, hread, Option.map_none]
    rw [← hfile]
    simp [decodeAfter, readToString, validUtf8, utf8From, terminated, decodeLines]
  | some content =>
    rw [hread, Option.getD_some] at hfile
    simp only [truncate, file_setFile, hread, Option.map_some, hfile]

/-- Two batches cut in front of the last newline: the first one is left. -/
theorem replay_truncated_torn :
    Journal.replay ⟨"test", "r1"⟩ 1
        (truncate standardCodec ⟨"test", "r1"⟩ 33
          (persistAll standardCodec [] ⟨"test", "r1"⟩ [[[1], [2]], [[3]]])) =
      ((linesWithin standardCodec 33 0 [[[1], [2]], [[3]]]).flatten.drop 1).map .ok :=
  replay_truncated standardCodec [] ⟨"test", "r1"⟩ [[[1], [2]], [[3]]] (by decide) 33 1

/-- Bytes without a newline behind the last line leave every committed event to
be replayed exactly if they are UTF-8 or nothing was committed. -/
theorem committed_replayed_iff (batches : List (List Bytes)) (tail : Bytes)
    (htail : newline ∉ tail) :
    Journal.replay pid 0 (litter c pid tail (persistAll c root pid batches)) =
        batches.flatten.map .ok ↔
      validUtf8 tail = true ∨ batches.flatten = [] := by
  have hfile := persistAll_file c root pid batches
  have hflatten := flatten_filter batches
  have hreplay : Journal.replay pid 0 (litter c pid tail (persistAll c root pid batches)) =
      (decodeAfter c 0 (some (fileOf c (batches.filter (fun events => !events.isEmpty)) ++
        tail))).map .ok := by
    rw [replay_eq]
    simp only [litter, file_setFile, hfile]
  rw [hreplay]
  cases hutf8 : validUtf8 tail with
  | true =>
    rw [decodeAfter_fileOf c _ tail 0 htail hutf8, List.drop_zero, hflatten]
    simp
  | false =>
    rw [decodeAfter_invalid c _ tail 0 hutf8]
    constructor
    · intro h
      exact Or.inr (List.map_eq_nil_iff.mp h.symm)
    · rintro (h | h)
      · contradiction
      · rw [h]

theorem committed_replayed_iff_text :
    Journal.replay ⟨"test", "r1"⟩ 0
        (litter standardCodec ⟨"test", "r1"⟩ [33, 33]
          (persistAll standardCodec [] ⟨"test", "r1"⟩ [[[7]]])) =
        [[[7]]].flatten.map .ok ↔
      validUtf8 [33, 33] = true ∨ [[[(7 : UInt8)]]].flatten = [] :=
  committed_replayed_iff standardCodec [] ⟨"test", "r1"⟩ [[[7]]] [33, 33] (by decide)

/-- One byte that is not UTF-8 behind a committed batch: nothing is replayed. -/
theorem committed_hidden :
    ¬ ∀ (c : Codec) (root : List FileName) (pid : PersistenceId)
      (batches : List (List Bytes)) (tail : Bytes), newline ∉ tail →
      Journal.replay pid 0 (litter c pid tail (persistAll c root pid batches)) =
        batches.flatten.map .ok := by
  intro h
  have hreplay := h standardCodec [] ⟨"test", "r1"⟩ [[[7]]] [255] (by decide)
  have hnothing : Journal.replay ⟨"test", "r1"⟩ 0
      (litter standardCodec ⟨"test", "r1"⟩ [255]
        (persistAll standardCodec [] ⟨"test", "r1"⟩ [[[7]]])) = [] := by
    decide
  rw [hnothing] at hreplay
  simp at hreplay

end October.LogTails
