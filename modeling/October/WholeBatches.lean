import October.StandardCodec

/-!
What replay makes of a log file with arbitrary content. The events of the lines
that decode completely come first, in order. The first line that does not decode
ends replay; if it is an array of strings, the events in front of its first
string that is not base64 are still put out, and this is the one way a batch is
applied in part.
-/
namespace October.WholeBatches

open LineLog FileJournal

variable (c : Codec) (pid : PersistenceId)

def lineTexts (text : Bytes) : Option (List Bytes) :=
  if text = [] then none else (c.decode text).bind c.fromJson

def lineEvents (text : Bytes) : Option (List Bytes) :=
  (lineTexts c text).bind (fun texts => texts.mapM c.decode)

def linesOf (file : Option Bytes) : List Bytes := terminated newline (file.getD [])

/-- The first line that has no complete event list starts with an event. -/
def breaksInside : List Bytes → Bool
  | [] => false
  | text :: rest =>
    match lineTexts c text with
    | none => false
    | some texts =>
      match texts.mapM c.decode with
      | some _ => breaksInside rest
      | none => (texts.head?.bind c.decode).isSome

def leading : List Bytes → List Bytes
  | [] => []
  | text :: rest =>
    match c.decode text with
    | none => []
    | some bytes => bytes :: leading rest

def wholeLines : List Bytes → List (List Bytes)
  | [] => []
  | text :: rest =>
    match lineEvents c text with
    | none => []
    | some events => events :: wholeLines rest

/-- What the first line without a complete event list still puts out. -/
def brokenPart : List Bytes → List Bytes
  | [] => []
  | text :: rest =>
    match lineTexts c text with
    | none => []
    | some texts =>
      match texts.mapM c.decode with
      | some _ => brokenPart rest
      | none => leading c texts

theorem decodeEvents_whole (texts events out : List Bytes) (seq : ℕ)
    (h : texts.mapM c.decode = some events) :
    decodeEvents c 0 texts (out, seq) = .ok (out ++ events, seq + events.length) := by
  induction texts generalizing events out seq with
  | nil =>
    obtain rfl : events = [] := by simpa using h.symm
    simp [decodeEvents]
  | cons text rest ih =>
    simp only [List.mapM_cons, Option.pure_def, Option.bind_eq_bind,
      Option.bind_eq_some_iff] at h
    obtain ⟨bytes, hbytes, tail, htail, heq⟩ := h
    obtain rfl := Option.some.inj heq
    have hpos : 0 < seq + 1 := Nat.succ_pos seq
    simp only [decodeEvents, hbytes, hpos, if_true, ih tail _ _ htail, List.length_cons]
    simp [Nat.add_assoc, Nat.add_comm 1]

theorem decodeEvents_broken (texts out : List Bytes) (seq : ℕ)
    (h : texts.mapM c.decode = none) :
    decodeEvents c 0 texts (out, seq) = .error (out ++ leading c texts) := by
  induction texts generalizing out seq with
  | nil => simp at h
  | cons text rest ih =>
    cases hbytes : c.decode text with
    | none => simp [decodeEvents, leading, hbytes]
    | some bytes =>
      have htail : rest.mapM c.decode = none := by
        cases htail : rest.mapM c.decode with
        | none => rfl
        | some tail => simp [hbytes, htail] at h
      have hpos : 0 < seq + 1 := Nat.succ_pos seq
      simp only [decodeEvents, leading, hbytes, hpos, if_true, ih _ _ htail]
      simp

/-- Full replay of any lines: the whole batches, then the part of a broken one. -/
theorem decodeLines_eq (lines out : List Bytes) (seq : ℕ) :
    decodeLines c 0 lines (out, seq) =
      out ++ (wholeLines c lines).flatten ++ brokenPart c lines := by
  induction lines generalizing out seq with
  | nil => simp [decodeLines, wholeLines, brokenPart]
  | cons text rest ih =>
    by_cases hempty : text = []
    · simp [decodeLines, wholeLines, brokenPart, lineEvents, lineTexts, hempty]
    · simp only [decodeLines, wholeLines, brokenPart, lineEvents, lineTexts, hempty, if_false]
      cases hjson : c.decode text with
      | none => simp
      | some json =>
        cases htexts : c.fromJson json with
        | none => simp [htexts]
        | some texts =>
          simp only [Option.bind_some, htexts]
          cases hevents : texts.mapM c.decode with
          | none =>
            rw [decodeEvents_broken c texts out seq hevents]
            simp
          | some events =>
            rw [decodeEvents_whole c texts events out seq hevents]
            simp only [ih]
            simp

theorem leading_eq_nil_iff (texts : List Bytes) :
    leading c texts = [] ↔ (texts.head?.bind c.decode).isSome = false := by
  cases texts with
  | nil => simp [leading]
  | cons text rest =>
    cases hbytes : c.decode text <;> simp [leading, hbytes]

theorem brokenPart_eq_nil_iff (lines : List Bytes) :
    brokenPart c lines = [] ↔ breaksInside c lines = false := by
  induction lines with
  | nil => simp [brokenPart, breaksInside]
  | cons text rest ih =>
    simp only [brokenPart, breaksInside]
    cases lineTexts c text with
    | none => simp
    | some texts =>
      simp only []
      cases texts.mapM c.decode with
      | none => exact leading_eq_nil_iff c texts
      | some events => exact ih

/-- The first lines have complete event lists only as far as whole lines go. -/
theorem mapM_take_whole (lines : List Bytes) (m : ℕ) (batches : List (List Bytes))
    (h : (lines.take m).mapM (lineEvents c) = some batches) :
    ∃ n, batches = (wholeLines c lines).take n := by
  induction lines generalizing m batches with
  | nil =>
    obtain rfl : batches = [] := by simpa using h.symm
    exact ⟨0, rfl⟩
  | cons text rest ih =>
    cases m with
    | zero =>
      obtain rfl : batches = [] := by simpa using h.symm
      exact ⟨0, rfl⟩
    | succ m =>
      simp only [List.take_succ_cons, List.mapM_cons, Option.pure_def, Option.bind_eq_bind,
        Option.bind_eq_some_iff] at h
      obtain ⟨events, hevents, tail, htail, heq⟩ := h
      obtain rfl := Option.some.inj heq
      obtain ⟨n, rfl⟩ := ih m tail htail
      refine ⟨n + 1, ?_⟩
      simp [wholeLines, hevents]

theorem mapM_whole (lines : List Bytes) :
    (lines.take (wholeLines c lines).length).mapM (lineEvents c) = some (wholeLines c lines) := by
  induction lines with
  | nil => rfl
  | cons text rest ih =>
    cases hevents : lineEvents c text with
    | none => simp [wholeLines, hevents]
    | some events =>
      simp only [wholeLines, hevents, List.length_cons, List.take_succ_cons, List.mapM_cons, ih]
      rfl

/-- The events are those of the first `m` lines, each with its complete list. -/
def AllOrNothing (file : Option Bytes) (events : List (JournalResult Bytes)) : Prop :=
  ∃ m batches, ((linesOf file).take m).mapM (lineEvents c) = some batches ∧
    events = batches.flatten.map .ok

/-- For any content of the log file, replay puts out whole batches exactly if the
file is not UTF-8 or its first line without a complete event list does not start
with an event. -/
theorem whole_batches_iff (j : FileJournal c) :
    AllOrNothing c (j.file pid) (Journal.replay pid 0 j) ↔
      validUtf8 ((j.file pid).getD []) = false ∨ breaksInside c (linesOf (j.file pid)) = false := by
  have hreplay : Journal.replay pid 0 j = (decodeAfter c 0 (j.file pid)).map .ok := rfl
  rw [hreplay]
  cases hutf8 : validUtf8 ((j.file pid).getD []) with
  | false =>
    have hnothing : decodeAfter c 0 (j.file pid) = [] := by
      cases hread : j.file pid with
      | none => rfl
      | some content =>
        rw [hread, Option.getD_some] at hutf8
        simp [decodeAfter, readToString, hutf8]
    rw [hnothing]
    constructor
    · intro _
      exact Or.inl rfl
    · intro _
      exact ⟨0, [], rfl, rfl⟩
  | true =>
    have hdecode : decodeAfter c 0 (j.file pid) =
        (wholeLines c (linesOf (j.file pid))).flatten ++ brokenPart c (linesOf (j.file pid)) := by
      cases hread : j.file pid with
      | none => simp [decodeAfter, readToString, linesOf, terminated, wholeLines, brokenPart]
      | some content =>
        rw [hread, Option.getD_some] at hutf8
        simp only [decodeAfter, readToString, hutf8, if_true, decodeLines_eq]
        rfl
    rw [hdecode, ← brokenPart_eq_nil_iff]
    constructor
    · rintro ⟨m, batches, hbatches, hevents⟩
      right
      obtain ⟨n, rfl⟩ := mapM_take_whole c _ m batches hbatches
      have hlen := congrArg List.length hevents
      have hsplit := congrArg (fun batches => batches.flatten.length)
        (List.take_append_drop n (wholeLines c (linesOf (j.file pid))))
      simp only [List.flatten_append, List.length_append] at hsplit
      simp only [List.length_map, List.length_append] at hlen
      exact List.length_eq_zero_iff.mp (by omega)
    · rintro (h | h)
      · contradiction
      · refine ⟨_, _, mapM_whole c (linesOf (j.file pid)), ?_⟩
        rw [h, List.append_nil]

def halfBatch : FileJournal standardCodec :=
  ⟨[], fun _ => some (Base64.encode (StandardCodec.toJson [Base64.encode [1], [33]]) ++ [newline])⟩

/-- The event in front of the text that is not base64 is put out alone. -/
theorem half_applied :
    ¬ ∀ (c : Codec) (pid : PersistenceId) (j : FileJournal c),
      AllOrNothing c (j.file pid) (Journal.replay pid 0 j) := by
  intro h
  obtain ⟨m, batches, hbatches, hevents⟩ := h standardCodec ⟨"test", "r1"⟩ halfBatch
  obtain ⟨n, rfl⟩ := mapM_take_whole standardCodec _ m batches hbatches
  have hwhole : wholeLines standardCodec (linesOf (halfBatch.file ⟨"test", "r1"⟩)) = [] := by
    decide
  have hreplay : Journal.replay ⟨"test", "r1"⟩ 0 halfBatch = [.ok [1]] := by
    decide
  rw [hwhole, hreplay] at hevents
  simp at hevents

end October.WholeBatches
