import October.Journal
import October.LineLog
import October.Base64
import October.WalkedPaths
import Mathlib.Logic.Function.Basic

/-!
The filesystem journal: one line per batch, the base64 text of the JSON array of
the base64 texts of the events. A log file is its bytes; a missing file is `none`.
Base64 and the JSON of a list of texts come from third-party crates and are a
parameter that carries the laws the journal relies on.
-/
namespace October

def newline : UInt8 := 10

structure Codec where
  encode : Bytes → Bytes
  decode : Bytes → Option Bytes
  toJson : List Bytes → Bytes
  fromJson : Bytes → Option (List Bytes)
  decode_encode : ∀ bytes, decode (encode bytes) = some bytes
  fromJson_toJson : ∀ events : List Bytes,
    fromJson (toJson (events.map encode)) = some (events.map encode)
  encode_ascii : ∀ bytes, ∀ c ∈ encode bytes, c < 128
  encode_newline : ∀ bytes, newline ∉ encode bytes
  encode_ne_nil : ∀ bytes, bytes ≠ [] → encode bytes ≠ []
  toJson_ne_nil : ∀ texts, toJson texts ≠ []

/-- UTF-8 validity; `need` more continuation bytes are due, the next in `lo..hi`. -/
def utf8From : ℕ → UInt8 → UInt8 → Bytes → Bool
  | 0, _, _, [] => true
  | _ + 1, _, _, [] => false
  | 0, lo, hi, b :: rest =>
    if b < 0x80 then utf8From 0 lo hi rest
    else if 0xC2 ≤ b ∧ b ≤ 0xDF then utf8From 1 0x80 0xBF rest
    else if b = 0xE0 then utf8From 2 0xA0 0xBF rest
    else if (0xE1 ≤ b ∧ b ≤ 0xEC) ∨ b = 0xEE ∨ b = 0xEF then utf8From 2 0x80 0xBF rest
    else if b = 0xED then utf8From 2 0x80 0x9F rest
    else if b = 0xF0 then utf8From 3 0x90 0xBF rest
    else if 0xF1 ≤ b ∧ b ≤ 0xF3 then utf8From 3 0x80 0xBF rest
    else if b = 0xF4 then utf8From 3 0x80 0x8F rest
    else false
  | need + 1, lo, hi, b :: rest =>
    if lo ≤ b ∧ b ≤ hi then utf8From need 0x80 0xBF rest else false

def validUtf8 (bytes : Bytes) : Bool := utf8From 0 0x80 0xBF bytes

theorem utf8From_ascii (lo hi : UInt8) (bytes : Bytes) (h : ∀ b ∈ bytes, b < 128) :
    utf8From 0 lo hi bytes = true := by
  induction bytes with
  | nil => rfl
  | cons b rest ih =>
    have hb : b < 0x80 := h b List.mem_cons_self
    simp only [utf8From, hb, if_true]
    exact ih (fun c hc => h c (List.mem_cons_of_mem _ hc))

/-- ASCII in front of a text does not change whether it is UTF-8. -/
theorem utf8From_append (lo hi : UInt8) (bytes tail : Bytes) (h : ∀ b ∈ bytes, b < 128) :
    utf8From 0 lo hi (bytes ++ tail) = utf8From 0 lo hi tail := by
  induction bytes with
  | nil => rfl
  | cons b rest ih =>
    have hb : b < 0x80 := h b List.mem_cons_self
    simp only [List.cons_append, utf8From, hb, if_true]
    exact ih (fun c hc => h c (List.mem_cons_of_mem _ hc))

open WalkedPaths

/-- The directory of the journal, and the files by the place their path leads to. -/
structure FileJournal (_ : Codec) where
  root : List FileName
  files : List FileName → Option Bytes

/-- `journal_path`; a kind or an id may go down more than one directory, go up, or start over
at the root of the file system. -/
def journalPath (root : List FileName) (pid : PersistenceId) : List FileName :=
  enter (enter (enter (enter root "actors") pid.kind) pid.id) "journal.jsonl"

/-- No id's file is that of another id, or lies in the way of the path to it. -/
def Apart (root : List FileName) (ids : Set PersistenceId) : Prop :=
  ∀ pid ∈ ids, ∀ other ∈ ids, journalPath root pid <+: journalPath root other → pid = other

section Paths

variable {root : List FileName}

theorem plain_actors : Plain "actors" := ⟨by decide, by decide, by decide, by decide⟩

theorem plain_journal : Plain "journal.jsonl" := ⟨by decide, by decide, by decide, by decide⟩

theorem journalPath_plain (root : List FileName) {pid : PersistenceId} (hkind : Plain pid.kind)
    (hid : Plain pid.id) :
    journalPath root pid = root ++ ["actors".toList, pid.kind.toList, pid.id.toList,
      "journal.jsonl".toList] := by
  have hpath : journalPath root pid = root ++ ["actors".toList] ++ [pid.kind.toList] ++
      [pid.id.toList] ++ ["journal.jsonl".toList] := by
    rw [journalPath, plain_actors.enter, hkind.enter, hid.enter, plain_journal.enter]
  exact hpath.trans (by simp)

/-- Kinds and ids of one name keep the files apart. -/
theorem apart_plain (root : List FileName) {ids : Set PersistenceId}
    (h : ∀ pid ∈ ids, Plain pid.kind ∧ Plain pid.id) : Apart root ids := by
  intro pid hpid other hother hprefix
  rw [journalPath_plain root (h pid hpid).1 (h pid hpid).2,
    journalPath_plain root (h other hother).1 (h other hother).2,
    List.prefix_append_right_inj] at hprefix
  have hsame := hprefix.eq_of_length rfl
  simp only [List.cons.injEq, and_true, true_and, String.toList_inj] at hsame
  cases pid
  cases other
  exact congrArg₂ PersistenceId.mk hsame.1 hsame.2

theorem Apart.path_ne {ids : Set PersistenceId} (h : Apart root ids) {pid other : PersistenceId}
    (hpid : pid ∈ ids) (hother : other ∈ ids) (hne : other ≠ pid) :
    journalPath root other ≠ journalPath root pid := by
  intro heq
  exact hne (h other hother pid hpid ⟨[], (List.append_nil _).trans heq⟩)

end Paths

namespace FileJournal

section Files

variable {c : Codec}

def new (root : List FileName) : FileJournal c := ⟨root, fun _ => none⟩

def file (j : FileJournal c) (pid : PersistenceId) : Option Bytes :=
  j.files (journalPath j.root pid)

def setFile (j : FileJournal c) (pid : PersistenceId) (content : Option Bytes) :
    FileJournal c :=
  { j with files := Function.update j.files (journalPath j.root pid) content }

@[simp] theorem setFile_root (j : FileJournal c) (pid : PersistenceId)
    (content : Option Bytes) : (j.setFile pid content).root = j.root := rfl

@[simp] theorem file_setFile (j : FileJournal c) (pid : PersistenceId)
    (content : Option Bytes) : (j.setFile pid content).file pid = content :=
  Function.update_self _ _ _

theorem file_setFile_of_ne (j : FileJournal c) {pid other : PersistenceId}
    (content : Option Bytes) (h : journalPath j.root other ≠ journalPath j.root pid) :
    (j.setFile pid content).file other = j.file other := by
  unfold file setFile
  dsimp only
  generalize journalPath j.root other = path, journalPath j.root pid = written at h ⊢
  exact Function.update_of_ne h content j.files

@[simp] theorem file_new (root : List FileName) (pid : PersistenceId) :
    (new root : FileJournal c).file pid = none := rfl

end Files

variable (c : Codec)

def batchText (events : List Bytes) : Bytes := c.encode (c.toJson (events.map c.encode))

def line (events : List Bytes) : Bytes := batchText c events ++ [newline]

def persist (pid : PersistenceId) (events : List Bytes) (j : FileJournal c) :
    JournalResult Unit × FileJournal c :=
  if events = [] then (.ok (), j)
  else (.ok (), j.setFile pid (some ((j.file pid).getD [] ++ line c events)))

def readToString (file : Option Bytes) : Option Bytes :=
  match file with
  | none => none
  | some content => if validUtf8 content then some content else none

/-- The inner loop of `decode_after` over the texts of one batch. An event that
does not decode returns what was decoded so far (`error`). -/
def decodeEvents (afterSeq : ℕ) : List Bytes → List Bytes × ℕ →
    Except (List Bytes) (List Bytes × ℕ)
  | [], (out, seq) => .ok (out, seq)
  | text :: rest, (out, seq) =>
    match c.decode text with
    | none => .error out
    | some bytes =>
      decodeEvents afterSeq rest
        (if afterSeq < seq + 1 then out ++ [bytes] else out, seq + 1)

def decodeLines (afterSeq : ℕ) : List Bytes → List Bytes × ℕ → List Bytes
  | [], (out, _) => out
  | text :: rest, (out, seq) =>
    if text = [] then out
    else
      match c.decode text with
      | none => out
      | some json =>
        match c.fromJson json with
        | none => out
        | some batch =>
          match decodeEvents c afterSeq batch (out, seq) with
          | .error out => out
          | .ok (out, seq) => decodeLines afterSeq rest (out, seq)

/-- Decode complete lines in order, numbering their events from one, and yield
those numbered above `afterSeq`. -/
def decodeAfter (afterSeq : ℕ) (file : Option Bytes) : List Bytes :=
  match readToString file with
  | none => []
  | some content => decodeLines c afterSeq (LineLog.terminated newline content) ([], 0)

def replay (pid : PersistenceId) (afterSeq : ℕ) (j : FileJournal c) :
    List (JournalResult Bytes) :=
  (decodeAfter c afterSeq (j.file pid)).map .ok

instance : Journal (FileJournal c) where
  persist := persist c
  replay := replay c
  saveSnapshot _ _ _ j := (.ok (), j)
  latestSnapshot _ _ := .ok none
  deleteEventsBefore _ _ j := (.ok (), j)
  copySnapshot _ _ j := (.ok (), j)
  clear pid j := (.ok (), j.setFile pid none)

theorem batchText_ne_nil (events : List Bytes) : batchText c events ≠ [] :=
  c.encode_ne_nil _ (c.toJson_ne_nil _)

theorem newline_notMem_batchText (events : List Bytes) : newline ∉ batchText c events :=
  c.encode_newline _

theorem line_ascii (events : List Bytes) : ∀ b ∈ line c events, b < 128 := by
  intro b hb
  rcases List.mem_append.mp hb with hb | hb
  · exact c.encode_ascii _ b hb
  · obtain rfl := List.mem_singleton.mp hb
    decide

/-- The events of a batch are decoded in order and numbered upwards. -/
theorem decodeEvents_encoded (afterSeq : ℕ) (events out : List Bytes) (seq : ℕ) :
    decodeEvents c afterSeq (events.map c.encode) (out, seq) =
      .ok (out ++ events.drop (afterSeq - seq), seq + events.length) := by
  induction events generalizing out seq with
  | nil => simp [decodeEvents]
  | cons event rest ih =>
    simp only [List.map_cons, decodeEvents, c.decode_encode, ih, List.length_cons]
    by_cases h : afterSeq < seq + 1
    · have hzero : afterSeq - seq = 0 := by omega
      have hzero' : afterSeq - (seq + 1) = 0 := by omega
      simp [h, hzero, hzero', Nat.add_assoc, Nat.add_comm 1]
    · have hsucc : afterSeq - seq = afterSeq - (seq + 1) + 1 := by omega
      simp [h, hsucc, Nat.add_assoc, Nat.add_comm 1]

/-- Lines written by `persist` are decoded to their events, in order; decoding then
goes on with the lines after them. -/
theorem decodeLines_batches (afterSeq : ℕ) (batches : List (List Bytes)) (rest out : List Bytes)
    (seq : ℕ) :
    decodeLines c afterSeq (batches.map (batchText c) ++ rest) (out, seq) =
      decodeLines c afterSeq rest
        (out ++ batches.flatten.drop (afterSeq - seq), seq + batches.flatten.length) := by
  induction batches generalizing out seq with
  | nil => simp
  | cons events batches ih =>
    have hread : c.decode (batchText c events) = some (c.toJson (events.map c.encode)) :=
      c.decode_encode _
    simp only [List.map_cons, List.cons_append, decodeLines, batchText_ne_nil, if_false, hread,
      c.fromJson_toJson, decodeEvents_encoded]
    have hsub : afterSeq - (seq + events.length) = afterSeq - seq - events.length := by omega
    rw [ih, List.flatten_cons, List.drop_append, List.length_append, List.append_assoc,
      Nat.add_assoc, hsub]

def emitted : Except (List Bytes) (List Bytes × ℕ) → List Bytes
  | .error out => out
  | .ok (out, _) => out

/-- Decoding never takes back what it has put out. -/
theorem decodeEvents_prefix (afterSeq : ℕ) (batch out : List Bytes) (seq : ℕ) :
    out <+: emitted (decodeEvents c afterSeq batch (out, seq)) := by
  induction batch generalizing out seq with
  | nil => exact List.prefix_refl out
  | cons text rest ih =>
    cases hdecode : c.decode text with
    | none => simp [decodeEvents, hdecode, emitted]
    | some bytes =>
      have hout : out <+: (if afterSeq < seq + 1 then out ++ [bytes] else out) := by
        split
        · exact List.prefix_append out [bytes]
        · exact List.prefix_refl out
      simp only [decodeEvents, hdecode]
      exact hout.trans (ih _ _)

theorem decodeLines_prefix (afterSeq : ℕ) (lines out : List Bytes) (seq : ℕ) :
    out <+: decodeLines c afterSeq lines (out, seq) := by
  induction lines generalizing out seq with
  | nil => exact List.prefix_refl out
  | cons text rest ih =>
    simp only [decodeLines]
    split
    · exact List.prefix_refl out
    · split
      · exact List.prefix_refl out
      · split
        · exact List.prefix_refl out
        · rename_i batch _
          have hbatch := decodeEvents_prefix c afterSeq batch out seq
          split
          · rename_i out' hstop
            rwa [hstop] at hbatch
          · rename_i out' seq' hgo
            rw [hgo] at hbatch
            exact hbatch.trans (ih out' seq')

/-- Complete batches at the front of an ASCII log are replayed, whatever follows. -/
theorem decodeAfter_batches (batches : List (List Bytes)) (rest : Bytes)
    (hrest : ∀ b ∈ rest, b < 128) :
    batches.flatten <+:
      decodeAfter c 0 (some (LineLog.terminate newline (batches.map (batchText c)) ++ rest)) := by
  have hascii : ∀ b ∈ LineLog.terminate newline (batches.map (batchText c)) ++ rest, b < 128 := by
    intro b hb
    rcases List.mem_append.mp hb with hb | hb
    · obtain ⟨text, htext, hb⟩ := List.mem_flatMap.mp hb
      obtain ⟨events, _, rfl⟩ := List.mem_map.mp htext
      exact line_ascii c events b hb
    · exact hrest b hb
  have hlines : ∀ text ∈ batches.map (batchText c), newline ∉ text := by
    intro text htext
    obtain ⟨events, _, rfl⟩ := List.mem_map.mp htext
    exact newline_notMem_batchText c events
  unfold decodeAfter readToString validUtf8
  simp only [utf8From_ascii _ _ _ hascii, if_true]
  rw [LineLog.terminated_terminate newline _ rest hlines, decodeLines_batches]
  exact decodeLines_prefix c 0 (LineLog.terminated newline rest) batches.flatten
    (0 + batches.flatten.length)

end FileJournal

end October
