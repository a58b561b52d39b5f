import October.FailedPersists
import October.InterchangeableJournals
import October.RenderedHistory

/-!
The log of one actor whose persists may fail at any I/O call. As long as a failing persist
leaves less than its line, and nothing is written behind a part of a line, the file holds
the events whose persist succeeded, perhaps with a part of a line behind them. Recovery
folds exactly these events. A process that is killed while it writes leaves what a persist
leaves that fails at that byte.
-/
namespace October.TailedLogs

open WalkedPaths FileJournal LogTails FailedPersists RecoveryRefinesLive
  InterchangeableJournals RenderedHistory

variable {S E : Type} (a : EventSourcedActor S E) (c : Codec)

/-- One persist of an actor, with its outcome. An event without a text is not written, and
then nothing is. -/
def persistCall (pid : PersistenceId) (events : List E) (ok : Bool)
    (fault : Option (IoStep × String)) (f : FileJournal c) : Option (FileJournal c) :=
  match encodeAll a events with
  | .error _ => if ok then none else some f
  | .ok encoded =>
    let done := FailedPersists.persist c pid ⟨encoded, fault⟩ f
    if done.1.toBool = ok then some done.2 else none

def whole (content : Bytes) : Bool := content.getLast?.all (fun b => b == newline)

/-- The call writes behind whole lines only, and if it fails it leaves less than its line. -/
def tidy (call : Call) (content : Bytes) : Bool :=
  (call.written c).isEmpty ||
    (whole content && (!call.fails || call.written c != line c call.events))

/-- The file holds the events of a history, perhaps with a part of a line behind them. -/
def Holds (pid : PersistenceId) (f : FileJournal c) (history : List E) : Prop :=
  ∃ batches tail, (f.file pid).getD [] = fileOf c batches ++ tail ∧ newline ∉ tail ∧
    (∀ b ∈ tail, b < 128) ∧ List.Forall₂ (Decodes a) batches.flatten history

variable {a c} {pid : PersistenceId} {f g : FileJournal c} {history events : List E} {ok : Bool}
  {fault : Option (IoStep × String)}

theorem holds_nil (h : f.file pid = none) : Holds a c pid f [] :=
  ⟨[], [], by rw [h]; rfl, List.not_mem_nil, by simp, List.Forall₂.nil⟩

theorem Holds.congr (h : Holds a c pid f history) (hfile : g.file pid = f.file pid) :
    Holds a c pid g history := by
  unfold Holds
  rw [hfile]
  exact h

theorem Holds.replay (h : Holds a c pid f history) :
    ∃ encoded, Journal.replay pid 0 f = encoded.map .ok ∧
      List.Forall₂ (Decodes a) encoded history := by
  obtain ⟨batches, tail, hfile, htail, hascii, hdecodes⟩ := h
  refine ⟨batches.flatten, ?_, hdecodes⟩
  have hutf8 : validUtf8 tail = true := utf8From_ascii _ _ _ hascii
  rw [replay_of_file, hfile, decodeAfter_fileOf c batches tail 0 htail hutf8, List.drop_zero]

theorem Holds.recovered (h : Holds a c pid f history) :
    recover a pid f = .ok (fold a history, history.length) := by
  obtain ⟨encoded, hreplay, hdecodes⟩ := h.replay
  have hsnap : Journal.latestSnapshot pid f = .ok none := rfl
  unfold recover
  rw [hsnap]
  simp only [hreplay]
  rw [replayInto_decoded a encoded history a.initialState 0 hdecodes, Nat.zero_add]
  rfl

theorem readable_decodes {encoded : List Bytes} (h : List.Forall₂ (Decodes a) encoded history) :
    readable a.eventSerde (encoded.map .ok) = history := by
  induction h with
  | nil => rfl
  | @cons bytes event encoded history hread _ ih =>
    have hitem : readItem a.eventSerde (.ok bytes) = some event := by
      simp [readItem, show a.eventSerde.fromSlice bytes = .ok event from hread]
    rw [List.map_cons, readable, List.filterMap_cons_some hitem]
    exact congrArg (List.cons event) ih

/-- Every event of the file can be read. -/
theorem Holds.readable_replay (h : Holds a c pid f history) :
    readable a.eventSerde (Journal.replay pid 0 f) = history := by
  obtain ⟨encoded, hreplay, hdecodes⟩ := h.replay
  rw [hreplay, readable_decodes hdecodes]

/-- Nothing stands behind the last line of a file that ends with a line. -/
theorem tail_of_whole {batches : List (List Bytes)} {tail : Bytes}
    (h : whole (fileOf c batches ++ tail) = true) (htail : newline ∉ tail) : tail = [] := by
  rcases List.eq_nil_or_concat tail with hnil | ⟨front, last, rfl⟩
  · exact hnil
  · have hlast : last = newline := by
      simpa [whole, ← List.append_assoc, List.getLast?_append] using h
    exact absurd (by simp [hlast]) htail

theorem persist_root (call : Call) (f : FileJournal c) :
    (FailedPersists.persist c pid call f).2.root = f.root := by
  unfold FailedPersists.persist
  split
  · rfl
  · split <;> rfl

/-- Other files are left alone. -/
theorem persist_file_other (call : Call) (f : FileJournal c) {other : PersistenceId}
    (h : journalPath f.root other ≠ journalPath f.root pid) :
    (FailedPersists.persist c pid call f).2.file other = f.file other := by
  unfold FailedPersists.persist
  split
  · rfl
  · split
    · exact file_setFile_of_ne f _ h
    · rfl
    · rfl
    · exact file_setFile_of_ne f _ h
    · exact file_setFile_of_ne f _ h
    · exact file_setFile_of_ne f _ h

/-- What a call that succeeds writes. -/
theorem written_of_not_fails {call : Call} (h : call.fails = false) :
    call.written c = fileOf c ([call.events].filter (fun events => !events.isEmpty)) := by
  have hlate : call.late = false := by
    by_contra hne
    rw [fails_of_late call (by simpa using hne)] at h
    contradiction
  rw [written_of_not_late c call hlate, h, if_neg (by simp)]

/-- What a call that fails leaves, if not its line. -/
theorem written_of_fails {call : Call} (h : call.fails = true)
    (hline : call.written c ≠ line c call.events) :
    newline ∉ call.written c ∧ ∀ b ∈ call.written c, b < 128 := by
  by_cases hlate : call.late = true
  · obtain ⟨_, hwhole | ⟨n, _, _, hpart⟩⟩ := written_of_late c call hlate
    · contradiction
    · rw [hpart]
      exact ⟨fun hmem => newline_notMem_batchText c call.events (List.mem_of_mem_take hmem),
        fun b hb => c.encode_ascii _ b (List.mem_of_mem_take hb)⟩
  · rw [written_of_not_late c call (by simpa using hlate), if_pos h]
    exact ⟨List.not_mem_nil, by simp⟩

/-- A call that meets the condition adds its batch if it succeeds, else a part of a line. -/
theorem persist_holds {call : Call} (h : Holds a c pid f history)
    (hdecodes : List.Forall₂ (Decodes a) call.events events)
    (htidy : tidy c call ((f.file pid).getD []) = true) :
    Holds a c pid (FailedPersists.persist c pid call f).2
      (history ++ if call.fails then [] else events) := by
  obtain ⟨batches, tail, hfile, htail, hascii, hbatches⟩ := h
  have hnext := persist_file c pid call f
  rw [hfile] at hnext htidy
  rcases Bool.or_eq_true_iff.mp htidy with hnothing | hbehind
  · -- the file is as before
    rw [List.isEmpty_iff.mp hnothing, List.append_nil] at hnext
    refine ⟨batches, tail, hnext, htail, hascii, ?_⟩
    cases hfails : call.fails with
    | true => simpa using hbatches
    | false =>
      have hempty : call.events = [] := by
        by_contra hne
        rw [written_of_not_fails hfails] at hnothing
        simp [fileOf, line, hne] at hnothing
      rw [hempty] at hdecodes
      cases hdecodes
      simpa using hbatches
  · obtain ⟨hwhole, hleft⟩ := Bool.and_eq_true_iff.mp hbehind
    have hnil := tail_of_whole hwhole htail
    rw [hnil, List.append_nil] at hnext
    cases hfails : call.fails with
    | true =>
      obtain ⟨hnewline, hpart⟩ := written_of_fails (c := c) hfails (by simpa [hfails] using hleft)
      exact ⟨batches, call.written c, hnext, hnewline, hpart, by simpa using hbatches⟩
    | false =>
      rw [written_of_not_fails hfails] at hnext
      refine ⟨batches ++ [call.events].filter (fun events => !events.isEmpty), [], ?_,
        List.not_mem_nil, by simp, ?_⟩
      · rw [hnext, List.append_nil, fileOf, fileOf, fileOf, List.flatMap_append]
      · rw [List.flatten_append, flatten_filter, List.flatten_singleton]
        exact List.rel_append hbatches hdecodes

/-- A persist without a text for its events is no call; else it fails if its call does. -/
theorem persistCall_cases (hcall : persistCall a c pid events ok fault f = some g) :
    ok = false ∧ g = f ∨
      ∃ encoded, encodeAll a events = .ok encoded ∧ (Call.mk encoded fault).fails = !ok ∧
        g = (FailedPersists.persist c pid ⟨encoded, fault⟩ f).2 := by
  unfold persistCall at hcall
  split at hcall
  · split at hcall
    · contradiction
    · rename_i hok
      exact Or.inl ⟨by simpa using hok, (Option.some.inj hcall).symm⟩
  · rename_i encoded hencoded
    dsimp only at hcall
    split at hcall
    · rename_i hok
      refine Or.inr ⟨encoded, hencoded, ?_, (Option.some.inj hcall).symm⟩
      have hfails := fails_iff c pid ⟨encoded, fault⟩ f
      cases hresult : (FailedPersists.persist c pid ⟨encoded, fault⟩ f).1 with
      | error e =>
        rw [hresult] at hok hfails
        rw [hfails.mp (by simp), ← hok]
        rfl
      | ok _ =>
        rw [hresult] at hok hfails
        have hsound : ¬ (Call.mk encoded fault).fails = true := fun h => hfails.mpr h rfl
        rw [← hok, Bool.eq_false_of_not_eq_true hsound]
        rfl
    · contradiction

theorem persistCall_frame (hcall : persistCall a c pid events ok fault f = some g) :
    g.root = f.root ∧ ∀ other, journalPath f.root other ≠ journalPath f.root pid →
      g.file other = f.file other := by
  rcases persistCall_cases hcall with ⟨-, rfl⟩ | ⟨encoded, -, -, rfl⟩
  · exact ⟨rfl, fun _ _ => rfl⟩
  · exact ⟨persist_root _ _, fun other hne => persist_file_other _ f hne⟩

/-- A persist adds its events to the log if it succeeds, else nothing. -/
theorem persistCall_holds (hcall : persistCall a c pid events ok fault f = some g)
    (h : Holds a c pid f history)
    (htidy : ∀ encoded, encodeAll a events = .ok encoded →
      tidy c ⟨encoded, fault⟩ ((f.file pid).getD []) = true) :
    Holds a c pid g (history ++ if ok then events else []) := by
  rcases persistCall_cases hcall with ⟨rfl, rfl⟩ | ⟨encoded, hencoded, hfails, rfl⟩
  · simpa using h
  · have hholds := persist_holds h (encodeAll_decodes a events encoded hencoded)
      (htidy encoded hencoded)
    rw [hfails] at hholds
    cases ok <;> exact hholds

end October.TailedLogs
