import October.StandardCodec
import Mathlib.Data.List.Induction

/-!
Histories of one file journal log made of acknowledged persists and of crashes
that cut a persist short. As long as no non-empty batch is acknowledged after a
crash that left part of a line without its newline, every acknowledged batch is
replayed. Otherwise the part and the next line become one line that does not
decode, and replay stops in front of it.
-/
namespace October.TornWrites

open LineLog WalkedPaths FileJournal

variable (c : Codec) (root : List FileName) (pid : PersistenceId)

/-- One entry of a log's history: a persist that returned `Ok`, or a persist that
a crash cut after `n` bytes of its line. -/
inductive LogOp where
  | acked (events : List Bytes)
  | torn (events : List Bytes) (n : ℕ)
  deriving DecidableEq, Repr

def tear (events : List Bytes) (n : ℕ) (j : FileJournal c) : FileJournal c :=
  if events = [] then j
  else j.setFile pid (some ((j.file pid).getD [] ++ (line c events).take n))

def LogOp.apply (j : FileJournal c) : LogOp → FileJournal c
  | .acked events => (FileJournal.persist c pid events j).2
  | .torn events n => tear c pid events n j

def logAfter (ops : List LogOp) : FileJournal c :=
  ops.foldl (LogOp.apply c pid) (FileJournal.new root)

def acknowledged (ops : List LogOp) : List (List Bytes) :=
  ops.filterMap (fun op => match op with
    | .acked events => some events
    | .torn _ _ => none)

def LogOp.Splits : LogOp → Prop
  | .acked _ => False
  | .torn events n => events ≠ [] ∧ 0 < n ∧ n < (line c events).length

/-- After a crash that split a line no non-empty batch is acknowledged. -/
def NoAckAfterSplit (ops : List LogOp) : Prop :=
  ops.Pairwise (fun earlier later =>
    earlier.Splits c → ∀ events, later = .acked events → events = [])

/-- The file is whole lines that contain the acknowledged batches, followed by a
rest that is empty as long as no crash split a line. -/
def Intact (ops : List LogOp) (file : Bytes) : Prop :=
  ∃ (batches : List (List Bytes)) (rest : Bytes),
    file = terminate newline (batches.map (batchText c)) ++ rest ∧
    (∀ b ∈ rest, b < 128) ∧ ContainsInOrder (acknowledged ops) batches.flatten ∧
    ((∀ op ∈ ops, ¬ op.Splits c) → rest = [])

theorem terminate_batch (batches : List (List Bytes)) (events : List Bytes) :
    terminate newline (batches.map (batchText c)) ++ line c events =
      terminate newline ((batches ++ [events]).map (batchText c)) := by
  rw [List.map_append, terminate_append]
  simp [terminate, line]

theorem acknowledged_append (ops ops' : List LogOp) :
    acknowledged (ops ++ ops') = acknowledged ops ++ acknowledged ops' := List.filterMap_append

/-- A non-empty batch acknowledged on whole lines is one more whole line. -/
theorem intact_acked (ops : List LogOp) (file : Bytes) (events : List Bytes)
    (h : Intact c ops file) (hclean : ∀ op ∈ ops, ¬ op.Splits c) :
    Intact c (ops ++ [.acked events]) (file ++ line c events) := by
  obtain ⟨batches, rest, hfile, _, hkept, hrest⟩ := h
  have hnil := hrest hclean
  subst hnil
  refine ⟨batches ++ [events], [], ?_, by simp, ?_, fun _ => rfl⟩
  · rw [hfile, List.append_nil, terminate_batch, List.append_nil]
  · have hone : ContainsInOrder (acknowledged [.acked events]) [events].flatten := by
      simpa [acknowledged] using ContainsInOrder.single events
    rw [acknowledged_append, List.flatten_append]
    exact hkept.append hone

/-- An empty batch leaves the file as it is. -/
theorem intact_acked_nil (ops : List LogOp) (file : Bytes) (h : Intact c ops file) :
    Intact c (ops ++ [.acked []]) file := by
  obtain ⟨batches, rest, hfile, hascii, hkept, hrest⟩ := h
  refine ⟨batches, rest, hfile, hascii, ?_, ?_⟩
  · rw [acknowledged_append, ← List.append_nil batches.flatten]
    exact hkept.append ContainsInOrder.nil_block
  · intro hclean
    exact hrest (fun op hop => hclean op (List.mem_append_left _ hop))

/-- A cut line, whole or in part, takes no acknowledged batch away. -/
theorem intact_torn (ops : List LogOp) (file : Bytes) (events : List Bytes) (n : ℕ)
    (hne : events ≠ []) (h : Intact c ops file) :
    Intact c (ops ++ [.torn events n]) (file ++ (line c events).take n) := by
  obtain ⟨batches, rest, hfile, hascii, hkept, hrest⟩ := h
  have hacked : acknowledged (ops ++ [.torn events n]) = acknowledged ops := by
    simp [acknowledged]
  by_cases hwhole : (line c events).length ≤ n ∧ rest = []
  · obtain ⟨hn, rfl⟩ := hwhole
    refine ⟨batches ++ [events], [], ?_, by simp, ?_, fun _ => rfl⟩
    · rw [hfile, List.take_of_length_le hn, List.append_nil, terminate_batch, List.append_nil]
    · rw [hacked, List.flatten_append]
      exact hkept.extend _
  · refine ⟨batches, rest ++ (line c events).take n, ?_, ?_, ?_, ?_⟩
    · rw [hfile, List.append_assoc]
    · intro b hb
      rcases List.mem_append.mp hb with hb | hb
      · exact hascii b hb
      · exact line_ascii c events b (List.mem_of_mem_take hb)
    · rwa [hacked]
    · intro hclean
      have hnil := hrest (fun op hop => hclean op (List.mem_append_left _ hop))
      have hsplit := hclean (.torn events n) (by simp)
      have hzero : n = 0 := by
        by_contra hpos
        have hlen : n < (line c events).length := by
          by_contra hle
          exact hwhole ⟨by omega, hnil⟩
        exact hsplit ⟨hne, by omega, hlen⟩
      rw [hnil, hzero]
      rfl

theorem intact_logAfter (ops : List LogOp) (h : NoAckAfterSplit c ops) :
    Intact c ops (((logAfter c root pid ops).file pid).getD []) := by
  induction ops using List.reverseRecOn with
  | nil => exact ⟨[], [], rfl, by simp, trivial, fun _ => rfl⟩
  | append_singleton ops op ih =>
    obtain ⟨hops, _, hlast⟩ := List.pairwise_append.mp h
    have hintact := ih hops
    have hstep : logAfter c root pid (ops ++ [op]) = op.apply c pid (logAfter c root pid ops) := by
      simp [logAfter]
    rw [hstep]
    cases op with
    | acked events =>
      by_cases hempty : events = []
      · subst hempty
        simpa [LogOp.apply, FileJournal.persist] using intact_acked_nil c ops _ hintact
      · have hclean : ∀ op ∈ ops, ¬ op.Splits c := fun op hop hsplit =>
          hempty (hlast op hop (.acked events) (by simp) hsplit events rfl)
        simpa [LogOp.apply, FileJournal.persist, hempty] using
          intact_acked c ops _ events hintact hclean
    | torn events n =>
      by_cases hempty : events = []
      · subst hempty
        obtain ⟨batches, rest, hfile, hascii, hkept, hrest⟩ := hintact
        refine ⟨batches, rest, ?_, hascii, ?_, ?_⟩
        · simpa [LogOp.apply, tear] using hfile
        · simpa [acknowledged_append, acknowledged] using hkept
        · exact fun hclean => hrest (fun op hop => hclean op (List.mem_append_left _ hop))
      · simpa [LogOp.apply, tear, hempty] using intact_torn c ops _ events n hempty hintact

/-- Every batch whose persist returned `Ok` is replayed, complete and in order, in
a history that acknowledges no non-empty batch after a split line. -/
theorem acknowledged_replayed (ops : List LogOp) (h : NoAckAfterSplit c ops) :
    ∃ events, Journal.replay pid 0 (logAfter c root pid ops) = events.map .ok ∧
      ContainsInOrder (acknowledged ops) events := by
  refine ⟨decodeAfter c 0 ((logAfter c root pid ops).file pid), rfl, ?_⟩
  obtain ⟨batches, rest, hfile, hascii, hkept, _⟩ := intact_logAfter c root pid ops h
  have hprefix := decodeAfter_batches c batches rest hascii
  rw [← hfile] at hprefix
  cases hread : (logAfter c root pid ops).file pid with
  | none =>
    rw [hread] at hprefix
    have hnil : batches.flatten = [] := by
      simpa [decodeAfter, readToString, validUtf8, utf8From, terminated, decodeLines]
        using hprefix
    rw [hnil] at hkept
    simpa using hkept.extend _
  | some content =>
    rw [hread, Option.getD_some] at hprefix
    obtain ⟨more, hmore⟩ := hprefix
    rw [← hmore]
    exact hkept.extend more

theorem acknowledged_replayed_torn_last :
    ∃ events, Journal.replay ⟨"test", "r1"⟩ 0
        (logAfter standardCodec [] ⟨"test", "r1"⟩ [.acked [[1], [2]], .torn [[3]] 9]) =
          events.map .ok ∧
      ContainsInOrder (acknowledged [.acked [[1], [2]], .torn [[3]] 9]) events :=
  acknowledged_replayed standardCodec [] ⟨"test", "r1"⟩ [.acked [[1], [2]], .torn [[3]] 9] (by
    simp [NoAckAfterSplit, LogOp.Splits])

/-- One byte of a cut line followed by an acknowledged batch: nothing is replayed. -/
theorem acknowledged_lost_after_split :
    ¬ ∀ (c : Codec) (root : List FileName) (pid : PersistenceId) (ops : List LogOp),
      ∃ events, Journal.replay pid 0 (logAfter c root pid ops) = events.map .ok ∧
        ContainsInOrder (acknowledged ops) events := by
  intro h
  obtain ⟨events, hreplay, hkept⟩ :=
    h standardCodec [] ⟨"test", "r1"⟩ [.torn [[1]] 1, .acked [[2]]]
  have hnothing : Journal.replay ⟨"test", "r1"⟩ 0
      (logAfter standardCodec [] ⟨"test", "r1"⟩ [.torn [[1]] 1, .acked [[2]]]) = [] := by
    decide
  rw [hnothing] at hreplay
  have hevents : events = [] := List.map_eq_nil_iff.mp hreplay.symm
  subst hevents
  obtain ⟨before, after, heq, _⟩ := hkept
  simp at heq

end October.TornWrites
