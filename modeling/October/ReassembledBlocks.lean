import Mathlib.Data.List.Sort
import October.AnthropicProvider

/-!
Content blocks are reassembled from any interleaving of their events. What the three
maps hold at an index depends on the events about that index only, so the parts of
the answer are those of the blocks, in the order of their indices.
-/

namespace October.ReassembledBlocks

open AnthropicProvider

/-- What the three maps hold at one index. -/
@[ext] structure Cell where
  text : Option String
  tool : Option (String × String × String)
  thinking : Option (String × String)

def cell (s : Accumulators) (i : ℕ) : Cell :=
  ⟨s.textBlocks.lookup i, s.toolBlocks.lookup i, s.thinkingBlocks.lookup i⟩

def Cell.handle (c : Cell) : MessagesStreamEvent → Cell
  | .contentBlockStart _ .text => { c with text := some "" }
  | .contentBlockStart _ (.toolUse id name) => { c with tool := some (id, name, "") }
  | .contentBlockStart _ .thinking => { c with thinking := some ("", "") }
  | .contentBlockDelta _ (.textDelta text) => { c with text := c.text.map (· ++ text) }
  | .contentBlockDelta _ (.inputJsonDelta json) =>
    { c with tool := c.tool.map (fun t => (t.1, t.2.1, t.2.2 ++ json)) }
  | .contentBlockDelta _ (.thinkingDelta thinking) =>
    { c with thinking := c.thinking.map (fun t => (t.1 ++ thinking, t.2)) }
  | .contentBlockDelta _ (.signatureDelta signature) =>
    { c with thinking := c.thinking.map (fun t => (t.1, t.2 ++ signature)) }
  | _ => c

section Cells

variable (messageId : String) (s : Accumulators) (i : ℕ)

theorem cell_startBlock (index : ℕ) (contentBlock : MessageContent) :
    cell (startBlock messageId index contentBlock s) i =
      if i = index then (cell s i).handle (.contentBlockStart index contentBlock)
      else cell s i := by
  by_cases hi : i = index
  · subst hi
    cases contentBlock <;> simp [cell, startBlock, Cell.handle, Accumulators.emit]
  · cases contentBlock <;>
      simp [cell, startBlock, hi, AList.lookup_insert_ne hi, Accumulators.emit]

theorem cell_applyDelta (index : ℕ) (delta : ContentBlockDelta) :
    cell (applyDelta messageId index delta s) i =
      if i = index then (cell s i).handle (.contentBlockDelta index delta)
      else cell s i := by
  by_cases hi : i = index
  · subst hi
    cases delta with
    | textDelta text =>
      cases h : s.textBlocks.lookup i <;> simp [cell, applyDelta, Cell.handle, h, Accumulators.emit]
    | inputJsonDelta json =>
      cases h : s.toolBlocks.lookup i <;> simp [cell, applyDelta, Cell.handle, h, Accumulators.emit]
    | thinkingDelta thinking =>
      cases h : s.thinkingBlocks.lookup i <;>
        simp [cell, applyDelta, Cell.handle, h, Accumulators.emit]
    | signatureDelta signature =>
      cases h : s.thinkingBlocks.lookup i <;> simp [cell, applyDelta, Cell.handle, h]
  · rw [if_neg hi]
    cases delta with
    | textDelta text =>
      cases h : s.textBlocks.lookup index <;>
        simp [cell, applyDelta, h, AList.lookup_insert_ne hi, Accumulators.emit]
    | inputJsonDelta json =>
      cases h : s.toolBlocks.lookup index <;>
        simp [cell, applyDelta, h, AList.lookup_insert_ne hi, Accumulators.emit]
    | thinkingDelta thinking =>
      cases h : s.thinkingBlocks.lookup index <;>
        simp [cell, applyDelta, h, AList.lookup_insert_ne hi, Accumulators.emit]
    | signatureDelta signature =>
      cases h : s.thinkingBlocks.lookup index <;>
        simp [cell, applyDelta, h, AList.lookup_insert_ne hi]

theorem cell_stopBlock (index : ℕ) : cell (stopBlock messageId index s) i = cell s i := by
  unfold stopBlock
  cases s.toolBlocks.lookup index <;> rfl

/-- An event changes no cell but that of the index it is about. -/
theorem cell_handleEvent (event : MessagesStreamEvent) :
    cell (handleEvent messageId s event) i =
      if event.index? = some i then (cell s i).handle event else cell s i := by
  cases event with
  | messageStart usage => cases usage <;> rfl
  | contentBlockStart index contentBlock =>
    simpa [handleEvent, MessagesStreamEvent.index?, eq_comm] using
      cell_startBlock messageId s i index contentBlock
  | contentBlockDelta index delta =>
    simpa [handleEvent, MessagesStreamEvent.index?, eq_comm] using
      cell_applyDelta messageId s i index delta
  | contentBlockStop index =>
    rw [handleEvent, cell_stopBlock]
    split <;> rfl
  | messageDelta stopReason usage => cases usage <;> rfl
  | messageStop => rfl

/-- After a stream a cell holds what the events about its index make of it. -/
theorem cell_readEvents (events : List MessagesStreamEvent) :
    cell (readEvents messageId s events) i =
      (events.filter (fun e => e.index? = some i)).foldl Cell.handle (cell s i) := by
  induction events generalizing s with
  | nil => rfl
  | cons event events ih =>
    have hstep : readEvents messageId s (event :: events) =
        readEvents messageId (handleEvent messageId s event) events := rfl
    rw [hstep, ih, cell_handleEvent]
    by_cases hi : event.index? = some i <;> simp [hi]

end Cells

inductive Block where
  | text (content : String)
  | toolUse (id name json : String)
  | thinking (content signature : String)

def blockEvents (i : ℕ) (start : MessageContent) (deltas : List ContentBlockDelta) :
    List MessagesStreamEvent :=
  .contentBlockStart i start :: deltas.map (.contentBlockDelta i) ++ [.contentBlockStop i]

def thinkingOf : ContentBlockDelta → Option String
  | .thinkingDelta thinking => some thinking
  | _ => none

def signatureOf : ContentBlockDelta → Option String
  | .signatureDelta signature => some signature
  | _ => none

/-- A list of events delivers a block: its start, its content split into deltas
in some way, its stop. -/
inductive Delivers (i : ℕ) : Block → List MessagesStreamEvent → Prop
  | text (content : String) (texts : List String) (hsplit : String.join texts = content) :
    Delivers i (.text content) (blockEvents i .text (texts.map .textDelta))
  | toolUse (id name json : String) (fragments : List String)
      (hsplit : String.join fragments = json) :
    Delivers i (.toolUse id name json)
      (blockEvents i (.toolUse id name) (fragments.map .inputJsonDelta))
  | thinking (content signature : String) (deltas : List ContentBlockDelta)
      (hkinds : ∀ d ∈ deltas, (thinkingOf d).isSome ∨ (signatureOf d).isSome)
      (hcontent : String.join (deltas.filterMap thinkingOf) = content)
      (hsignature : String.join (deltas.filterMap signatureOf) = signature) :
    Delivers i (.thinking content signature) (blockEvents i .thinking deltas)

/-- The stream interleaves the events of the blocks, keeping the order within each
block, with events about the message as a whole anywhere between. -/
structure Interleaves (blocks : List (ℕ × Block)) (events : List MessagesStreamEvent) : Prop where
  delivered : ∀ b ∈ blocks, Delivers b.1 b.2 (events.filter (fun e => e.index? = some b.1))
  covered : ∀ e ∈ events, ∀ i, e.index? = some i → i ∈ blocks.map Prod.fst

def Block.cell : Block → Cell
  | .text content => ⟨some content, none, none⟩
  | .toolUse id name json => ⟨none, some (id, name, json), none⟩
  | .thinking content signature => ⟨none, none, some (content, signature)⟩

def Block.part (fromStr : String → Except String Value) : Block → Option ContentPart
  | .text content => if content = "" then none else some (.text content)
  | .toolUse id name json => some (.toolCall id name (toolInput fromStr json))
  | .thinking content signature =>
    if content = "" then none
    else some (.thinking content (if signature = "" then none else some signature))

theorem foldl_blockEvents (i : ℕ) (start : MessageContent) (deltas : List ContentBlockDelta)
    (c : Cell) :
    (blockEvents i start deltas).foldl Cell.handle c =
      (deltas.map (.contentBlockDelta i)).foldl Cell.handle
        (c.handle (.contentBlockStart i start)) := by
  simp [blockEvents, Cell.handle]

theorem foldl_texts (i : ℕ) (texts : List String) (acc : String) :
    ((texts.map .textDelta).map (.contentBlockDelta i)).foldl Cell.handle
      ⟨some acc, none, none⟩ = ⟨some (acc ++ String.join texts), none, none⟩ := by
  induction texts generalizing acc with
  | nil => simp
  | cons text texts ih => simpa [Cell.handle, String.append_assoc] using ih (acc ++ text)

theorem foldl_fragments (i : ℕ) (id name : String) (fragments : List String) (acc : String) :
    ((fragments.map .inputJsonDelta).map (.contentBlockDelta i)).foldl Cell.handle
      ⟨none, some (id, name, acc), none⟩ =
      ⟨none, some (id, name, acc ++ String.join fragments), none⟩ := by
  induction fragments generalizing acc with
  | nil => simp
  | cons json fragments ih => simpa [Cell.handle, String.append_assoc] using ih (acc ++ json)

theorem foldl_thinking (i : ℕ) (deltas : List ContentBlockDelta)
    (hkinds : ∀ d ∈ deltas, (thinkingOf d).isSome ∨ (signatureOf d).isSome)
    (acc sig : String) :
    (deltas.map (.contentBlockDelta i)).foldl Cell.handle ⟨none, none, some (acc, sig)⟩ =
      ⟨none, none, some (acc ++ String.join (deltas.filterMap thinkingOf),
        sig ++ String.join (deltas.filterMap signatureOf))⟩ := by
  induction deltas generalizing acc sig with
  | nil => simp
  | cons delta deltas ih =>
    have hdelta := hkinds delta List.mem_cons_self
    have hrest := fun d hd => hkinds d (List.mem_cons_of_mem _ hd)
    cases delta with
    | textDelta text => simp [thinkingOf, signatureOf] at hdelta
    | inputJsonDelta json => simp [thinkingOf, signatureOf] at hdelta
    | thinkingDelta thinking =>
      rw [List.filterMap_cons_some (f := thinkingOf) rfl,
        List.filterMap_cons_none (f := signatureOf) rfl]
      simpa [Cell.handle, String.append_assoc] using ih hrest (acc ++ thinking) sig
    | signatureDelta signature =>
      rw [List.filterMap_cons_none (f := thinkingOf) rfl,
        List.filterMap_cons_some (f := signatureOf) rfl]
      simpa [Cell.handle, String.append_assoc] using ih hrest acc (sig ++ signature)

/-- Whatever the split, the events of a block leave the block in its cell. -/
theorem Delivers.cell_eq {i : ℕ} {b : Block} {events : List MessagesStreamEvent}
    (h : Delivers i b events) : events.foldl Cell.handle ⟨none, none, none⟩ = b.cell := by
  cases h with
  | text content texts hsplit =>
    rw [foldl_blockEvents]
    refine (foldl_texts i texts "").trans ?_
    rw [hsplit, String.empty_append]
    rfl
  | toolUse id name json fragments hsplit =>
    rw [foldl_blockEvents]
    refine (foldl_fragments i id name fragments "").trans ?_
    rw [hsplit, String.empty_append]
    rfl
  | thinking content signature deltas hkinds hcontent hsignature =>
    rw [foldl_blockEvents]
    refine (foldl_thinking i deltas hkinds "" "").trans ?_
    rw [hcontent, hsignature, String.empty_append, String.empty_append]
    rfl

theorem assemblePart_eq (fromStr : String → Except String Value) {s : Accumulators} {i : ℕ}
    {b : Block} (h : cell s i = b.cell) : assemblePart fromStr s i = b.part fromStr := by
  cases b <;> simp only [cell, Block.cell, Cell.mk.injEq] at h <;> obtain ⟨h₁, h₂, h₃⟩ := h <;>
    simp [assemblePart, h₁, h₂, h₃, Block.part]

/-! ### The order of the parts -/

section Order

variable {blocks : List (ℕ × Block)} {s : Accumulators}

structure Holds (s : Accumulators) (blocks : List (ℕ × Block)) : Prop where
  block : ∀ b ∈ blocks, cell s b.1 = b.2.cell
  only : ∀ i, i ∉ blocks.map Prod.fst → cell s i = ⟨none, none, none⟩

theorem mem_keys_iff_lookup {β : ℕ → Type} (m : AList β) (i : ℕ) :
    i ∈ m.keys ↔ m.lookup i ≠ none := by
  rw [← AList.mem_keys, ← AList.lookup_isSome, Option.isSome_iff_ne_none]

theorem mem_keys_iff (s : Accumulators) (i : ℕ) :
    i ∈ s.textBlocks.keys ++ s.toolBlocks.keys ++ s.thinkingBlocks.keys ↔
      cell s i ≠ ⟨none, none, none⟩ := by
  simp only [List.mem_append, mem_keys_iff_lookup, cell, ne_eq, Cell.mk.injEq, not_and_or, or_assoc]

theorem Block.cell_ne (b : Block) : b.cell ≠ ⟨none, none, none⟩ := by
  cases b <;> simp [Block.cell]

/-- No index is in two of the maps. -/
theorem Holds.one_map (h : Holds s blocks) (i : ℕ) :
    (i ∈ s.textBlocks.keys → i ∉ s.toolBlocks.keys ∧ i ∉ s.thinkingBlocks.keys) ∧
      (i ∈ s.toolBlocks.keys → i ∉ s.thinkingBlocks.keys) := by
  have hcell : cell s i = ⟨none, none, none⟩ ∨ ∃ b : Block, cell s i = b.cell := by
    by_cases hi : i ∈ blocks.map Prod.fst
    · obtain ⟨b, hb, rfl⟩ := List.mem_map.mp hi
      exact Or.inr ⟨b.2, h.block b hb⟩
    · exact Or.inl (h.only i hi)
  simp only [mem_keys_iff_lookup]
  rcases hcell with hcell | ⟨b, hcell⟩
  · simp only [cell, Cell.mk.injEq] at hcell
    simp [hcell]
  · cases b <;> simp only [cell, Block.cell, Cell.mk.injEq] at hcell <;> simp [hcell]

theorem Holds.nodup_keys (h : Holds s blocks) :
    (s.textBlocks.keys ++ s.toolBlocks.keys ++ s.thinkingBlocks.keys).Nodup := by
  rw [List.append_assoc, List.nodup_append, List.nodup_append]
  refine ⟨s.textBlocks.keys_nodup, ⟨s.toolBlocks.keys_nodup, s.thinkingBlocks.keys_nodup, ?_⟩, ?_⟩
  · rintro i hi _ hj rfl
    exact (h.one_map i).2 hi hj
  · rintro i hi _ hj rfl
    rcases List.mem_append.mp hj with hj | hj
    · exact ((h.one_map i).1 hi).1 hj
    · exact ((h.one_map i).1 hi).2 hj

/-- The indices of the parts are those of the blocks, in increasing order. -/
theorem Holds.allIndices_eq (h : Holds s blocks) (hdistinct : (blocks.map Prod.fst).Nodup) :
    allIndices s = (blocks.mergeSort (fun a b => decide (a.1 ≤ b.1))).map Prod.fst := by
  have hperm : (s.textBlocks.keys ++ s.toolBlocks.keys ++ s.thinkingBlocks.keys).Perm
      (blocks.map Prod.fst) := by
    refine (List.perm_ext_iff_of_nodup h.nodup_keys hdistinct).mpr (fun i => ?_)
    rw [mem_keys_iff]
    constructor
    · intro hi
      by_contra hnot
      exact hi (h.only i hnot)
    · intro hi
      obtain ⟨b, hb, rfl⟩ := List.mem_map.mp hi
      rw [h.block b hb]
      exact b.2.cell_ne
  have hsorted : (s.textBlocks.keys ++ s.toolBlocks.keys ++ s.thinkingBlocks.keys).mergeSort
      (fun i j => decide (i ≤ j)) =
      (blocks.mergeSort (fun a b => decide (a.1 ≤ b.1))).map Prod.fst := by
    refine List.Perm.eq_of_pairwise' (r := (· ≤ ·)) (List.pairwise_mergeSort' (· ≤ ·) _) ?_ ?_
    · refine List.pairwise_map.mpr ((List.pairwise_mergeSort ?_ ?_ blocks).imp of_decide_eq_true)
      · intro a b c hab hbc
        exact decide_eq_true ((of_decide_eq_true hab).trans (of_decide_eq_true hbc))
      · intro a b
        simpa using Nat.le_total a.1 b.1
    · exact (List.mergeSort_perm _ _).trans
        (hperm.trans ((List.mergeSort_perm blocks _).map Prod.fst).symm)
  have hnodup : ((blocks.mergeSort (fun a b => decide (a.1 ≤ b.1))).map Prod.fst).Nodup :=
    (((List.mergeSort_perm blocks _).map Prod.fst).nodup_iff).mpr hdistinct
  rw [allIndices, hsorted]
  exact List.destutter_of_isChain _ _ hnodup.isChain

/-- The parts of the answer are those of the blocks in increasing order of their indices. -/
theorem Holds.parts_eq (fromStr : String → Except String Value) (h : Holds s blocks)
    (hdistinct : (blocks.map Prod.fst).Nodup) :
    (assemble fromStr s).parts =
      (blocks.mergeSort (fun a b => decide (a.1 ≤ b.1))).filterMap
        (fun b => b.2.part fromStr) := by
  have hparts : (assemble fromStr s).parts =
      (allIndices s).filterMap (assemblePart fromStr s) := rfl
  rw [hparts, h.allIndices_eq hdistinct, List.filterMap_map]
  refine List.filterMap_congr (fun b hb => ?_)
  exact assemblePart_eq fromStr (h.block b ((List.mergeSort_perm blocks _).mem_iff.mp hb))

end Order

/-- After any interleaving of their events the maps hold the blocks. -/
theorem Interleaves.holds {blocks : List (ℕ × Block)} {events : List MessagesStreamEvent}
    (messageId : String) (h : Interleaves blocks events) :
    Holds (readEvents messageId Accumulators.init events) blocks := by
  have hempty (i : ℕ) : cell Accumulators.init i = ⟨none, none, none⟩ := rfl
  refine ⟨fun b hb => ?_, fun i hi => ?_⟩
  · rw [cell_readEvents, hempty]
    exact (h.delivered b hb).cell_eq
  · have hnone : events.filter (fun e => e.index? = some i) = [] := by
      refine List.filter_eq_nil_iff.mpr (fun e he habout => ?_)
      exact hi (h.covered e he i (of_decide_eq_true habout))
    rw [cell_readEvents, hnone, List.foldl_nil, hempty]

/-- Without an error the first attempt is the last one. -/
theorem complete_ok (display : AnthropicError → String) (fromStr : String → Except String Value)
    (messageId : String) (streams : ℕ → List (Except AnthropicError MessagesStreamEvent))
    (events : List MessagesStreamEvent) (hstream : streams 0 = events.map .ok) :
    (complete display fromStr messageId streams).1 =
      .ok (assemble fromStr (readEvents messageId Accumulators.init events)) := by
  simp [complete, retryLoop, hstream, readStream_ok]

/-- Content blocks with distinct indices, split into deltas in any way and interleaved
in any order that keeps each block's own, are returned as the parts of the answer in
the order of their indices. -/
theorem complete_parts (display : AnthropicError → String)
    (fromStr : String → Except String Value) (messageId : String)
    (streams : ℕ → List (Except AnthropicError MessagesStreamEvent))
    (blocks : List (ℕ × Block)) (hdistinct : (blocks.map Prod.fst).Nodup)
    (events : List MessagesStreamEvent) (hevents : Interleaves blocks events)
    (hstream : streams 0 = events.map .ok) :
    ∃ response, (complete display fromStr messageId streams).1 = .ok response ∧
      response.parts = (blocks.mergeSort (fun a b => decide (a.1 ≤ b.1))).filterMap
        (fun b => b.2.part fromStr) :=
  ⟨_, complete_ok display fromStr messageId streams events hstream,
    (hevents.holds messageId).parts_eq fromStr hdistinct⟩

def mixedEvents : List MessagesStreamEvent :=
  [.messageStart none, .contentBlockStart 2 .text, .contentBlockStart 0 .thinking,
    .contentBlockDelta 0 (.thinkingDelta "hm"), .contentBlockDelta 2 (.textDelta "Hel"),
    .contentBlockStart 1 (.toolUse "t1" "ls"), .contentBlockDelta 0 (.signatureDelta "sig"),
    .contentBlockStop 0, .contentBlockDelta 1 (.inputJsonDelta "\x7b"),
    .contentBlockDelta 2 (.textDelta "lo"), .contentBlockDelta 1 (.inputJsonDelta "\x7d"),
    .contentBlockStop 2, .contentBlockStop 1, .messageDelta (some "tool_use") none, .messageStop]

def mixedBlocks : List (ℕ × Block) :=
  [(2, .text "Hello"), (1, .toolUse "t1" "ls" "\x7b\x7d"), (0, .thinking "hm" "sig")]

theorem mixedEvents_interleaves : Interleaves mixedBlocks mixedEvents := by
  refine ⟨?_, ?_⟩
  · intro b hb
    simp only [mixedBlocks, List.mem_cons, List.not_mem_nil, or_false] at hb
    rcases hb with rfl | rfl | rfl
    · exact Delivers.text "Hello" ["Hel", "lo"] (by decide)
    · exact Delivers.toolUse "t1" "ls" "\x7b\x7d" ["\x7b", "\x7d"] (by decide)
    · exact Delivers.thinking "hm" "sig" [.thinkingDelta "hm", .signatureDelta "sig"]
        (by simp [thinkingOf, signatureOf]) (by decide) (by decide)
  · intro e he i hi
    have hall : mixedEvents.all
        (fun e => e.index?.all (fun i => decide (i ∈ mixedBlocks.map Prod.fst))) = true := by
      decide
    have hevent := List.all_eq_true.mp hall e he
    rw [hi] at hevent
    exact of_decide_eq_true hevent

/-- A thought, a tool call and a text are returned in the order of their indices. -/
theorem complete_parts_mixed :
    ∃ response, (complete (fun _ => "") (fun _ => .ok (.object [])) "msg"
        (fun _ => mixedEvents.map .ok)).1 = .ok response ∧
      response.parts = (mixedBlocks.mergeSort (fun a b => decide (a.1 ≤ b.1))).filterMap
        (fun b => b.2.part (fun _ => .ok (.object []))) :=
  complete_parts _ _ "msg" _ mixedBlocks (by decide) mixedEvents mixedEvents_interleaves rfl

end October.ReassembledBlocks
