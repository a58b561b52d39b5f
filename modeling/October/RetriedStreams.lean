import October.ReassembledBlocks

/-!
What failed attempts leave behind. An attempt that fails before any content block
leaves empty maps and a fresh start for the rest, so a retried answer is assembled
from its own stream only. The last error outlives the attempts: an answer without
content is reported as that error once something was retried. A call reads the streams
of its attempts and no others.
-/

namespace October.RetriedStreams

open AnthropicProvider

def startsContent : MessagesStreamEvent → Bool
  | .contentBlockStart _ .toolResult => false
  | .contentBlockStart _ _ => true
  | _ => false

/-- The stream fails with an error that may be retried before any event about a content block. -/
def FailsEarly (display : AnthropicError → String)
    (stream : List (Except AnthropicError MessagesStreamEvent)) : Prop :=
  ∃ (events : List MessagesStreamEvent) (e : AnthropicError)
    (rest : List (Except AnthropicError MessagesStreamEvent)),
    stream = events.map .ok ++ .error e :: rest ∧ (∀ event ∈ events, event.index? = none) ∧
      isRetryable (display e) = true

def collected (s : Accumulators) : Accumulators := { s with emitted := [] }

section Events

variable (messageId : String)

theorem collected_handleEvent (s : Accumulators) (event : MessagesStreamEvent) :
    collected (handleEvent messageId s event) =
      collected (handleEvent messageId (collected s) event) := by
  cases event with
  | messageStart usage => cases usage <;> rfl
  | contentBlockStart index contentBlock => cases contentBlock <;> rfl
  | contentBlockDelta index delta =>
    cases delta with
    | textDelta text =>
      cases h : s.textBlocks.lookup index <;>
        simp [handleEvent, applyDelta, collected, h, Accumulators.emit]
    | inputJsonDelta json =>
      cases h : s.toolBlocks.lookup index <;>
        simp [handleEvent, applyDelta, collected, h, Accumulators.emit]
    | thinkingDelta thinking =>
      cases h : s.thinkingBlocks.lookup index <;>
        simp [handleEvent, applyDelta, collected, h, Accumulators.emit]
    | signatureDelta signature =>
      cases h : s.thinkingBlocks.lookup index <;>
        simp [handleEvent, applyDelta, collected, h]
  | contentBlockStop index =>
    cases h : s.toolBlocks.lookup index <;>
      simp [handleEvent, stopBlock, collected, h, Accumulators.emit]
  | messageDelta stopReason usage => cases usage <;> rfl
  | messageStop => rfl

/-- What a stream leaves collected does not depend on what was emitted before it. -/
theorem collected_readEvents {s t : Accumulators} (h : collected s = collected t)
    (events : List MessagesStreamEvent) :
    collected (readEvents messageId s events) = collected (readEvents messageId t events) := by
  induction events generalizing s t with
  | nil => exact h
  | cons event events ih =>
    refine ih ?_
    rw [collected_handleEvent, h, ← collected_handleEvent]

theorem isEmpty_of_lookup {β : ℕ → Type} {m : AList β} {i : ℕ} {b : β i}
    (h : m.lookup i = some b) (b' : β i) : (m.insert i b').keys.isEmpty = m.keys.isEmpty := by
  have hi : i ∈ m.keys := (ReassembledBlocks.mem_keys_iff_lookup m i).mpr (by simp [h])
  have hm : m.keys.isEmpty = false := List.isEmpty_eq_false_iff.mpr (List.ne_nil_of_mem hi)
  rw [AList.keys_insert, hm]
  rfl

/-- Only the start of a block fills an empty map. -/
theorem isEmpty_handleEvent (s : Accumulators) (event : MessagesStreamEvent) :
    (handleEvent messageId s event).isEmpty = (s.isEmpty && !startsContent event) := by
  cases event with
  | messageStart usage => cases usage <;> simp [handleEvent, startsContent, Accumulators.isEmpty]
  | contentBlockStart index contentBlock =>
    cases contentBlock <;>
      simp [handleEvent, startBlock, startsContent, Accumulators.isEmpty]
  | contentBlockDelta index delta =>
    cases delta with
    | textDelta text =>
      simp only [handleEvent, applyDelta, startsContent, Bool.not_false, Bool.and_true]
      cases h : s.textBlocks.lookup index with
      | none => rfl
      | some acc => simp only [Accumulators.isEmpty, Accumulators.emit, isEmpty_of_lookup h]
    | inputJsonDelta json =>
      simp only [handleEvent, applyDelta, startsContent, Bool.not_false, Bool.and_true]
      cases h : s.toolBlocks.lookup index with
      | none => rfl
      | some acc => simp only [Accumulators.isEmpty, Accumulators.emit, isEmpty_of_lookup h]
    | thinkingDelta thinking =>
      simp only [handleEvent, applyDelta, startsContent, Bool.not_false, Bool.and_true]
      cases h : s.thinkingBlocks.lookup index with
      | none => rfl
      | some acc => simp only [Accumulators.isEmpty, Accumulators.emit, isEmpty_of_lookup h]
    | signatureDelta signature =>
      simp only [handleEvent, applyDelta, startsContent, Bool.not_false, Bool.and_true]
      cases h : s.thinkingBlocks.lookup index with
      | none => rfl
      | some acc => simp only [Accumulators.isEmpty, isEmpty_of_lookup h]
  | contentBlockStop index =>
    cases h : s.toolBlocks.lookup index <;>
      simp [handleEvent, stopBlock, startsContent, Accumulators.isEmpty, Accumulators.emit, h]
  | messageDelta stopReason usage =>
    cases usage <;> simp [handleEvent, startsContent, Accumulators.isEmpty]
  | messageStop => simp [handleEvent, startsContent]

theorem isEmpty_readEvents (s : Accumulators) (events : List MessagesStreamEvent) :
    (readEvents messageId s events).isEmpty = (s.isEmpty && !events.any startsContent) := by
  induction events generalizing s with
  | nil => simp [readEvents]
  | cons event events ih =>
    have hstep : readEvents messageId s (event :: events) =
        readEvents messageId (handleEvent messageId s event) events := rfl
    rw [hstep, ih, isEmpty_handleEvent, List.any_cons, Bool.not_or, Bool.and_assoc]

end Events

section Retries

variable (display : AnthropicError → String) (fromStr : String → Except String Value)
  (messageId : String)

/-- An attempt that fails early asks for another one and has collected no block. -/
theorem FailsEarly.readStream_eq {stream : List (Except AnthropicError MessagesStreamEvent)}
    (h : FailsEarly display stream) {s : Accumulators} (hs : s.isEmpty = true) :
    ∃ e s', readStream display messageId s stream = (.retry e, s') ∧ s'.isEmpty = true := by
  obtain ⟨events, e, rest, rfl, hevents, hretry⟩ := h
  have hempty : (readEvents messageId s events).isEmpty = true := by
    have hnone : events.any startsContent = false := by
      rw [List.any_eq_false]
      intro event hevent
      have hindex := hevents event hevent
      cases event <;> simp [MessagesStreamEvent.index?, startsContent] at hindex ⊢
    rw [isEmpty_readEvents, hs, hnone]
    rfl
  refine ⟨toLlmError display e, readEvents messageId s events, ?_, hempty⟩
  rw [readStream_append, readStream, hretry, hempty]
  rfl

theorem isEmpty_cleared (s : Accumulators) : s.cleared.isEmpty = true := rfl

/-- An attempt starts without content. -/
theorem isEmpty_start {s : Accumulators} (attempt : ℕ) (hs : s.isEmpty = true) :
    (if 0 < attempt then s.cleared else s).isEmpty = true := by
  split
  · exact isEmpty_cleared s
  · exact hs

theorem forall_later (p : ℕ → Prop) {attempt k : ℕ} (h : ∀ j < k + 1, p (attempt + j)) :
    ∀ j < k, p (attempt + 1 + j) := by
  intro j hj
  have hj' := h (j + 1) (Nat.succ_lt_succ hj)
  rwa [Nat.add_assoc, Nat.add_comm 1 j]

/-- The attempts that are left behind some of them. -/
theorem exists_remaining {k : ℕ} (hk : k ≤ maxStreamRetries) :
    ∃ remaining, maxStreamRetries + 1 = remaining + 1 + k :=
  ⟨maxStreamRetries - k, by omega⟩

/-- After attempts that all fail early the loop goes on with their last error. -/
theorem retryLoop_failed (streams : ℕ → List (Except AnthropicError MessagesStreamEvent))
    (k remaining attempt : ℕ) (hfail : ∀ j < k, FailsEarly display (streams (attempt + j)))
    (lastError : Option LlmError) (s : Accumulators) (hs : s.isEmpty = true) (hk : 0 < k) :
    ∃ e s', retryLoop display messageId streams (remaining + k) attempt lastError s =
        retryLoop display messageId streams remaining (attempt + k) (some e) s' ∧
      s'.isEmpty = true := by
  induction k generalizing attempt lastError s with
  | zero => omega
  | succ k ih =>
    have hnow : FailsEarly display (streams attempt) := hfail 0 (by omega)
    obtain ⟨e, s', hread, hs'⟩ := hnow.readStream_eq display messageId (isEmpty_start attempt hs)
    have hstep : retryLoop display messageId streams (remaining + (k + 1)) attempt lastError s =
        retryLoop display messageId streams (remaining + k) (attempt + 1) (some e) s' := by
      rw [← Nat.add_assoc, retryLoop]
      simp only [hread]
    cases k with
    | zero => exact ⟨e, s', hstep, hs'⟩
    | succ k =>
      have hlater := forall_later (fun n => FailsEarly display (streams n)) hfail
      obtain ⟨e', s'', hloop, hs''⟩ := ih (attempt + 1) hlater (some e) s' hs' (by omega)
      refine ⟨e', s'', hstep.trans ?_, hs''⟩
      rw [hloop, Nat.add_assoc attempt 1 (k + 1), Nat.add_comm 1 (k + 1)]

/-- The answer to a stream after retried attempts: that of the stream alone, unless it
brought no content, and then the last retried error. -/
theorem complete_retried (streams : ℕ → List (Except AnthropicError MessagesStreamEvent))
    (k : ℕ) (hk : k ≤ maxStreamRetries) (hpos : 0 < k)
    (hfail : ∀ j < k, FailsEarly display (streams j))
    (events : List MessagesStreamEvent) (hfinal : streams k = events.map .ok) :
    ∃ e, (complete display fromStr messageId streams).1 =
      if events.any startsContent then
        .ok (assemble fromStr (readEvents messageId Accumulators.init events))
      else .error e := by
  obtain ⟨remaining, hremaining⟩ := exists_remaining hk
  obtain ⟨e, s, hloop, -⟩ := retryLoop_failed display messageId streams k (remaining + 1) 0
    (by simpa using hfail) none Accumulators.init rfl hpos
  have hclean : collected s.cleared = collected Accumulators.init := rfl
  have hcollected := collected_readEvents messageId hclean events
  have hempty : (readEvents messageId s.cleared events).isEmpty = !events.any startsContent := by
    rw [isEmpty_readEvents, isEmpty_cleared, Bool.true_and]
  have hlast : retryLoop display messageId streams (maxStreamRetries + 1) 0 none
      Accumulators.init = (.ok (some e), readEvents messageId s.cleared events) := by
    rw [hremaining, hloop, Nat.zero_add, retryLoop, if_pos hpos, hfinal, readStream_ok]
  have hassemble (s t : Accumulators) (h : collected s = collected t) :
      assemble fromStr s = assemble fromStr t := by
    have hs (s : Accumulators) : assemble fromStr s = assemble fromStr (collected s) := rfl
    rw [hs s, h, ← hs t]
  refine ⟨e, ?_⟩
  rw [complete, hlast]
  by_cases hcontent : events.any startsContent = true
  · rw [if_pos hcontent, hassemble _ _ hcollected.symm]
    simp [hempty, hcontent]
  · rw [if_neg hcontent]
    simp [hempty, hcontent]

end Retries

section Attempts

variable (display : AnthropicError → String) (messageId : String)

/-- The number of attempts that `retryLoop` makes. -/
def attemptsFrom (streams : ℕ → List (Except AnthropicError MessagesStreamEvent)) :
    ℕ → ℕ → Accumulators → ℕ
  | 0, _, _ => 0
  | remaining + 1, attempt, s =>
    let s := if 0 < attempt then s.cleared else s
    match readStream display messageId s (streams attempt) with
    | (.finished, _) => 1
    | (.retry _, s) => attemptsFrom streams remaining (attempt + 1) s + 1
    | (.failed _, _) => 1

def attempts (streams : ℕ → List (Except AnthropicError MessagesStreamEvent)) : ℕ :=
  attemptsFrom display messageId streams (maxStreamRetries + 1) 0 Accumulators.init

theorem attemptsFrom_pos (streams : ℕ → List (Except AnthropicError MessagesStreamEvent))
    (remaining attempt : ℕ) (s : Accumulators) :
    0 < attemptsFrom display messageId streams (remaining + 1) attempt s := by
  rw [attemptsFrom]
  split <;> exact Nat.succ_pos _

/-- The loop reads the streams of its attempts only. -/
theorem retryLoop_congr (streams others : ℕ → List (Except AnthropicError MessagesStreamEvent))
    (remaining attempt : ℕ) (lastError : Option LlmError) (s : Accumulators)
    (hsame : ∀ n < attemptsFrom display messageId streams remaining attempt s,
      others (attempt + n) = streams (attempt + n)) :
    retryLoop display messageId others remaining attempt lastError s =
      retryLoop display messageId streams remaining attempt lastError s := by
  induction remaining generalizing attempt lastError s with
  | zero => rfl
  | succ remaining ih =>
    have hnow : others attempt = streams attempt :=
      hsame 0 (attemptsFrom_pos display messageId streams remaining attempt s)
    rw [attemptsFrom] at hsame
    rw [retryLoop, retryLoop, hnow]
    rcases hread : readStream display messageId (if 0 < attempt then s.cleared else s)
      (streams attempt) with ⟨_ | e | e, s'⟩
    · rfl
    · simp only [hread] at hsame
      exact ih (attempt + 1) (some e) s'
        (forall_later (fun n => others n = streams n) hsame)
    · rfl

/-- A call depends on nothing but what its attempts receive. -/
theorem complete_congr (fromStr : String → Except String Value)
    (streams others : ℕ → List (Except AnthropicError MessagesStreamEvent))
    (hsame : ∀ n < attempts display messageId streams, others n = streams n) :
    complete display fromStr messageId others = complete display fromStr messageId streams := by
  rw [complete, complete, retryLoop_congr display messageId streams others _ 0 none _
    (fun n hn => by rw [Nat.zero_add]; exact hsame n hn)]

/-- Each attempt that fails early counts once. -/
theorem attemptsFrom_failed (streams : ℕ → List (Except AnthropicError MessagesStreamEvent))
    (k remaining attempt : ℕ) (hfail : ∀ j < k, FailsEarly display (streams (attempt + j)))
    (s : Accumulators) (hs : s.isEmpty = true) :
    ∃ s', attemptsFrom display messageId streams (remaining + k) attempt s =
      attemptsFrom display messageId streams remaining (attempt + k) s' + k := by
  induction k generalizing attempt s with
  | zero => exact ⟨s, rfl⟩
  | succ k ih =>
    have hnow : FailsEarly display (streams attempt) := hfail 0 (by omega)
    obtain ⟨e, s', hread, hs'⟩ := hnow.readStream_eq display messageId (isEmpty_start attempt hs)
    have hlater := forall_later (fun n => FailsEarly display (streams n)) hfail
    obtain ⟨s'', hcount⟩ := ih (attempt + 1) hlater s' hs'
    refine ⟨s'', ?_⟩
    rw [← Nat.add_assoc, attemptsFrom]
    simp only [hread]
    rw [hcount, Nat.add_assoc attempt 1 k, Nat.add_comm 1 k, Nat.add_assoc]

/-- The stream that follows the failed attempts is the last one read. -/
theorem attempts_answered (streams : ℕ → List (Except AnthropicError MessagesStreamEvent))
    (k : ℕ) (hk : k ≤ maxStreamRetries) (hfail : ∀ j < k, FailsEarly display (streams j))
    (events : List MessagesStreamEvent) (hfinal : streams k = events.map .ok) :
    attempts display messageId streams = k + 1 := by
  obtain ⟨remaining, hremaining⟩ := exists_remaining hk
  obtain ⟨s, hcount⟩ := attemptsFrom_failed display messageId streams k (remaining + 1) 0
    (by simpa using hfail) Accumulators.init rfl
  rw [attempts, hremaining, hcount, attemptsFrom, Nat.zero_add, hfinal, readStream_ok,
    Nat.add_comm]

theorem attempts_exhausted (streams : ℕ → List (Except AnthropicError MessagesStreamEvent))
    (hfail : ∀ j < maxStreamRetries + 1, FailsEarly display (streams j)) :
    attempts display messageId streams = maxStreamRetries + 1 := by
  obtain ⟨s, hcount⟩ := attemptsFrom_failed display messageId streams (maxStreamRetries + 1) 0 0
    (by simpa using hfail) Accumulators.init rfl
  rw [Nat.zero_add, attemptsFrom, Nat.zero_add] at hcount
  exact hcount

/-- A call does not stop at attempts that fail early before the last of them. -/
theorem lt_attempts (streams : ℕ → List (Except AnthropicError MessagesStreamEvent))
    (k : ℕ) (hk : k ≤ maxStreamRetries) (hfail : ∀ j < k, FailsEarly display (streams j)) :
    k < attempts display messageId streams := by
  obtain ⟨remaining, hremaining⟩ := exists_remaining hk
  obtain ⟨s, hcount⟩ := attemptsFrom_failed display messageId streams k (remaining + 1) 0
    (by simpa using hfail) Accumulators.init rfl
  have hpos := attemptsFrom_pos display messageId streams remaining (0 + k) s
  rw [attempts, hremaining, hcount]
  omega

end Attempts

/-- Retried attempts leave no trace in the answer exactly if there were none or the
stream that follows them starts a content block. -/
theorem complete_retried_iff (display : AnthropicError → String)
    (fromStr : String → Except String Value) (messageId : String)
    (streams alone : ℕ → List (Except AnthropicError MessagesStreamEvent))
    (k : ℕ) (hk : k ≤ maxStreamRetries) (hfail : ∀ j < k, FailsEarly display (streams j))
    (events : List MessagesStreamEvent) (hfinal : streams k = events.map .ok)
    (halone : alone 0 = events.map .ok) :
    (complete display fromStr messageId streams).1 =
        (complete display fromStr messageId alone).1 ↔
      k = 0 ∨ ∃ event ∈ events, startsContent event = true := by
  rw [ReassembledBlocks.complete_ok display fromStr messageId alone events halone]
  rcases Nat.eq_zero_or_pos k with rfl | hpos
  · rw [ReassembledBlocks.complete_ok display fromStr messageId streams events hfinal]
    simp
  · obtain ⟨e, hresult⟩ :=
      complete_retried display fromStr messageId streams k hk hpos hfail events hfinal
    rw [hresult, ← List.any_eq_true]
    by_cases hcontent : events.any startsContent = true
    · simp [hcontent]
    · have hk : k ≠ 0 := by omega
      simp [hcontent, hk]

def overloadedThenEmpty : ℕ → List (Except AnthropicError MessagesStreamEvent)
  | 0 => [.error (.apiError "overloaded_error")]
  | _ => [.messageStart none, .messageDelta (some "end_turn") none, .messageStop].map .ok

/-- The retried answer is an error although the same answer alone is none. -/
theorem overloaded_empty_answer :
    ¬ ∀ (display : AnthropicError → String) (fromStr : String → Except String Value)
      (messageId : String)
      (streams alone : ℕ → List (Except AnthropicError MessagesStreamEvent)) (k : ℕ),
      k ≤ maxStreamRetries → (∀ j < k, FailsEarly display (streams j)) →
      ∀ events : List MessagesStreamEvent, streams k = events.map .ok →
        alone 0 = events.map .ok →
        (complete display fromStr messageId streams).1 =
          (complete display fromStr messageId alone).1 := by
  intro h
  have hsame := h (fun _ => "overloaded_error") (fun _ => .error "") "msg" overloadedThenEmpty
    (fun _ => overloadedThenEmpty 1) 1 (by decide) (fun j hj => ?_) _ rfl rfl
  · cases hsame
  · obtain rfl : j = 0 := by omega
    exact ⟨[], .apiError "overloaded_error", [], rfl, by simp, by decide⟩

/-- Two overloaded attempts before a text leave no trace. -/
theorem retried_text :
    (complete (fun _ => "overloaded_error") (fun _ => .error "") "msg"
        (fun n => if n < 2 then [.error (.apiError "overloaded_error")]
          else [.contentBlockStart 0 .text, .contentBlockStop 0].map .ok)).1 =
      (complete (fun _ => "overloaded_error") (fun _ => .error "") "msg"
        (fun _ => [.contentBlockStart 0 .text, .contentBlockStop 0].map .ok)).1 := by
  refine (complete_retried_iff _ _ "msg" _ _ 2 (by decide) (fun j hj => ?_)
    [.contentBlockStart 0 .text, .contentBlockStop 0] rfl rfl).mpr
    (Or.inr ⟨_, List.mem_cons_self, rfl⟩)
  exact ⟨[], .apiError "overloaded_error", [], if_pos hj, by simp, by decide⟩

end October.RetriedStreams
