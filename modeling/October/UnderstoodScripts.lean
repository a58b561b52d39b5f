import October.RetriedStreams
import October.ScriptedSessions

/-!
The provider against the mock server. Each response a scenario holds is sent as a stream of
events, and `complete` reads back what the scenario says; a scripted error costs one attempt.
So a call of the provider reads the script from its session's place to the first response
that is no error.
-/
namespace October.UnderstoodScripts

open AnthropicProvider MockServer MockStreams ReassembledBlocks RetriedStreams ScriptedSessions

/-- The client library takes the server's events for what they are, and the text of a
stream's error names its type. -/
structure DecodesReplies (decode : String × Value → Except AnthropicError MessagesStreamEvent)
    (display : AnthropicError → String) : Prop where
  startMessage (msgId : String) (n : ℕ) : n < UInt32.size →
    decode ("message_start", startMessage msgId n) =
      .ok (.messageStart (some ⟨some 10, some (UInt32.ofNat n)⟩))
  text : decode ("content_block_start", MockServer.startBlock textBlock) =
    .ok (.contentBlockStart 0 .text)
  toolUse (id name : String) :
    decode ("content_block_start", MockServer.startBlock (toolUseBlock id name)) =
      .ok (.contentBlockStart 0 (.toolUse id name))
  thinking : decode ("content_block_start", MockServer.startBlock thinkingBlock) =
    .ok (.contentBlockStart 0 .thinking)
  textDelta (text : String) :
    decode ("content_block_delta", blockDelta (MockServer.textDelta text)) =
      .ok (.contentBlockDelta 0 (.textDelta text))
  jsonDelta (json : String) :
    decode ("content_block_delta", blockDelta (MockServer.jsonDelta json)) =
      .ok (.contentBlockDelta 0 (.inputJsonDelta json))
  thinkingDelta (text : String) :
    decode ("content_block_delta", blockDelta (MockServer.thinkingDelta text)) =
      .ok (.contentBlockDelta 0 (.thinkingDelta text))
  signatureDelta (signature : String) :
    decode ("content_block_delta", blockDelta (MockServer.signatureDelta signature)) =
      .ok (.contentBlockDelta 0 (.signatureDelta signature))
  blockStop : decode ("content_block_stop", blockStop) = .ok (.contentBlockStop 0)
  endMessage (stopReason : String) (n : ℕ) : n < UInt32.size →
    decode ("message_delta", endMessage stopReason n) =
      .ok (.messageDelta (some stopReason) (some ⟨none, some (UInt32.ofNat n)⟩))
  messageStop : decode ("message_stop", messageStop) = .ok .messageStop
  overloaded (message : String) : ∃ e, decode ("error", overloadedError message) = .error e ∧
    contains (display e) "overloaded_error" = true

def textParts (content : String) : List ContentPart :=
  if content = "" then [] else [.text content]

def thinkingParts (text signature : String) : List ContentPart :=
  if text = "" then [] else [.thinking text (if signature = "" then none else some signature)]

/-- The answer that says what was scripted; the placeholder stands behind the script's end.
An error says nothing. -/
inductive Says : Option MockResponse → CompletionResponse → Prop
  | placeholder : Says none
      ⟨textParts placeholder, .endTurn, ⟨10, UInt32.ofNat (textTokens placeholder)⟩⟩
  | text (content : String) : Says (some (.text content))
      ⟨textParts content, .endTurn, ⟨10, UInt32.ofNat (textTokens content)⟩⟩
  | toolCall (id name : String) (input : Value) : Says (some (.toolCall name input))
      ⟨[.toolCall id name input], .toolUse, ⟨10, 20⟩⟩
  | textStream (chunks : List String) : Says (some (.textStream chunks))
      ⟨textParts (String.join chunks), .endTurn, ⟨10, UInt32.ofNat chunks.length⟩⟩
  | toolCallStream (name id : String) (input : Value) :
      Says (some (.toolCallStream name id input))
        ⟨[.toolCall id name input], .toolUse, ⟨10, 20⟩⟩
  | thinking (text signature : String) : Says (some (.thinking text signature))
      ⟨thinkingParts text signature, .endTurn, ⟨10, 5⟩⟩

/-- What the wire carries whole: an input that its text gives back, and, if it is streamed
in pieces, no character of which is cut. -/
def Speakable (fromStr : String → Except String Value) : MockResponse → Prop
  | .toolCall _ input => fromStr input.display = .ok input
  | .toolCallStream _ _ input =>
    fromStr input.display = .ok input ∧ LossyUtf8.Aligned 10 input.display.toList
  | .textStream chunks => chunks.length < UInt32.size
  | _ => True

def isError : MockResponse → Bool
  | .error _ _ => true
  | _ => false

def errorsFrom (script : List MockResponse) (k : ℕ) : ℕ :=
  (script.drop k).findIdx (fun r => !isError r)

section Script

variable {script : List MockResponse} {k : ℕ}

theorem errorsFrom_le (script : List MockResponse) (k : ℕ) :
    errorsFrom script k ≤ script.length :=
  List.findIdx_le_length.trans (by simp)

theorem errorsFrom_error {n : ℕ} (h : n < errorsFrom script k) :
    ∃ status message, script[k + n]? = some (.error status message) := by
  have hlt : n < (script.drop k).length := Nat.lt_of_lt_of_le h List.findIdx_le_length
  have herror : isError (script.drop k)[n] = true := by
    simpa using List.not_of_lt_findIdx h
  rw [← List.getElem?_drop, List.getElem?_eq_getElem hlt]
  generalize (script.drop k)[n] = r at herror
  cases r with
  | error status message => exact ⟨status, message, rfl⟩
  | _ => contradiction

theorem errorsFrom_end {r : MockResponse} (h : script[k + errorsFrom script k]? = some r) :
    isError r = false := by
  rw [← List.getElem?_drop] at h
  obtain ⟨hlt, hr⟩ := List.getElem?_eq_some_iff.mp h
  have hend : (!isError (script.drop k)[errorsFrom script k]) = true :=
    List.findIdx_getElem (w := hlt)
  rw [hr] at hend
  simpa using hend

def callStart (script : List MockResponse) : ℕ → ℕ
  | 0 => 0
  | i + 1 => callStart script i + errorsFrom script (callStart script i) + 1

def sayings (script : List MockResponse) : List MockResponse :=
  script.filter (fun r => !isError r)

theorem filter_drop_findIdx {α : Type*} (p : α → Bool) (xs : List α) :
    (xs.drop (xs.findIdx p + 1)).filter p = (xs.filter p).tail := by
  induction xs with
  | nil => rfl
  | cons x xs ih => cases hx : p x <;> simp [List.findIdx_cons, hx, ih]

/-- In front of the `i`-th call are the responses of the earlier ones. -/
theorem sayings_drop (script : List MockResponse) (i : ℕ) :
    sayings (script.drop (callStart script i)) = (sayings script).drop i := by
  induction i with
  | zero => rfl
  | succ i ih =>
    have hdrop : script.drop (callStart script (i + 1)) =
        (script.drop (callStart script i)).drop (errorsFrom script (callStart script i) + 1) := by
      rw [List.drop_drop]
      rfl
    rw [hdrop, sayings, errorsFrom, filter_drop_findIdx, ← sayings, ih, List.tail_drop]

theorem callStart_response (script : List MockResponse) (i : ℕ) :
    script[callStart script i + errorsFrom script (callStart script i)]? =
      (sayings script)[i]? := by
  rw [← List.getElem?_drop, errorsFrom, ← List.find?_eq_getElem?_findIdx, ← List.head?_filter,
    ← sayings, sayings_drop, List.head?_drop]

end Script

section Streams

def replyEvents (started : ℕ) (start : MessageContent) (deltas : List ContentBlockDelta)
    (stopReason : String) (outputTokens : ℕ) : List MessagesStreamEvent :=
  .messageStart (some ⟨some 10, some (UInt32.ofNat started)⟩) ::
    (blockEvents 0 start deltas ++
      [.messageDelta (some stopReason) (some ⟨none, some (UInt32.ofNat outputTokens)⟩),
        .messageStop])

theorem blockEvents_index {start : MessageContent} {deltas : List ContentBlockDelta}
    {e : MessagesStreamEvent} (he : e ∈ blockEvents 0 start deltas) : e.index? = some 0 := by
  simp only [blockEvents, List.cons_append, List.mem_cons, List.mem_append, List.mem_map,
    List.not_mem_nil, or_false] at he
  rcases he with rfl | ⟨delta, -, rfl⟩ | rfl <;> rfl

theorem replyEvents_interleaves (started : ℕ) {start : MessageContent}
    {deltas : List ContentBlockDelta} (stopReason : String) (outputTokens : ℕ) {block : Block}
    (hblock : Delivers 0 block (blockEvents 0 start deltas)) :
    Interleaves [(0, block)] (replyEvents started start deltas stopReason outputTokens) := by
  refine ⟨fun b hb => ?_, fun e he i hi => ?_⟩
  · obtain rfl := List.mem_singleton.mp hb
    have hfilter : (replyEvents started start deltas stopReason outputTokens).filter
        (fun e => e.index? = some 0) = blockEvents 0 start deltas := by
      rw [replyEvents, List.filter_cons_of_neg (by simp [MessagesStreamEvent.index?]),
        List.filter_append,
        List.filter_eq_self.mpr (fun e he => decide_eq_true (blockEvents_index he))]
      exact List.append_nil _
    rw [hfilter]
    exact hblock
  · rw [replyEvents, List.mem_cons, List.mem_append] at he
    rcases he with rfl | he | he
    · cases hi
    · rw [blockEvents_index he] at hi
      cases hi
      exact List.mem_cons_self
    · simp only [List.mem_cons, List.not_mem_nil, or_false] at he
      rcases he with rfl | rfl <;> cases hi

/-- Events about a block leave what is told of the message. -/
theorem handleEvent_head (messageId : String) (s : Accumulators) {e : MessagesStreamEvent}
    {i : ℕ} (he : e.index? = some i) :
    (handleEvent messageId s e).stopReason = s.stopReason ∧
      (handleEvent messageId s e).inputTokens = s.inputTokens := by
  cases e with
  | messageStart _ | messageDelta _ _ | messageStop => contradiction
  | contentBlockStart index contentBlock => cases contentBlock <;> exact ⟨rfl, rfl⟩
  | contentBlockDelta index delta =>
    cases delta <;> simp only [handleEvent, applyDelta] <;> split <;> exact ⟨rfl, rfl⟩
  | contentBlockStop index =>
    simp only [handleEvent, stopBlock]
    split <;> exact ⟨rfl, rfl⟩

theorem readEvents_head (messageId : String) (s : Accumulators)
    (events : List MessagesStreamEvent) (h : ∀ e ∈ events, e.index? = some 0) :
    (readEvents messageId s events).inputTokens = s.inputTokens := by
  induction events generalizing s with
  | nil => rfl
  | cons e events ih =>
    have hrest := ih (handleEvent messageId s e) (fun e' he' => h e' (List.mem_cons_of_mem _ he'))
    exact hrest.trans (handleEvent_head messageId s (h e List.mem_cons_self)).2

/-- What is assembled from the events of one block. -/
theorem assemble_reply (fromStr : String → Except String Value) (messageId : String)
    (started : ℕ) {start : MessageContent} {deltas : List ContentBlockDelta}
    (stopReason : String) (outputTokens : ℕ) {block : Block}
    (hblock : Delivers 0 block (blockEvents 0 start deltas)) :
    assemble fromStr (readEvents messageId Accumulators.init
        (replyEvents started start deltas stopReason outputTokens)) =
      ⟨(block.part fromStr).toList, stopReasonOf (some stopReason),
        ⟨10, UInt32.ofNat outputTokens⟩⟩ := by
  have hparts := ((replyEvents_interleaves started stopReason outputTokens hblock).holds
    messageId).parts_eq fromStr (List.nodup_singleton _)
  have hblocks : ∀ s : Accumulators,
      (readEvents messageId s (blockEvents 0 start deltas)).inputTokens = s.inputTokens :=
    fun s => readEvents_head messageId s _ (fun e he => blockEvents_index he)
  have hread : readEvents messageId Accumulators.init
      (replyEvents started start deltas stopReason outputTokens) =
      { readEvents messageId { Accumulators.init with inputTokens := 10 }
          (blockEvents 0 start deltas) with
        stopReason := stopReasonOf (some stopReason)
        outputTokens := UInt32.ofNat outputTokens } := by
    simp only [readEvents, replyEvents, List.foldl_cons, List.foldl_append, List.foldl_nil]
    rfl
  have hinput : (readEvents messageId Accumulators.init
      (replyEvents started start deltas stopReason outputTokens)).inputTokens = 10 := by
    rw [hread]
    exact hblocks _
  have hsingle : (assemble fromStr (readEvents messageId Accumulators.init
      (replyEvents started start deltas stopReason outputTokens))).parts =
      (block.part fromStr).toList := by
    rw [hparts]
    cases h : block.part fromStr <;> simp [h]
  have hstop : (readEvents messageId Accumulators.init
      (replyEvents started start deltas stopReason outputTokens)).stopReason =
      stopReasonOf (some stopReason) := by rw [hread]
  have houtput : (readEvents messageId Accumulators.init
      (replyEvents started start deltas stopReason outputTokens)).outputTokens =
      UInt32.ofNat outputTokens := by rw [hread]
  rw [← hsingle, ← hstop, ← houtput, ← hinput]
  rfl

end Streams

section Replies

variable {decode : String × Value → Except AnthropicError MessagesStreamEvent}
  {display : AnthropicError → String} (fromStr : String → Except String Value)
  (messageId : String)

theorem map_messageSse (hdecode : DecodesReplies decode display) (msgId : String) (started : ℕ)
    (hstarted : started < UInt32.size) {contentBlock : Value} {start : MessageContent}
    (hstart : decode ("content_block_start", MockServer.startBlock contentBlock) =
      .ok (.contentBlockStart 0 start))
    {deltas : List Value} {taken : List ContentBlockDelta}
    (hdeltas : deltas.map (fun delta => decode ("content_block_delta", blockDelta delta)) =
      taken.map (fun delta => .ok (.contentBlockDelta 0 delta)))
    (stopReason : String) (outputTokens : ℕ) (htokens : outputTokens < UInt32.size) :
    (messageSse msgId started contentBlock deltas stopReason outputTokens).map decode =
      (replyEvents started start taken stopReason outputTokens).map .ok := by
  have hmap : (deltas.map (fun delta => ("content_block_delta", blockDelta delta))).map decode =
      (taken.map (MessagesStreamEvent.contentBlockDelta 0)).map .ok := by
    simpa only [List.map_map, Function.comp_def] using hdeltas
  simp only [messageSse, replyEvents, blockEvents, List.map_append, hmap, List.map_cons,
    List.map_nil, hdecode.startMessage msgId started hstarted, hstart, hdecode.blockStop,
    hdecode.endMessage stopReason outputTokens htokens, hdecode.messageStop, List.cons_append,
    List.nil_append, List.append_assoc]

def Carries (response : Option MockResponse)
    (stream : List (Except AnthropicError MessagesStreamEvent)) : Prop :=
  ∃ events : List MessagesStreamEvent, stream = events.map .ok ∧
    events.any startsContent = true ∧
    Says response (assemble fromStr (readEvents messageId Accumulators.init events))

/-- A message with one block carries what the block stands for. -/
theorem carries_message (hdecode : DecodesReplies decode display) (msgId : String)
    (taken : List ContentBlockDelta) {started : ℕ} (hstarted : started < UInt32.size)
    {contentBlock : Value} {start : MessageContent}
    (hstart : decode ("content_block_start", MockServer.startBlock contentBlock) =
      .ok (.contentBlockStart 0 start))
    (hcontent : startsContent (.contentBlockStart 0 start) = true)
    {deltas : List Value}
    (hdeltas : deltas.map (fun delta => decode ("content_block_delta", blockDelta delta)) =
      taken.map (fun delta => .ok (.contentBlockDelta 0 delta)))
    {stopReason : String} {outputTokens : ℕ} (htokens : outputTokens < UInt32.size) {block : Block}
    (hblock : Delivers 0 block (blockEvents 0 start taken)) {response : Option MockResponse}
    (hmeans : Says response ⟨(block.part fromStr).toList, stopReasonOf (some stopReason),
      ⟨10, UInt32.ofNat outputTokens⟩⟩) :
    Carries fromStr messageId response
      ((messageSse msgId started contentBlock deltas stopReason outputTokens).map decode) := by
  refine ⟨_, map_messageSse hdecode msgId started hstarted hstart hdeltas stopReason outputTokens
    htokens, ?_, ?_⟩
  · simp [replyEvents, blockEvents, hcontent]
  · rw [assemble_reply fromStr messageId started stopReason outputTokens hblock]
    exact hmeans

theorem textTokens_lt (text : String) : textTokens text < UInt32.size :=
  Nat.lt_of_le_of_lt (Nat.min_le_right _ _) (by decide)

theorem textPart_toList (content : String) :
    ((Block.text content).part fromStr).toList = textParts content := by
  by_cases hempty : content = "" <;> simp [Block.part, textParts, hempty]

theorem thinkingPart_toList (text signature : String) :
    ((Block.thinking text signature).part fromStr).toList = thinkingParts text signature := by
  by_cases hempty : text = "" <;> simp [Block.part, thinkingParts, hempty]

theorem toolPart_toList (id name : String) {json : String} {input : Value}
    (hparse : fromStr json = .ok input) :
    ((Block.toolUse id name json).part fromStr).toList = [.toolCall id name input] := by
  simp [Block.part, toolInput, hparse]

theorem carries_text (hdecode : DecodesReplies decode display) (msgId text : String)
    {response : Option MockResponse}
    (hmeans : Says response ⟨textParts text, .endTurn, ⟨10, UInt32.ofNat (textTokens text)⟩⟩) :
    Carries fromStr messageId response ((textSse msgId text).map decode) := by
  refine carries_message fromStr messageId hdecode msgId [.textDelta text] (by decide)
    hdecode.text rfl ?_ (textTokens_lt text) (Delivers.text text [text] (by simp)) ?_
  · simp [hdecode.textDelta]
  · rw [textPart_toList]
    exact hmeans

/-- Every scripted response but an error is carried, in whatever form it was asked for. -/
theorem carries_response (hdecode : DecodesReplies decode display)
    (response : Option MockResponse) (hnot : ∀ r, response = some r → isError r = false)
    (hspeak : ∀ r, response = some r → Speakable fromStr r) (isStream : Bool)
    (msgId toolId : String) (pairs : List (String × Value))
    (hpairs : respond isStream msgId toolId response = .sse pairs) :
    Carries fromStr messageId response (pairs.map decode) := by
  cases response with
  | none =>
    cases isStream with
    | false => contradiction
    | true =>
      cases hpairs
      exact carries_text fromStr messageId hdecode msgId _ .placeholder
  | some r =>
    have hr := hspeak r rfl
    cases r with
    | error status message => exact absurd (hnot _ rfl) (by simp [isError])
    | text content =>
      cases isStream with
      | false => contradiction
      | true =>
        cases hpairs
        exact carries_text fromStr messageId hdecode msgId content (.text content)
    | toolCall name input =>
      cases isStream with
      | false => contradiction
      | true =>
        cases hpairs
        refine carries_message fromStr messageId hdecode msgId [.inputJsonDelta input.display]
          (by decide) (hdecode.toolUse toolId name) rfl ?_ (by decide)
          (Delivers.toolUse toolId name input.display [input.display] (by simp)) ?_
        · simp [hdecode.jsonDelta]
        · rw [toolPart_toList fromStr toolId name hr]
          exact .toolCall toolId name input
    | thinking text signature =>
      cases isStream with
      | false => contradiction
      | true =>
        cases hpairs
        refine carries_message fromStr messageId hdecode msgId
          [.thinkingDelta text, .signatureDelta signature] (by decide) hdecode.thinking rfl ?_
          (by decide) (Delivers.thinking text signature _ ?_ ?_ ?_) ?_
        · simp [hdecode.thinkingDelta, hdecode.signatureDelta]
        · simp [thinkingOf, signatureOf]
        · simp [List.filterMap_cons, thinkingOf]
        · simp [List.filterMap_cons, signatureOf]
        · rw [thinkingPart_toList]
          exact .thinking text signature
    | textStream chunks =>
      cases hpairs
      refine carries_message fromStr messageId hdecode msgId (chunks.map .textDelta) (by decide)
        hdecode.text rfl ?_ hr (Delivers.text _ chunks rfl) ?_
      · simp only [List.map_map, Function.comp_def, hdecode.textDelta]
      · rw [textPart_toList]
        exact .textStream chunks
    | toolCallStream name id input =>
      cases hpairs
      have hsse : toolCallStreamSse msgId name id input = messageSse msgId 0
          (toolUseBlock id name) ((fragments input).map MockServer.jsonDelta) "tool_use" 20 := by
        simp only [toolCallStreamSse, messageSse, fragments, List.map_map]
        rfl
      rw [hsse]
      refine carries_message fromStr messageId hdecode msgId
        ((fragments input).map .inputJsonDelta) (by decide) (hdecode.toolUse id name) rfl ?_
        (by decide) (Delivers.toolUse id name input.display (fragments input)
          ((join_fragments_iff input).mpr hr.2)) ?_
      · simp only [List.map_map, Function.comp_def, hdecode.jsonDelta]
      · rw [toolPart_toList fromStr id name hr.1]
        exact .toolCallStream name id input

end Replies

section Calls

variable {decode : String × Value → Except AnthropicError MessagesStreamEvent}
  {display : AnthropicError → String} (fromStr : String → Except String Value)
  (messageId : String)

def Overloads (display : AnthropicError → String)
    (stream : List (Except AnthropicError MessagesStreamEvent)) : Prop :=
  ∃ e, stream = [.error e] ∧ contains (display e) "overloaded_error" = true

theorem overloads_response (hdecode : DecodesReplies decode display) {status : ℕ}
    {message : String} {isStream : Bool} {msgId toolId : String} {pairs : List (String × Value)}
    (hpairs : respond isStream msgId toolId (some (.error status message)) = .sse pairs) :
    Overloads display (pairs.map decode) := by
  cases isStream with
  | false => contradiction
  | true =>
    cases hpairs
    obtain ⟨e, he, htext⟩ := hdecode.overloaded message
    exact ⟨e, by simp [he], htext⟩

theorem Overloads.failsEarly {stream : List (Except AnthropicError MessagesStreamEvent)}
    (h : Overloads display stream) : FailsEarly display stream := by
  obtain ⟨e, rfl, htext⟩ := h
  exact ⟨[], e, [], rfl, fun event hevent => by contradiction, by simp [isRetryable, htext]⟩

theorem Overloads.readStream_eq {stream : List (Except AnthropicError MessagesStreamEvent)}
    (h : Overloads display stream) {s : Accumulators} (hs : s.isEmpty = true) :
    readStream display messageId s stream = (.retry .overloaded, s) := by
  obtain ⟨e, rfl, htext⟩ := h
  simp [readStream, isRetryable, toLlmError, htext, hs]

/-- Attempts that are all overloaded end with that error. -/
theorem retryLoop_overloaded (streams : ℕ → List (Except AnthropicError MessagesStreamEvent))
    (remaining attempt : ℕ) (h : ∀ n < remaining, Overloads display (streams (attempt + n)))
    (lastError : Option LlmError) (hlast : remaining = 0 → lastError = some .overloaded)
    (s : Accumulators) (hs : s.isEmpty = true) :
    ∃ s', retryLoop display messageId streams remaining attempt lastError s =
      (.ok (some .overloaded), s') ∧ s'.isEmpty = true := by
  induction remaining generalizing attempt lastError s with
  | zero => exact ⟨s, by rw [retryLoop, hlast rfl], hs⟩
  | succ remaining ih =>
    have hstart := isEmpty_start attempt hs
    have hnow : Overloads display (streams attempt) := h 0 (Nat.succ_pos _)
    have hlater := forall_later (fun n => Overloads display (streams n)) h
    obtain ⟨s', hloop, hs'⟩ := ih (attempt + 1) hlater (some .overloaded) (fun _ => rfl) _ hstart
    refine ⟨s', ?_, hs'⟩
    rw [retryLoop]
    simp only [hnow.readStream_eq messageId hstart]
    exact hloop

/-- A call is answered by the first stream that carries something, if there is one in time. -/
theorem complete_carried {streams : ℕ → List (Except AnthropicError MessagesStreamEvent)}
    {errors : ℕ} (hin : errors ≤ maxStreamRetries)
    (herrors : ∀ n < errors, Overloads display (streams n)) {response : Option MockResponse}
    (hcarries : Carries fromStr messageId response (streams errors)) :
    ∃ answer, (complete display fromStr messageId streams).1 = .ok answer ∧
      Says response answer := by
  obtain ⟨events, hstream, hcontent, hmeans⟩ := hcarries
  refine ⟨_, ?_, hmeans⟩
  rcases Nat.eq_zero_or_pos errors with rfl | hpos
  · exact complete_ok display fromStr messageId streams events hstream
  · obtain ⟨e, hresult⟩ := complete_retried display fromStr messageId streams errors hin hpos
      (fun n hn => (herrors n hn).failsEarly) events hstream
    rw [hresult, if_pos hcontent]

theorem complete_overloaded {streams : ℕ → List (Except AnthropicError MessagesStreamEvent)}
    (herrors : ∀ n < maxStreamRetries + 1, Overloads display (streams n)) :
    (complete display fromStr messageId streams).1 = .error .overloaded := by
  obtain ⟨s, hloop, hs⟩ := retryLoop_overloaded messageId streams (maxStreamRetries + 1) 0
    (fun n hn => by rw [Nat.zero_add]; exact herrors n hn) none (fun h => by contradiction)
    Accumulators.init rfl
  rw [complete, hloop]
  simp [hs]

/-- The call reads the first `cost` streams: it makes so many attempts, and what further ones
would receive makes no difference. -/
def Costs (display : AnthropicError → String) (fromStr : String → Except String Value)
    (messageId : String) (streams : ℕ → List (Except AnthropicError MessagesStreamEvent))
    (cost : ℕ) : Prop :=
  attempts display messageId streams = cost ∧
    ∀ others : ℕ → List (Except AnthropicError MessagesStreamEvent),
      (∀ n < cost, others n = streams n) →
        complete display fromStr messageId others = complete display fromStr messageId streams

theorem costs_attempts {streams : ℕ → List (Except AnthropicError MessagesStreamEvent)}
    {cost : ℕ} (hattempts : attempts display messageId streams = cost) :
    Costs display fromStr messageId streams cost := by
  refine ⟨hattempts, fun others hsame => ?_⟩
  rw [← hattempts] at hsame
  exact complete_congr display messageId fromStr streams others hsame

section Session

variable {t : Server} {sid : String} {script : List MockResponse} {first k : ℕ}
  {streams : ℕ → List (Except AnthropicError MessagesStreamEvent)}

/-- An attempt at a request of the session receives what the script holds in its place. -/
theorem stream_answered (hplaced : Placed sid script first t)
    (hstreams : ∀ (n : ℕ) (r : Request), (asked sid first t)[k + n]? = some r →
      ∃ pairs, r.answer = .sse pairs ∧ streams n = pairs.map decode) {n : ℕ}
    (hn : k + n < (asked sid first t).length) :
    ∃ isStream msgId toolId pairs, respond isStream msgId toolId script[k + n]? = .sse pairs ∧
      streams n = pairs.map decode := by
  obtain ⟨r, hr⟩ : ∃ r, (asked sid first t)[k + n]? = some r :=
    ⟨_, List.getElem?_eq_getElem hn⟩
  obtain ⟨pairs, hpairs, hstream⟩ := hstreams n r hr
  refine ⟨r.isStream, r.msgId, r.toolId, pairs, ?_, hstream⟩
  rw [← hpairs, Request.answer, hplaced.heard (k + n) r hr]
  cases script[k + n]? <;> rfl

/-- The attempts in front of the first response that is no error are overloaded. -/
theorem streams_overload (hdecode : DecodesReplies decode display)
    (hplaced : Placed sid script first t)
    (hstreams : ∀ (n : ℕ) (r : Request), (asked sid first t)[k + n]? = some r →
      ∃ pairs, r.answer = .sse pairs ∧ streams n = pairs.map decode) {n : ℕ}
    (hn : n < errorsFrom script k) (hlength : k + n < (asked sid first t).length) :
    Overloads display (streams n) := by
  obtain ⟨isStream, msgId, toolId, pairs, hpairs, hstream⟩ :=
    stream_answered hplaced hstreams hlength
  obtain ⟨status, message, hresponse⟩ := errorsFrom_error hn
  rw [hresponse] at hpairs
  rw [hstream]
  exact overloads_response hdecode hpairs

/-- A call whose attempts are the session's requests from the `k`-th on. -/
theorem call_understood (hdecode : DecodesReplies decode display)
    (hplaced : Placed sid script first t) (hspeak : ∀ r ∈ script, Speakable fromStr r)
    (hstreams : ∀ (n : ℕ) (r : Request), (asked sid first t)[k + n]? = some r →
      ∃ pairs, r.answer = .sse pairs ∧ streams n = pairs.map decode) :
    (errorsFrom script k ≤ maxStreamRetries →
        k + errorsFrom script k < (asked sid first t).length →
        Costs display fromStr messageId streams (errorsFrom script k + 1) ∧
          ∃ answer, (complete display fromStr messageId streams).1 = .ok answer ∧
            Says script[k + errorsFrom script k]? answer) ∧
      (maxStreamRetries < errorsFrom script k →
        k + maxStreamRetries < (asked sid first t).length →
        Costs display fromStr messageId streams (maxStreamRetries + 1) ∧
          (complete display fromStr messageId streams).1 = .error .overloaded) := by
  refine ⟨fun hin hlength => ?_, fun hout hlength => ?_⟩
  · have herrors : ∀ n < errorsFrom script k, Overloads display (streams n) :=
      fun n hn => streams_overload hdecode hplaced hstreams hn (by omega)
    obtain ⟨isStream, msgId, toolId, pairs, hpairs, hstream⟩ :=
      stream_answered hplaced hstreams hlength
    have hcarries : Carries fromStr messageId script[k + errorsFrom script k]?
        (streams (errorsFrom script k)) := by
      rw [hstream]
      exact carries_response fromStr messageId hdecode _ (fun r hr => errorsFrom_end hr)
        (fun r hr => hspeak r (List.mem_of_getElem? hr)) isStream msgId toolId pairs hpairs
    refine ⟨?_, complete_carried fromStr messageId hin herrors hcarries⟩
    obtain ⟨events, hevents, -⟩ := hcarries
    exact costs_attempts fromStr messageId (attempts_answered display messageId streams _ hin
      (fun n hn => (herrors n hn).failsEarly) events hevents)
  · have herrors : ∀ n < maxStreamRetries + 1, Overloads display (streams n) :=
      fun n hn => streams_overload hdecode hplaced hstreams (by omega) (by omega)
    exact ⟨costs_attempts fromStr messageId (attempts_exhausted display messageId streams
      (fun n hn => (herrors n hn).failsEarly)), complete_overloaded fromStr messageId herrors⟩

/-- A call that ended within the session's requests reached the first response that is no
error: up to there all its attempts are overloaded, and it does not give up before. -/
theorem errors_lt_attempts (hdecode : DecodesReplies decode display)
    (hplaced : Placed sid script first t) (hin : errorsFrom script k ≤ maxStreamRetries)
    (hstreams : ∀ (n : ℕ) (r : Request), (asked sid first t)[k + n]? = some r →
      ∃ pairs, r.answer = .sse pairs ∧ streams n = pairs.map decode)
    (hended : k + attempts display messageId streams ≤ (asked sid first t).length) :
    errorsFrom script k < attempts display messageId streams := by
  by_contra hle
  have hfail : ∀ n < attempts display messageId streams, FailsEarly display (streams n) :=
    fun n hn => (streams_overload hdecode hplaced hstreams (by omega) (by omega)).failsEarly
  exact absurd (lt_attempts display messageId streams _ (by omega) hfail) (Nat.lt_irrefl _)

end Session

/-- Where the `i`-th call begins, if each call takes the streams behind those of the call
before it. -/
def callPlace (display : AnthropicError → String) (messageId : ℕ → String)
    (stream : ℕ → List (Except AnthropicError MessagesStreamEvent)) : ℕ → ℕ
  | 0 => 0
  | i + 1 => callPlace display messageId stream i +
      attempts display (messageId i) (fun n => stream (callPlace display messageId stream i + n))

/-- Each call begins where the script says that it does. -/
theorem callPlace_eq_callStart (hdecode : DecodesReplies decode display) {t : Server}
    {sid : String} {script : List MockResponse} {first : ℕ} (hplaced : Placed sid script first t)
    (hspeak : ∀ r ∈ script, Speakable fromStr r)
    (hretries : ∀ k, errorsFrom script k ≤ maxStreamRetries) (messageId : ℕ → String)
    {stream : ℕ → List (Except AnthropicError MessagesStreamEvent)}
    (hstream : ∀ (n : ℕ) (r : Request), (asked sid first t)[n]? = some r →
      ∃ pairs, r.answer = .sse pairs ∧ stream n = pairs.map decode) (i : ℕ)
    (hended : callPlace display messageId stream i ≤ (asked sid first t).length) :
    callPlace display messageId stream i = callStart script i := by
  induction i with
  | zero => rfl
  | succ i ih =>
    have hplace := ih (Nat.le_trans (Nat.le_add_right _ _) hended)
    rw [callPlace, hplace] at hended
    have hlt := errors_lt_attempts (messageId i) hdecode hplaced (hretries _)
      (fun n r hr => hstream _ r hr) hended
    have hreached : callStart script i + errorsFrom script (callStart script i) <
        (asked sid first t).length := by omega
    obtain ⟨⟨hcost, -⟩, -⟩ := (call_understood fromStr (messageId i) hdecode hplaced hspeak
      (fun n r hr => hstream _ r hr)).1 (hretries _) hreached
    rw [callPlace, hplace, hcost]
    rfl

end Calls

/-- A session of the mock server is bound to a scenario and not bound anew; from its `k`-th
request on, the session's requests are the attempts of a call of the provider. The call
costs one request for each error scripted in a row and one more, and returns what the
response behind them says; if all its attempts meet errors, it ends overloaded. What other
sessions, other requests and the queue do meanwhile makes no difference. -/
theorem script_understood
    (decode : String × Value → Except AnthropicError MessagesStreamEvent)
    (display : AnthropicError → String) (fromStr : String → Except String Value)
    (messageId : String) (hdecode : DecodesReplies decode display) (s s' t : Server)
    (scenarioName sid : String) (scenario : Scenario)
    (hscenario : s.state.scenarios.lookup scenarioName = some scenario)
    (hregister : Server.next s (.registerSession scenarioName sid) = some s')
    (hlater : Machine.Run Server.next (KeepsSession sid) s' t)
    (hspeak : ∀ r ∈ scenario.responses, Speakable fromStr r) (k : ℕ)
    (streams : ℕ → List (Except AnthropicError MessagesStreamEvent))
    (hstreams : ∀ (n : ℕ) (r : Request), (asked sid s.requests.length t)[k + n]? = some r →
      ∃ pairs, r.answer = .sse pairs ∧ streams n = pairs.map decode) :
    (errorsFrom scenario.responses k ≤ maxStreamRetries →
        k + errorsFrom scenario.responses k < (asked sid s.requests.length t).length →
        Costs display fromStr messageId streams (errorsFrom scenario.responses k + 1) ∧
          ∃ answer, (complete display fromStr messageId streams).1 = .ok answer ∧
            Says scenario.responses[k + errorsFrom scenario.responses k]? answer) ∧
      (maxStreamRetries < errorsFrom scenario.responses k →
        k + maxStreamRetries < (asked sid s.requests.length t).length →
        Costs display fromStr messageId streams (maxStreamRetries + 1) ∧
          (complete display fromStr messageId streams).1 = .error .overloaded) := by
  exact call_understood fromStr messageId hdecode (placed_run hscenario hregister hlater) hspeak
    hstreams

/-- The whole conversation of a session that is bound to a scenario without more errors in a
row than a call has retries: calls that take the session's requests one after the other each
take up the script where the call before them stopped, and the `i`-th call returns what the
`i`-th response says that is no error. -/
theorem conversation_understood
    (decode : String × Value → Except AnthropicError MessagesStreamEvent)
    (display : AnthropicError → String) (fromStr : String → Except String Value)
    (messageId : ℕ → String) (hdecode : DecodesReplies decode display) (s s' t : Server)
    (scenarioName sid : String) (scenario : Scenario)
    (hscenario : s.state.scenarios.lookup scenarioName = some scenario)
    (hregister : Server.next s (.registerSession scenarioName sid) = some s')
    (hlater : Machine.Run Server.next (KeepsSession sid) s' t)
    (hspeak : ∀ r ∈ scenario.responses, Speakable fromStr r)
    (hretries : ∀ k, errorsFrom scenario.responses k ≤ maxStreamRetries)
    (stream : ℕ → List (Except AnthropicError MessagesStreamEvent))
    (hstream : ∀ (n : ℕ) (r : Request), (asked sid s.requests.length t)[n]? = some r →
      ∃ pairs, r.answer = .sse pairs ∧ stream n = pairs.map decode) :
    ∀ i, callPlace display messageId stream (i + 1) ≤ (asked sid s.requests.length t).length →
      callPlace display messageId stream i = callStart scenario.responses i ∧
        callPlace display messageId stream (i + 1) = callStart scenario.responses (i + 1) ∧
        ∃ answer, (complete display fromStr (messageId i)
            (fun n => stream (callPlace display messageId stream i + n))).1 = .ok answer ∧
          Says (sayings scenario.responses)[i]? answer := by
  intro i hended
  have hplaced := placed_run hscenario hregister hlater
  have hplace := callPlace_eq_callStart fromStr hdecode hplaced hspeak hretries messageId hstream i
    (Nat.le_trans (Nat.le_add_right _ _) hended)
  have hnext := callPlace_eq_callStart fromStr hdecode hplaced hspeak hretries messageId hstream
    (i + 1) hended
  refine ⟨hplace, hnext, ?_⟩
  rw [hnext] at hended
  rw [hplace, ← callStart_response]
  exact ((call_understood fromStr (messageId i) hdecode hplaced hspeak
    (fun n r hr => hstream _ r hr)).1 (hretries _) hended).2

def readReply (e : String × Value) : Except AnthropicError MessagesStreamEvent :=
  let textAt (outer inner : String) : String :=
    (((e.2.get outer).bind (fun v => v.get inner)).bind Value.asStr).getD ""
  let count (usage : Option Value) (field : String) : Option UInt32 :=
    match usage.bind (fun v => v.get field) with
    | some (.number text) => some (UInt32.ofNat (Nat.ofDigitChars 10 text.toList 0))
    | _ => none
  if e.1 = "message_start" then
    let usage := (e.2.get "message").bind (fun v => v.get "usage")
    .ok (.messageStart (some ⟨count usage "input_tokens", count usage "output_tokens"⟩))
  else if e.1 = "content_block_start" then
    if textAt "content_block" "type" = "tool_use" then
      .ok (.contentBlockStart 0
        (.toolUse (textAt "content_block" "id") (textAt "content_block" "name")))
    else if textAt "content_block" "type" = "thinking" then .ok (.contentBlockStart 0 .thinking)
    else .ok (.contentBlockStart 0 .text)
  else if e.1 = "content_block_delta" then
    if textAt "delta" "type" = "text_delta" then
      .ok (.contentBlockDelta 0 (.textDelta (textAt "delta" "text")))
    else if textAt "delta" "type" = "input_json_delta" then
      .ok (.contentBlockDelta 0 (.inputJsonDelta (textAt "delta" "partial_json")))
    else if textAt "delta" "type" = "thinking_delta" then
      .ok (.contentBlockDelta 0 (.thinkingDelta (textAt "delta" "thinking")))
    else .ok (.contentBlockDelta 0 (.signatureDelta (textAt "delta" "signature")))
  else if e.1 = "content_block_stop" then .ok (.contentBlockStop 0)
  else if e.1 = "message_delta" then
    .ok (.messageDelta (some (textAt "delta" "stop_reason"))
      (some ⟨none, count (e.2.get "usage") "output_tokens"⟩))
  else if e.1 = "error" then .error (.streamError "overloaded_error")
  else .ok .messageStop

theorem count_toString (n : ℕ) :
    UInt32.ofNat (Nat.ofDigitChars 10 (toString n).toList 0) = UInt32.ofNat n := by
  rw [Nat.toString_eq_repr, Nat.toList_repr, Nat.ofDigitChars_ten_toDigits]

theorem readReply_decodes : DecodesReplies readReply (fun _ => "overloaded_error") where
  startMessage msgId n _ := by
    rw [← count_toString n]
    rfl
  text := rfl
  toolUse _ _ := rfl
  thinking := rfl
  textDelta _ := rfl
  jsonDelta _ := rfl
  thinkingDelta _ := rfl
  signatureDelta _ := rfl
  blockStop := rfl
  endMessage stopReason n _ := by
    rw [← count_toString n]
    rfl
  messageStop := rfl
  overloaded message := ⟨.streamError "overloaded_error", rfl, by decide⟩

def isSse : ResponseKind → Bool
  | .sse _ => true
  | _ => false

def greetedStreams (n : ℕ) : List (Except AnthropicError MessagesStreamEvent) :=
  match (asked "s1" 0 greeted)[n]?.map Request.answer with
  | some (.sse pairs) => pairs.map readReply
  | _ => []

theorem greetedStreams_sse (n : ℕ) (r : Request)
    (hr : (asked "s1" greeter.requests.length greeted)[n]? = some r) :
    ∃ pairs, r.answer = .sse pairs ∧ greetedStreams n = pairs.map readReply := by
  change (asked "s1" 0 greeted)[n]? = some r at hr
  have hall : (asked "s1" 0 greeted).all (fun r => isSse r.answer) = true := by decide +kernel
  have hsse := List.all_eq_true.mp hall r (List.mem_of_getElem? hr)
  cases hanswer : r.answer with
  | sse pairs => exact ⟨pairs, rfl, by simp [greetedStreams, hr, hanswer]⟩
  | json _ | httpError _ _ =>
    rw [hanswer] at hsse
    contradiction

def greeting : List MockResponse := [.error 529 "busy", .text "hello"]

theorem greeting_speakable (fromStr : String → Except String Value) :
    ∀ r ∈ greeting, Speakable fromStr r := by
  intro r hr
  simp only [greeting, List.mem_cons, List.not_mem_nil, or_false] at hr
  rcases hr with rfl | rfl <;> trivial

/-- The first attempt meets the scripted error, the second is answered. -/
theorem greeting_understood :
    Costs (fun _ => "overloaded_error") (fun _ => .error "") "m" greetedStreams 2 ∧
      ∃ answer, (complete (fun _ => "overloaded_error") (fun _ => .error "") "m"
        greetedStreams).1 = .ok answer ∧ Says (some (.text "hello")) answer :=
  (script_understood readReply (fun _ => "overloaded_error") (fun _ => .error "") "m"
    readReply_decodes greeter bound greeted "greet" "s1" ⟨greeting⟩ (by rfl) rfl run_greeted
    (greeting_speakable _) 0 greetedStreams
    (fun n r hr => greetedStreams_sse n r (by rwa [Nat.zero_add] at hr))).1
    (by decide) (by decide +kernel)

/-- The second call finds the end of the script. -/
theorem conversation_ended :
    callPlace (fun _ => "overloaded_error") (fun _ => "m") greetedStreams 1 = 2 ∧
      callPlace (fun _ => "overloaded_error") (fun _ => "m") greetedStreams 2 = 3 ∧
      ∃ answer, (complete (fun _ => "overloaded_error") (fun _ => .error "") "m"
        (fun n => greetedStreams (callPlace (fun _ => "overloaded_error") (fun _ => "m")
          greetedStreams 1 + n))).1 = .ok answer ∧ Says none answer :=
  conversation_understood readReply (fun _ => "overloaded_error") (fun _ => .error "")
    (fun _ => "m") readReply_decodes greeter bound greeted "greet" "s1" ⟨greeting⟩ (by rfl) rfl
    run_greeted (greeting_speakable _)
    (fun k => (errorsFrom_le greeting k).trans (by decide)) greetedStreams greetedStreams_sse 1
    (by decide +kernel)

end October.UnderstoodScripts
