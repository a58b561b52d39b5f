import October.AnsweredTurns
import October.AnthropicRequest
import October.ReassembledBlocks

/-!
The requests of one run of the agent loop as the API sees them. Each request marks its
whole prompt for the cache, and every later request of the run says that prompt again,
word for word, and goes on with the answer the model gave to it.
-/
namespace October.CachedPrompts

open AnthropicRequest LoopTurns
open AnsweredTurns (iterate_requests)

variable {agent : Agent} {runId : String} {turns : ℕ → Turn} {input : AgentInput}

section Conversation

/-- A message the loop puts behind an answer: one part, and not the model's. -/
structure IsReply (m : Message) : Prop where
  notAssistant : m.role ≠ .assistant
  onePart : ∃ part, m.parts = [part]

theorem isReply_toolResult (toolCallId output : String) (isError : Bool) :
    IsReply (Message.toolResult toolCallId output isError) :=
  ⟨fun h => (by cases h), _, rfl⟩

theorem isReply_user (id text : String) : IsReply (Message.user id text) :=
  ⟨fun h => (by cases h), _, rfl⟩

theorem isReply_input (input : AgentInput) : IsReply input.toMessage := by
  cases input <;> exact ⟨fun h => (by cases h), _, rfl⟩

theorem isReply_map {α : Type} {f : α → Message} (hf : ∀ x, IsReply (f x)) (xs : List α) :
    ∀ m ∈ xs.map f, IsReply m := by
  intro m hm
  obtain ⟨x, _, rfl⟩ := List.mem_map.mp hm
  exact hf x

theorem isReply_toolResults (execute : ℕ → Except ToolCallError Value) (i : ℕ)
    (calls : List ToolCall) : ∀ m ∈ Agent.toolResults execute i calls, IsReply m := by
  induction calls generalizing i with
  | nil => exact fun _ hm => absurd hm List.not_mem_nil
  | cons call rest ih =>
    intro m hm
    rcases List.mem_cons.mp hm with rfl | hm
    · exact isReply_toolResult _ _ _
    · exact ih (i + 1) m hm

/-- What one turn that is not the last adds to the conversation: the answer and at least
one reply to it. -/
theorem iterate_next_history {turn : Turn} {s s' : RunState}
    (h : agent.iterate runId turn s = .next s') :
    ∃ response replies, turn.response = .ok response ∧
      s'.history = s.history ++ ⟨turn.msgId, .assistant, response.parts⟩ :: replies ∧
      replies ≠ [] ∧ ∀ m ∈ replies, IsReply m := by
  have hcomes := iterate_comesTo agent runId turn s
  rw [h] at hcomes
  cases hcomes with
  | textNudged response name hresponse hcalls htool hretries =>
    refine ⟨response, [Agent.missingHandoffNudge name (s.iteration + 1)], hresponse,
      List.append_assoc _ _ _, List.cons_ne_nil _ _, ?_⟩
    intro m hm
    rw [List.mem_singleton.mp hm]
    exact isReply_user _ _
  | rejected response name data reason hresponse hhandoff hinvalid hretries =>
    obtain ⟨_, call, hcall, _⟩ := handoffCall_some hhandoff
    refine ⟨response, _, hresponse, List.append_assoc _ _ _, ?_,
      isReply_map (fun call => isReply_toolResult _ _ _) (extractToolCalls response.parts)⟩
    exact fun hnil => List.not_mem_nil (List.map_eq_nil_iff.mp hnil ▸ hcall)
  | nudged response first rest hresponse hcalls hhandoff hstuck hnudge =>
    exact ⟨response, _, hresponse, List.append_assoc _ _ _, List.cons_ne_nil _ _,
      isReply_map (fun call => ⟨fun h => (by cases h), _, rfl⟩) (first :: rest)⟩
  | executed response first rest hresponse hcalls hhandoff hstuck hnudge hcancelled =>
    exact ⟨response, _, hresponse, List.append_assoc _ _ _, List.cons_ne_nil _ _,
      isReply_toolResults turn.execute 0 (first :: rest)⟩

/-- Whenever the provider is called, the conversation ends with the input or a reply. -/
theorem stateAt_last {k : ℕ} {s : RunState} (h : stateAt agent runId turns input k = some s) :
    ∃ earlier last, s.history = earlier ++ [last] ∧ IsReply last := by
  refine stateAt_induct (P := fun _ s => ∃ earlier last, s.history = earlier ++ [last] ∧
    IsReply last) ⟨agent.history, input.toMessage, rfl, isReply_input input⟩ ?_ k s h
  rintro k s s' - - hflow
  obtain ⟨response, replies, _, hhistory, hsome, hreplies⟩ := iterate_next_history hflow
  refine ⟨s.history ++ ⟨(turns k).msgId, .assistant, response.parts⟩ :: replies.dropLast,
    replies.getLast hsome, ?_, hreplies _ (List.getLast_mem hsome)⟩
  rw [hhistory, List.append_assoc, List.cons_append, List.dropLast_append_getLast hsome]

/-- Between two turns the conversation grew by the answer to the first and what follows it. -/
theorem history_extends {i j : ℕ} {s t : RunState} (hij : i < j)
    (hs : stateAt agent runId turns input i = some s)
    (ht : stateAt agent runId turns input j = some t) :
    ∃ response rest, (turns i).response = .ok response ∧
      t.history = s.history ++ ⟨(turns i).msgId, .assistant, response.parts⟩ :: rest := by
  induction j, hij using Nat.le_induction generalizing t with
  | base =>
    obtain ⟨s', htakes, hflow⟩ := stateAt_succ_iff.mp ht
    cases htakes.state.symm.trans hs
    obtain ⟨response, replies, hresponse, hhistory, _⟩ := iterate_next_history hflow
    exact ⟨response, replies, hresponse, hhistory⟩
  | succ j _ ih =>
    obtain ⟨t', htakes, hflow⟩ := stateAt_succ_iff.mp ht
    obtain ⟨response, rest, hresponse, hhistory⟩ := ih htakes.state
    obtain ⟨answer, replies, _, hlater, _⟩ := iterate_next_history hflow
    refine ⟨response, rest ++ ⟨(turns j).msgId, .assistant, answer.parts⟩ :: replies,
      hresponse, ?_⟩
    rw [hlater, hhistory, List.append_assoc, List.cons_append]

end Conversation

section Requests

def RequestsOf (agent : Agent) (runId : String) (turns : ℕ → Turn) (input : AgentInput)
    (requests : List CompletionRequest) : Prop :=
  ∀ i r, requests[i]? = some r →
    ∃ s, Takes agent runId turns input i s ∧ r = agent.request s

theorem iterate_requestsOf {k : ℕ} {s : RunState} (htakes : Takes agent runId turns input k s)
    (hlength : s.requests.length = k) (hrequests : RequestsOf agent runId turns input s.requests) :
    RequestsOf agent runId turns input
      (agent.iterate runId (turns k) s).state.requests := by
  rw [iterate_requests]
  intro i r hr
  rcases Nat.lt_or_ge i s.requests.length with hi | hi
  · rw [List.getElem?_append_left hi] at hr
    exact hrequests i r hr
  · rw [List.getElem?_append_right hi, List.getElem?_singleton] at hr
    split at hr
    · have hik : i = k := by omega
      exact ⟨s, hik ▸ htakes, (Option.some.inj hr).symm⟩
    · cases hr

theorem stateAt_requests {k : ℕ} {s : RunState}
    (h : stateAt agent runId turns input k = some s) :
    s.requests.length = k ∧ RequestsOf agent runId turns input s.requests := by
  refine stateAt_induct (P := fun k s => s.requests.length = k ∧
    RequestsOf agent runId turns input s.requests) ⟨rfl, ?_⟩ ?_ k s h
  · intro i r hr
    cases hr
  · rintro k s s' htakes ⟨hlength, hrequests⟩ hflow
    have hlater := iterate_requestsOf htakes hlength hrequests
    have hmade := iterate_requests agent runId (turns k) s
    rw [hflow] at hlater hmade
    refine ⟨?_, hlater⟩
    have := congrArg List.length hmade
    rwa [List.length_append, hlength] at this

/-- The request number `i` of a run is the one of turn `i`. -/
theorem run_requestsOf (agent : Agent) (runId : String) (turns : ℕ → Turn) (input : AgentInput) :
    RequestsOf agent runId turns input (agent.run input runId turns).1.requests := by
  obtain ⟨k, s, hstate, hrun⟩ := run_cases agent runId turns input
  obtain ⟨hlength, hrequests⟩ := stateAt_requests hstate
  rcases hrun with hrun | hrun | ⟨s', result, htakes, hflow, hrun⟩
  · rw [hrun]
    exact hrequests
  · rw [hrun]
    exact hrequests
  · have hlater := iterate_requestsOf htakes hlength hrequests
    rw [hflow] at hlater
    rw [hrun]
    exact hlater

end Requests

section Marks

/-- A request whose whole prompt is marked: the only marks are those of the last tool and
of the last block, which is all there is in the last message. -/
structure MarksPrompt (req : CreateMessagesRequest) : Prop where
  messages : ∃ earlier block, req.messages = earlier ++ [⟨.user, [block]⟩] ∧
    block.cacheControl = some .ephemeral ∧
    ∀ m ∈ earlier, ∀ b ∈ m.content, b.cacheControl = none
  tools : ∀ defs, req.tools = some defs → ∃ earlier last, defs = earlier ++ [last] ∧
    (cacheKey, Value.object [("type", .string "ephemeral")]) ∈ last ∧
    ∀ d ∈ earlier, ∀ field ∈ d, field.1 ≠ cacheKey

theorem toApiMessage_marks (m : Message) : ∀ b ∈ (toApiMessage m).content,
    b.cacheControl = none := by
  intro b hb
  obtain ⟨part, _, rfl⟩ := List.mem_map.mp hb
  exact cacheControl_partToApiContent part

theorem toApiMessage_reply {m : Message} (h : IsReply m) :
    ∃ part, toApiMessage m = ⟨.user, [partToApiContent part]⟩ := by
  obtain ⟨part, hparts⟩ := h.onePart
  refine ⟨part, ?_⟩
  rw [toApiMessage, hparts]
  cases hrole : m.role with
  | user => rfl
  | tool => rfl
  | assistant => exact absurd hrole h.notAssistant

/-- A request whose last message is a reply marks its whole prompt. -/
theorem marksPrompt_of_reply (p : Provider) {request : CompletionRequest}
    {earlier : List Message} {last : Message} (hmessages : request.messages = earlier ++ [last])
    (hlast : IsReply last) : MarksPrompt (apiRequest p request) := by
  obtain ⟨part, hpart⟩ := toApiMessage_reply hlast
  constructor
  · refine ⟨earlier.map toApiMessage,
      (partToApiContent part).withCacheControl (some .ephemeral), ?_,
      cacheControl_withCacheControl _ _, ?_⟩
    · change markLastMessageCacheable (request.messages.map toApiMessage) = _
      rw [hmessages, List.map_append, List.map_singleton, hpart, markLastMessageCacheable,
        changeLast_append]
      rfl
    · intro m hm
      obtain ⟨message, _, rfl⟩ := List.mem_map.mp hm
      exact toApiMessage_marks message
  · intro defs hdefs
    simp only [apiRequest] at hdefs
    rcases List.eq_nil_or_concat request.tools with hnil | ⟨earlier, last, htools⟩
    · rw [hnil] at hdefs
      cases hdefs
    · rw [htools, List.concat_eq_append, List.map_append, List.map_singleton,
        markLastToolCacheable, changeLast_append, if_neg (by simp)] at hdefs
      cases hdefs
      refine ⟨_, _, rfl, mem_insertField _ _ _, ?_⟩
      intro d hd field hfield
      obtain ⟨t, _, rfl⟩ := List.mem_map.mp hd
      exact toolDef_keys hfield

end Marks

/-- Every request of a run marks its whole prompt for the cache, and apart from the marks a
later one is the earlier one, word for word, with more messages: the answer the earlier
one got and what followed it. -/
theorem prompt_extended (p : Provider) (agent : Agent) (input : AgentInput) (runId : String)
    (turns : ℕ → Turn) :
    (∀ r ∈ (agent.run input runId turns).1.requests, MarksPrompt (apiRequest p r)) ∧
      ∀ (i j : ℕ) (r r' : CompletionRequest),
        (agent.run input runId turns).1.requests[i]? = some r →
        (agent.run input runId turns).1.requests[j]? = some r' → i < j →
        ∃ response rest, (turns i).response = .ok response ∧
          (apiRequest p r').unmarked =
            { (apiRequest p r).unmarked with
              messages := (apiRequest p r).unmarked.messages ++
                ⟨.assistant, partsToApiContent response.parts⟩ :: rest } := by
  refine ⟨fun r hr => ?_, fun i j r r' hearlier hlater hij => ?_⟩
  · obtain ⟨i, hi⟩ := List.mem_iff_getElem?.mp hr
    obtain ⟨s, hs, rfl⟩ := run_requestsOf agent runId turns input i r hi
    obtain ⟨_, _, hlast, hreply⟩ := stateAt_last hs.state
    exact marksPrompt_of_reply p hlast hreply
  · obtain ⟨s, hs, rfl⟩ := run_requestsOf agent runId turns input i r hearlier
    obtain ⟨t, ht, rfl⟩ := run_requestsOf agent runId turns input j r' hlater
    obtain ⟨response, rest, hresponse, hhistory⟩ := history_extends hij hs.state ht.state
    refine ⟨response, rest.map toApiMessage, hresponse, ?_⟩
    have hmessages : (agent.request t).messages.map toApiMessage =
        (agent.request s).messages.map toApiMessage ++
          ⟨.assistant, partsToApiContent response.parts⟩ :: rest.map toApiMessage := by
      change t.history.map toApiMessage = s.history.map toApiMessage ++ _
      rw [hhistory, List.map_append, List.map_cons]
      rfl
    rw [unmarked_apiRequest, unmarked_apiRequest, hmessages]
    rfl

def hintedAgent : Agent :=
  ⟨"be brief", [⟨"conclude", "hand over", .object []⟩], some "conclude", none,
    AgentConfig.default, []⟩

def sayHello : ℕ → Turn := fun _ =>
  ⟨false, "m", [], .ok ⟨[.text "hello"], .endTurn, ⟨1, 1⟩⟩, false, fun _ => .ok .null⟩

/-- The second request repeats the first one and goes on with the greeting. -/
theorem prompt_extended_hinted :
    ∃ r r' rest,
      (hintedAgent.run (.userMessage "u" "hi") "run" sayHello).1.requests[0]? = some r ∧
      (hintedAgent.run (.userMessage "u" "hi") "run" sayHello).1.requests[1]? = some r' ∧
      MarksPrompt (apiRequest ⟨"model", none, none⟩ r) ∧
      (apiRequest ⟨"model", none, none⟩ r').unmarked.messages =
        (apiRequest ⟨"model", none, none⟩ r).unmarked.messages ++
          ⟨.assistant, [.text "hello" none]⟩ :: rest := by
  obtain ⟨hmarks, hextends⟩ := prompt_extended ⟨"model", none, none⟩ hintedAgent
    (.userMessage "u" "hi") "run" sayHello
  obtain ⟨response, rest, hresponse, hprompt⟩ := hextends 0 1 _ _ rfl rfl Nat.one_pos
  cases hresponse
  exact ⟨_, _, rest, rfl, rfl, hmarks _ (List.mem_of_getElem? (i := 0) rfl),
    congrArg CreateMessagesRequest.messages hprompt⟩

section Echoes

open AnthropicProvider

def readBack : ApiContent → ContentPart
  | .text text _ => .text text
  | .toolUse id name input _ => .toolCall id name input
  | .toolResult toolUseId content isError _ => .toolResult toolUseId (content.getD "") isError
  | .thinking thinking signature _ =>
    .thinking thinking (if signature = "" then none else some signature)

def NotBlank : ApiContent → Prop
  | .text text _ => text ≠ ""
  | .toolUse _ _ _ _ => True
  | .toolResult _ _ _ _ => True
  | .thinking thinking _ _ => thinking ≠ ""

/-- Every part the provider assembles survives the way back to the API. -/
theorem assemblePart_echoed (fromStr : String → Except String Value) {s : Accumulators} {i : ℕ}
    {part : ContentPart} (h : assemblePart fromStr s i = some part) :
    readBack (partToApiContent part) = part ∧ NotBlank (partToApiContent part) := by
  unfold assemblePart at h
  split at h
  · split at h
    · cases h
    · cases h
      exact ⟨rfl, ‹_›⟩
  · split at h
    · cases h
      exact ⟨rfl, trivial⟩
    · split at h
      · next thinking signature _ =>
        split at h
        · cases h
        · next hthinking =>
          cases h
          refine ⟨?_, hthinking⟩
          by_cases hsignature : signature = ""
          · simp [partToApiContent, readBack, hsignature]
          · simp [partToApiContent, readBack, hsignature]
      · cases h

theorem complete_echoed {display : AnthropicError → String}
    {fromStr : String → Except String Value} {messageId : String}
    {streams : ℕ → List (Except AnthropicError MessagesStreamEvent)}
    {response : CompletionResponse}
    (h : (complete display fromStr messageId streams).1 = .ok response) :
    (partsToApiContent response.parts).map readBack = response.parts ∧
      ∀ block ∈ partsToApiContent response.parts, NotBlank block := by
  have hassembled : ∃ s, response = assemble fromStr s := by
    unfold complete at h
    split at h
    · cases h
    · split at h
      · split at h
        · cases h
        · exact ⟨_, (Except.ok.inj h).symm⟩
      · exact ⟨_, (Except.ok.inj h).symm⟩
  obtain ⟨s, rfl⟩ := hassembled
  have hparts : ∀ part ∈ (assemble fromStr s).parts,
      readBack (partToApiContent part) = part ∧ NotBlank (partToApiContent part) := by
    intro part hpart
    obtain ⟨i, _, hi⟩ := List.mem_filterMap.mp hpart
    exact assemblePart_echoed fromStr hi
  constructor
  · rw [partsToApiContent, List.map_map]
    calc (assemble fromStr s).parts.map (readBack ∘ partToApiContent)
    _ = (assemble fromStr s).parts.map id :=
      List.map_congr_left fun part hpart => (hparts part hpart).1
    _ = (assemble fromStr s).parts := List.map_id _
  · intro block hblock
    obtain ⟨part, hpart, rfl⟩ := List.mem_map.mp hblock
    exact (hparts part hpart).2

/-- What the provider assembled in one turn of a run stands in every later request behind
exactly the prompt it was the answer to, unmarked, without blank blocks, and block by
block as it was received. -/
theorem answer_echoed (p : Provider) (agent : Agent) (input : AgentInput) (runId : String)
    (turns : ℕ → Turn) {display : AnthropicError → String}
    {fromStr : String → Except String Value} {messageId : String}
    {streams : ℕ → List (Except AnthropicError MessagesStreamEvent)} {i j : ℕ}
    {r r' : CompletionRequest}
    (hcomplete : (turns i).response = (complete display fromStr messageId streams).1)
    (hearlier : (agent.run input runId turns).1.requests[i]? = some r)
    (hlater : (agent.run input runId turns).1.requests[j]? = some r') (hij : i < j) :
    ∃ response m rest, (complete display fromStr messageId streams).1 = .ok response ∧
      (apiRequest p r').messages =
        (apiRequest p r).unmarked.messages ++ m :: rest ∧
      m.role = .assistant ∧ m.content.map readBack = response.parts ∧
      ∀ block ∈ m.content, NotBlank block ∧ block.cacheControl = none := by
  obtain ⟨s, hs, rfl⟩ := run_requestsOf agent runId turns input i r hearlier
  obtain ⟨t, ht, rfl⟩ := run_requestsOf agent runId turns input j r' hlater
  obtain ⟨response, rest, hresponse, hhistory⟩ := history_extends hij hs.state ht.state
  obtain ⟨earlier, last, htlast, hreply⟩ := stateAt_last ht.state
  have hok := hcomplete.symm.trans hresponse
  obtain ⟨hread, hblank⟩ := complete_echoed hok
  -- the answer is not the last message, so its blocks are not marked
  obtain ⟨replies, rfl⟩ : ∃ replies, rest = replies ++ [last] := by
    rcases List.eq_nil_or_concat rest with rfl | ⟨replies, other, rfl⟩
    · obtain ⟨-, hlast⟩ := List.append_inj' (htlast.symm.trans hhistory) rfl
      exact absurd (congrArg Message.role (List.cons.inj hlast).1) hreply.notAssistant
    · rw [htlast, List.concat_eq_append, ← List.cons_append, ← List.append_assoc] at hhistory
      obtain ⟨-, hlast⟩ := List.append_inj' hhistory rfl
      exact ⟨replies, by rw [List.concat_eq_append, (List.cons.inj hlast).1]⟩
  refine ⟨response, ⟨.assistant, partsToApiContent response.parts⟩,
    replies.map toApiMessage ++ [markLastBlock (toApiMessage last)], hok, ?_, rfl, hread, ?_⟩
  · rw [unmarked_apiRequest]
    change markLastMessageCacheable (t.history.map toApiMessage) =
      s.history.map toApiMessage ++ _
    rw [hhistory, ← List.cons_append, ← List.append_assoc, List.map_append, List.map_singleton,
      markLastMessageCacheable, changeLast_append, List.map_append, List.map_cons,
      List.append_assoc, List.cons_append]
    rfl
  · intro block hblock
    exact ⟨hblank block hblock, toApiMessage_marks ⟨"", .assistant, response.parts⟩ block hblock⟩

def thoughtEvents : List MessagesStreamEvent :=
  [.contentBlockStart 0 .thinking, .contentBlockDelta 0 (.thinkingDelta "so "),
    .contentBlockDelta 0 (.thinkingDelta "far"), .contentBlockDelta 0 (.signatureDelta "sig")]

def thoughtAnswer : CompletionResponse := ⟨[.thinking "so far" (some "sig")], .endTurn, ⟨0, 0⟩⟩

theorem thoughtEvents_complete :
    (complete (fun _ => "") (fun _ => .ok .null) "m" (fun _ => thoughtEvents.map .ok)).1 =
      .ok thoughtAnswer := by
  have hindices : allIndices (readEvents "m" Accumulators.init thoughtEvents) = [0] := by
    change (([0] : List ℕ).mergeSort _).destutter _ = [0]
    rw [List.mergeSort_singleton]
    rfl
  rw [ReassembledBlocks.complete_ok _ _ _ _ thoughtEvents rfl, assemble, hindices]
  rfl

/-- The thought goes back with its signature. -/
theorem answer_echoed_thought :
    ∃ r r' m rest,
      (hintedAgent.run (.userMessage "u" "hi") "run" (fun _ =>
        ⟨false, "m", [], .ok thoughtAnswer, false, fun _ => .ok .null⟩)).1.requests[0]? = some r ∧
      (hintedAgent.run (.userMessage "u" "hi") "run" (fun _ =>
        ⟨false, "m", [], .ok thoughtAnswer, false, fun _ => .ok .null⟩)).1.requests[1]? = some r' ∧
      (apiRequest ⟨"model", none, none⟩ r').messages =
        (apiRequest ⟨"model", none, none⟩ r).unmarked.messages ++ m :: rest ∧
      m.content.map readBack = [.thinking "so far" (some "sig")] := by
  obtain ⟨response, m, rest, hresponse, hmessages, _, hread, _⟩ :=
    answer_echoed ⟨"model", none, none⟩ hintedAgent (.userMessage "u" "hi") "run" (fun _ =>
      ⟨false, "m", [], .ok thoughtAnswer, false, fun _ => .ok .null⟩) (i := 0) (j := 1)
      thoughtEvents_complete.symm rfl rfl Nat.one_pos
  cases thoughtEvents_complete.symm.trans hresponse
  exact ⟨_, _, m, rest, rfl, rfl, hmessages, hread⟩

end Echoes

end October.CachedPrompts
