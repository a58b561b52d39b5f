import October.LossyUtf8
import October.ReassembledBlocks

/-!
A tool call as the mock server streams it. The text of the input is cut every ten bytes,
and each piece is turned into a text of its own, so the provider receives the input just
if no character of its text is cut.
-/

namespace October.MockStreams

open AnthropicProvider ReassembledBlocks

section Server

def asBytes (text : String) : List UInt8 := LossyUtf8.encode text.toList

def fromUtf8Lossy (bytes : List UInt8) : String := String.ofList (LossyUtf8.decode bytes)

def messageStart (msgId : String) : Value :=
  .object [("type", .string "message_start"),
    ("message", .object [("id", .string msgId), ("type", .string "message"),
      ("role", .string "assistant"), ("content", .array []), ("model", .string "mock-model"),
      ("stop_reason", .null),
      ("usage", .object [("input_tokens", .number "10"), ("output_tokens", .number "0")])])]

def toolUseStart (id name : String) : Value :=
  .object [("type", .string "content_block_start"), ("index", .number "0"),
    ("content_block", .object [("type", .string "tool_use"), ("id", .string id),
      ("name", .string name), ("input", .object [])])]

def inputJsonDelta (frag : String) : Value :=
  .object [("type", .string "content_block_delta"), ("index", .number "0"),
    ("delta", .object [("type", .string "input_json_delta"), ("partial_json", .string frag)])]

def blockStop : Value :=
  .object [("type", .string "content_block_stop"), ("index", .number "0")]

def messageDelta : Value :=
  .object [("type", .string "message_delta"),
    ("delta", .object [("stop_reason", .string "tool_use"), ("stop_sequence", .null)]),
    ("usage", .object [("output_tokens", .number "20")])]

def messageStop : Value := .object [("type", .string "message_stop")]

/-- The events' names and data; the data are sent as their text. -/
def toolCallStreamSse (msgId name id : String) (input : Value) : List (String × Value) :=
  let inputStr := input.display
  let fragments := (LossyUtf8.chunks 10 (asBytes inputStr)).map fromUtf8Lossy
  [("message_start", messageStart msgId), ("content_block_start", toolUseStart id name)] ++
    fragments.map (fun frag => ("content_block_delta", inputJsonDelta frag)) ++
    [("content_block_stop", blockStop), ("message_delta", messageDelta),
      ("message_stop", messageStop)]

end Server

def partialJsons (events : List (String × Value)) : List String :=
  events.filterMap (fun e =>
    ((e.2.get "delta").bind (fun delta => delta.get "partial_json")).bind Value.asStr)

/-- The client library takes the events of a streamed tool call for what they are. -/
structure DecodesEvents
    (decode : String × Value → Except AnthropicError MessagesStreamEvent) : Prop where
  messageStart (msgId : String) :
    decode ("message_start", messageStart msgId) = .ok (.messageStart (some ⟨some 10, some 0⟩))
  toolUse (id name : String) :
    decode ("content_block_start", toolUseStart id name) =
      .ok (.contentBlockStart 0 (.toolUse id name))
  delta (frag : String) :
    decode ("content_block_delta", inputJsonDelta frag) =
      .ok (.contentBlockDelta 0 (.inputJsonDelta frag))
  blockStop : decode ("content_block_stop", blockStop) = .ok (.contentBlockStop 0)
  messageDelta : decode ("message_delta", messageDelta) =
    .ok (.messageDelta (some "tool_use") (some ⟨none, some 20⟩))
  messageStop : decode ("message_stop", messageStop) = .ok .messageStop

/-- The emitted fragments make up the text of the input, and the provider answers the
stream with a call of the tool with this input. -/
def StreamsFaithfully (decode : String × Value → Except AnthropicError MessagesStreamEvent)
    (display : AnthropicError → String) (fromStr : String → Except String Value)
    (messageId msgId name id : String) (input : Value) : Prop :=
  String.join (partialJsons (toolCallStreamSse msgId name id input)) = input.display ∧
    ∃ response, (complete display fromStr messageId
        (fun _ => (toolCallStreamSse msgId name id input).map decode)).1 = .ok response ∧
      response.parts = [.toolCall id name input]

section Fragments

def fragments (input : Value) : List String :=
  (LossyUtf8.chunks 10 (asBytes input.display)).map fromUtf8Lossy

theorem partialJsons_stream (msgId name id : String) (input : Value) :
    partialJsons (toolCallStreamSse msgId name id input) = fragments input := by
  have hdeltas : ∀ frags : List String, partialJsons
      (frags.map (fun frag => ("content_block_delta", inputJsonDelta frag))) = frags := by
    intro frags
    rw [partialJsons, List.filterMap_map]
    exact List.filterMap_some
  unfold partialJsons at hdeltas
  rw [partialJsons, toolCallStreamSse, List.filterMap_append, List.filterMap_append, hdeltas]
  exact List.append_nil _

/-- The fragments make up the text just if no character is cut. -/
theorem join_fragments_iff (input : Value) :
    String.join (fragments input) = input.display ↔
      LossyUtf8.Aligned 10 input.display.toList := by
  have hletters : (String.join (fragments input)).toList =
      LossyUtf8.decodeChunks 10 (LossyUtf8.encode input.display.toList) := by
    rw [String.toList_join, fragments, List.flatMap_map]
    exact List.flatMap_congr (fun _ _ => String.toList_ofList)
  rw [← LossyUtf8.decodeChunks_encode_iff (by decide), ← String.toList_inj, hletters]

end Fragments

section Answers

def streamEvents (id name : String) (frags : List String) : List MessagesStreamEvent :=
  .messageStart (some ⟨some 10, some 0⟩) ::
    (blockEvents 0 (.toolUse id name) (frags.map .inputJsonDelta) ++
      [.messageDelta (some "tool_use") (some ⟨none, some 20⟩), .messageStop])

theorem map_decode {decode : String × Value → Except AnthropicError MessagesStreamEvent}
    (h : DecodesEvents decode) (msgId name id : String) (input : Value) :
    (toolCallStreamSse msgId name id input).map decode =
      (streamEvents id name (fragments input)).map .ok := by
  have hdeltas : ∀ frags : List String,
      (frags.map (fun frag => ("content_block_delta", inputJsonDelta frag))).map decode =
        ((frags.map ContentBlockDelta.inputJsonDelta).map
          (MessagesStreamEvent.contentBlockDelta 0)).map .ok := by
    intro frags
    simp only [List.map_map]
    exact List.map_congr_left (fun frag _ => h.delta frag)
  simp only [toolCallStreamSse, streamEvents, blockEvents, List.map_append, hdeltas,
    List.map_cons, List.map_nil, h.messageStart, h.toolUse, h.blockStop, h.messageDelta,
    h.messageStop, fragments, List.cons_append, List.nil_append, List.append_assoc]

/-- The events deliver the tool call with what the fragments make up. -/
theorem stream_interleaves (id name : String) (frags : List String) :
    Interleaves [(0, .toolUse id name (String.join frags))] (streamEvents id name frags) := by
  have hdeltas : ∀ e ∈ blockEvents 0 (.toolUse id name) (frags.map .inputJsonDelta),
      e.index? = some 0 := by
    intro e he
    simp only [blockEvents, List.cons_append, List.mem_cons, List.mem_append, List.mem_map,
      List.not_mem_nil, or_false] at he
    rcases he with rfl | ⟨delta, -, rfl⟩ | rfl
    · rfl
    · rfl
    · rfl
  refine ⟨fun b hb => ?_, fun e he i hi => ?_⟩
  · obtain rfl := List.mem_singleton.mp hb
    have hfilter : (streamEvents id name frags).filter (fun e => e.index? = some 0) =
        blockEvents 0 (.toolUse id name) (frags.map .inputJsonDelta) := by
      rw [streamEvents, List.filter_cons_of_neg (by decide), List.filter_append,
        List.filter_eq_self.mpr (fun e he => decide_eq_true (hdeltas e he))]
      exact List.append_nil _
    rw [hfilter]
    exact .toolUse id name _ frags rfl
  · rw [streamEvents, List.mem_cons, List.mem_append] at he
    rcases he with rfl | he | he
    · cases hi
    · rw [hdeltas e he] at hi
      cases hi
      exact List.mem_cons_self
    · simp only [List.mem_cons, List.not_mem_nil, or_false] at he
      rcases he with rfl | rfl
      · cases hi
      · cases hi

/-- The mock server streams a tool input faithfully just if no character of the input's
text lies on both sides of a multiple of ten bytes. -/
theorem streams_faithfully_iff
    (decode : String × Value → Except AnthropicError MessagesStreamEvent)
    (display : AnthropicError → String) (fromStr : String → Except String Value)
    (messageId msgId name id : String) (input : Value) (hdecode : DecodesEvents decode)
    (hparse : fromStr input.display = .ok input) :
    StreamsFaithfully decode display fromStr messageId msgId name id input ↔
      LossyUtf8.Aligned 10 input.display.toList := by
  rw [StreamsFaithfully, partialJsons_stream, join_fragments_iff]
  refine ⟨fun h => h.1, fun haligned => ⟨haligned, ?_⟩⟩
  have hjoin := (join_fragments_iff input).mpr haligned
  have hevents := stream_interleaves id name (fragments input)
  refine ⟨_, complete_ok display fromStr messageId _ _ (map_decode hdecode msgId name id input),
    ?_⟩
  rw [(hevents.holds messageId).parts_eq fromStr (List.nodup_singleton _), hjoin]
  simp [Block.part, toolInput, hparse]

def readEvent (e : String × Value) : Except AnthropicError MessagesStreamEvent :=
  let textAt (outer inner : String) : Option String :=
    ((e.2.get outer).bind (fun v => v.get inner)).bind Value.asStr
  if e.1 = "message_start" then .ok (.messageStart (some ⟨some 10, some 0⟩))
  else if e.1 = "content_block_start" then
    match textAt "content_block" "id", textAt "content_block" "name" with
    | some id, some name => .ok (.contentBlockStart 0 (.toolUse id name))
    | _, _ => .ok (.contentBlockStart 0 .text)
  else if e.1 = "content_block_delta" then
    match textAt "delta" "partial_json" with
    | some frag => .ok (.contentBlockDelta 0 (.inputJsonDelta frag))
    | none => .error (.deserializationError "missing field")
  else if e.1 = "content_block_stop" then .ok (.contentBlockStop 0)
  else if e.1 = "message_delta" then
    .ok (.messageDelta (textAt "delta" "stop_reason") (some ⟨none, some 20⟩))
  else .ok .messageStop

theorem readEvent_decodes : DecodesEvents readEvent where
  messageStart _ := rfl
  toolUse _ _ := rfl
  delta _ := rfl
  blockStop := rfl
  messageDelta := rfl
  messageStop := rfl

/-- A plain input that takes two pieces. -/
theorem plain_input_streams :
    StreamsFaithfully readEvent (fun _ => "") (fun _ => .ok (.object [("path", .string "/tmp")]))
      "m" "msg" "ls" "t" (.object [("path", .string "/tmp")]) :=
  (streams_faithfully_iff readEvent (fun _ => "")
    (fun _ => .ok (.object [("path", .string "/tmp")])) "m" "msg" "ls" "t"
    (.object [("path", .string "/tmp")]) readEvent_decodes rfl).mpr
    ((LossyUtf8.decodeChunks_encode_iff (by decide) _).mp (by decide +kernel))

/-- A character of three bytes that begins with the tenth one is lost. -/
theorem cut_character_lost :
    ¬ StreamsFaithfully readEvent (fun _ => "") (fun _ => .ok (.object [("q", .string "abc€")]))
      "m" "msg" "ask" "t" (.object [("q", .string "abc€")]) := by
  rintro ⟨hjoin, -⟩
  revert hjoin
  decide +kernel

end Answers

end October.MockStreams
