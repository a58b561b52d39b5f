import October.ToolConversation

/-!
Sanitizing an interrupted conversation. A conversation may be cut after any message;
only the calls of its last assistant message can then be unanswered, and
`sanitizeForResume` answers exactly those.
-/

namespace October.SanitizedHistories

open AgentActor Pairing ToolConversation

def unanswered (messages : List Message) : List String :=
  (madeCalls messages).filter
    (fun id => decide (id ∉ messages.flatMap (fun m => resultIds m.parts)))

def interruptedResults (ids : List String) : List Message :=
  ids.map (fun id => Message.toolResult id "interrupted by shutdown, not completed" true)

/-- In a conversation that is in order so far the open calls are the unanswered ones. -/
theorem openCalls_eq_unanswered {messages : List Message} {ids : List String}
    (hopen : openCalls messages = some ids) (hnodup : (madeCalls messages).Nodup) :
    ids = unanswered messages := by
  have hpending := pending_eq [] ids (tokens messages) (by simpa [madeCalls] using hnodup) hopen
  simpa [unanswered, madeCalls, closed_tokens] using hpending

/-- A conversation in order is in order up to any of its messages. -/
theorem openCalls_prefix {history p : List Message} (hp : p <+: history)
    (hformed : WellFormed history) (hdistinct : (madeCalls history).Nodup) :
    openCalls p = some (unanswered p) ∧ (madeCalls p).Nodup := by
  obtain ⟨rest, rfl⟩ := hp
  have hnodup : (madeCalls p).Nodup := by
    rw [madeCalls_append] at hdistinct
    exact (List.nodup_append.mp hdistinct).1
  rw [WellFormed, openCalls_append] at hformed
  obtain ⟨ids, hids, _⟩ := Option.bind_eq_some_iff.mp hformed
  exact ⟨openCalls_eq_unanswered hids hnodup ▸ hids, hnodup⟩

theorem madeCalls_interruptedResults (ids : List String) :
    madeCalls (interruptedResults ids) = [] := by
  refine madeCalls_eq_nil _ (fun m hm => ?_)
  obtain ⟨id, _, rfl⟩ := List.mem_map.mp hm
  simp [Message.toolResult]

/-- A conversation that is well formed is left as it is. -/
theorem sanitizeForResume_wellFormed_eq {messages : List Message} (hformed : WellFormed messages)
    (hnodup : (madeCalls messages).Nodup) : sanitizeForResume messages = messages := by
  rw [sanitizeForResume_eq messages [] hformed hnodup]
  exact List.append_nil _

/-- Cut after any message, a well-formed conversation with distinct call ids is repaired by
one error result for each unanswered call, in the order of the calls, and by nothing else. -/
theorem sanitizeForResume_repairs (history p : List Message) (hformed : WellFormed history)
    (hdistinct : (madeCalls history).Nodup) (hp : p <+: history) :
    sanitizeForResume p = p ++ interruptedResults (unanswered p) ∧
      WellFormed (sanitizeForResume p) ∧ unanswered (sanitizeForResume p) = [] ∧
      p <+: sanitizeForResume p ∧ (unanswered p = [] → sanitizeForResume p = p) ∧
      sanitizeForResume (sanitizeForResume p) = sanitizeForResume p := by
  obtain ⟨hopen, hnodup⟩ := openCalls_prefix hp hformed hdistinct
  have hsanitized : sanitizeForResume p = p ++ interruptedResults (unanswered p) :=
    sanitizeForResume_eq p (unanswered p) hopen hnodup
  have hrepaired : WellFormed (sanitizeForResume p) :=
    sanitizeForResume_wellFormed p (unanswered p) hopen hnodup
  have hmade : (madeCalls (sanitizeForResume p)).Nodup := by
    rw [hsanitized, madeCalls_append, madeCalls_interruptedResults, List.append_nil]
    exact hnodup
  refine ⟨hsanitized, hrepaired, (openCalls_eq_unanswered hrepaired hmade).symm, ?_, ?_,
    sanitizeForResume_wellFormed_eq hrepaired hmade⟩
  · rw [hsanitized]
    exact List.prefix_append _ _
  · intro hnone
    rw [hsanitized, hnone]
    exact List.append_nil _

def twoCalls : List Message :=
  [Message.user "u" "go",
    ⟨"m", .assistant, [.toolCall "a" "ls" .null, .toolCall "b" "cat" .null]⟩,
    Message.toolResult "a" "x" false, Message.toolResult "b" "y" false]

/-- Cut between its two results the conversation gets the second one. -/
theorem sanitizeForResume_repairs_between :
    sanitizeForResume (twoCalls.take 3) =
        twoCalls.take 3 ++ interruptedResults (unanswered (twoCalls.take 3)) ∧
      WellFormed (sanitizeForResume (twoCalls.take 3)) ∧
      unanswered (sanitizeForResume (twoCalls.take 3)) = [] ∧
      twoCalls.take 3 <+: sanitizeForResume (twoCalls.take 3) ∧
      (unanswered (twoCalls.take 3) = [] →
        sanitizeForResume (twoCalls.take 3) = twoCalls.take 3) ∧
      sanitizeForResume (sanitizeForResume (twoCalls.take 3)) =
        sanitizeForResume (twoCalls.take 3) :=
  sanitizeForResume_repairs twoCalls (twoCalls.take 3) (by decide) (by decide)
    (List.take_prefix 3 twoCalls)

end October.SanitizedHistories
