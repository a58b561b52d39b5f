import October.AgentActor
import October.Pairing

/-!
Well-formed tool conversations. A user or assistant message is a barrier, a call in
an assistant message opens its id and a result closes it. A conversation is well
formed when its calls are all closed, each exactly once and before the next barrier.
-/
namespace October.ToolConversation

open AgentActor Pairing

def partTokens (role : Role) : ContentPart → List (Token String)
  | .toolCall id _ _ => if role = .assistant then [.opens id] else []
  | .toolResult toolCallId _ _ => [.closes toolCallId]
  | .text _ => []
  | .thinking _ _ => []

def messageTokens (m : Message) : List (Token String) :=
  (if m.role = .tool then [] else [.barrier]) ++ m.parts.flatMap (partTokens m.role)

def tokens (messages : List Message) : List (Token String) := messages.flatMap messageTokens

/-- The ids of the calls still unanswered, or `none` if a call was left unanswered at
the next user or assistant message or a result answered no open call. -/
def openCalls (messages : List Message) : Option (List String) := scan [] (tokens messages)

/-- Every call is answered by exactly one result before the next user or assistant
message, and every result answers a call of the closest assistant message. -/
def WellFormed (messages : List Message) : Prop := openCalls messages = some []

instance (messages : List Message) : Decidable (WellFormed messages) :=
  inferInstanceAs (Decidable (openCalls messages = some []))

def madeCalls (messages : List Message) : List String := opened (tokens messages)

@[simp] theorem tokens_append (ms ms' : List Message) :
    tokens (ms ++ ms') = tokens ms ++ tokens ms' := List.flatMap_append

@[simp] theorem madeCalls_append (ms ms' : List Message) :
    madeCalls (ms ++ ms') = madeCalls ms ++ madeCalls ms' := by simp [madeCalls]

theorem openCalls_append (ms ms' : List Message) :
    openCalls (ms ++ ms') = (openCalls ms).bind (fun p => scan p (tokens ms')) := by
  rw [openCalls, tokens_append, scan_append]
  rfl

theorem tokens_user (id text : String) : tokens [Message.user id text] = [.barrier] := rfl

theorem tokens_toolResult (toolCallId output : String) (isError : Bool) :
    tokens [Message.toolResult toolCallId output isError] = [.closes toolCallId] := rfl

theorem openCalls_user_iff (ms : List Message) (id text : String) :
    WellFormed (ms ++ [Message.user id text]) ↔ openCalls ms = some [] := by
  rw [WellFormed, openCalls_append, tokens_user]
  constructor
  · intro h
    obtain ⟨p, hp, hscan⟩ := Option.bind_eq_some_iff.mp h
    rw [hp, nil_of_scan_barrier p [] [] hscan]
  · intro h
    simp [h]

theorem openCalls_toolResult_iff (ms : List Message) (toolCallId output : String)
    (isError : Bool) :
    WellFormed (ms ++ [Message.toolResult toolCallId output isError]) ↔
      openCalls ms = some [toolCallId] := by
  rw [WellFormed, openCalls_append, tokens_toolResult]
  constructor
  · intro h
    obtain ⟨p, hp, hscan⟩ := Option.bind_eq_some_iff.mp h
    by_cases hmem : toolCallId ∈ p
    · simp only [scan, step, hmem, if_true, Option.bind_some, Option.some.injEq] at hscan
      have hlen := List.length_erase_of_mem hmem
      rw [hscan, List.length_nil] at hlen
      obtain ⟨x, rfl⟩ := List.length_eq_one_iff.mp (show p.length = 1 by
        have := List.length_pos_of_mem hmem
        omega)
      rw [hp, List.mem_singleton.mp hmem]
    · simp [scan, step, hmem] at hscan
  · intro h
    simp [h, scan, step]

theorem flatMap_partTokens (parts : List ContentPart) (h : resultIds parts = []) :
    parts.flatMap (partTokens .assistant) = (callIds parts).map .opens := by
  induction parts with
  | nil => rfl
  | cons part rest ih =>
    cases part with
    | text text => exact ih h
    | thinking text signature => exact ih h
    | toolCall id name input => exact congrArg _ (ih h)
    | toolResult toolCallId output isError => simp [resultIds] at h

theorem tokens_assistant (id : String) (parts : List ContentPart) (h : resultIds parts = []) :
    tokens [⟨id, .assistant, parts⟩] = .barrier :: (callIds parts).map .opens := by
  simp [tokens, messageTokens, flatMap_partTokens parts h]

theorem openCalls_assistant (ms : List Message) (id : String) (parts : List ContentPart)
    (hms : WellFormed ms) (hnodup : (callIds parts).Nodup) (hresults : resultIds parts = []) :
    openCalls (ms ++ [⟨id, .assistant, parts⟩]) = some (callIds parts) := by
  rw [openCalls_append, hms, tokens_assistant id parts hresults, Option.bind_some, scan_barrier,
    scan_opens [] _ (by simpa using hnodup), List.nil_append]

/-- Results that answer the open calls in order. -/
theorem wellFormed_results (ms results : List Message) (ids : List String)
    (hms : openCalls ms = some ids) (hresults : tokens results = ids.map .closes) :
    WellFormed (ms ++ results) := by
  rw [WellFormed, openCalls_append, hms, hresults, Option.bind_some, scan_closes]

theorem tokens_map_results {α : Type} (xs : List α) (f : α → Message) (id : α → String)
    (h : ∀ x, tokens [f x] = [.closes (id x)]) :
    tokens (xs.map f) = (xs.map id).map .closes := by
  induction xs with
  | nil => rfl
  | cons x rest ih =>
    have hsplit : tokens ((x :: rest).map f) = tokens [f x] ++ tokens (rest.map f) := by
      rw [← tokens_append]
      rfl
    rw [hsplit, h, ih]
    rfl

theorem tokens_toolResults (execute : ℕ → Except ToolCallError Value) (i : ℕ)
    (calls : List ToolCall) :
    tokens (Agent.toolResults execute i calls) = (calls.map ToolCall.id).map .closes := by
  induction calls generalizing i with
  | nil => rfl
  | cons call rest ih => exact congrArg _ (ih (i + 1))

theorem closed_parts (role : Role) (parts : List ContentPart) :
    closed (parts.flatMap (partTokens role)) = resultIds parts := by
  induction parts with
  | nil => rfl
  | cons part rest ih =>
    rw [List.flatMap_cons, closed_append, ih]
    cases part with
    | toolCall id name input =>
      simp only [partTokens]
      split <;> rfl
    | _ => rfl

theorem closed_tokens (ms : List Message) :
    closed (tokens ms) = ms.flatMap (fun m => resultIds m.parts) := by
  induction ms with
  | nil => rfl
  | cons m rest ih =>
    rw [tokens, List.flatMap_cons, closed_append, List.flatMap_cons, ← tokens, ih, messageTokens,
      closed_append, closed_parts]
    split <;> rfl

theorem opened_parts (parts : List ContentPart) :
    opened (parts.flatMap (partTokens .assistant)) = callIds parts := by
  induction parts with
  | nil => rfl
  | cons part rest ih =>
    rw [List.flatMap_cons, opened_append, ih]
    cases part <;> rfl

theorem madeCalls_assistant (m : Message) (h : m.role = .assistant) :
    madeCalls [m] = callIds m.parts := by
  simp only [madeCalls, tokens, List.flatMap_cons, List.flatMap_nil, List.append_nil,
    messageTokens, h, opened_append, opened_parts]
  rfl

theorem madeCalls_other (m : Message) (h : m.role ≠ .assistant) : madeCalls [m] = [] := by
  have hparts : ∀ parts : List ContentPart,
      opened (parts.flatMap (partTokens m.role)) = [] := by
    intro parts
    induction parts with
    | nil => rfl
    | cons part rest ih =>
      rw [List.flatMap_cons, opened_append, ih]
      cases part <;> simp [partTokens, opened, h]
  simp only [madeCalls, tokens, List.flatMap_cons, List.flatMap_nil, List.append_nil,
    messageTokens, opened_append, hparts]
  split <;> rfl

theorem madeCalls_eq_nil (ms : List Message) (h : ∀ m ∈ ms, m.role ≠ .assistant) :
    madeCalls ms = [] := by
  induction ms with
  | nil => rfl
  | cons m rest ih =>
    rw [show m :: rest = [m] ++ rest from rfl, madeCalls_append,
      madeCalls_other m (h m (by simp)), ih (fun x hx => h x (by simp [hx]))]
    rfl

/-- The calls of a conversation that are still open were made by its last assistant
message; `sanitizeForResume` answers exactly those. -/
theorem sanitizeForResume_eq (ms : List Message) (ids : List String)
    (hopen : openCalls ms = some ids) (hnodup : (madeCalls ms).Nodup) :
    sanitizeForResume ms = ms ++ ids.map (fun id =>
      Message.toolResult id "interrupted by shutdown, not completed" true) := by
  have hids : ids = (madeCalls ms).filter (fun id => decide (id ∉ closed (tokens ms))) := by
    have hpending := pending_eq [] ids (tokens ms) (by simpa [madeCalls] using hnodup) hopen
    simpa [madeCalls] using hpending
  unfold sanitizeForResume
  rw [← closed_tokens]
  cases hlast : ms.reverse.find? (fun m => m.role == .assistant) with
  | none =>
    have hnone : madeCalls ms = [] := by
      apply madeCalls_eq_nil
      intro m hm
      have hfind := List.find?_eq_none.mp hlast m (List.mem_reverse.mpr hm)
      simpa using hfind
    simp [hids, hnone]
  | some m =>
    obtain ⟨hm, after, before, hreverse, hafter⟩ := List.find?_eq_some_iff_append.mp hlast
    have hrole : m.role = .assistant := by simpa using hm
    have hsplit : ms = before.reverse ++ [m] ++ after.reverse := by
      rw [← List.reverse_reverse ms, hreverse]
      simp
    have hsuffix : madeCalls after.reverse = [] := by
      apply madeCalls_eq_nil
      intro x hx
      simpa using hafter x (List.mem_reverse.mp hx)
    have hmade : madeCalls ms = madeCalls before.reverse ++ callIds m.parts := by
      rw [hsplit, madeCalls_append, madeCalls_append, madeCalls_assistant m hrole, hsuffix,
        List.append_nil]
    have hbefore : openCalls before.reverse = some [] := by
      rw [hsplit, List.append_assoc, openCalls_append] at hopen
      obtain ⟨p, hp, hscan⟩ := Option.bind_eq_some_iff.mp hopen
      have htokens : tokens ([m] ++ after.reverse) =
          .barrier :: (m.parts.flatMap (partTokens m.role) ++ tokens after.reverse) := by
        simp [tokens, messageTokens, hrole]
      rw [htokens] at hscan
      rw [hp, nil_of_scan_barrier p _ _ hscan]
    have hclosed : (madeCalls before.reverse).filter
        (fun id => decide (id ∉ closed (tokens ms))) = [] := by
      rw [hmade] at hnodup
      have hpending := pending_eq [] [] (tokens before.reverse)
        (by simpa [madeCalls] using (List.nodup_append.mp hnodup).1) hbefore
      apply List.filter_eq_nil_iff.mpr
      intro id hid
      have hin := List.filter_eq_nil_iff.mp hpending.symm id (by simpa [madeCalls] using hid)
      have hmem : id ∈ closed (tokens before.reverse) := by simpa using hin
      rw [hsplit]
      simp [hmem]
    rw [hids, hmade, List.filter_append, hclosed, List.nil_append]

/-- A recovered conversation becomes well formed when only the last assistant message
has unanswered calls. -/
theorem sanitizeForResume_wellFormed (ms : List Message) (ids : List String)
    (hopen : openCalls ms = some ids) (hnodup : (madeCalls ms).Nodup) :
    WellFormed (sanitizeForResume ms) := by
  rw [sanitizeForResume_eq ms ids hopen hnodup]
  apply wellFormed_results ms _ ids hopen
  simpa using tokens_map_results ids
    (fun id => Message.toolResult id "interrupted by shutdown, not completed" true) id
    (fun id => tokens_toolResult id _ true)

end October.ToolConversation
