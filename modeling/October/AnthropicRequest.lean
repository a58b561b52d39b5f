import October.AnthropicProvider

/-!
The request the Anthropic provider's `complete` sends. Messages and tools are translated
to the API's own; the last block of the last message and the last tool are marked, so
that the API caches what stands in front of them.
-/
namespace October.AnthropicRequest

inductive MessageRole where
  | user
  | assistant
  deriving DecidableEq, Repr

inductive CacheControl where
  | ephemeral
  deriving DecidableEq, Repr

inductive ApiContent where
  | text (text : String) (cacheControl : Option CacheControl)
  | toolUse (id name : String) (input : Value) (cacheControl : Option CacheControl)
  | toolResult (toolUseId : String) (content : Option String) (isError : Bool)
    (cacheControl : Option CacheControl)
  | thinking (thinking signature : String) (cacheControl : Option CacheControl)

structure ApiMessage where
  role : MessageRole
  content : List ApiContent

abbrev Fields := List (String × Value)

/-- What the model may or must call; without a choice it decides itself. -/
inductive ApiToolChoice where
  | any
  | tool (name : String)
  deriving DecidableEq, Repr

structure CreateMessagesRequest where
  model : String
  messages : List ApiMessage
  maxTokens : Int32
  system : Option String
  tools : Option (List Fields)
  toolChoice : Option ApiToolChoice
  /-- The token budget of enabled thinking. -/
  thinking : Option UInt32

structure Provider where
  model : String
  thinkingBudget : Option UInt32
  maxTokens : Option UInt32

def defaultMaxTokens : UInt32 := 16384

def toApiRole : Role → MessageRole
  | .assistant => .assistant
  | .user => .user
  | .tool => .user

def partToApiContent : ContentPart → ApiContent
  | .text text => .text text none
  | .toolCall id name input => .toolUse id name input none
  | .toolResult toolCallId output isError => .toolResult toolCallId (some output) isError none
  | .thinking text signature => .thinking text (signature.getD "") none

def partsToApiContent (parts : List ContentPart) : List ApiContent := parts.map partToApiContent

def toApiMessage (m : Message) : ApiMessage := ⟨toApiRole m.role, partsToApiContent m.parts⟩

def ApiContent.withCacheControl (cc : Option CacheControl) : ApiContent → ApiContent
  | .text t _ => .text t cc
  | .toolUse id name input _ => .toolUse id name input cc
  | .toolResult toolUseId content isError _ => .toolResult toolUseId content isError cc
  | .thinking t signature _ => .thinking t signature cc

def ApiContent.cacheControl : ApiContent → Option CacheControl
  | .text _ cc => cc
  | .toolUse _ _ _ cc => cc
  | .toolResult _ _ _ cc => cc
  | .thinking _ _ cc => cc

def changeLast {α : Type} (f : α → α) (items : List α) : List α :=
  match items.getLast? with
  | none => items
  | some last => items.dropLast ++ [f last]

def markLastBlock (m : ApiMessage) : ApiMessage :=
  { m with content := changeLast (ApiContent.withCacheControl (some .ephemeral)) m.content }

def markLastMessageCacheable (messages : List ApiMessage) : List ApiMessage :=
  changeLast markLastBlock messages

def insertField (key : String) (v : Value) : Fields → Fields
  | [] => [(key, v)]
  | (k, w) :: rest =>
    if key < k then (key, v) :: (k, w) :: rest
    else if key = k then (key, v) :: rest
    else (k, w) :: insertField key v rest

def cacheKey : String := "cache_control"

def markLastToolCacheable (tools : List Fields) : List Fields :=
  changeLast (insertField cacheKey (.object [("type", .string "ephemeral")])) tools

def toolDef (t : ToolSpec) : Fields :=
  insertField "input_schema" t.inputSchema
    (insertField "description" (.string t.description)
      (insertField "name" (.string t.name) []))

def toApiToolChoice : ToolChoice → Option ApiToolChoice
  | .auto => none
  | .any => some .any
  | .required name => some (.tool name)

/-- The bound set up for the provider, else the request's, else the default; it is sent as
a signed number. -/
def maxTokens (p : Provider) (request : CompletionRequest) : Int32 :=
  (((p.maxTokens.or (request.maxTokens.map UInt32.ofNat)).getD defaultMaxTokens)).toInt32

def apiRequest (p : Provider) (request : CompletionRequest) : CreateMessagesRequest :=
  let toolDefs := markLastToolCacheable (request.tools.map toolDef)
  { model := p.model
    messages := markLastMessageCacheable (request.messages.map toApiMessage)
    maxTokens := maxTokens p request
    system := request.system
    tools := if toolDefs.isEmpty then none else some toolDefs
    toolChoice := if toolDefs.isEmpty then none else toApiToolChoice request.toolChoice
    thinking := p.thinkingBudget }

section Unmarked

def ApiContent.unmarked (block : ApiContent) : ApiContent := block.withCacheControl none

def ApiMessage.unmarked (m : ApiMessage) : ApiMessage :=
  { m with content := m.content.map ApiContent.unmarked }

def dropField (key : String) (fields : Fields) : Fields := fields.filter (fun f => f.1 ≠ key)

def CreateMessagesRequest.unmarked (req : CreateMessagesRequest) : CreateMessagesRequest :=
  { req with
    messages := req.messages.map ApiMessage.unmarked
    tools := req.tools.map (fun defs => defs.map (dropField cacheKey)) }

@[simp] theorem cacheControl_withCacheControl (cc : Option CacheControl) (block : ApiContent) :
    (block.withCacheControl cc).cacheControl = cc := by
  cases block <;> rfl

@[simp] theorem unmarked_withCacheControl (cc : Option CacheControl) (block : ApiContent) :
    (block.withCacheControl cc).unmarked = block.unmarked := by
  cases block <;> rfl

@[simp] theorem cacheControl_partToApiContent (part : ContentPart) :
    (partToApiContent part).cacheControl = none := by
  cases part <;> rfl

@[simp] theorem unmarked_partToApiContent (part : ContentPart) :
    (partToApiContent part).unmarked = partToApiContent part := by
  cases part <;> rfl

@[simp] theorem unmarked_toApiMessage (m : Message) :
    (toApiMessage m).unmarked = toApiMessage m := by
  simp [ApiMessage.unmarked, toApiMessage, partsToApiContent, Function.comp_def]

theorem changeLast_append {α : Type} (f : α → α) (items : List α) (last : α) :
    changeLast f (items ++ [last]) = items ++ [f last] := by
  simp [changeLast]

/-- Replacing the last item is invisible to a function that does not see the change. -/
theorem map_changeLast {α β : Type} (f : α → α) (g : α → β) (hfg : ∀ x, g (f x) = g x)
    (items : List α) : (changeLast f items).map g = items.map g := by
  rcases List.eq_nil_or_concat items with rfl | ⟨earlier, last, rfl⟩
  · rfl
  · rw [List.concat_eq_append, changeLast_append, List.map_append, List.map_append,
      List.map_singleton, List.map_singleton, hfg]

theorem isEmpty_changeLast {α : Type} (f : α → α) (items : List α) :
    (changeLast f items).isEmpty = items.isEmpty := by
  rcases List.eq_nil_or_concat items with rfl | ⟨earlier, last, rfl⟩
  · rfl
  · rw [List.concat_eq_append, changeLast_append]
    cases earlier <;> rfl

theorem dropField_insertField (key : String) (v : Value) (fields : Fields) :
    dropField key (insertField key v fields) = dropField key fields := by
  induction fields with
  | nil => simp [insertField, dropField]
  | cons field rest ih =>
    obtain ⟨k, w⟩ := field
    rw [insertField]
    split
    · simp [dropField]
    · split
      · next hkey => simp [dropField, hkey]
      · simp only [dropField, List.filter_cons] at ih ⊢
        rw [ih]

theorem mem_insertField (key : String) (v : Value) (fields : Fields) :
    (key, v) ∈ insertField key v fields := by
  induction fields with
  | nil => exact List.mem_singleton.mpr rfl
  | cons field rest ih =>
    obtain ⟨k, w⟩ := field
    rw [insertField]
    split
    · exact List.mem_cons_self
    · split
      · exact List.mem_cons_self
      · exact List.mem_cons_of_mem _ ih

theorem insertField_keys {key : String} {v : Value} {fields : Fields} {field : String × Value}
    (h : field ∈ insertField key v fields) : field.1 = key ∨ field ∈ fields := by
  induction fields with
  | nil =>
    rw [insertField, List.mem_singleton] at h
    exact Or.inl (congrArg Prod.fst h)
  | cons first rest ih =>
    obtain ⟨k, w⟩ := first
    rw [insertField] at h
    split at h
    · rcases List.mem_cons.mp h with rfl | h
      · exact Or.inl rfl
      · exact Or.inr h
    · split at h
      · rcases List.mem_cons.mp h with rfl | h
        · exact Or.inl rfl
        · exact Or.inr (List.mem_cons_of_mem _ h)
      · rcases List.mem_cons.mp h with rfl | h
        · exact Or.inr List.mem_cons_self
        · exact (ih h).imp_right (List.mem_cons_of_mem _)

/-- The definition of a tool has no mark of its own. -/
theorem toolDef_keys {t : ToolSpec} {field : String × Value} (h : field ∈ toolDef t) :
    field.1 ≠ cacheKey := by
  rcases insertField_keys h with hkey | h
  · rw [hkey]
    decide
  · rcases insertField_keys h with hkey | h
    · rw [hkey]
      decide
    · rcases insertField_keys h with hkey | h
      · rw [hkey]
        decide
      · exact absurd h List.not_mem_nil

theorem dropField_toolDef (t : ToolSpec) : dropField cacheKey (toolDef t) = toolDef t :=
  List.filter_eq_self.mpr (fun _ hfield => decide_eq_true (toolDef_keys hfield))

/-- Without its marks the request says what it was asked to say. -/
theorem unmarked_apiRequest (p : Provider) (request : CompletionRequest) :
    (apiRequest p request).unmarked =
      { apiRequest p request with
        messages := request.messages.map toApiMessage
        tools := if request.tools.isEmpty then none else some (request.tools.map toolDef) } := by
  have hmessages : (markLastMessageCacheable (request.messages.map toApiMessage)).map
      ApiMessage.unmarked = request.messages.map toApiMessage := by
    rw [markLastMessageCacheable, map_changeLast]
    · simp [Function.comp_def]
    · intro m
      rw [ApiMessage.unmarked, markLastBlock, map_changeLast _ _ (unmarked_withCacheControl _)]
      rfl
  have htools : (markLastToolCacheable (request.tools.map toolDef)).map (dropField cacheKey) =
      request.tools.map toolDef := by
    rw [markLastToolCacheable, map_changeLast _ _ (dropField_insertField _ _)]
    simp [dropField_toolDef]
  simp only [CreateMessagesRequest.unmarked, apiRequest, hmessages, apply_ite (Option.map _),
    Option.map_none, Option.map_some, htools]
  simp [markLastToolCacheable, isEmpty_changeLast]

end Unmarked

end October.AnthropicRequest
