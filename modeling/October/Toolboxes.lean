import October.AgentActor
import October.Await
import October.RuntimeProtocol

/-!
The toolbox an agent runs with. Eight tools parse their input and invoke the runtime; an
allowlist narrows them, and the `conclude` tool is advertised on top of them. Executing
a tool is a program whose operations are the invocations of the runtime client.
-/
namespace October

inductive ReplaceMode where
  | regex (pattern : String)
  | lines (startLine endLine : ℕ)
  deriving DecidableEq

inductive RuntimeCall where
  | bash (command : String)
  | readFile (path : String) (startLine endLine : Option ℕ)
  | writeFile (path content : String)
  | editFile (path oldText newText : String)
  | replaceInFile (path replacement : String) (mode : ReplaceMode)
  | listFiles (path : String)
  | glob (pattern : String) (path : Option String) (maxResults : Option ℕ)
  | grep (pattern : String) (path filePattern : Option String) (maxResults : Option ℕ)
  deriving DecidableEq

def RuntimeCall.tool : RuntimeCall → String
  | bash _ => "bash"
  | readFile _ _ _ => "read_file"
  | writeFile _ _ => "write_file"
  | editFile _ _ _ => "edit_file"
  | replaceInFile _ _ _ => "replace_in_file"
  | listFiles _ => "list_files"
  | glob _ _ _ => "glob"
  | grep _ _ _ _ => "grep"

inductive RuntimeCallError where
  | transport (e : TransportError)
  | toolFailed (reason : String)
  deriving DecidableEq

def RuntimeCallError.display : RuntimeCallError → String
  | transport e => "transport: " ++ e.display
  | toolFailed reason => "tool failed: " ++ reason

/-- A program that invokes the runtime's transport. -/
abbrev ToolProgram := Await.Prog RuntimeCall (fun _ => Except TransportError ToolResult)

def RuntimeClient.invoke (call : RuntimeCall) :
    ToolProgram (Except RuntimeCallError ToolOutput) := do
  match ← Await.Prog.perform call with
  | .ok (.ok output) => return .ok output
  | .ok (.err reason) => return .error (.toolFailed reason)
  | .error e => return .error (.transport e)

structure Tool where
  spec : ToolSpec
  execute : Value → ToolProgram (Except ToolCallError Value)

structure Toolbox where
  specs : List ToolSpec
  execute : String → Value → ToolProgram (Except ToolCallError Value)

def toolboxImpl (tools : List Tool) : Toolbox where
  specs := tools.map Tool.spec
  execute name input :=
    match tools.find? (fun t => t.spec.name == name) with
    | some tool => tool.execute input
    | none => return .error (.invalidInput ("no tool named '" ++ name ++ "'"))

def filteredToolbox (inner : Toolbox) (allowed : List String) : Toolbox where
  specs := inner.specs.filter (fun s => allowed.contains s.name)
  execute name input :=
    if allowed.contains name then inner.execute name input
    else return .error (.invalidInput ("tool '" ++ name ++ "' is not permitted for this agent"))

/-- A base and the optional `conclude` tool, which is advertised but never executed. -/
def agentToolbox (base : Toolbox) (conclude : Option ToolSpec) : Toolbox where
  specs := base.specs ++ conclude.toList
  execute name input :=
    if conclude.any (fun c => name == c.name) then
      return .error (.executionFailed "the conclude tool is terminal and is not executed")
    else base.execute name input

namespace Value

def field (input : Value) (key : String) : Value := (input.get key).getD .null

def asU64 : Value → Option ℕ
  | .number text =>
    let value := text.toList.foldl (fun n c => 10 * n + (c.toNat - 48)) 0
    if text ≠ "" ∧ text.toList.all Char.isDigit ∧ value < UInt64.size then some value else none
  | _ => none

def needStr (input : Value) (key : String) : Except ToolCallError String :=
  match (input.field key).asStr with
  | some s => .ok s
  | none => .error (.invalidInput ("missing '" ++ key ++ "'"))

end Value

theorem bind_ok {α β : Type} {x : Except ToolCallError α} {f : α → Except ToolCallError β}
    {b : β} (h : (x >>= f) = .ok b) : ∃ a, x = .ok a ∧ f a = .ok b := by
  cases x with
  | error e => cases h
  | ok a => exact ⟨a, rfl, h⟩

/-- A tool that parses its input into a call of its own and invokes the runtime with it. -/
structure RuntimeTool where
  spec : ToolSpec
  parse : Value → Except ToolCallError RuntimeCall
  own : ∀ input call, parse input = .ok call → call.tool = spec.name

def RuntimeTool.result : Except RuntimeCallError ToolOutput → Except ToolCallError Value
  | .ok output => .ok (.string output.stdout)
  | .error e => .error (.executionFailed e.display)

def RuntimeTool.toTool (t : RuntimeTool) : Tool where
  spec := t.spec
  execute input :=
    match t.parse input with
    | .error e => return .error e
    | .ok call => do return RuntimeTool.result (← RuntimeClient.invoke call)

def objectSchema (properties : List (String × Value)) (required : List String) : Value :=
  .object [("type", .string "object"), ("properties", .object properties),
    ("required", .array (required.map .string))]

def typeSchema (type : String) : Value := .object [("type", .string type)]

namespace BashTool

def spec : ToolSpec where
  name := "bash"
  description := "Execute a bash command in the runtime's working directory."
  inputSchema := objectSchema [("command", typeSchema "string")] ["command"]

def parse (input : Value) : Except ToolCallError RuntimeCall := do
  let command ← input.needStr "command"
  return .bash command

end BashTool

def bashTool : RuntimeTool where
  spec := BashTool.spec
  parse := BashTool.parse
  own input call h := by
    obtain ⟨_, -, h⟩ := bind_ok h
    cases h
    rfl

namespace ReadFileTool

def spec : ToolSpec where
  name := "read_file"
  description := "Read file contents, optionally limited to a 1-based line range."
  inputSchema := objectSchema [("path", typeSchema "string"),
    ("start_line", typeSchema "integer"), ("end_line", typeSchema "integer")] ["path"]

def parse (input : Value) : Except ToolCallError RuntimeCall := do
  let path ← input.needStr "path"
  return .readFile path (input.field "start_line").asU64 (input.field "end_line").asU64

end ReadFileTool

def readFileTool : RuntimeTool where
  spec := ReadFileTool.spec
  parse := ReadFileTool.parse
  own input call h := by
    obtain ⟨_, -, h⟩ := bind_ok h
    cases h
    rfl

namespace WriteFileTool

def spec : ToolSpec where
  name := "write_file"
  description := "Create or overwrite a file with the given content. " ++
    "Parent dirs are created as needed."
  inputSchema := objectSchema [("path", typeSchema "string"),
    ("content", typeSchema "string")] ["path", "content"]

def parse (input : Value) : Except ToolCallError RuntimeCall := do
  let path ← input.needStr "path"
  let content ← input.needStr "content"
  return .writeFile path content

end WriteFileTool

def writeFileTool : RuntimeTool where
  spec := WriteFileTool.spec
  parse := WriteFileTool.parse
  own input call h := by
    obtain ⟨_, -, h⟩ := bind_ok h
    obtain ⟨_, -, h⟩ := bind_ok h
    cases h
    rfl

namespace EditFileTool

def spec : ToolSpec where
  name := "edit_file"
  description := "Replace the first occurrence of old_text with new_text in a file."
  inputSchema := objectSchema [("path", typeSchema "string"), ("old_text", typeSchema "string"),
    ("new_text", typeSchema "string")] ["path", "old_text", "new_text"]

def parse (input : Value) : Except ToolCallError RuntimeCall := do
  let path ← input.needStr "path"
  let oldText ← input.needStr "old_text"
  let newText ← input.needStr "new_text"
  return .editFile path oldText newText

end EditFileTool

def editFileTool : RuntimeTool where
  spec := EditFileTool.spec
  parse := EditFileTool.parse
  own input call h := by
    obtain ⟨_, -, h⟩ := bind_ok h
    obtain ⟨_, -, h⟩ := bind_ok h
    obtain ⟨_, -, h⟩ := bind_ok h
    cases h
    rfl

namespace ReplaceInFileTool

def spec : ToolSpec where
  name := "replace_in_file"
  description := "Replace in a file by regex pattern or line range."
  inputSchema := objectSchema [("path", typeSchema "string"),
    ("replacement", typeSchema "string"), ("regex", typeSchema "string"),
    ("start_line", typeSchema "integer"), ("end_line", typeSchema "integer")]
    ["path", "replacement"]

/-- A pattern takes precedence over a range of lines. -/
def parseMode (input : Value) : Except ToolCallError ReplaceMode :=
  match (input.field "regex").asStr with
  | some pattern => .ok (.regex pattern)
  | none =>
    match (input.field "start_line").asU64 with
    | none => .error (.invalidInput "provide 'regex' or 'start_line'+'end_line'")
    | some startLine =>
      match (input.field "end_line").asU64 with
      | none => .error (.invalidInput "missing 'end_line'")
      | some endLine => .ok (.lines startLine endLine)

def parse (input : Value) : Except ToolCallError RuntimeCall := do
  let path ← input.needStr "path"
  let replacement ← input.needStr "replacement"
  let mode ← parseMode input
  return .replaceInFile path replacement mode

end ReplaceInFileTool

def replaceInFileTool : RuntimeTool where
  spec := ReplaceInFileTool.spec
  parse := ReplaceInFileTool.parse
  own input call h := by
    obtain ⟨_, -, h⟩ := bind_ok h
    obtain ⟨_, -, h⟩ := bind_ok h
    obtain ⟨_, -, h⟩ := bind_ok h
    cases h
    rfl

namespace ListFilesTool

def spec : ToolSpec where
  name := "list_files"
  description := "List directory contents."
  inputSchema := objectSchema [("path", typeSchema "string")] ["path"]

def parse (input : Value) : Except ToolCallError RuntimeCall := do
  let path ← input.needStr "path"
  return .listFiles path

end ListFilesTool

def listFilesTool : RuntimeTool where
  spec := ListFilesTool.spec
  parse := ListFilesTool.parse
  own input call h := by
    obtain ⟨_, -, h⟩ := bind_ok h
    cases h
    rfl

namespace GlobTool

def spec : ToolSpec where
  name := "glob"
  description := "Find files by glob pattern."
  inputSchema := objectSchema [("pattern", typeSchema "string"), ("path", typeSchema "string"),
    ("max_results", typeSchema "integer")] ["pattern"]

def parse (input : Value) : Except ToolCallError RuntimeCall := do
  let pattern ← input.needStr "pattern"
  return .glob pattern (input.field "path").asStr (input.field "max_results").asU64

end GlobTool

def globTool : RuntimeTool where
  spec := GlobTool.spec
  parse := GlobTool.parse
  own input call h := by
    obtain ⟨_, -, h⟩ := bind_ok h
    cases h
    rfl

namespace GrepTool

def spec : ToolSpec where
  name := "grep"
  description := "Search file contents with a regex pattern."
  inputSchema := objectSchema [("pattern", typeSchema "string"), ("path", typeSchema "string"),
    ("file_pattern", typeSchema "string"), ("max_results", typeSchema "integer")] ["pattern"]

def parse (input : Value) : Except ToolCallError RuntimeCall := do
  let pattern ← input.needStr "pattern"
  return .grep pattern (input.field "path").asStr (input.field "file_pattern").asStr
    (input.field "max_results").asU64

end GrepTool

def grepTool : RuntimeTool where
  spec := GrepTool.spec
  parse := GrepTool.parse
  own input call h := by
    obtain ⟨_, -, h⟩ := bind_ok h
    cases h
    rfl

def runtimeTools : List RuntimeTool :=
  [bashTool, readFileTool, writeFileTool, editFileTool, replaceInFileTool, listFilesTool,
    globTool, grepTool]

def addRuntimeTools (tools : List Tool) : List Tool := tools ++ runtimeTools.map RuntimeTool.toTool

def askSchema : Value :=
  .object [
    ("type", .string "object"),
    ("required", .array [.string "question"]),
    ("properties", .object [
      ("question", .object [("type", .string "string"),
        ("description", .string "The question to put to the user.")]),
      ("choices", .object [("type", .string "array"), ("items", typeSchema "string"),
        ("description", .string "Optional suggested answers.")])])]

def bothSchema (outputSchema : Value) : Value :=
  .object [
    ("type", .string "object"),
    ("required", .array [.string "kind"]),
    ("properties", .object [
      ("kind", .object [("type", .string "string"),
        ("enum", .array [.string "submit", .string "ask"]),
        ("description",
          .string "submit to deliver final output; ask to pause for user input")]),
      ("output", outputSchema),
      ("question", .object [("type", .string "string"),
        ("description", .string "Required when kind=ask.")]),
      ("choices", .object [("type", .string "array"), ("items", typeSchema "string"),
        ("description", .string "Optional when kind=ask.")])])]

def concludeSchema : Option Value → Bool → Option Value
  | none, false => none
  | some out, false => some out
  | none, true => some askSchema
  | some out, true => some (bothSchema out)

def concludeToolSpec (outputSchema : Option Value) (allowAsk : Bool) : Option ToolSpec :=
  (concludeSchema outputSchema allowAsk).map (fun inputSchema => {
    name := concludeTool
    description := "Finish your turn: deliver your final structured output, " ++
      "or ask the user a question."
    inputSchema := inputSchema })

def forAgent (agentDef : WorkflowAgentDef) : Toolbox :=
  let runtime := toolboxImpl (addRuntimeTools [])
  let base := match agentDef.allowedTools with
    | none => runtime
    | some list => filteredToolbox runtime list
  agentToolbox base (concludeToolSpec agentDef.outputSchema agentDef.allowAskUser)

end October
