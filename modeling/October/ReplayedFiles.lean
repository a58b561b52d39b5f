import October.PermittedCalls
import October.WorkingFiles

/-!
What an agent's tool calls make of the files of its runtime. A run of the agent is served
by the dispatcher over a link that may lose calls and answers. Without `bash` each file
is the replay of the calls addressed to it, and an agent that may only read leaves
everything as it was.
-/
namespace October.ReplayedFiles

open Await (Prog)
open FirstOccurrence

section Effects

variable (library : RegexLibrary)

/-- What a call makes of the text of the file it is addressed to, unless it refuses to. -/
def effect : RuntimeCall → String → Option String
  | .writeFile _ content, _ => some content
  | .editFile _ oldText newText, text => EditFile.newContent text oldText newText
  | .replaceInFile path replacement mode, text =>
    match ReplaceInFile.newContent library text ⟨path, replacement, mode⟩ with
    | .ok (.ok new) => some new
    | _ => none
  | _, _ => none

variable (fs : FileSystem) (workingDir : String)

def opened (s : fs.State) : RuntimeCall → Option fs.File
  | .writeFile path _ =>
    fs.find (WriteFile.withParents fs s (joinPath workingDir path)).1 (joinPath workingDir path)
  | .editFile path _ _ => fs.find s (joinPath workingDir path)
  | .replaceInFile path _ _ => fs.find s (joinPath workingDir path)
  | _ => none

structure Entry where
  before : fs.State
  call : RuntimeCall
  result : ToolResult

variable {fs}

def Entry.isOk (e : Entry fs) : Bool :=
  match e.result with
  | .ok _ => true
  | .err _ => false

def replay (file : fs.File) (log : List (Entry fs)) (text : String) : String :=
  log.foldl (fun text e =>
    if opened fs workingDir e.before e.call = some file then
      (effect library e.call text).getD text
    else text) text

end Effects

section Step

variable {fs : FileSystem} (hfs : fs.Lawful) (workingDir : String)
  (joinError : String → String) (library : RegexLibrary)

/-- What one call does to one file: its paths stay, and its text changes only if the call
is addressed to it; a call that refuses leaves it, and one that succeeds has its effect. -/
structure Affects (s s' : fs.State) (call : RuntimeCall) (result : ToolResult)
    (file : fs.File) : Prop where
  found : ∀ path, fs.find s path = some file → fs.find s' path = some file
  other : opened fs workingDir s call ≠ some file → fs.content s' file = fs.content s file
  refused : opened fs workingDir s call = some file →
    effect library call (fs.content s file) = none → fs.content s' file = fs.content s file
  done : opened fs workingDir s call = some file → (∃ output, result = .ok output) →
    effect library call (fs.content s file) = some (fs.content s' file)

variable {workingDir library}

theorem affects_same {s : fs.State} {call : RuntimeCall} {result : ToolResult} {file : fs.File}
    (hdone : opened fs workingDir s call = some file → (∃ output, result = .ok output) →
      effect library call (fs.content s file) = some (fs.content s file)) :
    Affects workingDir library s s call result file :=
  ⟨fun _ h => h, fun _ => rfl, fun _ _ => rfl, hdone⟩

include hfs

/-- A text that is written where the call's path leads. -/
theorem affects_write {s t s' : fs.State} {call : RuntimeCall} {result : ToolResult}
    {path text : String} {answer : Except String Unit} {file : fs.File}
    (hfile : ∃ other, fs.find s other = some file) (hparents : fs.Keeps s t none)
    (hopened : opened fs workingDir s call = fs.find t path)
    (heffect : fs.find t path = some file →
      effect library call (fs.content s file) = some text)
    (hwrite : fs.write t path text = (s', answer))
    (hresult : (∃ output, result = .ok output) → answer = .ok ()) :
    Affects workingDir library s s' call result file := by
  obtain ⟨other, hother⟩ := hfile
  have hkeeps : ∃ but, fs.Keeps t s' but ∧ (fs.find t path ≠ some file → but ≠ some file) ∧
      (answer = .ok () → fs.find t path = some file → fs.content s' file = text) := by
    cases answer with
    | error e => exact ⟨_, hfs.failed t path text s' e hwrite, id, fun h => (by cases h)⟩
    | ok u =>
      obtain ⟨target, htarget⟩ := hfs.written t path text s' hwrite
      refine ⟨some target, htarget.keeps, fun hne heq => ?_, fun _ hleads => ?_⟩
      · cases heq
        exact htarget.own.elim hne fun hnew => hnew other (hparents.found other file hother)
      · cases (htarget.keeps.found path file hleads).symm.trans htarget.leads
        exact htarget.content
  obtain ⟨but, hkeep, hbut, htext⟩ := hkeeps
  have hcontent := hparents.kept other file hother (Option.some_ne_none file).symm
  constructor
  · exact fun q hq => hkeep.found q file (hparents.found q file hq)
  · intro hne
    rw [hopened] at hne
    exact (hkeep.kept other file (hparents.found other file hother) (hbut hne)).trans hcontent
  · intro hleads hnone
    rw [hopened] at hleads
    rw [heffect hleads] at hnone
    cases hnone
  · intro hleads hok
    rw [hopened] at hleads
    rw [heffect hleads, htext (hresult hok) hleads]

theorem writeFile_affects (input : WriteFileInput) {s : fs.State} {file : fs.File}
    (hfile : ∃ other, fs.find s other = some file) :
    Affects workingDir library s (WriteFile.exec fs workingDir s input).1
      (.writeFile input.path input.content) (WriteFile.exec fs workingDir s input).2 file := by
  have hparents : fs.Keeps s
      (WriteFile.withParents fs s (joinPath workingDir input.path)).1 none := by
    unfold WriteFile.withParents
    split
    · exact hfs.createDirAll s _
    · exact FileSystem.Keeps.refl s none
  have hopened : opened fs workingDir s (.writeFile input.path input.content) =
      fs.find (WriteFile.withParents fs s (joinPath workingDir input.path)).1
        (joinPath workingDir input.path) := rfl
  obtain ⟨other, hother⟩ := hfile
  unfold WriteFile.exec
  dsimp only
  generalize WriteFile.withParents fs s (joinPath workingDir input.path) = created at *
  obtain ⟨t, e | u⟩ := created
  · -- without the directories nothing is written
    have hcontent := hparents.kept other file hother (Option.some_ne_none file).symm
    exact ⟨fun q hq => hparents.found q file hq, fun _ => hcontent, fun _ _ => hcontent,
      fun _ ⟨_, h⟩ => by cases h⟩
  · dsimp only
    cases hwrite : fs.write t (joinPath workingDir input.path) input.content with
    | mk s' answer =>
      have haffects (result : ToolResult)
          (hresult : (∃ output, result = .ok output) → answer = .ok ()) :
          Affects workingDir library s s' (.writeFile input.path input.content) result file :=
        affects_write hfs ⟨other, hother⟩ hparents hopened (fun _ => rfl) hwrite hresult
      cases answer with
      | error e => exact haffects _ fun ⟨_, h⟩ => by cases h
      | ok u => exact haffects _ fun _ => rfl

/-- A text that is read, changed and written back. -/
theorem affects_rewrite {s s' : fs.State} {call : RuntimeCall} {result : ToolResult}
    {path text new : String} {answer : Except String Unit} {file : fs.File}
    (hfile : ∃ other, fs.find s other = some file)
    (hopened : opened fs workingDir s call = fs.find s path)
    (hread : fs.readToString s path = .ok text) (heffect : effect library call text = some new)
    (hwrite : fs.write s path new = (s', answer))
    (hresult : (∃ output, result = .ok output) → answer = .ok ()) :
    Affects workingDir library s s' call result file := by
  refine affects_write hfs hfile (FileSystem.Keeps.refl s none) hopened (fun hleads => ?_)
    hwrite hresult
  obtain ⟨target, htarget, hcontent⟩ := hfs.read s path text hread
  cases htarget.symm.trans hleads
  rw [hcontent, heffect]

theorem editFile_affects (input : EditFileInput) {s : fs.State} {file : fs.File}
    (hfile : ∃ other, fs.find s other = some file) :
    Affects workingDir library s (EditFile.exec fs workingDir s input).1
      (.editFile input.path input.oldText input.newText)
      (EditFile.exec fs workingDir s input).2 file := by
  unfold EditFile.exec
  dsimp only
  cases hread : fs.readToString s (joinPath workingDir input.path) with
  | error e => exact affects_same fun _ ⟨_, h⟩ => by cases h
  | ok text =>
    dsimp only
    cases hnew : EditFile.newContent text input.oldText input.newText with
    | none => exact affects_same fun _ ⟨_, h⟩ => by cases h
    | some new =>
      dsimp only
      cases hwrite : fs.write s (joinPath workingDir input.path) new with
      | mk s' answer =>
        have haffects (result : ToolResult)
            (hresult : (∃ output, result = .ok output) → answer = .ok ()) :
            Affects workingDir library s s'
              (.editFile input.path input.oldText input.newText) result file :=
          affects_rewrite hfs hfile rfl hread hnew hwrite hresult
        cases answer with
        | error e => exact haffects _ fun ⟨_, h⟩ => by cases h
        | ok u => exact haffects _ fun _ => rfl

theorem replaceInFile_affects (input : ReplaceInFileInput) {s : fs.State} {file : fs.File}
    (hfile : ∃ other, fs.find s other = some file) :
    Affects workingDir library s
      (ReplaceInFile.execIn fs workingDir joinError library s input).1
      (.replaceInFile input.path input.replacement input.mode)
      (ReplaceInFile.execIn fs workingDir joinError library s input).2 file := by
  unfold ReplaceInFile.execIn
  dsimp only
  cases hread : fs.readToString s (joinPath workingDir input.path) with
  | error e => exact affects_same fun _ ⟨_, h⟩ => by cases h
  | ok text =>
    dsimp only
    cases hnew : ReplaceInFile.newContent library text input with
    | error panic => exact affects_same fun _ ⟨_, h⟩ => by cases h
    | ok answer =>
      cases answer with
      | error e => exact affects_same fun _ ⟨_, h⟩ => by cases h
      | ok new =>
        dsimp only
        have heffect : effect library
            (.replaceInFile input.path input.replacement input.mode) text = some new := by
          simp only [effect, hnew]
        cases hwrite : fs.write s (joinPath workingDir input.path) new with
        | mk s' answer =>
          have haffects (result : ToolResult)
              (hresult : (∃ output, result = .ok output) → answer = .ok ()) :
              Affects workingDir library s s'
                (.replaceInFile input.path input.replacement input.mode) result file :=
            affects_rewrite hfs hfile rfl hread heffect hwrite hresult
          cases answer with
          | error e => exact haffects _ fun ⟨_, h⟩ => by cases h
          | ok u => exact haffects _ fun _ => rfl

/-- What any call but a command does to a file that was there. -/
theorem dispatch_affects {call : RuntimeCall} (hbash : call.tool ≠ "bash") {s : fs.State}
    {file : fs.File} (hfile : ∃ other, fs.find s other = some file) :
    Affects workingDir library s (dispatch fs workingDir joinError library s call).1 call
      (dispatch fs workingDir joinError library s call).2 file := by
  cases call with
  | bash command => exact absurd rfl hbash
  | writeFile path content => exact writeFile_affects hfs ⟨path, content⟩ hfile
  | editFile path oldText newText => exact editFile_affects hfs ⟨path, oldText, newText⟩ hfile
  | replaceInFile path replacement mode =>
    exact replaceInFile_affects hfs joinError ⟨path, replacement, mode⟩ hfile
  | readFile => exact affects_same fun h => by cases h
  | listFiles => exact affects_same fun h => by cases h
  | glob => exact affects_same fun h => by cases h
  | grep => exact affects_same fun h => by cases h

end Step

section Served

variable (fs : FileSystem) (workingDir : String) (joinError : String → String)
  (library : RegexLibrary)

structure Served where
  state : fs.State
  log : List (Entry fs)

variable {fs}

def Served.ran (m : Served fs) (call : RuntimeCall) : Served fs :=
  let next := dispatch fs workingDir joinError library m.state call
  ⟨next.1, m.log ++ [⟨m.state, call, next.2⟩]⟩

/-- A call is answered by the runtime, or an error of the link stands for the answer to a
call that was or was not carried out. -/
def serves : Await.Semantics RuntimeCall (fun _ => Except TransportError ToolResult) (Served fs) :=
  fun call m answer m' =>
    (m' = m.ran workingDir joinError library call ∧
      (answer = .ok (dispatch fs workingDir joinError library m.state call).2 ∨
        ∃ e, answer = .error e)) ∨
    (m' = m ∧ ∃ e, answer = .error e)

variable {workingDir joinError library}

/-- What the runtime keeps with each call it carries out, a run of permitted calls keeps. -/
theorem served_kept {α : Type} {ok : RuntimeCall → Prop} {pre : Served fs → Prop}
    (hran : ∀ call m, ok call → pre m → pre (m.ran workingDir joinError library call))
    {p : ToolProgram α} (hp : p.Only ok) {m m' : Served fs} {result : α} (hpre : pre m)
    (hruns : p.Runs (serves workingDir joinError library) m result m') : pre m' := by
  have hsafe : Await.Safe (serves workingDir joinError library) Await.Contract.alone
      (fun _ => pre) p m := by
    refine hp.alone ?_ hpre
    rintro call m answer m' hok hm (⟨rfl, _⟩ | ⟨rfl, _⟩)
    · exact hran call m hok hm
    · exact hm
  exact hsafe.runs hruns

end Served

section Replay

variable {fs : FileSystem} (workingDir : String) (library : RegexLibrary)

/-- No call addressed to the file failed but those that the file's text refuses. -/
def Whole (file : fs.File) (log : List (Entry fs)) : Prop :=
  ∀ e ∈ log, opened fs workingDir e.before e.call = some file →
    (effect library e.call (fs.content e.before file)).isSome → ∃ output, e.result = .ok output

variable {workingDir library} {joinError : String → String}

theorem Whole.earlier {file : fs.File} {earlier later : List (Entry fs)}
    (h : Whole workingDir library file (earlier ++ later)) :
    Whole workingDir library file earlier :=
  fun e he => h e (List.mem_append_left later he)

end Replay

section Agents

theorem onlyReads_of_tool {call : RuntimeCall}
    (h : call.tool ∉ ["bash", "write_file", "edit_file", "replace_in_file"]) :
    onlyReads call = true := by
  cases call with
  | bash => exact absurd (by simp [RuntimeCall.tool]) h
  | readFile => rfl
  | writeFile => exact absurd (by simp [RuntimeCall.tool]) h
  | editFile => exact absurd (by simp [RuntimeCall.tool]) h
  | replaceInFile => exact absurd (by simp [RuntimeCall.tool]) h
  | listFiles => rfl
  | glob => rfl
  | grep => rfl

variable {fs : FileSystem} {workingDir : String} {joinError : String → String}
  {library : RegexLibrary}

theorem runWith_allowed {agentDef : WorkflowAgentDef} {list : List String}
    (hallowed : agentDef.allowedTools = some list) (agent : Agent) (input : AgentInput)
    (runId : String) (turns : ℕ → Turn) :
    (agent.runWith (forAgent agentDef) input runId turns).Only (fun call => call.tool ∈ list) := by
  have hbox : forAgent agentDef = agentToolbox (filteredToolbox runtimeToolbox list)
      (concludeToolSpec agentDef.outputSchema agentDef.allowAskUser) := by
    simp only [forAgent, hallowed, runtimeToolbox]
  rw [hbox]
  exact Agent.runWith_only (agentToolbox_only (filteredToolbox_allowed runtimeToolbox_own))
    input runId turns

/-- An agent that is allowed no tool that writes leaves everything as it was. -/
theorem only_read (fs : FileSystem) {agentDef : WorkflowAgentDef} {list : List String}
    (hallowed : agentDef.allowedTools = some list)
    (hreads : ∀ tool ∈ list,
      tool ∉ ["bash", "write_file", "edit_file", "replace_in_file"]) (agent : Agent)
    (input : AgentInput) (runId : String) (turns : ℕ → Turn) {start : fs.State} {m : Served fs}
    {result : RunState × Except AgentError AgentOutput}
    (hruns : (agent.runWith (forAgent agentDef) input runId turns).Runs
      (serves workingDir joinError library) ⟨start, []⟩ result m) :
    m.state = start := by
  have hran (call : RuntimeCall) (m : Served fs) (hcall : call.tool ∈ list)
      (hm : m.state = start) : (m.ran workingDir joinError library call).state = start :=
    (dispatch_onlyReads fs workingDir joinError library (onlyReads_of_tool (hreads _ hcall))
      m.state).trans hm
  exact served_kept hran (runWith_allowed hallowed agent input runId turns) rfl hruns

end Agents

section Undone

variable {fs : FileSystem} {workingDir : String} {joinError : String → String}
  {library : RegexLibrary}

/-- An edit that succeeds found a file with the old text, and put the new one there. -/
theorem editFile_ok (hfs : fs.Lawful) {s s' : fs.State} {path oldText newText : String}
    {output : ToolOutput}
    (h : dispatch fs workingDir joinError library s (.editFile path oldText newText) =
      (s', .ok output)) :
    ∃ file, fs.find s (joinPath workingDir path) = some file ∧
      fs.find s' (joinPath workingDir path) = some file ∧
      EditFile.newContent (fs.content s file) oldText newText = some (fs.content s' file) := by
  have hread : ∃ text, fs.readToString s (joinPath workingDir path) = .ok text := by
    change EditFile.exec fs workingDir s ⟨path, oldText, newText⟩ = _ at h
    unfold EditFile.exec at h
    dsimp only at h
    cases hread : fs.readToString s (joinPath workingDir path) with
    | error e =>
      rw [hread] at h
      cases h
    | ok text => exact ⟨text, rfl⟩
  obtain ⟨text, hread⟩ := hread
  obtain ⟨file, hfile, -⟩ := hfs.read s _ text hread
  have haffects : Affects workingDir library s s' (.editFile path oldText newText) (.ok output)
      file := by
    have hbash : (RuntimeCall.editFile path oldText newText).tool ≠ "bash" :=
      show "edit_file" ≠ "bash" by decide
    have hdispatch : Affects workingDir library s
        (dispatch fs workingDir joinError library s (.editFile path oldText newText)).1
        (.editFile path oldText newText)
        (dispatch fs workingDir joinError library s (.editFile path oldText newText)).2 file :=
      dispatch_affects hfs joinError hbash ⟨_, hfile⟩
    rwa [h] at hdispatch
  exact ⟨file, hfile, haffects.found _ hfile, haffects.done hfile ⟨output, rfl⟩⟩

theorem newContent_firstAt {text oldText newText new : String}
    (h : EditFile.newContent text oldText newText = some new) :
    ∃ before after, FirstAt oldText.toList text.toList before after ∧
      new.toList = before ++ newText.toList ++ after := by
  unfold EditFile.newContent at h
  split at h
  · next hinfix =>
    obtain ⟨before, after, hfirst, hreplaced⟩ := exists_firstAt newText.toList hinfix
    refine ⟨before, after, hfirst, ?_⟩
    rw [← Option.some.inj h, String.toList_ofList, hreplaced]
  · cases h

/-- An edit replaces the first place of the old text only, and a reverse edit restores the
file if and only if the new text stands nowhere earlier in it. -/
theorem edit_undone_iff (hfs : fs.Lawful) {s s' : fs.State} {path oldText newText : String}
    {output : ToolOutput}
    (hedit : dispatch fs workingDir joinError library s (.editFile path oldText newText) =
      (s', .ok output)) :
    ∃ file before after, fs.find s (joinPath workingDir path) = some file ∧
      FirstAt oldText.toList (fs.content s file).toList before after ∧
      (fs.content s' file).toList = before ++ newText.toList ++ after ∧
      ∀ s'' output',
        dispatch fs workingDir joinError library s' (.editFile path newText oldText) =
          (s'', .ok output') →
        (fs.content s'' file = fs.content s file ↔
          ∀ n < before.length, ¬ newText.toList <+: (fs.content s' file).toList.drop n) := by
  obtain ⟨file, hfile, hstays, hnew⟩ := editFile_ok hfs hedit
  obtain ⟨before, after, hfirst, htext⟩ := newContent_firstAt hnew
  refine ⟨file, before, after, hfile, hfirst, htext, fun s'' output' hreverse => ?_⟩
  obtain ⟨target, htarget, -, hback⟩ := editFile_ok hfs hreverse
  cases htarget.symm.trans hstays
  have hreplaced : (fs.content s'' file).toList =
      replaceFirst newText.toList oldText.toList (fs.content s' file).toList := by
    unfold EditFile.newContent at hback
    split at hback
    · rw [← Option.some.inj hback, String.toList_ofList]
    · cases hback
  rw [← String.toList_inj, hreplaced, htext]
  exact replaceFirst_restores_iff hfirst

end Undone

section Memory

def memoryFiles : FileSystem where
  State := String → Option String
  File := String
  decEq := inferInstance
  find s path := (s path).map (fun _ => path)
  content s file := (s file).getD ""
  readToString s path :=
    match s path with
    | some text => .ok text
    | none => .error "No such file or directory (os error 2)"
  createDirAll s _ := (s, .ok ())
  write s path text := (fun other => if other = path then some text else s other, .ok ())
  readDir _ _ := .error "Permission denied (os error 13)"
  glob _ _ := .ok []
  bash s _ _ := (s, .err "No such file or directory (os error 2)")

theorem memoryFiles_find {s : String → Option String} {path file : String} :
    memoryFiles.find s path = some file ↔ file = path ∧ ∃ text, s path = some text := by
  have hmap : memoryFiles.find s path = some file ↔ ∃ text, s path = some text ∧ path = file :=
    Option.map_eq_some_iff
  exact hmap.trans ⟨fun ⟨text, htext, heq⟩ => ⟨heq.symm, text, htext⟩,
    fun ⟨heq, text, htext⟩ => ⟨text, htext, heq.symm⟩⟩

theorem memoryFiles_written (s : String → Option String) (path text : String) :
    memoryFiles.Written s (memoryFiles.write s path text).1 path text path := by
  let s' : String → Option String := (memoryFiles.write s path text).1
  have hsame : s' path = some text := if_pos rfl
  have hother {q : String} (hq : q ≠ path) : s' q = s q := if_neg hq
  refine ⟨memoryFiles_find.mpr ⟨rfl, text, hsame⟩, congrArg (Option.getD · "") hsame, ?_, ?_, ?_⟩
  · cases hold : s path with
    | none =>
      refine Or.inr fun other hfind => ?_
      obtain ⟨rfl, old, h⟩ := memoryFiles_find.mp hfind
      cases hold.symm.trans h
    | some old => exact Or.inl (memoryFiles_find.mpr ⟨rfl, old, hold⟩)
  · intro q file hfind
    obtain ⟨rfl, old, h⟩ := memoryFiles_find.mp hfind
    rcases eq_or_ne file path with hq | hq
    · exact memoryFiles_find.mpr ⟨rfl, text, (congrArg s' hq).trans hsame⟩
    · exact memoryFiles_find.mpr ⟨rfl, old, (hother hq).trans h⟩
  · intro q file _ hne
    exact congrArg (Option.getD · "") (hother fun heq => hne (congrArg some heq.symm))

theorem memoryFiles_lawful : memoryFiles.Lawful := by
  constructor
  · intro s path text h
    change (match s path with
      | some text => Except.ok text
      | none => .error "No such file or directory (os error 2)") = .ok text at h
    cases htext : s path with
    | none =>
      rw [htext] at h
      cases h
    | some found =>
      rw [htext] at h
      cases h
      exact ⟨path, memoryFiles_find.mpr ⟨rfl, text, htext⟩, congrArg (Option.getD · "") htext⟩
  · exact fun s _ => FileSystem.Keeps.refl s none
  · intro s path text s' h
    cases h
    exact ⟨path, memoryFiles_written s path text⟩
  · intro s path text s' e h
    cases h

def editor : Agent := ⟨"", [], none, none, AgentConfig.default, []⟩

def editTurns : ℕ → Turn
  | 0 => ⟨false, "m", [], .ok ⟨[.toolCall "c" "edit_file" (.object [("path", .string "f.txt"),
      ("old_text", .string "world"), ("new_text", .string "rust")])], .toolUse, ⟨1, 1⟩⟩,
      false, fun _ => .ok .null⟩
  | _ => ⟨false, "m", [], .ok ⟨[.text "done"], .endTurn, ⟨1, 1⟩⟩, false, fun _ => .ok .null⟩

def greeting : String → Option String := fun path =>
  if path = "/w/f.txt" then some "hello world" else none

def noRegex : RegexLibrary where
  Regex := Unit
  new _ := .error "not supported"
  isMatch _ _ := false
  replaceAll _ content _ := content

def untouched : Served memoryFiles := ⟨greeting, []⟩

def edited : Served memoryFiles :=
  untouched.ran "/w" id noRegex (.editFile "f.txt" "world" "rust")

/-- The edit can be taken back. -/
theorem edit_undone_greeting :
    ∃ file before after, memoryFiles.find greeting "/w/f.txt" = some file ∧
      FirstAt "world".toList (memoryFiles.content greeting file).toList before after ∧
      (memoryFiles.content edited.state file).toList = before ++ "rust".toList ++ after ∧
      (memoryFiles.content (edited.ran "/w" id noRegex (.editFile "f.txt" "rust" "world")).state
          file = memoryFiles.content greeting file ↔
        ∀ n < before.length,
          ¬ "rust".toList <+: (memoryFiles.content edited.state file).toList.drop n) := by
  obtain ⟨file, before, after, hfile, hfirst, htext, hback⟩ :=
    edit_undone_iff memoryFiles_lawful
      (show dispatch memoryFiles "/w" id noRegex greeting (.editFile "f.txt" "world" "rust") = _
        from rfl)
  exact ⟨file, before, after, hfile, hfirst, htext, hback _ _ rfl⟩

def readerDef : WorkflowAgentDef :=
  ⟨"reader", none, "m", none, false, none, none, none, some ["read_file", "grep"]⟩

theorem reader_runs :
    ∃ result, (editor.runWith (forAgent readerDef) (.userMessage "u" "hi") "run" editTurns).Runs
      (serves "/w" id noRegex) untouched result untouched :=
  ⟨_, .done _ _⟩

/-- The same model cannot edit as a reader. -/
theorem only_read_edit :
    ∃ result m, (editor.runWith (forAgent readerDef) (.userMessage "u" "hi") "run" editTurns).Runs
      (serves "/w" id noRegex) untouched result m ∧ m.state = greeting := by
  obtain ⟨result, hruns⟩ := reader_runs
  exact ⟨result, _, hruns, only_read memoryFiles (show readerDef.allowedTools = _ from rfl)
    (by decide) editor (.userMessage "u" "hi") "run" editTurns hruns⟩

end Memory

end October.ReplayedFiles
