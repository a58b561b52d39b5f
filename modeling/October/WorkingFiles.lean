import October.FileTools
import October.FirstOccurrence

/-!
All tools of the runtime over one file system. A path may lead to a file, several paths to
the same one; what the file system promises of its operations is `Lawful`. The dispatcher
takes one call from a stored state to the next.
-/
namespace October

open FirstOccurrence (replaceFirst)

structure DirEntry where
  isDir : Bool
  name : String

/-- The file system that a runtime works on, with what `bash` does to it. -/
structure FileSystem where
  State : Type
  /-- What a path leads to, whichever path it is. -/
  File : Type
  decEq : DecidableEq File
  find : State → String → Option File
  content : State → File → String
  readToString : State → String → Except String String
  createDirAll : State → String → State × Except String Unit
  write : State → String → String → State × Except String Unit
  readDir : State → String → Except String (List (Except String DirEntry))
  glob : State → String → Except String (List (Except String GlobEntry))
  bash : State → String → String → State × ToolResult

namespace FileSystem

variable (fs : FileSystem)

instance : DecidableEq fs.File := fs.decEq

/-- The paths that lead to a file go on leading there, and every file but one keeps its
content. -/
structure Keeps (s s' : fs.State) (but : Option fs.File) : Prop where
  found : ∀ path file, fs.find s path = some file → fs.find s' path = some file
  kept : ∀ path file, fs.find s path = some file → but ≠ some file →
    fs.content s' file = fs.content s file

structure Written (s s' : fs.State) (path text : String) (file : fs.File) : Prop where
  leads : fs.find s' path = some file
  content : fs.content s' file = text
  own : fs.find s path = some file ∨ ∀ other, fs.find s other ≠ some file
  keeps : fs.Keeps s s' (some file)

/-- A write that fails may leave anything in the file that its path leads to. -/
structure Lawful : Prop where
  read : ∀ s path text, fs.readToString s path = .ok text →
    ∃ file, fs.find s path = some file ∧ fs.content s file = text
  createDirAll : ∀ s path, fs.Keeps s (fs.createDirAll s path).1 none
  written : ∀ s path text s', fs.write s path text = (s', .ok ()) →
    ∃ file, fs.Written s s' path text file
  failed : ∀ s path text s' e, fs.write s path text = (s', .error e) →
    fs.Keeps s s' (fs.find s path)

variable {fs}

theorem Keeps.refl (s : fs.State) (but : Option fs.File) : fs.Keeps s s but :=
  ⟨fun _ _ h => h, fun _ _ _ _ => rfl⟩

theorem Keeps.trans {s t u : fs.State} {but : Option fs.File} (h : fs.Keeps s t but)
    (h' : fs.Keeps t u but) : fs.Keeps s u but :=
  ⟨fun path file hf => h'.found path file (h.found path file hf), fun path file hf hne =>
    (h'.kept path file (h.found path file hf) hne).trans (h.kept path file hf hne)⟩

end FileSystem

namespace Path

/-- The rest of a reversed path behind separators and components that are a dot; a dot in
front of a path that is not rooted is one of its components. -/
def trimBack (rooted : Bool) : List Char → List Char
  | '/' :: rest => trimBack rooted rest
  | ['.'] => if rooted then [] else ['.']
  | '.' :: '/' :: rest => trimBack rooted rest
  | rest => rest

def parent (path : String) : Option String :=
  let rooted := path.toList.head? = some '/'
  let body := if rooted then path.toList.tail else path.toList
  let trimmed := trimBack rooted body.reverse
  let root := if rooted then ['/'] else []
  if trimmed = [] then none
  else some (String.ofList (root ++ (trimBack rooted (trimmed.dropWhile (· ≠ '/'))).reverse))

example : parent "/work/a/b.txt" = some "/work/a" := by decide

end Path

structure WriteFileInput where
  path : String
  content : String

structure EditFileInput where
  path : String
  oldText : String
  newText : String

structure GlobInput where
  pattern : String
  path : Option String
  maxResults : Option ℕ

section Tools

variable (fs : FileSystem) (workingDir : String)

namespace WriteFile

def withParents (s : fs.State) (path : String) : fs.State × Except String Unit :=
  match Path.parent path with
  | some parent => fs.createDirAll s parent
  | none => (s, .ok ())

def exec (s : fs.State) (input : WriteFileInput) : fs.State × ToolResult :=
  let path := joinPath workingDir input.path
  match withParents fs s path with
  | (s, .error e) => (s, .err e)
  | (s, .ok ()) =>
    match fs.write s path input.content with
    | (s, .error e) => (s, .err e)
    | (s, .ok ()) => (s, .ok ⟨"File written.", "", 0⟩)

end WriteFile

namespace EditFile

def newContent (content oldText newText : String) : Option String :=
  if oldText.toList <:+: content.toList then
    some (String.ofList (replaceFirst oldText.toList newText.toList content.toList))
  else none

def exec (s : fs.State) (input : EditFileInput) : fs.State × ToolResult :=
  let path := joinPath workingDir input.path
  match fs.readToString s path with
  | .error e => (s, .err e)
  | .ok content =>
    match newContent content input.oldText input.newText with
    | none => (s, .err ("old_text not found in '" ++ input.path ++ "'"))
    | some new =>
      match fs.write s path new with
      | (s, .error e) => (s, .err e)
      | (s, .ok ()) => (s, .ok ⟨"Edited '" ++ input.path ++ "'.", "", 0⟩)

end EditFile

namespace ListFiles

def line (entry : DirEntry) : String := (if entry.isDir then "d" else "f") ++ " " ++ entry.name

def exec (s : fs.State) (path : String) : ToolResult :=
  match fs.readDir s (joinPath workingDir path) with
  | .error e => .err e
  | .ok entries =>
    match entries.mapM (fun entry => entry.map line) with
    | .error e => .err e
    | .ok lines => .ok ⟨"\n".intercalate (lines.mergeSort (fun a b => decide (a ≤ b))), "", 0⟩

end ListFiles

namespace Glob

def exec (s : fs.State) (input : GlobInput) : ToolResult :=
  let base := (input.path.map (joinPath workingDir)).getD workingDir
  let max := input.maxResults.getD 1000
  match fs.glob s (base ++ "/" ++ input.pattern) with
  | .error e => .err e
  | .ok paths =>
    .ok ⟨"\n".intercalate ((paths.take max).filterMap (fun entry =>
      entry.toOption.map GlobEntry.path)), "", 0⟩

end Glob

variable (joinError : String → String) (library : RegexLibrary)

namespace ReplaceInFile

/-- `exec` with what it leaves in the file system. -/
def execIn (s : fs.State) (input : ReplaceInFileInput) : fs.State × ToolResult :=
  let path := joinPath workingDir input.path
  match fs.readToString s path with
  | .error e => (s, .err e)
  | .ok content =>
    match newContent library content input with
    | .error panic => (s, .err (joinError panic.message))
    | .ok (.error e) => (s, .err e)
    | .ok (.ok new) =>
      match fs.write s path new with
      | (s, .error e) => (s, .err e)
      | (s, .ok ()) => (s, .ok ⟨"Replaced in '" ++ input.path ++ "'.", "", 0⟩)

/-- It answers what `exec` does. -/
theorem execIn_result (s : fs.State) (input : ReplaceInFileInput) :
    (execIn fs workingDir joinError library s input).2 =
      (exec joinError (fs.readToString s) (fun path text => (fs.write s path text).2) library
        workingDir input).1 := by
  unfold execIn exec
  dsimp only
  cases fs.readToString s (joinPath workingDir input.path) with
  | error e => rfl
  | ok content =>
    dsimp only
    rcases newContent library content input with panic | e | new
    · rfl
    · rfl
    · dsimp only
      rcases fs.write s (joinPath workingDir input.path) new with ⟨s', e | u⟩ <;> rfl

end ReplaceInFile

def dispatch (s : fs.State) : RuntimeCall → fs.State × ToolResult
  | .bash command => fs.bash s workingDir command
  | .readFile path startLine endLine =>
    (s, ReadFile.exec joinError (fs.readToString s) workingDir ⟨path, startLine, endLine⟩)
  | .writeFile path content => WriteFile.exec fs workingDir s ⟨path, content⟩
  | .editFile path oldText newText => EditFile.exec fs workingDir s ⟨path, oldText, newText⟩
  | .replaceInFile path replacement mode =>
    ReplaceInFile.execIn fs workingDir joinError library s ⟨path, replacement, mode⟩
  | .listFiles path => (s, ListFiles.exec fs workingDir s path)
  | .glob pattern path maxResults =>
    (s, Glob.exec fs workingDir s ⟨pattern, path, maxResults⟩)
  | .grep pattern path filePattern maxResults =>
    (s, Grep.exec joinError library (fs.glob s) workingDir
      ⟨pattern, path, filePattern, maxResults⟩)

def onlyReads : RuntimeCall → Bool
  | .bash _ => false
  | .readFile _ _ _ => true
  | .writeFile _ _ => false
  | .editFile _ _ _ => false
  | .replaceInFile _ _ _ => false
  | .listFiles _ => true
  | .glob _ _ _ => true
  | .grep _ _ _ _ => true

theorem dispatch_onlyReads {call : RuntimeCall} (h : onlyReads call = true) (s : fs.State) :
    (dispatch fs workingDir joinError library s call).1 = s := by
  cases call with
  | bash => cases h
  | readFile => rfl
  | writeFile => cases h
  | editFile => cases h
  | replaceInFile => cases h
  | listFiles => rfl
  | glob => rfl
  | grep => rfl

end Tools

end October
