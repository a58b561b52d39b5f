import October.TextLines
import October.Toolboxes

/-!
The tools of the runtime that work on the lines of files: reading a range of lines,
replacing one, and searching for a pattern. Each runs as a blocking task, whose panic is
an error of the tool. What the file system, the pattern of files and the regular
expression library answer is given.
-/
namespace October

def lines (content : String) : List String :=
  (TextLines.lines '\n' '\r' content.toList).map String.ofList

theorem lines_map_toList (content : String) :
    (lines content).map String.toList = TextLines.lines '\n' '\r' content.toList := by
  rw [lines, List.map_map]
  exact (List.map_congr_left (fun l _ => String.toList_ofList)).trans (List.map_id _)

structure Panic where
  message : String

def slice {α : Type} (xs : List α) (start stop : ℕ) : Except Panic (List α) :=
  if stop < start then
    .error ⟨"slice index starts at " ++ toString start ++ " but ends at " ++ toString stop⟩
  else if xs.length < stop then
    .error ⟨"range end index " ++ toString stop ++ " out of range for slice of length " ++
      toString xs.length⟩
  else .ok ((xs.take stop).drop start)

def splice {α : Type} (xs : List α) (start stop : ℕ) (items : List α) :
    Except Panic (List α) := do
  let _ ← slice xs start stop
  return xs.take start ++ items ++ xs.drop stop

section Clamped

variable {α : Type}

theorem take_min_length (xs : List α) (n : ℕ) : xs.take (min n xs.length) = xs.take n := by
  simp [List.take_eq_take_iff]

theorem drop_min {xs : List α} {length : ℕ} (h : xs.length ≤ length) (n : ℕ) :
    xs.drop (min n length) = xs.drop n := by
  by_cases hn : n ≤ length
  · rw [Nat.min_eq_left hn]
  · rw [Nat.min_eq_right (by omega), List.drop_of_length_le h,
      List.drop_of_length_le (by omega)]

end Clamped

def joinPath (dir path : String) : String :=
  if path.toList.head? = some '/' then path
  else if dir = "" ∨ dir.toList.getLast? = some '/' then dir ++ path
  else dir ++ "/" ++ path

/-- The result of a tool from what its task comes to; `joinError` is the text of the error
that a panicked task is awaited with. -/
def toToolResult (joinError : String → String) :
    Except Panic (Except String String) → ToolResult
  | .ok (.ok stdout) => .ok ⟨stdout, "", 0⟩
  | .ok (.error reason) => .err reason
  | .error panic => .err (joinError panic.message)

structure ReadFileInput where
  path : String
  startLine : Option ℕ
  endLine : Option ℕ

namespace ReadFile

def select (content : String) : Option ℕ → Option ℕ → Except Panic String
  | some s, some e => do
    let lines := lines content
    let start := min (s - 1) lines.length
    let stop := min e lines.length
    let selected ← slice lines start stop
    return "\n".intercalate selected
  | some s, none => do
    let lines := lines content
    let start := min (s - 1) lines.length
    let selected ← slice lines start lines.length
    return "\n".intercalate selected
  | _, _ => return content

/-- `readToString` is what the file system answers for a path. -/
def exec (joinError : String → String) (readToString : String → Except String String)
    (workingDir : String) (input : ReadFileInput) : ToolResult :=
  toToolResult joinError
    (match readToString (joinPath workingDir input.path) with
    | .error e => .ok (.error e)
    | .ok content => (select content input.startLine input.endLine).map .ok)

end ReadFile

structure RegexLibrary where
  Regex : Type
  new : String → Except String Regex
  isMatch : Regex → String → Bool
  replaceAll : Regex → String → String → String

structure ReplaceInFileInput where
  path : String
  replacement : String
  mode : ReplaceMode

namespace ReplaceInFile

def replaceLines (content replacement : String) (startLine endLine : ℕ) :
    Except Panic String := do
  let lines' := lines content
  let start := min (startLine - 1) lines'.length
  let stop := min endLine lines'.length
  let spliced ← splice lines' start stop (lines replacement)
  return "\n".intercalate spliced

def newContent (library : RegexLibrary) (content : String) (input : ReplaceInFileInput) :
    Except Panic (Except String String) :=
  match input.mode with
  | .regex pattern =>
    match library.new pattern with
    | .error e => .ok (.error e)
    | .ok re => .ok (.ok (library.replaceAll re content input.replacement))
  | .lines startLine endLine =>
    (replaceLines content input.replacement startLine endLine).map .ok

/-- The result, with the content that the file was given, if it was written. -/
def exec (joinError : String → String) (readToString : String → Except String String)
    (write : String → String → Except String Unit) (library : RegexLibrary)
    (workingDir : String) (input : ReplaceInFileInput) : ToolResult × Option String :=
  let path := joinPath workingDir input.path
  match readToString path with
  | .error e => (toToolResult joinError (.ok (.error e)), none)
  | .ok content =>
    match newContent library content input with
    | .error panic => (toToolResult joinError (.error panic), none)
    | .ok (.error e) => (toToolResult joinError (.ok (.error e)), none)
    | .ok (.ok newContent) =>
      match write path newContent with
      | .error e => (toToolResult joinError (.ok (.error e)), none)
      | .ok () =>
        (toToolResult joinError (.ok (.ok ("Replaced in '" ++ input.path ++ "'."))),
          some newContent)

end ReplaceInFile

structure GrepInput where
  pattern : String
  path : Option String
  filePattern : Option String
  maxResults : Option ℕ

structure GlobEntry where
  path : String
  isFile : Bool
  content : Except String String

namespace Grep

def resultLine (path : String) (i : ℕ) (line : String) : String :=
  path ++ ":" ++ toString (i + 1) ++ ": " ++ line

/-- The inner loop from line number `i` on; whether it left the outer loop too. -/
def scanLines (isMatch : String → Bool) (path : String) (max : ℕ) :
    ℕ → List String → List String → List String × Bool
  | _, [], results => (results, false)
  | i, line :: rest, results =>
    if isMatch line then
      let results := results ++ [resultLine path i line]
      if max ≤ results.length then (results, true)
      else scanLines isMatch path max (i + 1) rest results
    else scanLines isMatch path max (i + 1) rest results

def scanFiles (isMatch : String → Bool) (max : ℕ) :
    List GlobEntry → List String → List String
  | [], results => results
  | entry :: rest, results =>
    if entry.isFile then
      match entry.content with
      | .error _ => scanFiles isMatch max rest results
      | .ok content =>
        match scanLines isMatch entry.path max 0 (lines content) results with
        | (results, true) => results
        | (results, false) => scanFiles isMatch max rest results
    else scanFiles isMatch max rest results

def exec (joinError : String → String) (library : RegexLibrary)
    (glob : String → Except String (List (Except String GlobEntry))) (workingDir : String)
    (input : GrepInput) : ToolResult :=
  let base := (input.path.map (joinPath workingDir)).getD workingDir
  let filePat := input.filePattern.getD "**/*"
  let max := input.maxResults.getD 1000
  toToolResult joinError
    (match library.new input.pattern with
    | .error e => .ok (.error e)
    | .ok re =>
      match glob (base ++ "/" ++ filePat) with
      | .error e => .ok (.error e)
      | .ok paths =>
        .ok (.ok ("\n".intercalate
          (scanFiles (library.isMatch re) max (paths.filterMap Except.toOption) []))))

end Grep

end October
