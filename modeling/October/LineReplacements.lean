import October.FileTools

/-!
Replacing a range of lines. The tool takes a file's lines, without their ends, puts the
new lines in the place of the range, and joins all with newlines. The bytes outside the
range stay as they were only in a file whose lines end in plain newlines and whose last
line has no end.
-/

namespace October.LineReplacements

open ReplaceInFile TextLines

/-- The content with the lines of the range replaced, and every letter outside of it as it
was. What is put in the range are the lines of the replacement; where the last line is
replaced, the new last line ends as it did. -/
def replaced (content replacement : String) (startLine endLine : ℕ) : List Char :=
  insertLines '\n' (finalEnd '\n' '\r' content.toList)
    ((pieces '\n' content.toList).take (startLine - 1)).flatten
    (TextLines.lines '\n' '\r' replacement.toList)
    ((pieces '\n' content.toList).drop endLine).flatten

def TouchesOnly (content replacement : String) (startLine endLine : ℕ)
    (result : ToolResult × Option String) : Prop :=
  ∃ new, result.2 = some new ∧ new.toList = replaced content replacement startLine endLine

/-- No line outside the range ends in a carriage return and a newline, the content does
not end in a newline, and an empty replacement leaves the last line in its place; or the
range is everything and the replacement is empty. -/
def Kept (content replacement : String) (startLine endLine : ℕ) : Prop :=
  ((∀ piece ∈ (pieces '\n' content.toList).take (startLine - 1) ++
        (pieces '\n' content.toList).drop endLine, ¬ ['\r', '\n'] <:+ piece) ∧
      ¬ Ended '\n' content.toList ∧
      (replacement ≠ "" ∨ endLine < (lines content).length ∨
        (lines content).length ≤ startLine - 1)) ∨
    (replacement = "" ∧ (pieces '\n' content.toList).take (startLine - 1) = [] ∧
      (pieces '\n' content.toList).drop endLine = [])

instance (content replacement : String) (startLine endLine : ℕ) :
    Decidable (Kept content replacement startLine endLine) :=
  inferInstanceAs (Decidable (_ ∨ _))

section Spliced

theorem length_lines (content : String) :
    (lines content).length = (pieces '\n' content.toList).length := by
  rw [lines, List.length_map, TextLines.lines, List.length_map]

/-- A splice that does not panic. -/
theorem splice_ok {α : Type} {xs items spliced : List α} {start stop : ℕ}
    (h : splice xs start stop items = .ok spliced) :
    start ≤ stop ∧ spliced = xs.take start ++ items ++ xs.drop stop := by
  unfold splice slice at h
  split at h
  · cases h
  · split at h
    · cases h
    · rename_i hstart hstop
      exact ⟨Nat.le_of_not_lt hstart, (Except.ok.inj h).symm⟩

/-- The letters of the new content. -/
theorem replaceLines_ok {content replacement new : String} {startLine endLine : ℕ}
    (h : replaceLines content replacement startLine endLine = .ok new) :
    (startLine - 1 ≤ endLine ∨
        (pieces '\n' content.toList).length ≤ endLine) ∧
      new.toList = ['\n'].intercalate
        (((pieces '\n' content.toList).take (startLine - 1)).map (lineOf '\n' '\r') ++
          (TextLines.lines '\n' '\r' replacement.toList ++
            ((pieces '\n' content.toList).drop endLine).map (lineOf '\n' '\r'))) := by
  unfold replaceLines at h
  cases hsplice : splice (lines content)
      (min (startLine - 1) (lines content).length)
      (min endLine (lines content).length) (lines replacement) with
  | error panic =>
    simp only [hsplice] at h
    cases h
  | ok spliced =>
    simp only [hsplice] at h
    obtain ⟨hstart, hspliced⟩ := splice_ok hsplice
    rw [length_lines] at hstart
    refine ⟨by omega, ?_⟩
    rw [← Except.ok.inj h, String.toList_intercalate, hspliced, take_min_length,
      drop_min (Nat.le_refl _)]
    simp only [List.map_append, List.map_take, List.map_drop, lines_map_toList,
      TextLines.lines, List.append_assoc]
    rfl

/-- The new content is the old one with only the lines of the range replaced, just where
the rest is kept. -/
theorem replaceLines_kept_iff {content replacement new : String} {startLine endLine : ℕ}
    (h : replaceLines content replacement startLine endLine = .ok new) :
    new.toList = replaced content replacement startLine endLine ↔
      Kept content replacement startLine endLine := by
  obtain ⟨hrange, hnew⟩ := replaceLines_ok h
  have hnone : TextLines.lines '\n' '\r' replacement.toList = [] ↔ replacement = "" := by
    rw [TextLines.lines, List.map_eq_nil_iff, pieces_eq_nil_iff, String.toList_eq_nil_iff]
  rw [hnew, replaced, replace_lines_iff '\n' '\r' content.toList _ hrange, Kept,
    length_lines, hnone, Ne, hnone]

end Spliced

section Exec

/-- A replacement of lines that succeeds touches only its lines, just where the rest is
kept. -/
theorem exec_touches_only_iff (joinError : String → String)
    (readToString : String → Except String String)
    (write : String → String → Except String Unit) (library : RegexLibrary)
    (workingDir path content replacement : String) (startLine endLine : ℕ)
    (output : ToolOutput) (hread : readToString (joinPath workingDir path) = .ok content)
    (hok : (exec joinError readToString write library workingDir
      ⟨path, replacement, .lines startLine endLine⟩).1 = .ok output) :
    TouchesOnly content replacement startLine endLine
        (exec joinError readToString write library workingDir
          ⟨path, replacement, .lines startLine endLine⟩) ↔
      Kept content replacement startLine endLine := by
  simp only [exec, hread, newContent] at hok ⊢
  cases hnew : replaceLines content replacement startLine endLine with
  | error panic =>
    simp only [hnew] at hok
    cases hok
  | ok new =>
    rw [← replaceLines_kept_iff hnew]
    simp only [hnew, Except.map] at hok ⊢
    cases hwrite : write (joinPath workingDir path) new with
    | error e =>
      simp only [hwrite] at hok
      cases hok
    | ok written =>
      constructor
      · rintro ⟨new', hwritten, htext⟩
        cases hwritten
        exact htext
      · exact fun htext => ⟨new, rfl, htext⟩

/-- The second of three lines is replaced, where no newline ends the last one. -/
theorem exec_touches_only_middle :
    TouchesOnly "a\nb\nc" "x" 2 2
      (exec id (fun _ => .ok "a\nb\nc") (fun _ _ => .ok ()) ⟨Unit, fun _ => .ok (),
        fun _ _ => false, fun _ text _ => text⟩ "/w" ⟨"f.txt", "x", .lines 2 2⟩) :=
  (exec_touches_only_iff id (fun _ => .ok "a\nb\nc") (fun _ _ => .ok ()) ⟨Unit, fun _ => .ok (),
    fun _ _ => false, fun _ text _ => text⟩ "/w" "f.txt" "a\nb\nc" "x" 2 2
    ⟨"Replaced in 'f.txt'.", "", 0⟩ rfl (by decide +kernel)).mpr (by decide +kernel)

/-- The newline at the end of a file is lost when its first line is replaced. -/
theorem final_newline_lost :
    ¬ TouchesOnly "a\nb\n" "x" 1 1
      (exec id (fun _ => .ok "a\nb\n") (fun _ _ => .ok ()) ⟨Unit, fun _ => .ok (),
        fun _ _ => false, fun _ text _ => text⟩ "/w" ⟨"f.txt", "x", .lines 1 1⟩) := by
  rintro ⟨new, hwritten, htext⟩
  have hnew : some "x\nb" = some new := hwritten ▸ (by decide +kernel)
  rw [← Option.some.inj hnew] at htext
  revert htext
  decide +kernel

end Exec

end October.LineReplacements
