import October.FileTools

/-!
Reading a range of lines. With a first line given, the tool returns the lines that are
asked for, but a range that ends before the line in front of its start makes the slice
panic. With a last line alone, that bound is dropped and the whole file is returned.
-/

namespace October.LineRanges

open ReadFile TextLines

def requested (startLine endLine : Option ℕ) (lines : List String) : List String :=
  ((lines.zipIdx 1).filter (fun p => startLine.all (fun s => decide (s ≤ p.2)) &&
    endLine.all (fun e => decide (p.2 ≤ e)))).map Prod.fst

/-- The tool succeeds, and with a bound given its output is the requested lines. -/
def ReturnsRequested (content : String) (startLine endLine : Option ℕ)
    (result : ToolResult) : Prop :=
  ∃ output, result = .ok output ∧ (startLine.isSome ∨ endLine.isSome →
    output.stdout = "\n".intercalate (requested startLine endLine (lines content)))

/-- No line ends in a carriage return and a newline, and the last line in no newline. -/
def PlainEnds (content : String) : Prop :=
  (∀ piece ∈ pieces '\n' content.toList, ¬ ['\r', '\n'] <:+ piece) ∧
    ¬ Ended '\n' content.toList

instance (content : String) : Decidable (PlainEnds content) :=
  inferInstanceAs (Decidable (_ ∧ _))

/-- The range does not end before the line in front of its start, at a line the file has;
and where only its end is given, the file has no further lines and plain ends. -/
def Selectable (content : String) : Option ℕ → Option ℕ → Prop
  | some s, some e => ¬ (e + 1 < s ∧ e < (lines content).length)
  | none, some e => content = "" ∨ ((lines content).length ≤ e ∧ PlainEnds content)
  | _, none => True

instance (content : String) :
    (startLine endLine : Option ℕ) → Decidable (Selectable content startLine endLine)
  | some s, some e =>
    inferInstanceAs (Decidable ¬ (e + 1 < s ∧ e < (lines content).length))
  | none, some e =>
    inferInstanceAs
      (Decidable (content = "" ∨ ((lines content).length ≤ e ∧ PlainEnds content)))
  | some _, none => inferInstanceAs (Decidable True)
  | none, none => inferInstanceAs (Decidable True)

section Requested

variable {α : Type}

theorem filter_zipIdx_to (xs : List α) (n e : ℕ) :
    (xs.zipIdx n).filter (fun p => decide (p.2 ≤ e)) = (xs.take (e + 1 - n)).zipIdx n := by
  induction xs generalizing n with
  | nil => simp
  | cons x xs ih =>
    rw [List.zipIdx_cons, List.filter_cons, ih]
    by_cases hn : n ≤ e
    · have hcount : e + 1 - n = (e + 1 - (n + 1)) + 1 := by omega
      rw [if_pos (decide_eq_true hn), hcount, List.take_succ_cons, List.zipIdx_cons]
    · have hnone : e + 1 - n = 0 := by omega
      have hnone' : e + 1 - (n + 1) = 0 := by omega
      simp [hn, hnone, hnone']

theorem map_filter_zipIdx_from (xs : List α) (n s : ℕ) :
    ((xs.zipIdx n).filter (fun p => decide (s ≤ p.2))).map Prod.fst = xs.drop (s - n) := by
  induction xs generalizing n with
  | nil => simp
  | cons x xs ih =>
    rw [List.zipIdx_cons, List.filter_cons]
    by_cases hn : s ≤ n
    · have hnone : s - n = 0 := by omega
      have hnone' : s - (n + 1) = 0 := by omega
      rw [if_pos (decide_eq_true hn), List.map_cons, ih, hnone, hnone']
      rfl
    · have hcount : s - n = (s - (n + 1)) + 1 := by omega
      rw [if_neg (by simpa using hn), ih, hcount, List.drop_succ_cons]

end Requested

section Selected

theorem requested_from (s : ℕ) (xs : List String) :
    requested (some s) none xs = xs.drop (s - 1) := by
  rw [← map_filter_zipIdx_from xs 1 s]
  simp [requested]

theorem requested_to (e : ℕ) (xs : List String) :
    requested none (some e) xs = xs.take e := by
  have hto := filter_zipIdx_to xs 1 e
  simp only [requested, Option.all_none, Option.all_some, Bool.true_and, hto,
    Nat.add_sub_cancel, List.zipIdx_map_fst]

theorem requested_between (s e : ℕ) (xs : List String) :
    requested (some s) (some e) xs = (xs.take e).drop (s - 1) := by
  have hto := filter_zipIdx_to xs 1 e
  rw [← map_filter_zipIdx_from (xs.take e) 1 s, requested]
  simp only [Option.all_some, ← List.filter_filter, hto, Nat.add_sub_cancel]

/-- The slice of a range that is clamped to the lines holds the lines of the range,
unless it ends before its start. -/
theorem slice_between (xs : List String) (s e : ℕ) :
    slice xs (min (s - 1) xs.length) (min e xs.length) =
      if e + 1 < s ∧ e < xs.length then
        .error ⟨"slice index starts at " ++ toString (min (s - 1) xs.length) ++
          " but ends at " ++ toString (min e xs.length)⟩
      else .ok ((xs.take e).drop (s - 1)) := by
  unfold slice
  by_cases hinverted : e + 1 < s ∧ e < xs.length
  · rw [if_pos (by omega), if_pos hinverted]
  · rw [if_neg (by omega), if_neg (by omega), if_neg hinverted, take_min_length,
      drop_min (List.take_sublist e xs).length_le]

/-- The first lines give the whole content only if there are no others and the ends of
the lines are plain. -/
theorem intercalate_take_lines (content : String) (e : ℕ) :
    content = "\n".intercalate ((lines content).take e) ↔
      content = "" ∨ ((lines content).length ≤ e ∧ PlainEnds content) := by
  have hletters : content = "\n".intercalate ((lines content).take e) ↔
      ['\n'].intercalate ((TextLines.lines '\n' '\r' content.toList).take e) =
        content.toList := by
    rw [← String.toList_inj, String.toList_intercalate, List.map_take, lines_map_toList, eq_comm]
    rfl
  have hlength : (lines content).length =
      (TextLines.lines '\n' '\r' content.toList).length := by
    rw [← lines_map_toList, List.length_map]
  by_cases hempty : content = ""
  · subst hempty
    simp [hletters, TextLines.lines, pieces]
  · have hne : content.toList ≠ [] := by simpa using hempty
    rw [hletters, intercalate_take_eq_iff '\n' '\r' hne e, hlength]
    simp [hempty, PlainEnds]

/-- What the tool returns for a range with both bounds. -/
theorem select_between (content : String) (s e : ℕ) :
    (e + 1 < s ∧ e < (lines content).length ∧
        ∃ panic, select content (some s) (some e) = .error panic) ∨
      (¬ (e + 1 < s ∧ e < (lines content).length) ∧
        select content (some s) (some e) =
          .ok ("\n".intercalate (requested (some s) (some e) (lines content)))) := by
  have hslice := slice_between (lines content) s e
  by_cases hinverted : e + 1 < s ∧ e < (lines content).length
  · rw [if_pos hinverted] at hslice
    exact .inl ⟨hinverted.1, hinverted.2, _, by rw [select, hslice]; rfl⟩
  · rw [if_neg hinverted] at hslice
    exact .inr ⟨hinverted, by rw [select, hslice, requested_between]; rfl⟩

/-- With a first line alone, the tool returns the lines from it on. -/
theorem select_from (content : String) (s : ℕ) :
    select content (some s) none =
      .ok ("\n".intercalate (requested (some s) none (lines content))) := by
  have hslice : slice (lines content) (min (s - 1) (lines content).length)
      (lines content).length = .ok ((lines content).drop (s - 1)) := by
    rw [slice, if_neg (by omega), if_neg (by omega), List.take_length,
      drop_min (Nat.le_refl _)]
  rw [select, hslice, requested_from]
  rfl

/-- What the tool returns of a file's content is what was requested just for the ranges
that can be selected. -/
theorem select_returns_iff (joinError : String → String) (content : String)
    (startLine endLine : Option ℕ) :
    ReturnsRequested content startLine endLine
        (toToolResult joinError ((select content startLine endLine).map .ok)) ↔
      Selectable content startLine endLine := by
  cases startLine with
  | none =>
    cases endLine with
    | none => exact iff_of_true ⟨_, rfl, fun h => by simp at h⟩ trivial
    | some e =>
      -- the content is returned as it is
      rw [Selectable, ← intercalate_take_lines, ← requested_to]
      constructor
      · rintro ⟨output, hok, hlines⟩
        cases hok
        exact hlines (.inr rfl)
      · intro hcontent
        exact ⟨_, rfl, fun _ => hcontent⟩
  | some s =>
    cases endLine with
    | none =>
      rw [select_from]
      exact iff_of_true ⟨_, rfl, fun _ => rfl⟩ trivial
    | some e =>
      rcases select_between content s e with ⟨hs, he, panic, hpanic⟩ | ⟨hkept, hselect⟩
      · rw [hpanic]
        refine iff_of_false ?_ (fun hkept => hkept ⟨hs, he⟩)
        rintro ⟨output, hok, -⟩
        cases hok
      · rw [hselect]
        exact iff_of_true ⟨_, rfl, fun _ => rfl⟩ hkept

end Selected

section Exec

/-- The tool returns the requested lines of a file that can be read, just for the ranges
that can be selected. -/
theorem exec_returns_iff (joinError : String → String)
    (readToString : String → Except String String) (workingDir content : String)
    (input : ReadFileInput)
    (hread : readToString (joinPath workingDir input.path) = .ok content) :
    ReturnsRequested content input.startLine input.endLine
        (exec joinError readToString workingDir input) ↔
      Selectable content input.startLine input.endLine := by
  rw [exec, hread]
  exact select_returns_iff joinError content input.startLine input.endLine

/-- The second and third line of a file with four lines are returned. -/
theorem exec_returns_middle :
    ReturnsRequested "a\nb\nc\nd" (some 2) (some 3)
      (exec id (fun _ => .ok "a\nb\nc\nd") "/w" ⟨"f.txt", some 2, some 3⟩) :=
  (exec_returns_iff id (fun _ => .ok "a\nb\nc\nd") "/w" "a\nb\nc\nd"
    ⟨"f.txt", some 2, some 3⟩ rfl).mpr (by decide +kernel)

/-- A range that ends two lines before its start makes the task panic. -/
theorem inverted_range_not_returned :
    ¬ ReturnsRequested "a\nb\nc" (some 3) (some 1)
      (exec id (fun _ => .ok "a\nb\nc") "/w" ⟨"f.txt", some 3, some 1⟩) := by
  rintro ⟨output, hok, -⟩
  have herr : exec id (fun _ => .ok "a\nb\nc") "/w" ⟨"f.txt", some 3, some 1⟩ =
      .err "slice index starts at 2 but ends at 1" := by decide +kernel
  rw [herr] at hok
  cases hok

/-- With the last line alone, the whole file is returned. -/
example : exec id (fun _ => .ok "a\nb\nc") "/w" ⟨"f.txt", none, some 1⟩ =
    .ok ⟨"a\nb\nc", "", 0⟩ := rfl

end Exec

end October.LineRanges
