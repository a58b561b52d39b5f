import October.FileTools

/-!
Searching for a pattern. The tool asks whether it has enough matches after it has taken
one, so it returns the first matches that are asked for, but never fewer than one if
there is any.
-/

namespace October.FirstMatches

open Grep

def lineMatches (isMatch : String → Bool) (path : String) (n : ℕ) (ls : List String) :
    List String :=
  ((ls.zipIdx n).filter (fun p => isMatch p.1)).map
    (fun p => path ++ ":" ++ toString p.2 ++ ": " ++ p.1)

/-- The matching lines of what a file pattern yields; what is no file or cannot be read
has none. -/
def entryMatches (isMatch : String → Bool) (entry : GlobEntry) : List String :=
  match entry.isFile, entry.content with
  | true, .ok content => lineMatches isMatch entry.path 1 (lines content)
  | _, _ => []

def allMatches (isMatch : String → Bool) (entries : List GlobEntry) : List String :=
  entries.flatMap (entryMatches isMatch)

def ReturnsFirst (isMatch : String → Bool) (entries : List GlobEntry) (count : ℕ)
    (result : ToolResult) : Prop :=
  ∃ output, result = .ok output ∧
    output.stdout = "\n".intercalate ((allMatches isMatch entries).take count)

section Scanned

variable (isMatch : String → Bool)

theorem lineMatches_cons (path : String) (i : ℕ) (line : String) (rest : List String) :
    lineMatches isMatch path (i + 1) (line :: rest) =
      if isMatch line then resultLine path i line :: lineMatches isMatch path (i + 1 + 1) rest
      else lineMatches isMatch path (i + 1 + 1) rest := by
  rw [lineMatches, List.zipIdx_cons, List.filter_cons]
  split
  · rw [List.map_cons]
    rfl
  · rfl

/-- The inner loop takes matches until there are `limit` of them, and at least one. -/
theorem scanLines_eq (path : String) (limit i : ℕ) (ls results : List String)
    (h : results.length < max limit 1) :
    scanLines isMatch path limit i ls results =
      (results ++ (lineMatches isMatch path (i + 1) ls).take (max limit 1 - results.length),
        decide (max limit 1 ≤ results.length + (lineMatches isMatch path (i + 1) ls).length)) := by
  induction ls generalizing i results with
  | nil =>
    have hfew : ¬ max limit 1 ≤ results.length := by omega
    simp [scanLines, lineMatches, hfew]
  | cons line rest ih =>
    rw [scanLines, lineMatches_cons]
    by_cases hmatch : isMatch line
    · have hcount : max limit 1 - results.length =
          (max limit 1 - (results.length + 1)) + 1 := by omega
      have hlength : (results ++ [resultLine path i line]).length = results.length + 1 := by simp
      simp only [if_pos hmatch, hlength, hcount, List.take_succ_cons, List.length_cons]
      by_cases henough : limit ≤ results.length + 1
      · have hnone : max limit 1 - (results.length + 1) = 0 := by omega
        have hstop : max limit 1 ≤ results.length +
            ((lineMatches isMatch path (i + 1 + 1) rest).length + 1) := by omega
        rw [if_pos henough, hnone, decide_eq_true hstop]
        rfl
      · rw [if_neg henough, ih (i + 1) _ (by omega), hlength, List.append_assoc,
          Nat.add_assoc results.length 1, Nat.add_comm 1]
        rfl
    · simp only [if_neg hmatch]
      exact ih (i + 1) results h

/-- The outer loop takes the first matches of the files that are left. -/
theorem scanFiles_eq (limit : ℕ) (entries : List GlobEntry) (results : List String)
    (h : results.length < max limit 1) :
    scanFiles isMatch limit entries results =
      results ++ (allMatches isMatch entries).take (max limit 1 - results.length) := by
  induction entries generalizing results with
  | nil => simp [scanFiles, allMatches]
  | cons entry rest ih =>
    rw [allMatches, List.flatMap_cons, ← allMatches]
    obtain ⟨path, isFile, content⟩ := entry
    cases isFile with
    | false => simpa [scanFiles, entryMatches] using ih results h
    | true =>
      cases content with
      | error e => simpa [scanFiles, entryMatches] using ih results h
      | ok content =>
        simp only [scanFiles, entryMatches, if_pos]
        rw [scanLines_eq isMatch path limit 0 (lines content) results h]
        by_cases henough : max limit 1 ≤
            results.length + (lineMatches isMatch path 1 (lines content)).length
        · rw [decide_eq_true henough, List.take_append_of_le_length (by omega)]
        · have hall : (lineMatches isMatch path 1 (lines content)).take
              (max limit 1 - results.length) = lineMatches isMatch path 1 (lines content) :=
            List.take_of_length_le (by omega)
          have hrest := ih (results ++ lineMatches isMatch path 1 (lines content))
            (by simp only [List.length_append]; omega)
          rw [decide_eq_false henough, Nat.zero_add, hall, List.take_append, hall,
            ← List.append_assoc, Nat.sub_sub, ← List.length_append]
          exact hrest

theorem resultLine_ne_empty (path : String) (n : ℕ) (line : String) :
    path ++ ":" ++ toString n ++ ": " ++ line ≠ "" := by
  intro h
  simp at h

theorem allMatches_ne_empty (entries : List GlobEntry) :
    ∀ result ∈ allMatches isMatch entries, result ≠ "" := by
  intro result hresult
  obtain ⟨entry, -, hentry⟩ := List.mem_flatMap.mp hresult
  unfold entryMatches at hentry
  split at hentry
  · obtain ⟨p, -, rfl⟩ := List.mem_map.mp hentry
    exact resultLine_ne_empty _ _ _
  · cases hentry

/-- The first match is returned even if none is asked for. -/
theorem scanFiles_first_iff (limit : ℕ) (entries : List GlobEntry) :
    "\n".intercalate (scanFiles isMatch limit entries []) =
        "\n".intercalate ((allMatches isMatch entries).take limit) ↔
      limit ≠ 0 ∨ allMatches isMatch entries = [] := by
  rw [scanFiles_eq isMatch limit entries [] (by rw [List.length_nil]; omega),
    List.nil_append, List.length_nil, Nat.sub_zero]
  by_cases hlimit : limit = 0
  · subst hlimit
    cases hmatches : allMatches isMatch entries with
    | nil => simp
    | cons first rest =>
      have hfirst : first ≠ "" :=
        allMatches_ne_empty isMatch entries first (hmatches ▸ List.mem_cons_self)
      simpa using hfirst
  · rw [Nat.max_eq_left (by omega)]
    exact iff_of_true rfl (.inl hlimit)

end Scanned

section Exec

def wordLibrary : RegexLibrary where
  Regex := String
  new := fun pattern => .ok pattern
  isMatch := fun re line => line.toList.tails.any (fun rest => re.toList.isPrefixOf rest)
  replaceAll := fun _ text _ => text

/-- A search with a valid pattern returns the first matches that are asked for, just if
some are asked for or there are none. -/
theorem exec_first_matches_iff (joinError : String → String) (library : RegexLibrary)
    (glob : String → Except String (List (Except String GlobEntry))) (workingDir : String)
    (input : GrepInput) (re : library.Regex) (paths : List (Except String GlobEntry))
    (hnew : library.new input.pattern = .ok re)
    (hglob : glob ((input.path.map (joinPath workingDir)).getD workingDir ++ "/" ++
      input.filePattern.getD "**/*") = .ok paths) :
    ReturnsFirst (library.isMatch re) (paths.filterMap Except.toOption)
        (input.maxResults.getD 1000) (exec joinError library glob workingDir input) ↔
      input.maxResults ≠ some 0 ∨
        allMatches (library.isMatch re) (paths.filterMap Except.toOption) = [] := by
  have hzero : input.maxResults.getD 1000 ≠ 0 ↔ input.maxResults ≠ some 0 := by
    cases input.maxResults <;> simp
  rw [← hzero, ← scanFiles_first_iff]
  simp only [exec, hnew, hglob]
  constructor
  · rintro ⟨output, hok, hstdout⟩
    cases hok
    exact hstdout
  · exact fun hstdout => ⟨_, rfl, hstdout⟩

/-- The first of the two lines that match is returned when one is asked for. -/
theorem exec_first_match :
    ReturnsFirst (wordLibrary.isMatch "foo") [⟨"/w/f.txt", true, .ok "foo\nbar\nfood"⟩] 1
      (exec id wordLibrary (fun _ => .ok [.ok ⟨"/w/f.txt", true, .ok "foo\nbar\nfood"⟩]) "/w"
        ⟨"foo", none, none, some 1⟩) :=
  (exec_first_matches_iff id wordLibrary
    (fun _ => .ok [.ok ⟨"/w/f.txt", true, .ok "foo\nbar\nfood"⟩]) "/w"
    ⟨"foo", none, none, some 1⟩ "foo" [.ok ⟨"/w/f.txt", true, .ok "foo\nbar\nfood"⟩]
    rfl rfl).mpr (.inl (by decide))

/-- A match is returned when none is asked for. -/
theorem match_returned_for_zero :
    ¬ ReturnsFirst (wordLibrary.isMatch "foo") [⟨"/w/f.txt", true, .ok "foo\nbar"⟩] 0
      (exec id wordLibrary (fun _ => .ok [.ok ⟨"/w/f.txt", true, .ok "foo\nbar"⟩]) "/w"
        ⟨"foo", none, none, some 0⟩) := by
  rintro ⟨output, hok, hstdout⟩
  have hone : exec id wordLibrary (fun _ => .ok [.ok ⟨"/w/f.txt", true, .ok "foo\nbar"⟩]) "/w"
      ⟨"foo", none, none, some 0⟩ = .ok ⟨"/w/f.txt:1: foo", "", 0⟩ := by decide +kernel
  rw [hone] at hok
  cases hok
  revert hstdout
  decide +kernel

end Exec

end October.FirstMatches
