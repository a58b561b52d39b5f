import October.Capabilities

/-!
Resolving a capability specification twice. The daemon resolves its default specification
when it starts, and again with every submission that uses it. This changes nothing more,
except for a path behind `~/` that mentions the home variable, and for a path that becomes
one to expand when a variable in it is replaced.
-/

namespace October.ResolvedPaths

open MarkedWords

def braced : List Char := "\x7bHOME\x7d".toList

def plain : List Char := "HOME".toList

def PlainHome (home : String) : Prop :=
  ['/'] <+: home.toList ∧ '~' ∉ home.toList ∧ '$' ∉ home.toList

def Mentions (text : List Char) : Prop :=
  '$' :: braced <:+: text ∨ '$' :: plain <:+: text

/-- The path is one in the home directory, and mentions a variable. -/
def MentionsBehind (path : List Char) : Prop :=
  ∃ rest, path = '~' :: '/' :: rest ∧ Mentions rest

def TildeVariable (path : List Char) : Prop :=
  '~' :: '$' :: braced <+: path ∨ '~' :: '$' :: plain <+: path

def SpelledHere (letters text rest : List Char) : Prop :=
  Spelled '$' braced plain letters text rest

/-- A tilde, or a tilde and a slash, stands at the start of the path with variables around
or between, or a variable stands in it with variables between its letters. -/
def SpelledAround (path : List Char) : Prop :=
  (∃ rest, SpelledHere ['~'] path rest ∧ Blank '$' braced plain rest) ∨
    (∃ rest, SpelledHere ['~', '/'] path rest) ∨
    ∃ before rest behind, path = before ++ '$' :: rest ∧ Bare '$' braced plain rest ∧
      (SpelledHere braced rest behind ∨ SpelledHere plain rest behind)

/-- Nothing is left to expand when the path is resolved. Where the home directory is the
root, the variables vanish from the path. -/
def ResolvesOnce (home : String) (path : List Char) : Prop :=
  ¬ MentionsBehind path ∧
    (path = ['~'] ∨ ['~', '/'] <+: path ∨
      (trimSlashes home = "" ∧ ¬ SpelledAround path) ∨
      (trimSlashes home ≠ "" ∧ ¬ TildeVariable path))

def grantPath : Grant → Option String
  | .dir path _ | .file path _ => some path
  | .workingDir _ => none

/-- The expansion on letters, for a home directory without slashes at its end. -/
def expanded (home path : List Char) : List Char :=
  if path = ['~'] then home
  else if ['~', '/'] <+: path then home ++ '/' :: path.drop 2
  else replace ('$' :: plain) home (replace ('$' :: braced) home path)

structure Trimmed (home : List Char) : Prop where
  tilde : '~' ∉ home
  mark : '$' ∉ home
  slash : home = [] ∨ ∃ rest, home = '/' :: rest

section Letters

theorem trimmed {home : String} (h : PlainHome home) : Trimmed (trimSlashes home).toList := by
  have hpre : (trimSlashes home).toList <+: home.toList := by
    rw [trimSlashes, String.toList_ofList]
    exact List.rdropWhile_prefix _ _
  refine ⟨fun hmem => h.2.1 (hpre.subset hmem), fun hmem => h.2.2 (hpre.subset hmem), ?_⟩
  cases hhome : (trimSlashes home).toList with
  | nil => exact .inl rfl
  | cons c rest =>
    obtain ⟨text, htext⟩ := h.1
    rw [hhome, ← htext] at hpre
    rw [(List.cons_prefix_cons.mp hpre).1]
    exact .inr ⟨rest, rfl⟩

theorem expandHome_toList (path home : String) :
    (expandHome path (some home)).toList =
      expanded (trimSlashes home).toList path.toList := by
  have htilde : path = "~" ↔ path.toList = ['~'] := by
    rw [← String.toList_inj]
    rfl
  unfold expandHome expanded
  simp only [htilde, stripPrefix]
  split
  · rfl
  · by_cases hpre : ['~', '/'] <+: path.toList
    · have hpre' : "~/".toList <+: path.toList := hpre
      rw [if_pos hpre, if_pos hpre']
      simp only [String.toList_append, String.toList_ofList, List.append_assoc]
      rfl
    · have hpre' : ¬ "~/".toList <+: path.toList := hpre
      rw [if_neg hpre, if_neg hpre']
      simp only [replaceAll, String.toList_ofList]
      rfl

variable {home : List Char}

theorem tilde_ne_mark : '~' ≠ '$' := by decide

theorem mark_notMem_braced : '$' ∉ braced := by decide

theorem mark_notMem_plain : '$' ∉ plain := by decide

theorem slash_notMem_braced : '/' ∉ braced := by decide

theorem slash_notMem_plain : '/' ∉ plain := by decide

theorem plain_not_prefix : ¬ plain <+: braced := by decide

theorem not_mentions (h : '$' ∉ home) : ¬ Mentions home := by
  rintro (hfound | hfound)
  · exact h (hfound.subset List.mem_cons_self)
  · exact h (hfound.subset List.mem_cons_self)

theorem mentions_append_iff {front : List Char} (h : '$' ∉ front) (text : List Char) :
    Mentions (front ++ text) ↔ Mentions text :=
  or_congr (infix_append_iff_of_notMem h) (infix_append_iff_of_notMem h)

/-- The paths that the expansion leaves as they are. -/
theorem expanded_eq_iff (h : Trimmed home) (path : List Char) :
    expanded home path = path ↔
      path ≠ ['~'] ∧ ¬ ['~', '/'] <+: path ∧ ¬ Mentions path := by
  unfold expanded
  split
  · rename_i hpath
    refine iff_of_false (fun heq => h.tilde ?_) (fun hall => hall.1 hpath)
    rw [heq, hpath]
    exact List.mem_cons_self
  · rename_i hpath
    split
    · rename_i hpre
      refine iff_of_false (fun heq => ?_) (fun hall => hall.2.1 hpre)
      obtain ⟨rest, rfl⟩ := hpre
      rcases h.slash with rfl | ⟨home', rfl⟩
      · cases heq
      · cases heq
    · rename_i hpre
      rw [replace_replace_eq_iff h.mark, Mentions, not_or]
      exact ⟨fun hnone => ⟨hpath, hpre, hnone⟩, fun hall => hall.2.2⟩

/-- A letter other than a slash that the result begins with is the first of the path. -/
theorem head_of_replaced {home' path : List Char} {c : Char} (hc : '/' ≠ c)
    (h : [c] <+: replace ('$' :: plain) ('/' :: home')
      (replace ('$' :: braced) ('/' :: home') path)) : [c] <+: path :=
  have hc' : '/' ∉ [c] := by simpa using hc
  prefix_of_prefix_replace (List.cons_ne_nil _ _) hc'
    (prefix_of_prefix_replace (List.cons_ne_nil _ _) hc' h)

/-- What comes behind a tilde begins with a slash just if there was a variable. -/
theorem replaced_slash_iff (home' : List Char) {path : List Char} (hpath : ¬ ['/'] <+: path) :
    ['/'] <+: replace ('$' :: plain) ('/' :: home')
        (replace ('$' :: braced) ('/' :: home') path) ↔
      '$' :: braced <+: path ∨ '$' :: plain <+: path := by
  have hword : ∀ tail : List Char, '$' :: tail ≠ [] := fun tail => List.cons_ne_nil _ _
  by_cases hbraced : '$' :: braced <+: path
  · obtain ⟨rest, rfl⟩ := hbraced
    rw [replace_word _ (hword braced), List.cons_append, replace_letter _ (by decide)]
    exact iff_of_true (List.prefix_append ['/'] _) (.inl (List.prefix_append _ _))
  · cases path with
    | nil => simp [replace_nil]
    | cons c path =>
      rw [replace_cons hbraced]
      by_cases hplain : '$' :: plain <+: c :: path
      · obtain ⟨rfl, rest, rfl⟩ := List.cons_prefix_cons.mp hplain
        rw [replace_letters _ mark_notMem_plain, ← List.cons_append,
          replace_word _ (hword plain), List.cons_append]
        exact iff_of_true (List.prefix_append ['/'] _) (.inr hplain)
      · have hplain' : ¬ '$' :: plain <+:
            c :: replace ('$' :: braced) ('/' :: home') path := by
          rw [List.cons_prefix_cons] at hplain ⊢
          exact fun hpre => hplain
            ⟨hpre.1, prefix_of_prefix_replace (hword braced) slash_notMem_plain hpre.2⟩
        rw [replace_cons hplain']
        refine iff_of_false (fun hpre => hpath ?_) (fun hor => hor.elim hbraced hplain)
        rw [(List.cons_prefix_cons.mp hpre).1]
        exact List.prefix_append [c] path

/-- Where the variables are replaced by a path that begins with a slash. -/
theorem replaced_fixed_iff {home' path : List Char} (hmark : '$' ∉ '/' :: home')
    (hpath : path ≠ ['~']) (hpre : ¬ ['~', '/'] <+: path) :
    (replace ('$' :: plain) ('/' :: home') (replace ('$' :: braced) ('/' :: home') path) ≠
          ['~'] ∧
        ¬ ['~', '/'] <+: replace ('$' :: plain) ('/' :: home')
          (replace ('$' :: braced) ('/' :: home') path) ∧
        ¬ Mentions (replace ('$' :: plain) ('/' :: home')
          (replace ('$' :: braced) ('/' :: home') path))) ↔
      ¬ TildeVariable path := by
  have hword : ∀ tail : List Char, '$' :: tail ≠ [] := fun tail => List.cons_ne_nil _ _
  have hnone := not_infix_replace_replace hmark slash_notMem_braced slash_notMem_plain path
  have hmentions : ¬ Mentions (replace ('$' :: plain) ('/' :: home')
      (replace ('$' :: braced) ('/' :: home') path)) := not_or.mpr hnone
  by_cases htilde : ['~'] <+: path
  · obtain ⟨rest, rfl⟩ := htilde
    have hrest : ¬ ['/'] <+: rest := fun hslash => hpre (List.cons_prefix_cons.mpr ⟨rfl, hslash⟩)
    have hnil : replace ('$' :: plain) ('/' :: home')
        (replace ('$' :: braced) ('/' :: home') rest) ≠ [] := by
      rw [Ne, replace_eq_nil_iff (hword plain), replace_eq_nil_iff (hword braced)]
      rintro rfl
      exact hpath rfl
    have hvariable : TildeVariable (['~'] ++ rest) ↔
        '$' :: braced <+: rest ∨ '$' :: plain <+: rest := by
      simp [TildeVariable]
    rw [hvariable, ← replaced_slash_iff home' hrest]
    rw [List.singleton_append] at hmentions ⊢
    rw [replace_letter _ tilde_ne_mark, replace_letter _ tilde_ne_mark] at hmentions ⊢
    simp [hnil, hmentions]
  · have hhead : ∀ rest, replace ('$' :: plain) ('/' :: home')
        (replace ('$' :: braced) ('/' :: home') path) ≠ '~' :: rest := fun rest hq =>
      htilde (head_of_replaced (by decide) ⟨rest, hq.symm⟩)
    refine iff_of_true ⟨hhead [], ?_, hmentions⟩ ?_
    · rintro ⟨rest, hq⟩
      exact hhead ('/' :: rest) hq.symm
    · rintro (⟨rest, hq⟩ | ⟨rest, hq⟩)
      · exact htilde ⟨_, hq⟩
      · exact htilde ⟨_, hq⟩

/-- Where the variables are taken out. -/
theorem stripped_fixed_iff (path : List Char) :
    (strip '$' braced plain path ≠ ['~'] ∧ ¬ ['~', '/'] <+: strip '$' braced plain path ∧
        ¬ Mentions (strip '$' braced plain path)) ↔ ¬ SpelledAround path := by
  have htilde : strip '$' braced plain path = ['~'] ↔
      ∃ rest, SpelledHere ['~'] path rest ∧ Blank '$' braced plain rest :=
    strip_eq_append_iff mark_notMem_braced mark_notMem_plain plain_not_prefix
      (u := ['~']) (by decide) path []
  have hslash : ['~', '/'] <+: strip '$' braced plain path ↔
      ∃ rest, SpelledHere ['~', '/'] path rest := by
    constructor
    · rintro ⟨y, hy⟩
      obtain ⟨rest, hrest, -⟩ := (strip_eq_append_iff mark_notMem_braced mark_notMem_plain
        plain_not_prefix (by decide) path y).mp hy.symm
      exact ⟨rest, hrest⟩
    · rintro ⟨rest, hrest⟩
      exact ⟨_, ((strip_eq_append_iff mark_notMem_braced mark_notMem_plain
        plain_not_prefix (by decide) path _).mpr ⟨rest, hrest, rfl⟩).symm⟩
  rw [Ne, htilde, hslash, Mentions,
    infix_strip_iff mark_notMem_braced mark_notMem_plain plain_not_prefix mark_notMem_braced,
    infix_strip_iff mark_notMem_braced mark_notMem_plain plain_not_prefix mark_notMem_plain,
    SpelledAround]
  have hvariable : (∃ before rest behind, path = before ++ '$' :: rest ∧
        Bare '$' braced plain rest ∧
        (SpelledHere braced rest behind ∨ SpelledHere plain rest behind)) ↔
      (∃ before rest behind, path = before ++ '$' :: rest ∧ Bare '$' braced plain rest ∧
          Spelled '$' braced plain braced rest behind) ∨
        ∃ before rest behind, path = before ++ '$' :: rest ∧ Bare '$' braced plain rest ∧
          Spelled '$' braced plain plain rest behind := by
    simp only [SpelledHere, and_or_left, exists_or]
  rw [hvariable]
  simp only [not_or]

theorem not_tilde {q : List Char} (h : q = [] ∨ ∃ rest, q = '/' :: rest) :
    q ≠ ['~'] ∧ ¬ ['~', '/'] <+: q := by
  rcases h with rfl | ⟨rest, rfl⟩
  · simp
  · simp

/-- The paths whose expansion has nothing left to expand. -/
theorem expanded_fixed_iff (h : Trimmed home) (path : List Char) :
    (expanded home path ≠ ['~'] ∧ ¬ ['~', '/'] <+: expanded home path ∧
        ¬ Mentions (expanded home path)) ↔
      ¬ MentionsBehind path ∧
        (path = ['~'] ∨ ['~', '/'] <+: path ∨
          (home = [] ∧ ¬ SpelledAround path) ∨ (home ≠ [] ∧ ¬ TildeVariable path)) := by
  unfold expanded
  by_cases hpath : path = ['~']
  · have htilde := not_tilde h.slash
    have hbehind : ¬ MentionsBehind path := by
      rintro ⟨rest, rfl, -⟩
      cases hpath
    rw [if_pos hpath]
    exact iff_of_true ⟨htilde.1, htilde.2, not_mentions h.mark⟩ ⟨hbehind, .inl hpath⟩
  · rw [if_neg hpath]
    by_cases hpre : ['~', '/'] <+: path
    · obtain ⟨rest, rfl⟩ := hpre
      have hslash : home ++ '/' :: rest = [] ∨ ∃ text, home ++ '/' :: rest = '/' :: text := by
        rcases h.slash with rfl | ⟨home', rfl⟩
        · exact .inr ⟨rest, rfl⟩
        · exact .inr ⟨home' ++ '/' :: rest, rfl⟩
      have hmark : '$' ∉ home ++ ['/'] := by simpa using h.mark
      have hmentions := mentions_append_iff hmark rest
      have hbehind : MentionsBehind (['~', '/'] ++ rest) ↔ Mentions rest := by
        constructor
        · rintro ⟨text, heq, htext⟩
          cases heq
          exact htext
        · exact fun hrest => ⟨rest, rfl, hrest⟩
      rw [List.append_assoc, List.singleton_append] at hmentions
      rw [if_pos (List.prefix_append _ rest), hbehind, ← hmentions]
      have htilde := not_tilde hslash
      exact ⟨fun hall => ⟨hall.2.2, .inr (.inl (List.prefix_append _ rest))⟩,
        fun hall => ⟨htilde.1, htilde.2, hall.1⟩⟩
    · have hbehind : ¬ MentionsBehind path := by
        rintro ⟨rest, rfl, -⟩
        exact hpre (List.prefix_append ['~', '/'] rest)
      rw [if_neg hpre]
      rcases h.slash with rfl | ⟨home', rfl⟩
      · have hfixed := stripped_fixed_iff path
        simpa [hpath, hpre, hbehind, strip] using hfixed
      · rw [replaced_fixed_iff h.mark hpath hpre]
        simp [hpath, hpre, hbehind]

/-- Expanding twice is the same as expanding once just for the paths with nothing left to
expand. -/
theorem expandHome_twice_iff {home path : String} (h : PlainHome home) :
    expandHome (expandHome path (some home)) (some home) = expandHome path (some home) ↔
      ResolvesOnce home path.toList := by
  have hroot : trimSlashes home = "" ↔ (trimSlashes home).toList = [] :=
    String.toList_eq_nil_iff.symm
  rw [← String.toList_inj, expandHome_toList, expandHome_toList, expanded_eq_iff (trimmed h),
    ResolvesOnce, Ne, Ne, hroot]
  exact expanded_fixed_iff (trimmed h) path.toList

end Letters

section Specs

theorem expandGrant_twice_iff (home : Option String) (g : Grant) :
    expandGrant home (expandGrant home g) = expandGrant home g ↔
      ∀ path ∈ grantPath g, expandHome (expandHome path home) home = expandHome path home := by
  cases g <;> simp [expandGrant, grantPath]

/-- Resolving a specification twice is the same as resolving it once just if nothing is
left to expand in any path. -/
theorem resolve_twice_iff (spec : CapabilitySpec) (home : Option String)
    (hhome : ∀ h ∈ home, PlainHome h) :
    resolveUserPathsWith (resolveUserPathsWith spec home) home =
        resolveUserPathsWith spec home ↔
      ∀ h ∈ home, ∀ g ∈ spec.grants, ∀ path ∈ grantPath g, ResolvesOnce h path.toList := by
  have hgrants : resolveUserPathsWith (resolveUserPathsWith spec home) home =
        resolveUserPathsWith spec home ↔
      ∀ g ∈ spec.grants, expandGrant home (expandGrant home g) = expandGrant home g := by
    simp [resolveUserPathsWith]
  rw [hgrants]
  cases home with
  | none =>
    refine iff_of_true (fun g _ => (expandGrant_twice_iff none g).mpr (fun _ _ => rfl)) ?_
    intro h hnone
    cases hnone
  | some home =>
    have hplain := hhome home rfl
    constructor
    · intro hall h hh g hg path hpath
      cases hh
      exact (expandHome_twice_iff hplain).mp
        ((expandGrant_twice_iff (some home) g).mp (hall g hg) path hpath)
    · intro hall g hg
      exact (expandGrant_twice_iff (some home) g).mpr
        (fun path hpath => (expandHome_twice_iff hplain).mpr (hall home rfl g hg path hpath))

/-- Where nothing in a specification is left to expand. -/
theorem home_paths_resolve_once : ResolvesOnce "/home/u" "~/.ssh".toList := by
  have hhome : ∀ h ∈ some "/home/u", PlainHome h := by
    rintro h ⟨⟩
    exact ⟨⟨"home/u".toList, rfl⟩, by decide, by decide⟩
  exact (resolve_twice_iff ⟨.block, [.dir "~/.ssh" .read, .workingDir .readWrite]⟩
    (some "/home/u") hhome).mp (by decide +kernel) "/home/u" rfl _ List.mem_cons_self "~/.ssh" rfl

/-- A variable behind `~/` is left for the second time. -/
theorem variable_behind_home_resolved_twice :
    ¬ resolveUserPathsWith (resolveUserPathsWith ⟨.block, [.dir "~/$HOME" .read]⟩
        (some "/home/u")) (some "/home/u") =
      resolveUserPathsWith ⟨.block, [.dir "~/$HOME" .read]⟩ (some "/home/u") := by
  decide +kernel

/-- A variable that directly follows a tilde makes it one to expand. -/
example : expandHome "~$HOME" (some "/home/u") = "~/home/u" := by decide +kernel

/-- Where the home directory is the root, a variable can be spelled around another. -/
example : expandHome "$$HOMEHOME" (some "/") = "$HOME" := by decide +kernel

end Specs

end October.ResolvedPaths
