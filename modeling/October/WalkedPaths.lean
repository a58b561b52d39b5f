import Mathlib.Data.List.Basic

/-!
Where a path leads without links: from a directory, or from the root if it begins with a
slash, name by name. An empty name and `.` stay where they are, `..` goes up.
-/
namespace WalkedPaths

abbrev FileName := List Char

def stepInto (dir : List FileName) (name : FileName) : List FileName :=
  if name = [] ∨ name = ['.'] then dir
  else if name = ['.', '.'] then dir.dropLast
  else dir ++ [name]

/-- The letters of `name` are read, and the path goes on. -/
def walk (dir : List FileName) (name : FileName) : List Char → List FileName
  | [] => stepInto dir name
  | c :: rest => if c = '/' then walk (stepInto dir name) [] rest else walk dir (name ++ [c]) rest

def enter (dir : List FileName) (path : String) : List FileName :=
  walk (if path.toList.head? = some '/' then [] else dir) [] path.toList

structure Plain (path : String) : Prop where
  ne_nil : path.toList ≠ []
  ne_dot : path.toList ≠ ['.']
  ne_dots : path.toList ≠ ['.', '.']
  no_slash : '/' ∉ path.toList

variable {dir : List FileName} {path : String}

theorem walk_name (dir : List FileName) (name : FileName) {path : List Char}
    (h : '/' ∉ path) : walk dir name path = stepInto dir (name ++ path) := by
  induction path generalizing name with
  | nil => rw [walk, List.append_nil]
  | cons c rest ih =>
    obtain ⟨hc, hrest⟩ := not_or.mp (fun hor => h (List.mem_cons.mpr hor))
    rw [walk, if_neg (fun heq => hc heq.symm), ih _ hrest, List.append_assoc,
      List.singleton_append]

theorem Plain.enter (h : Plain path) : enter dir path = dir ++ [path.toList] := by
  have hhead : path.toList.head? ≠ some '/' :=
    fun hslash => h.no_slash (List.mem_of_head? hslash)
  rw [WalkedPaths.enter, if_neg hhead, walk_name dir [] h.no_slash, List.nil_append, stepInto,
    if_neg (not_or.mpr ⟨h.ne_nil, h.ne_dot⟩), if_neg h.ne_dots]

end WalkedPaths
