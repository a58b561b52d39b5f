import Mathlib.Data.List.DropRight
import October.MarkedWords

/-!
Capability specifications, and how home-relative paths in their grants are resolved
against the home directory.
-/
namespace October

inductive Access where
  | read
  | readWrite
  deriving DecidableEq

inductive NetworkPolicy where
  | block
  | allow
  deriving DecidableEq

inductive Grant where
  | dir (path : String) (access : Access)
  | file (path : String) (access : Access)
  | workingDir (access : Access)
  deriving DecidableEq

structure CapabilitySpec where
  network : NetworkPolicy
  grants : List Grant
  deriving DecidableEq

/-- `text.trim_end_matches('/')`. -/
def trimSlashes (text : String) : String :=
  String.ofList (text.toList.rdropWhile (· = '/'))

/-- `text.replace(word, new)`, for a word that is not empty. -/
def replaceAll (text word new : String) : String :=
  String.ofList (MarkedWords.replace word.toList new.toList text.toList)

/-- `text.strip_prefix(front)`. -/
def stripPrefix (text front : String) : Option String :=
  if front.toList <+: text.toList then
    some (String.ofList (text.toList.drop front.toList.length))
  else none

def expandHome (path : String) : Option String → String
  | none => path
  | some home =>
    let home := trimSlashes home
    if path = "~" then home
    else
      match stripPrefix path "~/" with
      | some rest => home ++ "/" ++ rest
      | none => replaceAll (replaceAll path "$\x7bHOME\x7d" home) "$HOME" home

def expandGrant (home : Option String) : Grant → Grant
  | .dir path access => .dir (expandHome path home) access
  | .file path access => .file (expandHome path home) access
  | .workingDir access => .workingDir access

def resolveUserPathsWith (spec : CapabilitySpec) (home : Option String) : CapabilitySpec :=
  { spec with grants := spec.grants.map (expandGrant home) }

end October
