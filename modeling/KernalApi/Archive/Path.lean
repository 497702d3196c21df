import KernalApi.Std.Chunks
import KernalApi.Std.Utf8
import Mathlib.Algebra.GroupWithZero.Nat

/-!
# Paths in archives

Names of entries and link targets are text. They are read as the components of a
Unix path; what becomes of an entry is a list of plain names below the destination.
-/

namespace KernalApi.Archive

open KernalApi.Std

/-- Text as its characters. -/
abbrev Text := List Char

/-- A path as plain names: from the destination, or from the top of the file system. -/
abbrev Place := List Text

inductive IoKind
  | notFound
  | alreadyExists
  | notADirectory
  | unexpectedEof
  | storageFull
  | other
deriving DecidableEq, Repr

/-- An error of a call: invalid data with its message, or an error of the system. -/
inductive Failure
  | invalid (message : String)
  | io (kind : IoKind)
deriving DecidableEq, Repr

inductive Component
  | rootDir
  | curDir
  | parentDir
  | normal (name : Text)
deriving DecidableEq

/-- What stands between two slashes, except at the very start. -/
def segment (text : Text) : Option Component :=
  if text = [] ∨ text = ['.'] then none
  else if text = ['.', '.'] then some .parentDir
  else some (.normal text)

/-- `Path::components`. -/
def components (text : Text) : List Component :=
  if text.head? = some '/' then .rootDir :: (text.splitOn '/').filterMap segment
  else if (text.splitOn '/').head? = some ['.'] then .curDir :: (text.splitOn '/').filterMap segment
  else (text.splitOn '/').filterMap segment

def Component.name? : Component → Option Text
  | .normal name => some name
  | _ => none

/-- The place of an entry below the destination. -/
def relativePath (name : Text) (limit : Nat) : Except Failure Place :=
  if limit < (Utf8.encode name).length ∨ '\\' ∈ name ∨ ':' ∈ name ∨ '\x00' ∈ name then
    .error (.invalid "unsafe or oversized archive path")
  else if (components name).any fun component => component.name?.isNone && component ≠ .curDir then
    .error (.invalid "archive path escapes destination")
  else if (components name).filterMap Component.name? = [] then
    .error (.invalid "empty archive path")
  else .ok ((components name).filterMap Component.name?)

/-- A path of plain names as text. -/
def Place.text (place : Place) : Text := ['/'].intercalate place

/-- `Path::join`: an absolute path replaces the one it is joined to. -/
def join (parent : Place) (target : Text) : Text :=
  if target.head? = some '/' ∨ parent = [] then target else Place.text parent ++ '/' :: target

/-- Whether a spelling is of a directory: it ends with a slash, or a slash and a dot. -/
def requiresDirectory (raw : Text) : Bool := ['/'].isSuffixOf raw || ['/', '.'].isSuffixOf raw

/-- A name a directory can have. -/
def Plain (name : Text) : Prop := name ≠ [] ∧ name ≠ ['.'] ∧ name ≠ ['.', '.'] ∧ '/' ∉ name

/-- A component of a path that is a name is one a directory can have. -/
theorem plain_of_mem_components {text name : Text} (member : .normal name ∈ components text) :
    Plain name := by
  have inside : .normal name ∈ (text.splitOn '/').filterMap segment := by
    unfold components at member
    split at member
    · simpa using member
    split at member
    · simpa using member
    exact member
  obtain ⟨part, found, same⟩ := List.mem_filterMap.mp inside
  have clean := not_mem_of_mem_splitOn found
  unfold segment at same
  split at same
  · cases same
  rename_i solid
  split at same
  · cases same
  rename_i solidToo
  cases same
  exact ⟨fun empty => solid (.inl empty), fun dot => solid (.inr dot), solidToo, clean⟩

theorem relativePath_ok {name : Text} {limit : Nat} {place : Place}
    (accepted : relativePath name limit = .ok place) : place ≠ [] ∧ ∀ part ∈ place, Plain part := by
  unfold relativePath at accepted
  split_ifs at accepted with _ _ some
  cases accepted
  refine ⟨some, fun part member => ?_⟩
  obtain ⟨component, found, named⟩ := List.mem_filterMap.mp member
  cases component with
  | normal name =>
    cases named
    exact plain_of_mem_components found
  | rootDir | curDir | parentDir => cases named

/-- The pieces of a spelling of plain names are these names. -/
theorem splitOn_text {place : Place} (present : place ≠ []) (plain : ∀ part ∈ place, Plain part) :
    (Place.text place).splitOn '/' = place :=
  List.splitOn_intercalate '/' (fun part member => (plain part member).2.2.2) present

theorem splitOn_join {parent : Place} {target : Text} (relative : target.head? ≠ some '/')
    (plain : ∀ part ∈ parent, Plain part) :
    (join parent target).splitOn '/' = parent ++ target.splitOn '/' := by
  unfold join
  by_cases empty : parent = []
  · rw [if_pos (.inr empty), empty, List.nil_append]
  · rw [if_neg (by simp [relative, empty]), List.splitOn_append_cons_self, splitOn_text empty plain]

example : components ['.', '/', 'a', '/', '/', '.', '.', '/', 'b', '/', '.']
    = [.curDir, .normal ['a'], .parentDir, .normal ['b']] := by decide

end KernalApi.Archive
