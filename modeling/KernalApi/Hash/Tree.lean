import KernalApi.Std.LittleEndian
import KernalApi.Std.Tree
import KernalApi.Std.Utf8
import Mathlib.Data.List.Sort
import Mathlib.Data.String.Basic

/-!
# Fingerprints of directory trees

`blake3_tree` walks a directory, leaves out directories that no selected file can
be in, and hashes the selected regular files in the order of their relative
names. Glob matching and the hash function are parameters.
-/

namespace KernalApi.Hash

open KernalApi.Std

/-- Text as its characters. -/
abbrev Text := List Char

/-- A file name of the host: text, or bytes that are none. -/
inductive OsName
  | utf8 (text : Text)
  | raw (bytes : List UInt8)
deriving DecidableEq

def OsName.toStr : OsName → Option Text
  | .utf8 text => some text
  | .raw _ => none

/-- What a walk that does not follow symbolic links finds besides directories. -/
inductive Leaf
  | file (contents : List UInt8)
  | symbolicLink
  | other
deriving DecidableEq

abbrev DirectoryTree := Tree OsName Leaf

/-- A glob compiler: which patterns it accepts, and which names they match. -/
structure Globs where
  valid : Text → Bool
  isMatch : Text → Text → Bool

/-- `PatternSet::is_match`: some pattern of the set matches. -/
def Globs.anyMatch (globs : Globs) (patterns : List Text) (name : Text) : Bool :=
  patterns.any fun pattern => globs.isMatch pattern name

structure TreeHashOptions where
  maximumFiles : Nat
  maximumFileBytes : Nat
  workers : Nat

inductive TreeHashError
  | needsWorker
  | rootNotDirectory
  | invalidPattern
  | pathNotUtf8
  | fileCountExceeded
  | fileTooLarge
deriving DecidableEq, Repr

/-- The components of a path below the root, joined with slashes. -/
def relativeName (path : List OsName) : Except TreeHashError Text :=
  match path.mapM OsName.toStr with
  | none => .error .pathNotUtf8
  | some parts => .ok (['/'].intercalate parts)

def wildcards : Text := ['*', '?', '[', '\x7b']

/-- `rfind('/')`. -/
def lastSlash : Text → Option Nat
  | [] => none
  | char :: rest =>
    match lastSlash rest with
    | some index => some (index + 1)
    | none => if char = '/' then some 0 else none

/-- The part of a pattern before its first wildcard. -/
def literalPart (pattern : Text) : Text := pattern.takeWhile fun char => char ∉ wildcards

/-- The directory every match of a pattern is in, if it has a literal one. -/
def includePrefix (pattern : Text) : Option Text :=
  if '\\' ∈ pattern then none
  else
    match lastSlash (literalPart pattern) with
    | none => none
    | some slash => if 0 < slash then some ((literalPart pattern).take slash) else none

def includePrefixes (included : List Text) : Option (List Text) :=
  if included.isEmpty then none else included.mapM includePrefix

/-- `strip_suffix("/**")`. -/
def stripSubtree (pattern : Text) : Option Text :=
  if ['/', '*', '*'].isSuffixOf pattern then some (pattern.take (pattern.length - 3)) else none

/-- A selection of files by include and exclude patterns. -/
structure Selection where
  globs : Globs
  included : List Text
  excluded : List Text

namespace Selection

variable (selection : Selection)

/-- The exclude patterns without a trailing `/**`. -/
def excludedDirs : List Text := selection.excluded.filterMap stripSubtree

/-- Whether a directory can hold a match of an include pattern, by their literal directories. -/
def withinPrefixes (relative : Text) : Bool :=
  match includePrefixes selection.included with
  | none => true
  | some literals => literals.any fun literal =>
    relative == literal || (literal ++ ['/']).isPrefixOf relative ||
      (relative ++ ['/']).isPrefixOf literal

/-- The prune predicate: whether a directory is read. -/
def keepDirectory (path : List OsName) : Bool :=
  match relativeName path with
  | .error _ => true
  | .ok relative =>
    !selection.globs.anyMatch selection.excluded relative &&
      !selection.globs.anyMatch selection.excludedDirs relative && selection.withinPrefixes relative

/-- Whether a file of this name is left out. -/
def skips (relative : Text) : Bool :=
  selection.globs.anyMatch selection.excluded relative ||
    (!selection.included.isEmpty && !selection.globs.anyMatch selection.included relative)

/-- The loop over the entries of the walk. -/
def collect (options : TreeHashOptions) :
    List (List OsName × Option Leaf) → List (Text × List UInt8) →
    Except TreeHashError (List (Text × List UInt8))
  | [], files => .ok files
  | (path, some (.file contents)) :: rest, files =>
    match relativeName path with
    | .error error => .error error
    | .ok relative =>
      if selection.skips relative then collect options rest files
      else if options.maximumFiles ≤ files.length then .error .fileCountExceeded
      else collect options rest (files ++ [(relative, contents)])
  | (_, _) :: rest, files => collect options rest files

/-- Whether every pattern compiles. -/
def compiles : Bool :=
  selection.included.all selection.globs.valid && selection.excluded.all selection.globs.valid &&
    selection.excludedDirs.all selection.globs.valid

/-- The files that are hashed, by name. -/
def hashedFiles (tree : DirectoryTree) (options : TreeHashOptions) :
    Except TreeHashError (List (Text × List UInt8)) :=
  if options.workers = 0 then .error .needsWorker
  else
    match tree with
    | .leaf _ => .error .rootNotDirectory
    | .branch children =>
      if !selection.compiles then .error .invalidPattern
      else
        (selection.collect options ((Tree.branch children).walk selection.keepDirectory []) []).map
          fun files => files.insertionSort fun first second => first.1 ≤ second.1

/-- The digest of a tree, from the digests of its files. -/
def blake3Tree (blake3 : List UInt8 → List UInt8) (tree : DirectoryTree)
    (options : TreeHashOptions) : Except TreeHashError (List UInt8) := do
  let files ← selection.hashedFiles tree options
  let digests ← files.mapM fun file =>
    if options.maximumFileBytes < file.2.length then .error .fileTooLarge else .ok (blake3 file.2)
  .ok (blake3 ("kernal-api-tree-v1\x00".toUTF8.toList ++
    ((files.zip digests).flatMap fun hashed =>
      leBytes 8 (Utf8.encode hashed.1.1).length ++ Utf8.encode hashed.1.1 ++ hashed.2) ++
    leBytes 8 files.length))

end Selection

end KernalApi.Hash
