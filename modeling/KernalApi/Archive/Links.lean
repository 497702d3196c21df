import KernalApi.Archive.Host
import KernalApi.Std.SortedMap
import Mathlib.Data.Char
import Mathlib.Data.List.Lex

/-!
# Links of an archive

Links are collected while the other entries are extracted. Before any is placed on
disk, each is resolved over the collected ones and the extracted tree; then all are
installed.
-/

namespace KernalApi.Archive

open KernalApi.Std

structure ArchiveLink where
  target : Text
  hard : Bool

inductive DanglingLinks
  | reject
  | preserveMissingLeaf
deriving DecidableEq

section Resolve

variable (host : Host) (root : Place) (links : SortedMap Place ArchiveLink)

/-- `fs::metadata(..)?.is_dir()`. -/
def metadataIsDir (place : Place) : Except Failure Bool :=
  match host.node place with
  | none => .error (.io .notFound)
  | some node => .ok (node = .directory)

/-- Where the path of a link starts: a hard link's at the destination, a symbolic link's in its
directory. -/
def ArchiveLink.parent (link : ArchiveLink) (resolved : Place) : Place :=
  if link.hard then [] else resolved.dropLast

/-- The loop over the components of a path. -/
def resolveComponents (follow : Text → Nat → Except Failure (Place × Nat)) :
    List Component → Place → Nat → Except Failure (Place × Nat)
  | [], resolved, steps => .ok (resolved, steps)
  | component :: rest, resolved, steps =>
    if steps = 0 then .error (.invalid "archive link work limit exceeded")
    else
      match component with
      | .curDir => resolveComponents follow rest resolved (steps - 1)
      | .rootDir => .error (.invalid "absolute archive link target")
      | .parentDir =>
        match metadataIsDir host (root ++ resolved) with
        | .error failure => .error failure
        | .ok false => .error (.invalid "archive link traverses a non-directory")
        | .ok true =>
          if resolved = [] then .error (.invalid "archive link escapes destination")
          else resolveComponents follow rest resolved.dropLast (steps - 1)
      | .normal name =>
        match metadataIsDir host (root ++ resolved) with
        | .error failure => .error failure
        | .ok false => .error (.invalid "archive link traverses a non-directory")
        | .ok true =>
          match links.get? (resolved ++ [name]) with
          | none => resolveComponents follow rest (resolved ++ [name]) (steps - 1)
          | some link =>
            match follow (join (link.parent (resolved ++ [name])) link.target) (steps - 1) with
            | .error failure => .error failure
            | .ok (resolved, steps) => resolveComponents follow rest resolved steps

/-- Resolves a path with the links expanded. The first argument is how many calls may still nest:
the source counts the depth up and refuses it above 64. -/
def resolveLinkPath : Nat → Text → Nat → Except Failure (Place × Nat)
  | 0, _, _ => .error (.invalid "archive link cycle or excessive depth")
  | nesting + 1, path, steps =>
    match resolveComponents host root links (resolveLinkPath nesting) (components path)
      [] steps with
    | .error failure => .error failure
    | .ok (resolved, steps) =>
      if requiresDirectory path then
        match metadataIsDir host (root ++ resolved) with
        | .error failure => .error failure
        | .ok false => .error (.invalid "archive link requires a directory target")
        | .ok true => .ok (resolved, steps)
      else .ok (resolved, steps)

/-- Nested calls allowed to a call of depth 0. -/
def linkNesting : Nat := 65

/-- A link that may be installed, and the place it resolves to. -/
structure Validated where
  output : Place
  link : ArchiveLink
  canonical : Place

def validateLink (danglingLinks : DanglingLinks) (path : Place) (link : ArchiveLink) (steps : Nat) :
    Except Failure (Validated × Nat) :=
  match host.node (root ++ path) with
  | some _ => .error (.invalid "archive link collides with another entry")
  | none =>
    match resolveLinkPath host root links linkNesting (Place.text path) steps with
    | .error failure => .error failure
    | .ok (resolved, steps) =>
      match host.node (root ++ resolved) with
      | none =>
        if link.hard = false ∧ danglingLinks = .preserveMissingLeaf then
          .ok (⟨root ++ path, link, root ++ resolved⟩, steps)
        else .error (.io .notFound)
      | some (.file _) => .ok (⟨root ++ path, link, root ++ resolved⟩, steps)
      | some _ =>
        if link.hard then .error (.invalid "hardlink target is not a regular file")
        else .ok (⟨root ++ path, link, root ++ resolved⟩, steps)

def validateLinks (danglingLinks : DanglingLinks) :
    List (Place × ArchiveLink) → Nat → Except Failure (List Validated)
  | [], _ => .ok []
  | (path, link) :: rest, steps =>
    match validateLink host root links danglingLinks path link steps with
    | .error failure => .error failure
    | .ok (validated, steps) => (validateLinks danglingLinks rest steps).map (validated :: ·)

end Resolve

/-- Makes the directories links are placed in. -/
def createParents (root : Place) : List (Place × ArchiveLink) → Host → Outcome Host :=
  tryForEach fun (path, _) host => host.createDirAll [] (root ++ path).dropLast

/-- Places one link. -/
def placeLink (validated : Validated) (host : Host) : Except IoKind Host :=
  if validated.link.hard then
    match host.node validated.canonical with
    | some (.file inode) => host.create validated.output (.file inode)
    | _ => .error .notFound
  else host.create validated.output (.symbolicLink validated.link.target)

def placeLinks : List Validated → Host → Outcome Host :=
  tryForEach fun validated host =>
    match placeLink validated host with
    | .error kind => (host, some (.io kind))
    | .ok host => (host, none)

/-- Makes the directories of all links, resolves all links, and only then places them. -/
def installLinks (root : Place) (links : SortedMap Place ArchiveLink) (steps : Nat)
    (danglingLinks : DanglingLinks) (host : Host) : Outcome Host :=
  match createParents root links.entries host with
  | (host, some failure) => (host, some failure)
  | (host, none) =>
    match validateLinks host root links danglingLinks links.entries steps with
    | .error failure => (host, some failure)
    | .ok validated => placeLinks validated host

end KernalApi.Archive
