import KernalApi.Archive.Stage
import KernalApi.Std.Resolution

/-!
# Resolving links before they exist

Links are resolved over a table while none is on disk. The table and the extracted
tree make up a virtual tree, in which a hard link is a link that starts at the
destination; resolution over the table is a walk of the operating system's kind in the
virtual tree, inside the destination.
-/

namespace KernalApi.Archive

open KernalApi.Std List
open KernalApi.Std.Resolution

variable {place : Place} {link : ArchiveLink} {name path : Text} {parts : List Text}

/-- How the system reads a piece of a path that is not empty. -/
def moveOf (part : Text) : Move Text :=
  if part = ['.'] then .stay else if part = ['.', '.'] then .up else .enter part

/-- How the system reads the pieces of a path. A slash at the end asks for a directory. -/
def moves : List Text → List (Move Text)
  | [] => []
  | part :: rest =>
    if part = [] then (if rest = [] then [.stay] else moves rest) else moveOf part :: moves rest

/-- How the system reads a link target. -/
def route (target : Text) : Route Text where
  start := if target.head? = some '/' then some [] else none
  moves := moves (target.splitOn '/')

def Node.entry : Node → Entry Text Nat
  | .directory => .directory
  | .file inode => .file inode
  | .symbolicLink target => .link (route target)

/-- The file system as the system's path resolution sees it. -/
def Host.look (host : Host) (place : Place) : Option (Entry Text Nat) :=
  (host.node place).map Node.entry

def ArchiveLink.route (root : Place) (link : ArchiveLink) : Route Text :=
  if link.hard then ⟨some root, (Archive.route link.target).moves⟩ else Archive.route link.target

/-- The extracted tree with the links of the table in it. -/
def virtual (host : Host) (root : Place) (links : SortedMap Place ArchiveLink) (place : Place) :
    Option (Entry Text Nat) :=
  match host.look place with
  | some entry => some entry
  | none =>
    if root.isPrefixOf place then (links.get? (place.drop root.length)).map fun link =>
      .link (link.route root)
    else none

/-- A tree and a table of links that fit together. -/
structure Linkable (host : Host) (root : Place) (links : SortedMap Place ArchiveLink) : Prop where
  sound : host.Sound
  dir : host.node root = some .directory
  real : ∀ place target, root <+: place → host.node place ≠ some (.symbolicLink target)
  plain : PlainLinks links
  fresh : ∀ place link, links.get? place = some link →
    host.node (root ++ place) = none ∧ host.node (root ++ place.dropLast) = some .directory

/-- A place below the root that no link stands in for. -/
structure Physical (host : Host) (root : Place) (links : SortedMap Place ArchiveLink)
    (place : Place) : Prop where
  plain : ∀ part ∈ place, Plain part
  parent : place = [] ∨ host.node (root ++ place.dropLast) = some .directory
  free : links.get? place = none

section Virtual

variable {host : Host} {root : Place} {links : SortedMap Place ArchiveLink}

theorem virtual_directory (dir : host.node place = some .directory) :
    virtual host root links place = some .directory := by
  simp [virtual, Host.look, dir, Node.entry]

theorem virtual_file {inode : Nat} (file : host.node place = some (.file inode)) :
    virtual host root links place = some (.file inode) := by
  simp [virtual, Host.look, file, Node.entry]

theorem virtual_absent (absent : host.node (root ++ place) = none) :
    virtual host root links (root ++ place) = (links.get? place).map fun link =>
      .link (link.route root) := by
  simp [virtual, Host.look, absent]

section

variable (linkable : Linkable host root links)

include linkable

theorem Linkable.virtual_link (found : links.get? place = some link) :
    virtual host root links (root ++ place) = some (.link (link.route root)) := by
  rw [virtual_absent (linkable.fresh place link found).1, found]
  rfl

/-- Only the table has links. -/
theorem Linkable.virtual_plain (free : links.get? place = none) (route : Route Text) :
    virtual host root links (root ++ place) ≠ some (.link route) := by
  cases found : host.node (root ++ place) with
  | none =>
    rw [virtual_absent found, free]
    simp
  | some node =>
    cases node with
    | directory =>
      rw [virtual_directory found]
      simp
    | file =>
      rw [virtual_file found]
      simp
    | symbolicLink target => exact absurd found (linkable.real _ target (prefix_append _ _))

theorem Linkable.free
    (dir : host.node (root ++ place) = some .directory) : links.get? place = none := by
  by_contra present
  obtain ⟨link, found⟩ := Option.ne_none_iff_exists'.mp present
  rw [(linkable.fresh place link found).1] at dir
  cases dir

/-- The directory of a directory below the root. -/
theorem Physical.dropLast (physical : Physical host root links place)
    (longer : place ≠ []) : Physical host root links place.dropLast := by
  have dir := physical.parent.resolve_left longer
  refine ⟨fun part member => physical.plain part (dropLast_subset _ member), ?_, linkable.free dir⟩
  by_cases empty : place.dropLast = []
  · exact .inl empty
  obtain ⟨front, last, whole⟩ := (eq_nil_or_concat' place.dropLast).resolve_left empty
  rw [whole, ← append_assoc] at dir
  rw [whole, dropLast_concat]
  exact .inr (linkable.sound.parent _ _ _ dir)

end

end Virtual

section Inversion

variable {host : Host} {root : Place} {links : SortedMap Place ArchiveLink}
  {follow : Text → Nat → Except Failure (Place × Nat)} {rest : List Component}
    {resolved final : Place}
  {steps left : Nat}

theorem metadataIsDir_true (checked : metadataIsDir host place = .ok true) :
    host.node place = some .directory := by
  unfold metadataIsDir at checked
  split at checked
  · cases checked
  rename_i node found
  simp only [Except.ok.injEq, decide_eq_true_eq] at checked
  rw [found, checked]

theorem resolveComponents_rootDir
    (done : resolveComponents host root links follow (.rootDir :: rest) resolved steps =
      .ok (final, left)) :
    False := by
  simp only [resolveComponents] at done
  split at done <;> cases done

theorem resolveComponents_parentDir
    (done : resolveComponents host root links follow (.parentDir :: rest) resolved steps =
      .ok (final, left)) :
    host.node (root ++ resolved) = some .directory ∧ resolved ≠ [] ∧
      resolveComponents host root links follow rest resolved.dropLast (steps - 1) =
        .ok (final, left) := by
  simp only [resolveComponents] at done
  split at done
  · cases done
  split at done
  · cases done
  · cases done
  rename_i checked
  split_ifs at done with longer
  exact ⟨metadataIsDir_true checked, longer, done⟩

theorem resolveComponents_normal
    (done : resolveComponents host root links follow (.normal name :: rest) resolved steps =
      .ok (final, left)) :
    host.node (root ++ resolved) = some .directory ∧
      ((links.get? (resolved ++ [name]) = none ∧
        resolveComponents host root links follow rest (resolved ++ [name]) (steps - 1) =
          .ok (final, left)) ∨
      ∃ link middle more, links.get? (resolved ++ [name]) = some link ∧
        follow (join (link.parent (resolved ++ [name])) link.target) (steps - 1) =
          .ok (middle, more) ∧
        resolveComponents host root links follow rest middle more = .ok (final, left)) := by
  simp only [resolveComponents] at done
  split_ifs at done
  split at done
  · cases done
  · cases done
  rename_i checked
  refine ⟨metadataIsDir_true checked, ?_⟩
  split at done
  · exact .inl ⟨‹_›, done⟩
  rename_i link found
  split at done
  · cases done
  rename_i middle more followed
  exact .inr ⟨link, middle, more, found, followed, done⟩

end Inversion

section Walk

variable {host : Host} {root : Place} {links : SortedMap Place ArchiveLink}

/-- The last piece is one that only a directory can be spelled with. -/
def Trailing (parts : List Text) : Prop := parts.getLast? = some [] ∨ parts.getLast? = some ['.']

theorem Trailing.cons {part : Text} {rest : List Text} (longer : rest ≠ []) :
    Trailing (part :: rest) ↔ Trailing rest := by
  unfold Trailing
  rw [getLast?_cons, getLast?_eq_some_getLast longer]
  rfl

/-- Pieces that are no components end a path where only a directory can be. -/
theorem trailing_of_idle (present : parts ≠ []) (idle : parts.filterMap segment = []) :
    Trailing parts := by
  have last := getLast_mem present
  have none := filterMap_eq_nil_iff.mp idle _ last
  unfold segment at none
  split at none
  · rename_i either
    unfold Trailing
    rw [getLast?_eq_some_getLast present]
    exact either.imp (congrArg some) (congrArg some)
  · split at none <;> cases none

variable {follow : Text → Nat → Except Failure (Place × Nat)}
  {resolved final : Place} {steps left : Nat}

/-- A path that goes on, or must end in a directory, is in a directory now. -/
theorem directory_of_rest
    (done : resolveComponents host root links follow (parts.filterMap segment) resolved steps =
      .ok (final, left))
    (ends : parts.filterMap segment = [] → host.node (root ++ final) = some .directory) :
    host.node (root ++ resolved) = some .directory := by
  cases found : parts.filterMap segment with
  | nil =>
    rw [found] at done
    cases done
    exact ends found
  | cons component rest =>
    rw [found] at done
    cases component with
    | normal => exact (resolveComponents_normal done).1
    | parentDir => exact (resolveComponents_parentDir done).1
    | rootDir => exact (resolveComponents_rootDir done).elim
    | curDir =>
      -- no piece of a path is read as the current directory
      have member : Component.curDir ∈ parts.filterMap segment := by simp [found]
      obtain ⟨part, _, same⟩ := mem_filterMap.mp member
      unfold segment at same
      split at same
      · cases same
      split at same <;> cases same

theorem moves_append {names : List Text} (plain : ∀ part ∈ names, Plain part) (rest : List Text) :
    moves (names ++ rest) = names.map .enter ++ moves rest := by
  induction names with
  | nil => rfl
  | cons name names ih =>
    obtain ⟨solid, notDot, notDots, _⟩ := plain name mem_cons_self
    have later := ih fun part member => plain part (mem_cons_of_mem _ member)
    simp only [cons_append, moves, if_neg solid, moveOf, if_neg notDot, if_neg notDots, later,
      map_cons]

/-- A walk along directories below the root. -/
theorem Linkable.descend (linkable : Linkable host root links)
    (dir : host.node (root ++ place) = some .directory) (rest : List (Move Text)) :
    Runs (virtual host root links) root ⟨root, place.map .enter ++ rest⟩ ⟨root ++ place, rest⟩ :=
  Runs.descend prefix_rfl (fun count _ => virtual_directory (linkable.sound.of_prefix dir (by
    rw [prefix_append_right_inj]
    exact take_prefix _ _))) rest

/-- A function that resolves paths as walks in the virtual tree do. -/
def Follows (host : Host) (root : Place) (links : SortedMap Place ArchiveLink)
    (follow : Text → Nat → Except Failure (Place × Nat)) : Prop :=
  ∀ path steps final left, follow path steps = .ok (final, left) →
    path.head? ≠ some '/' ∧ Physical host root links final ∧
      Runs (virtual host root links) root ⟨root, (route path).moves⟩ ⟨root ++ final, []⟩

/-- Entering a link of the table walks to where the nested call ends. -/
theorem Linkable.enter_link (linkable : Linkable host root links)
    (follows : Follows host root links follow) {middle : Place} {more : Nat}
    (physical : Physical host root links resolved)
    (dir : host.node (root ++ resolved) = some .directory)
    (found : links.get? (resolved ++ [name]) = some link)
    (followed : follow (join (link.parent (resolved ++ [name])) link.target) steps =
      .ok (middle, more))
    (rest : List (Move Text)) :
    Runs (virtual host root links) root ⟨root ++ resolved, .enter name :: rest⟩
      ⟨root ++ middle, rest⟩ := by
  obtain ⟨relative, _, walk⟩ := follows _ _ _ _ followed
  have place := linkable.virtual_link found
  rw [← append_assoc] at place
  have entered := step_follow (@virtual_directory _ host root links dir) place rest
  have below : root <+: root ++ resolved := prefix_append _ _
  cases hard : link.hard with
  | true =>
    have from_root : link.parent (resolved ++ [name]) = [] := by simp [ArchiveLink.parent, hard]
    have same : join [] link.target = link.target := by simp [join]
    rw [from_root, same] at walk
    simp only [ArchiveLink.route, hard] at entered
    exact .head ⟨entered, prefix_rfl⟩ (walk.append rest)
  | false =>
    have from_dir : link.parent (resolved ++ [name]) = resolved := by
      simp [ArchiveLink.parent, hard]
    rw [from_dir] at walk relative
    have target : link.target.head? ≠ some '/' := by
      intro absolute
      rw [join, if_pos (.inl absolute)] at relative
      exact relative absolute
    have spelled : (route (join resolved link.target)).moves
        = resolved.map .enter ++ (route link.target).moves := by
      simp only [route]
      rw [splitOn_join target physical.plain, moves_append physical.plain]
    rw [spelled] at walk
    have onward := Runs.onward walk (step_nil _) (linkable.descend dir _)
    have start : (link.route root).start.getD (root ++ resolved) = root ++ resolved := by
      simp [ArchiveLink.route, hard, Archive.route, target]
    have routed : (link.route root).moves = (route link.target).moves := by
      simp [ArchiveLink.route, hard]
    rw [start, routed] at entered
    exact .head ⟨entered, below⟩ (onward.append rest)

/-- The loop over the components of a path walks along its pieces. -/
theorem resolveComponents_runs (linkable : Linkable host root links)
    (follows : Follows host root links follow) (clean : ∀ part ∈ parts, '/' ∉ part)
    (physical : Physical host root links resolved)
    (done : resolveComponents host root links follow (parts.filterMap segment) resolved steps =
      .ok (final, left))
    (ends : Trailing parts → host.node (root ++ final) = some .directory) :
    Physical host root links final ∧
      Runs (virtual host root links) root ⟨root ++ resolved, moves parts⟩ ⟨root ++ final, []⟩ := by
  -- along the pieces; the place reached so far is physical
  induction parts generalizing resolved steps with
  | nil =>
    cases done
    exact ⟨physical, .refl⟩
  | cons part rest ih =>
    have below : root <+: root ++ resolved := prefix_append _ _
    have cleanRest : ∀ other ∈ rest, '/' ∉ other :=
      fun other member => clean other (mem_cons_of_mem _ member)
    have endsRest : Trailing rest → host.node (root ++ final) = some .directory := by
      intro trailing
      refine ends ((Trailing.cons ?_).mpr trailing)
      rintro rfl
      rcases trailing with none | none <;> cases none
    by_cases idle : part = [] ∨ part = ['.']
    · have skipped : (part :: rest).filterMap segment = rest.filterMap segment := by
        simp [segment, idle]
      rw [skipped] at done
      have onward := ih cleanRest physical done endsRest
      have dir : host.node (root ++ resolved) = some .directory := by
        refine directory_of_rest done fun none => ends ?_
        exact trailing_of_idle (cons_ne_nil _ _) (skipped.trans none)
      have stays : Within (virtual host root links) root ⟨root ++ resolved, .stay :: moves rest⟩
          ⟨root ++ resolved, moves rest⟩ := ⟨step_stay (virtual_directory dir) _, below⟩
      refine ⟨onward.1, ?_⟩
      rcases idle with rfl | rfl
      · by_cases past : rest = []
        · subst past
          exact .head stays onward.2
        · simpa [moves, past] using onward.2
      · exact .head stays onward.2
    · have solid : part ≠ [] := fun empty => idle (.inl empty)
      have notDot : part ≠ ['.'] := fun dot => idle (.inr dot)
      by_cases dots : part = ['.', '.']
      · subst dots
        obtain ⟨dir, longer, later⟩ := resolveComponents_parentDir done
        have onward := ih cleanRest (physical.dropLast linkable longer) later endsRest
        refine ⟨onward.1, .head ⟨step_up (virtual_directory dir) _, ?_⟩ ?_⟩
        · rw [dropLast_append_of_ne_nil longer]
          exact prefix_append _ _
        · rw [dropLast_append_of_ne_nil longer]
          exact onward.2
      · have named : (part :: rest).filterMap segment = .normal part :: rest.filterMap segment := by
          simp [segment, solid, notDot, dots]
        have moved : moves (part :: rest) = .enter part :: moves rest := by
          simp [moves, moveOf, solid, notDot, dots]
        rw [named] at done
        rw [moved]
        obtain ⟨dir, ⟨free, later⟩ | ⟨link, middle, more, found, followed, later⟩⟩ :=
          resolveComponents_normal done
        · have next : Physical host root links (resolved ++ [part]) := by
            refine ⟨fun other member => ?_, .inr (by simpa using dir), free⟩
            rcases mem_append.mp member with before | last
            · exact physical.plain other before
            · rw [mem_singleton.mp last]
              exact ⟨solid, notDot, dots, clean part mem_cons_self⟩
          have onward := ih cleanRest next later endsRest
          have plainPlace := linkable.virtual_plain free
          rw [← append_assoc] at plainPlace onward
          exact ⟨onward.1, .head ⟨step_enter (virtual_directory dir) plainPlace _,
            below.trans (prefix_append _ _)⟩ onward.2⟩
        · have onward := ih cleanRest (follows _ _ _ _ followed).2.1 later endsRest
          exact ⟨onward.1, (linkable.enter_link follows physical dir found followed _).trans
            onward.2⟩

/-- A path that ends in a slash, or a slash and a dot, is spelled as one of a directory. -/
theorem requiresDirectory_of_trailing (trailing : Trailing (path.splitOn '/'))
    {first second : Text} {rest : List Text}
    (several : path.splitOn '/' = first :: second :: rest) :
    requiresDirectory path = true := by
  have whole : path = ['/'].intercalate (path.splitOn '/') := (intercalate_splitOn '/').symm
  obtain ⟨front, last, split⟩ :=
    (eq_nil_or_concat' (path.splitOn '/')).resolve_left (splitOn_ne_nil _ _)
  have present : front ≠ [] := by
    rintro rfl
    rw [several] at split
    simp at split
  have spelled : path = ['/'].intercalate front ++ '/' :: last := by
    rw [whole, split]
    clear several whole split trailing
    induction front with
    | nil => exact absurd rfl present
    | cons part parts ih =>
      cases parts with
      | nil => simp
      | cons =>
        have later := ih (cons_ne_nil _ _)
        simp only [intercalate, cons_append, intersperse_cons_cons, flatten_cons] at later ⊢
        rw [later]
        simp
  rw [split] at trailing
  simp only [Trailing, getLast?_concat, Option.some.injEq] at trailing
  unfold requiresDirectory
  rw [Bool.or_eq_true, isSuffixOf_iff_suffix, isSuffixOf_iff_suffix, spelled]
  rcases trailing with rfl | rfl
  · exact .inl ⟨_, rfl⟩
  · exact .inr ⟨_, rfl⟩

theorem resolveLinkPath_succ {nesting : Nat}
    (done : resolveLinkPath host root links (nesting + 1) path steps = .ok (final, left)) :
    resolveComponents host root links (resolveLinkPath host root links nesting) (components path)
      [] steps = .ok (final, left) ∧
    (requiresDirectory path = true → host.node (root ++ final) = some .directory) := by
  simp only [resolveLinkPath] at done
  split at done
  · cases done
  rename_i resolved more looped
  split at done
  · split at done
    · cases done
    · cases done
    · rename_i checked
      cases done
      exact ⟨looped, fun _ => metadataIsDir_true checked⟩
  · rename_i free
    cases done
    exact ⟨looped, fun required => absurd required free⟩

/-- What is resolved over the table is where a walk in the virtual tree ends. -/
theorem Linkable.resolveLinkPath_follows (linkable : Linkable host root links) (nesting : Nat) :
    Follows host root links (resolveLinkPath host root links nesting) := by
  induction nesting with
  | zero =>
    intro path steps final left done
    cases done
  | succ nesting ih =>
    intro path steps final left done
    obtain ⟨looped, required⟩ := resolveLinkPath_succ done
    have relative : path.head? ≠ some '/' := by
      intro absolute
      rw [components, if_pos absolute] at looped
      exact resolveComponents_rootDir looped
    obtain ⟨less, walked⟩ : ∃ less, resolveComponents host root links
      (resolveLinkPath host root links nesting)
        ((path.splitOn '/').filterMap segment) [] less = .ok (final, left) := by
      rw [components, if_neg relative] at looped
      split at looped
      · simp only [resolveComponents] at looped
        split_ifs at looped
        exact ⟨_, looped⟩
      exact ⟨_, looped⟩
    have ends : Trailing (path.splitOn '/') → host.node (root ++ final) = some .directory := by
      intro trailing
      cases parts : path.splitOn '/' with
      | nil => exact absurd parts (splitOn_ne_nil _ _)
      | cons first rest =>
        cases rest with
        | nil =>
          -- a path of one piece that is no component stays at the root
          rw [parts] at trailing walked
          have idle : [first].filterMap segment = [] := by
            rcases trailing with empty | dot
            · cases Option.some.inj empty
              rfl
            · cases Option.some.inj dot
              rfl
          rw [idle] at walked
          cases walked
          simpa using linkable.dir
        | cons => exact required (requiresDirectory_of_trailing trailing parts)
    have runs := resolveComponents_runs linkable ih
      (fun part member => not_mem_of_mem_splitOn member)
      ⟨by simp, .inl rfl, linkable.free (by simpa using linkable.dir)⟩ walked ends
    rw [append_nil] at runs
    exact ⟨relative, runs.1, runs.2⟩

end Walk

end KernalApi.Archive

