import KernalApi.Hash.Tree

/-!
# Which files a fingerprint covers

The walk prunes directories by string tests while the selection is about files.
Below the root no pruned directory holds a selected file; the root itself is offered to
the same tests under the empty name, which they were not written for.
-/

namespace KernalApi.Hash

open KernalApi.Std List

variable {name literal dir : Text} {path : List OsName} {depth : Nat} {options : TreeHashOptions}
  {files : List (Text × List UInt8)} {leaf : List OsName × Leaf}

/-- A file with a matching name is in the literal directory of the pattern. -/
def Globs.Literal (globs : Globs) (name : Text) : Prop :=
  ∀ pattern, '\\' ∉ pattern → ∀ slash, 0 < slash → (literalPart pattern)[slash]? = some '/' →
    globs.isMatch pattern name = true → pattern.take (slash + 1) <+: name

theorem lastSlash_spec {text : Text} {slash : Nat} (found : lastSlash text = some slash) :
    text[slash]? = some '/' := by
  induction text generalizing slash with
  | nil => cases found
  | cons char rest ih =>
    simp only [lastSlash] at found
    cases later : lastSlash rest with
    | some =>
      simp only [later, Option.some.injEq] at found
      subst found
      exact ih later
    | none =>
      simp only [later] at found
      split at found
      · rename_i here
        cases found
        simp [here]
      cases found

/-- A file that matches a pattern is below the pattern's literal directory. -/
theorem includePrefix_spec {globs : Globs} {pattern : Text} (law : globs.Literal name)
    (found : includePrefix pattern = some literal) (hit : globs.isMatch pattern name = true) :
    literal ++ ['/'] <+: name := by
  unfold includePrefix at found
  split_ifs at found with unescaped
  split at found
  · cases found
  rename_i slash last
  split at found
  · rename_i positive
    cases found
    have here := lastSlash_spec last
    have inside := (List.getElem?_eq_some_iff.mp here).1
    have cut : (literalPart pattern).take slash ++ ['/'] =
        (literalPart pattern).take (slash + 1) := by
      rw [take_add_one, here]
      rfl
    have same : pattern.take (slash + 1) = (literalPart pattern).take (slash + 1) := by
      obtain ⟨rest, whole⟩ : literalPart pattern <+: pattern := takeWhile_prefix _
      conv_lhs => rw [← whole]
      exact take_append_of_le_length inside
    rw [cut, ← same]
    exact law pattern unescaped slash positive here hit
  · cases found

/-- Every element of a list that is mapped throughout has its image in the result. -/
theorem mapM_some_mem {α β : Type} {image : α → Option β} {items : List α} {images : List β}
    (mapped : items.mapM image = some images) {item : α} (member : item ∈ items) :
    ∃ value ∈ images, image item = some value := by
  induction items generalizing images with
  | nil => cases member
  | cons first rest ih =>
    simp only [mapM_cons, Option.pure_def, Option.bind_eq_bind, Option.bind_eq_some_iff,
      Option.some.injEq] at mapped
    obtain ⟨value, firstImage, values, restImages, rfl⟩ := mapped
    rcases mem_cons.mp member with rfl | later
    · exact ⟨value, mem_cons_self, firstImage⟩
    · obtain ⟨other, otherMember, otherImage⟩ := ih restImages later
      exact ⟨other, mem_cons_of_mem _ otherMember, otherImage⟩

/-- A path has a name exactly when all its components are text. -/
theorem mapM_toStr {parts : List Text} :
    path.mapM OsName.toStr = some parts ↔ path = parts.map .utf8 := by
  induction path generalizing parts with
  | nil => cases parts <;> simp
  | cons first rest ih =>
    cases first with
    | raw bytes => cases parts <;> simp [OsName.toStr]
    | utf8 text =>
      cases parts with
      | nil =>
        simp only [mapM_cons, Option.pure_def, Option.bind_eq_bind, Option.bind_eq_some_iff,
          map_nil, reduceCtorEq, and_false, exists_false, Option.some.injEq]
      | cons part parts =>
        simp only [mapM_cons, OsName.toStr, Option.pure_def, Option.bind_eq_bind, Option.bind_some,
          Option.bind_eq_some_iff, Option.some.injEq, cons.injEq, map_cons, OsName.utf8.injEq]
        constructor
        · rintro ⟨names, found, rfl, rfl⟩
          exact ⟨rfl, ih.mp found⟩
        · rintro ⟨rfl, same⟩
          exact ⟨parts, ih.mpr same, rfl, rfl⟩

theorem relativeName_ok :
    relativeName path = .ok name ↔ ∃ parts : List Text, path = parts.map .utf8 ∧
      name = ['/'].intercalate parts := by
  unfold relativeName
  cases found : path.mapM OsName.toStr with
  | none =>
    constructor
    · intro impossible
      cases impossible
    · rintro ⟨parts, same, _⟩
      cases (mapM_toStr.mpr same).symm.trans found
  | some parts =>
    constructor
    · intro same
      cases same
      exact ⟨parts, mapM_toStr.mp found, rfl⟩
    · rintro ⟨others, same, rfl⟩
      cases (mapM_toStr.mpr same).symm.trans found
      rfl

/-- The name of a nonempty beginning of a path, and a slash, begin its name. -/
theorem intercalate_prefix {front back : List Text} (some : front ≠ []) (more : back ≠ []) :
    ['/'].intercalate front ++ ['/'] <+: ['/'].intercalate (front ++ back) := by
  induction front with
  | nil => exact absurd rfl some
  | cons first rest ih =>
    cases rest with
    | nil =>
      cases back with
      | nil => exact absurd rfl more
      | cons next others => exact ⟨['/'].intercalate (next :: others), by simp⟩
    | cons =>
      obtain ⟨tail, whole⟩ := ih (cons_ne_nil _ _)
      refine ⟨tail, ?_⟩
      simp only [intercalate, cons_append, intersperse_cons_cons, flatten_cons,
        append_assoc] at whole ⊢
      rw [whole]

/-- A directory on the way to a file is text where the file's path is, and its name and a slash
begin the file's. -/
theorem relativeName_take (named : relativeName path = .ok name)
    (deep : 0 < depth) (inside : depth < path.length) :
    ∃ dir, relativeName (path.take depth) = .ok dir ∧ dir ++ ['/'] <+: name := by
  obtain ⟨parts, rfl, rfl⟩ := relativeName_ok.mp named
  rw [length_map] at inside
  refine ⟨['/'].intercalate (parts.take depth),
    relativeName_ok.mpr ⟨parts.take depth, by simp, rfl⟩, ?_⟩
  have some : parts.take depth ≠ [] := ne_nil_of_length_pos (by rw [length_take]; omega)
  have more : parts.drop depth ≠ [] := ne_nil_of_length_pos (by rw [length_drop]; omega)
  have split := intercalate_prefix some more
  rwa [take_append_drop] at split

/-- Two directories on the way to one file are one, or one is in the other. -/
theorem nested_of_common (first : dir ++ ['/'] <+: name) (second : literal ++ ['/'] <+: name) :
    dir = literal ∨ literal ++ ['/'] <+: dir ∨ dir ++ ['/'] <+: literal := by
  have dirPart : dir <+: name := (prefix_append dir ['/']).trans first
  have literalPart : literal <+: name := (prefix_append literal ['/']).trans second
  rcases Nat.lt_trichotomy dir.length literal.length with shorter | same | longer
  · exact .inr (.inr (prefix_of_prefix_length_le first literalPart
      (by rw [length_append]; exact shorter)))
  · exact .inl ((prefix_of_prefix_length_le dirPart literalPart (Nat.le_of_eq same)).eq_of_length
      same)
  · exact .inr (.inl (prefix_of_prefix_length_le second dirPart
      (by rw [length_append]; exact longer)))

namespace Selection

variable {selection : Selection}

/-- A directory on the way to a matching file passes the test of the include patterns'
directories. -/
theorem withinPrefixes_of_match (law : selection.globs.Literal name)
    (wanted : selection.included.isEmpty = true ∨
      selection.globs.anyMatch selection.included name = true)
    (above : dir ++ ['/'] <+: name) : selection.withinPrefixes dir = true := by
  unfold withinPrefixes
  split
  · rfl
  rename_i literals found
  unfold includePrefixes at found
  split_ifs at found with some
  obtain ⟨pattern, member, hit⟩ := any_eq_true.mp (wanted.resolve_left some)
  obtain ⟨literal, literalMember, literalOf⟩ := mapM_some_mem found member
  refine any_eq_true.mpr ⟨literal, literalMember, ?_⟩
  simp only [Bool.or_eq_true, beq_iff_eq, isPrefixOf_iff_prefix, or_assoc]
  exact nested_of_common above (includePrefix_spec law literalOf hit)

/-- A directory is excluded, by itself or with its subtree. -/
def bars (selection : Selection) (path : List OsName) : Bool :=
  match relativeName path with
  | .error _ => false
  | .ok dir =>
    selection.globs.anyMatch selection.excluded dir ||
      selection.globs.anyMatch selection.excludedDirs dir

/-- What a fingerprint is for: a file is selected when its name is included and not excluded, and no
directory above it, below the root, is excluded. -/
def selects (selection : Selection) (path : List OsName) (name : Text) : Bool :=
  (selection.included.isEmpty || selection.globs.anyMatch selection.included name) &&
    !selection.globs.anyMatch selection.excluded name &&
    (List.range path.length).all fun depth => depth == 0 || !selection.bars (path.take depth)

/-- A selected regular file with its name. -/
def selected (selection : Selection) (leaf : List OsName × Leaf) : Option (Text × List UInt8) :=
  match leaf.2, relativeName leaf.1 with
  | .file contents, .ok name =>
    if selection.selects leaf.1 name then some (name, contents) else none
  | _, _ => none

/-- The files a fingerprint should cover. -/
def selectedFiles (selection : Selection) (tree : DirectoryTree) : List (Text × List UInt8) :=
  tree.leaves.filterMap selection.selected

/-- A regular file the loop takes up. -/
def taken (selection : Selection) (leaf : List OsName × Leaf) : Option (Text × List UInt8) :=
  match leaf.2, relativeName leaf.1 with
  | .file contents, .ok name => if selection.skips name then none else some (name, contents)
  | _, _ => none

/-- The loop collects the files it takes up, in the order of the walk. -/
theorem collect_ok {entries : List (List OsName × Option Leaf)}
    {result : List (Text × List UInt8)}
    (collected : selection.collect options entries files = .ok result) :
    result = files ++ (Tree.reached entries).filterMap selection.taken := by
  induction entries generalizing files with
  | nil =>
    cases collected
    simp [Tree.reached]
  | cons entry rest ih =>
    obtain ⟨path, value⟩ := entry
    cases value with
    | none => exact ih collected
    | some leaf =>
      have step : Tree.reached ((path, some leaf) :: rest) = (path, leaf) :: Tree.reached rest :=
        rfl
      rw [step, filterMap_cons]
      cases leaf with
      | symbolicLink | other => exact ih collected
      | file contents =>
        simp only [collect] at collected
        cases named : relativeName path with
        | error error =>
          rw [named] at collected
          cases collected
        | ok name =>
          simp only [named] at collected
          by_cases skipped : selection.skips name = true
          · rw [if_pos skipped] at collected
            simp only [taken, named, if_pos skipped]
            exact ih collected
          rw [if_neg skipped] at collected
          split_ifs at collected
          simp only [taken, named, if_neg skipped]
          rw [ih collected, append_assoc]
          rfl

theorem keeps_iff {keep : List OsName → Bool} {rest : List OsName} :
    Tree.keeps keep path rest = true ↔ ∀ depth < rest.length,
      keep (path ++ rest.take depth) = true := by
  induction rest generalizing path with
  | nil => simp [Tree.keeps]
  | cons name rest ih =>
    simp only [Tree.keeps, Bool.and_eq_true, ih]
    constructor
    · rintro ⟨here, deeper⟩ depth bound
      cases depth with
      | zero => simpa using here
      | succ depth => simpa using deeper depth (Nat.lt_of_succ_lt_succ bound)
    · intro every
      refine ⟨by simpa using every 0 (Nat.succ_pos _), ?_⟩
      intro depth bound
      simpa using every (depth + 1) (Nat.succ_lt_succ bound)

theorem skips_eq_false :
    selection.skips name = false ↔
      (selection.included.isEmpty = true ∨ selection.globs.anyMatch selection.included name =
        true) ∧ selection.globs.anyMatch selection.excluded name = false := by
  unfold skips
  cases selection.included.isEmpty <;> cases selection.globs.anyMatch selection.included name <;>
    cases selection.globs.anyMatch selection.excluded name <;> simp

/-- Below the root, a directory on the way to a file the loop would take up is pruned only when it
is excluded. -/
theorem keepDirectory_eq (law : selection.globs.Literal name)
    (named : relativeName path = .ok name) (wanted : selection.skips name = false)
    (deep : 0 < depth)
    (inside : depth < path.length) :
    selection.keepDirectory (path.take depth) = !selection.bars (path.take depth) := by
  obtain ⟨dir, dirNamed, above⟩ := relativeName_take named deep inside
  simp only [keepDirectory, bars, dirNamed, Bool.not_or,
    withinPrefixes_of_match law (skips_eq_false.mp wanted).1 above, Bool.and_true]

/-- With the root kept, a file is reached and taken up exactly when it is selected. -/
theorem taken_eq_selected (kept : selection.keepDirectory [] = true)
    (law : ∀ contents name, leaf.2 = .file contents → relativeName leaf.1 = .ok name →
      selection.globs.Literal name) :
    (if Tree.keeps selection.keepDirectory [] leaf.1 then selection.taken leaf else none)
      = selection.selected leaf := by
  obtain ⟨path, value⟩ := leaf
  cases value with
  | symbolicLink | other => simp [taken, selected]
  | file contents =>
    cases named : relativeName path with
    | error => simp [taken, selected, named]
    | ok name =>
      have literal := law contents name rfl named
      simp only [taken, selected, named]
      cases wanted : selection.skips name with
      | true =>
        have unselected : selection.selects path name = false := by
          by_contra chosen
          simp only [Bool.not_eq_false, selects, Bool.and_eq_true, Bool.or_eq_true,
            Bool.not_eq_true'] at chosen
          rw [skips_eq_false.mpr ⟨chosen.1.1, chosen.1.2⟩] at wanted
          cases wanted
        simp [unselected]
      | false =>
        obtain ⟨included, admitted⟩ := skips_eq_false.mp wanted
        have same : Tree.keeps selection.keepDirectory [] path = selection.selects path name := by
          rw [Bool.eq_iff_iff, keeps_iff]
          simp only [selects, Bool.and_eq_true, Bool.or_eq_true, Bool.not_eq_true', included,
            admitted, all_eq_true, List.mem_range, true_and, nil_append]
          refine forall_congr' fun depth => forall_congr' fun inside => ?_
          cases depth with
          | zero => simp [kept]
          | succ =>
            rw [keepDirectory_eq literal named wanted (Nat.succ_pos _) inside]
            simp
        rw [same]
        simp

/-- A call that succeeds has collected what the walk reached. -/
theorem hashedFiles_ok {tree : DirectoryTree}
    (succeeded : selection.hashedFiles tree options = .ok files) :
    ∃ children, tree = .branch children ∧
      files.Perm ((Tree.arrived selection.keepDirectory [] tree.leaves).filterMap
        selection.taken) := by
  unfold hashedFiles at succeeded
  split at succeeded
  · cases succeeded
  cases tree with
  | leaf value => cases succeeded
  | branch children =>
    refine ⟨children, rfl, ?_⟩
    simp only at succeeded
    split_ifs at succeeded
    cases collected : selection.collect options
        ((Tree.branch children).walk selection.keepDirectory []) [] with
    | error error =>
      rw [collected] at succeeded
      cases succeeded
    | ok result =>
      rw [collected] at succeeded
      cases succeeded
      refine (perm_insertionSort _ _).trans ?_
      rw [collect_ok collected, nil_append, Tree.reached_walk]

/-- The files hashed are the selected ones exactly when the prune predicate keeps the root, or there
is nothing to select; below the root it takes no selected file away. -/
theorem hashedFiles_perm_iff (selection : Selection) (tree : DirectoryTree)
    (options : TreeHashOptions)
    (law : ∀ leaf ∈ tree.leaves, ∀ contents name, leaf.2 = .file contents →
      relativeName leaf.1 = .ok name → selection.globs.Literal name)
    (succeeded : selection.hashedFiles tree options = .ok files) :
    (files.Perm (selection.selectedFiles tree) ↔
      selection.keepDirectory [] = true ∨ selection.selectedFiles tree = []) ∧
    ∀ leaf ∈ tree.leaves, ∀ file, selection.selected leaf = some file →
      ∀ depth, 0 < depth → depth < leaf.1.length → selection.keepDirectory (leaf.1.take depth) =
        true := by
  constructor
  rotate_left
  · intro leaf member file chosen depth deep inside
    unfold selected at chosen
    split at chosen
    · rename_i contents name isFile named
      split at chosen
      · rename_i selects
        simp only [Selection.selects, Bool.and_eq_true, Bool.or_eq_true, Bool.not_eq_true',
          all_eq_true, List.mem_range, beq_iff_eq] at selects
        have wanted := skips_eq_false.mpr ⟨selects.1.1, selects.1.2⟩
        rw [keepDirectory_eq (law leaf member contents name isFile named) named wanted deep inside]
        have unbarred := (selects.2 depth inside).resolve_left (Nat.ne_of_gt deep)
        simpa using unbarred
      · cases chosen
    · cases chosen
  obtain ⟨children, rfl, collected⟩ := hashedFiles_ok succeeded
  by_cases kept : selection.keepDirectory [] = true
  · refine ⟨fun _ => .inl kept, fun _ => collected.trans (List.Perm.of_eq ?_)⟩
    have arrived : Tree.arrived selection.keepDirectory [] (Tree.branch children).leaves
        = (Tree.branch children).leaves.filter fun leaf =>
          Tree.keeps selection.keepDirectory [] leaf.1 := by
      simp [Tree.arrived]
    rw [arrived, filterMap_filter]
    exact filterMap_congr fun leaf member => taken_eq_selected kept (law leaf member)
  · have nothing : files = [] := by
      have refused : selection.keepDirectory [] = false := by simpa using kept
      rw [Tree.leaves, Tree.arrived_leavesBelow_refused _ _ children refused] at collected
      exact perm_nil.mp collected
    constructor
    · intro same
      rw [nothing] at same
      exact .inr (nil_perm.mp same)
    · rintro (root | empty)
      · exact absurd root kept
      · rw [nothing, empty]

end Selection

/-- Patterns without wildcards. -/
def exactGlobs : Globs where
  valid _ := true
  isMatch pattern name := pattern == name

theorem exactGlobs_literal (name : Text) : exactGlobs.Literal name := by
  intro pattern _ slash _ _ hit
  rw [← beq_iff_eq.mp hit]
  exact take_prefix _ _

def sourceName : Text := ['s', 'r', 'c', '/', 'a', '.', 'c']

/-- A tree with `b.h` and `src/a.c`. -/
def sourceTree : DirectoryTree :=
  .branch [
    (.utf8 ['b', '.', 'h'], .leaf (.file [2])),
    (.utf8 ['s', 'r', 'c'], .branch [(.utf8 ['a', '.', 'c'], .leaf (.file [1]))])]

def sourceOptions : TreeHashOptions where
  maximumFiles := 8
  maximumFileBytes := 8
  workers := 1

theorem hashedFiles_perm_header :
    (Selection.mk exactGlobs [['b', '.', 'h']] [['s', 'r', 'c', '/', '*', '*']]).hashedFiles
      sourceTree sourceOptions = .ok [(['b', '.', 'h'], [2])] ∧
    [(['b', '.', 'h'], [(2 : UInt8)])].Perm
      ((Selection.mk exactGlobs [['b', '.', 'h']] [['s', 'r', 'c', '/', '*', '*']]).selectedFiles
        sourceTree) :=
  ⟨rfl, (Selection.hashedFiles_perm_iff
    (Selection.mk exactGlobs [['b', '.', 'h']] [['s', 'r', 'c', '/', '*', '*']])
    sourceTree sourceOptions (fun _ _ _ name _ _ => exactGlobs_literal name) rfl).1.mpr (.inl rfl)⟩

/-- An include list of one file in a directory: the prune predicate refuses the root, and the
fingerprint is that of an empty tree. -/
theorem hashedFiles_root_refused :
    (∀ name, exactGlobs.Literal name) ∧
    (Selection.mk exactGlobs [sourceName] []).hashedFiles sourceTree sourceOptions = .ok [] ∧
    (Selection.mk exactGlobs [sourceName] []).selectedFiles sourceTree = [(sourceName, [1])] ∧
    ∀ blake3, (Selection.mk exactGlobs [sourceName] []).blake3Tree blake3 sourceTree sourceOptions
      = (Selection.mk exactGlobs [sourceName] []).blake3Tree blake3 (.branch []) sourceOptions :=
  ⟨exactGlobs_literal, rfl, rfl, fun _ => rfl⟩

end KernalApi.Hash
