import KernalApi.Archive.Tar

/-!
# The tree before the links

While entries are extracted the destination holds directories and new files only, and
nothing outside of it changes. Links are kept under places of plain names.
-/

namespace KernalApi.Archive

open KernalApi.Std List Host

/-- What an extraction from `start` may have built: directories and new files below `root`. -/
structure Staged (start : Host) (root : Place) (host : Host) : Prop where
  sound : host.Sound
  dir : host.node root = some .directory
  outside : ∀ place, ¬ root <+: place → host.node place = start.node place
  real : ∀ place node, root <+: place → host.node place = some node →
    node = .directory ∨ ∃ inode, start.files.length ≤ inode ∧ node = .file inode
  old : start.files.length ≤ host.files.length

/-- The directories above a node. -/
theorem Host.Sound.above {host : Host} (sound : host.Sound) {place rest : Place} {node : Node}
    (found : host.node (place ++ rest) = some node) (longer : rest ≠ []) :
    host.node place = some .directory := by
  induction rest using reverseRecOn generalizing node with
  | nil => exact absurd rfl longer
  | append_singleton front name ih =>
    rw [← append_assoc] at found
    have parent := sound.parent _ _ _ found
    by_cases empty : front = []
    · simpa [empty] using parent
    · exact ih parent empty

theorem Host.Sound.of_prefix {host : Host} (sound : host.Sound) {place longer : Place}
    (dir : host.node longer = some .directory) (inside : place <+: longer) :
    host.node place = some .directory := by
  obtain ⟨rest, rfl⟩ := inside
  by_cases empty : rest = []
  · simpa [empty] using dir
  · exact sound.above dir empty

theorem Host.Sound.congr {host after : Host} (sound : host.Sound) (nodes : after.nodes = host.nodes)
    (more : host.files.length ≤ after.files.length) : after.Sound := by
  have same (place : Place) : after.node place = host.node place := by simp only [node, nodes]
  refine ⟨(same _).trans sound.top, fun place name node found => ?_, fun place inode found => ?_⟩
  · rw [same] at found ⊢
    exact sound.parent _ _ _ found
  · rw [same] at found
    exact Nat.lt_of_lt_of_le (sound.inode _ _ found) more

section Staging

variable {start : Host} {root : Place} {host : Host}

theorem Staged.createDirAll (staged : Staged start root host) (relative : Place) :
    Staged start root (host.createDirAll [] (root ++ relative)).1 where
  sound := createDirAll_sound staged.sound staged.sound.top _
  dir := by
    rcases createDirAll_node host [] (root ++ relative) root with same | ⟨absent, _⟩
    · rw [same, staged.dir]
    · rw [staged.dir] at absent
      cases absent
  outside place away := by
    rcases createDirAll_node host [] (root ++ relative) place with same | ⟨absent, _, _, inside⟩
    · rw [same, staged.outside place away]
    -- a place on the way that is not below the root is above it, and was a directory already
    rcases prefix_or_prefix_of_prefix inside (prefix_append root relative) with above | below
    · rw [staged.sound.of_prefix staged.dir above] at absent
      cases absent
    · exact absurd below away
  real place node inside found := by
    rcases createDirAll_node host [] (root ++ relative) place with same | ⟨_, made, _⟩
    · exact staged.real place node inside (same ▸ found)
    · rw [made] at found
      cases found
      exact .inl rfl
  old := by simpa using staged.old

/-- A new node in a directory below the root. -/
theorem Staged.add (staged : Staged start root host) {relative : Place} {name : Text}
    (dir : host.node (root ++ relative) = some .directory) {inode : Nat}
    (fresh : start.files.length ≤ inode)
    (numbered : inode < host.files.length)
    (absent : host.node (root ++ relative ++ [name]) = none) :
    Staged start root (host.add (root ++ relative ++ [name]) (.file inode)) where
  sound := staged.sound.add_child dir absent (by rintro _ ⟨⟩; exact numbered)
  dir := by
    rw [node_add, if_neg, staged.dir]
    intro same
    have lengths := congrArg length same
    simp only [length_append, length_singleton] at lengths
    omega
  outside place away := by
    rw [node_add, if_neg, staged.outside place away]
    rintro rfl
    exact away ((prefix_append root relative).trans (prefix_append _ _))
  real place node inside found := by
    rw [node_add] at found
    split at found
    · cases found
      exact .inr ⟨inode, fresh, rfl⟩
    exact staged.real place node inside found
  old := staged.old

theorem Staged.congr {after : Host} (staged : Staged start root host)
    (nodes : after.nodes = host.nodes)
    (more : host.files.length ≤ after.files.length) : Staged start root after := by
  have same (place : Place) : after.node place = host.node place := by simp only [node, nodes]
  refine ⟨staged.sound.congr nodes more, (same _).trans staged.dir, fun place away => ?_,
    fun place node inside => ?_, staged.old.trans more⟩
  · rw [same, staged.outside place away]
  · rw [same]
    exact staged.real place node inside

end Staging

/-- The destination is staged when it has been prepared, and only directories on the way to it were
made. -/
theorem prepareDestination_ok {host prepared : Host} (sound : host.Sound) {dest : Place}
    (done : host.prepareDestination dest = (prepared, none)) :
    Staged prepared dest prepared ∧ prepared.files = host.files ∧
      ∀ place, prepared.node place = host.node place ∨
        (host.node place = none ∧ prepared.node place = some .directory ∧ place <+: dest) := by
  unfold prepareDestination at done
  split at done
  · rename_i dir
    split at done
    · rename_i empty
      cases done
      refine ⟨⟨sound, dir, fun _ _ => rfl, fun place node inside found => ?_, Nat.le_refl _⟩, rfl,
        fun _ => .inl rfl⟩
      obtain ⟨rest, rfl⟩ := inside
      cases rest with
      | nil =>
        rw [append_nil, dir] at found
        cases found
        exact .inl rfl
      | cons name rest =>
        have absent : host.node (dest ++ [name]) = none := by
          by_contra present
          obtain ⟨other, there⟩ := Option.ne_none_iff_exists'.mp present
          obtain ⟨before, after, entries, _⟩ := lookup_eq_some_iff.mp there
          have member : (dest ++ [name], other) ∈ host.nodes := by simp [entries]
          have outside := all_eq_true.mp empty _ member
          have below : dest.isPrefixOf (dest ++ [name]) = true :=
            isPrefixOf_iff_prefix.mpr (prefix_append _ _)
          simp [below] at outside
        have none := sound.absent absent rest
        rw [append_assoc, singleton_append] at none
        rw [none] at found
        cases found
    · cases done
  · cases done
  · rename_i absent
    have made : (host.createDirAll [] dest).1 = prepared := by rw [done]
    have succeeded : (host.createDirAll [] dest).2 = none := by rw [done]
    have dir := createDirAll_dirs sound.top succeeded (Nat.le_refl _)
    simp only [take_length, made] at dir
    have changes (place : Place) := createDirAll_node host [] dest place
    simp only [made] at changes
    refine ⟨⟨made ▸ createDirAll_sound sound sound.top dest, dir, fun _ _ => rfl,
      fun place node inside found => ?_, Nat.le_refl _⟩, by rw [← made, createDirAll_files],
        fun place => ?_⟩
    · rcases changes place with same | ⟨_, isDir, _⟩
      · obtain ⟨rest, rfl⟩ := inside
        rw [same, sound.absent absent] at found
        cases found
      · rw [isDir] at found
        cases found
        exact .inl rfl
    · rcases changes place with same | ⟨none, isDir, _, inside⟩
      · exact .inl same
      · exact .inr ⟨none, isDir, inside⟩

/-- The links kept so far have places of plain names. -/
def PlainLinks (links : SortedMap Place ArchiveLink) : Prop :=
  ∀ place link, links.get? place = some link → place ≠ [] ∧ ∀ part ∈ place, Plain part

/-- The state of an extraction before its links are installed. -/
structure Extraction.Staged (start : Host) (root : Place) (state : Extraction) : Prop where
  tree : Archive.Staged start root state.host
  links : PlainLinks state.links

section Rounds

variable {limits : ExtractionLimits} {start : Host} {root : Place} {state : Extraction}
  {relative : Place} (staged : state.Staged start root)

include staged

theorem extractFile_staged (message : String)
    (longer : relative ≠ []) (size : Nat) (payload : Payload) :
    (extractFile limits message (root ++ relative) size payload state).1.Staged start root := by
  have parent : (root ++ relative).dropLast = root ++ relative.dropLast :=
    dropLast_append_of_ne_nil longer
  have made := staged.tree.createDirAll relative.dropLast
  unfold extractFile
  rw [parent]
  split
  · exact staged
  split
  · rename_i host failure stopped
    rw [stopped] at made
    exact ⟨made, staged.links⟩
  rename_i host succeeded
  have dirs := createDirAll_dirs staged.tree.sound.top (congrArg Prod.snd succeeded) (Nat.le_refl _)
  rw [take_length] at dirs
  rw [succeeded] at made dirs
  split
  · exact ⟨made, staged.links⟩
  rename_i inode opened created
  obtain ⟨absent, rfl, rfl⟩ := createFile_ok created
  refine ⟨?_, staged.links⟩
  obtain ⟨front, last, rfl⟩ := eq_nil_or_concat' relative |>.resolve_left longer
  rw [dropLast_concat] at dirs
  rw [← append_assoc] at absent ⊢
  -- the file is numbered once the table has it
  have grown : Archive.Staged start root { host with files := host.files ++ [[]] } :=
    made.congr rfl (by simp)
  have added := @Archive.Staged.add _ _ _ grown front last dirs host.files.length made.old
    (by simp) absent
  exact added.congr rfl (by simp [append])

theorem extractDirectory_staged (relative : Place) :
    (extractDirectory (root ++ relative) state).1.Staged start root :=
  ⟨staged.tree.createDirAll relative, staged.links⟩

theorem recordLink_staged (message : String)
    (plain : relative ≠ [] ∧ ∀ part ∈ relative, Plain part) (link : ArchiveLink) :
    (recordLink message relative link state).1.Staged start root := by
  refine ⟨staged.tree, fun place other found => ?_⟩
  simp only [recordLink, SortedMap.get?_insert] at found
  split at found
  · rename_i same
    rw [same]
    exact plain
  exact staged.links place other found

theorem zipLink_staged (plain : relative ≠ [] ∧ ∀ part ∈ relative, Plain part) (payload : Payload) :
    (zipLink limits relative payload state).1.Staged start root := by
  unfold zipLink
  simp only
  split
  · exact ⟨staged.tree, staged.links⟩
  split
  · exact ⟨staged.tree, staged.links⟩
  split
  · exact ⟨staged.tree, staged.links⟩
  refine recordLink_staged ?_ _ plain _
  exact ⟨staged.tree, staged.links⟩

theorem zipEntry_staged (entry : ZipEntry) :
    (zipEntry limits root entry state).1.Staged start root := by
  unfold zipEntry
  split
  · exact staged
  split
  · exact staged
  split
  · exact staged
  rename_i relative accepted
  have plain := relativePath_ok accepted
  split
  · exact zipLink_staged staged plain _
  · exact extractDirectory_staged staged _
  · exact extractFile_staged staged _ plain.1 _ _

theorem tarLink_staged (plain : relative ≠ [] ∧ ∀ part ∈ relative, Plain part) (hard : Bool)
    (linkName : Except Failure (Option Text)) :
    (tarLink limits relative hard linkName state).1.Staged start root := by
  unfold tarLink
  split
  · exact staged
  · exact staged
  split
  · exact staged
  split
  · exact staged
  split
  · split
    · exact ⟨staged.tree, staged.links⟩
    · refine recordLink_staged ?_ _ plain _
      exact ⟨staged.tree, staged.links⟩
  · refine recordLink_staged ?_ _ plain _
    exact ⟨staged.tree, staged.links⟩

theorem tarEntry_staged (record : TarRecord) :
    (tarEntry limits root none record state).1.1.Staged start root := by
  unfold tarEntry
  split
  · exact staged
  split
  · exact staged
  split
  · exact staged
  split
  · exact staged
  rename_i relative accepted
  have plain := relativePath_ok accepted
  split
  · exact staged
  split
  · exact staged
  split
  · exact extractFile_staged staged _ plain.1 _ _
  split
  · exact staged
  split
  · exact extractDirectory_staged staged _
  exact tarLink_staged staged plain _ _

omit staged

theorem zipEntries_staged (entries : List (Except Failure ZipEntry))
    (staged : state.Staged start root) :
    (zipEntries limits root entries state).1.Staged start root := by
  refine tryForEach_keeps (P := fun state : Extraction => state.Staged start root)
    (fun entry state staged => ?_) staged entries
  cases entry with
  | error => exact staged
  | ok entry =>
    exact @zipEntry_staged limits start root { state with processed := state.processed + 1 }
      ⟨staged.tree, staged.links⟩ entry

theorem tarRecords_staged (records : List TarRecord) {run : TarRun}
    (staged : run.extraction.Staged start root) :
    (tarRecords limits root none records run).1.extraction.Staged start root := by
  refine tryForEach_keeps (P := fun run : TarRun => run.extraction.Staged start root)
    (fun record run staged => ?_) staged records
  unfold tarRecord
  split
  · exact staged
  split
  · exact staged
  split
  · exact staged
  exact @tarEntry_staged limits start root
    { run.extraction with processed := run.extraction.processed + 1 }
    ⟨staged.tree, staged.links⟩ record

end Rounds

end KernalApi.Archive
