import KernalApi.Archive.Resolve

/-!
# Links stay inside the destination

When an extraction has succeeded, the system's path resolution on the final tree agrees
with the resolution that was made over the table of links before any was installed.
-/

namespace KernalApi.Archive

open KernalApi.Std List Host Option
open KernalApi.Std.Resolution
open Relation

variable {path resolved : Place} {link : ArchiveLink} {steps : Nat}

section Parents

variable {start : Host} {root : Place}

theorem createParents_directory {links : List (Place × ArchiveLink)} {host : Host} {place : Place}
    (dir : host.node place = some .directory) :
    (createParents root links host).1.node place = some .directory := by
  refine tryForEach_keeps (P := fun host : Host => host.node place = some .directory)
    (fun link host dir => ?_) dir links
  rcases createDirAll_node host [] (root ++ link.1).dropLast place with same | ⟨absent, _⟩
  · rw [same, dir]
  · rw [dir] at absent
    cases absent

/-- The directories of all links are made. -/
theorem createParents_ok {links : List (Place × ArchiveLink)} {host before : Host}
    (staged : Staged start root host)
    (longer : ∀ link ∈ links, link.1 ≠ []) (done : createParents root links host = (before, none)) :
    Staged start root before ∧ ∀ link ∈ links, before.node (root ++ link.1.dropLast) =
      some .directory := by
  induction links generalizing host with
  | nil =>
    cases done
    exact ⟨staged, by simp⟩
  | cons link rest ih =>
    have parent : (root ++ link.1).dropLast = root ++ link.1.dropLast :=
      dropLast_append_of_ne_nil (longer link mem_cons_self)
    have grown := staged.createDirAll link.1.dropLast
    simp only [createParents, tryForEach, parent] at done
    split at done
    · cases done
    rename_i after made
    change createParents root rest after = (before, none) at done
    have dir := createDirAll_dirs staged.sound.top (congrArg Prod.snd made) (Nat.le_refl _)
    rw [take_length] at dir
    rw [made] at grown dir
    obtain ⟨whole, dirs⟩ := ih grown
      (fun other member => longer other (mem_cons_of_mem _ member)) done
    refine ⟨whole, fun other member => ?_⟩
    rcases mem_cons.mp member with rfl | later
    · have kept := @createParents_directory root rest after _ dir
      rwa [done] at kept
    · exact dirs other later

end Parents

section Validation

variable {host : Host} {root : Place} {links : SortedMap Place ArchiveLink}
  {danglingLinks : DanglingLinks}

/-- A link that may be installed: its place is free and its path resolves to a node of the right
kind. -/
structure Valid (host : Host) (root : Place) (links : SortedMap Place ArchiveLink)
    (danglingLinks : DanglingLinks)
    (path : Place) (link : ArchiveLink) (resolved : Place) : Prop where
  free : host.node (root ++ path) = none
  resolves : ∃ steps left, resolveLinkPath host root links linkNesting (Place.text path) steps =
    .ok (resolved, left)
  missing : host.node (root ++ resolved) = none →
    link.hard = false ∧ danglingLinks = .preserveMissingLeaf
  hard : link.hard = true → ∃ inode, host.node (root ++ resolved) = some (.file inode)

theorem validateLink_ok {left : Nat} {validated : Validated}
    (done : validateLink host root links danglingLinks path link steps = .ok (validated, left)) :
    ∃ resolved, validated = ⟨root ++ path, link, root ++ resolved⟩ ∧
      Valid host root links danglingLinks path link resolved := by
  unfold validateLink at done
  split at done
  · cases done
  rename_i free
  split at done
  · cases done
  rename_i resolved more resolves
  refine ⟨resolved, ?_⟩
  split at done
  · rename_i absent
    split at done
    · rename_i allowed
      cases done
      refine ⟨rfl, free, ⟨_, _, resolves⟩, fun _ => allowed, fun hard => ?_⟩
      rw [allowed.1] at hard
      cases hard
    · cases done
  · rename_i inode found
    cases done
    exact ⟨rfl, free, ⟨_, _, resolves⟩, by simp [found], fun _ => ⟨inode, found⟩⟩
  · rename_i node notFile found
    split_ifs at done with soft
    cases done
    exact ⟨rfl, free, ⟨_, _, resolves⟩, by simp [found], fun hard => absurd hard soft⟩

theorem validateLinks_ok {entries : List (Place × ArchiveLink)} {validated : List Validated}
    (done : validateLinks host root links danglingLinks entries steps = .ok validated) :
    (∀ path link, (path, link) ∈ entries → ∃ resolved,
      ⟨root ++ path, link, root ++ resolved⟩ ∈ validated ∧
        Valid host root links danglingLinks path link resolved) ∧
    ∀ one ∈ validated, ∃ path link resolved, (path, link) ∈ entries ∧
      one = ⟨root ++ path, link, root ++ resolved⟩ ∧
      Valid host root links danglingLinks path link resolved := by
  induction entries generalizing steps validated with
  | nil =>
    cases done
    exact ⟨by simp, by simp⟩
  | cons entry rest ih =>
    obtain ⟨path, link⟩ := entry
    simp only [validateLinks] at done
    split at done
    · cases done
    rename_i first left valid
    cases more : validateLinks host root links danglingLinks rest left with
    | error failure =>
      rw [more] at done
      cases done
    | ok others =>
      rw [more] at done
      cases done
      obtain ⟨resolved, rfl, accepted⟩ := validateLink_ok valid
      obtain ⟨forth, back⟩ := ih more
      constructor
      · intro other otherLink member
        rcases mem_cons.mp member with same | later
        · cases same
          exact ⟨resolved, mem_cons_self, accepted⟩
        · obtain ⟨there, found, valid⟩ := forth other otherLink later
          exact ⟨there, mem_cons_of_mem _ found, valid⟩
      · intro one member
        rcases mem_cons.mp member with rfl | later
        · exact ⟨path, link, resolved, mem_cons_self, rfl, accepted⟩
        · obtain ⟨other, otherLink, there, found, rest⟩ := back one later
          exact ⟨other, otherLink, there, mem_cons_of_mem _ found, rest⟩

end Validation

/-- The node a validated link becomes. -/
def Validated.node (validated : Validated) (host : Host) : Option Node :=
  if validated.link.hard then host.node validated.canonical
  else some (.symbolicLink validated.link.target)

theorem placeLink_ok {validated : Validated} {host after : Host}
    (placed : placeLink validated host = .ok after) :
    host.node validated.output = none ∧ ∃ node, validated.node host = some node ∧
      after = host.add validated.output node := by
  unfold placeLink at placed
  split at placed
  · rename_i hard
    split at placed
    · rename_i inode found
      obtain ⟨absent, rfl⟩ := create_ok placed
      exact ⟨absent, .file inode, by simp [Validated.node, hard, found], rfl⟩
    cases placed
  · rename_i soft
    obtain ⟨absent, rfl⟩ := create_ok placed
    exact ⟨absent, _, by simp [Validated.node, soft], rfl⟩

/-- Placing links adds them to the tree and changes nothing else. -/
theorem placeLinks_ok {links : List Validated} {host after : Host}
    (hards : ∀ validated ∈ links, validated.link.hard = true →
      ∃ inode, host.node validated.canonical = some (.file inode))
    (done : placeLinks links host = (after, none)) :
    (∀ place node, host.node place = some node → after.node place = some node) ∧
    (∀ place, after.node place ≠ host.node place → ∃ validated ∈ links, validated.output = place) ∧
    ∀ validated ∈ links, after.node validated.output = validated.node host := by
  induction links generalizing host with
  | nil =>
    cases done
    exact ⟨fun _ _ found => found, fun _ differs => absurd rfl differs, by simp⟩
  | cons first rest ih =>
    simp only [placeLinks, tryForEach] at done
    cases placed : placeLink first host with
    | error => simp [placed] at done
    | ok middle =>
    simp only [placed] at done
    obtain ⟨absent, node, isNode, rfl⟩ := placeLink_ok placed
    have keeps (place : Place) (other : Node) (found : host.node place = some other) :
        (host.add first.output node).node place = some other := by
      rw [node_add, if_neg, found]
      rintro rfl
      rw [absent] at found
      cases found
    obtain ⟨kept, changed, nodes⟩ := ih (fun validated member hard => by
      obtain ⟨inode, found⟩ := hards validated (mem_cons_of_mem _ member) hard
      exact ⟨inode, keeps _ _ found⟩) done
    refine ⟨fun place other found => kept _ _ (keeps place other found), fun place differs => ?_,
      ?_⟩
    · by_cases here : place = first.output
      · exact ⟨first, mem_cons_self, here.symm⟩
      · obtain ⟨validated, member, output⟩ := changed place (by rwa [node_add, if_neg here])
        exact ⟨validated, mem_cons_of_mem _ member, output⟩
    · intro validated member
      rcases mem_cons.mp member with rfl | later
      · rw [isNode]
        exact kept _ _ (by simp)
      rw [nodes validated later]
      unfold Validated.node
      split
      · rename_i hard
        obtain ⟨inode, found⟩ := hards validated (mem_cons_of_mem _ later) hard
        rw [keeps _ _ found, found]
      rfl

/-- The links of a table have been added to a tree they were resolved in. -/
structure Installation (before after : Host) (root : Place) (links : SortedMap Place ArchiveLink)
    (danglingLinks : DanglingLinks) : Prop where
  linkable : Linkable before root links
  kept : ∀ place node, before.node place = some node → after.node place = some node
  changed : ∀ place, after.node place ≠ before.node place →
    ∃ path link, links.get? path = some link ∧ place = root ++ path
  placed : ∀ path link, links.get? path = some link → ∃ resolved,
    Valid before root links danglingLinks path link resolved ∧
      after.node (root ++ path)
        = if link.hard then before.node (root ++ resolved) else some (.symbolicLink link.target)

theorem installLinks_ok {start host after : Host} {root : Place}
    {links : SortedMap Place ArchiveLink}
    {danglingLinks : DanglingLinks} (staged : Staged start root host) (plain : PlainLinks links)
    (done : installLinks root links steps danglingLinks host = (after, none)) :
    ∃ before, Staged start root before ∧ Installation before after root links danglingLinks := by
  unfold installLinks at done
  split at done
  · cases done
  rename_i before made
  split at done
  · cases done
  rename_i validated valid
  obtain ⟨built, dirs⟩ := createParents_ok staged
    (fun link member => (plain link.1 link.2 (SortedMap.mem_entries_iff.mp member)).1) made
  obtain ⟨forth, back⟩ := validateLinks_ok valid
  obtain ⟨kept, changed, nodes⟩ := placeLinks_ok (fun one member hard => by
    obtain ⟨path, link, resolved, _, rfl, accepted⟩ := back one member
    exact accepted.hard hard) done
  refine ⟨before, built, ⟨built.sound, built.dir, ?_, plain, ?_⟩, kept, ?_, ?_⟩
  · intro place target inside found
    rcases built.real place _ inside found with dir | ⟨_, _, file⟩
    · cases dir
    · cases file
  · intro path link found
    have member := SortedMap.mem_entries_iff.mpr found
    obtain ⟨resolved, _, accepted⟩ := forth path link member
    exact ⟨accepted.free, dirs _ member⟩
  · intro place differs
    obtain ⟨one, member, rfl⟩ := changed place differs
    obtain ⟨path, link, resolved, found, rfl, _⟩ := back one member
    exact ⟨path, link, SortedMap.mem_entries_iff.mp found, rfl⟩
  · intro path link found
    obtain ⟨resolved, member, accepted⟩ := forth path link (SortedMap.mem_entries_iff.mpr found)
    exact ⟨resolved, accepted, nodes _ member⟩

/-- The cursor of a system call that is given the path of a link. -/
def entering (root path : Place) : Cursor Text :=
  ⟨root ++ path.dropLast, path.getLast?.toList.map .enter⟩

section Final

variable {before after : Host} {root : Place} {links : SortedMap Place ArchiveLink}
  {danglingLinks : DanglingLinks}

section

variable (linkable : Linkable before root links) (found : links.get? path = some link)
  (valid : Valid before root links danglingLinks path link resolved)

include linkable found valid

/-- In the virtual tree a link leads to the place it was resolved to. -/
theorem Valid.walks :
    Physical before root links resolved ∧
      Runs (virtual before root links) root (entering root path) ⟨root ++ resolved, []⟩ := by
  obtain ⟨steps, left, resolves⟩ := valid.resolves
  obtain ⟨_, physical, walk⟩ := linkable.resolveLinkPath_follows linkNesting _ _ _ _ resolves
  obtain ⟨longer, plain⟩ := linkable.plain path link found
  have spelled : (route (Place.text path)).moves = path.map .enter := by
    simp only [route]
    rw [splitOn_text longer plain]
    simpa [moves] using moves_append plain []
  obtain ⟨front, last, rfl⟩ := (eq_nil_or_concat' path).resolve_left longer
  have dir := (linkable.fresh _ link found).2
  rw [dropLast_concat] at dir
  rw [spelled, map_append] at walk
  refine ⟨physical, ?_⟩
  simpa [entering] using Runs.onward walk (step_nil _) (linkable.descend dir _)

/-- A hard link of the table leads to the file it will be a name of. -/
theorem Valid.hard_walks (hard : link.hard = true) :
    Runs (virtual before root links) root ⟨root, (route link.target).moves⟩
      ⟨root ++ resolved, []⟩ := by
  have walk := (valid.walks linkable found).2
  obtain ⟨front, last, rfl⟩ := (eq_nil_or_concat' path).resolve_left
    (linkable.plain path link found).1
  have dir := (linkable.fresh _ link found).2
  rw [dropLast_concat] at dir
  have place := linkable.virtual_link found
  rw [← append_assoc] at place
  have entered := step_follow (@virtual_directory _ before root links dir) place []
  simp only [ArchiveLink.route, hard] at entered
  have part : Runs (virtual before root links) root (entering root (front ++ [last]))
      ⟨root, (route link.target).moves⟩ := by
    refine .single ⟨?_, prefix_rfl⟩
    simpa [entering] using entered
  exact Runs.onward walk (step_nil _) part

end

/-- The final tree is the virtual one with the hard links made files. -/
theorem Installation.materializes
    (installation : Installation before after root links danglingLinks) :
    Materializes (virtual before root links) after.look root := by
  have linkable := installation.linkable
  intro place
  cases found : before.node place with
  | some node =>
    left
    simp [virtual, look, found, installation.kept place node found]
  | none =>
    by_cases same : after.node place = before.node place
    · left
      -- nothing was placed here, so the table has nothing here
      have none : virtual before root links place = none := by
        cases tabled : virtual before root links place with
        | none => rfl
        | some entry =>
          simp only [virtual, look, found, map_none, ite_none_right_eq_some,
            map_eq_some_iff] at tabled
          obtain ⟨inside, link, listed, _⟩ := tabled
          obtain ⟨rest, rfl⟩ := isPrefixOf_iff_prefix.mp inside
          rw [drop_left] at listed
          obtain ⟨resolved, valid, node⟩ := installation.placed rest link listed
          rw [same, found] at node
          split at node
          · obtain ⟨inode, file⟩ := valid.hard ‹_›
            rw [file] at node
            cases node
          cases node
      rw [none, look, same, found]
      rfl
    · obtain ⟨path, link, listed, rfl⟩ := installation.changed place same
      obtain ⟨resolved, valid, node⟩ := installation.placed path link listed
      have entry := linkable.virtual_link listed
      cases hard : link.hard with
      | false =>
        left
        rw [entry, look, node]
        simp [hard, Node.entry, ArchiveLink.route]
      | true =>
        right
        obtain ⟨inode, file⟩ := valid.hard hard
        refine ⟨link.route root, root, root ++ resolved, inode, by simp [ArchiveLink.route, hard],
          entry, ?_, virtual_file file, ?_⟩
        · rw [look, node, if_pos hard, file]
          rfl
        · have walk := valid.hard_walks linkable listed hard
          simpa [ArchiveLink.route, hard] using walk

/-- How the system follows a link on the final tree: it stays below the root, and it reaches the
directory or the file the link was resolved to, or a place that is missing in a directory and may
be. -/
structure LeadsTo (before after : Host) (root : Place) (danglingLinks : DanglingLinks)
    (path resolved : Place) : Prop where
  stays : ∀ cursor, ReflTransGen (fun now next => step after.look now = some next)
    (entering root path) cursor → root <+: cursor.position
  reaches : ∃ reached, ReflTransGen (fun now next => step after.look now = some next)
      (entering root path) ⟨reached, []⟩ ∧
    ((before.node (root ++ resolved) = some .directory ∧ after.node reached = some .directory ∧
        reached = root ++ resolved) ∨
      (∃ inode, before.node (root ++ resolved) = some (.file inode) ∧
        after.node reached = some (.file inode)) ∨
      (before.node (root ++ resolved) = none ∧ after.node reached = none ∧
        reached = root ++ resolved ∧
        before.node (root ++ resolved.dropLast) = some .directory ∧
          danglingLinks = .preserveMissingLeaf))

theorem Installation.leadsTo (installation : Installation before after root links danglingLinks)
    (found : links.get? path = some link)
    (valid : Valid before root links danglingLinks path link resolved) :
    LeadsTo before after root danglingLinks path resolved := by
  have linkable := installation.linkable
  obtain ⟨physical, walk⟩ := valid.walks linkable found
  have inside : root <+: (entering root path).position := prefix_append _ _
  obtain ⟨reached, runs, agrees⟩ := Runs.materialize installation.materializes inside walk
  refine ⟨fun cursor visited => (Runs.confines inside runs (step_nil _) visited).1, reached,
    ReflTransGen.mono (fun _ _ within => within.1) _ _ runs, ?_⟩
  cases there : before.node (root ++ resolved) with
  | none =>
    right
    right
    rcases agrees with rfl | ⟨file, _, isFile⟩
    · obtain ⟨_, allowed⟩ := valid.missing there
      have notRoot : resolved ≠ [] := by
        rintro rfl
        rw [append_nil, linkable.dir] at there
        cases there
      refine ⟨rfl, ?_, rfl, physical.parent.resolve_left notRoot, allowed⟩
      -- no link was placed where the resolution ended
      by_contra present
      obtain ⟨other, otherLink, listed, same⟩ :=
        installation.changed (root ++ resolved) (by rwa [there])
      rw [← append_cancel_left same, physical.free] at listed
      cases listed
    · rw [virtual_absent there, physical.free] at isFile
      cases isFile
  | some node =>
    have kept := installation.kept _ _ there
    cases node with
    | directory =>
      left
      rcases agrees with rfl | ⟨file, _, isFile⟩
      · exact ⟨rfl, kept, rfl⟩
      · rw [virtual_directory there] at isFile
        cases isFile
    | file inode =>
      right
      left
      refine ⟨inode, rfl, ?_⟩
      rcases agrees with rfl | ⟨file, atReached, isFile⟩
      · exact kept
      rw [virtual_file there] at isFile
      cases isFile
      obtain ⟨node, isNode, entry⟩ := map_eq_some_iff.mp atReached
      cases node <;> cases entry
      exact isNode
    | symbolicLink target => exact absurd there (linkable.real _ target (prefix_append _ _))

end Final

/-- The one member an extraction is for, if it is not for the whole archive. -/
def Source.member : Source → Option Place
  | .zip _ => none
  | .tar _ member => member

/-- An extraction of a whole archive that succeeds: the destination is prepared, the tree is built,
and the links are installed. -/
theorem extract_ok {limits : ExtractionLimits} {dest : Place} {source : Source} {host : Host}
    {final : Extraction}
    (whole : source.member = none) (sound : host.Sound)
    (done : extract limits dest source host = (final, none)) :
    ∃ (prepared : Host) (state : Extraction), host.prepareDestination dest = (prepared, none) ∧
      state.Staged prepared dest ∧ final.links = state.links ∧
      installLinks dest state.links limits.maxLinkSteps limits.danglingLinks state.host =
        (final.host, none) := by
  have finish {state : Extraction} (finished : finishLinks limits dest state = (final, none)) :
      final.links = state.links ∧
        installLinks dest state.links limits.maxLinkSteps limits.danglingLinks state.host =
          (final.host, none) := by
    obtain ⟨same, failure⟩ : (finishLinks limits dest state).1 = final ∧
      (finishLinks limits dest state).2 = none :=
      Prod.ext_iff.mp finished
    rw [← same]
    exact ⟨rfl, Prod.ext rfl failure⟩
  have begins {prepared : Host} (made : host.prepareDestination dest = (prepared, none)) :
      (Extraction.begin limits prepared).Staged prepared dest :=
    ⟨(prepareDestination_ok sound made).1, fun place link found =>
      by simp [Extraction.begin] at found⟩
  cases source with
  | zip file =>
    simp only [extract, extractZip] at done
    split at done
    · cases done
    rename_i entries opened
    split at done
    · cases done
    rename_i prepared made
    have staged := @zipEntries_staged limits _ _ _ entries (begins made)
    split at done
    · cases done
    rename_i state rounds
    rw [rounds] at staged
    exact ⟨prepared, state, made, staged, finish done⟩
  | tar file member =>
    obtain rfl : member = none := whole
    simp only [extract, extractTar, isSome_none, Bool.false_eq_true, if_false] at done
    split at done
    · cases done
    split at done
    · cases done
    split at done
    · cases done
    rename_i prepared made
    have staged := @tarRecords_staged limits _ _ file.records
      ⟨.begin limits prepared, .new limits, false⟩ (begins made)
    split at done
    · cases done
    rename_i run rounds
    rw [rounds] at staged
    split at done
    · cases done
    exact ⟨prepared, run.extraction, made, staged, finish done⟩

/-- What a successful extraction leaves on the host, compared with the tree `before` its links were
installed. -/
structure Contained (host : Host) (dest : Place) (danglingLinks : DanglingLinks) (before : Host)
    (final : Extraction) : Prop where
  /-- Only places below the destination change; the directories above it may be made with it. -/
  below : ∀ place, final.host.node place ≠ host.node place →
    dest <+: place ∨ (place <+: dest ∧ host.node place = none ∧
      final.host.node place = some .directory)
  bare : ∀ place target, dest <+: place → before.node place ≠ some (.symbolicLink target)
  kept : ∀ place node, before.node place = some node → final.host.node place = some node
  added : ∀ place, final.host.node place ≠ before.node place →
    ∃ path link, final.links.get? path = some link ∧ place = dest ++ path
  symbolic : ∀ path link, final.links.get? path = some link → link.hard = false →
    final.host.node (dest ++ path) = some (.symbolicLink link.target) ∧
    ∃ resolved steps left,
      resolveLinkPath before dest final.links linkNesting (Place.text path) steps =
        .ok (resolved, left) ∧
      LeadsTo before final.host dest danglingLinks path resolved
  hard : ∀ path link, final.links.get? path = some link → link.hard = true →
    ∃ resolved steps left inode,
      resolveLinkPath before dest final.links linkNesting (Place.text path) steps =
        .ok (resolved, left) ∧
      before.node (dest ++ resolved) = some (.file inode) ∧ host.files.length ≤ inode ∧
      final.host.node (dest ++ path) = some (.file inode)

/-- A successful extraction of a whole archive is contained in its destination. -/
theorem extract_contained (limits : ExtractionLimits) (dest : Place) (source : Source) (host : Host)
    (whole : source.member = none) (sound : host.Sound) (final : Extraction)
    (done : extract limits dest source host = (final, none)) :
    ∃ before, Contained host dest limits.danglingLinks before final := by
  obtain ⟨prepared, state, made, staged, sameLinks, installed⟩ := extract_ok whole sound done
  obtain ⟨_, files, preparing⟩ := prepareDestination_ok sound made
  obtain ⟨before, built, installation⟩ := installLinks_ok staged.tree staged.links installed
  rw [← sameLinks] at installation
  refine ⟨before, ?_, installation.linkable.real, installation.kept, installation.changed, ?_, ?_⟩
  · intro place differs
    by_cases inside : dest <+: place
    · exact .inl inside
    right
    have unlinked : final.host.node place = before.node place := by
      by_contra changed
      obtain ⟨path, link, _, rfl⟩ := installation.changed place changed
      exact inside (prefix_append _ _)
    have same := unlinked.trans (built.outside place inside)
    rcases preparing place with untouched | ⟨absent, dir, above⟩
    · exact absurd (same.trans untouched) differs
    · exact ⟨above, absent, same.trans dir⟩
  · intro path link found soft
    obtain ⟨resolved, valid, node⟩ := installation.placed path link found
    obtain ⟨steps, left, resolves⟩ := valid.resolves
    refine ⟨?_, resolved, steps, left, resolves, installation.leadsTo found valid⟩
    rw [node, soft]
    rfl
  · intro path link found hard
    obtain ⟨resolved, valid, node⟩ := installation.placed path link found
    obtain ⟨steps, left, resolves⟩ := valid.resolves
    obtain ⟨inode, file⟩ := valid.hard hard
    refine ⟨resolved, steps, left, inode, resolves, file, ?_, ?_⟩
    · rcases built.real _ _ (prefix_append _ _) file with dir | ⟨other, fresh, same⟩
      · cases dir
      · cases same
        rwa [files] at fresh
    · rw [node, if_pos hard, file]

def linkLimits : ExtractionLimits where
  maxInputBytes := 4096
  maxOutputBytes := 10
  maxEntryBytes := 10
  maxEntries := 4
  maxMetadataBytes := 8192
  maxPathBytes := 100
  maxLinkSteps := 100
  danglingLinks := .reject

def linkRecord (kind : TarKind) (path : Text) (target : Option Text) : TarRecord where
  kind := kind
  entrySize := .ok 0
  pax := []
  backend := none
  size := 0
  path := .ok path
  linkName := .ok target
  payload := { reads := [], writes := [], finish := none }

/-- The file `d/f`, the link `d/l` to it through `d/..`, and the hard link `h`. -/
def linkTar : TarFile where
  inputBytes := 4096
  decoder := none
  records := [
    linkRecord .regular ['d', '/', 'f'] none,
    linkRecord .symlink ['d', '/', 'l'] (some ['.', '.', '/', 'h']),
    linkRecord .hardLink ['h'] (some ['d', '/', 'f'])]
  ending := .zeros (.ok [])

theorem extract_contained_links :
    (extract linkLimits [['r']] (.tar linkTar none) Host.bare).2 = none ∧
    (extract linkLimits [['r']] (.tar linkTar none) Host.bare).1.host.node [['r'], ['d'], ['l']]
      = some (.symbolicLink ['.', '.', '/', 'h']) ∧
    (extract linkLimits [['r']] (.tar linkTar none) Host.bare).1.host.node [['r'], ['h']] =
    some (.file 0) ∧
    ∃ before, Contained Host.bare [['r']] .reject before
      (extract linkLimits [['r']] (.tar linkTar none) Host.bare).1 := by
  have done : (extract linkLimits [['r']] (.tar linkTar none) bare).2 = none := by decide +kernel
  refine ⟨done, by decide +kernel, by decide +kernel, ?_⟩
  exact extract_contained linkLimits [['r']] (.tar linkTar none) bare rfl bare_sound
    _ (Prod.ext rfl done)

end KernalApi.Archive
