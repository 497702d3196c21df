import KernalApi.Archive.Path
import Mathlib.Data.List.Induction

/-!
# The host's file system

Nodes are found by their physical path from the top; regular files are numbered, so
that hard links are further names of one file. The system may refuse to create a node
anywhere. Calls that fail keep what they did before.
-/

namespace KernalApi.Archive

open List

variable {place dir : Place} {after : Host}

inductive Node
  | directory
  | file (inode : Nat)
  | symbolicLink (target : Text)
deriving DecidableEq

structure Host where
  nodes : List (Place × Node)
  files : List (List UInt8)
  refuses : Place → Option IoKind

/-- The state after a call, and its error if it failed. -/
abbrev Outcome (σ : Type) := σ × Option Failure

section Loop

variable {ε σ : Type} {round : ε → σ → Outcome σ} {state : σ}

/-- A loop whose rounds change a state, to its end or to the first round that fails. -/
def tryForEach (round : ε → σ → Outcome σ) : List ε → σ → Outcome σ
  | [], state => (state, none)
  | entry :: rest, state =>
    match round entry state with
    | (state, some failure) => (state, some failure)
    | (state, none) => tryForEach round rest state

/-- The round that ends a loop: those before it succeed and it fails. -/
def StopsAt (round : ε → σ → Outcome σ) (entries : List ε) (state : σ) (entry : ε) (before : σ)
    (failure : Failure) : Prop :=
  ∃ count, entries[count]? = some entry ∧ tryForEach round (entries.take count) state =
    (before, none) ∧ (round entry before).2 = some failure

theorem StopsAt.of_take {entries : List ε} {entry : ε} {before : σ} {failure : Failure}
    {count : Nat} (stops : StopsAt round (entries.take count) state entry before failure) :
    StopsAt round entries state entry before failure := by
  obtain ⟨index, found, earlier, failed⟩ := stops
  rw [List.getElem?_take] at found
  split at found
  · rename_i small
    rw [List.take_take, Nat.min_eq_left small.le] at earlier
    exact ⟨index, found, earlier, failed⟩
  · cases found

/-- What the rounds that succeed keep holds at the end of the loop, or before the round that ends
it. -/
theorem tryForEach_cases {P : Nat → σ → Prop}
    (kept : ∀ count entry before after, P count before → round entry before = (after, none) →
      P (count + 1) after)
    (begun : P 0 state) (entries : List ε) :
    (tryForEach round entries state).2 = none ∧ P entries.length
    (tryForEach round entries state).1 ∨
    ∃ count entry before failure, count < entries.length ∧ P count before ∧
      StopsAt round entries state entry before failure ∧
        round entry before = tryForEach round entries state := by
  induction entries generalizing state P with
  | nil => exact .inl ⟨rfl, begun⟩
  | cons entry rest ih =>
    rcases done : round entry state with ⟨after, _ | failure⟩
    · have next : tryForEach round (entry :: rest) state = tryForEach round rest after := by
        simp only [tryForEach, done]
      rw [next]
      rcases @ih after (fun count => P (count + 1)) (fun count => kept (count + 1))
        (kept 0 entry state after begun done) with
        ended | ⟨count, last, before, failure, small, held, ⟨index, found, earlier, failed⟩,
          stopped⟩
      · exact .inl ended
      · refine .inr ⟨count + 1, last, before, failure, Nat.succ_lt_succ small, held,
          ⟨index + 1, found, ?_, failed⟩, stopped⟩
        simp only [List.take_succ_cons, tryForEach, done, earlier]
    · refine .inr ⟨0, entry, state, failure, Nat.zero_lt_succ _, begun,
        ⟨0, rfl, rfl, congrArg Prod.snd done⟩, ?_⟩
      simp only [tryForEach, done]

/-- What every round keeps, the loop keeps. -/
theorem tryForEach_keeps {P : σ → Prop} (kept : ∀ entry state, P state → P (round entry state).1)
    (begun : P state) (entries : List ε) : P (tryForEach round entries state).1 := by
  have kept' (_ : Nat) (entry : ε) (before after : σ) (held : P before)
      (done : round entry before = (after, none)) : P after := by
    have next := kept entry before held
    rwa [done] at next
  rcases tryForEach_cases kept' begun entries with ⟨_, held⟩ | ⟨_, entry, before, _, _, held, _,
    stopped⟩
  · exact held
  · rw [← stopped]
    exact kept entry before held

end Loop

namespace Host

variable (host : Host)

def node (place : Place) : Option Node := host.nodes.lookup place

def add (place : Place) (node : Node) : Host := { host with nodes := (place, node) :: host.nodes }

/-- `create_dir_all` for the names after an existing directory. There is no symbolic link on the
way. -/
def createDirAll (host : Host) (dir : Place) : List Text → Outcome Host
  | [] => (host, none)
  | name :: rest =>
    match host.node (dir ++ [name]) with
    | some .directory => createDirAll host (dir ++ [name]) rest
    | some _ => (host, some (.io (if rest = [] then .alreadyExists else .notADirectory)))
    | none =>
      match host.refuses (dir ++ [name]) with
      | some kind => (host, some (.io kind))
      | none => createDirAll (host.add (dir ++ [name]) .directory) (dir ++ [name]) rest

/-- Creates a node where there is none. -/
def create (place : Place) (node : Node) : Except IoKind Host :=
  match host.node place with
  | some _ => .error .alreadyExists
  | none =>
    match host.refuses place with
    | some kind => .error kind
    | none => .ok (host.add place node)

/-- Opens a new file, which is the next in number. -/
def createFile (place : Place) : Except IoKind (Nat × Host) :=
  match host.create place (.file host.files.length) with
  | .error kind => .error kind
  | .ok added => .ok (host.files.length, { added with files := host.files ++ [[]] })

def append (inode : Nat) (bytes : List UInt8) : Host :=
  { host with files := host.files.modify inode (· ++ bytes) }

def isEmptyDir (dest : Place) : Bool :=
  host.nodes.all fun entry => !(dest.isPrefixOf entry.1 && entry.1.length == dest.length + 1)

/-- Takes an empty directory, or makes a new one. -/
def prepareDestination (dest : Place) : Outcome Host :=
  match host.node dest with
  | some .directory =>
    if host.isEmptyDir dest then (host, none)
    else (host, some (.invalid "destination is not empty"))
  | some _ => (host, some (.invalid "destination is not a real directory"))
  | none => host.createDirAll [] dest

/-- Every node is in a directory, and the files are numbered below the count of files. -/
structure Sound (host : Host) : Prop where
  top : host.node [] = some .directory
  parent : ∀ place name node, host.node (place ++ [name]) = some node →
    host.node place = some .directory
  inode : ∀ place inode, host.node place = some (.file inode) → inode < host.files.length

variable {host}

@[simp] theorem node_add (place other : Place) (node : Node) :
    (host.add place node).node other = if other = place then some node else host.node other := by
  by_cases same : other = place
  · simp [Host.node, add, same]
  · have apart : (other == place) = false := beq_eq_false_iff_ne.mpr same
    simp [Host.node, add, lookup_cons, same, apart]

@[simp] theorem files_add (place : Place) (node : Node) :
    (host.add place node).files = host.files := rfl

theorem create_ok {node : Node} (created : host.create place node = .ok after) :
    host.node place = none ∧ after = host.add place node := by
  unfold create at created
  split at created
  · cases created
  rename_i absent
  split at created
  · cases created
  cases created
  exact ⟨absent, rfl⟩

theorem createFile_ok {inode : Nat} (created : host.createFile place = .ok (inode, after)) :
    host.node place = none ∧ inode = host.files.length ∧
      after = { host.add place (.file host.files.length) with files := host.files ++ [[]] } := by
  unfold createFile at created
  split at created
  · cases created
  rename_i added found
  cases created
  obtain ⟨absent, rfl⟩ := create_ok found
  exact ⟨absent, rfl, rfl⟩

/-- Below a sound host's missing place there is nothing. -/
theorem Sound.absent {host : Host} (sound : host.Sound) (absent : host.node place = none)
    (rest : List Text) : host.node (place ++ rest) = none := by
  induction rest using reverseRecOn with
  | nil => simpa using absent
  | append_singleton front name ih =>
    by_contra present
    obtain ⟨node, found⟩ := Option.ne_none_iff_exists'.mp present
    rw [← append_assoc] at found
    have dir := sound.parent _ _ _ found
    rw [ih] at dir
    cases dir

theorem Sound.add_child {host : Host} (sound : host.Sound) {name : Text}
    (isDir : host.node dir = some .directory) {node : Node}
    (fresh : host.node (dir ++ [name]) = none)
    (numbered : ∀ inode, node = .file inode → inode < host.files.length) :
    (host.add (dir ++ [name]) node).Sound where
  top := by simp [sound.top]
  parent place other found present := by
    have kept : place ≠ dir ++ [name] := by
      rintro rfl
      by_cases same : dir ++ [name] ++ [other] = dir ++ [name]
      · simpa using congrArg length same
      · rw [node_add, if_neg same, sound.absent fresh] at present
        cases present
    rw [node_add, if_neg kept]
    rw [node_add] at present
    split at present
    · rename_i same
      rw [(append_inj' same rfl).1]
      exact isDir
    exact sound.parent _ _ _ present
  inode place inode found := by
    rw [node_add] at found
    split at found
    · exact numbered inode (Option.some.inj found)
    exact sound.inode _ _ found

/-- What `create_dir_all` does to a place: nothing, or it makes it a directory on the way. -/
theorem createDirAll_node (host : Host) (dir : Place) (names : List Text) (place : Place) :
    (host.createDirAll dir names).1.node place = host.node place ∨
      (host.node place = none ∧ (host.createDirAll dir names).1.node place = some .directory ∧
        dir <+: place ∧ place <+: dir ++ names) := by
  induction names generalizing host dir with
  | nil => exact .inl rfl
  | cons name rest ih =>
    have longer : dir <+: dir ++ [name] := prefix_append _ _
    have whole : dir ++ name :: rest = dir ++ [name] ++ rest := by simp
    simp only [createDirAll]
    split
    · rcases ih host (dir ++ [name]) with same | ⟨absent, made, after, before⟩
      · exact .inl same
      · exact .inr ⟨absent, made, longer.trans after, whole ▸ before⟩
    · exact .inl rfl
    rename_i absent
    split
    · exact .inl rfl
    rcases ih (host.add (dir ++ [name]) .directory) (dir ++ [name]) with
      same | ⟨missing, made, after, before⟩
    · by_cases here : place = dir ++ [name]
      · subst here
        rw [same, node_add, if_pos rfl]
        exact .inr ⟨absent, rfl, longer, whole ▸ prefix_append _ _⟩
      · rw [node_add, if_neg here] at same
        exact .inl same
    · rw [node_add] at missing
      split_ifs at missing
      exact .inr ⟨missing, made, longer.trans after, whole ▸ before⟩

@[simp] theorem createDirAll_files (host : Host) (dir : Place) (names : List Text) :
    (host.createDirAll dir names).1.files = host.files := by
  induction names generalizing host dir with
  | nil => rfl
  | cons name rest ih =>
    simp only [createDirAll]
    split
    · exact ih host _
    · rfl
    · split
      · rfl
      · exact ih _ _

theorem createDirAll_sound {host : Host} (sound : host.Sound)
    (isDir : host.node dir = some .directory) (names : List Text) :
    (host.createDirAll dir names).1.Sound := by
  induction names generalizing host dir with
  | nil => exact sound
  | cons name rest ih =>
    simp only [createDirAll]
    split
    · rename_i found
      exact ih sound found
    · exact sound
    rename_i absent
    split
    · exact sound
    exact ih (sound.add_child isDir absent (by simp)) (by simp)

/-- Success means that every name on the way is a directory. -/
theorem createDirAll_dirs {host : Host} (isDir : host.node dir = some .directory)
    {names : List Text}
    (succeeded : (host.createDirAll dir names).2 = none) {count : Nat}
    (few : count ≤ names.length) :
    (host.createDirAll dir names).1.node (dir ++ names.take count) = some .directory := by
  induction names generalizing host dir count with
  | nil => simpa [createDirAll] using isDir
  | cons name rest ih =>
    have kept (before : Host) (present : before.node dir = some .directory) :
        (before.createDirAll (dir ++ [name]) rest).1.node dir = some .directory := by
      rcases createDirAll_node before (dir ++ [name]) rest dir with same | ⟨absent, _⟩
      · rw [same, present]
      · rw [present] at absent
        cases absent
    simp only [createDirAll] at succeeded ⊢
    split at succeeded
    · rename_i found
      cases count with
      | zero => simpa using kept host isDir
      | succ => simpa using ih found succeeded (Nat.le_of_succ_le_succ few)
    · cases succeeded
    · rename_i absent
      split at succeeded
      · cases succeeded
      have other : dir ≠ dir ++ [name] := by simp
      cases count with
      | zero => simpa using kept _ (by rw [node_add, if_neg other, isDir])
      | succ =>
        simpa using ih (by simp) succeeded (Nat.le_of_succ_le_succ few)

/-- A host with nothing but the top directory. -/
def bare : Host where
  nodes := [([], .directory)]
  files := []
  refuses _ := none

theorem bare_sound : bare.Sound where
  top := rfl
  parent place name node found := by
    have below : (place ++ [name] == []) = false := by cases place <;> rfl
    simp [Host.node, bare, lookup_cons, below] at found
  inode place inode found := by
    simp only [Host.node, bare, lookup_cons] at found
    split at found <;> cases found

end Host

end KernalApi.Archive
