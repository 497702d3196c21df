import KernalApi.Profile.Pprof

/-!
# The Firefox Profiler export

A thread holds parallel columns that refer to each other by place: samples to
rows of the stack table, which are linked by their prefixes, and on through
frames and functions to strings.
-/

namespace KernalApi.Profile.Firefox

open KernalApi.Std List Option

variable {name : String} {fuel : Nat} {names : List String} {stem : Option Nat}

/-- The tables of one thread; a row of the stack table is its prefix and its frame. -/
structure Tables where
  strings : Interner String
  funcNames : Interner Nat
  frameFuncs : Interner Nat
  stackRows : Interner (Option Nat × Nat)

namespace Tables

def empty : Tables := ⟨.empty, .empty, .empty, .empty⟩

def string (tables : Tables) (value : String) : Nat × Tables :=
  let (position, strings) := tables.strings.intern value
  (position, { tables with strings })

def func (tables : Tables) (name : String) : Nat × Tables :=
  let (nameIndex, tables) := tables.string name
  let (position, funcNames) := tables.funcNames.intern nameIndex
  (position, { tables with funcNames })

def frame (tables : Tables) (name : String) : Nat × Tables :=
  let (func, tables) := tables.func name
  let (position, frameFuncs) := tables.frameFuncs.intern func
  (position, { tables with frameFuncs })

def stack (tables : Tables) (stem : Option Nat) (frame : Nat) : Nat × Tables :=
  let (position, stackRows) := tables.stackRows.intern (stem, frame)
  (position, { tables with stackRows })

/-- The row of a stack, root first, below the row `stem`. -/
def chain (tables : Tables) (stem : Option Nat) : List String → Option Nat × Tables
  | [] => (stem, tables)
  | name :: rest =>
    let (frame, tables) := tables.frame name
    let (row, tables) := tables.stack stem frame
    tables.chain (some row) rest

/-- The samples of folded stacks: a row and a weight each. -/
def samples (tables : Tables) : List (List String × Nat) → List (Nat × Nat) × Tables
  | [] => ([], tables)
  | (stack, count) :: rest =>
    let (leaf, tables) := tables.chain none stack
    let (samples, tables) := tables.samples rest
    match leaf with
    | some leaf => ((leaf, count) :: samples, tables)
    | none => (samples, tables)

/-! ## Reading the tables -/

/-- The name a frame stands for. -/
def nameOf (tables : Tables) (frame : Nat) : Option String := do
  let func ← tables.frameFuncs.rows[frame]?
  let name ← tables.funcNames.rows[func]?
  tables.strings.rows[name]?

/-- The stack of a row, root first, following at most `fuel` prefixes. -/
def stackOf (tables : Tables) : Nat → Nat → Option (List String)
  | 0, _ => none
  | fuel + 1, row => do
      let (stem, frame) ← tables.stackRows.rows[row]?
      let name ← tables.nameOf frame
      match stem with
      | none => some [name]
      | some stem => (· ++ [name]) <$> tables.stackOf fuel stem

/-- The stacks of samples with their weights. -/
def read (tables : Tables) (samples : List (Nat × Nat)) : Option (List (List String × Nat)) :=
  samples.mapM fun sample => (·, sample.2) <$> tables.stackOf (sample.1 + 1) sample.1

/-- Every reference has its row, and the prefix of a row comes before it. -/
structure WellFormed (tables : Tables) : Prop where
  funcNames : ∀ name ∈ tables.funcNames.rows, name < tables.strings.rows.length
  frameFuncs : ∀ func ∈ tables.frameFuncs.rows, func < tables.funcNames.rows.length
  stackRows : ∀ (row frame : Nat) (stem : Option Nat),
    tables.stackRows.rows[row]? = some (stem, frame) →
    frame < tables.frameFuncs.rows.length ∧ ∀ earlier ∈ stem, earlier < row

/-- Rows only come at the ends of the tables. -/
structure Grows (before after : Tables) : Prop where
  strings : before.strings.rows <+: after.strings.rows
  funcNames : before.funcNames.rows <+: after.funcNames.rows
  frameFuncs : before.frameFuncs.rows <+: after.frameFuncs.rows
  stackRows : before.stackRows.rows <+: after.stackRows.rows

variable {before after tables : Tables}

theorem Grows.trans {first second third : Tables} (early : Grows first second)
    (late : Grows second third) : Grows first third :=
  ⟨early.strings.trans late.strings, early.funcNames.trans late.funcNames,
    early.frameFuncs.trans late.frameFuncs, early.stackRows.trans late.stackRows⟩

theorem Grows.refl (tables : Tables) : Grows tables tables :=
  ⟨prefix_refl _, prefix_refl _, prefix_refl _, prefix_refl _⟩

/-- What stands at a place stays there. -/
theorem getElem?_of_isPrefix {α : Type} {front whole : List α} (grown : front <+: whole)
    {place : Nat} {row : α} (found : front[place]? = some row) : whole[place]? = some row := by
  obtain ⟨-, rfl⟩ := grown
  rw [getElem?_append_left (List.getElem?_eq_some_iff.1 found).1, found]

theorem nameOf_grows (grows : Grows before after) {frame : Nat}
    (named : before.nameOf frame = some name) : after.nameOf frame = some name := by
  simp only [nameOf, bind_eq_bind, bind_eq_some_iff] at named ⊢
  obtain ⟨func, inFrames, place, inFuncs, inStrings⟩ := named
  exact ⟨func, getElem?_of_isPrefix grows.frameFuncs inFrames, place,
    getElem?_of_isPrefix grows.funcNames inFuncs, getElem?_of_isPrefix grows.strings inStrings⟩

/-- A stack that was read is read again from grown tables, with any more fuel. -/
theorem stackOf_grows (grows : Grows before after) {more row : Nat}
    (enough : fuel ≤ more) (stood : before.stackOf fuel row = some names) :
    after.stackOf more row = some names := by
  induction fuel generalizing more row names with
  | zero => simp [stackOf] at stood
  | succ fuel ih =>
    obtain ⟨more, rfl⟩ : ∃ less, more = less + 1 := ⟨more - 1, by omega⟩
    simp only [stackOf, bind_eq_bind, bind_eq_some_iff, Prod.exists] at stood ⊢
    obtain ⟨stem, frame, found, name, named, rest⟩ := stood
    refine ⟨stem, frame, getElem?_of_isPrefix grows.stackRows found, name, nameOf_grows grows named,
      ?_⟩
    cases stem with
    | none => exact rest
    | some stem =>
      obtain ⟨front, below, joined⟩ := map_eq_some_iff.1 rest
      exact map_eq_some_iff.2 ⟨front, ih (by omega) below, joined⟩

/-- Entering a frame: it stands for its name, and the tables stay well formed. -/
theorem frame_spec (wellFormed : tables.WellFormed) (name : String) :
    (tables.frame name).2.WellFormed ∧ Grows tables (tables.frame name).2 ∧
      (tables.frame name).2.nameOf (tables.frame name).1 = some name := by
  have string := tables.strings.intern_interned name
  have func := tables.funcNames.intern_interned (tables.strings.intern name).1
  have frame := tables.frameFuncs.intern_interned
    (tables.funcNames.intern (tables.strings.intern name).1).1
  have stringPlace := (List.getElem?_eq_some_iff.1 string.found).1
  have funcPlace := (List.getElem?_eq_some_iff.1 func.found).1
  refine ⟨⟨?_, ?_, ?_⟩, ⟨string.grown, func.grown, frame.grown, prefix_refl _⟩, ?_⟩
  · intro place member
    rcases func.origin place member with old | rfl
    · exact Nat.lt_of_lt_of_le (wellFormed.funcNames place old) string.grown.length_le
    · exact stringPlace
  · intro place member
    rcases frame.origin place member with old | rfl
    · exact Nat.lt_of_lt_of_le (wellFormed.frameFuncs place old) func.grown.length_le
    · exact funcPlace
  · intro row place stem found
    obtain ⟨inside, earlier⟩ := wellFormed.stackRows row place stem found
    exact ⟨Nat.lt_of_lt_of_le inside frame.grown.length_le, earlier⟩
  · simp only [Tables.frame, Tables.func, Tables.string, nameOf, bind_eq_bind, frame.found,
      bind_some, func.found, string.found]

/-- What the row above a stack stands for. -/
def Stands (tables : Tables) (names : List String) : Option Nat → Prop
  | none => names = []
  | some row => tables.stackOf (row + 1) row = some names

/-- A row that can be read is in the table. -/
theorem lt_of_stackOf {row : Nat} (stood : tables.stackOf fuel row = some names) :
    row < tables.stackRows.rows.length := by
  cases fuel with
  | zero => simp [stackOf] at stood
  | succ =>
    simp only [stackOf, bind_eq_bind, bind_eq_some_iff] at stood
    obtain ⟨_, found, _⟩ := stood
    exact (List.getElem?_eq_some_iff.1 found).1

/-- Entering a row below one that stands for a stack. -/
theorem stack_spec (wellFormed : tables.WellFormed) {frame : Nat}
    (stands : tables.Stands names stem) (named : tables.nameOf frame = some name) :
    (tables.stack stem frame).2.WellFormed ∧ Grows tables (tables.stack stem frame).2 ∧
      (tables.stack stem frame).2.Stands (names ++ [name]) (some (tables.stack stem frame).1) := by
  have interned := tables.stackRows.intern_interned (stem, frame)
  have grows : Grows tables (tables.stack stem frame).2 :=
    ⟨prefix_refl _, prefix_refl _, prefix_refl _, interned.grown⟩
  have rows : (tables.stack stem frame).2.WellFormed := by
    refine ⟨wellFormed.funcNames, wellFormed.frameFuncs, fun row other above found => ?_⟩
    rcases interned.places row (above, other) found with old | ⟨rfl, same⟩
    · exact wellFormed.stackRows row other above old
    cases same
    refine ⟨?_, ?_⟩
    · simp only [nameOf, bind_eq_bind, bind_eq_some_iff] at named
      exact (List.getElem?_eq_some_iff.1 named.choose_spec.1).1
    · rintro earlier ⟨⟩
      exact lt_of_stackOf stands
  refine ⟨rows, grows, ?_⟩
  have found := interned.found
  simp only [Stands, stackOf, bind_eq_bind, bind_eq_some_iff, Prod.exists]
  refine ⟨stem, frame, found, name, nameOf_grows grows named, ?_⟩
  cases stem with
  | none =>
    cases stands
    rfl
  | some stem =>
    have earlier := (rows.stackRows _ frame (some stem) found).2 stem rfl
    exact map_eq_some_iff.2 ⟨names, stackOf_grows grows earlier stands, rfl⟩

/-- Entering a whole stack below a row. -/
theorem chain_spec (names : List String) {tables : Tables} (wellFormed : tables.WellFormed)
    {above : List String} (stands : tables.Stands above stem) :
    (tables.chain stem names).2.WellFormed ∧ Grows tables (tables.chain stem names).2 ∧
      (tables.chain stem names).2.Stands (above ++ names) (tables.chain stem names).1 := by
  induction names generalizing tables stem above with
  | nil => exact ⟨wellFormed, .refl _, by rwa [append_nil]⟩
  | cons name rest ih =>
    obtain ⟨framed, grown, named⟩ := frame_spec wellFormed name
    have stood : (tables.frame name).2.Stands above stem := by
      cases stem with
      | none => exact stands
      | some => exact stackOf_grows grown (Nat.le_refl _) stands
    obtain ⟨stacked, more, below⟩ := stack_spec framed stood named
    obtain ⟨final, longer, all⟩ := ih stacked below
    refine ⟨final, (grown.trans more).trans longer, ?_⟩
    rwa [append_assoc] at all

/-- The samples of folded stacks are read back from the tables they leave. -/
theorem samples_spec (folded : List (List String × Nat)) {tables : Tables}
    (wellFormed : tables.WellFormed) (nonempty : ∀ entry ∈ folded, entry.1 ≠ []) :
    (tables.samples folded).2.WellFormed ∧ Grows tables (tables.samples folded).2 ∧
      (∀ sample ∈ (tables.samples folded).1, sample.1 <
        (tables.samples folded).2.stackRows.rows.length) ∧
      ∀ later, Grows (tables.samples folded).2 later →
        later.read (tables.samples folded).1 = some folded := by
  induction folded generalizing tables with
  | nil => exact ⟨wellFormed, .refl _, by simp [samples], fun _ _ => rfl⟩
  | cons entry rest ih =>
    obtain ⟨stack, count⟩ := entry
    rw [forall_mem_cons] at nonempty
    have root : tables.Stands [] none := rfl
    obtain ⟨chained, grown, stands⟩ := chain_spec stack wellFormed root
    obtain ⟨final, longer, inside, reads⟩ := ih chained nonempty.2
    cases leaf : (tables.chain none stack).1 with
    | none =>
      rw [leaf] at stands
      exact absurd stands nonempty.1
    | some =>
      rw [leaf] at stands
      simp only [samples, leaf]
      have placed := Nat.lt_of_lt_of_le (lt_of_stackOf stands) longer.stackRows.length_le
      refine ⟨final, grown.trans longer, forall_mem_cons.2 ⟨placed, inside⟩, fun later grows => ?_⟩
      have read := reads later grows
      have first := stackOf_grows (longer.trans grows) (Nat.le_refl _) stands
      simp only [Tables.read, mapM_cons, first] at read ⊢
      rw [read]
      rfl

end Tables

/-- The thread of a session: its samples and its tables. -/
def toFirefoxValue (result : SessionResult) : List (Nat × Nat) × Tables :=
  Tables.empty.samples result.folded

/-- Both exports of a session hold its folded stacks with their counts, in tables
whose references are in range and whose rows are distinct; and the counts add up
to the samples that have a frame. -/
theorem exports_agree (result : SessionResult) :
    (Pprof.build result).read = some (result.folded.map fun entry => (entry.1, (entry.2 : Int))) ∧
      (Pprof.build result).WellFormed ∧
      (toFirefoxValue result).2.read (toFirefoxValue result).1 = some result.folded ∧
      (toFirefoxValue result).2.WellFormed ∧
      (∀ sample ∈ (toFirefoxValue result).1, sample.1 <
        (toFirefoxValue result).2.stackRows.rows.length) ∧
      (toFirefoxValue result).2.strings.rows.Nodup ∧
      (toFirefoxValue result).2.funcNames.rows.Nodup ∧
      (toFirefoxValue result).2.frameFuncs.rows.Nodup ∧
      (toFirefoxValue result).2.stackRows.rows.Nodup ∧
      (result.folded.map Prod.snd).sum = (SessionResult.sampled result.samples).length := by
  have start : Tables.empty.WellFormed := ⟨by simp [Tables.empty, Interner.empty],
    by simp [Tables.empty, Interner.empty], by simp [Tables.empty, Interner.empty]⟩
  obtain ⟨wellFormed, -, inside, reads⟩ := Tables.samples_spec result.folded start
    (fun entry member => result.folded_nonempty member)
  exact ⟨Pprof.build_read result, Pprof.build_wellFormed result, reads _ (.refl _), wellFormed,
    inside,
    Interner.nodup _, Interner.nodup _, Interner.nodup _, Interner.nodup _, result.folded_sum⟩

end KernalApi.Profile.Firefox
