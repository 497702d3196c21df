import KernalApi.Profile.Session
import Mathlib

/-!
# Collapsed stacks

One line for each stack: the frames joined by semicolons, a space and a number.
The format has no escapes, so a semicolon inside a frame name is written as a
colon. The module states how a consumer reads the text, and that it reads back
the folded stacks of a session and the waiting time of the tasks.
-/

namespace KernalApi.Profile

open KernalApi.Std List

/-- `frame.replace(';', ":")`. -/
def sanitized (frame : String) : List Char := frame.toList.map fun c => if c = ';' then ':' else c

def joined (stack : List String) : List Char := [';'].intercalate (stack.map sanitized)

def decimal : Int → List Char
  | .ofNat number => Nat.toDigits 10 number
  | .negSucc number => '-' :: Nat.toDigits 10 (number + 1)

/-- The line of a stack, without its line feed. -/
def line (stack : List Char) (count : Int) : List Char := stack ++ ' ' :: decimal count

def SessionResult.toCollapsed (result : SessionResult) : List Char :=
  result.folded.flatMap fun (stack, count) => line (joined stack) count ++ ['\n']

/-- What the exporter reads of a task: where it was spawned, root first, and for
how long it waited. -/
structure TaskSample where
  spawnStack : List String
  idleNanos : Int

namespace TaskSample

/-- The waiting time of each stack; the sum wraps as the 64-bit integer does. -/
def idleTimes (samples : List TaskSample) : SortedMap (List Char) Int :=
  samples.foldl (fun folded sample =>
    if sample.idleNanos ≤ 0 ∨ sample.spawnStack = [] then folded
    else
      let stack := joined sample.spawnStack
      folded.insert stack (((folded.get? stack).getD 0 + sample.idleNanos).bmod (2 ^ 64))) .empty

/-- Longest wait first, then by the stack. -/
def longer (first second : List Char × Int) : Bool :=
  decide (second.2 < first.2) || (decide (first.2 = second.2) && decide (first.1 ≤ second.1))

def rows (samples : List TaskSample) : List (List Char × Int) :=
  (idleTimes samples).entries.insertionSort fun first second => longer first second

def toCollapsed (samples : List TaskSample) : List Char :=
  (rows samples).flatMap fun (stack, nanos) => line stack nanos ++ ['\n']

end TaskSample

/-! ## The consumer -/

/-- The number that a decimal text stands for. -/
def number : List Char → Int
  | '-' :: digits => -(Nat.ofDigitChars 10 digits 0 : Int)
  | digits => Nat.ofDigitChars 10 digits 0

/-- A line is split at its last space, the text before it at the semicolons. -/
def readLine (line : List Char) : List (List Char) × Int :=
  ((line.rdropWhile fun c => c ≠ ' ').dropLast.splitOn ';',
    number (line.rtakeWhile fun c => c ≠ ' '))

def readLines (text : List Char) : List (List (List Char) × Int) :=
  ((text.splitOn '\n').dropLast).map readLine

theorem digit_of_mem {c : Char} {count : Nat} (member : c ∈ Nat.toDigits 10 count) : c.isDigit :=
  Nat.isDigit_of_mem_toDigits (by decide) (by decide) member

theorem decimal_lacks {c : Char} (separator : c = ' ' ∨ c = '\n') (count : Int) :
    c ∉ decimal count := by
  intro member
  have plain : c = '-' ∨ c.isDigit := by
    cases count with
    | ofNat count => exact .inr (digit_of_mem member)
    | negSucc count => exact (mem_cons.mp member).imp_right digit_of_mem
  rcases separator with rfl | rfl <;> exact absurd plain (by decide)

theorem number_decimal (count : Int) : number (decimal count) = count := by
  have digits (count : Nat) : Nat.ofDigitChars 10 (Nat.toDigits 10 count) 0 = count :=
    Nat.ofDigitChars_toDigits (by decide) (by decide)
  cases count with
  | negSucc count =>
    simp only [decimal, number, digits]
    omega
  | ofNat count =>
    -- A natural number's text never opens with the sign.
    rw [decimal, number]
    · rw [digits]
      rfl
    intro rest opens
    have sign : '-' ∈ Nat.toDigits 10 count := by simp [opens]
    exact absurd (digit_of_mem sign) (by decide)

theorem readLine_line (stack : List Char) (count : Int) :
    readLine (line stack count) = (stack.splitOn ';', count) := by
  have digits : ∀ c ∈ (decimal count).reverse, (decide (c ≠ ' ')) = true := by
    intro c member
    refine decide_eq_true fun space => ?_
    exact decimal_lacks (.inl space) count (mem_reverse.mp member)
  have text : (line stack count).reverse = (decimal count).reverse ++ ' ' :: stack.reverse := by
    simp [line]
  have before : ((line stack count).rdropWhile fun c => c ≠ ' ') = stack ++ [' '] := by
    rw [rdropWhile, text, dropWhile_append_of_pos digits]
    simp
  have after : ((line stack count).rtakeWhile fun c => c ≠ ' ') = decimal count := by
    rw [rtakeWhile, text, takeWhile_append_of_pos digits]
    simp
  rw [readLine, before, after, dropLast_concat, number_decimal]

/-- Lines without a line feed of their own are read one by one. -/
theorem readLines_rows (rows : List (List Char × Int)) (single : ∀ row ∈ rows, '\n' ∉ row.1) :
    readLines (rows.flatMap fun row => line row.1 row.2 ++ ['\n']) =
      rows.map fun row => (row.1.splitOn ';', row.2) := by
  induction rows with
  | nil => rfl
  | cons row rows ih =>
    have unbroken : '\n' ∉ line row.1 row.2 := by
      rw [line, mem_append, mem_cons]
      rintro (inStack | space | inCount)
      · exact single row mem_cons_self inStack
      · exact absurd space (by decide)
      · exact decimal_lacks (.inr rfl) _ inCount
    have rest := ih fun row member => single row (mem_cons_of_mem _ member)
    rw [readLines] at rest
    rw [flatMap_cons, readLines, append_assoc, singleton_append,
      splitOn_append_cons_self_of_not_mem unbroken, dropLast_cons_of_ne_nil (splitOn_ne_nil _ _),
      map_cons, map_cons, readLine_line, rest]

/-- As many lines are read as there are line feeds, so a feed in a stack adds one. -/
theorem single_of_readLines {rows : List (List Char × Int)}
    (same : (readLines (rows.flatMap fun row => line row.1 row.2 ++ ['\n'])).length = rows.length) :
    ∀ row ∈ rows, '\n' ∉ row.1 := by
  have split (text : List Char) : (text.splitOn '\n').length = text.count '\n' + 1 := by
    induction text with
    | nil => rfl
    | cons c text ih =>
      rw [splitOn_cons_eq_if_modifyHead]
      split <;> simp_all
  have feeds (row : List Char × Int) :
      (line row.1 row.2 ++ ['\n']).count '\n' = row.1.count '\n' + 1 := by
    simp [line, count_eq_zero_of_not_mem (decimal_lacks (.inr rfl) row.2)]
  rw [readLines, length_map, length_dropLast, split, Nat.add_sub_cancel, count_flatMap,
    Function.comp_def, map_congr_left fun row _ => feeds row, sum_map_add, map_const',
      sum_replicate, smul_eq_mul,
    Nat.mul_one, Nat.add_eq_right, sum_eq_zero_iff] at same
  exact fun row member => count_eq_zero.mp (same _ (mem_map_of_mem member))

/-! ## Joined frames -/

theorem sanitized_lacks (frame : String) : ';' ∉ sanitized frame := by
  intro member
  obtain ⟨c, -, mapped⟩ := mem_map.mp member
  split at mapped
  · exact absurd mapped (by decide)
  · contradiction

theorem joined_splitOn {stack : List String} (frames : stack ≠ []) :
    (joined stack).splitOn ';' = stack.map sanitized := by
  refine splitOn_intercalate ';' ?_ (by simpa using frames)
  intro text member
  obtain ⟨frame, -, rfl⟩ := mem_map.mp member
  exact sanitized_lacks frame

theorem joined_single {stack : List String} :
    '\n' ∉ joined stack ↔ ∀ frame ∈ stack, '\n' ∉ frame.toList := by
  have plain (frame : String) : '\n' ∈ sanitized frame ↔ '\n' ∈ frame.toList := by
    unfold sanitized
    grind
  induction stack with
  | nil => simp [joined]
  | cons frame stack ih =>
    rw [forall_mem_cons, ← ih.eq, ← plain]
    cases stack <;> simp [joined]

namespace TaskSample

variable {samples : List TaskSample}

/-- The sample counts: its task waited, and it is known where it was spawned. -/
def waited (sample : TaskSample) : Prop := 0 < sample.idleNanos ∧ sample.spawnStack ≠ []

instance (sample : TaskSample) : Decidable sample.waited := inferInstanceAs (Decidable (_ ∧ _))

/-- The frames of the sample as they are exported. -/
def stack (sample : TaskSample) : List (List Char) := sample.spawnStack.map sanitized

/-- The waiting times of a stack added up. -/
def idle (samples : List TaskSample) (stack : List (List Char)) : Int :=
  ((samples.filter fun sample => sample.waited ∧ sample.stack = stack).map idleNanos).sum

theorem idle_eq_zero {stack : List (List Char)}
    (nobody : ¬∃ sample ∈ samples, sample.waited ∧ sample.stack = stack) :
    idle samples stack = 0 := by
  have none : (samples.filter fun sample => sample.waited ∧ sample.stack = stack) = [] :=
    filter_eq_nil_iff.mpr fun sample member yes => nobody ⟨sample, member, by simpa using yes⟩
  rw [idle, none]
  rfl

theorem joined_eq_iff {sample : TaskSample} (waits : sample.waited) {key : List Char} :
    key = joined sample.spawnStack ↔ sample.stack = key.splitOn ';' := by
  constructor
  · rintro rfl
    exact (joined_splitOn waits.2).symm
  · intro same
    have whole : [';'].intercalate (key.splitOn ';') = key := intercalate_splitOn ';'
    rw [← whole, ← same]
    rfl

/-- What a stack's entry holds after all samples. -/
theorem idleTimes_get? (samples : List TaskSample) (key : List Char) :
    (idleTimes samples).get? key =
      if ∃ sample ∈ samples, sample.waited ∧ sample.stack = key.splitOn ';'
      then some ((idle samples (key.splitOn ';')).bmod (2 ^ 64)) else none := by
  induction samples using reverseRecOn with
  | nil => simp [idleTimes]
  | append_singleton samples sample ih =>
    have step : idleTimes (samples ++ [sample]) =
        if sample.idleNanos ≤ 0 ∨ sample.spawnStack = [] then idleTimes samples
        else (idleTimes samples).insert (joined sample.spawnStack)
          ((((idleTimes samples).get? (joined sample.spawnStack)).getD 0 + sample.idleNanos).bmod
            (2 ^ 64)) := by
      simp [idleTimes]
    by_cases waits : sample.waited
    · rw [step, if_neg (by simpa [waited] using waits), SortedMap.get?_insert]
      by_cases same : sample.stack = key.splitOn ';'
      · obtain rfl := (joined_eq_iff waits).mpr same
        have before : ((idleTimes samples).get? (joined sample.spawnStack)).getD 0 =
            (idle samples ((joined sample.spawnStack).splitOn ';')).bmod (2 ^ 64) := by
          rw [ih]
          split
          · rfl
          rename_i nobody
          rw [idle_eq_zero nobody]
          rfl
        rw [before]
        simp [idle, waits, same]
      · rw [if_neg (fun other => same ((joined_eq_iff waits).mp other)), ih]
        simp [idle, same]
    · rw [step, if_pos (by simpa [waited, imp_iff_not_or] using waits), ih]
      simp [idle, waits]

/-- What is written: the stacks of the samples that count, with their waiting times. -/
theorem mem_rows {key : List Char} {nanos : Int} :
    (key, nanos) ∈ rows samples ↔
      (∃ sample ∈ samples, sample.waited ∧ sample.stack = key.splitOn ';') ∧
        (idle samples (key.splitOn ';')).bmod (2 ^ 64) = nanos := by
  rw [rows, (perm_insertionSort _ _).mem_iff, SortedMap.mem_entries_iff, idleTimes_get?,
    Option.ite_none_right_eq_some, Option.some_inj]

/-- The rows as they are to be read. -/
def readRows (samples : List TaskSample) : List (List (List Char) × Int) :=
  (rows samples).map fun row => (row.1.splitOn ';', row.2)

theorem mem_readRows {stack : List (List Char)} {nanos : Int} :
    (stack, nanos) ∈ readRows samples ↔
      (∃ sample ∈ samples, sample.waited ∧ sample.stack = stack) ∧
        (idle samples stack).bmod (2 ^ 64) = nanos := by
  rw [readRows, mem_map]
  constructor
  · rintro ⟨⟨key, value⟩, written, same⟩
    obtain ⟨rfl, rfl⟩ := Prod.mk.inj same
    exact mem_rows.mp written
  · rintro ⟨⟨sample, member, waits, rfl⟩, rfl⟩
    have split : (joined sample.spawnStack).splitOn ';' = sample.stack := joined_splitOn waits.2
    refine ⟨(joined sample.spawnStack, _), mem_rows.mpr ?_, by rw [split]⟩
    rw [split]
    exact ⟨⟨sample, member, waits, rfl⟩, rfl⟩

theorem readRows_nodup (samples : List TaskSample) : ((readRows samples).map Prod.fst).Nodup := by
  have keys : ((idleTimes samples).entries.map fun row => row.1.splitOn ';').Nodup := by
    refine pairwise_map.mpr ((idleTimes samples).sorted.imp ?_)
    intro first second less same
    have equal := congrArg [';'].intercalate same
    rw [intercalate_splitOn, intercalate_splitOn] at equal
    exact absurd equal less.ne
  rw [readRows, map_map]
  exact ((perm_insertionSort _ _).map _).nodup_iff.mpr keys

theorem idle_nonneg (samples : List TaskSample) (stack : List (List Char)) :
    0 ≤ idle samples stack := by
  apply sum_nonneg
  intro nanos member
  obtain ⟨sample, kept, rfl⟩ := mem_map.mp member
  have positive := (of_decide_eq_true (mem_filter.mp kept).2).1.1
  exact positive.le

/-- The consumer reads the rows exactly if no stack that counts holds a line feed. -/
theorem readLines_toCollapsed_iff :
    (readLines (toCollapsed samples)).length = (rows samples).length ↔
      ∀ sample ∈ samples, sample.waited → ∀ frame ∈ sample.spawnStack, '\n' ∉ frame.toList := by
  constructor
  · intro same sample member waits
    have written := mem_rows.mpr ⟨⟨sample, member, waits, (joined_splitOn waits.2).symm⟩, rfl⟩
    exact joined_single.mp (single_of_readLines same _ written)
  · intro single
    rw [toCollapsed, readLines_rows _ ?_, length_map]
    rintro ⟨key, nanos⟩ written
    obtain ⟨⟨sample, member, waits, same⟩, -⟩ := mem_rows.mp written
    rw [(joined_eq_iff waits).mpr same]
    exact joined_single.mpr (single sample member waits)

end TaskSample

open TaskSample in
/-- The consumer reads back the folded stacks of a session exactly if none of their frame names
holds a line feed, and of the tasks one line for each stack with its whole waiting time exactly
if no frame of a task that waited does and no stack's waiting time passes the 64-bit range. -/
theorem toCollapsed_readLines (result : SessionResult) (samples : List TaskSample) :
    (readLines result.toCollapsed = result.folded.map (fun entry =>
        (entry.1.map sanitized, (entry.2 : Int))) ↔
      ∀ entry ∈ result.folded, ∀ frame ∈ entry.1, '\n' ∉ frame.toList) ∧
    (((readLines (toCollapsed samples)).map Prod.fst).Nodup ∧
      (∀ stack nanos, (stack, nanos) ∈ readLines (toCollapsed samples) ↔
        (∃ sample ∈ samples, sample.waited ∧ sample.stack = stack) ∧ nanos = idle samples stack) ↔
      (∀ sample ∈ samples, sample.waited → ∀ frame ∈ sample.spawnStack, '\n' ∉ frame.toList) ∧
        ∀ stack, idle samples stack < 2 ^ 63) := by
  constructor
  · let written := result.folded.map fun entry => (joined entry.1, (entry.2 : Int))
    have text : result.toCollapsed = written.flatMap fun row => line row.1 row.2 ++ ['\n'] := by
      rw [flatMap_map]
      rfl
    constructor
    · intro read entry member
      have same : (readLines (written.flatMap fun row => line row.1 row.2 ++ ['\n'])).length =
          written.length := by
        simp [← text, read, written]
      exact joined_single.mp (single_of_readLines same _ (mem_map_of_mem member))
    · intro single
      rw [text, readLines_rows written ?_, map_map]
      · refine map_congr_left ?_
        rintro ⟨stack, count⟩ member
        simp [joined_splitOn (result.folded_nonempty member)]
      · intro row member
        obtain ⟨entry, kept, rfl⟩ := mem_map.mp member
        exact joined_single.mpr (single entry kept)
  · have read (same : (readLines (toCollapsed samples)).length = (rows samples).length) :
        readLines (toCollapsed samples) = readRows samples :=
      readLines_rows _ (single_of_readLines same)
    constructor
    · rintro ⟨distinct, exact_⟩
      -- Both lists have each stack that counts once, so they are of one length.
      have alike : ((readLines (toCollapsed samples)).map Prod.fst).Perm
          ((readRows samples).map Prod.fst) := by
        refine (perm_ext_iff_of_nodup distinct (readRows_nodup samples)).mpr fun stack => ?_
        simp [exact_, mem_readRows]
      have same : (readLines (toCollapsed samples)).length = (rows samples).length := by
        simpa [readRows] using alike.length_eq
      refine ⟨readLines_toCollapsed_iff.mp same, fun stack => ?_⟩
      by_cases counts : ∃ sample ∈ samples, sample.waited ∧ sample.stack = stack
      · have kept := (exact_ stack _).mpr ⟨counts, rfl⟩
        rw [read same, mem_readRows] at kept
        have small := @Int.bmod_lt (idle samples stack) (2 ^ 64) (by decide)
        omega
      · rw [idle_eq_zero counts]
        decide
    · rintro ⟨single, fits⟩
      rw [read (readLines_toCollapsed_iff.mpr single)]
      refine ⟨readRows_nodup samples, fun stack nanos => ?_⟩
      have exact_ : (idle samples stack).bmod (2 ^ 64) = idle samples stack := by
        have low := idle_nonneg samples stack
        have high := fits stack
        exact Int.bmod_eq_of_le (by omega) (by omega)
      rw [mem_readRows, exact_, eq_comm]

/-- A session with one sample of one frame. -/
def oneFrame (name : String) : SessionResult where
  samples := [⟨[name], false⟩]
  startUnixNanos := 0
  durationNanos := 0
  periodNanos := 0

/-- A line feed in a frame name forges a line, and waiting times that add up to
more than the 64-bit range are written as a negative number. -/
theorem toCollapsed_forges :
    readLines (oneFrame "main 9\nother").toCollapsed =
        [([['m', 'a', 'i', 'n']], 9), ([['o', 't', 'h', 'e', 'r']], 1)] ∧
      readLines (TaskSample.toCollapsed [⟨["t"], 2 ^ 63 - 1⟩, ⟨["t"], 1⟩]) =
        [([['t']], -2 ^ 63)] := by
  decide +kernel

end KernalApi.Profile
