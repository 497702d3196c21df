import KernalApi.Std.LittleEndian
import KernalApi.Std.Utf8

/-!
# The command line in a `KERN_PROCARGS2` buffer

The buffer counts its arguments and does not mark their end, so one NUL too many
before the first of them moves the window into the environment.
-/

namespace KernalApi.Platform.Cmdline

open KernalApi.Std List

/-- A NUL-terminated string of the buffer. -/
def terminated (part : List UInt8) : List UInt8 := part ++ [0]

/-- The documented layout: the count, the executable's path, padding, the arguments and
the environment. -/
def layout (path : List UInt8) (padding : Nat) (args env : List (List UInt8)) : List UInt8 :=
  leBytes 4 args.length ++ terminated path ++ List.replicate padding 0 ++
    (args ++ env).flatMap terminated

/-- `String::from_utf8_lossy`. -/
def text (bytes : List UInt8) : String := String.ofList (Utf8.lossy bytes)

/-- The argument loop, which stops at the end of the buffer. -/
def readArgv : Nat → List UInt8 → List String
  | 0, _ => []
  | _ + 1, [] => []
  | argc + 1, bytes =>
    text (bytes.takeWhile (· != 0)) :: readArgv argc ((bytes.dropWhile (· != 0)).drop 1)

def parseProcargs2 (buf : List UInt8) : String :=
  if buf.length < 4 then "" else
    let argc : Int := (leValue (buf.take 4) : Int).bmod (2 ^ 32)
    if argc ≤ 0 then "" else
      let path := (buf.drop 4).dropWhile (· != 0)
      " ".intercalate (readArgv argc.toNat (path.dropWhile (· == 0)))

/-- The strings as they are shown. -/
def line (parts : List (List UInt8)) : String := " ".intercalate (parts.map text)

/-- The strings that are taken for the arguments: empty ones at the front pass for padding. -/
def window (args env : List (List UInt8)) : List (List UInt8) :=
  ((args ++ env).dropWhile List.isEmpty).take args.length

variable {path rest : List UInt8} {args env strings : List (List UInt8)}

theorem untilZero_terminated (clean : 0 ∉ path) :
    (terminated path ++ rest).takeWhile (· != 0) = path ∧
      (terminated path ++ rest).dropWhile (· != 0) = 0 :: rest := by
  have kept : ∀ byte ∈ path, (byte != 0) = true := by
    intro byte member
    exact bne_iff_ne.mpr fun zero => clean (zero ▸ member)
  rw [terminated, append_assoc, takeWhile_append_of_pos kept, dropWhile_append_of_pos kept]
  simp

/-- So many strings are read, each in its place and only up to its NUL. -/
theorem readArgv_terminated (argc : Nat) (clean : ∀ part ∈ strings, 0 ∉ part) :
    readArgv argc (strings.flatMap terminated) = (strings.take argc).map text := by
  induction strings generalizing argc with
  | nil => cases argc <;> rfl
  | cons part strings ih =>
    obtain ⟨here, later⟩ := forall_mem_cons.mp clean
    cases argc with
    | zero => rfl
    | succ argc =>
      have filled : terminated part ++ strings.flatMap terminated ≠ [] := by simp [terminated]
      rw [flatMap_cons, readArgv.eq_3 _ _ filled, (untilZero_terminated here).1,
        (untilZero_terminated here).2, drop_one, tail_cons, ih argc later, take_succ_cons, map_cons]

/-- Empty strings look like padding. -/
theorem dropZeros_terminated (clean : ∀ part ∈ strings, 0 ∉ part) :
    (strings.flatMap terminated).dropWhile (· == 0) =
      (strings.dropWhile List.isEmpty).flatMap terminated := by
  induction strings with
  | nil => rfl
  | cons part strings ih =>
    obtain ⟨here, later⟩ := forall_mem_cons.mp clean
    cases part with
    | nil => simpa [terminated] using ih later
    | cons byte part =>
      have other : byte ≠ 0 := fun zero => here (zero ▸ mem_cons_self)
      simp [terminated, other]

/-- What is shown of a buffer. -/
theorem parseProcargs2_eq {padding : Nat} (clean : ∀ part ∈ path :: (args ++ env), 0 ∉ part)
    (fits : args.length < 2 ^ 31) :
    parseProcargs2 (layout path padding args env) = line (window args env) := by
  obtain ⟨cleanPath, cleanStrings⟩ := forall_mem_cons.mp clean
  have cleanRest : ∀ part ∈ (args ++ env).dropWhile List.isEmpty, 0 ∉ part :=
    fun part member => cleanStrings part ((dropWhile_suffix _).mem member)
  have counted : ((leValue (leBytes 4 args.length) : Nat) : Int).bmod (2 ^ 32) = args.length := by
    rw [leValue_leBytes (by omega)]
    exact Int.bmod_eq_of_le (by omega) (by omega)
  have skipped (bytes : List UInt8) :
      (0 :: (replicate padding 0 ++ bytes)).dropWhile (· == 0) = bytes.dropWhile (· == 0) := by
    rw [dropWhile_cons_of_pos (by rfl), dropWhile_append_of_pos (by simp)]
  have long (tail : List UInt8) : ¬ (leBytes 4 args.length ++ tail).length < 4 := by simp
  simp only [parseProcargs2, layout, append_assoc, if_neg (long _),
    take_left' (length_leBytes 4 args.length), drop_left' (length_leBytes 4 args.length), counted,
    (untilZero_terminated cleanPath).2, skipped, Int.toNat_natCast]
  rw [dropZeros_terminated cleanStrings, readArgv_terminated _ cleanRest]
  split
  next none =>
    have empty : args.length = 0 := by omega
    simp [line, window, empty]
  next => rfl

theorem line_spaces (count : Nat) (later : strings ≠ []) :
    (line (replicate count [] ++ strings)).toList =
    replicate count ' ' ++ (line strings).toList := by
  induction count with
  | zero => rfl
  | succ count ih =>
    rw [replicate_succ, replicate_succ, cons_append, cons_append, ← ih, line, map_cons,
      String.intercalate_cons_of_ne_nil (by simp [later])]
    simp [line, text]

/-- Empty first arguments are missed, unless nothing but spaces is shown. -/
theorem line_window_eq (first : args.head? = some []) (same : line (window args env) = line args) :
    ∀ letter ∈ (line args).toList, letter = ' ' := by
  let tail := args.dropWhile List.isEmpty
  obtain ⟨count, split⟩ : ∃ count, args = replicate (count + 1) [] ++ tail := by
    obtain ⟨rest, rfl⟩ := head?_eq_some_iff.mp first
    refine ⟨(rest.takeWhile List.isEmpty).length, ?_⟩
    have empty : rest.takeWhile List.isEmpty = replicate (rest.takeWhile List.isEmpty).length [] :=
      eq_replicate_iff.mpr ⟨rfl, fun part member => isEmpty_iff.mp (mem_takeWhile_imp member)⟩
    rw [replicate_succ, ← empty, cons_append, show tail = rest.dropWhile List.isEmpty from rfl,
      takeWhile_append_dropWhile]
  by_cases ended : tail = []
  · rw [split, ended, append_nil, replicate_succ', line_spaces count (by simp)]
    simp [line, text, mem_replicate]
  have shown : (line args).toList = replicate (count + 1) ' ' ++ (line tail).toList := by
    rw [split, line_spaces _ ended]
  obtain ⟨more, moved⟩ : ∃ more, (line (window args env)).toList = (line tail).toList ++ more := by
    have taken : window args env = tail ++ env.take (args.length - tail.length) := by
      have short : tail.length ≤ args.length := (dropWhile_suffix _).length_le
      rw [window, dropWhile_append, if_neg fun none => ended (isEmpty_iff.mp none), take_append,
        take_of_length_le short]
    rw [taken]
    by_cases none : env.take (args.length - tail.length) = []
    · exact ⟨[], by simp [none]⟩
    · rw [line, map_append, String.intercalate_append_of_ne_nil (by simpa using ended)
        (by simpa using none)]
      simp only [String.toList_append, append_assoc]
      exact ⟨_, rfl⟩
  -- A letter that is no space would come one place earlier for each argument that is missed.
  have equal := congrArg (takeWhile (· == ' ')) (moved.symm.trans ((congrArg _ same).trans shown))
  rw [takeWhile_append, takeWhile_append_of_pos (by simp)] at equal
  split at equal
  next all =>
    have blank := takeWhile_eq_self_iff.mp (( takeWhile_prefix _).eq_of_length all)
    rw [shown]
    simpa using blank
  next =>
    have := congrArg length equal
    simp at this

/-- Of every buffer exactly the arguments are shown, whatever the environment, if the first
argument is not empty; otherwise only where spaces stand for spaces. -/
theorem parseProcargs2_layout (path : List UInt8) (padding : Nat) (args env : List (List UInt8))
    (strings : ∀ part ∈ path :: (args ++ env), 0 ∉ part) (counted : args.length < 2 ^ 31) :
    parseProcargs2 (layout path padding args env) = line args ↔
      args.head? ≠ some [] ∨ ∃ spaces, (line args).toList = List.replicate spaces ' ' ∧
        (line (window args env)).toList = List.replicate spaces ' ' := by
  rw [parseProcargs2_eq strings counted]
  constructor
  · intro same
    refine or_iff_not_imp_left.mpr fun first => ⟨(line args).toList.length, ?_, ?_⟩
    · exact eq_replicate_iff.mpr ⟨rfl, line_window_eq (not_not.mp first) same⟩
    · rw [same]
      exact eq_replicate_iff.mpr ⟨rfl, line_window_eq (not_not.mp first) same⟩
  · rintro (first | ⟨spaces, expected, shown⟩)
    · have unmoved : window args env = args := by
        rcases args with _ | ⟨_ | ⟨byte, part⟩, args⟩
        · rfl
        · exact absurd rfl first
        · simp [window]
      rw [unmoved]
    · exact String.toList_inj.mp (shown.trans expected.symm)

/-- Two arguments, the second empty, and a variable of the environment. -/
theorem parseProcargs2_layout_echo :
    parseProcargs2 (layout [47] 6 [[101], []] [[75, 61, 49]]) = line [[101], []] :=
  (parseProcargs2_layout _ _ _ _ (by decide) (by decide)).mpr (.inl (by decide))

/-- The NUL of an empty first argument is taken for padding, and the environment is shown
in its place. -/
theorem parseProcargs2_shows_environment :
    parseProcargs2 (layout [47] 6 [[]] [[75, 61, 49]]) = "K=1" := by
  have shown : text [75, 61, 49] = "K=1" := by
    have decoded := Utf8.lossy_encode "K=1".toList
    exact congrArg String.ofList decoded
  rw [← shown]
  exact parseProcargs2_eq (by decide) (by decide)

end KernalApi.Platform.Cmdline
