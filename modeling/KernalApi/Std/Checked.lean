import Mathlib

/-!
# Arithmetic on signed words of 64 bits

A build that checks for overflow stops at a result that does not fit a word, another
wraps it. Either computes the exact value where every result fits, and the first
nothing else.
-/

namespace KernalApi.Std

/-- A value fits a signed word. -/
def Fits (value : Int) : Prop := -2 ^ 63 ≤ value ∧ value < 2 ^ 63

instance (value : Int) : Decidable (Fits value) := inferInstanceAs (Decidable (_ ∧ _))

/-- The cast `as i64`. -/
def asI64 (value : Int) : Int := value.bmod (2 ^ 64)

/-- The result of an operation, in a build that checks for overflow or in one that does not. -/
def i64 (checks : Bool) (value : Int) : Option Int :=
  if Fits value then some value else if checks then none else some (asI64 value)

/-- A computation gives a value if a condition holds, and with the checks nothing otherwise. -/
structure Computes {α : Type} (checks : Bool) (program : Option α) (fits : Prop) (value : α) :
    Prop where
  exact_ : fits → program = some value
  stops : checks = true → ¬ fits → program = none

variable {α β : Type} {checks : Bool} {program : Option α} {fits fits' : Prop} {value : α}
  {result : β}

theorem i64_of_fits {value : Int} (fits : Fits value) : i64 checks value = some value := if_pos fits

theorem i64_eq_some {value result : Int} (kept : i64 true value = some result) :
    value = result ∧ -2 ^ 63 ≤ result ∧ result < 2 ^ 63 := by
  simp only [i64, if_true] at kept
  split_ifs at kept with fits
  cases kept
  exact ⟨rfl, fits⟩

namespace Computes

theorem ofSome (value : α) : Computes checks (some value) True value :=
  ⟨fun _ => rfl, fun _ never => absurd trivial never⟩

theorem word (value : Int) : Computes checks (i64 checks value) (Fits value) value :=
  ⟨i64_of_fits, fun checked beyond => by rw [i64, if_neg beyond, if_pos checked]⟩

theorem bind {rest : α → Option β} (first : Computes checks program fits value)
    (second : Computes checks (rest value) fits' result) :
    Computes checks (program.bind rest) (fits ∧ fits') result := by
  refine ⟨fun both => ?_, fun checked fails => ?_⟩
  · rw [first.exact_ both.1, Option.bind_some, second.exact_ both.2]
  · by_cases fine : fits
    · rw [first.exact_ fine, Option.bind_some,
        second.stops checked fun also => fails ⟨fine, also⟩]
    · rw [first.stops checked fine, Option.bind_none]

theorem map {f : α → β} (computes : Computes checks program fits value) :
    Computes checks (program.bind fun found => some (f found)) fits (f value) :=
  ⟨fun fine => by rw [computes.exact_ fine, Option.bind_some],
    fun checked fails => by rw [computes.stops checked fails, Option.bind_none]⟩

theorem mapM {each : α → Option β} {fit : α → Prop} {exact_ : α → β}
    (computes : ∀ item, Computes checks (each item) (fit item) (exact_ item)) (items : List α) :
    Computes checks (items.mapM each) (∀ item ∈ items, fit item) (items.map exact_) := by
  induction items with
  | nil => simpa using @ofSome (List β) checks []
  | cons item items ih =>
    rw [List.mapM_cons, List.forall_mem_cons]
    exact (computes item).bind ih.map

end Computes

end KernalApi.Std
