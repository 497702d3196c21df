import KernalApi.Std.Saturating
import Mathlib

/-!
# What symbol servers can make the resolver download

The copies of whole bodies are counted against an aggregate. A copy that breaks
off has written its bytes as well, and is not counted.
-/

namespace KernalApi.Symbols

open KernalApi.Std

variable {τ : Type}

def maxSymbolServers : Nat := 8

def maxServerResponseBytes : Nat := 64 * 1024 * 1024

def maxServerAggregateBytes : Nat := 128 * 1024 * 1024

/-- An answer: its body delivers some bytes, and then ends or fails. -/
structure Response where
  status : Nat
  length : Nat
  fails : Bool

/-- A configured server: the URL of the file's key where its base is usable, what it
answers, whether a temporary file can be made and flushed, and what `verify` says of it. -/
structure Server (τ : Type) where
  url : Option String
  response : Option Response
  stores : Bool
  flushes : Bool
  verified : Option τ

inductive ServerResolve (τ : Type)
  | found (url : Option String) (value : τ)
  | notFound
  | mismatched (rejected : Nat)

def ServerResolve.ended : Nat → ServerResolve τ
  | 0 => .notFound
  | rejected => .mismatched rejected

/-- The answer whose body is copied into a file. -/
def Server.body (server : Server τ) : Option Response := do
  let _ ← server.url
  let response ← server.response
  guard (200 ≤ response.status ∧ response.status < 300 ∧ server.stores)
  return response

/-- `io::copy` from `take(limit + 1)`: the bytes written, and whether it succeeds. -/
def Response.copy (limit : Nat) (response : Response) : Nat × Bool :=
  (min response.length (limit + 1), !(response.fails && response.length ≤ limit))

/-- The loop over the servers, with the bytes each body writes and whether its copy succeeds. -/
def fetchFrom (aggregate rejected : Nat) : List (Server τ) → ServerResolve τ × List (Nat × Bool)
  | [] => (.ended rejected, [])
  | server :: rest =>
    let remaining := maxServerAggregateBytes - aggregate
    if remaining = 0 then (.ended rejected, [])
    else
      let limit := min maxServerResponseBytes remaining
      match server.body with
      | none => fetchFrom aggregate rejected rest
      | some response =>
        let (copied, complete) := response.copy limit
        let total := saturatingAdd aggregate copied
        let next :=
          if complete = false then fetchFrom aggregate rejected rest
          else if limit < copied then
            if maxServerAggregateBytes ≤ total then (.ended (rejected + 1), [])
            else fetchFrom total (rejected + 1) rest
          else if server.flushes = false then fetchFrom total rejected rest
          else
            match server.verified with
            | some value => (.found server.url value, [])
            | none => fetchFrom total (rejected + 1) rest
        (next.1, (copied, complete) :: next.2)

def resolveFromServers (servers : List (Server τ)) : ServerResolve τ × List (Nat × Bool) :=
  fetchFrom 0 0 (servers.take maxSymbolServers)

/-- The bytes of the copies that succeed, or of those that break off. -/
def bytesOf (complete : Bool) (copies : List (Nat × Bool)) : Nat :=
  (copies.map fun copy => if copy.2 = complete then copy.1 else 0).sum

/-- The bytes of all the copies. -/
def allBytes (copies : List (Nat × Bool)) : Nat := (copies.map Prod.fst).sum

/-- One body never writes more than a response and a byte; complete bodies together
never more than the aggregate and a byte. -/
def Bounded (aggregate : Nat) (copies : List (Nat × Bool)) : Prop :=
  (∀ copy ∈ copies, copy.1 ≤ maxServerResponseBytes + 1) ∧
    aggregate + bytesOf true copies ≤ maxServerAggregateBytes + 1

section

variable {aggregate copied : Nat} {complete : Bool} {copies : List (Nat × Bool)}

theorem allBytes_eq (copies : List (Nat × Bool)) :
    allBytes copies = bytesOf true copies + bytesOf false copies := by
  unfold allBytes bytesOf
  rw [← List.sum_map_add]
  refine congrArg List.sum (List.map_congr_left fun copy _ => ?_)
  cases copy.2 <;> simp

theorem Bounded.nil (within : aggregate ≤ maxServerAggregateBytes + 1) : Bounded aggregate [] :=
  ⟨by simp, within⟩

theorem Bounded.cons (small : copied ≤ maxServerResponseBytes + 1)
    (bounded : Bounded (if complete = true then aggregate + copied else aggregate) copies) :
    Bounded aggregate ((copied, complete) :: copies) := by
  refine ⟨List.forall_mem_cons.mpr ⟨small, bounded.1⟩, ?_⟩
  have later := bounded.2
  simp only [bytesOf, List.map_cons, List.sum_cons] at later ⊢
  split at later <;> simp_all; omega

theorem fetchFrom_bounded (servers : List (Server τ)) (rejected : Nat)
    (within : aggregate ≤ maxServerAggregateBytes + 1) :
    Bounded aggregate (fetchFrom aggregate rejected servers).2 := by
  induction servers generalizing aggregate rejected with
  | nil => exact .nil within
  | cons server servers ih =>
    unfold fetchFrom
    dsimp only
    split
    · exact .nil within
    split
    · exact ih rejected within
    rename_i left response found
    generalize limited : min maxServerResponseBytes (maxServerAggregateBytes - aggregate) = limit
    have copies : (response.copy limit).1 ≤ limit + 1 := Nat.min_le_right _ _
    have fits : aggregate + (response.copy limit).1 ≤ maxServerAggregateBytes + 1 := by omega
    have counted : saturatingAdd aggregate (response.copy limit).1
        = aggregate + (response.copy limit).1 := by
      exact Nat.min_eq_left (Nat.le_trans fits (by decide))
    apply Bounded.cons (by omega)
    rw [counted]
    split
    next whole =>
      rw [if_neg (by simp [whole])]
      split
      · split
        · exact .nil fits
        · exact ih _ fits
      split
      · exact ih _ fits
      split
      · exact .nil fits
      · exact ih _ fits
    next broken =>
      rw [if_pos (by simpa using broken)]
      exact ih rejected within

end

/-- A server whose body ends after some bytes, or breaks off there. -/
def plainServer (length : Nat) (fails : Bool) : Server Unit :=
  ⟨some "http://symbols/key", some ⟨200, length, fails⟩, true, true, none⟩

end KernalApi.Symbols
