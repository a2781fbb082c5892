import Mathlib
import Manglekit.Core.Types

/-!
# The predicate `rate_limit_exceeded`

A process has one map of limiters, one for every pair of a key and a limit.  A limiter is
created when its pair is first asked for, and creating one may sweep the map.  The time is
read anew by the creation, by the sweep and by the count.
-/

namespace Manglekit.Predicates

open Manglekit.Core

/-- An argument of the predicate, as far as its type switch tells arguments apart. -/
inductive Argument where
  | string (value : String)
  | int64 (value : Int)
  | int (value : Int)
  | other (typeName : String)
  deriving DecidableEq, Repr

/-- The verb `%T`. -/
def Argument.typeName : Argument → String
  | .string _ => "string"
  | .int64 _ => "int64"
  | .int _ => "int"
  | .other typeName => typeName

structure RateLimitEntry where
  count : Int
  windowEnd : Int
  deriving DecidableEq, Repr

structure RateLimiter where
  entries : StringMap RateLimitEntry := ∅
  limit : Int
  window : Int

def second : Int := 10 ^ 9

def minute : Int := 60 * second

def evictInterval : Int := 30 * second

def newRateLimiter (limit window : Int) : RateLimiter := { limit, window }

namespace RateLimiter

def isExceeded (limiter : RateLimiter) (now : Int) (key : String) : Bool × RateLimiter :=
  let opened : RateLimitEntry := ⟨1, now + limiter.window⟩
  match limiter.entries.lookup key with
  | none => (false, { limiter with entries := limiter.entries.insert key opened })
  | some entry =>
    if now > entry.windowEnd then
      (false, { limiter with entries := limiter.entries.insert key opened })
    else
      let counted := { entry with count := entry.count + 1 }
      (counted.count > limiter.limit,
        { limiter with entries := limiter.entries.insert key counted })

def expired (limiter : RateLimiter) (now : Int) : Bool :=
  limiter.entries.entries.all fun entry => ¬ now < entry.2.windowEnd

end RateLimiter

structure Limiters where
  rateLimiters : String → Option RateLimiter := fun _ => none
  rateCallCount : Nat := 0
  lastEvict : Int := 0

structure Call where
  inputs : List Argument
  created : Int
  swept : Int
  counted : Int

def limiterKey (key : String) (limit : Int) : String := key ++ ":" ++ limit.repr

namespace Limiters

def evictExpiredLimiters (now : Int) (limiters : Limiters) : Limiters :=
  { limiters with
    rateLimiters := fun key => (limiters.rateLimiters key).filter (! ·.expired now)
    lastEvict := now }

def evictionDue (now : Int) (limiters : Limiters) : Bool :=
  limiters.rateCallCount % 1000 = 0 ∨ now - limiters.lastEvict ≥ evictInterval

def getOrCreateLimiter (call : Call) (key : String) (limit : Int) (limiters : Limiters) :
    RateLimiter × Limiters :=
  let k := limiterKey key limit
  match limiters.rateLimiters k with
  | some limiter => (limiter, limiters)
  | none =>
    let limiter := newRateLimiter limit minute
    let limiters := { limiters with
      rateLimiters := Function.update limiters.rateLimiters k (some limiter)
      rateCallCount := limiters.rateCallCount + 1 }
    if limiters.evictionDue call.created then
      (limiter, limiters.evictExpiredLimiters call.swept)
    else (limiter, limiters)

/-- Counting changes the limiter that the map points to.  A limiter that the map has lost
keeps the count to itself. -/
def writeBack (k : String) (limiter : RateLimiter) (limiters : Limiters) : Limiters :=
  { limiters with
    rateLimiters := Function.update limiters.rateLimiters k
      ((limiters.rateLimiters k).map fun _ => limiter) }

end Limiters

def pairOf : List Argument → Except String (String × Int)
  | _ :: key :: limit :: _ =>
    match key with
    | .string key =>
      match limit with
      | .int64 limit | .int limit => .ok (key, limit)
      | _ => .ok (key, 100)
    | _ => .error ("key must be string, got " ++ key.typeName)
  | _ => .error "rate_limit_exceeded requires 3 args: entity, key, limit"

def rateLimitExceeded (limiters : Limiters) (call : Call) :
    Except String (List (List Bool)) × Limiters :=
  match pairOf call.inputs with
  | .error err => (.error err, limiters)
  | .ok (key, limit) =>
    let (limiter, limiters) := limiters.getOrCreateLimiter call key limit
    let (exceeded, limiter) := limiter.isExceeded call.counted key
    (.ok (if exceeded then [[true]] else []),
      limiters.writeBack (limiterKey key limit) limiter)

def afterCalls (calls : List Call) : Limiters :=
  calls.foldl (fun limiters call => (rateLimitExceeded limiters call).2) {}

/-! ## Keys -/

theorem colon_not_mem_natRepr (n : Nat) : ':' ∉ n.repr.toList := by
  intro member
  rw [Nat.toList_repr] at member
  have digit := Nat.isDigit_of_mem_toDigits (by decide) (by decide) member
  exact absurd digit (by decide)

theorem colon_not_mem_repr (limit : Int) : ':' ∉ limit.repr.toList := by
  cases limit with
  | ofNat n => exact colon_not_mem_natRepr n
  | negSucc n =>
    intro member
    rw [Int.repr, String.toList_append, List.mem_append] at member
    rcases member with sign | digits
    · exact absurd sign (by decide)
    · exact colon_not_mem_natRepr _ digits

theorem append_cons_eq_of_not_mem {α : Type} {first first' last last' : List α} {separator : α}
    (absent : separator ∉ last) (absent' : separator ∉ last')
    (same : first ++ separator :: last = first' ++ separator :: last') :
    first = first' ∧ last = last' := by
  rcases List.append_eq_append_iff.mp same with ⟨middle, rfl, shifted⟩ | ⟨middle, rfl, shifted⟩
  all_goals
    cases middle with
    | nil => simp_all
    | cons head middle =>
      obtain ⟨rfl, rfl⟩ := List.cons_eq_cons.mp shifted
      simp at absent absent'

theorem limiterKey_injective {key key' : String} {limit limit' : Int}
    (same : limiterKey key limit = limiterKey key' limit') : key = key' ∧ limit = limit' := by
  have lists := congrArg String.toList same
  simp only [limiterKey, String.toList_append, List.append_assoc] at lists
  obtain ⟨keys, limits⟩ :=
    append_cons_eq_of_not_mem (colon_not_mem_repr limit) (colon_not_mem_repr limit') lists
  exact ⟨String.toList_injective keys, Int.repr_injective (String.toList_injective limits)⟩

end Manglekit.Predicates
