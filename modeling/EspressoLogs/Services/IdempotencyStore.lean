import EspressoLogs.Lib.Ordered
import Mathlib.Algebra.Order.Ring.Rat
import Mathlib.Tactic.Linarith

/-!
The per-process cache of the responses to keyed requests.

Times are what the monotonic clock reads, in seconds.
-/

namespace EspressoLogs

open Lib

namespace IdempotencyStore

/-- A sentinel while the write is in flight, with the response after it. -/
structure Entry (R : Type) where
  response : Option R
  ts : ℚ
  inFlight : Bool
  deriving DecidableEq

abbrev Cache (R : Type) := Ordered String (Entry R)

/-- `_DEFAULT_TTL_SECONDS`. -/
def defaultTtlSeconds : ℚ := 300

variable {R : Type} (ttl : ℚ)

/-- `_evict_expired`. -/
def evictExpired (now : ℚ) (cache : Cache R) : Cache R :=
  cache.filter fun _ entry => !decide (entry.ts < now - ttl)

/-- `check_and_set_sentinel`, which reads the clock to evict, and again for a
sentinel. -/
def checkAndSetSentinel (key : String) (now later : ℚ) (cache : Cache R) : Option R × Cache R :=
  match (evictExpired ttl now cache).get key with
  | some entry =>
      if !entry.inFlight then (entry.response, evictExpired ttl now cache)
      else (none, evictExpired ttl now cache)
  | none => (none, (evictExpired ttl now cache).set key ⟨none, later, true⟩)

/-- `store`. -/
def store (key : String) (response : R) (now : ℚ) (cache : Cache R) : Cache R :=
  cache.set key ⟨some response, ((cache.get key).map Entry.ts).getD now, false⟩

section Lemmas

variable {ttl} {cache : Cache R} {key : String} {now later : ℚ}

theorem get_evictExpired {k : String} {entry : Entry R} :
    (evictExpired ttl now cache).get k = some entry ↔
      cache.get k = some entry ∧ now - ttl ≤ entry.ts := by
  rw [evictExpired, Ordered.get_filter_eq_some_iff, Bool.not_eq_true', decide_eq_false_iff_not,
    not_lt]

/-- What a check leaves: the entries that have not expired, and its sentinel. -/
theorem get_checked {k : String} {entry : Entry R}
    (there : (checkAndSetSentinel ttl key now later cache).2.get k = some entry) :
    (evictExpired ttl now cache).get k = some entry ∨
      (k = key ∧ (evictExpired ttl now cache).get key = none ∧ entry = ⟨none, later, true⟩) := by
  unfold checkAndSetSentinel at there
  split at there
  · split at there
    · exact .inl there
    · exact .inl there
  · rename_i absent
    rw [Ordered.get_set] at there
    split at there
    · rename_i same
      exact .inr ⟨same, absent, (Option.some.inj there).symm⟩
    · exact .inl there

theorem answer_of_absent (absent : (evictExpired ttl now cache).get key = none) :
    (checkAndSetSentinel ttl key now later cache).1 = none := by
  rw [checkAndSetSentinel, absent]

/-- A check answers what is in a complete entry of the key that has not expired. -/
theorem exists_of_answer {response : R}
    (answered : (checkAndSetSentinel ttl key now later cache).1 = some response) :
    ∃ entry, (evictExpired ttl now cache).get key = some entry ∧ entry.inFlight = false ∧
      entry.response = some response := by
  unfold checkAndSetSentinel at answered
  split at answered
  · rename_i entry there
    split at answered
    · rename_i complete
      exact ⟨entry, there, by simpa using complete, answered⟩
    · cases answered
  · cases answered

theorem get_store {k : String} {response : R} {entry : Entry R}
    (there : (store key response now cache).get k = some entry) :
    (k ≠ key ∧ cache.get k = some entry) ∨
      (k = key ∧ entry = ⟨some response, ((cache.get key).map Entry.ts).getD now, false⟩) := by
  rw [store, Ordered.get_set] at there
  split at there
  · rename_i same
    exact .inr ⟨same, (Option.some.inj there).symm⟩
  · rename_i other
    exact .inl ⟨other, there⟩

end Lemmas

end IdempotencyStore

end EspressoLogs
