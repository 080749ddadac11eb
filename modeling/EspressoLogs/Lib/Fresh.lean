import EspressoLogs.Lib.Fallible
import Mathlib.Data.List.Nodup

/-!
Generators of names.

A generator makes a name from the list of those that there are. Called again and
again, with each name added to the list, a generator whose names are new never
returns one twice (`Fresh.of_calls`). It answers every call while it has room
left, if each call takes no more than a part of it (`calls_total`).
-/

namespace EspressoLogs.Lib

variable {α ε : Type}

/-- A generator returns no name that is in the list. -/
def Fresh (next : List α → Except ε α) : Prop := ∀ ids id, next ids = .ok id → id ∉ ids

/-- The names that a number of calls return, each added to the list before the next call. -/
def calls (next : List α → Except ε α) : Nat → List α → Except ε (List α)
  | 0, _ => .ok []
  | n + 1, ids => do
      let id ← next ids
      return id :: (← calls next n (ids ++ [id]))

variable {next : List α → Except ε α}

/-- The first of the calls, and the others with its id among the taken ones. -/
theorem calls_succ_eq_ok {n : Nat} {ids new : List α} (h : calls next (n + 1) ids = .ok new) :
    ∃ id rest, next ids = .ok id ∧ calls next n (ids ++ [id]) = .ok rest ∧ new = id :: rest := by
  obtain ⟨id, first, h⟩ := bind_eq_ok h
  obtain ⟨rest, others, h⟩ := bind_eq_ok h
  exact ⟨id, rest, first, others, (Except.ok.inj h).symm⟩

/-- Each call draws one id. -/
theorem length_calls {n : Nat} {ids new : List α} (h : calls next n ids = .ok new) :
    new.length = n := by
  induction n generalizing ids new with
  | zero =>
      cases h
      rfl
  | succ n ih =>
      obtain ⟨id, rest, -, others, rfl⟩ := calls_succ_eq_ok h
      rw [List.length_cons, ih others]

theorem Fresh.of_calls (fresh : Fresh next) {n : Nat} {ids new : List α}
    (h : calls next n ids = .ok new) : new.Nodup ∧ ∀ id ∈ new, id ∉ ids := by
  induction n generalizing ids new with
  | zero =>
      cases h
      exact ⟨List.nodup_nil, fun id mem => absurd mem List.not_mem_nil⟩
  | succ n ih =>
      obtain ⟨id, rest, first, others, rfl⟩ := calls_succ_eq_ok h
      obtain ⟨nodup, outside⟩ := ih others
      refine ⟨List.nodup_cons.mpr ⟨fun again => ?_, nodup⟩, fun other mem => ?_⟩
      · exact outside id again (List.mem_append_right ids List.mem_cons_self)
      · rcases List.mem_cons.mp mem with rfl | later
        · exact fresh ids other first
        · exact fun old => outside other later (List.mem_append_left [id] old)

/-- The calls return as long as there is room for the next of them. -/
theorem calls_total (Room : Nat → List α → Prop)
    (step : ∀ n ids, Room (n + 1) ids → ∃ id, next ids = .ok id ∧ Room n (ids ++ [id]))
    {n : Nat} {ids : List α} (room : Room n ids) : ∃ new, calls next n ids = .ok new := by
  induction n generalizing ids with
  | zero => exact ⟨[], rfl⟩
  | succ n ih =>
      obtain ⟨id, first, left⟩ := step n ids room
      obtain ⟨rest, others⟩ := ih left
      refine ⟨id :: rest, ?_⟩
      rw [calls, first, ok_bind, others]
      rfl

end EspressoLogs.Lib
