import Mathlib.Data.List.Basic

/-!
Calls that are shared while they are under way.

Whoever needs the result of a call joins the one that is under way, or makes a new one
when there is none. A call is sent, answered, and then settled, with which it is no longer
under way. What is not settled is under way (`Shared`), so that no two calls are ever
sent at the same time (`sent_unique`).
-/

namespace EspressoLogs.Lib

/-- How far a call has come. -/
inductive Phase (R : Type) where
  | sent
  | answered (r : R)
  | settled (r : R)
  deriving DecidableEq, Repr

def Phase.isOpen {R : Type} : Phase R → Bool
  | .settled _ => false
  | _ => true

/-- A call, and when it was made. -/
structure Flight (R : Type) where
  since : Nat
  phase : Phase R
  deriving DecidableEq, Repr

/-- The calls by their number, and the one under way. -/
structure SingleFlight (R : Type) where
  flights : List (Flight R)
  current : Option Nat
  deriving DecidableEq, Repr

namespace SingleFlight

variable {R : Type}

def empty : SingleFlight R := ⟨[], none⟩

/-- The call under way, or a new one. -/
def join (now : Nat) (f : SingleFlight R) : Nat × SingleFlight R :=
  match f.current with
  | some i => (i, f)
  | none => (f.flights.length, ⟨f.flights ++ [⟨now, .sent⟩], some f.flights.length⟩)

/-- The answer to a call that was sent. -/
def answer (i : Nat) (r : R) (f : SingleFlight R) : SingleFlight R :=
  match f.flights[i]? with
  | some ⟨since, .sent⟩ => { f with flights := f.flights.set i ⟨since, .answered r⟩ }
  | _ => f

/-- A call that was answered is no longer under way. -/
def settle (i : Nat) (f : SingleFlight R) : SingleFlight R :=
  match f.flights[i]? with
  | some ⟨since, .answered r⟩ => ⟨f.flights.set i ⟨since, .settled r⟩, none⟩
  | _ => f

/-- What came of a call that is settled, and when it was made. -/
def result? (i : Nat) (f : SingleFlight R) : Option (Nat × R) :=
  match f.flights[i]? with
  | some ⟨since, .settled r⟩ => some (since, r)
  | _ => none

def Sent (f : SingleFlight R) (i : Nat) : Prop := ∃ since, f.flights[i]? = some ⟨since, .sent⟩

/-- A call that is not settled is the one under way. -/
def Shared (f : SingleFlight R) : Prop :=
  ∀ i x, f.flights[i]? = some x → x.phase.isOpen = true → f.current = some i

variable {f : SingleFlight R}

theorem shared_empty : (empty : SingleFlight R).Shared := by
  intro i x found
  cases found

theorem Shared.join (shared : f.Shared) (now : Nat) : (f.join now).2.Shared := by
  unfold SingleFlight.join
  cases under : f.current with
  | some k => exact shared
  | none =>
      intro i x found open_
      simp only at found ⊢
      by_cases old : i < f.flights.length
      · rw [List.getElem?_append_left old] at found
        cases under.symm.trans (shared i x found open_)
      · obtain ⟨less, -⟩ := List.getElem?_eq_some_iff.mp found
        rw [List.length_append, List.length_singleton] at less
        have last : i = f.flights.length := by omega
        rw [last]

theorem Shared.answer (shared : f.Shared) (i : Nat) (r : R) : (f.answer i r).Shared := by
  unfold SingleFlight.answer
  split
  · rename_i since sent
    intro j x found open_
    simp only at found ⊢
    by_cases here : j = i
    · subst here
      exact shared j _ sent rfl
    · rw [List.getElem?_set_ne (Ne.symm here)] at found
      exact shared j x found open_
  · exact shared

theorem Shared.settle (shared : f.Shared) (i : Nat) : (f.settle i).Shared := by
  unfold SingleFlight.settle
  split
  · rename_i since r answered
    intro j x found open_
    simp only at found ⊢
    obtain ⟨less, -⟩ := List.getElem?_eq_some_iff.mp answered
    by_cases here : j = i
    · subst here
      rw [List.getElem?_set_self less] at found
      cases found
      cases open_
    · rw [List.getElem?_set_ne (Ne.symm here)] at found
      have one := shared i _ answered rfl
      have other := shared j x found open_
      exact absurd (Option.some.inj (other.symm.trans one)) here
  · exact shared

/-- No two calls are sent at the same time. -/
theorem Shared.sent_unique (shared : f.Shared) {i j : Nat} (hi : f.Sent i) (hj : f.Sent j) :
    i = j := by
  obtain ⟨_, found⟩ := hi
  obtain ⟨_, found'⟩ := hj
  have one := shared i _ found rfl
  have other := shared j _ found' rfl
  exact Option.some.inj (one.symm.trans other)

end SingleFlight

end EspressoLogs.Lib
