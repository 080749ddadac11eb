import Mathlib.Algebra.Order.Group.Defs
import Mathlib.Algebra.Order.Monoid.Unbundled.Basic

/-!
Locking a gate after failures.

A gate counts the failures that it let through and is locked for a period when
there were too many. It is locked once: when the period is over, neither the
counter nor the lock is taken back, and what comes later is let through.

`Gate.letIn_le_iff` says what such a gate is good for. Within any window as long
as the period, it lets through no more than the limit if and only if no more than
that arrive after the lock has run out.
-/

namespace EspressoLogs.Lib

/-- What is kept of the failures. -/
structure Gate (τ : Type) where
  failures : Nat
  lockedUntil : Option τ
  deriving DecidableEq, Repr

namespace Gate

variable {τ : Type} [LinearOrder τ]

def isLocked (now : τ) (g : Gate τ) : Bool :=
  match g.lockedUntil with
  | some lockedUntil => decide (now < lockedUntil)
  | none => false

section Course

variable [Add τ] (limit : Nat) (period : τ)

/-- The gate after a failure that it let through. -/
def failed (now : τ) (g : Gate τ) : Gate τ where
  failures := g.failures + 1
  lockedUntil :=
    if limit ≤ g.failures + 1 ∧ g.lockedUntil = none then some (now + period) else g.lockedUntil

/-- The gate after an attempt that fails if it is let through. -/
def next (now : τ) (g : Gate τ) : Gate τ :=
  if g.isLocked now then g else g.failed limit period now

/-- Attempts at these times, each with the gate as it finds it. -/
def course : List τ → Gate τ → List (τ × Gate τ)
  | [], _ => []
  | now :: rest, g => (now, g) :: course rest (g.next limit period now)

end Course

/-! ### Attempts -/

def letIn (x : τ × Gate τ) : Bool := !x.2.isLocked x.1

/-- The gate has not been locked before. -/
def neverLocked (x : τ × Gate τ) : Bool := x.2.lockedUntil.isNone

/-- The gate was locked, and is not any more. -/
def afterLock (x : τ × Gate τ) : Bool :=
  match x.2.lockedUntil with
  | some lockedUntil => decide (lockedUntil ≤ x.1)
  | none => false

/-- `[start, start + period)`. -/
def inWindow [Add τ] (period start : τ) (x : τ × Gate τ) : Bool :=
  decide (start ≤ x.1) && decide (x.1 < start + period)

theorem letIn_eq (x : τ × Gate τ) : letIn x = (neverLocked x || afterLock x) := by
  unfold letIn neverLocked afterLock isLocked
  cases x.2.lockedUntil with
  | none => rfl
  | some lockedUntil => simp [← not_lt]

theorem afterLock_eq_true {x : τ × Gate τ} :
    afterLock x = true ↔ ∃ lockedUntil, x.2.lockedUntil = some lockedUntil ∧ lockedUntil ≤ x.1 := by
  unfold afterLock
  cases x.2.lockedUntil <;> simp

omit [LinearOrder τ] in
theorem neverLocked_eq_true {x : τ × Gate τ} :
    neverLocked x = true ↔ x.2.lockedUntil = none := by
  simp [neverLocked]

section Runs

variable [Add τ] {limit : Nat} {period : τ} {g : Gate τ} {now : τ} {times : List τ}

omit [LinearOrder τ] in
theorem failed_of_locked {lockedUntil : τ} (locked : g.lockedUntil = some lockedUntil) :
    (g.failed limit period now).lockedUntil = some lockedUntil := by
  simp [failed, locked]

theorem next_of_locked {lockedUntil : τ} (locked : g.lockedUntil = some lockedUntil) :
    (g.next limit period now).lockedUntil = some lockedUntil := by
  unfold next
  split
  · exact locked
  · exact failed_of_locked locked

theorem next_of_open (unlocked : g.lockedUntil = none) :
    g.next limit period now = g.failed limit period now := by
  have letIn : g.isLocked now = false := by rw [isLocked, unlocked]
  rw [next, letIn]
  rfl

theorem inWindow_eq_true {start : τ} {x : τ × Gate τ} :
    inWindow period start x = true ↔ start ≤ x.1 ∧ x.1 < start + period := by
  simp [inWindow]

/-- A lock is not taken back. -/
theorem course_of_locked {lockedUntil : τ} (locked : g.lockedUntil = some lockedUntil) :
    ∀ x ∈ course limit period times g, x.2.lockedUntil = some lockedUntil := by
  induction times generalizing g with
  | nil => exact fun _ => nofun
  | cons now rest ih =>
      intro x hx
      rcases List.mem_cons.mp hx with rfl | hx
      · exact locked
      · exact ih (next_of_locked locked) x hx

/-- Until it is locked, the gate lets the rest of the limit through, and one
attempt at least. -/
theorem countP_neverLocked_le (unlocked : g.lockedUntil = none) :
    (course limit period times g).countP neverLocked ≤ max 1 (limit - g.failures) := by
  induction times generalizing g with
  | nil => exact Nat.zero_le _
  | cons now rest ih =>
      have first : neverLocked (now, g) = true := neverLocked_eq_true.mpr unlocked
      rw [course, List.countP_cons_of_pos first, next_of_open unlocked]
      by_cases last : limit ≤ g.failures + 1
      · have locked : (g.failed limit period now).lockedUntil = some (now + period) := by
          simp [failed, unlocked, last]
        have none : (course limit period rest (g.failed limit period now)).countP neverLocked = 0 := by
          refine List.countP_eq_zero.mpr fun x hx => ?_
          simp [neverLocked, course_of_locked locked x hx]
        omega
      · have still : (g.failed limit period now).lockedUntil = none := by simp [failed, unlocked, last]
        have rest := ih still
        have counted : (g.failed limit period now).failures = g.failures + 1 := rfl
        rw [counted] at rest
        omega

end Runs

section Windows

variable [AddCommGroup τ] [IsOrderedAddMonoid τ] {limit : Nat} {period : τ} {g : Gate τ}
  {times : List τ}

/-- What comes after the lock comes a period after everything that is still to come. -/
theorem le_afterLock {start : τ} (unlocked : g.lockedUntil = none) (later : ∀ now ∈ times, start ≤ now)
    {x : τ × Gate τ} (hx : x ∈ course limit period times g) (after : afterLock x = true) :
    start + period ≤ x.1 := by
  induction times generalizing g with
  | nil => cases hx
  | cons now rest ih =>
      rcases List.mem_cons.mp hx with rfl | hx
      · obtain ⟨_, locked, _⟩ := afterLock_eq_true.mp after
        rw [unlocked] at locked
        cases locked
      · rw [next_of_open unlocked] at hx
        by_cases last : limit ≤ g.failures + 1
        · have locked : (g.failed limit period now).lockedUntil = some (now + period) := by
            simp [failed, unlocked, last]
          obtain ⟨_, same, past⟩ := afterLock_eq_true.mp after
          rw [course_of_locked locked x hx] at same
          cases same
          exact (add_le_add_left (later now List.mem_cons_self) period).trans past
        · exact ih (by simp [failed, unlocked, last])
            (fun t ht => later t (List.mem_cons_of_mem _ ht)) hx

/-- Between an attempt before the lock and one after it lies a period. -/
theorem apart (ordered : times.Pairwise (· ≤ ·)) {x y : τ × Gate τ}
    (hx : x ∈ course limit period times g) (hy : y ∈ course limit period times g)
    (before : neverLocked x = true) (after : afterLock y = true) : x.1 + period ≤ y.1 := by
  induction times generalizing g with
  | nil => cases hx
  | cons now rest ih =>
      obtain ⟨first, ordered⟩ := List.pairwise_cons.mp ordered
      have unlocked : g.lockedUntil = none := by
        cases locked : g.lockedUntil with
        | none => rfl
        | some lockedUntil =>
            rw [neverLocked_eq_true, course_of_locked locked x hx] at before
            cases before
      rcases List.mem_cons.mp hx with rfl | hx'
      · refine le_afterLock unlocked (fun t ht => ?_) hy after
        rcases List.mem_cons.mp ht with rfl | ht
        · exact le_refl _
        · exact first t ht
      · rcases List.mem_cons.mp hy with rfl | hy
        · obtain ⟨_, locked, _⟩ := afterLock_eq_true.mp after
          rw [unlocked] at locked
          cases locked
        · exact ih ordered hx' hy

/-- In no window as long as the period does the gate let more through than the
limit, if and only if in none more than that arrive after the lock. -/
theorem letIn_le_iff (positive : 1 ≤ limit) (ordered : times.Pairwise (· ≤ ·)) :
    (∀ start, ((course limit period times g).filter (inWindow period start)).countP letIn ≤ limit) ↔
      ∀ start, ((course limit period times g).filter (inWindow period start)).countP afterLock ≤
        limit := by
  constructor
  · intro bounded start
    refine le_trans (List.countP_mono_left fun x _ after => ?_) (bounded start)
    rw [letIn_eq, after, Bool.or_true]
  · intro bounded start
    by_cases ranOut : ∃ y ∈ (course limit period times g).filter (inWindow period start),
        afterLock y = true
    · -- an attempt before the lock would be too early for the window
      obtain ⟨y, hy, after⟩ := ranOut
      obtain ⟨here, inside⟩ := List.mem_filter.mp hy
      refine le_trans (List.countP_mono_left fun x hx entered => ?_) (bounded start)
      rw [letIn_eq, Bool.or_eq_true] at entered
      rcases entered with before | done
      · obtain ⟨also, inside'⟩ := List.mem_filter.mp hx
        have gap := apart ordered also here before after
        have early := add_le_add_left (inWindow_eq_true.mp inside').1 period
        exact absurd (early.trans gap) (not_le.mpr (inWindow_eq_true.mp inside).2)
      · exact done
    · -- no lock ran out in the window, so that the limit itself bounds the attempts
      have only : ((course limit period times g).filter (inWindow period start)).countP letIn ≤
          (course limit period times g).countP neverLocked := by
        refine le_trans (List.countP_mono_left fun x hx entered => ?_)
          List.filter_sublist.countP_le
        rw [letIn_eq, Bool.or_eq_true] at entered
        rcases entered with before | done
        · exact before
        · exact absurd ⟨x, hx, done⟩ ranOut
      refine only.trans ?_
      cases locked : g.lockedUntil with
      | none => exact (countP_neverLocked_le locked).trans (by omega)
      | some lockedUntil =>
          have none : (course limit period times g).countP neverLocked = 0 := by
            refine List.countP_eq_zero.mpr fun x hx => ?_
            simp [neverLocked, course_of_locked locked x hx]
          omega

end Windows

end Gate

end EspressoLogs.Lib
