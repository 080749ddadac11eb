import Mathlib.Logic.Relation

/-!
Successors that do not branch.

Where everything has one successor at most, and is the successor of one at most,
whatever is connected lies on one chain, and at most one end is on it.
-/

namespace EspressoLogs.Lib

open Relation

variable {A : Type} {next : A → A → Prop} {a b : A}

/-- With one successor each, what is connected leads to one place. -/
theorem join_of_eqvGen (unique : Relator.RightUnique next) (connected : EqvGen next a b) :
    Join (ReflTransGen next) a b := by
  have diamond : ∀ a b c, next a b → next a c → ∃ d, ReflGen next b d ∧ ReflTransGen next c d := by
    intro a b c ab ac
    cases unique ab ac
    exact ⟨b, .refl, .refl⟩
  have equivalence := equivalence_join_reflTransGen diamond
  refine equivalence.eqvGen_iff.mp (EqvGen.mono ?_ _ _ connected)
  intro a b ab
  exact ⟨b, .single ab, .refl⟩

/-- What has no successor leads nowhere else. -/
theorem eq_of_reflTransGen (last : ∀ c, ¬next a c) (path : ReflTransGen next a b) : b = a := by
  cases path.cases_head with
  | inl same => exact same.symm
  | inr step =>
      obtain ⟨c, ac, _⟩ := step
      exact absurd ac (last c)

/-- One end at most is on a chain. -/
theorem eq_of_last (unique : Relator.RightUnique next) (connected : EqvGen next a b)
    (lastA : ∀ c, ¬next a c) (lastB : ∀ c, ¬next b c) : a = b := by
  obtain ⟨c, ac, bc⟩ := join_of_eqvGen unique connected
  exact (eq_of_reflTransGen lastA ac).symm.trans (eq_of_reflTransGen lastB bc)

/-- With one predecessor each as well, one of two that are connected leads to the other. -/
theorem comparable_of_eqvGen (unique : Relator.RightUnique next) (single : Relator.LeftUnique next)
    (connected : EqvGen next a b) : ReflTransGen next a b ∨ ReflTransGen next b a := by
  obtain ⟨c, ac, bc⟩ := join_of_eqvGen unique connected
  have back : Relator.RightUnique (Function.swap next) := fun c x y xc yc => single xc yc
  rcases ReflTransGen.total_of_right_unique back ac.swap bc.swap with ab | ba
  · exact .inr ab.swap
  · exact .inl ba.swap

/-- A link to a place without successors closes no circle. -/
theorem acyclic_of_new_end {link : A → A → Prop} (acyclic : ∀ x, ¬TransGen next x x)
    (links : ∀ x y, link x y → next x y ∨ ∀ z, ¬link y z) :
    ∀ x, ¬TransGen link x x := by
  -- every link on a circle goes to a place with a successor, so it was there before
  intro x circle
  have old : ∀ y, TransGen link x y → (∃ z, link y z) → TransGen next x y := by
    intro y path onward
    induction path with
    | single xy =>
        rcases links _ _ xy with was | stuck
        · exact .single was
        · obtain ⟨z, yz⟩ := onward
          exact absurd yz (stuck z)
    | tail _ yz ih =>
        rcases links _ _ yz with was | stuck
        · exact (ih ⟨_, yz⟩).tail was
        · obtain ⟨w, zw⟩ := onward
          exact absurd zw (stuck w)
  obtain ⟨y, xy, _⟩ := TransGen.head'_iff.mp circle
  exact acyclic x (old x circle ⟨y, xy⟩)

end EspressoLogs.Lib
