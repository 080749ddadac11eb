/-!
Runs of a system that takes one step after the other, and conditions on every step.
-/

namespace EspressoLogs.Lib

variable {S A : Type} {step : S → A → S} {P Q : S → A → Prop} {I : S → Prop} {s : S}

/-- The condition holds at each step of the run. -/
def Along (step : S → A → S) (P : S → A → Prop) : S → List A → Prop
  | _, [] => True
  | s, a :: run => P s a ∧ Along step P (step s a) run

/-- What holds in each state of the run. -/
def Always (step : S → A → S) (P : S → Prop) : S → List A → Prop
  | s, [] => P s
  | s, a :: run => P s ∧ Always step P (step s a) run

namespace Along

/-- An invariant that the steps keep as long as the one condition holds, and under which
that condition gives the other. -/
theorem gives (init : I s) (keeps : ∀ s a, I s → P s a → I (step s a))
    (each : ∀ s a, I s → P s a → Q s a) {run : List A} (h : Along step P s run) :
    Along step Q s run := by
  induction run generalizing s with
  | nil => trivial
  | cons a run ih =>
      obtain ⟨here, later⟩ := h
      exact ⟨each s a init here, ih (keeps s a init here) later⟩

/-- Where the condition on a step is just that the step keeps the property, the property holds
in each state if and only if the condition holds at each step. -/
theorem iff_always {H : S → Prop} (init : I s) (holds : H s) (keeps : ∀ s a, I s → I (step s a))
    (each : ∀ s a, I s → H s → (P s a ↔ H (step s a))) {run : List A} :
    Along step P s run ↔ Always step H s run := by
  induction run generalizing s with
  | nil => exact ⟨fun _ => holds, fun _ => trivial⟩
  | cons a run ih =>
      constructor
      · rintro ⟨here, later⟩
        exact ⟨holds, (ih (keeps s a init) ((each s a init holds).mp here)).mp later⟩
      · rintro ⟨-, later⟩
        have next : H (step s a) := by
          cases run with
          | nil => exact later
          | cons b run => exact later.1
        exact ⟨(each s a init holds).mpr next, (ih (keeps s a init) next).mpr later⟩

end Along

namespace Always

/-- What the steps keep holds in each state. -/
theorem of_invariant (init : I s) (keeps : ∀ s a, I s → I (step s a)) (run : List A) :
    Always step I s run := by
  induction run generalizing s with
  | nil => exact init
  | cons a run ih => exact ⟨init, ih (keeps s a init)⟩

theorem imp {H K : S → Prop} (each : ∀ s, H s → K s) {run : List A} (h : Always step H s run) :
    Always step K s run := by
  induction run generalizing s with
  | nil => exact each s h
  | cons a run ih => exact ⟨each s h.1, ih h.2⟩

theorem and {H K : S → Prop} {run : List A} (h : Always step H s run) (k : Always step K s run) :
    Always step (fun s => H s ∧ K s) s run := by
  induction run generalizing s with
  | nil => exact ⟨h, k⟩
  | cons a run ih => exact ⟨⟨h.1, k.1⟩, ih h.2 k.2⟩

theorem last {H : S → Prop} {run : List A} (h : Always step H s run) : H (run.foldl step s) := by
  induction run generalizing s with
  | nil => exact h
  | cons a run ih => exact ih h.2

end Always

end EspressoLogs.Lib
