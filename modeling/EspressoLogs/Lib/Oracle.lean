import EspressoLogs.Lib.Prog

/-!
Programs that also put questions to an oracle.

A question is an operation like a statement, answered from outside the store.
`answered` puts the oracle's answers in and leaves a program over statements;
`questions` are those that a run asks, in order.
-/

namespace EspressoLogs.Lib

/-- A program over the statements of `S` that asks questions of `Q` and is told
an `A` for each. -/
abbrev Asking (S : Type) (Resp : S → Type) (Q A E α : Type) :=
  Prog (S ⊕ Q) (Sum.elim Resp fun _ => A) E α

namespace Asking

variable {S Q A E α β W : Type} {Resp : S → Type}

/-- One question. -/
def question (q : Q) : Asking S Resp Q A E A := .op (.inr q) .pure

/-- A program that asks nothing. -/
def silent : Prog S Resp E α → Asking S Resp Q A E α
  | .pure a => .pure a
  | .raise e => .raise e
  | .op s k => .op (.inl s) fun r => silent (k r)

/-- The program with its questions answered. -/
def answered (oracle : Q → A) : Asking S Resp Q A E α → Prog S Resp E α
  | .pure a => .pure a
  | .raise e => .raise e
  | .op (.inl s) k => .op s fun r => answered oracle (k r)
  | .op (.inr q) k => answered oracle (k (oracle q))

/-- The questions that a run asks. -/
def questions (exec : (s : S) → W → Resp s × W) (oracle : Q → A) :
    Asking S Resp Q A E α → W → List Q
  | .pure _, _ => []
  | .raise _, _ => []
  | .op (.inl s) k, w => questions exec oracle (k (exec s w).1) (exec s w).2
  | .op (.inr q) k, w => q :: questions exec oracle (k (oracle q)) w

variable {exec : (s : S) → W → Resp s × W} {oracle : Q → A}

@[simp] theorem answered_silent (p : Prog S Resp E α) :
    answered oracle (silent p : Asking S Resp Q A E α) = p := by
  induction p with
  | pure a => rfl
  | raise e => rfl
  | op s k ih => exact congrArg (Prog.op s) (funext ih)

theorem answered_bind (p : Asking S Resp Q A E α) (f : α → Asking S Resp Q A E β) :
    answered oracle (p >>= f) = answered oracle p >>= fun a => answered oracle (f a) := by
  induction p with
  | pure a => rfl
  | raise e => rfl
  | op s k ih =>
      cases s with
      | inl s => exact congrArg (Prog.op s) (funext ih)
      | inr q => exact ih (oracle q)

@[simp] theorem questions_silent (p : Prog S Resp E α) (w : W) :
    questions exec oracle (silent p : Asking S Resp Q A E α) w = [] := by
  induction p generalizing w with
  | pure a => rfl
  | raise e => rfl
  | op s k ih => exact ih _ _

/-- A sequence asks what its first part asks, and if that returns what its second
part asks then. -/
theorem questions_bind (p : Asking S Resp Q A E α) (f : α → Asking S Resp Q A E β) (w : W) :
    questions exec oracle (p >>= f) w = questions exec oracle p w ++
      match (answered oracle p).run exec w with
      | (.ok a, w') => questions exec oracle (f a) w'
      | (.error _, _) => [] := by
  induction p generalizing w with
  | pure a => rfl
  | raise e => rfl
  | op s k ih =>
      cases s with
      | inl s => exact ih _ _
      | inr q => exact congrArg (q :: ·) (ih (oracle q) w)

/-- What a silent first part returns decides what is asked. -/
theorem questions_silent_bind (p : Prog S Resp E α) (f : α → Asking S Resp Q A E β) (w : W) :
    questions exec oracle (silent p >>= f) w =
      match p.run exec w with
      | (.ok a, w') => questions exec oracle (f a) w'
      | (.error _, _) => [] := by
  rw [questions_bind, questions_silent, answered_silent]
  rfl

theorem questions_silent_bind_ok {p : Prog S Resp E α} {f : α → Asking S Resp Q A E β} {w w' : W}
    {a : α} (h : p.run exec w = (.ok a, w')) :
    questions exec oracle (silent p >>= f) w = questions exec oracle (f a) w' := by
  rw [questions_silent_bind, h]

theorem questions_silent_bind_error {p : Prog S Resp E α} {f : α → Asking S Resp Q A E β}
    {w w' : W} {e : E} (h : p.run exec w = (.error e, w')) :
    questions exec oracle (silent p >>= f) w = [] := by
  rw [questions_silent_bind, h]

end Asking

end EspressoLogs.Lib
