import EspressoLogs.Lib.Prog

/-!
Two runs side by side.

Two programs are run from two related stores. They come together if they end
alike, both returning or both raising, and leave related stores. A sequence
comes together where its parts do, whatever related values the first parts hand
on.
-/

namespace EspressoLogs.Lib

variable {S : Type} {P Q : S → Prop} {Resp : S → Type} {E W α β α' β' : Type}

/-- Both return, and what they return is related, or both raise the same. -/
def Agree (R : α → β → Prop) : Except E α → Except E β → Prop
  | .ok a, .ok b => R a b
  | .error e, .error e' => e = e'
  | _, _ => False

/-- Two results agree where both raise the same or both return related values. -/
theorem Agree.cases {R : α → β → Prop} {x : Except E α} {y : Except E β} (agree : Agree R x y) :
    (∃ e, x = .error e ∧ y = .error e) ∨ ∃ a b, x = .ok a ∧ y = .ok b ∧ R a b := by
  cases x with
  | error e =>
      cases y with
      | error e' =>
          obtain rfl : e = e' := agree
          exact .inl ⟨e, rfl, rfl⟩
      | ok b => exact agree.elim
  | ok a =>
      cases y with
      | error e' => exact agree.elim
      | ok b => exact .inr ⟨a, b, rfl, rfl, agree⟩

/-- Agreement up to equality is equality. -/
theorem Agree.eq {x y : Except E α} (agree : Agree Eq x y) : x = y := by
  rcases agree.cases with ⟨e, hx, hy⟩ | ⟨a, b, hx, hy, same⟩
  · rw [hx, hy]
  · rw [hx, hy, same]

namespace ProgOf

variable {exec : (s : S) → W → Resp s × W} {I : W → W → Prop}

/-- From related stores the programs end alike, in related stores. -/
def Together (exec : (s : S) → W → Resp s × W) (I : W → W → Prop) (R : α → β → Prop)
    (p : ProgOf P Resp E α) (q : ProgOf P Resp E β) : Prop :=
  ∀ w v, I w v → Agree R (p.prog.run exec w).1 (q.prog.run exec v).1 ∧
    I (p.prog.run exec w).2 (q.prog.run exec v).2

theorem Together.pure {R : α → β → Prop} {a : α} {b : β} (related : R a b) :
    Together exec I R (Pure.pure a : ProgOf P Resp E α) (Pure.pure b) :=
  fun _ _ start => ⟨related, start⟩

/-- Two compositions run together where their parts do. -/
theorem Together.bind {R : α → β → Prop} {R' : α' → β' → Prop} {p : ProgOf P Resp E α}
    {q : ProgOf P Resp E β} {f : α → ProgOf P Resp E α'} {g : β → ProgOf P Resp E β'}
    (first : Together exec I R p q) (rest : ∀ a b, R a b → Together exec I R' (f a) (g b)) :
    Together exec I R' (p >>= f) (q >>= g) := by
  intro w v start
  obtain ⟨agree, next⟩ := first w v start
  cases hp : p.prog.run exec w with
  | mk x w' =>
      cases hq : q.prog.run exec v with
      | mk y v' =>
          rw [hp, hq] at agree next
          rcases agree.cases with ⟨e, rfl, rfl⟩ | ⟨a, b, rfl, rfl, related⟩
          · rw [prog_bind, prog_bind, Prog.run_bind_error hp, Prog.run_bind_error hq]
            exact ⟨rfl, next⟩
          · rw [prog_bind, prog_bind, Prog.run_bind_ok hp, Prog.run_bind_ok hq]
            exact rest a b related w' v' next

theorem Together.weaken {R : α → β → Prop} (sub : ∀ s, P s → Q s) {p : ProgOf P Resp E α}
    {q : ProgOf P Resp E β} (together : Together exec I R p q) :
    Together exec I R (p.weaken sub) (q.weaken sub) :=
  together

/-- Of a program run twice: what each statement of `Q` keeps alike, it keeps alike. -/
theorem Together.of_all (step : ∀ s, Q s → ∀ w v, I w v →
      (exec s w).1 = (exec s v).1 ∧ I (exec s w).2 (exec s v).2) {p : ProgOf P Resp E α}
    (all : p.prog.All Q) : Together exec I Eq p p := by
  unfold Together
  generalize p.prog = prog at all
  intro w v start
  induction prog generalizing w v with
  | pure a => exact ⟨rfl, start⟩
  | raise e => exact ⟨rfl, start⟩
  | op s k ih =>
      obtain ⟨answer, next⟩ := step s all.1 w v start
      have rest := ih (exec s w).1 (all.2 _) _ _ next
      rw [answer] at rest
      simp only [Prog.run, answer] at rest ⊢
      exact rest

end ProgOf

end EspressoLogs.Lib
