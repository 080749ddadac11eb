import Mathlib.Logic.Relation

/-!
Programs over statements.

A program performs statements one at a time and continues with whatever each
statement answers; it may also end by raising. The same program text is given
two meanings: `Prog.run` executes it alone against a store, and
`EspressoLogs.Lib.Concurrent` interleaves it with others. `ProgOf P` is the
sublanguage of programs that perform only statements satisfying `P`.
-/

namespace EspressoLogs.Lib

/-- A program that performs statements of `S`, where statement `s` answers with
a `Resp s`, and ends with an `α` or by raising an `E`. -/
inductive Prog (S : Type) (Resp : S → Type) (E α : Type) where
  | pure (a : α)
  | raise (e : E)
  | op (s : S) (k : Resp s → Prog S Resp E α)

namespace Prog

variable {S : Type} {Resp : S → Type} {E α β W : Type}

/-- Sequencing; a raise skips the rest. -/
def bind : Prog S Resp E α → (α → Prog S Resp E β) → Prog S Resp E β
  | .pure a, f => f a
  | .raise e, _ => .raise e
  | .op s k, f => .op s fun r => bind (k r) f

/-- `try p except e: h e`. -/
def catchWith : Prog S Resp E α → (E → Prog S Resp E α) → Prog S Resp E α
  | .pure a, _ => .pure a
  | .raise e, h => h e
  | .op s k, h => .op s fun r => catchWith (k r) h

instance : Monad (Prog S Resp E) where
  pure := .pure
  bind := .bind

instance : MonadExceptOf E (Prog S Resp E) where
  throw := .raise
  tryCatch := .catchWith

@[simp] theorem pure_eq (a : α) : (Pure.pure a : Prog S Resp E α) = .pure a := rfl

@[simp] theorem throw_eq (e : E) : (throw e : Prog S Resp E α) = .raise e := rfl

@[simp] theorem tryCatch_eq (p : Prog S Resp E α) (h : E → Prog S Resp E α) :
    (tryCatch p h : Prog S Resp E α) = p.catchWith h := rfl

@[simp] theorem bind_pure_left (a : α) (f : α → Prog S Resp E β) :
    ((.pure a : Prog S Resp E α) >>= f) = f a := rfl

@[simp] theorem bind_raise (e : E) (f : α → Prog S Resp E β) :
    ((.raise e : Prog S Resp E α) >>= f) = .raise e := rfl

theorem bind_op (s : S) (k : Resp s → Prog S Resp E α) (f : α → Prog S Resp E β) :
    (Prog.op s k >>= f) = .op s fun r => k r >>= f := rfl

private theorem bind_pure_right (p : Prog S Resp E α) : p.bind .pure = p := by
  induction p with
  | pure a => rfl
  | raise e => rfl
  | op s k ih => exact congrArg (Prog.op s) (funext ih)

private theorem bind_assoc {γ : Type} (p : Prog S Resp E α) (f : α → Prog S Resp E β)
    (g : β → Prog S Resp E γ) : (p.bind f).bind g = p.bind fun a => (f a).bind g := by
  induction p with
  | pure a => rfl
  | raise e => rfl
  | op s k ih => exact congrArg (Prog.op s) (funext ih)

instance : LawfulMonad (Prog S Resp E) :=
  LawfulMonad.mk' _ bind_pure_right (fun _ _ => rfl) bind_assoc

/-! ### Running alone -/

/-- Runs a program alone against a store `W`, given what each statement does. -/
def run (exec : (s : S) → W → Resp s × W) : Prog S Resp E α → W → Except E α × W
  | .pure a, w => (.ok a, w)
  | .raise e, w => (.error e, w)
  | .op s k, w => run exec (k (exec s w).1) (exec s w).2

/-- The statements a run performs, each with the store it was performed in. -/
def trace (exec : (s : S) → W → Resp s × W) : Prog S Resp E α → W → List (S × W)
  | .pure _, _ => []
  | .raise _, _ => []
  | .op s k, w => (s, w) :: trace exec (k (exec s w).1) (exec s w).2

variable {exec : (s : S) → W → Resp s × W}

@[simp] theorem run_pure (a : α) (w : W) :
    run exec (.pure a : Prog S Resp E α) w = (.ok a, w) := rfl

@[simp] theorem run_raise (e : E) (w : W) :
    run exec (.raise e : Prog S Resp E α) w = (.error e, w) := rfl

/-- A composition runs the rest where the first part left off. -/
theorem run_bind (p : Prog S Resp E α) (f : α → Prog S Resp E β) (w : W) :
    run exec (p >>= f) w =
      match run exec p w with
      | (.ok a, w') => run exec (f a) w'
      | (.error e, w') => (.error e, w') := by
  induction p generalizing w with
  | pure a => rfl
  | raise e => rfl
  | op s k ih => exact ih _ _

/-- A handler runs in the state of the exception. -/
theorem run_catchWith (p : Prog S Resp E α) (h : E → Prog S Resp E α) (w : W) :
    run exec (p.catchWith h) w =
      match run exec p w with
      | (.ok a, w') => (.ok a, w')
      | (.error e, w') => run exec (h e) w' := by
  induction p generalizing w with
  | pure a => rfl
  | raise e => rfl
  | op s k ih => exact ih _ _

theorem run_bind_ok {p : Prog S Resp E α} {f : α → Prog S Resp E β} {w w' : W} {a : α}
    (h : run exec p w = (.ok a, w')) : run exec (p >>= f) w = run exec (f a) w' := by
  rw [run_bind, h]

theorem run_bind_error {p : Prog S Resp E α} {f : α → Prog S Resp E β} {w w' : W} {e : E}
    (h : run exec p w = (.error e, w')) : run exec (p >>= f) w = (.error e, w') := by
  rw [run_bind, h]

theorem run_catch_ok {p : Prog S Resp E α} {h : E → Prog S Resp E α} {w w' : W} {a : α}
    (hp : run exec p w = (.ok a, w')) : run exec (p.catchWith h) w = (.ok a, w') := by
  rw [run_catchWith, hp]

theorem run_catch_error {p : Prog S Resp E α} {h : E → Prog S Resp E α} {w w' : W} {e : E}
    (hp : run exec p w = (.error e, w')) :
    run exec (p.catchWith h) w = run exec (h e) w' := by
  rw [run_catchWith, hp]

/-- The statements of the first part, and then those of the rest if it returned. -/
theorem trace_bind (p : Prog S Resp E α) (f : α → Prog S Resp E β) (w : W) :
    trace exec (p >>= f) w = trace exec p w ++
      match run exec p w with
      | (.ok a, w') => trace exec (f a) w'
      | (.error _, _) => [] := by
  induction p generalizing w with
  | pure a => rfl
  | raise e => rfl
  | op s k ih => exact congrArg ((s, w) :: ·) (ih _ _)

/-- Those of a handler come where the program raised. -/
theorem trace_catchWith (p : Prog S Resp E α) (h : E → Prog S Resp E α) (w : W) :
    trace exec (p.catchWith h) w = trace exec p w ++
      match run exec p w with
      | (.ok _, _) => []
      | (.error e, w') => trace exec (h e) w' := by
  induction p generalizing w with
  | pure a => rfl
  | raise e => rfl
  | op s k ih => exact congrArg ((s, w) :: ·) (ih _ _)

/-! ### What a run performs -/

variable (exec) in
/-- Whatever the run performs, it performs as `G` demands. -/
def Shows (G : S → W → Prop) (p : Prog S Resp E α) (w : W) : Prop :=
  ∀ x ∈ trace exec p w, G x.1 x.2

theorem Shows.pure {G : S → W → Prop} (a : α) (w : W) :
    (.pure a : Prog S Resp E α).Shows exec G w := by
  intro x hx
  cases hx

theorem Shows.raise {G : S → W → Prop} (e : E) (w : W) :
    (.raise e : Prog S Resp E α).Shows exec G w := by
  intro x hx
  cases hx

/-- What every statement shows is shown part by part. -/
theorem Shows.bind {G : S → W → Prop} {p : Prog S Resp E α} {f : α → Prog S Resp E β} {w : W}
    (hp : p.Shows exec G w)
    (hf : ∀ a w', run exec p w = (.ok a, w') → (f a).Shows exec G w') :
    (p >>= f).Shows exec G w := by
  intro x hx
  rw [trace_bind] at hx
  rcases List.mem_append.mp hx with hx | hx
  · exact hp x hx
  · cases h : run exec p w with
    | mk result w' =>
        rw [h] at hx
        cases result with
        | error e => cases hx
        | ok a => exact hf a w' h x hx

/-- Likewise for a program and its handler. -/
theorem Shows.catchWith {G : S → W → Prop} {p : Prog S Resp E α} {h : E → Prog S Resp E α} {w : W}
    (hp : p.Shows exec G w)
    (hh : ∀ e w', run exec p w = (.error e, w') → (h e).Shows exec G w') :
    (p.catchWith h).Shows exec G w := by
  intro x hx
  rw [trace_catchWith] at hx
  rcases List.mem_append.mp hx with hx | hx
  · exact hp x hx
  · cases eq : run exec p w with
    | mk result w' =>
        rw [eq] at hx
        cases result with
        | ok a => cases hx
        | error e => exact hh e w' eq x hx

/-- What the first part of a sequence performs is part of what the whole performs. -/
theorem Shows.left {G : S → W → Prop} {p : Prog S Resp E α} {f : α → Prog S Resp E β} {w : W}
    (h : (p >>= f).Shows exec G w) : p.Shows exec G w := by
  intro x hx
  refine h x ?_
  rw [trace_bind]
  exact List.mem_append_left _ hx

/-- What is shown with a handler is shown without it. -/
theorem Shows.of_catch {G : S → W → Prop} {p : Prog S Resp E α} {k : E → Prog S Resp E α} {w : W}
    (h : (p.catchWith k).Shows exec G w) : p.Shows exec G w := by
  intro x hx
  refine h x ?_
  rw [trace_catchWith]
  exact List.mem_append_left _ hx

/-- What the second part of a sequence performs is part of what the whole performs. -/
theorem Shows.of_bind {G : S → W → Prop} {p : Prog S Resp E α} {f : α → Prog S Resp E β}
    {w w' : W} {a : α} (h : (p >>= f).Shows exec G w) (hp : run exec p w = (.ok a, w')) :
    (f a).Shows exec G w' := by
  intro x hx
  refine h x ?_
  rw [trace_bind, hp]
  exact List.mem_append_right _ hx

/-! ### Invariants of a run -/

variable (exec) in
/-- A store invariant that every statement keeps holds after every run. -/
theorem run_invariant {I : W → Prop} (step : ∀ s w, I w → I (exec s w).2)
    (p : Prog S Resp E α) {w : W} (hw : I w) : I (run exec p w).2 := by
  induction p generalizing w with
  | pure a => exact hw
  | raise e => exact hw
  | op s k ih => exact ih _ (step s w hw)

/-- Two runs in step: from related stores on which every statement answers alike
and ends in related stores, a program has one result and ends in related stores. -/
theorem run_lockstep {R : W → W → Prop}
    (step : ∀ s w₁ w₂, R w₁ w₂ →
      (exec s w₁).1 = (exec s w₂).1 ∧ R (exec s w₁).2 (exec s w₂).2)
    (p : Prog S Resp E α) {w₁ w₂ : W} (h : R w₁ w₂) :
    (run exec p w₁).1 = (run exec p w₂).1 ∧ R (run exec p w₁).2 (run exec p w₂).2 := by
  induction p generalizing w₁ w₂ with
  | pure a => exact ⟨rfl, h⟩
  | raise e => exact ⟨rfl, h⟩
  | op s k ih =>
      obtain ⟨answer, next⟩ := step s w₁ w₂ h
      simp only [run, answer]
      exact ih _ next

/-! ### What is shown along a run -/

section Shown

variable {D : Type} (π : W → D)

variable (exec) in
/-- What `π` shows of the store at each statement of a run, and at its end. -/
def shown (p : Prog S Resp E α) (w : W) : List D :=
  (trace exec p w).map (fun v => π v.2) ++ [π (run exec p w).2]

variable (exec) in
/-- At the statements of any run `π` shows what it showed at the start, and at the
end too where the run raises. -/
def Late (p : Prog S Resp E α) : Prop :=
  ∀ w, (∀ v ∈ trace exec p w, π v.2 = π w) ∧
    ∀ e w', run exec p w = (.error e, w') → π w' = π w

variable {π} {p : Prog S Resp E α} {f : α → Prog S Resp E β} {w w' : W} {d : D}

/-- The states before each of the statements, and the last one. -/
theorem mem_shown : d ∈ shown exec π p w ↔
    (∃ v ∈ trace exec p w, π v.2 = d) ∨ d = π (run exec p w).2 := by
  rw [shown, List.mem_append, List.mem_map, List.mem_singleton]

/-- The store at the start is shown by the first statement, or at the end where
there is none. -/
theorem start_mem_shown (p : Prog S Resp E α) (w : W) : π w ∈ shown exec π p w := by
  cases p with
  | pure a => exact List.mem_singleton_self _
  | raise e => exact List.mem_singleton_self _
  | op s k => exact List.mem_cons_self

/-- What a composition shows, where its first part returned. -/
theorem mem_shown_bind_ok {a : α} (h : run exec p w = (.ok a, w')) :
    d ∈ shown exec π (p >>= f) w ↔
      (∃ v ∈ trace exec p w, π v.2 = d) ∨ d ∈ shown exec π (f a) w' := by
  have whole : trace exec (p >>= f) w = trace exec p w ++ trace exec (f a) w' := by
    rw [trace_bind, h]
  rw [mem_shown, mem_shown, run_bind_ok h, whole]
  constructor
  · rintro (⟨v, hv, rfl⟩ | last)
    · rcases List.mem_append.mp hv with first | second
      · exact .inl ⟨v, first, rfl⟩
      · exact .inr (.inl ⟨v, second, rfl⟩)
    · exact .inr (.inr last)
  · rintro (⟨v, first, rfl⟩ | ⟨v, second, rfl⟩ | last)
    · exact .inl ⟨v, List.mem_append_left _ first, rfl⟩
    · exact .inl ⟨v, List.mem_append_right _ second, rfl⟩
    · exact .inr last

/-- Where it raised, the first part is all there is. -/
theorem shown_bind_error {e : E} (h : run exec p w = (.error e, w')) :
    shown exec π (p >>= f) w = shown exec π p w := by
  have whole : trace exec (p >>= f) w = trace exec p w := by
    rw [trace_bind, h, List.append_nil]
  rw [shown, shown, run_bind_error h, whole, h]

/-- A handler that performs nothing shows nothing. -/
theorem shown_catch_pure (p : Prog S Resp E α) (b : α) (w : W) :
    shown exec π (p.catchWith fun _ => .pure b) w = shown exec π p w := by
  rw [shown, shown, trace_catchWith, run_catchWith]
  cases run exec p w with
  | mk result w' => cases result <;> simp [trace]

theorem mem_shown_of_late_error {e : E} (late : p.Late exec π)
    (h : run exec p w = (.error e, w')) : d ∈ shown exec π p w ↔ d = π w := by
  rw [mem_shown, h]
  constructor
  · rintro (⟨v, hv, rfl⟩ | rfl)
    · exact (late w).1 v hv
    · exact (late w).2 e w' h
  · rintro rfl
    exact .inr ((late w).2 e w' h).symm

end Shown

/-! ### Programs of a sublanguage -/

/-- Every statement the program can ever perform satisfies `P`. -/
def All (P : S → Prop) : Prog S Resp E α → Prop
  | .pure _ => True
  | .raise _ => True
  | .op s k => P s ∧ ∀ r, All P (k r)

/-- Every statement of a composition is one of its parts'. -/
theorem All.bind {P : S → Prop} {p : Prog S Resp E α} {f : α → Prog S Resp E β}
    (hp : All P p) (hf : ∀ a, All P (f a)) : All P (p >>= f) := by
  induction p with
  | pure a => exact hf a
  | raise e => trivial
  | op s k ih => exact ⟨hp.1, fun r => ih r (hp.2 r)⟩

/-- Every statement of the two is one of theirs. -/
theorem All.catchWith {P : S → Prop} {p : Prog S Resp E α} {h : E → Prog S Resp E α}
    (hp : All P p) (hh : ∀ e, All P (h e)) : All P (p.catchWith h) := by
  induction p with
  | pure a => trivial
  | raise e => exact hh e
  | op s k ih => exact ⟨hp.1, fun r => ih r (hp.2 r)⟩

theorem All.mono {P Q : S → Prop} (sub : ∀ s, P s → Q s) {p : Prog S Resp E α}
    (hp : All P p) : All Q p := by
  induction p with
  | pure a => trivial
  | raise e => trivial
  | op s k ih => exact ⟨sub s hp.1, fun r => ih r (hp.2 r)⟩

variable (exec) in
/-- An invariant kept by the statements of a sublanguage holds after every run
of a program of that sublanguage. -/
theorem All.run_invariant {P : S → Prop} {I : W → Prop}
    (step : ∀ s w, P s → I w → I (exec s w).2) {p : Prog S Resp E α} (hp : All P p)
    {w : W} (hw : I w) : I (run exec p w).2 := by
  induction p generalizing w with
  | pure a => exact hw
  | raise e => exact hw
  | op s k ih => exact ih _ (hp.2 _) (step s w hp.1 hw)

variable (exec) in
/-- The statements of a run satisfy `P`, and are performed in stores satisfying
the invariant that statements with `P` keep. -/
theorem All.shows {P : S → Prop} {I : W → Prop}
    (step : ∀ s w, P s → I w → I (exec s w).2) {p : Prog S Resp E α} (hp : All P p)
    {w : W} (hw : I w) : p.Shows exec (fun s v => P s ∧ I v) w := by
  induction p generalizing w with
  | pure a => exact Shows.pure a w
  | raise e => exact Shows.raise e w
  | op s k ih =>
      intro x hx
      rcases List.mem_cons.mp hx with rfl | hx
      · exact ⟨hp.1, hw⟩
      · exact ih _ (hp.2 _) (step s w hp.1 hw) x hx

/-- Statements that leave what `π` shows as it is. -/
theorem All.late {D : Type} {π : W → D} {P : S → Prop}
    (step : ∀ s w, P s → π (exec s w).2 = π w) {p : Prog S Resp E α} (hp : All P p) :
    p.Late exec π := by
  intro w
  refine ⟨fun v hv => ?_, fun e w' h => ?_⟩
  · exact (hp.shows exec (I := fun u => π u = π w)
      (fun s u hs hu => (step s u hs).trans hu) rfl v hv).2
  · have kept := hp.run_invariant exec (I := fun u => π u = π w)
      (fun s u hs hu => (step s u hs).trans hu) rfl
    rw [h] at kept
    exact kept

/-- What stands before it and shows nothing leaves a late change late. -/
theorem Late.bind {D : Type} {π : W → D} {P : S → Prop}
    (step : ∀ s w, P s → π (exec s w).2 = π w) {p : Prog S Resp E α} (hp : All P p)
    {f : α → Prog S Resp E β} (late : ∀ a, (f a).Late exec π) : (p >>= f).Late exec π := by
  intro w
  have first := hp.late step w
  cases h : run exec p w with
  | mk result w' =>
      cases result with
      | error e =>
          rw [trace_bind, run_bind_error h, h, List.append_nil]
          refine ⟨first.1, fun e' w'' same => ?_⟩
          cases same
          exact first.2 e w' h
      | ok a =>
          have kept : π w' = π w := by
            have kept := hp.run_invariant exec (I := fun u => π u = π w)
              (fun s u hs hu => (step s u hs).trans hu) rfl
            rw [h] at kept
            exact kept
          rw [trace_bind, run_bind_ok h, h]
          obtain ⟨along, raised⟩ := late a w'
          refine ⟨fun v hv => ?_, fun e w'' same => (raised e w'' same).trans kept⟩
          rcases List.mem_append.mp hv with inFirst | inSecond
          · exact first.1 v inFirst
          · exact (along v inSecond).trans kept

end Prog

/-- A program of the sublanguage of the statements that satisfy `P`. -/
structure ProgOf {S : Type} (P : S → Prop) (Resp : S → Type) (E α : Type) where
  prog : Prog S Resp E α
  within : prog.All P

namespace ProgOf

variable {S : Type} {P Q : S → Prop} {Resp : S → Type} {E α β W : Type}

instance : Monad (ProgOf P Resp E) where
  pure a := ⟨.pure a, trivial⟩
  bind p f := ⟨p.prog >>= fun a => (f a).prog, p.within.bind fun a => (f a).within⟩

instance : MonadExceptOf E (ProgOf P Resp E) where
  throw e := ⟨.raise e, trivial⟩
  tryCatch p h :=
    ⟨p.prog.catchWith fun e => (h e).prog, p.within.catchWith fun e => (h e).within⟩

/-- One statement of the sublanguage. -/
def perform (s : S) (hs : P s) : ProgOf P Resp E (Resp s) :=
  ⟨.op s .pure, hs, fun _ => trivial⟩

/-- A program of a sublanguage as a program of a larger one. -/
def weaken (sub : ∀ s, P s → Q s) (p : ProgOf P Resp E α) : ProgOf Q Resp E α :=
  ⟨p.prog, p.within.mono sub⟩

@[simp] theorem prog_pure (a : α) : (Pure.pure a : ProgOf P Resp E α).prog = .pure a := rfl

@[simp] theorem prog_bind (p : ProgOf P Resp E α) (f : α → ProgOf P Resp E β) :
    (p >>= f).prog = p.prog >>= fun a => (f a).prog := rfl

@[simp] theorem prog_throw (e : E) : (throw e : ProgOf P Resp E α).prog = .raise e := rfl

@[simp] theorem prog_tryCatch (p : ProgOf P Resp E α) (h : E → ProgOf P Resp E α) :
    (tryCatch p h).prog = p.prog.catchWith fun e => (h e).prog := rfl

@[simp] theorem prog_perform (s : S) (hs : P s) :
    (perform s hs : ProgOf P Resp E (Resp s)).prog = .op s .pure := rfl

@[simp] theorem prog_weaken (sub : ∀ s, P s → Q s) (p : ProgOf P Resp E α) :
    (p.weaken sub).prog = p.prog := rfl

/-! ### Keeping an invariant -/

/-- From a store satisfying `I` and `L` the program ends in one satisfying `I`;
if it returns, then `L` still holds, and `R` of what it returns. -/
def Keeps (exec : (s : S) → W → Resp s × W) (I L : W → Prop) (p : ProgOf P Resp E α)
    (R : α → Prop) : Prop :=
  ∀ w, I w → L w → I (p.prog.run exec w).2 ∧
    ∀ a, (p.prog.run exec w).1 = .ok a → L (p.prog.run exec w).2 ∧ R a

variable {exec : (s : S) → W → Resp s × W} {I L : W → Prop} {R : α → Prop}

/-- What all statements of the kind keep, every program of them keeps. -/
theorem Keeps.of_within (step : ∀ s w, P s → I w → I (exec s w).2) (p : ProgOf P Resp E α) :
    p.Keeps exec I (fun _ => True) fun _ => True :=
  fun _ hw _ => ⟨p.within.run_invariant exec step hw, fun _ _ => ⟨trivial, trivial⟩⟩

theorem Keeps.pure {a : α} (ha : R a) : (Pure.pure a : ProgOf P Resp E α).Keeps exec I L R :=
  fun _ hw hl => ⟨hw, fun _ h => ⟨hl, Except.ok.inj h ▸ ha⟩⟩

theorem Keeps.throw (e : E) : (MonadExceptOf.throw e : ProgOf P Resp E α).Keeps exec I L R :=
  fun _ hw _ => ⟨hw, fun _ h => nomatch h⟩

/-- What the first part promises of its result, the rest may use. -/
theorem Keeps.bind {p : ProgOf P Resp E α} {f : α → ProgOf P Resp E β} {R' : β → Prop}
    (hp : p.Keeps exec I L R) (hf : ∀ a, R a → (f a).Keeps exec I L R') :
    (p >>= f).Keeps exec I L R' := by
  intro w hw hl
  obtain ⟨next, returned⟩ := hp w hw hl
  cases h : p.prog.run exec w with
  | mk result w' =>
      rw [h] at next returned
      cases result with
      | error e =>
          rw [prog_bind, Prog.run_bind_error h]
          exact ⟨next, fun _ h => nomatch h⟩
      | ok a =>
          rw [prog_bind, Prog.run_bind_ok h]
          exact hf a (returned a rfl).2 w' next (returned a rfl).1

theorem Keeps.mono {R' : α → Prop} {p : ProgOf P Resp E α} (hp : p.Keeps exec I L R)
    (sub : ∀ a, R a → R' a) : p.Keeps exec I L R' := by
  intro w hw hl
  obtain ⟨next, returned⟩ := hp w hw hl
  exact ⟨next, fun a ha => ⟨(returned a ha).1, sub a (returned a ha).2⟩⟩

end ProgOf

end EspressoLogs.Lib
