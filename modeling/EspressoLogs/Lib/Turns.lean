import EspressoLogs.Lib.Prog

/-!
Programs that take turns.

Jobs share a state and take turns statement by statement. What a statement may
be answered, and what state a job may begin in, are relations, so that clocks and
other parties can be part of them. `Turn.keeps` is the rule for what holds of
the state and of every job in it.
-/

namespace EspressoLogs.Lib

/-- A program under way, and what is remembered of it. -/
structure Job (S : Type) (Resp : S → Type) (E L α : Type) where
  label : L
  prog : Prog S Resp E α

namespace Job

variable {S : Type} {Resp : S → Type} {E L α : Type}

/-- The program has ended. -/
def Over (job : Job S Resp E L α) : Prop := ∀ s k, job.prog ≠ .op s k

end Job

variable {S : Type} {Resp : S → Type} {E L α W : Type}

/-- One turn: a job begins, or a job performs its next statement. -/
inductive Turn (begins : W → L → Prog S Resp E α → W → Prop)
    (answers : (s : S) → W → Resp s → W → Prop) :
    W × List (Job S Resp E L α) → W × List (Job S Resp E L α) → Prop where
  | enter {w w' : W} {jobs : List (Job S Resp E L α)} {label : L} {prog : Prog S Resp E α}
      (begun : begins w label prog w') : Turn begins answers (w, jobs) (w', ⟨label, prog⟩ :: jobs)
  | perform {w w' : W} {before after : List (Job S Resp E L α)} {label : L} {s : S}
      {k : Resp s → Prog S Resp E α} {r : Resp s} (answered : answers s w r w') :
      Turn begins answers (w, before ++ ⟨label, .op s k⟩ :: after)
        (w', before ++ ⟨label, k r⟩ :: after)

/-- Any number of turns. -/
abbrev Turns (begins : W → L → Prog S Resp E α → W → Prop)
    (answers : (s : S) → W → Resp s → W → Prop) :
    W × List (Job S Resp E L α) → W × List (Job S Resp E L α) → Prop :=
  Relation.ReflTransGen (Turn begins answers)

/-- The job that began last performs its next statement. -/
theorem Turn.first {begins : W → L → Prog S Resp E α → W → Prop}
    {answers : (s : S) → W → Resp s → W → Prop} {w w' : W} {jobs : List (Job S Resp E L α)}
    {label : L} {s : S} {k : Resp s → Prog S Resp E α} {r : Resp s} {rest : Prog S Resp E α}
    (answered : answers s w r w') (left : k r = rest) :
    Turn begins answers (w, ⟨label, .op s k⟩ :: jobs) (w', ⟨label, rest⟩ :: jobs) :=
  left ▸ @Turn.perform _ _ _ _ _ _ begins answers w w' [] jobs label s k r answered

section Keeps

variable {begins : W → L → Prog S Resp E α → W → Prop} {answers : (s : S) → W → Resp s → W → Prop}
  {I : W → Prop} {J : W → Job S Resp E L α → Prop} {σ τ : W × List (Job S Resp E L α)}

/-- What `I` says of the state and `J` of each job, a turn keeps. -/
theorem Turn.keeps
    (entering : ∀ {w label prog w'}, I w → begins w label prog w' →
      I w' ∧ J w' ⟨label, prog⟩ ∧ ∀ job, J w job → J w' job)
    (performing : ∀ {label s k w r w'}, I w → J w ⟨label, .op s k⟩ → answers s w r w' →
      I w' ∧ J w' ⟨label, k r⟩ ∧ ∀ job, J w job → J w' job)
    (turn : Turn begins answers σ τ) (holds : I σ.1 ∧ ∀ job ∈ σ.2, J σ.1 job) :
    I τ.1 ∧ ∀ job ∈ τ.2, J τ.1 job := by
  obtain ⟨state, jobs⟩ := holds
  cases turn with
  | enter begun =>
      obtain ⟨state', new, old⟩ := entering state begun
      exact ⟨state', List.forall_mem_cons.mpr ⟨new, fun job hj => old job (jobs job hj)⟩⟩
  | perform answered =>
      rename_i before after label s k r
      have own := jobs ⟨label, .op s k⟩ (List.mem_append_right _ List.mem_cons_self)
      obtain ⟨state', moved, others⟩ := performing state own answered
      refine ⟨state', fun job hj => ?_⟩
      rcases List.mem_append.mp hj with hj | hj
      · exact others job (jobs job (List.mem_append_left _ hj))
      · rcases List.mem_cons.mp hj with rfl | hj
        · exact moved
        · exact others job (jobs job (List.mem_append_right _ (List.mem_cons_of_mem _ hj)))

theorem Turns.keeps
    (entering : ∀ {w label prog w'}, I w → begins w label prog w' →
      I w' ∧ J w' ⟨label, prog⟩ ∧ ∀ job, J w job → J w' job)
    (performing : ∀ {label s k w r w'}, I w → J w ⟨label, .op s k⟩ → answers s w r w' →
      I w' ∧ J w' ⟨label, k r⟩ ∧ ∀ job, J w job → J w' job)
    (turns : Turns begins answers σ τ) (holds : I σ.1 ∧ ∀ job ∈ σ.2, J σ.1 job) :
    I τ.1 ∧ ∀ job ∈ τ.2, J τ.1 job := by
  induction turns with
  | refl => exact holds
  | tail _ turn ih => exact turn.keeps entering performing ih

end Keeps

end EspressoLogs.Lib
