import Mathlib.Data.List.Basic

/-!
Sweeps over a list of items.

A sweep takes its items one after the other; each makes a step from the state
that the ones before it left, and the first that fails ends the sweep there. What
every step keeps the sweep keeps (`sweep_rel`), and a sweep over the same items
again finds nothing to do wherever each item settles what it is about
(`sweep_again`).
-/

namespace EspressoLogs.Lib

variable {X S D : Type} (step : X → S → Option S)

/-- Whether a sweep comes to its end, and the state it leaves. -/
def sweep : List X → S → Bool × S
  | [], s => (true, s)
  | x :: rest, s =>
      match step x s with
      | some s' => sweep rest s'
      | none => (false, s)

/-- The items that a sweep comes to, each with the state it finds. -/
def visits : List X → S → List (X × S)
  | [], _ => []
  | x :: rest, s => (x, s) ::
      match step x s with
      | some s' => visits rest s'
      | none => []

section Cons

variable {step} {x : X} {rest : List X} {s s' : S}

theorem sweep_cons_some (h : step x s = some s') : sweep step (x :: rest) s = sweep step rest s' := by
  rw [sweep, h]

theorem sweep_cons_none (h : step x s = none) : sweep step (x :: rest) s = (false, s) := by
  rw [sweep, h]

theorem visits_cons_some (h : step x s = some s') :
    visits step (x :: rest) s = (x, s) :: visits step rest s' := by
  rw [visits, h]

theorem visits_cons_none (h : step x s = none) : visits step (x :: rest) s = [(x, s)] := by
  rw [visits, h]

end Cons

variable {step}

/-- A preorder that every step of a sweep goes up, its start and its end go up
too, and so does the way through each item. -/
theorem sweep_rel {R : S → S → Prop} (refl : ∀ s, R s s) (trans : ∀ a b c, R a b → R b c → R a c)
    {items : List X} {s : S}
    (up : ∀ v ∈ visits step items s, ∀ s', step v.1 v.2 = some s' → R v.2 s') :
    R s (sweep step items s).2 ∧ ∀ v ∈ visits step items s, R s v.2 ∧
      R v.2 (sweep step items s).2 ∧
      ∀ s', step v.1 v.2 = some s' → R s' (sweep step items s).2 := by
  induction items generalizing s with
  | nil => exact ⟨refl s, nofun⟩
  | cons x rest ih =>
      cases taken : step x s with
      | none =>
          rw [visits_cons_none taken, sweep_cons_none taken]
          refine ⟨refl s, fun v hv => ?_⟩
          rw [List.mem_singleton.mp hv]
          refine ⟨refl s, refl s, fun s' h => ?_⟩
          rw [taken] at h
          cases h
      | some s' =>
          rw [visits_cons_some taken] at up ⊢
          rw [sweep_cons_some taken]
          obtain ⟨first, others⟩ := List.forall_mem_cons.mp up
          have up' := first s' taken
          obtain ⟨whole, each⟩ := ih others
          refine ⟨trans _ _ _ up' whole, List.forall_mem_cons.mpr ⟨?_, fun v hv => ?_⟩⟩
          · refine ⟨refl s, trans _ _ _ up' whole, fun s'' h => ?_⟩
            rw [taken] at h
            cases h
            exact whole
          · obtain ⟨before, after, next⟩ := each v hv
            exact ⟨trans _ _ _ up' before, after, next⟩

/-- After an item comes the next one, or the end. -/
theorem visits_next {items : List X} {s : S} {v : X × S} (hv : v ∈ visits step items s) {s' : S}
    (taken : step v.1 v.2 = some s') :
    s' = (sweep step items s).2 ∨ ∃ u ∈ visits step items s, u.2 = s' := by
  induction items generalizing s with
  | nil => cases hv
  | cons x rest ih =>
      cases first : step x s with
      | none =>
          rw [visits_cons_none first] at hv
          rw [List.mem_singleton.mp hv, first] at taken
          cases taken
      | some s₁ =>
          rw [visits_cons_some first] at hv ⊢
          rw [sweep_cons_some first]
          rcases List.mem_cons.mp hv with rfl | hv
          · rw [first] at taken
            cases taken
            cases rest with
            | nil => exact .inl rfl
            | cons y rest => exact .inr ⟨(y, s'), List.mem_cons_of_mem _ List.mem_cons_self, rfl⟩
          · rcases ih hv with last | ⟨u, hu, same⟩
            · exact .inl last
            · exact .inr ⟨u, List.mem_cons_of_mem _ hu, same⟩

/-- What every step of a sweep keeps holds on its way and at its end. -/
theorem sweep_keeps {I : S → Prop} {items : List X} {s : S}
    (keeps : ∀ v ∈ visits step items s, I v.2 → ∀ s', step v.1 v.2 = some s' → I s')
    (start : I s) : I (sweep step items s).2 ∧ ∀ v ∈ visits step items s, I v.2 := by
  obtain ⟨last, each⟩ := sweep_rel (R := fun a b => I a → I b) (fun _ => id)
    (fun _ _ _ first second => second ∘ first) fun v hv s' taken held => keeps v hv held s' taken
  exact ⟨last start, fun v hv => (each v hv).1 start⟩

/-- The items again, from a state like the one that a first sweep left: where every
item has settled what it is about and none stirs it up, nothing changes. -/
theorem sweep_again {step₂ : X → S → Option S} {π : S → D} {R : S → S → Prop}
    (Fit : S → Prop) (Stirs : X → S → Prop)
    (refl : ∀ s, R s s) (trans : ∀ a b c, R a b → R b c → R a c)
    (congr : ∀ a b c, R a b → π b = π c → R a c) {items : List X} {s t : S}
    (up : ∀ v ∈ visits step items s, ∀ s', step v.1 v.2 = some s' → R v.2 s')
    (settles : ∀ v ∈ visits step items s, ∀ s', step v.1 v.2 = some s' → ∀ t t', Fit t → R s' t →
      ¬ Stirs v.1 t → step₂ v.1 t = some t' → π t' = π t)
    (fails : ∀ v ∈ visits step items s, step v.1 v.2 = none → ∀ t, Fit t → π t = π v.2 →
      step₂ v.1 t = none)
    (same : π t = π (sweep step items s).2)
    (calm : ∀ v ∈ visits step₂ items t, Fit v.2 ∧ ¬ Stirs v.1 v.2) :
    ∀ v ∈ visits step₂ items t, ∀ t', step₂ v.1 v.2 = some t' → π t' = π v.2 := by
  -- both sweeps item by item: what the first left is what the second finds
  induction items generalizing s t with
  | nil => exact nofun
  | cons x rest ih =>
      have fit : Fit t := (calm (x, t) List.mem_cons_self).1
      cases taken : step x s with
      | none =>
          rw [sweep_cons_none taken] at same
          have again := fails (x, s) List.mem_cons_self taken t fit same
          rw [visits_cons_none again]
          intro v hv t' h
          rw [List.mem_singleton.mp hv, again] at h
          cases h
      | some s' =>
          rw [visits_cons_some taken] at up settles fails
          rw [sweep_cons_some taken] at same
          have onward := sweep_rel refl trans fun v hv => up v (List.mem_cons_of_mem _ hv)
          cases again : step₂ x t with
          | none =>
              rw [visits_cons_none again]
              intro v hv t' h
              rw [List.mem_singleton.mp hv, again] at h
              cases h
          | some t' =>
              rw [visits_cons_some again] at calm ⊢
              obtain ⟨first, others⟩ := List.forall_mem_cons.mp calm
              -- the item changes nothing, so that the second sweep stays where the first
              -- one ended
              have still : π t' = π t := settles (x, s) List.mem_cons_self s' taken t t' fit
                (congr _ _ _ onward.1 same.symm) first.2 again
              have each := ih (fun v hv => up v (List.mem_cons_of_mem _ hv))
                (fun v hv => settles v (List.mem_cons_of_mem _ hv))
                (fun v hv => fails v (List.mem_cons_of_mem _ hv)) (still.trans same) others
              refine List.forall_mem_cons.mpr ⟨fun t'' h => ?_, each⟩
              rw [again] at h
              cases h
              exact still

end EspressoLogs.Lib
