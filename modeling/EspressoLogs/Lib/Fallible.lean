import Mathlib.Data.List.Forall2

/-!
Computations that may fail, in `Except`: sequences that return went through each
of their parts, and a list is gone through when every element of it is.
-/

namespace EspressoLogs.Lib

variable {ε α β : Type}

theorem ok_bind (a : α) (f : α → Except ε β) : (Except.ok a >>= f) = f a := rfl

/-- A composition returns where both of its parts do. -/
theorem bind_eq_ok {x : Except ε α} {f : α → Except ε β} {b : β} (h : (x >>= f) = .ok b) :
    ∃ a, x = .ok a ∧ f a = .ok b := by
  cases x with
  | error e => cases h
  | ok a => exact ⟨a, rfl, h⟩

variable {f : α → Except ε β}

/-- `mapM` returns one result for each element, in their order. -/
theorem mapM_eq_ok_iff {l : List α} {bs : List β} :
    l.mapM f = .ok bs ↔ List.Forall₂ (fun a b => f a = .ok b) l bs := by
  induction l generalizing bs with
  | nil => cases bs <;> simp [pure, Except.pure]
  | cons a rest ih =>
      rw [List.mapM_cons]
      constructor
      · intro h
        obtain ⟨b, first, h⟩ := bind_eq_ok h
        obtain ⟨others, went, h⟩ := bind_eq_ok h
        cases h
        exact .cons first (ih.mp went)
      · intro h
        cases h with
        | cons first others => rw [first, ok_bind, ih.mpr others]; rfl

theorem mem_of_mapM_eq_ok {l : List α} {bs : List β} (h : l.mapM f = .ok bs) {a : α} (ha : a ∈ l) :
    ∃ b ∈ bs, f a = .ok b := by
  have pairs := mapM_eq_ok_iff.mp h
  clear h
  induction pairs with
  | nil => cases ha
  | @cons a' b' _ _ first _ ih =>
      rcases List.mem_cons.mp ha with rfl | later
      · exact ⟨b', List.mem_cons_self, first⟩
      · obtain ⟨b, hb, went⟩ := ih later
        exact ⟨b, List.mem_cons_of_mem _ hb, went⟩

theorem from_of_mapM_eq_ok {l : List α} {bs : List β} (h : l.mapM f = .ok bs) {b : β} (hb : b ∈ bs) :
    ∃ a ∈ l, f a = .ok b := by
  have pairs := mapM_eq_ok_iff.mp h
  clear h
  induction pairs with
  | nil => cases hb
  | @cons a' b' _ _ first _ ih =>
      rcases List.mem_cons.mp hb with rfl | later
      · exact ⟨a', List.mem_cons_self, first⟩
      · obtain ⟨a, ha, went⟩ := ih later
        exact ⟨a, List.mem_cons_of_mem _ ha, went⟩

/-- `mapM` returns if and only if each of the calls does: the first one that raises
stops it. -/
theorem mapM_total {l : List α} : (∃ bs, l.mapM f = .ok bs) ↔ ∀ a ∈ l, ∃ b, f a = .ok b := by
  induction l with
  | nil => exact ⟨fun _ => nofun, fun _ => ⟨[], rfl⟩⟩
  | cons a rest ih =>
      rw [List.forall_mem_cons, ← ih, List.mapM_cons]
      constructor
      · rintro ⟨bs, h⟩
        obtain ⟨b, first, h⟩ := bind_eq_ok h
        obtain ⟨others, went, _⟩ := bind_eq_ok h
        exact ⟨⟨b, first⟩, others, went⟩
      · rintro ⟨⟨b, first⟩, others, went⟩
        exact ⟨b :: others, by rw [first, ok_bind, went]; rfl⟩

/-- Going through a list with a function that agrees with a pure one on it. -/
theorem mapM_eq_ok_map_iff {g : α → β} {l : List α} :
    l.mapM f = .ok (l.map g) ↔ ∀ a ∈ l, f a = .ok (g a) := by
  rw [mapM_eq_ok_iff, List.forall₂_map_right_iff, List.forall₂_same]

end EspressoLogs.Lib
