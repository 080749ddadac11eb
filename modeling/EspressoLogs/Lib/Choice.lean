import Mathlib.Data.List.Basic
import Mathlib.Order.Lattice

/-!
The first of the best.

A choice takes the first of the best rows of a list, so it depends on the order
of the rows as far as the best rows differ in what is read off them.
-/

namespace EspressoLogs.Lib

variable {R V : Type}

/-- A row that is at least every row of the list. -/
def Best (le : R → R → Prop) (rows : List R) (r : R) : Prop := r ∈ rows ∧ ∀ x ∈ rows, le x r

/-- The best rows agree on a value. -/
def Settled (le : R → R → Prop) (value : R → V) (rows : List R) : Prop :=
  ∀ a b, Best le rows a → Best le rows b → value a = value b

theorem Best.perm {le : R → R → Prop} {rows rows' : List R} {r : R} (perm : rows.Perm rows')
    (best : Best le rows r) : Best le rows' r :=
  ⟨perm.mem_iff.mp best.1, fun x hx => best.2 x (perm.mem_iff.mpr hx)⟩

/-! ### Sorting, best first -/

section Sorted

variable {le : R → R → Bool} (trans : ∀ a b c, le a b = true → le b c = true → le a c = true)
  (total : ∀ a b, (le a b || le b a) = true)

include trans total

/-- A row that comes before every row from its place on, and after those before
it in no case, is the first of a stable sort. -/
theorem head_mergeSort {before after : List R} {r : R} (below : ∀ x ∈ before, le x r = false)
    (least : ∀ x ∈ after, le r x = true) : ((before ++ r :: after).mergeSort le).head? = some r := by
  induction before with
  | nil =>
      obtain ⟨l₁, l₂, sorted, _, above⟩ := List.mergeSort_cons trans total r after
      have none : l₁ = [] := by
        refine List.eq_nil_iff_forall_not_mem.mpr fun x hx => ?_
        have mem : x ∈ (r :: after).mergeSort le := by
          rw [sorted]
          exact List.mem_append_left _ hx
        have smaller : le r x = true := by
          rcases List.mem_cons.mp (List.mem_mergeSort.mp mem) with rfl | hx
          · simpa using total x x
          · exact least x hx
        have := above x hx
        rw [smaller] at this
        cases this
      rw [List.nil_append, sorted, none]
      rfl
  | cons x before ih =>
      have ih := ih fun y hy => below y (List.mem_cons_of_mem x hy)
      obtain ⟨l₁, l₂, sorted, rest, _⟩ := List.mergeSort_cons trans total x (before ++ r :: after)
      rw [rest] at ih
      rw [List.cons_append, sorted]
      cases l₁ with
      | cons y l₁ => exact ih
      | nil =>
          -- Then `x` would come first, and so before `r`.
          have mem : r ∈ l₂ := by
            rw [List.nil_append] at ih
            exact List.mem_of_mem_head? (Option.mem_def.mpr ih)
          have order := List.pairwise_mergeSort trans total (x :: (before ++ r :: after))
          rw [sorted, List.nil_append, List.pairwise_cons] at order
          have first := order.1 r mem
          rw [below x List.mem_cons_self] at first
          cases first

end Sorted

/-! ### The maximum -/

section Maximum

variable {K : Type} [LinearOrder K] {key : R → K} {rows : List R} {r : R}

theorem best_of_maxOn? (chosen : rows.maxOn? key = some r) : Best (fun x y => key x ≤ key y) rows r := by
  refine ⟨List.maxOn?_mem chosen, fun x hx => ?_⟩
  have most := List.le_apply_get_maxOn?_of_mem (f := key) hx
  simpa [chosen] using most

/-- A best row that comes first is chosen. -/
theorem maxOn?_cons_of_best (best : ∀ x ∈ rows, key x ≤ key r) : (r :: rows).maxOn? key = some r := by
  rw [List.maxOn?_cons]
  cases chosen : rows.maxOn? key with
  | none => rfl
  | some x =>
      have := best x (List.maxOn?_mem chosen)
      exact congrArg some (maxOn_eq_left this)

end Maximum

end EspressoLogs.Lib
