import Mathlib.Data.List.Basic

/-!
Reading a list page by page.

A client asks for page 1, 2, ... for as long as a page says that there is a next
one. If the pages are cut from one list, the client stops, and has read the list.
-/

namespace EspressoLogs.Lib

variable {P R : Type}

/-- The pages from page `n` on that the client reads. -/
inductive Walk (answers : Nat → P → Prop) (hasNext : P → Bool) : Nat → List P → Prop where
  | last {n : Nat} {p : P} : answers n p → hasNext p = false → Walk answers hasNext n [p]
  | more {n : Nat} {p : P} {rest : List P} : answers n p → hasNext p = true →
      Walk answers hasNext (n + 1) rest → Walk answers hasNext n (p :: rest)

/-- Page `n` of `size` rows each, counted from 1. -/
def pageOf (size n : Nat) (rows : List R) : List R := (rows.drop ((n - 1) * size)).take size

/-- Every page is answered in one way, with its part of the rows and whether
there are more. -/
structure Paged (answers : Nat → P → Prop) (hasNext : P → Bool) (items : P → List R) (size : Nat)
    (rows : List R) : Prop where
  positive : 0 < size
  answered : ∀ n, 1 ≤ n → ∃ p, answers n p
  single : ∀ n p q, answers n p → answers n q → p = q
  cut : ∀ n p, 1 ≤ n → answers n p → items p = pageOf size n rows
  next : ∀ n p, 1 ≤ n → answers n p → (hasNext p = true ↔ n * size < rows.length)

theorem ahead_add_size {n : Nat} (hn : 1 ≤ n) (size : Nat) : (n - 1) * size + size = n * size := by
  rw [← Nat.succ_mul, Nat.succ_eq_add_one, Nat.sub_add_cancel hn]

namespace Paged

variable {answers : Nat → P → Prop} {hasNext : P → Bool} {items : P → List R} {size n : Nat}
  {rows : List R} {pages : List P}

/-- The client stops. -/
theorem walk (paged : Paged answers hasNext items size rows) : ∃ pages, Walk answers hasNext 1 pages := by
  have reach : ∀ left n, 1 ≤ n → rows.length ≤ n * size + left →
      ∃ pages, Walk answers hasNext n pages := by
    -- Induction on the number of rows behind page `n`.
    intro left
    induction left with
    | zero =>
        intro n hn few
        obtain ⟨p, answer⟩ := paged.answered n hn
        refine ⟨[p], .last answer (Bool.eq_false_iff.mpr fun more => ?_)⟩
        have := (paged.next n p hn answer).mp more
        omega
    | succ left ih =>
        intro n hn few
        obtain ⟨p, answer⟩ := paged.answered n hn
        cases more : hasNext p with
        | false => exact ⟨[p], .last answer more⟩
        | true =>
            have := paged.positive
            obtain ⟨rest, walk⟩ := ih (n + 1) (Nat.le_add_left 1 n) (by
              rw [Nat.add_mul]
              omega)
            exact ⟨p :: rest, .more answer more walk⟩
  exact reach rows.length 1 (Nat.le_refl 1) (Nat.le_add_left _ _)

theorem unique (paged : Paged answers hasNext items size rows) {pages' : List P}
    (walk : Walk answers hasNext n pages) (walk' : Walk answers hasNext n pages') :
    pages' = pages := by
  induction walk generalizing pages' with
  | last answer done =>
      cases walk' with
      | last answer' _ => rw [paged.single _ _ _ answer answer']
      | more answer' more' _ =>
          obtain rfl := paged.single _ _ _ answer answer'
          rw [done] at more'
          cases more'
  | more answer more _ ih =>
      cases walk' with
      | last answer' done' =>
          obtain rfl := paged.single _ _ _ answer answer'
          rw [more] at done'
          cases done'
      | more answer' _ rest' => rw [paged.single _ _ _ answer answer', ih rest']

/-- Page after page, the rows from page `n` on. -/
theorem flatMap_items (paged : Paged answers hasNext items size rows) (hn : 1 ≤ n)
    (walk : Walk answers hasNext n pages) : pages.flatMap items = rows.drop ((n - 1) * size) := by
  induction walk with
  | @last n p answer done =>
      have few : ¬ n * size < rows.length := by
        intro more
        rw [(paged.next n p hn answer).mpr more] at done
        cases done
      have ahead := ahead_add_size hn size
      rw [List.flatMap_singleton, paged.cut n p hn answer, pageOf]
      refine List.take_of_length_le ?_
      rw [List.length_drop]
      omega
  | @more n p rest answer more walk ih =>
      rw [List.flatMap_cons, paged.cut n p hn answer, ih (Nat.le_add_left 1 n), Nat.add_sub_cancel,
        ← ahead_add_size hn size, pageOf, ← List.drop_drop, List.take_append_drop]

/-- Every page but the last is full. -/
theorem full (paged : Paged answers hasNext items size rows) (hn : 1 ≤ n)
    (walk : Walk answers hasNext n pages) : ∀ p ∈ pages.dropLast, (items p).length = size := by
  induction walk with
  | last answer done => simp
  | @more n p rest answer more walk ih =>
      intro q hq
      have nonempty : rest ≠ [] := by cases walk <;> exact List.cons_ne_nil _ _
      rw [List.dropLast_cons_of_ne_nil nonempty] at hq
      rcases List.mem_cons.mp hq with rfl | hq
      · have enough := (paged.next n q hn answer).mp more
        have ahead := ahead_add_size hn size
        rw [paged.cut n q hn answer, pageOf, List.length_take, List.length_drop]
        omega
      · exact ih (Nat.le_add_left 1 n) q hq

theorem mem_answers (walk : Walk answers hasNext n pages) (hn : 1 ≤ n) :
    ∀ p ∈ pages, ∃ m, 1 ≤ m ∧ answers m p := by
  induction walk with
  | @last n p answer _ => exact fun q hq => ⟨n, hn, List.mem_singleton.mp hq ▸ answer⟩
  | @more n p rest answer _ _ ih =>
      intro q hq
      rcases List.mem_cons.mp hq with rfl | hq
      · exact ⟨n, hn, answer⟩
      · exact ih (Nat.le_add_left 1 n) q hq

end Paged

/-! ### Sorting twice -/

/-- A stable sort by `le` of rows in the order `R` orders by `R` where `le` ties. -/
theorem pairwise_mergeSort_of_pairwise {le : R → R → Bool} {follows : R → R → Prop}
    (trans : ∀ a b c, le a b = true → le b c = true → le a c = true)
    (total : ∀ a b, (le a b || le b a) = true) (refl : ∀ a, follows a a) {rows : List R}
    (sorted : rows.Pairwise follows) :
    (rows.mergeSort le).Pairwise fun a b => le a b = true ∧ (le b a = true → follows a b) := by
  rw [← List.mergeSort_zipIdx, List.pairwise_map]
  have indexed := List.pairwise_mergeSort (List.zipIdxLE_trans trans) (List.zipIdxLE_total total)
    rows.zipIdx
  refine indexed.imp_of_mem fun {a b} ha hb before => ?_
  have ha := List.mk_mem_zipIdx_iff_getElem?.mp (List.mem_mergeSort.mp ha)
  have hb := List.mk_mem_zipIdx_iff_getElem?.mp (List.mem_mergeSort.mp hb)
  unfold List.zipIdxLE at before
  split at before
  · rename_i first
    refine ⟨first, fun tie => ?_⟩
    rw [if_pos tie, decide_eq_true_eq] at before
    obtain ⟨ia, ha⟩ := List.getElem?_eq_some_iff.mp ha
    obtain ⟨ib, hb⟩ := List.getElem?_eq_some_iff.mp hb
    rcases Nat.lt_or_eq_of_le before with earlier | same
    · rw [← ha, ← hb]
      exact List.pairwise_iff_getElem.mp sorted _ _ ia ib earlier
    · have : a.1 = b.1 := by
        rw [← ha, ← hb]
        simp only [same]
      rw [this]
      exact refl _
  · cases before

end EspressoLogs.Lib
