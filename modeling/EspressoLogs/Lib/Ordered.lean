import Mathlib.Data.List.Nodup

/-!
Dictionaries in insertion order.

An `Ordered` has one value for a key and keeps its keys in the order in which
they first came. Setting a key again changes its value in place; a list of pairs
makes one where the last value of a key counts (`get_ofList`).
-/

namespace EspressoLogs.Lib

/-- Pairs under distinct keys. -/
structure Ordered (K V : Type) where
  entries : List (K × V)
  distinct : (entries.map Prod.fst).Nodup
  deriving DecidableEq

namespace Ordered

variable {K V : Type}

/-- The keys, oldest first. -/
def keys (d : Ordered K V) : List K := d.entries.map Prod.fst

def empty : Ordered K V := ⟨[], List.nodup_nil⟩

@[ext] theorem ext {d e : Ordered K V} (h : d.entries = e.entries) : d = e := by
  cases d
  cases e
  cases h
  rfl

/-- The pairs that satisfy a predicate. -/
def filter (p : K → V → Bool) (d : Ordered K V) : Ordered K V where
  entries := d.entries.filter fun x => p x.1 x.2
  distinct := d.distinct.sublist (List.filter_sublist.map Prod.fst)

section Keys

variable [DecidableEq K]

/-- The value under the key. -/
def get (d : Ordered K V) (k : K) : Option V := d.entries.lookup k

/-- An entry, with the new value if it is the one of the key. -/
def replaced (k : K) (v : V) (x : K × V) : K × V := if x.1 = k then (k, v) else x

theorem replaced_fst (k : K) (v : V) (x : K × V) : (replaced k v x).1 = x.1 := by
  unfold replaced
  split
  · rename_i same
    exact same.symm
  · rfl

/-- A key that is there keeps its place, another one comes last. -/
def setEntries (entries : List (K × V)) (k : K) (v : V) : List (K × V) :=
  if k ∈ entries.map Prod.fst then entries.map (replaced k v) else entries ++ [(k, v)]

/-- Only a new key is put at the end. -/
theorem keys_setEntries (entries : List (K × V)) (k : K) (v : V) :
    (setEntries entries k v).map Prod.fst =
      if k ∈ entries.map Prod.fst then entries.map Prod.fst else entries.map Prod.fst ++ [k] := by
  unfold setEntries
  split
  · rw [List.map_map]
    exact List.map_congr_left fun x _ => replaced_fst k v x
  · rw [List.map_append]
    rfl

/-- An assignment: a key that is there keeps its position. -/
def set (d : Ordered K V) (k : K) (v : V) : Ordered K V where
  entries := setEntries d.entries k v
  distinct := by
    rw [keys_setEntries]
    split
    · exact d.distinct
    · rename_i new
      exact d.distinct.append (List.nodup_singleton k) fun x old single =>
        new (List.mem_singleton.mp single ▸ old)

/-- The pairs one after the other. -/
def ofList (pairs : List (K × V)) : Ordered K V := pairs.foldl (fun d x => d.set x.1 x.2) empty

/-- With distinct keys, the first entry of a key is the only one. -/
theorem lookup_eq_some_iff {entries : List (K × V)} (distinct : (entries.map Prod.fst).Nodup) {k : K}
    {v : V} : entries.lookup k = some v ↔ (k, v) ∈ entries := by
  induction entries with
  | nil => simp
  | cons x rest ih =>
      obtain ⟨k', v'⟩ := x
      obtain ⟨new, distinct⟩ := List.nodup_cons.mp distinct
      rw [List.lookup_cons, List.mem_cons]
      by_cases same : k = k'
      · subst same
        simp only [beq_self_eq_true, Option.some.injEq, Prod.mk.injEq, true_and]
        constructor
        · intro h
          exact .inl h.symm
        · rintro (rfl | there)
          · rfl
          · exact absurd (List.mem_map_of_mem (f := Prod.fst) there) new
      · simp only [beq_eq_false_iff_ne.mpr same, Prod.mk.injEq, same, false_and, false_or]
        exact ih distinct

theorem get_eq_some_iff {d : Ordered K V} {k : K} {v : V} : d.get k = some v ↔ (k, v) ∈ d.entries :=
  lookup_eq_some_iff d.distinct

theorem mem_keys_iff {d : Ordered K V} {k : K} : k ∈ d.keys ↔ ∃ v, d.get k = some v := by
  unfold keys
  rw [List.mem_map]
  constructor
  · rintro ⟨⟨_, v⟩, there, rfl⟩
    exact ⟨v, get_eq_some_iff.mpr there⟩
  · rintro ⟨v, got⟩
    exact ⟨(k, v), get_eq_some_iff.mp got, rfl⟩

@[simp] theorem get_empty (k : K) : (empty : Ordered K V).get k = none := rfl

/-- What is read back after an assignment. -/
theorem get_set (d : Ordered K V) (k k' : K) (v : V) :
    (d.set k v).get k' = if k' = k then some v else d.get k' := by
  refine Option.ext fun u => ?_
  rw [get_eq_some_iff]
  show (k', u) ∈ setEntries d.entries k v ↔ _
  unfold setEntries
  by_cases same : k' = k
  · subst same
    rw [if_pos rfl]
    -- an old entry is replaced where it stands, a new one is put at the end
    by_cases there : k' ∈ d.entries.map Prod.fst
    · rw [if_pos there]
      obtain ⟨x, hx, key⟩ := List.mem_map.mp there
      constructor
      · rintro h
        obtain ⟨y, _, eq⟩ := List.mem_map.mp h
        unfold replaced at eq
        split at eq
        · cases eq
          rfl
        · rename_i other
          exact absurd (by rw [eq]) other
      · rintro ⟨⟩
        refine List.mem_map.mpr ⟨x, hx, ?_⟩
        rw [replaced, if_pos key]
    · rw [if_neg there]
      constructor
      · intro h
        rcases List.mem_append.mp h with old | new
        · exact absurd (List.mem_map_of_mem (f := Prod.fst) old) there
        · cases List.mem_singleton.mp new
          rfl
      · rintro ⟨⟩
        exact List.mem_append_right _ (List.mem_singleton_self _)
  · rw [if_neg same, get_eq_some_iff]
    split
    · constructor
      · intro h
        obtain ⟨y, hy, eq⟩ := List.mem_map.mp h
        unfold replaced at eq
        split at eq
        · cases eq
          exact absurd rfl same
        · exact eq ▸ hy
      · intro h
        refine List.mem_map.mpr ⟨(k', u), h, ?_⟩
        rw [replaced, if_neg same]
    · rw [List.mem_append, List.mem_singleton, Prod.mk.injEq]
      constructor
      · rintro (old | ⟨key, _⟩)
        · exact old
        · exact absurd key same
      · exact .inl

/-- Of the entries kept. -/
theorem get_filter_eq_some_iff {p : K → V → Bool} {d : Ordered K V} {k : K} {v : V} :
    (d.filter p).get k = some v ↔ d.get k = some v ∧ p k v = true := by
  rw [get_eq_some_iff, get_eq_some_iff]
  exact List.mem_filter

/-- The last value of a key counts. -/
theorem get_foldl_set (pairs : List (K × V)) (d : Ordered K V) (k : K) :
    (pairs.foldl (fun d x => d.set x.1 x.2) d).get k = (pairs.reverse.lookup k).or (d.get k) := by
  induction pairs generalizing d with
  | nil => rfl
  | cons x rest ih =>
      obtain ⟨k', v⟩ := x
      rw [List.foldl_cons, ih, get_set, List.reverse_cons, List.lookup_append]
      by_cases same : k = k'
      · subst same
        cases rest.reverse.lookup k <;> simp
      · rw [if_neg same]
        have other : [(k', v)].lookup k = none := by
          rw [List.lookup_cons, beq_eq_false_iff_ne.mpr same]
          rfl
        rw [other, Option.or_none]

/-- Of two pairs with one key, the later one is kept. -/
theorem get_ofList (pairs : List (K × V)) (k : K) :
    (ofList pairs : Ordered K V).get k = pairs.reverse.lookup k := by
  rw [ofList, get_foldl_set, get_empty, Option.or_none]

/-- Pairs with new keys are appended as they come. -/
theorem entries_foldl_set {pairs : List (K × V)} {d : Ordered K V}
    (distinct : ((d.entries ++ pairs).map Prod.fst).Nodup) :
    (pairs.foldl (fun d x => d.set x.1 x.2) d).entries = d.entries ++ pairs := by
  induction pairs generalizing d with
  | nil => exact (List.append_nil _).symm
  | cons x rest ih =>
      have new : x.1 ∉ d.entries.map Prod.fst := by
        rw [List.map_append, List.map_cons] at distinct
        exact fun old => (List.nodup_append.mp distinct).2.2 _ old _ List.mem_cons_self rfl
      have entries : (d.set x.1 x.2).entries = d.entries ++ [x] := if_neg new
      rw [List.foldl_cons, ih, entries, List.append_assoc]
      · rfl
      · rw [entries, List.append_assoc]
        exact distinct

/-- Pairs under distinct keys stay as they are. -/
theorem entries_ofList {pairs : List (K × V)} (distinct : (pairs.map Prod.fst).Nodup) :
    (ofList pairs).entries = pairs :=
  entries_foldl_set (d := empty) distinct

/-- Every pair comes from the list. -/
theorem mem_of_mem_ofList {pairs : List (K × V)} {x : K × V} (h : x ∈ (ofList pairs).entries) :
    x ∈ pairs := by
  have got : (ofList pairs).get x.1 = some x.2 := get_eq_some_iff.mpr h
  rw [get_ofList] at got
  obtain ⟨before, after, split, -⟩ := List.lookup_eq_some_iff.mp got
  exact List.mem_reverse.mp (split ▸ List.mem_append_right _ List.mem_cons_self)

end Keys

end Ordered

end EspressoLogs.Lib
