import Mathlib.Algebra.Order.Ring.Rat
import Mathlib.Logic.Function.Basic
import Mathlib.Tactic.Linarith

/-!
A cache of lists of objects that their users can change.

What is put into the cache is copied, and so is what is taken out of it, so that no
object of an entry is ever in the hands of a user (`Sound`). An entry is served as
long as it is no older than the cache allows. `Coherent` says of the entries that can
still be served that they show what they should; each operation keeps it.
-/

namespace EspressoLogs.Lib

/-- What the cache holds under a key: objects, and what the clock showed. -/
structure Cached where
  objects : List Nat
  fetchedAt : ℚ
  deriving DecidableEq, Repr

/-- Objects by their number, and the cache. -/
structure Memory (K R : Type) where
  objects : List R
  store : K → Option Cached

namespace Memory

variable {K R : Type} [Inhabited R]

/-- The value of an object. -/
def value (m : Memory K R) (i : Nat) : R := m.objects.getD i default

def values (m : Memory K R) (objects : List Nat) : List R := objects.map m.value

/-- New objects of the given values. -/
def alloc (m : Memory K R) (rows : List R) : List Nat × Memory K R :=
  (List.range' m.objects.length rows.length, { m with objects := m.objects ++ rows })

/-- A user changes an object. -/
def change (m : Memory K R) (i : Nat) (row : R) : Memory K R :=
  { m with objects := m.objects.set i row }

/-- What is under the key, copied, if it is no older than `ttl`. -/
def get (m : Memory K R) (ttl now : ℚ) (key : K) : Option (List Nat × Memory K R) :=
  match m.store key with
  | none => none
  | some cached => if ttl < now - cached.fetchedAt then none else some (m.alloc (m.values cached.objects))

section

variable [DecidableEq K]

/-- Copies of the objects under the key. -/
def set (m : Memory K R) (now : ℚ) (key : K) (objects : List Nat) : Memory K R :=
  let (copies, m') := m.alloc (m.values objects)
  { m' with store := Function.update m'.store key (some ⟨copies, now⟩) }

def invalidate (m : Memory K R) (key : K) : Memory K R :=
  { m with store := Function.update m.store key none }

end

/-! ### Values -/

theorem value_alloc {m : Memory K R} {rows : List R} {i : Nat} (h : i < m.objects.length) :
    (m.alloc rows).2.value i = m.value i := by
  unfold value alloc
  simp only [List.getD_eq_getElem?_getD]
  rw [List.getElem?_append_left h]

theorem values_alloc {m : Memory K R} {rows : List R} {objects : List Nat}
    (h : ∀ i ∈ objects, i < m.objects.length) :
    (m.alloc rows).2.values objects = m.values objects :=
  List.map_congr_left fun i mem => value_alloc (h i mem)

/-- New objects have the values they were made with. -/
theorem values_new (m : Memory K R) (rows : List R) :
    (m.alloc rows).2.values (m.alloc rows).1 = rows := by
  refine List.ext_getElem ?_ ?_
  · simp only [values, alloc, List.length_map, List.length_range']
  · intro i left right
    simp only [values, alloc, List.getElem_map, List.getElem_range', value,
      List.getD_eq_getElem?_getD, Nat.one_mul]
    rw [List.getElem?_append_right (Nat.le_add_right _ _), Nat.add_sub_cancel_left,
      List.getElem?_eq_getElem right]
    rfl

omit [Inhabited R] in
theorem mem_new {m : Memory K R} {rows : List R} {i : Nat} (h : i ∈ (m.alloc rows).1) :
    m.objects.length ≤ i ∧ i < (m.alloc rows).2.objects.length := by
  have range := List.mem_range'_1.mp h
  simp only [alloc, List.length_append]
  exact range

theorem values_change {m : Memory K R} {i : Nat} {row : R} {objects : List Nat} (h : i ∉ objects) :
    (m.change i row).values objects = m.values objects := by
  refine List.map_congr_left fun j mem => ?_
  have other : i ≠ j := fun same => h (same ▸ mem)
  unfold value change
  simp only [List.getD_eq_getElem?_getD]
  rw [List.getElem?_set_ne other]

/-! ### Entries -/

section

variable [DecidableEq K] {m : Memory K R} {key key' : K} {cached : Cached}

omit [Inhabited R] in
@[simp] theorem store_invalidate_self : (m.invalidate key).store key = none :=
  Function.update_self ..

omit [Inhabited R] in
theorem store_invalidate_of_ne (h : key' ≠ key) : (m.invalidate key).store key' = m.store key' :=
  Function.update_of_ne h ..

omit [Inhabited R] in
theorem store_of_invalidate (found : (m.invalidate key).store key' = some cached) :
    m.store key' = some cached := by
  by_cases same : key' = key
  · subst same
    rw [store_invalidate_self] at found
    cases found
  · exact (store_invalidate_of_ne same).symm.trans found

theorem store_of_set {now : ℚ} {objects : List Nat}
    (found : (m.set now key objects).store key' = some cached) :
    (key' = key ∧ ⟨(m.alloc (m.values objects)).1, now⟩ = cached) ∨ m.store key' = some cached := by
  by_cases same : key' = key
  · subst same
    have here : (m.set now key' objects).store key' =
        some ⟨(m.alloc (m.values objects)).1, now⟩ := Function.update_self ..
    exact .inl ⟨rfl, Option.some.inj (here.symm.trans found)⟩
  · have other : (m.set now key objects).store key' = m.store key' := Function.update_of_ne same ..
    exact .inr (other.symm.trans found)

/-- Storing something changes no value. -/
theorem values_set {now : ℚ} {objects others : List Nat} (h : ∀ i ∈ others, i < m.objects.length) :
    (m.set now key objects).values others = m.values others :=
  values_alloc h

end

/-! ### Coherence -/

/-- The objects of the entries are not in the hands of users, and the entries that can still
be served show what they should. -/
structure Coherent (held : Nat → Prop) (shown : K → List R → Prop) (ttl now : ℚ)
    (m : Memory K R) : Prop where
  stored : ∀ key cached, m.store key = some cached →
    ∀ i ∈ cached.objects, i < m.objects.length ∧ ¬ held i
  bounded : ∀ i, held i → i < m.objects.length
  served : ∀ key cached, m.store key = some cached → now - cached.fetchedAt ≤ ttl →
    shown key (m.values cached.objects)

/-- An object that no entry has. -/
def Loose (m : Memory K R) (i : Nat) : Prop :=
  i < m.objects.length ∧ ∀ key cached, m.store key = some cached → i ∉ cached.objects

namespace Coherent

variable {held : Nat → Prop} {shown : K → List R → Prop} {ttl now : ℚ} {m : Memory K R}
  (coherent : m.Coherent held shown ttl now)

include coherent

theorem alloc (rows : List R) : (m.alloc rows).2.Coherent held shown ttl now where
  stored key cached found i mem := by
    obtain ⟨less, free⟩ := coherent.stored key cached found i mem
    refine ⟨?_, free⟩
    simp only [Memory.alloc, List.length_append]
    omega
  bounded i holds := by
    have less := coherent.bounded i holds
    simp only [Memory.alloc, List.length_append]
    omega
  served key cached found fresh := by
    rw [values_alloc fun i mem => (coherent.stored key cached found i mem).1]
    exact coherent.served key cached found fresh

/-- New objects are loose. -/
theorem loose_new {rows : List R} {i : Nat} (new : i ∈ (m.alloc rows).1) :
    (m.alloc rows).2.Loose i := by
  obtain ⟨least, less⟩ := mem_new new
  refine ⟨less, fun key cached found mem => ?_⟩
  have old := (coherent.stored key cached found i mem).1
  omega

omit coherent [Inhabited R] in
theorem loose_alloc {rows : List R} {i : Nat} (loose : m.Loose i) : (m.alloc rows).2.Loose i := by
  refine ⟨?_, loose.2⟩
  have less := loose.1
  simp only [Memory.alloc, List.length_append]
  omega

/-- A clock that moved on. -/
theorem later {now' : ℚ} (le : now ≤ now') : m.Coherent held shown ttl now' where
  stored := coherent.stored
  bounded := coherent.bounded
  served key cached found fresh := coherent.served key cached found (by linarith)

/-- What else the entries may show. -/
theorem shows {shown' : K → List R → Prop}
    (more : ∀ key cached, m.store key = some cached → now - cached.fetchedAt ≤ ttl →
      shown key (m.values cached.objects) → shown' key (m.values cached.objects)) :
    m.Coherent held shown' ttl now where
  stored := coherent.stored
  bounded := coherent.bounded
  served key cached found fresh :=
    more key cached found fresh (coherent.served key cached found fresh)

/-- Loose objects can be handed out. -/
theorem hand {held' : Nat → Prop} (loose : ∀ i, held' i → held i ∨ m.Loose i) :
    m.Coherent held' shown ttl now where
  stored key cached found i mem := by
    obtain ⟨less, free⟩ := coherent.stored key cached found i mem
    refine ⟨less, fun holds => ?_⟩
    rcases loose i holds with old | new
    · exact free old
    · exact new.2 key cached found mem
  bounded i holds := by
    rcases loose i holds with old | new
    · exact coherent.bounded i old
    · exact new.1
  served := coherent.served

/-- Users can change what they hold. -/
theorem change {i : Nat} (row : R) (holds : held i) :
    (m.change i row).Coherent held shown ttl now where
  stored key cached found j mem := by
    obtain ⟨less, free⟩ := coherent.stored key cached found j mem
    refine ⟨?_, free⟩
    simp only [Memory.change, List.length_set]
    exact less
  bounded j held' := by
    simp only [Memory.change, List.length_set]
    exact coherent.bounded j held'
  served key cached found fresh := by
    rw [values_change fun mem => (coherent.stored key cached found i mem).2 holds]
    exact coherent.served key cached found fresh

/-- What is taken out of the cache is loose, and shows what it should. -/
theorem get {key : K} {objects : List Nat} {m' : Memory K R}
    (hit : m.get ttl now key = some (objects, m')) :
    m'.Coherent held shown ttl now ∧ (∀ i ∈ objects, m'.Loose i) ∧ shown key (m'.values objects) := by
  unfold Memory.get at hit
  split at hit
  · cases hit
  · rename_i cached found
    split at hit
    · cases hit
    · rename_i fresh
      have parts := Option.some.inj hit
      have first : (m.alloc (m.values cached.objects)).1 = objects := congrArg Prod.fst parts
      have second : (m.alloc (m.values cached.objects)).2 = m' := congrArg Prod.snd parts
      subst first second
      refine ⟨coherent.alloc _, fun i new => coherent.loose_new new, ?_⟩
      rw [values_new]
      exact coherent.served key cached found (not_lt.mp fresh)

section

variable [DecidableEq K]

theorem invalidate (key : K) : (m.invalidate key).Coherent held shown ttl now where
  stored _ cached found := coherent.stored _ cached (store_of_invalidate found)
  bounded := coherent.bounded
  served _ cached found := coherent.served _ cached (store_of_invalidate found)

/-- What is put into the cache is copied. -/
theorem set {key : K} {objects : List Nat} (shows : shown key (m.values objects)) :
    (m.set now key objects).Coherent held shown ttl now where
  stored key' cached found i mem := by
    rcases store_of_set found with ⟨-, rfl⟩ | old
    · refine ⟨(mem_new mem).2, fun holds => ?_⟩
      have less := coherent.bounded i holds
      have least := (mem_new mem).1
      omega
    · exact (coherent.alloc (m.values objects)).stored key' cached old i mem
  bounded := (coherent.alloc (m.values objects)).bounded
  served key' cached found fresh := by
    rcases store_of_set found with ⟨rfl, rfl⟩ | old
    · have copies := values_new m (m.values objects)
      exact copies.symm ▸ shows
    · exact (coherent.alloc (m.values objects)).served key' cached old fresh

omit coherent in
theorem loose_set {key : K} {objects : List Nat} {i : Nat} (loose : m.Loose i) :
    (m.set now key objects).Loose i := by
  refine ⟨(loose_alloc loose).1, fun key' cached found mem => ?_⟩
  rcases store_of_set found with ⟨-, rfl⟩ | old
  · have least := (mem_new mem).1
    have less := loose.1
    omega
  · exact loose.2 key' cached old mem

end

end Coherent

end Memory

end EspressoLogs.Lib
