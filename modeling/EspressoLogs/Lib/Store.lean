import EspressoLogs.Lib.Prog
import Mathlib.Data.List.Basic
import Mathlib.Logic.Function.Basic

/-!
A relational store with row-level security.

A `Schema` says what the rows of each table are and which rules bind them: the
owner a row belongs to, its entries in unique indexes, the rows it references.
A `Session` is one transaction in progress: its writes are pending, visible to
itself only, until `commit` makes them part of the store, and its context is the
transaction-local setting that row-level security compares owners with. Either
end of a transaction, `commit` or `rollback`, drops the context.

A statement that fails aborts the transaction. From then on the session refuses
everything until it is rolled back.
-/

namespace EspressoLogs.Lib

/-- What a database schema fixes about its tables `T`. -/
class Schema (T : Type) where
  Row : T → Type
  RowId : Type
  /-- An entry of a unique index: no two rows may hold the same one. -/
  Entry : Type
  decTable : DecidableEq T
  decRow (t : T) : DecidableEq (Row t)
  decId : DecidableEq RowId
  decEntry : DecidableEq Entry
  tables : List T
  key (t : T) : Row t → RowId
  owner (t : T) : Row t → Option RowId
  /-- Row-level security is forced on the table. -/
  secured : T → Bool
  entries (t : T) : Row t → List Entry
  /-- The rows a row references. -/
  parents (t : T) : Row t → List (T × RowId)
  /-- What deleting the referenced row makes of the referencing one: `none` when
  the deletion cascades to it. A row left as it is blocks the deletion. -/
  orphaned (t : T) : Row t → T × RowId → Option (Row t)

namespace Schema

variable {T : Type} [Schema T]

instance : DecidableEq T := decTable
instance (t : T) : DecidableEq (Row t) := decRow t
instance : DecidableEq (RowId T) := decId
instance : DecidableEq (Entry T) := decEntry
instance : LawfulBEq (RowId T) := inferInstance
instance : LawfulBEq (Entry T) := inferInstance

end Schema

open Schema

/-! ### Changes to one table -/

/-- One write to a table. The rows it replaces or removes are named by value. -/
inductive Change (R : Type) where
  | ins (r : R)
  | upd (rows : List (R × R))
  | del (rows : List R)

namespace Change

variable {R : Type} [DecidableEq R]

/-- The table after a write. -/
def apply : Change R → List R → List R
  | .ins r, rows => rows ++ [r]
  | .upd pairs, rows => rows.map fun r => (pairs.lookup r).getD r
  | .del gone, rows => rows.filter (· ∉ gone)

/-- The rows a write puts into the table. -/
def news : Change R → List R
  | .ins r => [r]
  | .upd pairs => pairs.map Prod.snd
  | .del _ => []

/-- The rows a write takes out of the table. -/
def olds : Change R → List R
  | .ins _ => []
  | .upd pairs => pairs.map Prod.fst
  | .del gone => gone

/-- A table after a list of writes, first write first. -/
def applyAll (changes : List (Change R)) (rows : List R) : List R :=
  changes.foldl (fun rows c => c.apply rows) rows

@[simp] theorem applyAll_nil (rows : List R) : applyAll [] rows = rows := rfl

@[simp] theorem applyAll_append (cs ds : List (Change R)) (rows : List R) :
    applyAll (cs ++ ds) rows = applyAll ds (applyAll cs rows) := by
  simp [applyAll]

@[simp] theorem applyAll_singleton (c : Change R) (rows : List R) :
    applyAll [c] rows = c.apply rows := rfl

@[simp] theorem apply_upd_nil (rows : List R) : (Change.upd []).apply rows = rows :=
  List.map_id' rows

theorem lookup_map_self {f : R → R} {rows : List R} {r : R} :
    (rows.map fun x => (x, f x)).lookup r = if r ∈ rows then some (f r) else none := by
  induction rows with
  | nil => rfl
  | cons x xs ih =>
      simp only [List.map_cons, List.lookup_cons, List.mem_cons]
      by_cases h : r = x
      · simp [h]
      · simp [h, ih, beq_eq_false_iff_ne.mpr h]

/-- An update of the rows that match rewrites exactly these. -/
theorem apply_upd_filter (m : R → Bool) (f : R → R) (rows : List R) :
    (Change.upd ((rows.filter m).map fun r => (r, f r))).apply rows =
      rows.map fun r => if m r then f r else r := by
  refine List.map_congr_left fun r hr => ?_
  rw [lookup_map_self]
  by_cases h : m r <;> simp [h, hr]

/-- A delete of the rows that match keeps exactly the others. -/
theorem apply_del_filter (m : R → Bool) (rows : List R) :
    (Change.del (rows.filter m)).apply rows = rows.filter fun r => !m r := by
  refine List.filter_congr fun r hr => ?_
  by_cases h : m r <;> simp [h, hr]

theorem mem_of_lookup {pairs : List (R × R)} {r n : R} (h : pairs.lookup r = some n) :
    (r, n) ∈ pairs := by
  induction pairs with
  | nil => simp at h
  | cons p ps ih =>
      obtain ⟨o, m⟩ := p
      rw [List.lookup_cons] at h
      by_cases hr : r = o
      · subst hr
        simp only [beq_self_eq_true] at h
        cases h
        exact List.mem_cons_self
      · rw [beq_eq_false_iff_ne.mpr hr] at h
        exact List.mem_cons_of_mem _ (ih h)

theorem mem_news_of_lookup {pairs : List (R × R)} {r n : R} (h : pairs.lookup r = some n) :
    n ∈ (Change.upd pairs).news :=
  List.mem_map_of_mem (mem_of_lookup h)

theorem mem_olds_of_lookup {pairs : List (R × R)} {r n : R} (h : pairs.lookup r = some n) :
    r ∈ (Change.upd pairs).olds :=
  List.mem_map_of_mem (mem_of_lookup h)

/-- A row of the table after a write was there before or is one the write put in. -/
theorem mem_apply {c : Change R} {rows : List R} {r : R} (h : r ∈ c.apply rows) :
    r ∈ rows ∨ r ∈ c.news := by
  cases c with
  | ins n => simpa [apply, news] using h
  | upd pairs =>
      obtain ⟨x, hx, rfl⟩ := List.mem_map.mp h
      cases found : pairs.lookup x with
      | none => exact .inl (by simpa [found] using hx)
      | some n => exact .inr (by simpa [found] using mem_news_of_lookup found)
  | del gone => exact .inl (List.mem_filter.mp h).1

/-- A row a write does not take out stays. -/
theorem mem_apply_of_notMem_olds {c : Change R} {rows : List R} {r : R} (h : r ∈ rows)
    (kept : r ∉ c.olds) : r ∈ c.apply rows := by
  cases c with
  | ins n => exact List.mem_append_left _ h
  | upd pairs =>
      refine List.mem_map.mpr ⟨r, h, ?_⟩
      cases found : pairs.lookup r with
      | none => rfl
      | some n => exact absurd (mem_olds_of_lookup found) kept
  | del gone => exact List.mem_filter.mpr ⟨h, by simpa [olds] using kept⟩

end Change

/-! ### Sessions -/

section Store

variable {T : Type} [Schema T]

variable (T) in
/-- The committed rows of every table. -/
abbrev Tables := (t : T) → List (Row t)

variable (T) in
/-- One transaction in progress. `supply` holds the row ids that the session's
inserts are given, `faults` which of its next statements fail for a reason
outside the database. -/
structure Session where
  context : Option (RowId T)
  pending : (t : T) → List (Change (Row t))
  failed : Bool
  supply : Nat → RowId T
  drawn : Nat
  faults : List Bool

variable (T) in
/-- The store together with the one session that uses it. -/
structure World where
  db : Tables T
  session : Session T

namespace Session

/-- A session that has not spoken to the store yet. -/
def idle (supply : Nat → RowId T) : Session T :=
  { context := none, pending := fun _ => [], failed := false, supply, drawn := 0, faults := [] }

/-- The transaction is over; the next statement begins another one. -/
def ended (s : Session T) : Session T :=
  { s with context := none, pending := fun _ => [], failed := false }

/-- A statement failed and took the transaction with it. -/
def aborted (s : Session T) : Session T :=
  { s with context := none, pending := fun _ => [], failed := true }

def add (s : Session T) (t : T) (c : Change (Row t)) : Session T :=
  { s with pending := Function.update s.pending t (s.pending t ++ [c]) }

end Session

/-- Row-level security: the row is one the context may see and write. -/
def sees (context : Option (RowId T)) (t : T) (r : Row t) : Bool :=
  !secured t || (context.isSome && owner t r == context)

namespace World

/-- A table as the session sees it, before row-level security. -/
def view (w : World T) (t : T) : List (Row t) :=
  Change.applyAll (w.session.pending t) (w.db t)

/-- The rows of a table that the session may see. -/
def visible (w : World T) (t : T) : List (Row t) :=
  (w.view t).filter (sees w.session.context t)

def taken (w : World T) (t : T) (e : Entry T) : Bool :=
  (w.view t).any fun r => e ∈ entries t r

def stored (w : World T) (ref : T × RowId T) : Bool :=
  (w.view ref.1).any fun r => key ref.1 r = ref.2

end World

/-- The index entries that a write adds. -/
def gained (t : T) : Change (Row t) → List (Entry T)
  | .ins r => entries t r
  | .upd pairs => pairs.flatMap fun p => (entries t p.2).filter (· ∉ entries t p.1)
  | .del _ => []

/-- The references that a write adds. -/
def referenced (t : T) : Change (Row t) → List (T × RowId T)
  | .ins r => parents t r
  | .upd pairs => pairs.flatMap fun p => (parents t p.2).filter (· ∉ parents t p.1)
  | .del _ => []

/-- A left outer join. -/
def leftJoined {R M : Type} (on : R → M → Bool) (rows : List R) (others : List M) :
    List (R × Option M) :=
  rows.flatMap fun r => match others.filter (on r) with
    | [] => [(r, none)]
    | partners => partners.map fun m => (r, some m)

/-- A selection that fixes the key finds one row at most. -/
theorem filter_eq_find {R K : Type} {key : R → K} {p : R → Bool} {k : K}
    (fixes : ∀ r, p r = true → key r = k) {rows : List R} (distinct : (rows.map key).Nodup) :
    rows.filter p = (rows.find? p).toList := by
  induction rows with
  | nil => rfl
  | cons r rows ih =>
      obtain ⟨fresh, distinct⟩ := List.nodup_cons.mp distinct
      by_cases here : p r = true
      · have none : rows.filter p = [] := by
          refine List.filter_eq_nil_iff.mpr fun x hx also => fresh ?_
          rw [fixes r here, ← fixes x also]
          exact List.mem_map_of_mem hx
        simp [here, none]
      · simp [here, ih distinct]

/-- A selection that only one row fits finds it. -/
theorem filter_eq_singleton {R : Type} {rows : List R} (distinct : rows.Nodup) {p : R → Bool} {r : R}
    (hr : r ∈ rows) (here : p r = true) (only : ∀ x ∈ rows, p x = true → x = r) :
    rows.filter p = [r] := by
  induction rows with
  | nil => cases hr
  | cons x rest ih =>
      obtain ⟨fresh, distinct⟩ := List.nodup_cons.mp distinct
      by_cases first : x = r
      · subst first
        have none : rest.filter p = [] := by
          refine List.filter_eq_nil_iff.mpr fun y hy also => fresh ?_
          rw [← only y (List.mem_cons_of_mem _ hy) also]
          exact hy
        rw [List.filter_cons, if_pos here, none]
      · have other : p x = false := by
          refine Bool.eq_false_iff.mpr fun also => first (only x List.mem_cons_self also)
        have behind : r ∈ rest := by
          rcases List.mem_cons.mp hr with same | behind
          · exact absurd same.symm first
          · exact behind
        rw [List.filter_cons, other]
        exact ih distinct behind fun y hy => only y (List.mem_cons_of_mem _ hy)

/-! ### Statements -/

/-- Why the database did not perform a statement. -/
inductive StmtError where
  | integrity
  | rowSecurity
  | data
  | aborted
  | operational
  deriving DecidableEq, Repr

/-- What is wrong with new values, if anything is. -/
def rejected {α : Type} : Except StmtError α → Option StmtError
  | .error e => some e
  | .ok _ => none

/-- The rows an update rewrites, each with what becomes of it. -/
def rewritten {R : Type} (set : R → Except StmtError R) (rows : List R) : List (R × R) :=
  rows.map fun r => (r, (set r).toOption.getD r)

variable (T) in
/-- The statements of a session. A `select` ranges over the visible rows, `join`
is a left outer join, `column` a projection without its nulls. An `insert` is
given the row id to use, and it and `update` say what is wrong with values that
the columns cannot hold. -/
inductive Stmt where
  | currentSetting
  | setConfig (value : RowId T)
  | select (t : T) (p : Row t → Bool)
  | join (t u : T) (on : Row t → Row u → Bool) (p : Row t → Bool)
  | column (t : T) (c : Row t → Option String)
  | insert (t : T) (make : RowId T → Except StmtError (Row t))
  | update (t : T) (p : Row t → Bool) (set : Row t → Except StmtError (Row t))
  | delete (t : T) (p : Row t → Bool)
  | deleteCascade (t : T) (p : Row t → Bool)
  | commit
  | rollback

/-- What a performed statement answers with. -/
def Ans : Stmt T → Type
  | .currentSetting => Option (RowId T)
  | .setConfig _ => Unit
  | .select t _ => List (Row t)
  | .join t u _ _ => List (Row t × Option (Row u))
  | .column _ _ => List String
  | .insert t _ => Row t
  | .update t _ _ => List (Row t)
  | .delete t _ => List (Row t)
  | .deleteCascade t _ => List (Row t)
  | .commit => Unit
  | .rollback => Unit

abbrev Resp (s : Stmt T) : Type := Except StmtError (Ans s)

namespace World

def aborted (w : World T) : World T := { w with session := w.session.aborted }

/-- The world once the session's writes are part of the store. -/
def committed (w : World T) : World T := { db := w.view, session := w.session.ended }

/-- The world once the session's writes are dropped. -/
def undone (w : World T) : World T := { w with session := w.session.ended }

/-- The world with one more write pending. -/
def pend (w : World T) (t : T) (c : Change (Row t)) : World T :=
  { w with session := w.session.add t c }

def fail {α : Type} (w : World T) (e : StmtError) : Except StmtError α × World T :=
  (.error e, w.aborted)

/-- What keeps a write from being performed: row-level security, a unique index
(over all rows, also the hidden ones), a foreign key. -/
def refused (w : World T) (t : T) (c : Change (Row t)) : Option StmtError :=
  if !c.news.all (sees w.session.context t) then some .rowSecurity
  else if (gained t c).any (w.taken t) || !decide (gained t c).Nodup then some .integrity
  else if !(referenced t c).all w.stored then some .integrity
  else none

def write {α : Type} (w : World T) (t : T) (c : Change (Row t)) (answer : α) :
    Except StmtError α × World T :=
  match w.refused t c with
  | some e => w.fail e
  | none => (.ok answer, w.pend t c)

/-- The left outer join of the visible rows of two tables. -/
def joined (w : World T) (t u : T) (on : Row t → Row u → Bool) (p : Row t → Bool) :
    List (Row t × Option (Row u)) :=
  leftJoined on ((w.visible t).filter p) (w.visible u)

/-- The rows of `u` that go with the rows of `t` that match, by cascade. -/
def cascaded (w : World T) (t : T) (gone : List (Row t)) (u : T) : List (Row u) :=
  (w.view u).filter fun r =>
    gone.any fun g => (t, key t g) ∈ parents u r ∧ (orphaned u r (t, key t g)).isNone

/-- The rows of `u` that outlive the row they reference, with what becomes of them. -/
def unlinked (w : World T) (t : T) (gone : List (Row t)) (u : T) : List (Row u × Row u) :=
  (w.view u).flatMap fun r =>
    (gone.filter fun g => (t, key t g) ∈ parents u r).filterMap fun g =>
      (orphaned u r (t, key t g)).map (r, ·)

/-- The session after a delete with its cascades. The foreign keys act whatever
row-level security hides. -/
def cascade (w : World T) (t : T) (gone : List (Row t)) : World T :=
  { w with session := { w.session with
      pending := fun u => w.session.pending u ++
        [.del (w.cascaded t gone u), .upd (w.unlinked t gone u)] } }

/-- Some row references one of `refs` that is no longer stored. -/
def dangling (w : World T) (refs : List (T × RowId T)) : Bool :=
  tables.any fun u => (w.view u).any fun r =>
    (parents u r).any fun ref => decide (ref ∈ refs) && !w.stored ref

/-- What a delete and its cascades remove. -/
def removedRefs (w : World T) (t : T) (gone : List (Row t)) : List (T × RowId T) :=
  (gone.map fun g => (t, key t g)) ++
    tables.flatMap fun u => (w.cascaded t gone u).map fun r => (u, key u r)

def performDelete (w : World T) (t : T) (gone : List (Row t)) :
    Except StmtError (List (Row t)) × World T :=
  let removed := w.pend t (.del gone)
  let after := removed.cascade t gone
  if after.dangling (removed.removedRefs t gone) then w.fail .integrity else (.ok gone, after)

def withContext (w : World T) (value : RowId T) : World T :=
  { w with session := { w.session with context := some value } }

/-- The next insert will be given another row id. -/
def drew (w : World T) : World T :=
  { w with session := { w.session with drawn := w.session.drawn + 1 } }

/-- The row id that the next insert is given. -/
def nextId (w : World T) : RowId T := w.session.supply w.session.drawn

/-- Performs a statement in a transaction that is not aborted. -/
def perform : (s : Stmt T) → World T → Resp s × World T
  | .currentSetting, w => (.ok w.session.context, w)
  | .setConfig value, w => (.ok (), w.withContext value)
  | .select t p, w => (.ok ((w.visible t).filter p), w)
  | .join t u on p, w => (.ok (w.joined t u on p), w)
  | .column t c, w => (.ok ((w.visible t).filterMap c), w)
  | .insert t make, w =>
      match make w.nextId with
      | .error e => w.fail e
      | .ok r => w.drew.write t (.ins r) r
  | .update t p set, w =>
      let found := (w.visible t).filter p
      match found.findSome? fun r => rejected (set r) with
      | some e => w.fail e
      | none => w.write t (.upd (rewritten set found)) ((rewritten set found).map Prod.snd)
  | .delete t p, w =>
      let found := (w.visible t).filter p
      w.write t (.del found) found
  | .deleteCascade t p, w => w.performDelete t ((w.visible t).filter p)
  | .commit, w => (.ok (), w.committed)
  | .rollback, w => (.ok (), w.undone)

/-- The session after it met its next fault, or its next statement without one. -/
def advance (w : World T) : World T :=
  { w with session := { w.session with faults := w.session.faults.tail } }

/-- Performs a statement. An aborted transaction refuses everything but
`rollback`, which cannot fail. -/
def exec : (s : Stmt T) → World T → Resp s × World T
  | .rollback, w => w.perform .rollback
  | s, w =>
      if w.session.failed then (.error .aborted, w)
      else if w.session.faults.headD false then w.advance.fail .operational
      else w.advance.perform s

/-! ### Verdicts -/

/-- A write that adds no index entry and no reference is only refused by
row-level security. -/
theorem refused_of_nothing_gained (w : World T) {t : T} {c : Change (Row t)} (he : gained t c = [])
    (hp : referenced t c = []) :
    w.refused t c =
      if c.news.all (sees w.session.context t) then none else some .rowSecurity := by
  unfold World.refused
  rw [he, hp]
  cases c.news.all (sees w.session.context t) <;> simp

theorem gained_eq_nil {t : T} {pairs : List (Row t × Row t)}
    (hs : ∀ p ∈ pairs, entries t p.2 ⊆ entries t p.1) : gained t (.upd pairs) = [] := by
  refine List.flatMap_eq_nil_iff.mpr fun p hp => List.filter_eq_nil_iff.mpr fun e he => ?_
  simpa using hs p hp he

theorem referenced_eq_nil {t : T} {pairs : List (Row t × Row t)}
    (hs : ∀ p ∈ pairs, parents t p.2 ⊆ parents t p.1) : referenced t (.upd pairs) = [] := by
  refine List.flatMap_eq_nil_iff.mpr fun p hp => List.filter_eq_nil_iff.mpr fun e he => ?_
  simpa using hs p hp he

/-- What it takes for a write to be let in. -/
theorem refused_eq_none (w : World T) {t : T} {c : Change (Row t)} :
    w.refused t c = none ↔ (∀ r ∈ c.news, sees w.session.context t r = true) ∧
      (∀ e ∈ gained t c, w.taken t e = false) ∧ (gained t c).Nodup ∧
        ∀ ref ∈ referenced t c, w.stored ref = true := by
  unfold World.refused
  by_cases seen : c.news.all (sees w.session.context t) = true
  · have seen' := List.all_eq_true.mp seen
    by_cases taken : (gained t c).any (w.taken t) = true
    · obtain ⟨e, he, held⟩ := List.any_eq_true.mp taken
      constructor
      · intro h
        simp [seen, taken] at h
      · intro h
        rw [h.2.1 e he] at held
        cases held
    · have free : ∀ e ∈ gained t c, w.taken t e = false := by simpa using taken
      by_cases distinct : (gained t c).Nodup
      · simp only [seen, taken, distinct, Bool.not_true, Bool.false_or, decide_true,
          Bool.false_eq_true, if_false]
        constructor
        · intro h
          exact ⟨seen', free, trivial, by simpa using h⟩
        · rintro ⟨_, _, _, refs⟩
          simpa using refs
      · simp [seen, taken, distinct]
  · simp only [seen, Bool.not_false, if_true, reduceCtorEq, false_iff]
    intro h
    exact seen (List.all_eq_true.mpr h.1)

/-! ### Answers -/

theorem mem_view_of_mem_visible {w : World T} {t : T} {r : Row t} (h : r ∈ w.visible t) :
    r ∈ w.view t :=
  (List.mem_filter.mp h).1

/-- Without row-level security a session sees the whole table. -/
theorem visible_of_unsecured {w : World T} {t : T} (ht : secured t = false) :
    w.visible t = w.view t := by
  refine List.filter_eq_self.mpr fun r _ => ?_
  simp only [sees, ht, Bool.not_false, Bool.true_or]

theorem mem_of_mem_joined {w : World T} {t u : T} {on : Row t → Row u → Bool} {p : Row t → Bool}
    {x : Row t × Option (Row u)} (h : x ∈ w.joined t u on p) :
    x.1 ∈ w.visible t ∧ p x.1 = true ∧ ∀ m, x.2 = some m → m ∈ w.visible u ∧ on x.1 m = true := by
  obtain ⟨r, hr, hx⟩ := List.mem_flatMap.mp h
  obtain ⟨seen, hp⟩ := List.mem_filter.mp hr
  split at hx
  · rw [List.mem_singleton] at hx
    subst hx
    exact ⟨seen, hp, nofun⟩
  · obtain ⟨m, hm, rfl⟩ := List.mem_map.mp hx
    refine ⟨seen, hp, fun m' eq => ?_⟩
    cases eq
    exact List.mem_filter.mp hm

theorem mem_of_select {w : World T} {t : T} {p : Row t → Bool} {rows : List (Row t)}
    (h : (exec (.select t p) w).1 = .ok rows) {r : Row t} (hr : r ∈ rows) :
    r ∈ w.visible t ∧ p r = true := by
  simp only [exec] at h
  split at h
  · cases h
  · split at h
    · cases h
    · cases h
      exact List.mem_filter.mp hr

theorem mem_of_join {w : World T} {t u : T} {on : Row t → Row u → Bool} {p : Row t → Bool}
    {rows : List (Row t × Option (Row u))} (h : (exec (.join t u on p) w).1 = .ok rows)
    {x : Row t × Option (Row u)} (hx : x ∈ rows) :
    x.1 ∈ w.visible t ∧ p x.1 = true ∧ ∀ m, x.2 = some m → m ∈ w.visible u ∧ on x.1 m = true := by
  simp only [exec] at h
  split at h
  · cases h
  · split at h
    · cases h
    · cases h
      exact mem_of_mem_joined (w := w.advance) hx

/-- A write that is performed is added to what is pending. -/
theorem write_eq_ok {α : Type} {w : World T} {t : T} {c : Change (Row t)} {answer b : α}
    (h : (w.write t c answer).1 = .ok b) :
    w.refused t c = none ∧ b = answer ∧
      (w.write t c answer).2 = w.pend t c := by
  unfold write at h ⊢
  cases verdict : w.refused t c with
  | some e => rw [verdict] at h; cases h
  | none => rw [verdict] at h; cases h; exact ⟨rfl, rfl, rfl⟩

/-- A statement that answers leaves its transaction in order. -/
theorem failed_of_perform_ok {s : Stmt T} {w : World T} (hw : w.session.failed = false)
    {a : Ans s} (h : (perform s w).1 = .ok a) : (perform s w).2.session.failed = false := by
  cases s with
  | insert t make =>
      simp only [perform] at h ⊢
      cases made : make w.nextId with
      | error e => rw [made] at h; cases h
      | ok r =>
          rw [made] at h
          simp only at h ⊢
          rw [(write_eq_ok h).2.2]
          exact hw
  | update t p set =>
      simp only [perform] at h ⊢
      cases fits : ((w.visible t).filter p).findSome? fun r => rejected (set r) with
      | some e => rw [fits] at h; cases h
      | none =>
          rw [fits] at h
          simp only at h ⊢
          rw [(write_eq_ok h).2.2]
          exact hw
  | delete t p =>
      simp only [perform] at h ⊢
      rw [(write_eq_ok h).2.2]
      exact hw
  | deleteCascade t p =>
      simp only [perform, performDelete] at h ⊢
      split at h
      · cases h
      · rename_i kept
        rw [if_neg kept]
        exact hw
  | commit => rfl
  | rollback => rfl
  | _ => exact hw

theorem failed_of_exec_ok {s : Stmt T} {w : World T} {a : Ans s} (h : (exec s w).1 = .ok a) :
    (exec s w).2.session.failed = false := by
  cases s with
  | rollback => rfl
  | _ =>
      simp only [exec] at h ⊢
      split at h
      · cases h
      · rename_i inOrder
        split at h
        · cases h
        · rename_i noFault
          rw [if_neg inOrder, if_neg noFault]
          exact failed_of_perform_ok (w := w.advance) (Bool.eq_false_iff.mpr inOrder) h

/-- A statement that is performed meets no faults, and the row ids to come stay. -/
theorem steady_write {α : Type} (w : World T) (t : T) (c : Change (Row t)) (answer : α) :
    (w.write t c answer).2.session.faults = w.session.faults ∧
      (w.write t c answer).2.session.supply = w.session.supply := by
  unfold write
  cases w.refused t c with
  | some e => exact ⟨rfl, rfl⟩
  | none => exact ⟨rfl, rfl⟩

theorem steady_perform (s : Stmt T) (w : World T) :
    (perform s w).2.session.faults = w.session.faults ∧
      (perform s w).2.session.supply = w.session.supply := by
  cases s with
  | insert t make =>
      simp only [perform]
      cases make w.nextId with
      | error e => exact ⟨rfl, rfl⟩
      | ok r => exact steady_write w.drew t (.ins r) r
  | update t p set =>
      simp only [perform]
      cases ((w.visible t).filter p).findSome? fun r => rejected (set r) with
      | some e => exact ⟨rfl, rfl⟩
      | none => exact steady_write _ _ _ _
  | delete t p => exact steady_write _ _ _ _
  | deleteCascade t p =>
      simp only [perform, performDelete]
      split
      · exact ⟨rfl, rfl⟩
      · exact ⟨rfl, rfl⟩
  | _ => exact ⟨rfl, rfl⟩

theorem supply_exec (s : Stmt T) (w : World T) :
    (exec s w).2.session.supply = w.session.supply := by
  cases s with
  | rollback => rfl
  | _ =>
      simp only [exec]
      split
      · rfl
      · split
        · rfl
        · exact (steady_perform _ w.advance).2

/-- Statements only use faults up. -/
theorem faults_exec {s : Stmt T} {w : World T} (h : w.session.faults = []) :
    (exec s w).2.session.faults = [] := by
  have advanced : w.advance.session.faults = [] := by simp only [advance, h, List.tail_nil]
  cases s with
  | rollback => exact h
  | _ =>
      simp only [exec]
      split
      · exact h
      · rw [if_neg (by rw [h]; exact Bool.false_ne_true), (steady_perform _ _).1]
        exact advanced

/-- The transaction is in order and its session meets no fault. -/
structure Live (w : World T) : Prop where
  failed : w.session.failed = false
  faults : w.session.faults = []

theorem advance_of_live {w : World T} (hw : w.Live) : w.advance = w := by
  obtain ⟨db, context, pending, failed, supply, drawn, faults⟩ := w
  obtain ⟨_, rfl⟩ := hw
  rfl

theorem exec_of_live {w : World T} (hw : w.Live) (s : Stmt T) : exec s w = perform s w := by
  unfold exec
  split
  · rfl
  · rw [advance_of_live hw, hw.failed, hw.faults]
    rfl

/-! ### Faults -/

/-- The world without the faults that are still to come. -/
def calm (w : World T) : World T := { w with session := { w.session with faults := [] } }

@[simp] theorem calm_db (w : World T) : w.calm.db = w.db := rfl

@[simp] theorem calm_context (w : World T) : w.calm.session.context = w.session.context := rfl

@[simp] theorem calm_failed (w : World T) : w.calm.session.failed = w.session.failed := rfl

theorem calm_advance (w : World T) : w.advance.calm = w.calm := rfl

theorem calm_write {α : Type} (w : World T) (t : T) (c : Change (Row t)) (answer : α) :
    w.calm.write t c answer = ((w.write t c answer).1, (w.write t c answer).2.calm) := by
  have same : w.calm.refused t c = w.refused t c := rfl
  unfold write
  rw [same]
  cases w.refused t c with
  | some e => rfl
  | none => rfl

theorem calm_performDelete (w : World T) (t : T) (gone : List (Row t)) :
    w.calm.performDelete t gone = ((w.performDelete t gone).1, (w.performDelete t gone).2.calm) := by
  have same : ((w.calm.pend t (.del gone)).cascade t gone).dangling
      ((w.calm.pend t (.del gone)).removedRefs t gone) =
    ((w.pend t (.del gone)).cascade t gone).dangling
      ((w.pend t (.del gone)).removedRefs t gone) := rfl
  simp only [performDelete, same]
  split
  · rfl
  · rfl

theorem calm_perform (s : Stmt T) (w : World T) :
    w.calm.perform s = ((w.perform s).1, (w.perform s).2.calm) := by
  cases s with
  | insert t make =>
      have same : w.calm.nextId = w.nextId := rfl
      simp only [perform, same]
      cases make w.nextId with
      | error e => rfl
      | ok r => exact calm_write w.drew t (.ins r) r
  | update t p set =>
      have same : w.calm.visible t = w.visible t := rfl
      simp only [perform, same]
      cases ((w.visible t).filter p).findSome? fun r => rejected (set r) with
      | some e => rfl
      | none => exact calm_write w t _ _
  | delete t p => exact calm_write w t (.del ((w.visible t).filter p)) _
  | deleteCascade t p => exact calm_performDelete w t ((w.visible t).filter p)
  | _ => rfl

theorem calm_live {w : World T} (h : w.session.failed = false) : w.calm.Live := ⟨h, rfl⟩

/-- A statement that answers would have answered so without faults. -/
theorem exec_calm {s : Stmt T} {w w' : World T} {a : Ans s} (h : exec s w = (.ok a, w')) :
    exec s w.calm = (.ok a, w'.calm) := by
  cases s with
  | rollback =>
      cases h
      rfl
  | _ =>
      simp only [exec] at h
      split at h
      · cases h
      · rename_i inOrder
        split at h
        · cases h
        · have live := calm_live (Bool.eq_false_iff.mpr inOrder)
          rw [exec_of_live live, ← calm_advance w, calm_perform, h]

/-- A session none of whose faults strikes. -/
def Quiet (w : World T) : Prop := true ∉ w.session.faults

/-- Without faults that strike, every statement answers as without faults. -/
theorem exec_quiet {s : Stmt T} {w : World T} (quiet : w.Quiet) :
    (exec s w).1 = (exec s w.calm).1 ∧ (exec s w).2.calm = (exec s w.calm).2 ∧
      (exec s w).2.Quiet := by
  have next : w.session.faults.headD false = false := by
    cases faults : w.session.faults with
    | nil => rfl
    | cons fault rest =>
        cases fault with
        | false => rfl
        | true => exact absurd (faults ▸ List.mem_cons_self) quiet
  have rest : w.advance.Quiet := fun struck => quiet (List.mem_of_mem_tail struck)
  cases s with
  | rollback => exact ⟨rfl, rfl, quiet⟩
  | _ =>
      by_cases inOrder : w.session.failed = true
      · have stuck : w.calm.session.failed = true := inOrder
        simp only [exec, inOrder, stuck, if_true]
        exact ⟨trivial, trivial, quiet⟩
      · have live := calm_live (Bool.eq_false_iff.mpr inOrder)
        rw [exec_of_live live, ← calm_advance w, calm_perform]
        simp only [exec, inOrder, next, Bool.false_eq_true, if_false]
        refine ⟨trivial, trivial, ?_⟩
        unfold Quiet
        rw [(steady_perform _ _).1]
        exact rest

/-- A run without faults that strike is a run without faults. -/
theorem run_quiet {E α : Type} (p : Prog (Stmt T) Resp E α) {w : World T} (quiet : w.Quiet) :
    (p.run exec w).1 = (p.run exec w.calm).1 ∧ (p.run exec w).2.calm = (p.run exec w.calm).2 := by
  have ran : (p.run exec w).1 = (p.run exec w.calm).1 ∧
      ((p.run exec w).2.Quiet ∧ (p.run exec w.calm).2 = (p.run exec w).2.calm) := by
    refine Prog.run_lockstep (R := fun v u : World T => v.Quiet ∧ u = v.calm) ?_ p ⟨quiet, rfl⟩
    rintro s v u ⟨calm, rfl⟩
    obtain ⟨answer, after, still⟩ := exec_quiet (s := s) calm
    exact ⟨answer, still, after.symm⟩
  exact ⟨ran.1, ran.2.2.symm⟩

/-! ### What the session sees after a statement -/

@[simp] theorem committed_db (w : World T) : w.committed.db = w.view := rfl

@[simp] theorem committed_view (w : World T) : w.committed.view = w.view := rfl

@[simp] theorem undone_db (w : World T) : w.undone.db = w.db := rfl

@[simp] theorem undone_view (w : World T) : w.undone.view = w.db := rfl

@[simp] theorem aborted_db (w : World T) : w.aborted.db = w.db := rfl

@[simp] theorem aborted_view (w : World T) : w.aborted.view = w.db := rfl

@[simp] theorem pend_db (w : World T) (t : T) (c : Change (Row t)) : (w.pend t c).db = w.db := rfl

@[simp] theorem drew_db (w : World T) : w.drew.db = w.db := rfl

@[simp] theorem drew_view (w : World T) : w.drew.view = w.view := rfl

theorem pend_view_self (w : World T) (t : T) (c : Change (Row t)) :
    (w.pend t c).view t = c.apply (w.view t) := by
  simp [view, pend, Session.add]

theorem pend_view_of_ne (w : World T) {t u : T} (c : Change (Row t)) (h : u ≠ t) :
    (w.pend t c).view u = w.view u := by
  simp [view, pend, Session.add, h]

/-! ### Until the commit -/

theorem write_db {α : Type} (w : World T) (t : T) (c : Change (Row t)) (answer : α) :
    (w.write t c answer).2.db = w.db := by
  unfold write
  cases w.refused t c with
  | some e => rfl
  | none => rfl

/-- Nothing is stored before a commit. -/
theorem exec_db {s : Stmt T} (uncommitting : s ≠ .commit) (w : World T) : (exec s w).2.db = w.db := by
  have performed (v : World T) (same : v.db = w.db) : (perform s v).2.db = w.db := by
    cases s with
    | insert t make =>
        simp only [perform]
        cases make v.nextId with
        | error e => exact same
        | ok r => exact (write_db v.drew t (.ins r) r).trans same
    | update t p set =>
        simp only [perform]
        cases ((v.visible t).filter p).findSome? fun r => rejected (set r) with
        | some e => exact same
        | none => exact (write_db v t _ _).trans same
    | delete t p => exact (write_db v t _ _).trans same
    | deleteCascade t p =>
        simp only [perform, performDelete]
        split
        · exact same
        · exact same
    | commit => exact absurd rfl uncommitting
    | _ => exact same
  cases s with
  | rollback => rfl
  | _ =>
      simp only [exec]
      split
      · rfl
      · split
        · rfl
        · exact performed w.advance rfl

/-! ### Writes that go through, and those that do not -/

section Writes

variable {w : World T} {t : T} {e : StmtError}

theorem perform_insert {make : RowId T → Except StmtError (Row t)} {r : Row t}
    (made : make w.nextId = .ok r) (fits : w.refused t (.ins r) = none) :
    perform (.insert t make) w = (.ok r, w.drew.pend t (.ins r)) := by
  have fits' : w.drew.refused t (.ins r) = none := fits
  simp only [perform, made, write, fits']

theorem perform_insert_refused {make : RowId T → Except StmtError (Row t)} {r : Row t}
    (made : make w.nextId = .ok r) (verdict : w.refused t (.ins r) = some e) :
    perform (.insert t make) w = (.error e, w.drew.aborted) := by
  have verdict' : w.drew.refused t (.ins r) = some e := verdict
  simp only [perform, made, write, verdict', fail]

theorem perform_insert_invalid {make : RowId T → Except StmtError (Row t)}
    (made : make w.nextId = .error e) :
    perform (.insert t make) w = (.error e, w.aborted) := by
  simp only [perform, made, fail]

theorem perform_update {p : Row t → Bool} {set : Row t → Except StmtError (Row t)}
    (fits : ∀ r ∈ (w.visible t).filter p, rejected (set r) = none)
    (verdict : w.refused t (.upd (rewritten set ((w.visible t).filter p))) = none) :
    perform (.update t p set) w =
      (.ok ((rewritten set ((w.visible t).filter p)).map Prod.snd),
        w.pend t (.upd (rewritten set ((w.visible t).filter p)))) := by
  have valid : (((w.visible t).filter p).findSome? fun r => rejected (set r)) = none :=
    List.findSome?_eq_none_iff.mpr fits
  simp only [perform, valid, write, verdict]

theorem perform_update_refused {p : Row t → Bool} {set : Row t → Except StmtError (Row t)}
    (fits : ∀ r ∈ (w.visible t).filter p, rejected (set r) = none)
    (verdict : w.refused t (.upd (rewritten set ((w.visible t).filter p))) = some e) :
    perform (.update t p set) w = (.error e, w.aborted) := by
  have valid : (((w.visible t).filter p).findSome? fun r => rejected (set r)) = none :=
    List.findSome?_eq_none_iff.mpr fits
  simp only [perform, valid, write, verdict, fail]

theorem perform_update_invalid {p : Row t → Bool} {set : Row t → Except StmtError (Row t)}
    (invalid : (((w.visible t).filter p).findSome? fun r => rejected (set r)) = some e) :
    perform (.update t p set) w = (.error e, w.aborted) := by
  simp only [perform, invalid, fail]

end Writes

/-! ### Live worlds -/

theorem Live.pend {w : World T} (hw : w.Live) (t : T) (c : Change (Row t)) : (w.pend t c).Live :=
  ⟨hw.failed, hw.faults⟩

theorem Live.drew {w : World T} (hw : w.Live) : w.drew.Live := ⟨hw.failed, hw.faults⟩

theorem Live.withContext {w : World T} (hw : w.Live) (h : RowId T) : (w.withContext h).Live :=
  ⟨hw.failed, hw.faults⟩

theorem Live.committed {w : World T} (hw : w.Live) : w.committed.Live := ⟨rfl, hw.faults⟩

end World

end Store

end EspressoLogs.Lib
