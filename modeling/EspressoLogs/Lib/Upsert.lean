import EspressoLogs.Lib.Store
import Mathlib.Data.List.Nodup

/-!
Upserts.

`INSERT ... ON CONFLICT (column) DO UPDATE` takes rows that are proposed: one whose value
of the column is stored already rewrites the row that has it, the others are inserted. A
statement may not rewrite a row twice. What the statement leaves is told row by row
(`Upserted`), and performed again it leaves everything as it is (`upsert_again`).

`Reach T bound` are the tables of `T` as a role reaches them that row-level security binds
or not.
-/

namespace EspressoLogs.Lib

open Schema

/-! ### Roles -/

/-- A table as a role reaches it. -/
structure Reach (T : Type) (bound : Bool) where
  table : T

namespace Reach

variable {T : Type} [Schema T] {bound : Bool}

instance : Schema (Reach T bound) where
  Row t := Row t.table
  RowId := RowId T
  Entry := Entry T
  decTable a b := decidable_of_iff (a.table = b.table) (by cases a; cases b; simp)
  decRow t := decRow t.table
  decId := decId
  decEntry := decEntry
  tables := tables.map mk
  key t := key t.table
  owner t := owner t.table
  secured t := bound && secured t.table
  entries t := entries t.table
  parents t r := (parents t.table r).map fun p => (⟨p.1⟩, p.2)
  orphaned t r p := orphaned t.table r (p.1.table, p.2)

end Reach

/-! ### One row -/

section Rows

variable {R K : Type} [DecidableEq R] (column : R → Option K)

/-- No two rows have a value of the column in common. -/
def Unshared (rows : List R) : Prop :=
  ∀ r ∈ rows, ∀ r' ∈ rows, ∀ k, column r = some k → column r' = some k → r = r'

/-- A row with a value of the column takes the place of the one that has it, or is added. -/
inductive Put (k : K) (n : R) (rows : List R) : List R → Prop where
  | rewrites {r : R} (here : r ∈ rows) (held : column r = some k) :
      Put k n rows (Change.apply (.upd [(r, n)]) rows)
  | adds (free : ∀ r ∈ rows, column r ≠ some k) : Put k n rows (Change.apply (.ins n) rows)

variable {column} {k : K} {n : R} {rows rows' : List R}

theorem mem_apply_upd_one {r x : R} :
    x ∈ Change.apply (.upd [(r, n)]) rows ↔ x = n ∧ r ∈ rows ∨ x ∈ rows ∧ x ≠ r := by
  have one : ∀ y, ([(r, n)].lookup y).getD y = if y = r then n else y := by
    intro y
    by_cases same : y = r
    · simp [same]
    · simp [List.lookup_cons, beq_eq_false_iff_ne.mpr same, same]
  constructor
  · intro h
    obtain ⟨y, hy, rfl⟩ := List.mem_map.mp h
    rw [one]
    by_cases same : y = r
    · rw [if_pos same]
      exact .inl ⟨rfl, same ▸ hy⟩
    · rw [if_neg same]
      exact .inr ⟨hy, same⟩
  · rintro (⟨rfl, hr⟩ | ⟨hx, other⟩)
    · refine List.mem_map.mpr ⟨r, hr, ?_⟩
      rw [one, if_pos rfl]
    · refine List.mem_map.mpr ⟨x, hx, ?_⟩
      rw [one, if_neg other]

theorem apply_upd_same (r : R) (rows : List R) : Change.apply (.upd [(r, r)]) rows = rows := by
  have still : ∀ y ∈ rows, ([(r, r)].lookup y).getD y = y := by
    intro y _
    by_cases same : y = r
    · simp [same]
    · simp [List.lookup_cons, beq_eq_false_iff_ne.mpr same]
  exact (List.map_congr_left still).trans (List.map_id _)

namespace Put

/-- The rows afterwards: the new one, and those with other values. -/
theorem mem_iff (put : Put column k n rows rows') (unshared : Unshared column rows) {x : R} :
    x ∈ rows' ↔ x = n ∨ x ∈ rows ∧ column x ≠ some k := by
  cases put with
  | @rewrites r here held =>
      rw [mem_apply_upd_one]
      constructor
      · rintro (⟨rfl, _⟩ | ⟨hx, other⟩)
        · exact .inl rfl
        · exact .inr ⟨hx, fun also => other (unshared x hx r here k also held)⟩
      · rintro (rfl | ⟨hx, other⟩)
        · exact .inl ⟨rfl, here⟩
        · exact .inr ⟨hx, fun same => other (same ▸ held)⟩
  | adds free =>
      show x ∈ rows ++ [n] ↔ _
      rw [List.mem_append, List.mem_singleton]
      constructor
      · rintro (hx | rfl)
        · exact .inr ⟨hx, free x hx⟩
        · exact .inl rfl
      · rintro (rfl | ⟨hx, _⟩)
        · exact .inr rfl
        · exact .inl hx

theorem unshared (put : Put column k n rows rows') (unshared : Unshared column rows)
    (named : column n = some k) : Unshared column rows' := by
  intro x hx y hy j hxj hyj
  rcases (put.mem_iff unshared).mp hx with rfl | ⟨hx, otherX⟩
  · rcases (put.mem_iff unshared).mp hy with rfl | ⟨hy, otherY⟩
    · rfl
    · have same : k = j := Option.some.inj (named.symm.trans hxj)
      exact absurd (same ▸ hyj) otherY
  · rcases (put.mem_iff unshared).mp hy with rfl | ⟨hy, otherY⟩
    · have same : k = j := Option.some.inj (named.symm.trans hyj)
      exact absurd (same ▸ hxj) otherX
    · exact unshared x hx y hy j hxj hyj

end Put

end Rows

/-! ### Proposals -/

variable {T : Type} [Schema T] {K : Type} [DecidableEq K]

/-- A row that is proposed: its value of the column, the row that is inserted under a new
id, and what becomes of a row that has the value. -/
structure Proposal (K : Type) (t : T) where
  value : K
  make : RowId T → Except StmtError (Row t)
  set : Row t → Except StmtError (Row t)

/-- What an upsert leaves of a table: under each value that was proposed the row that was
rewritten or made, and the other rows. -/
structure Upserted {t : T} (column : Row t → Option K) (ps : List (Proposal K t))
    (rows rows' : List (Row t)) : Prop where
  held : ∀ p ∈ ps, ∃ n ∈ rows', column n = some p.value ∧
    ((∃ r ∈ rows, column r = some p.value ∧ p.set r = .ok n) ∨
      (∀ r ∈ rows, column r ≠ some p.value) ∧ ∃ id, p.make id = .ok n)
  others : ∀ r, (∀ p ∈ ps, column r ≠ some p.value) → (r ∈ rows' ↔ r ∈ rows)
  unshared : Unshared column rows'

namespace Upserted

variable {t : T} {column : Row t → Option K} {p : Proposal K t} {ps : List (Proposal K t)}
  {rows rows₁ rows₂ : List (Row t)}

omit [DecidableEq K] in
theorem nil (unshared : Unshared column rows) : Upserted column [] rows rows :=
  ⟨fun _ hp => absurd hp List.not_mem_nil, fun _ _ => Iff.rfl, unshared⟩

omit [DecidableEq K] in
theorem cons {n : Row t} (unshared : Unshared column rows) (put : Put column p.value n rows rows₁)
    (named : column n = some p.value)
    (origin : (∃ r ∈ rows, column r = some p.value ∧ p.set r = .ok n) ∨
      (∀ r ∈ rows, column r ≠ some p.value) ∧ ∃ id, p.make id = .ok n)
    (fresh : ∀ q ∈ ps, q.value ≠ p.value) (rest : Upserted column ps rows₁ rows₂) :
    Upserted column (p :: ps) rows rows₂ := by
  have same : ∀ q ∈ ps, ∀ r, column r = some q.value → (r ∈ rows₁ ↔ r ∈ rows) := by
    intro q hq r held
    rw [put.mem_iff unshared]
    constructor
    · rintro (rfl | ⟨hr, _⟩)
      · exact absurd (Option.some.inj (held.symm.trans named)) (fresh q hq)
      · exact hr
    · refine fun hr => .inr ⟨hr, fun also => ?_⟩
      exact fresh q hq (Option.some.inj (held.symm.trans also))
  refine ⟨?_, ?_, rest.unshared⟩
  · intro q hq
    rcases List.mem_cons.mp hq with rfl | hq
    · refine ⟨n, ?_, named, origin⟩
      refine (rest.others n fun q' hq' also => ?_).mpr ((put.mem_iff unshared).mpr (.inl rfl))
      exact fresh q' hq' (Option.some.inj (also.symm.trans named))
    · obtain ⟨m, hm, held, ⟨r, hr, had, set⟩ | ⟨free, made⟩⟩ := rest.held q hq
      · exact ⟨m, hm, held, .inl ⟨r, (same q hq r had).mp hr, had, set⟩⟩
      · exact ⟨m, hm, held, .inr ⟨fun r hr had => free r ((same q hq r had).mpr hr) had, made⟩⟩
  · intro r other
    rw [rest.others r fun q hq => other q (List.mem_cons_of_mem _ hq), put.mem_iff unshared]
    constructor
    · rintro (rfl | ⟨hr, _⟩)
      · exact absurd named (other p List.mem_cons_self)
      · exact hr
    · exact fun hr => .inr ⟨hr, other p List.mem_cons_self⟩

end Upserted

/-! ### The statement -/

/-- Whatever a proposal stores has its value. -/
structure Proposal.Named {t : T} (column : Row t → Option K) (p : Proposal K t) : Prop where
  make : ∀ id r, p.make id = .ok r → column r = some p.value
  set : ∀ r n, p.set r = .ok n → column n = some p.value

namespace World

section Statement

variable {t : T} (column : Row t → Option K)

/-- Inserts the row that is proposed, or rewrites the one that has its value. Every row that
is proposed draws an id. -/
def propose (p : Proposal K t) (w : World T) : Except StmtError Unit × World T :=
  match (w.view t).find? fun r => decide (column r = some p.value) with
  | none =>
      match p.make w.nextId with
      | .error e => w.fail e
      | .ok r => w.drew.write t (.ins r) ()
  | some r =>
      if sees w.session.context t r then
        match p.set r with
        | .error e => w.fail e
        | .ok n => w.drew.write t (.upd [(r, n)]) ()
      else w.fail .rowSecurity

/-- Proposals one by one, up to the first that fails. -/
def proposeAll : List (Proposal K t) → World T → Except StmtError Unit × World T
  | [], w => (.ok (), w)
  | p :: ps, w =>
      match w.propose column p with
      | (.ok (), w') => proposeAll ps w'
      | (.error e, w') => (.error e, w')

/-- `INSERT ... ON CONFLICT (column) DO UPDATE`. A row that two of them would rewrite, or
that one would insert and another rewrite, is an error. -/
def upsert (ps : List (Proposal K t)) (w : World T) : Except StmtError Unit × World T :=
  if w.session.failed then (.error .aborted, w)
  else if w.session.faults.headD false then w.advance.fail .operational
  else if (ps.map Proposal.value).Nodup then w.advance.proposeAll column ps
  else w.advance.fail .integrity

end Statement

/-- `INSERT ... ON CONFLICT (column) DO NOTHING RETURNING *`. -/
def insertUnless {t : T} (conflicting : Row t → Bool)
    (make : RowId T → Except StmtError (Row t)) (w : World T) :
    Except StmtError (Option (Row t)) × World T :=
  if w.session.failed then (.error .aborted, w)
  else if w.session.faults.headD false then w.advance.fail .operational
  else if (w.view t).any conflicting then (.ok none, w.advance.drew)
  else match make w.nextId with
    | .error e => w.advance.fail e
    | .ok r => w.advance.drew.write t (.ins r) (some r)

/-! ### What it leaves -/

/-- Nothing but the rows of one table that the session sees has changed. -/
structure OnlyView (t : T) (w w' : World T) : Prop where
  db : w'.db = w.db
  views : ∀ u, u ≠ t → w'.view u = w.view u
  context : w'.session.context = w.session.context
  failed : w'.session.failed = w.session.failed
  faults : w'.session.faults = w.session.faults

namespace OnlyView

variable {t : T} {w w' w'' : World T}

theorem refl (t : T) (w : World T) : OnlyView t w w := ⟨rfl, fun _ _ => rfl, rfl, rfl, rfl⟩

theorem trans (first : OnlyView t w w') (second : OnlyView t w' w'') : OnlyView t w w'' :=
  ⟨second.db.trans first.db, fun u hu => (second.views u hu).trans (first.views u hu),
    second.context.trans first.context, second.failed.trans first.failed,
    second.faults.trans first.faults⟩

end OnlyView

/-- What is pending is seen by the transaction. -/
theorem view_pend (w : World T) (t : T) (c : Change (Row t)) :
    (w.pend t c).view t = c.apply (w.view t) := by
  show Change.applyAll (Function.update w.session.pending t _ t) _ = _
  rw [Function.update_self, Change.applyAll_append]
  rfl

theorem onlyView_pend (w : World T) (t : T) (c : Change (Row t)) : OnlyView t w (w.drew.pend t c) := by
  refine ⟨rfl, fun u hu => ?_, rfl, rfl, rfl⟩
  show Change.applyAll (Function.update w.session.pending t _ u) _ = _
  rw [Function.update_of_ne hu]
  rfl

/-- A write that was performed. -/
theorem of_write {w w' : World T} {t : T} {c : Change (Row t)} {A : Type} {answer a : A}
    (h : w.drew.write t c answer = (.ok a, w')) :
    OnlyView t w w' ∧ w'.view t = c.apply (w.view t) := by
  unfold write at h
  cases verdict : w.drew.refused t c with
  | some e =>
      rw [verdict] at h
      cases h
  | none =>
      rw [verdict] at h
      cases h
      exact ⟨onlyView_pend w t c, view_pend w.drew t c⟩

variable {t : T} {column : Row t → Option K} {p : Proposal K t} {ps : List (Proposal K t)}
  {w w' : World T}

/-- A proposal that succeeds puts one row under its value, in the place of the old one
if there was one. -/
theorem propose_eq_ok (h : w.propose column p = (.ok (), w')) : OnlyView t w w' ∧ ∃ n,
    Put column p.value n (w.view t) (w'.view t) ∧
      ((∃ r ∈ w.view t, column r = some p.value ∧ p.set r = .ok n) ∨
        (∀ r ∈ w.view t, column r ≠ some p.value) ∧ ∃ id, p.make id = .ok n) := by
  unfold propose at h
  -- the row that holds the value is rewritten; without one, a new row is made
  cases found : (w.view t).find? fun r => decide (column r = some p.value) with
  | none =>
      rw [found] at h
      have free : ∀ r ∈ w.view t, column r ≠ some p.value := by
        intro r hr
        simpa using List.find?_eq_none.mp found r hr
      cases made : p.make w.nextId with
      | error e =>
          simp only [made] at h
          cases h
      | ok n =>
          simp only [made] at h
          obtain ⟨only, view⟩ := of_write h
          refine ⟨only, n, ?_, .inr ⟨free, _, made⟩⟩
          rw [view]
          exact .adds free
  | some r =>
      rw [found] at h
      have here := List.mem_of_find?_eq_some found
      have held : column r = some p.value := by
        simpa using List.find?_some found
      simp only at h
      split at h
      · cases set : p.set r with
        | error e =>
            rw [set] at h
            cases h
        | ok n =>
            rw [set] at h
            obtain ⟨only, view⟩ := of_write h
            refine ⟨only, n, ?_, .inl ⟨r, here, held, set⟩⟩
            rw [view]
            exact .rewrites here held
      · cases h

/-- Proposals under distinct values do not undo each other. -/
theorem proposeAll_eq_ok (named : ∀ p ∈ ps, p.Named column) (distinct : (ps.map Proposal.value).Nodup)
    (unshared : Unshared column (w.view t)) (h : w.proposeAll column ps = (.ok (), w')) :
    OnlyView t w w' ∧ Upserted column ps (w.view t) (w'.view t) := by
  induction ps generalizing w with
  | nil =>
      cases h
      exact ⟨.refl t _, .nil unshared⟩
  | cons p ps ih =>
      obtain ⟨fresh, distinct⟩ := List.nodup_cons.mp distinct
      obtain ⟨mine, rest⟩ := List.forall_mem_cons.mp named
      unfold proposeAll at h
      cases first : w.propose column p with
      | mk result w₁ =>
          cases result with
          | error e =>
              rw [first] at h
              cases h
          | ok u =>
              rw [first] at h
              obtain ⟨only, n, put, origin⟩ := propose_eq_ok first
              have has : column n = some p.value := by
                rcases origin with ⟨r, _, _, set⟩ | ⟨_, id, made⟩
                · exact mine.set r n set
                · exact mine.make id n made
              obtain ⟨only', upserted⟩ := ih rest distinct (put.unshared unshared has) h
              refine ⟨only.trans only', .cons unshared put has origin (fun q hq same => ?_) upserted⟩
              exact fresh (same ▸ List.mem_map_of_mem hq)

/-- What an upsert that was performed leaves. -/
theorem upsert_eq_ok (named : ∀ p ∈ ps, p.Named column) (unshared : Unshared column (w.view t))
    (h : w.upsert column ps = (.ok (), w')) : w.session.failed = false ∧
      (ps.map Proposal.value).Nodup ∧ OnlyView t w.advance w' ∧
        Upserted column ps (w.view t) (w'.view t) := by
  unfold upsert at h
  split at h
  · cases h
  · rename_i inOrder
    split at h
    · cases h
    · split at h
      · rename_i distinct
        obtain ⟨only, upserted⟩ := proposeAll_eq_ok (w := w.advance) named distinct unshared h
        exact ⟨Bool.eq_false_iff.mpr inOrder, distinct, only, upserted⟩
      · cases h

/-- What an insert that minds a conflict leaves. -/
theorem insertUnless_eq_ok {conflicting : Row t → Bool}
    {make : RowId T → Except StmtError (Row t)} {o : Option (Row t)}
    (h : w.insertUnless conflicting make = (.ok o, w')) : OnlyView t w.advance w' ∧
      ((o = none ∧ (w.view t).any conflicting = true ∧ w'.view t = w.view t) ∨
        ∃ r id, o = some r ∧ make id = .ok r ∧ w'.view t = w.view t ++ [r]) := by
  unfold insertUnless at h
  split at h
  · cases h
  · split at h
    · cases h
    · split at h
      · rename_i conflict
        cases h
        exact ⟨⟨rfl, fun _ _ => rfl, rfl, rfl, rfl⟩, .inl ⟨rfl, conflict, rfl⟩⟩
      · cases made : make w.nextId with
        | error e =>
            simp only [made] at h
            cases h
        | ok r =>
            simp only [made] at h
            obtain ⟨only, view⟩ := of_write (w := w.advance) h
            have same : o = some r := by
              unfold write at h
              split at h
              · cases h
              · cases h
                rfl
            exact ⟨only, .inr ⟨r, _, same, made, view⟩⟩

/-- What conflicts is not inserted. -/
theorem insertUnless_conflict {conflicting : Row t → Bool}
    {make : RowId T → Except StmtError (Row t)} (live : w.Live)
    (conflict : (w.view t).any conflicting = true) :
    w.insertUnless conflicting make = (.ok none, w.drew) := by
  unfold insertUnless
  rw [live.failed, live.faults, advance_of_live live, if_pos conflict]
  rfl

/-! What is stored stays as it is until the transaction ends. -/

/-- Nothing is written before the commit. -/
theorem propose_db (column : Row t → Option K) (p : Proposal K t) (w : World T) :
    (w.propose column p).2.db = w.db := by
  unfold propose
  split
  · split
    · rfl
    · exact write_db _ t _ _
  · split
    · split
      · rfl
      · exact write_db _ t _ _
    · rfl

theorem proposeAll_db (column : Row t → Option K) (ps : List (Proposal K t)) (w : World T) :
    (w.proposeAll column ps).2.db = w.db := by
  induction ps generalizing w with
  | nil => rfl
  | cons p ps ih =>
      have first := propose_db column p w
      unfold proposeAll
      cases performed : w.propose column p with
      | mk r w₁ =>
          rw [performed] at first
          cases r with
          | ok u => exact (ih w₁).trans first
          | error e => exact first

theorem upsert_db (column : Row t → Option K) (ps : List (Proposal K t)) (w : World T) :
    (w.upsert column ps).2.db = w.db := by
  unfold upsert
  split
  · rfl
  · split
    · rfl
    · split
      · exact proposeAll_db column ps w.advance
      · rfl

theorem insertUnless_db (conflicting : Row t → Bool) (make : RowId T → Except StmtError (Row t))
    (w : World T) : (w.insertUnless conflicting make).2.db = w.db := by
  unfold insertUnless
  split
  · rfl
  · split
    · rfl
    · split
      · rfl
      · split
        · rfl
        · exact write_db _ t _ _

/-! ### Once more -/

/-- A proposal of what is there changes nothing. -/
theorem propose_again (unshared : Unshared column (w.view t)) {r : Row t} (here : r ∈ w.view t)
    (held : column r = some p.value) (set : p.set r = .ok r)
    (seen : sees w.session.context t r = true) : ∃ w', w.propose column p = (.ok (), w') ∧
      OnlyView t w w' ∧ w'.view t = w.view t := by
  have found : (w.view t).find? (fun r => decide (column r = some p.value)) = some r := by
    cases found : (w.view t).find? fun r => decide (column r = some p.value) with
    | none => exact absurd (decide_eq_true held) (List.find?_eq_none.mp found r here)
    | some x =>
        have named : column x = some p.value := by simpa using List.find?_some found
        exact congrArg some (unshared x (List.mem_of_find?_eq_some found) r here _ named held)
  have verdict : w.drew.refused t (.upd [(r, r)]) = none := by
    have nothing : gained t (Change.upd [(r, r)]) = [] := by
      refine gained_eq_nil fun p hp => ?_
      rw [List.mem_singleton.mp hp]
      exact List.Subset.refl _
    have alone : referenced t (Change.upd [(r, r)]) = [] := by
      refine referenced_eq_nil fun p hp => ?_
      rw [List.mem_singleton.mp hp]
      exact List.Subset.refl _
    have all : (Change.upd [(r, r)]).news.all (sees w.drew.session.context t) = true :=
      List.all_eq_true.mpr fun x hx => List.mem_singleton.mp hx ▸ seen
    rw [refused_of_nothing_gained _ nothing alone, if_pos all]
  refine ⟨w.drew.pend t (.upd [(r, r)]), ?_, onlyView_pend w t _, ?_⟩
  · unfold propose
    simp only [found, seen, if_true, set, write, verdict]
  · exact (view_pend w.drew t _).trans (apply_upd_same r _)

/-- An upsert of rows that are stored as they are proposed changes nothing. -/
theorem upsert_again (live : w.Live) (unshared : Unshared column (w.view t))
    (distinct : (ps.map Proposal.value).Nodup)
    (held : ∀ p ∈ ps, ∃ r ∈ w.view t, column r = some p.value ∧ p.set r = .ok r ∧
      sees w.session.context t r = true) : ∃ w', w.upsert column ps = (.ok (), w') ∧
        OnlyView t w w' ∧ w'.view t = w.view t := by
  have all : ∃ w', w.proposeAll column ps = (.ok (), w') ∧ OnlyView t w w' ∧
      w'.view t = w.view t := by
    clear live distinct
    induction ps generalizing w with
    | nil => exact ⟨w, rfl, .refl t w, rfl⟩
    | cons p ps ih =>
        obtain ⟨⟨r, here, mine, set, seen⟩, rest⟩ := List.forall_mem_cons.mp held
        obtain ⟨w₁, first, only, same⟩ := propose_again unshared here mine set seen
        have rest' : ∀ q ∈ ps, ∃ r ∈ w₁.view t, column r = some q.value ∧ q.set r = .ok r ∧
            sees w₁.session.context t r = true := by
          rw [same, only.context]
          exact rest
        obtain ⟨w₂, second, only', same'⟩ := ih (same ▸ unshared) rest'
        refine ⟨w₂, ?_, only.trans only', same'.trans same⟩
        simp only [proposeAll, first, second]
  obtain ⟨w', done, only, same⟩ := all
  refine ⟨w', ?_, only, same⟩
  unfold upsert
  rw [live.failed, live.faults, advance_of_live live, if_pos distinct]
  exact done

end World

end EspressoLogs.Lib
