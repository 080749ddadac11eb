import EspressoLogs.Lib.Store
import Mathlib.Data.List.Nodup
import Mathlib.Data.List.Pairwise
import Mathlib.Data.List.Perm.Subperm
import Mathlib.Logic.Relation

/-!
Clients of one store, under READ COMMITTED.

Every client runs a program in transactions of its own, and the clients take
turns statement by statement. A statement sees what is committed and what its
own transaction wrote. An `UPDATE` or `DELETE` first looks up the rows that it
is about; when it gets to write, it takes those of them that still match.

A write that meets a write of another open transaction (to the same row, to the
same entry of a unique index, to the other end of a reference) waits until that
transaction is over: it is just not performed before.
-/

namespace EspressoLogs.Lib

open Schema

variable {T : Type} [Schema T] {E α β : Type}

/-! ### Write sets -/

variable (T) in
/-- What a transaction wrote. -/
abbrev Writes := (t : T) → List (Change (Row t))

namespace Writes

variable (ws : Writes T) (t : T)

/-- The rows of a table that a transaction holds. -/
def touched : List (RowId T) := (ws t).flatMap fun c => (c.olds ++ c.news).map (key t)

/-- The index entries that a transaction holds. -/
def claimed : List (Entry T) := (ws t).flatMap fun c => (c.olds ++ c.news).flatMap (entries t)

/-- The references that a transaction added. -/
def referred : List (T × RowId T) := (ws t).flatMap (referenced t)

/-- The rows that a transaction removed. -/
def removed : List (RowId T) := (ws t).flatMap fun
  | .del gone => gone.map (key t)
  | _ => []

end Writes

/-- Neither transaction stands in the way of the other. -/
structure Clear (a b : Writes T) : Prop where
  rows : ∀ t, (a.touched t).Disjoint (b.touched t)
  indexes : ∀ t, (a.claimed t).Disjoint (b.claimed t)
  references : ∀ t, ∀ ref ∈ a.referred t, ref.2 ∉ b.removed ref.1
  references' : ∀ t, ∀ ref ∈ b.referred t, ref.2 ∉ a.removed ref.1

theorem Clear.symm {a b : Writes T} (h : Clear a b) : Clear b a :=
  ⟨fun t _ hb ha => h.rows t ha hb, fun t _ hb ha => h.indexes t ha hb, h.references', h.references⟩

/-! ### Pools -/

variable (T E α) in
/-- A client: what is left of its program, the transaction it is in and, while
an `UPDATE` or `DELETE` is under way, the rows that it looked up. -/
structure Client where
  prog : Prog (Stmt T) Resp E α
  session : Session T
  found : Option (List (RowId T))

variable (T E α) in
/-- The committed rows, the clients, and what the committed transactions wrote,
the last one first. -/
structure Pool where
  db : Tables T
  clients : List (Client T E α)
  log : List (Writes T)

namespace Client

/-- A client that is about to run a program. -/
def start (prog : Prog (Stmt T) Resp E α) (supply : Nat → RowId T) (faults : List Bool) :
    Client T E α :=
  { prog, session := { Session.idle supply with faults }, found := none }

def writes (c : Client T E α) : Writes T := c.session.pending

end Client

/-- The rows that a statement has to look up before it writes, if it has to. -/
def World.targets (w : World T) : Stmt T → Option (List (RowId T))
  | .update t p _ => some (((w.visible t).filter p).map (key t))
  | .delete t p => some (((w.visible t).filter p).map (key t))
  | .deleteCascade t p => some (((w.visible t).filter p).map (key t))
  | _ => none

/-- A statement about none but these rows. -/
def Stmt.narrow (found : List (RowId T)) : Stmt T → Stmt T
  | .update t p set => .update t (fun r => p r && decide (key t r ∈ found)) set
  | .delete t p => .delete t fun r => p r && decide (key t r ∈ found)
  | .deleteCascade t p => .deleteCascade t fun r => p r && decide (key t r ∈ found)
  | s => s

/-- Performs a statement on the rows that it looked up. -/
def World.execOn (found : List (RowId T)) : (s : Stmt T) → World T → Resp s × World T
  | .update t p set, w => World.exec (Stmt.narrow found (.update t p set)) w
  | .delete t p, w => World.exec (Stmt.narrow found (.delete t p)) w
  | .deleteCascade t p, w => World.exec (Stmt.narrow found (.deleteCascade t p)) w
  | s, w => World.exec s w

/-- A new row id is one that no row has or refers to. -/
def Unused (db : Tables T) (open_ : List (Writes T)) (id : RowId T) : Prop :=
  ∀ t, (∀ r ∈ db t, key t r ≠ id ∧ ∀ ref ∈ parents t r, ref.2 ≠ id) ∧
    ∀ ws ∈ open_, ∀ c ∈ ws t, ∀ r ∈ c.news, key t r ≠ id ∧ ∀ ref ∈ parents t r, ref.2 ≠ id

/-- The log after a statement. -/
def logged : (s : Stmt T) → Resp s → Writes T → List (Writes T) → List (Writes T)
  | .commit, .ok _, ws, log => ws :: log
  | _, _, _, log => log

/-- The program is over. -/
def Prog.Over {S : Type} {R : S → Type} : Prog S R E α → Prop
  | .op _ _ => False
  | _ => True

namespace Pool

variable (allowed : Pool T E α → Client T E α → List (Client T E α) → Stmt T → Prop)

/-- One client of the pool makes a step. It performs a statement only where
`allowed` lets it, given the others. -/
inductive Step : Pool T E α → Pool T E α → Prop where
  /-- It looks up the rows that its statement is about. -/
  | find {db : Tables T} {before after : List (Client T E α)} {log : List (Writes T)}
      {s : Stmt T} {k : Resp s → Prog (Stmt T) Resp E α} {session : Session T}
      {found : List (RowId T)} (looked : World.targets ⟨db, session⟩ s = some found) :
      Step ⟨db, before ++ ⟨.op s k, session, none⟩ :: after, log⟩
        ⟨db, before ++ ⟨.op s k, session, some found⟩ :: after, log⟩
  /-- It performs its statement, with nothing in its way. -/
  | perform {db : Tables T} {before after : List (Client T E α)} {log : List (Writes T)}
      {s : Stmt T} {k : Resp s → Prog (Stmt T) Resp E α} {session : Session T}
      {found : Option (List (RowId T))} {r : Resp s} {w : World T}
      (ready : (World.targets ⟨db, session⟩ s).isSome → found.isSome)
      (fresh : ∀ t make, s = .insert t make →
        Unused db ((before ++ ⟨.op s k, session, found⟩ :: after).map Client.writes)
          (World.nextId ⟨db, session⟩))
      (may : allowed ⟨db, before ++ ⟨.op s k, session, found⟩ :: after, log⟩
        ⟨.op s k, session, found⟩ (before ++ after) s)
      (answered : World.execOn (found.getD []) s ⟨db, session⟩ = (r, w))
      (clear : ∀ o ∈ before ++ after, Clear w.session.pending o.writes) :
      Step ⟨db, before ++ ⟨.op s k, session, found⟩ :: after, log⟩
        ⟨w.db, before ++ ⟨k r, w.session, none⟩ :: after, logged s r session.pending log⟩
  /-- Its program is over, and what it did not commit is dropped. -/
  | leave {db : Tables T} {before after : List (Client T E α)} {log : List (Writes T)}
      {p : Prog (Stmt T) Resp E α} {session : Session T} (finished : p.Over) :
      Step ⟨db, before ++ ⟨p, session, none⟩ :: after, log⟩
        ⟨db, before ++ ⟨p, session.ended, none⟩ :: after, log⟩

/-- A run: any number of steps. -/
abbrev Run : Pool T E α → Pool T E α → Prop := Relation.ReflTransGen (Step allowed)

/-- No step is ruled out. -/
def Anything : Pool T E α → Client T E α → List (Client T E α) → Stmt T → Prop :=
  fun _ _ _ _ => True

end Pool

/-! ### Changes, row by row -/

namespace Change

variable {R K : Type} [DecidableEq R] (key : R → K)

/-- The keys of the rows that changes take out or put in. -/
def keys (cs : List (Change R)) : List K := cs.flatMap fun c => (c.olds ++ c.news).map key

/-- A change that a table has room for: a new key is new, what is replaced or
removed is there, and a row is replaced by one row, with the same key. -/
def Fits : Change R → List R → Prop
  | .ins r, rows => key r ∉ rows.map key
  | .upd pairs, rows => ∀ p ∈ pairs, p.1 ∈ rows ∧ key p.2 = key p.1 ∧ pairs.lookup p.1 = some p.2
  | .del gone, rows => ∀ r ∈ gone, r ∈ rows

def AllFit : List (Change R) → List R → Prop
  | [], _ => True
  | c :: cs, rows => c.Fits key rows ∧ AllFit cs (c.apply rows)

variable {key} {rows rows' : List R} {c : Change R} {cs : List (Change R)}

theorem allFit_append (c : Change R) :
    AllFit key (cs ++ [c]) rows ↔ AllFit key cs rows ∧ c.Fits key (applyAll cs rows) := by
  induction cs generalizing rows with
  | nil =>
      constructor
      · rintro ⟨fits, _⟩
        exact ⟨trivial, fits⟩
      · rintro ⟨_, fits⟩
        exact ⟨fits, trivial⟩
  | cons d cs ih =>
      constructor
      · rintro ⟨first, rest⟩
        exact ⟨⟨first, (ih.mp rest).1⟩, (ih.mp rest).2⟩
      · rintro ⟨⟨first, rest⟩, last⟩
        exact ⟨first, ih.mpr ⟨rest, last⟩⟩

omit [DecidableEq R] in
theorem mem_keys {k : K} : k ∈ keys key cs ↔ ∃ c ∈ cs, ∃ r ∈ c.olds ++ c.news, key r = k := by
  simp only [keys, List.mem_flatMap, List.mem_map]

/-- A row whose key is not concerned is there after a change if it was before. -/
theorem mem_apply_iff {r : R} (apart : ∀ x ∈ c.olds ++ c.news, key x ≠ key r) :
    r ∈ c.apply rows ↔ r ∈ rows := by
  constructor
  · intro here
    rcases mem_apply here with old | new
    · exact old
    · exact absurd rfl (apart r (List.mem_append_right _ new))
  · intro here
    exact mem_apply_of_notMem_olds here fun gone => apart r (List.mem_append_left _ gone) rfl

theorem mem_applyAll_iff {r : R} (apart : key r ∉ keys key cs) :
    r ∈ applyAll cs rows ↔ r ∈ rows := by
  induction cs generalizing rows with
  | nil => rfl
  | cons c cs ih =>
      have first : ∀ x ∈ c.olds ++ c.news, key x ≠ key r := fun x hx same =>
        apart (mem_keys.mpr ⟨c, List.mem_cons_self, x, hx, same⟩)
      have rest : key r ∉ keys key cs := fun h => by
        obtain ⟨d, hd, x, hx, same⟩ := mem_keys.mp h
        exact apart (mem_keys.mpr ⟨d, List.mem_cons_of_mem _ hd, x, hx, same⟩)
      exact (ih rest).trans (mem_apply_iff first)

theorem mem_applyAll {r : R} (here : r ∈ applyAll cs rows) :
    r ∈ rows ∨ ∃ c ∈ cs, r ∈ c.news := by
  induction cs generalizing rows with
  | nil => exact .inl here
  | cons c cs ih =>
      rcases ih here with before | ⟨d, hd, new⟩
      · rcases mem_apply before with old | new
        · exact .inl old
        · exact .inr ⟨c, List.mem_cons_self, new⟩
      · exact .inr ⟨d, List.mem_cons_of_mem _ hd, new⟩

/-- The rows with one of these keys are the same. -/
def AgreeOn (key : R → K) (ks : List K) (rows rows' : List R) : Prop :=
  ∀ r, key r ∈ ks → (r ∈ rows ↔ r ∈ rows')

/-- What a change makes of the rows with these keys depends on them only. -/
theorem AgreeOn.apply {ks : List K} (agree : AgreeOn key ks rows rows') (fits : c.Fits key rows) :
    AgreeOn key ks (c.apply rows) (c.apply rows') := by
  intro r hr
  cases c with
  | ins n => simp only [Change.apply, List.mem_append, agree r hr]
  | del gone => simp only [Change.apply, List.mem_filter, agree r hr]
  | upd pairs =>
      have kept (x : R) : key ((pairs.lookup x).getD x) = key x := by
        cases found : pairs.lookup x with
        | none => rfl
        | some n => exact (fits (x, n) (mem_of_lookup found)).2.1
      simp only [Change.apply, List.mem_map]
      constructor
      · rintro ⟨x, hx, rfl⟩
        exact ⟨x, (agree x (kept x ▸ hr)).mp hx, rfl⟩
      · rintro ⟨x, hx, rfl⟩
        exact ⟨x, (agree x (kept x ▸ hr)).mpr hx, rfl⟩

theorem Fits.of_agree {ks : List K} (agree : AgreeOn key ks rows rows') (fits : c.Fits key rows)
    (within : ∀ x ∈ c.olds ++ c.news, key x ∈ ks) : c.Fits key rows' := by
  cases c with
  | ins n =>
      intro taken
      obtain ⟨x, hx, same⟩ := List.mem_map.mp taken
      have here : key x ∈ ks := same ▸ within n (List.mem_append_right _ (List.mem_singleton_self n))
      exact fits (List.mem_map.mpr ⟨x, (agree x here).mpr hx, same⟩)
  | del gone =>
      intro r hr
      exact (agree r (within r (List.mem_append_left _ hr))).mp (fits r hr)
  | upd pairs =>
      intro p hp
      have here := within p.1 (List.mem_append_left _ (List.mem_map_of_mem hp))
      exact ⟨(agree p.1 here).mp (fits p hp).1, (fits p hp).2⟩

omit [DecidableEq R] in
theorem within_keys {ks : List K} (within : keys key (c :: cs) ⊆ ks) :
    (∀ x ∈ c.olds ++ c.news, key x ∈ ks) ∧ keys key cs ⊆ ks := by
  constructor
  · intro x hx
    exact within (mem_keys.mpr ⟨c, List.mem_cons_self, x, hx, rfl⟩)
  · intro k hk
    obtain ⟨d, hd, x, hx, same⟩ := mem_keys.mp hk
    exact within (mem_keys.mpr ⟨d, List.mem_cons_of_mem _ hd, x, hx, same⟩)

theorem AgreeOn.applyAll {ks : List K} (agree : AgreeOn key ks rows rows')
    (fits : AllFit key cs rows) (within : keys key cs ⊆ ks) :
    AllFit key cs rows' ∧ AgreeOn key ks (Change.applyAll cs rows) (Change.applyAll cs rows') := by
  induction cs generalizing rows rows' with
  | nil => exact ⟨trivial, agree⟩
  | cons c cs ih =>
      obtain ⟨first, rest⟩ := fits
      obtain ⟨mine, others⟩ := within_keys within
      obtain ⟨fits', agree'⟩ := ih (agree.apply first) rest others
      exact ⟨⟨first.of_agree agree mine, fits'⟩, agree'⟩

/-- Keys stay distinct. -/
theorem nodup_apply (distinct : (rows.map key).Nodup) (fits : c.Fits key rows) :
    ((c.apply rows).map key).Nodup := by
  cases c with
  | ins n =>
      rw [Change.apply, List.map_append]
      refine List.Nodup.append distinct (List.nodup_singleton _) fun k hk hn => ?_
      rw [List.mem_singleton.mp hn] at hk
      exact fits hk
  | del gone => exact distinct.sublist (List.filter_sublist.map key)
  | upd pairs =>
      have kept : (Change.apply (.upd pairs) rows).map key = rows.map key := by
        rw [Change.apply, List.map_map]
        refine List.map_congr_left fun x _ => ?_
        cases found : pairs.lookup x with
        | none => simp [found]
        | some n => simpa [found] using (fits (x, n) (mem_of_lookup found)).2.1
      rw [kept]
      exact distinct

theorem nodup_applyAll (distinct : (rows.map key).Nodup) (fits : AllFit key cs rows) :
    ((applyAll cs rows).map key).Nodup := by
  induction cs generalizing rows with
  | nil => exact distinct
  | cons c cs ih => exact ih (nodup_apply distinct fits.1) fits.2

/-- Changes that touch a key and insert no row under it replace or remove the row
that is there. -/
theorem exists_old {k : K} (fits : AllFit key cs rows) (touched : k ∈ keys key cs)
    (uninserted : ∀ r, .ins r ∈ cs → key r ≠ k) :
    ∃ r ∈ rows, key r = k ∧ ∃ c ∈ cs, r ∈ c.olds := by
  induction cs generalizing rows with
  | nil => cases touched
  | cons c cs ih =>
      by_cases first : ∃ x ∈ c.olds ++ c.news, key x = k
      · obtain ⟨x, hx, same⟩ := first
        cases c with
        | ins r =>
            cases List.mem_singleton.mp hx
            exact (uninserted _ List.mem_cons_self same).elim
        | del gone =>
            rw [olds, news, List.append_nil] at hx
            exact ⟨x, fits.1 x hx, same, _, List.mem_cons_self, hx⟩
        | upd pairs =>
            obtain ⟨p, hp, one⟩ : ∃ p ∈ pairs, key p.1 = k := by
              rcases List.mem_append.mp hx with old | new
              · obtain ⟨p, hp, rfl⟩ := List.mem_map.mp old
                exact ⟨p, hp, same⟩
              · obtain ⟨p, hp, rfl⟩ := List.mem_map.mp new
                exact ⟨p, hp, (fits.1 p hp).2.1.symm.trans same⟩
            exact ⟨p.1, (fits.1 p hp).1, one, _, List.mem_cons_self, List.mem_map_of_mem hp⟩
      · have later : k ∈ keys key cs := by
          obtain ⟨d, hd, x, hx, same⟩ := mem_keys.mp touched
          rcases List.mem_cons.mp hd with rfl | hd
          · exact (first ⟨x, hx, same⟩).elim
          · exact mem_keys.mpr ⟨d, hd, x, hx, same⟩
        obtain ⟨r, here, same, d, hd, gone⟩ := ih fits.2 later fun r hr =>
          uninserted r (List.mem_cons_of_mem _ hr)
        have kept : ∀ x ∈ c.olds ++ c.news, key x ≠ key r := fun x hx one =>
          first ⟨x, hx, one.trans same⟩
        exact ⟨r, (mem_apply_iff kept).mp here, same, d, List.mem_cons_of_mem _ hd, gone⟩

/-- A row that no change takes out stays. -/
theorem mem_applyAll_of_notMem_olds {r : R} (here : r ∈ rows) (kept : ∀ c ∈ cs, r ∉ c.olds) :
    r ∈ applyAll cs rows := by
  induction cs generalizing rows with
  | nil => exact here
  | cons c cs ih =>
      obtain ⟨first, rest⟩ := List.forall_mem_cons.mp kept
      exact ih (mem_apply_of_notMem_olds here first) rest

/-- A row that a change puts in is there afterwards, unless one takes it out. -/
theorem mem_applyAll_of_news {r : R} (fits : AllFit key cs rows) (new : ∃ c ∈ cs, r ∈ c.news)
    (kept : ∀ c ∈ cs, r ∉ c.olds) : r ∈ applyAll cs rows := by
  induction cs generalizing rows with
  | nil =>
      obtain ⟨c, hc, _⟩ := new
      cases hc
  | cons c cs ih =>
      obtain ⟨_, rest⟩ := List.forall_mem_cons.mp kept
      obtain ⟨d, hd, hr⟩ := new
      rcases List.mem_cons.mp hd with rfl | hd
      · have here : r ∈ d.apply rows := by
          cases d with
          | ins n => exact List.mem_append_right _ hr
          | del gone => cases hr
          | upd pairs =>
              obtain ⟨p, hp, rfl⟩ := List.mem_map.mp hr
              obtain ⟨stored, _, replaced⟩ := fits.1 p hp
              refine List.mem_map.mpr ⟨p.1, stored, ?_⟩
              rw [replaced]
              rfl
        show r ∈ applyAll cs (d.apply rows)
        exact mem_applyAll_of_notMem_olds here rest
      · exact ih fits.2 ⟨d, hd, hr⟩ rest

/-! ### What is inserted -/

/-- The row that a change inserts. -/
def inserted : Change R → List R
  | .ins r => [r]
  | .upd _ => []
  | .del _ => []

/-- The rows that a change rewrites keep a column. -/
def Keeps {L : Type} (column : R → L) : Change R → Prop
  | .upd pairs => ∀ p ∈ pairs, column p.2 = column p.1
  | _ => True

/-- In a column that updates keep there is afterwards nothing but what was there
or was inserted, and no more often. -/
theorem subperm_apply {L : Type} {column : R → L} (kept : c.Keeps column) :
    ((c.apply rows).map column).Subperm ((rows ++ c.inserted).map column) := by
  cases c with
  | ins r => exact List.Subperm.refl _
  | del gone =>
      rw [inserted, List.append_nil]
      exact (List.filter_sublist.map column).subperm
  | upd pairs =>
      have same : (Change.apply (.upd pairs) rows).map column = rows.map column := by
        rw [Change.apply, List.map_map]
        refine List.map_congr_left fun x _ => ?_
        cases found : pairs.lookup x with
        | none => simp [found]
        | some n => simpa [found] using kept (x, n) (mem_of_lookup found)
      rw [same, inserted, List.append_nil]

theorem subperm_applyAll {L : Type} {column : R → L} (kept : ∀ c ∈ cs, c.Keeps column) :
    ((applyAll cs rows).map column).Subperm ((rows ++ cs.flatMap inserted).map column) := by
  induction cs generalizing rows with
  | nil =>
      rw [List.flatMap_nil, List.append_nil]
      exact List.Subperm.refl _
  | cons c cs ih =>
      obtain ⟨first, rest⟩ := List.forall_mem_cons.mp kept
      have later : ((applyAll cs (c.apply rows)).map column).Subperm _ := ih rest
      refine later.trans ?_
      rw [List.flatMap_cons, ← List.append_assoc, List.map_append,
        @List.map_append _ _ column (rows ++ c.inserted)]
      exact (List.subperm_append_right _).mpr (subperm_apply first)

end Change

namespace Writes

variable {ws ws' : Writes T} {t u : T} {c : Change (Row t)}

/-- The rows that a transaction inserted into a table. -/
def inserted (ws : Writes T) (t : T) : List (Row t) := (ws t).flatMap Change.inserted

theorem inserted_self (added : ws' = Function.update ws t (ws t ++ [c])) :
    ws'.inserted t = ws.inserted t ++ c.inserted := by
  subst added
  simp [inserted]

theorem inserted_of_ne (added : ws' = Function.update ws t (ws t ++ [c])) (other : u ≠ t) :
    ws'.inserted u = ws.inserted u := by
  subst added
  simp [inserted, Function.update_of_ne other]

end Writes

/-! ### Unique indexes -/

/-- No two rows share an index entry. -/
def NoShare (t : T) (rows : List (Row t)) : Prop :=
  ∀ r ∈ rows, ∀ r' ∈ rows, ∀ e ∈ entries t r, e ∈ entries t r' → key t r = key t r'

/-- A write that is let in shares no entry. -/
theorem NoShare.apply {w : World T} {t : T} {c : Change (Row t)} (distinct : NoShare t (w.view t))
    (fits : c.Fits (key t) (w.view t)) (verdict : w.refused t c = none) :
    NoShare t (c.apply (w.view t)) := by
  obtain ⟨_, free, once, _⟩ := w.refused_eq_none.mp verdict
  have untaken {e : Entry T} (he : e ∈ gained t c) {r : Row t} (hr : r ∈ w.view t) :
      e ∉ entries t r := fun held => by
    have taken : w.taken t e = true := List.any_eq_true.mpr ⟨r, hr, decide_eq_true held⟩
    rw [free e he] at taken
    cases taken
  cases c with
  | ins n =>
      intro r hr r' hr' e he he'
      rcases List.mem_append.mp hr with old | new
      · rcases List.mem_append.mp hr' with old' | new'
        · exact distinct r old r' old' e he he'
        · rw [List.mem_singleton.mp new'] at he'
          exact (untaken he' old he).elim
      · rw [List.mem_singleton.mp new] at he ⊢
        rcases List.mem_append.mp hr' with old' | new'
        · exact (untaken he old' he').elim
        · rw [List.mem_singleton.mp new']
  | del gone =>
      intro r hr r' hr' e he he'
      exact distinct r (List.mem_filter.mp hr).1 r' (List.mem_filter.mp hr').1 e he he'
  | upd pairs =>
      -- every row comes from one that was there, and an entry it did not have is gained
      have origin {r : Row t} (hr : r ∈ Change.apply (.upd pairs) (w.view t)) :
          ∃ x ∈ w.view t, key t r = key t x ∧ ∀ e ∈ entries t r, e ∈ entries t x ∨
            (x, r) ∈ pairs ∧ e ∈ (entries t r).filter (· ∉ entries t x) := by
        obtain ⟨x, hx, rfl⟩ := List.mem_map.mp hr
        cases found : pairs.lookup x with
        | none => exact ⟨x, hx, rfl, fun e he => .inl he⟩
        | some n =>
            have pair := Change.mem_of_lookup found
            refine ⟨x, hx, (fits (x, n) pair).2.1, fun e he => ?_⟩
            by_cases held : e ∈ entries t x
            · exact .inl held
            · exact .inr ⟨pair, List.mem_filter.mpr ⟨he, decide_eq_true held⟩⟩
      intro r hr r' hr' e he he'
      obtain ⟨x, hx, same, from_x⟩ := origin hr
      obtain ⟨x', hx', same', from_x'⟩ := origin hr'
      have blocks := (List.nodup_flatMap.mp once).2
      rcases from_x e he with old | ⟨pair, new⟩
      · rcases from_x' e he' with old' | ⟨pair', new'⟩
        · exact same.trans ((distinct x hx x' hx' e old old').trans same'.symm)
        · exact (untaken (List.mem_flatMap.mpr ⟨_, pair', new'⟩) hx old).elim
      · rcases from_x' e he' with old' | ⟨pair', new'⟩
        · exact (untaken (List.mem_flatMap.mpr ⟨_, pair, new⟩) hx' old').elim
        · by_cases one : (x, r) = (x', r')
          · exact congrArg (key t) (Prod.mk.inj one).2
          · have symmetric : Std.Symm (Function.onFun List.Disjoint fun p : Row t × Row t =>
                (entries t p.2).filter (· ∉ entries t p.1)) := ⟨fun _ _ apart _ hb ha => apart ha hb⟩
            exact (blocks.forall pair pair' one new new').elim

/-! ### What a statement writes -/

/-- The change that a statement makes to a table. -/
inductive Wrote (w : World T) : Stmt T → (t : T) → Change (Row t) → Prop where
  | insert {t : T} {make : RowId T → Except StmtError (Row t)} {r : Row t}
      (made : make w.nextId = .ok r) : Wrote w (.insert t make) t (.ins r)
  | update {t : T} {p : Row t → Bool} {set : Row t → Except StmtError (Row t)}
      (valid : ∀ r ∈ (w.visible t).filter p, rejected (set r) = none) :
      Wrote w (.update t p set) t (.upd (rewritten set ((w.visible t).filter p)))
  | delete {t : T} {p : Row t → Bool} : Wrote w (.delete t p) t (.del ((w.visible t).filter p))

theorem Wrote.inserted {w : World T} {s : Stmt T} {t : T} {c : Change (Row t)}
    (wrote : Wrote w s t c) : c.inserted = [] ∨
      ∃ make r, s = .insert t make ∧ make w.nextId = .ok r ∧ c = .ins r := by
  cases wrote with
  | insert made => exact .inr ⟨_, _, rfl, made, rfl⟩
  | update valid => exact .inl rfl
  | delete => exact .inl rfl

/-- A statement that writes rows under the keys they have, a new row under the
key that it is given, and does not reach other tables. -/
def Stmt.Orderly : Stmt T → Prop
  | .insert t make => ∀ id r, make id = .ok r → key t r = id
  | .update t _ set => ∀ r r', set r = .ok r' → key t r' = key t r
  | .deleteCascade _ _ => False
  | _ => True

theorem Stmt.Orderly.narrow {s : Stmt T} (h : s.Orderly) (found : List (RowId T)) :
    (s.narrow found).Orderly := by
  cases s <;> exact h

theorem Stmt.narrow_eq_insert {s : Stmt T} {found : List (RowId T)} {t : T}
    {make : RowId T → Except StmtError (Row t)} :
    s.narrow found = .insert t make ↔ s = .insert t make := by
  cases s <;> simp [Stmt.narrow]

theorem Stmt.narrow_eq_commit {s : Stmt T} {found : List (RowId T)} :
    s.narrow found = .commit ↔ s = .commit := by
  cases s <;> simp [Stmt.narrow]

namespace World

variable {w : World T} {s : Stmt T}

/-- What a statement other than a commit leaves its transaction with. -/
inductive Leaves (w : World T) (s : Stmt T) (v : World T) : Prop where
  | kept (same : v.session.pending = w.session.pending)
  | dropped (empty : v.session.pending = fun _ => [])
  | wrote (t : T) (c : Change (Row t)) (inOrder : w.session.failed = false) (change : Wrote w s t c)
      (verdict : w.refused t c = none)
      (added : v.session.pending = (w.session.add t c).pending)

theorem write_leaves {α : Type} {t : T} {c : Change (Row t)} {a : α}
    (inOrder : w.session.failed = false) (change : Wrote w s t c)
    {v : World T} (same : v.session.pending = w.session.pending)
    (verdict : v.refused t c = w.refused t c) : w.Leaves s (v.write t c a).2 := by
  unfold write
  cases h : v.refused t c with
  | some e => exact .dropped rfl
  | none =>
      refine .wrote t c inOrder change (verdict ▸ h) ?_
      show Function.update v.session.pending t _ = Function.update w.session.pending t _
      rw [same]

theorem perform_leaves (inOrder : w.session.failed = false) (uncommitting : s ≠ .commit)
    (orderly : s.Orderly) :
    w.Leaves s (perform s w.advance).2 := by
  cases s with
  | insert t make =>
      simp only [perform]
      cases made : make w.advance.nextId with
      | error e => exact .dropped rfl
      | ok r => exact write_leaves (w := w) (v := w.advance.drew) inOrder (.insert made) rfl rfl
  | update t p set =>
      simp only [perform]
      cases valid : ((w.advance.visible t).filter p).findSome? fun r => rejected (set r) with
      | some e => exact .dropped rfl
      | none =>
          exact write_leaves (w := w) (v := w.advance) inOrder
            (.update (List.findSome?_eq_none_iff.mp valid)) rfl rfl
  | delete t p => exact write_leaves inOrder .delete rfl rfl
  | deleteCascade t p => exact orderly.elim
  | commit => exact absurd rfl uncommitting
  | rollback => exact .dropped rfl
  | _ => exact .kept rfl

theorem exec_leaves (uncommitting : s ≠ .commit) (orderly : s.Orderly) :
    w.Leaves s (exec s w).2 := by
  cases s with
  | rollback => exact .dropped rfl
  | _ =>
      simp only [exec]
      split
      · exact .kept rfl
      · rename_i inOrder
        split
        · exact .dropped rfl
        · exact perform_leaves (Bool.eq_false_iff.mpr inOrder) uncommitting orderly

/-- A commit makes what the transaction wrote part of the store, or fails. -/
theorem exec_commit (w : World T) : w.session.failed = false ∧
    (exec .commit w).2.session.pending = (fun _ => []) ∧
    (exec .commit w).2.db = w.view ∧ (exec .commit w).1 = .ok () ∨
    (∃ e, (exec .commit w).1 = .error e) ∧ (exec .commit w).2.db = w.db ∧
      ((exec .commit w).2.session.pending = (fun _ => []) ∨
        (exec .commit w).2.session.pending = w.session.pending) := by
  simp only [exec]
  split
  · exact .inr ⟨⟨_, rfl⟩, rfl, .inr rfl⟩
  · rename_i inOrder
    split
    · exact .inr ⟨⟨_, rfl⟩, rfl, .inl rfl⟩
    · exact .inl ⟨Bool.eq_false_iff.mpr inOrder, rfl, rfl, rfl⟩

theorem execOn_world (found : List (RowId T)) (s : Stmt T) (w : World T) :
    (execOn found s w).2 = (exec (s.narrow found) w).2 := by
  cases s <;> rfl

/-- What an orderly statement writes fits the table. -/
theorem fits_of_wrote {t : T} {c : Change (Row t)} (change : Wrote w s t c) (orderly : s.Orderly)
    (fresh : ∀ t make, s = .insert t make → ∀ r ∈ w.view t, key t r ≠ w.nextId) :
    c.Fits (key t) (w.view t) := by
  cases change with
  | insert made =>
      intro taken
      obtain ⟨r, hr, same⟩ := List.mem_map.mp taken
      exact fresh _ _ rfl r hr (same.trans (orderly _ _ made))
  | delete => exact fun r hr => mem_view_of_mem_visible (List.mem_filter.mp hr).1
  | @update _ p set valid =>
      intro x hx
      obtain ⟨r, hr, rfl⟩ := List.mem_map.mp hx
      refine ⟨mem_view_of_mem_visible (List.mem_filter.mp hr).1, ?_, ?_⟩
      · cases new : set r with
        | error e =>
            have none := valid r hr
            rw [new] at none
            cases none
        | ok r' => exact orderly r r' new
      · rw [rewritten, Change.lookup_map_self, if_pos hr]

end World

/-! ### Side by side -/

section Across

variable {a b : Writes T} {t : T} {rows : List (Row t)}

theorem mem_claimed {r : Row t} {e : Entry T} (here : ∃ c ∈ a t, r ∈ c.news) (he : e ∈ entries t r) :
    e ∈ a.claimed t := by
  obtain ⟨c, hc, hr⟩ := here
  exact List.mem_flatMap.mpr ⟨c, hc, List.mem_flatMap.mpr ⟨r, List.mem_append_right _ hr, he⟩⟩

theorem mem_touched {r : Row t} (here : ∃ c ∈ a t, r ∈ c.news) : key t r ∈ a.touched t := by
  obtain ⟨c, hc, hr⟩ := here
  exact List.mem_flatMap.mpr ⟨c, hc, List.mem_map_of_mem (List.mem_append_right _ hr)⟩

/-- An inserted row is a new one. -/
theorem mem_news_of_inserted {r : Row t} (h : r ∈ a.inserted t) : ∃ c ∈ a t, r ∈ c.news := by
  obtain ⟨c, hc, hr⟩ := List.mem_flatMap.mp h
  refine ⟨c, hc, ?_⟩
  cases c with
  | ins n => exact hr
  | upd pairs => cases hr
  | del gone => cases hr

/-- What one transaction holds stays as it is when another one commits. -/
theorem Clear.agreeOn (clear : Clear a b) :
    Change.AgreeOn (key t) (b.touched t) rows (Change.applyAll (a t) rows) := by
  intro r hr
  exact (Change.mem_applyAll_iff fun held => clear.rows t held hr).symm

theorem Clear.noShare (clear : Clear a b) (fits : Change.AllFit (key t) (b t) rows)
    (ha : NoShare t (Change.applyAll (a t) rows)) (hb : NoShare t (Change.applyAll (b t) rows)) :
    NoShare t (Change.applyAll (b t) (Change.applyAll (a t) rows)) := by
  have held : Change.AgreeOn (key t) (b.touched t) rows (Change.applyAll (a t) rows) :=
    clear.agreeOn
  have agree := (held.applyAll fits fun _ h => h).2
  have side {r : Row t} (hr : r ∈ Change.applyAll (b t) (Change.applyAll (a t) rows)) :
      key t r ∈ b.touched t ∧ r ∈ Change.applyAll (b t) rows ∨
        key t r ∉ b.touched t ∧ r ∈ Change.applyAll (a t) rows := by
    by_cases held : key t r ∈ b.touched t
    · exact .inl ⟨held, (agree r held).mpr hr⟩
    · exact .inr ⟨held, (Change.mem_applyAll_iff held).mp hr⟩
  -- rows of the two sides: one of them is there already, or both entries are held
  have across {r r' : Row t} (held : key t r ∈ b.touched t) (hr : r ∈ Change.applyAll (b t) rows)
      (free : key t r' ∉ b.touched t) (hr' : r' ∈ Change.applyAll (a t) rows) {e : Entry T}
      (he : e ∈ entries t r) (he' : e ∈ entries t r') : key t r = key t r' := by
    rcases Change.mem_applyAll hr with old | new
    · refine ha r ((clear.agreeOn r held).mp old) r' hr' e he he'
    · rcases Change.mem_applyAll hr' with old' | new'
      · exact hb r hr r' ((Change.mem_applyAll_iff free).mpr old') e he he'
      · exact (clear.indexes t (mem_claimed new' he') (mem_claimed new he)).elim
  intro r hr r' hr' e he he'
  rcases side hr with ⟨held, here⟩ | ⟨free, here⟩
  · rcases side hr' with ⟨_, here'⟩ | ⟨free', here'⟩
    · exact hb r here r' here' e he he'
    · exact across held here free' here' he he'
  · rcases side hr' with ⟨held', here'⟩ | ⟨_, here'⟩
    · exact (across held' here' free here he' he).symm
    · exact ha r here r' here' e he he'

end Across

/-! ### Order -/

theorem forall_mem_middle {A : Type} {P : A → Prop} {before after : List A} {x : A} :
    (∀ y ∈ before ++ x :: after, P y) ↔ P x ∧ ∀ y ∈ before ++ after, P y := by
  constructor
  · intro h
    refine ⟨h x (List.mem_append_right _ List.mem_cons_self), fun y hy => h y ?_⟩
    rcases List.mem_append.mp hy with hy | hy
    · exact List.mem_append_left _ hy
    · exact List.mem_append_right _ (List.mem_cons_of_mem _ hy)
  · rintro ⟨hx, others⟩ y hy
    rcases List.mem_append.mp hy with hy | hy
    · exact others y (List.mem_append_left _ hy)
    · rcases List.mem_cons.mp hy with rfl | hy
      · exact hx
      · exact others y (List.mem_append_right _ hy)

theorem getElem?_middle {A : Type} (before after : List A) (x : A) :
    (before ++ x :: after)[before.length]? = some x := by
  rw [List.getElem?_append_right (Nat.le_refl _), Nat.sub_self, List.getElem?_cons_zero]

/-- At other positions a list is as without the element. -/
theorem getElem?_beside {A : Type} {before after : List A} {i : Nat} (other : i ≠ before.length)
    (x : A) : (before ++ x :: after)[i]? =
      (before ++ after)[if i < before.length then i else i - 1]? := by
  by_cases left : i < before.length
  · rw [if_pos left, List.getElem?_append_left left, List.getElem?_append_left left]
  · rw [if_neg left, List.getElem?_append_right (Nat.le_of_not_lt left),
      List.getElem?_append_right (by omega)]
    obtain ⟨n, hn⟩ : ∃ n, i - before.length = n + 1 := ⟨i - before.length - 1, by omega⟩
    rw [hn, List.getElem?_cons_succ]
    congr 1
    omega

theorem getElem?_middle_of_ne {A : Type} {before after : List A} {i : Nat}
    (other : i ≠ before.length) (x y : A) :
    (before ++ x :: after)[i]? = (before ++ y :: after)[i]? :=
  (getElem?_beside other x).trans (getElem?_beside other y).symm

theorem mem_of_getElem?_middle {A : Type} {before after : List A} {x c : A} {i : Nat}
    (other : i ≠ before.length) (here : (before ++ x :: after)[i]? = some c) :
    c ∈ before ++ after :=
  List.mem_of_getElem? ((getElem?_beside other x).symm.trans here)

/-- What a client may leave the store with: writes that fit, and no entry twice. -/
structure Client.InOrder (db : Tables T) (c : Client T E α) : Prop where
  fits : ∀ t, Change.AllFit (key t) (c.writes t) (db t)
  distinct : ∀ t, NoShare t (Change.applyAll (c.writes t) (db t))
  orderly : c.prog.All Stmt.Orderly

namespace Pool

/-- Keys and unique entries are distinct, for everyone, and no two transactions
stand in each other's way. -/
structure InOrder (p : Pool T E α) : Prop where
  keyed : ∀ t, ((p.db t).map (key t)).Nodup
  distinct : ∀ t, NoShare t (p.db t)
  clients : ∀ c ∈ p.clients, c.InOrder p.db
  clear : p.clients.Pairwise fun a b => Clear a.writes b.writes

theorem pairwise_middle {before after : List (Client T E α)} {c : Client T E α} :
    ((before ++ c :: after).Pairwise fun a b => Clear a.writes b.writes) ↔
      (∀ o ∈ before ++ after, Clear c.writes o.writes) ∧
        (before ++ after).Pairwise fun a b => Clear a.writes b.writes := by
  rw [List.pairwise_middle Clear.symm, List.pairwise_cons]

section Replace

variable {db db' : Tables T} {before after : List (Client T E α)} {c c' : Client T E α}
  {log log' : List (Writes T)}

theorem InOrder.current (h : InOrder ⟨db, before ++ c :: after, log⟩) : c.InOrder db :=
  (forall_mem_middle.mp h.clients).1

theorem InOrder.others (h : InOrder ⟨db, before ++ c :: after, log⟩) :
    ∀ o ∈ before ++ after, o.InOrder db :=
  (forall_mem_middle.mp h.clients).2

theorem InOrder.replace (h : InOrder ⟨db, before ++ c :: after, log⟩) (hc : c'.InOrder db)
    (clear : ∀ o ∈ before ++ after, Clear c'.writes o.writes) :
    InOrder ⟨db, before ++ c' :: after, log'⟩ where
  keyed := h.keyed
  distinct := h.distinct
  clients := forall_mem_middle.mpr ⟨hc, h.others⟩
  clear := pairwise_middle.mpr ⟨clear, (pairwise_middle.mp h.clear).2⟩

end Replace

variable {allowed : Pool T E α → Client T E α → List (Client T E α) → Stmt T → Prop}

theorem clear_nil (b : Writes T) : Clear (fun _ => []) b :=
  ⟨fun _ => nofun, fun _ => nofun, fun _ => nofun, fun _ _ _ => nofun⟩

/-- A client whose transaction is over is in order. -/
theorem InOrder.idle {p : Pool T E α} (h : p.InOrder) {c : Client T E α}
    (empty : c.writes = fun _ => []) (orderly : c.prog.All Stmt.Orderly) : c.InOrder p.db := by
  refine ⟨fun t => ?_, fun t => ?_, orderly⟩
  · rw [empty]
    exact trivial
  · rw [empty]
    exact h.distinct t

/-! ### What a step can do -/

/-- A step leaves the committed rows as they are, and drops what its client wrote
or keeps it; or it adds one write to that; or it commits it. -/
inductive Did (allowed : Pool T E α → Client T E α → List (Client T E α) → Stmt T → Prop)
    (p p' : Pool T E α) : Prop where
  | quiet {before after : List (Client T E α)} {c c' : Client T E α}
      (here : p.clients = before ++ c :: after) (there : p'.clients = before ++ c' :: after)
      (db : p'.db = p.db) (log : p'.log = p.log)
      (writes : c'.writes = c.writes ∨ c'.writes = fun _ => [])
  | wrote {before after : List (Client T E α)} {c c' : Client T E α} {s : Stmt T}
      {k : Resp s → Prog (Stmt T) Resp E α} {t : T} {change : Change (Row t)}
      (here : p.clients = before ++ c :: after) (there : p'.clients = before ++ c' :: after)
      (db : p'.db = p.db) (log : p'.log = p.log) (prog : c.prog = .op s k)
      (may : allowed p c (before ++ after) s)
      (fresh : ∀ u make, s = .insert u make →
        Unused p.db (p.clients.map Client.writes) (World.nextId ⟨p.db, c.session⟩))
      (inOrder : c.session.failed = false)
      (written : Wrote ⟨p.db, c.session⟩ (s.narrow (c.found.getD [])) t change)
      (verdict : World.refused ⟨p.db, c.session⟩ t change = none)
      (writes : c'.writes = Function.update c.writes t (c.writes t ++ [change]))
  | committed {before after : List (Client T E α)} {c c' : Client T E α}
      {k : Resp (.commit : Stmt T) → Prog (Stmt T) Resp E α}
      (here : p.clients = before ++ c :: after) (there : p'.clients = before ++ c' :: after)
      (prog : c.prog = .op .commit k) (may : allowed p c (before ++ after) .commit)
      (inOrder : c.session.failed = false)
      (db : p'.db = World.view ⟨p.db, c.session⟩) (log : p'.log = c.writes :: p.log)
      (writes : c'.writes = fun _ => [])

theorem logged_of_ne {s : Stmt T} (uncommitting : s ≠ .commit) (r : Resp s) (ws : Writes T)
    (log : List (Writes T)) : logged s r ws log = log := by
  cases s with
  | commit => exact absurd rfl uncommitting
  | _ => rfl

theorem Step.did {p p' : Pool T E α} (step : Step allowed p p')
    (orderly : ∀ c ∈ p.clients, c.prog.All Stmt.Orderly) : Did allowed p p' := by
  cases step with
  | find looked => exact .quiet rfl rfl rfl rfl (.inl rfl)
  | leave finished => exact .quiet rfl rfl rfl rfl (.inr rfl)
  | @perform db before after log s k session found r w ready fresh may answered clear =>
      have world : w = (World.exec (s.narrow (found.getD [])) ⟨db, session⟩).2 := by
        rw [← World.execOn_world, answered]
      -- a commit goes through or leaves what was written; any other statement leaves the
      -- database
      by_cases committing : s = .commit
      · subst committing
        have answer : World.exec .commit ⟨db, session⟩ = (r, w) := answered
        rcases World.exec_commit (T := T) ⟨db, session⟩ with
          ⟨inOrder, empty, here, ok⟩ | ⟨⟨e, error⟩, here, left⟩
        · rw [answer] at empty here ok
          have said : r = .ok () := ok
          subst said
          exact .committed rfl rfl rfl may inOrder here rfl empty
        · rw [answer] at error here left
          have said : r = .error e := error
          subst said
          refine .quiet rfl rfl here rfl ?_
          rcases left with empty | same
          · exact .inr empty
          · exact .inl same
      · have mine := ((forall_mem_middle.mp orderly).1).1
        have db_eq : w.db = db := by
          rw [world]
          exact World.exec_db (fun eq => committing (Stmt.narrow_eq_commit.mp eq)) _
        have leaves := World.exec_leaves (w := ⟨db, session⟩)
          (fun eq => committing (Stmt.narrow_eq_commit.mp eq)) (mine.narrow (found.getD []))
        rw [← world] at leaves
        have unlogged := logged_of_ne committing r session.pending log
        cases leaves with
        | kept same => exact .quiet rfl rfl db_eq unlogged (.inl same)
        | dropped empty => exact .quiet rfl rfl db_eq unlogged (.inr empty)
        | wrote t c inOrder change verdict added =>
            exact .wrote rfl rfl db_eq unlogged rfl may fresh inOrder change verdict added

/-- What is left of the programs performs only what they do. -/
theorem Step.all {Q : Stmt T → Prop} {p p' : Pool T E α} (step : Step allowed p p')
    (within : ∀ c ∈ p.clients, c.prog.All Q) : ∀ c ∈ p'.clients, c.prog.All Q := by
  cases step with
  | find looked => exact forall_mem_middle.mpr (forall_mem_middle.mp within)
  | leave finished => exact forall_mem_middle.mpr (forall_mem_middle.mp within)
  | perform ready fresh may answered clear =>
      obtain ⟨mine, others⟩ := forall_mem_middle.mp within
      exact forall_mem_middle.mpr ⟨mine.2 _, others⟩

theorem Run.all {Q : Stmt T → Prop} {p p' : Pool T E α} (run : Run allowed p p')
    (within : ∀ c ∈ p.clients, c.prog.All Q) : ∀ c ∈ p'.clients, c.prog.All Q := by
  induction run with
  | refl => exact within
  | tail _ step ih => exact step.all ih

/-- What a statement other than a commit leaves behind is in order. -/
theorem inOrder_of_leaves {db : Tables T} {session : Session T} {s : Stmt T} {v : World T}
    {p q : Prog (Stmt T) Resp E α} {found : Option (List (RowId T))} {pool : Pool T E α}
    (h : pool.InOrder) (same : pool.db = db) (current : Client.InOrder db ⟨p, session, found⟩)
    (orderly : s.Orderly) (rest : q.All Stmt.Orderly)
    (fresh : ∀ t make, s = .insert t make → ∀ r ∈ World.view ⟨db, session⟩ t,
      key t r ≠ World.nextId ⟨db, session⟩)
    (leaves : World.Leaves ⟨db, session⟩ s v) :
    Client.InOrder db (⟨q, v.session, none⟩ : Client T E α) := by
  subst same
  cases leaves with
  | dropped empty => exact h.idle empty rest
  | kept same =>
      refine ⟨fun t => ?_, fun t => ?_, rest⟩
      · show Change.AllFit (key t) (v.session.pending t) _
        rw [same]
        exact current.fits t
      · show NoShare t (Change.applyAll (v.session.pending t) _)
        rw [same]
        exact current.distinct t
  | wrote t c _ change verdict added =>
      have fits := World.fits_of_wrote change orderly fresh
      refine ⟨fun u => ?_, fun u => ?_, rest⟩
      · show Change.AllFit (key u) (v.session.pending u) _
        rw [added]
        by_cases hu : u = t
        · subst hu
          show Change.AllFit (key u) (Function.update session.pending u _ u) _
          rw [Function.update_self]
          exact (Change.allFit_append c).mpr ⟨current.fits u, fits⟩
        · show Change.AllFit (key u) (Function.update session.pending t _ u) _
          rw [Function.update_of_ne hu]
          exact current.fits u
      · show NoShare u (Change.applyAll (v.session.pending u) _)
        rw [added]
        by_cases hu : u = t
        · subst hu
          show NoShare u (Change.applyAll (Function.update session.pending u _ u) _)
          rw [Function.update_self, Change.applyAll_append]
          exact NoShare.apply (w := ⟨pool.db, session⟩) (current.distinct u) fits verdict
        · show NoShare u (Change.applyAll (Function.update session.pending t _ u) _)
          rw [Function.update_of_ne hu]
          exact current.distinct u

/-- A client stays in order when another one commits. -/
theorem inOrder_of_commit {db : Tables T} {a : Session T} {o : Client T E α}
    (distinct : ∀ t, NoShare t (World.view ⟨db, a⟩ t)) (ho : o.InOrder db)
    (clear : Clear a.pending o.writes) : o.InOrder (World.view ⟨db, a⟩) where
  fits t := by
    have held : Change.AgreeOn (key t) (o.writes.touched t) (db t) (World.view ⟨db, a⟩ t) :=
      clear.agreeOn
    exact (held.applyAll (ho.fits t) fun _ h => h).1
  distinct t := clear.noShare (ho.fits t) (distinct t) (ho.distinct t)
  orderly := ho.orderly

theorem unused_of_view {db : Tables T} {session : Session T} {writes : List (Writes T)}
    {id : RowId T} (unused : Unused db writes id) (own : session.pending ∈ writes) {t : T}
    {r : Row t} (hr : r ∈ World.view ⟨db, session⟩ t) : key t r ≠ id := by
  rcases Change.mem_applyAll hr with old | ⟨c, hc, new⟩
  · exact ((unused t).1 r old).1
  · exact ((unused t).2 _ own c hc r new).1

/-- Every step keeps the order. -/
theorem Step.inOrder {p p' : Pool T E α} (step : Step allowed p p') (h : p.InOrder) :
    p'.InOrder := by
  cases step with
  | find looked =>
      refine h.replace ?_ (pairwise_middle.mp h.clear).1
      exact ⟨h.current.fits, h.current.distinct, h.current.orderly⟩
  | leave finished =>
      exact h.replace (h.idle rfl h.current.orderly) fun o _ => clear_nil _
  | @perform db before after log s k session found r w ready fresh may answered clear =>
      have orderly := h.current.orderly.1
      have rest := h.current.orderly.2 r
      have world : w = (World.exec (s.narrow (found.getD [])) ⟨db, session⟩).2 := by
        rw [← World.execOn_world, answered]
      by_cases committing : s = .commit
      · subst committing
        have apart := (pairwise_middle.mp h.clear).1
        rcases World.exec_commit (T := T) ⟨db, session⟩ with ⟨_, empty, here, _⟩ | ⟨_, here, left⟩
        · rw [← show w = (World.exec .commit ⟨db, session⟩).2 from world] at empty here
          have others : ∀ o ∈ before ++ after, o.InOrder w.db := fun o ho => by
            rw [here]
            exact inOrder_of_commit h.current.distinct (h.others o ho) (apart o ho)
          have stored : InOrder ⟨w.db, before ++ after, log⟩ := by
            refine ⟨fun t => ?_, fun t => ?_, others, (pairwise_middle.mp h.clear).2⟩
            · rw [here]
              exact Change.nodup_applyAll (h.keyed t) (h.current.fits t)
            · rw [here]
              exact h.current.distinct t
          exact
            { keyed := stored.keyed
              distinct := stored.distinct
              clients := forall_mem_middle.mpr ⟨stored.idle empty rest, others⟩
              clear := pairwise_middle.mpr ⟨clear, stored.clear⟩ }
        · rw [← show w = (World.exec .commit ⟨db, session⟩).2 from world] at here left
          rw [here]
          refine h.replace ?_ clear
          rcases left with empty | same
          · exact h.idle empty rest
          · exact inOrder_of_leaves h rfl h.current orderly rest (fun _ _ => nofun) (.kept same)
      · have db_eq : w.db = db := by
          rw [world]
          exact World.exec_db (fun eq => committing (Stmt.narrow_eq_commit.mp eq)) _
        have leaves := World.exec_leaves (w := ⟨db, session⟩)
          (fun eq => committing (Stmt.narrow_eq_commit.mp eq)) (orderly.narrow (found.getD []))
        rw [← world] at leaves
        rw [db_eq]
        refine h.replace (inOrder_of_leaves h rfl h.current (orderly.narrow _) rest ?_ leaves) clear
        intro t make inserts r hr
        have inserting : s = .insert t make := by
          cases s <;> first | exact inserts | cases inserts
        have own : session.pending ∈ (before ++ (⟨.op s k, session, found⟩ : Client T E α) ::
            after).map Client.writes :=
          List.mem_map.mpr ⟨_, List.mem_append_right _ List.mem_cons_self, rfl⟩
        exact unused_of_view (fresh t make inserting) own hr

/-- Every reachable pool is in order. -/
theorem Run.inOrder {p p' : Pool T E α} (run : Run allowed p p') (h : p.InOrder) : p'.InOrder := by
  induction run with
  | refl => exact h
  | tail _ step ih => exact step.inOrder ih

end Pool

end EspressoLogs.Lib
