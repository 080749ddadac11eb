import EspressoLogs.DualWrite
import EspressoLogs.Runs

/-!
What an upsert comes to.

Whether an upsert goes through is a matter of the rows and of the row dictionary
(`SheetsEntity.Accepts`): it changes the one row of the household that has the
id, or adds one when there is none and nobody else holds the id either. An
upsert that returns has committed, so its context is gone.
-/

namespace EspressoLogs

open Lib Py

variable {t : Table} {h : Uuid} {w w' : World Table} {row : Dict}

/-- A live world whose context is a household that there is. -/
structure Serves (h : Uuid) (w : World Table) : Prop where
  live : w.Live
  context : w.session.context = some h
  household : w.stored (.households, h) = true

/-- The row dictionary names no household. -/
def Dict.Anonymous (row : Dict) : Prop :=
  parseUuid ((row.get "household_id").or (row.get "Household_ID")) = .ok none

theorem run_rowHouseholdIdOrContext (anonymous : Dict.Anonymous row) (hw : w.Live) :
    (rowHouseholdIdOrContext row).run w = (.ok w.session.context, w) := by
  unfold rowHouseholdIdOrContext
  rw [anonymous]
  exact run_currentSetting hw

theorem rowHouseholdIdOrContext_firm (row : Dict) : (rowHouseholdIdOrContext row).Firm := by
  unfold rowHouseholdIdOrContext
  refine .bind (.liftExcept _) fun owner => ?_
  cases owner with
  | none => exact .ask .currentSetting trivial
  | some h => exact .pure _

/-! ### New rows -/

section New

variable {sheetsId : t.Row → Option String}
  (entries_eq : ∀ r, t.entries r = ((sheetsId r).map (.sheetsId t)).toList)

include entries_eq

theorem mem_entries {r : t.Row} {x : UniqueEntry} :
    x ∈ t.entries r ↔ ∃ s, sheetsId r = some s ∧ x = .sheetsId t s := by
  rw [entries_eq, Option.mem_toList, Option.map_eq_some_iff]
  constructor
  · rintro ⟨s, hs, rfl⟩
    exact ⟨s, hs, rfl⟩
  · rintro ⟨s, hs, rfl⟩
    exact ⟨s, hs, rfl⟩

theorem entries_nodup (r : t.Row) : (t.entries r).Nodup := by
  rw [entries_eq]
  cases sheetsId r <;> simp

/-- A new row of the household is let in exactly when no row, whoever's it is,
holds its id. -/
theorem refused_new_iff (serves : Serves h w) {r : t.Row} (owner : t.householdId r = some h)
    (parents : t.parents r = Table.reference .households (some h)) :
    w.refused t (.ins r) = none ↔
      ∀ r₂ ∈ w.view t, ∀ s, sheetsId r = some s → sheetsId r₂ ≠ some s := by
  rw [World.refused_eq_none]
  constructor
  · rintro ⟨_, free, _⟩ r₂ hr₂ s hs held
    have taken : w.taken t (.sheetsId t s) = true :=
      List.any_eq_true.mpr ⟨r₂, hr₂, decide_eq_true ((mem_entries entries_eq).mpr ⟨s, held, rfl⟩)⟩
    rw [free _ ((mem_entries entries_eq).mpr ⟨s, hs, rfl⟩)] at taken
    cases taken
  · intro free
    refine ⟨fun r' hr' => ?_, fun x hx => ?_, entries_nodup entries_eq r, fun ref href => ?_⟩
    · rw [List.mem_singleton.mp hr', serves.context]
      simp [sees, Schema.owner, owner]
    · obtain ⟨s, hs, rfl⟩ := (mem_entries entries_eq).mp hx
      refine List.any_eq_false.mpr fun r₂ hr₂ held => free r₂ hr₂ s hs ?_
      obtain ⟨s₂, hs₂, same⟩ := (mem_entries entries_eq).mp (of_decide_eq_true held)
      cases same
      exact hs₂
    · have only : ref = (.households, h) := by
        have mem : ref ∈ t.parents r := href
        rw [parents] at mem
        exact List.mem_singleton.mp mem
      rw [only]
      exact serves.household

end New

/-! ### Flushing -/

theorem flush_firm (t : Table) (old : t.Row) (assign : t.Row → Except StmtError t.Row) :
    (DbM.flush t old assign).Firm := by
  unfold DbM.flush
  split
  · exact .pure ()
  · refine .bind (.ask _ trivial) fun written => ?_
    split
    · exact .throw _
    · exact .pure ()

namespace SheetsEntity

variable (e : SheetsEntity t)

/-! ### The rows decide -/

/-- The rows that an upsert of `row` for household `h` finds. -/
def found (h : Uuid) (rows : List t.Row) (row : Dict) : List t.Row :=
  if (row.get e.idField).truthy then
    (own (T := Table) h t rows).filter fun r => equals (e.sheetsId r) (row.get e.idField)
  else []

/-- Some row, whoever's it is, holds the id of the row dictionary. -/
def IdTaken (rows : List t.Row) (row : Dict) : Prop :=
  ∃ r ∈ rows, ∃ s, asText (row.get e.idField) = .ok (some s) ∧ e.sheetsId r = some s

/-- An upsert of `row` by household `h` goes through. -/
def Accepts (h : Uuid) (rows : List t.Row) (row : Dict) : Prop :=
  match e.found h rows row with
  | [] => (∃ id r, e.make row (some h) id = .ok r) ∧ ¬ e.IdTaken rows row
  | [r] => ∃ r', e.assign row (some h) r = .ok r'
  | _ => False

/-- The rows after an upsert of `row` that goes through; a new row has the row id `id`. -/
def upserted (h : Uuid) (rows : List t.Row) (row : Dict) (id : Uuid) : List t.Row :=
  match e.found h rows row with
  | [] => match e.make row (some h) id with
    | .ok r => rows ++ [r]
    | .error _ => rows
  | r :: _ => match e.assign row (some h) r with
    | .ok r' => rows.map fun x => if x = r then r' else x
    | .error _ => rows

/-! ### Its statements -/

theorem run_existing (row : Dict) (serves : Serves h w) :
    (e.existing row).run w = match e.found h (w.view t) row with
      | [] => (.ok none, w)
      | [r] => (.ok (some r), w)
      | _ => (.error .multipleResults, w) := by
  unfold existing found
  by_cases given : (row.get e.idField).truthy = true
  · rw [if_pos given, if_pos given]
    refine (CodeM.run_bind_ok (run_select serves.live t _)).trans ?_
    rw [visible_eq_own serves.context e.tenantScoped]
    rcases (own (T := Table) h t (w.view t)).filter
      fun r => equals (e.sheetsId r) (row.get e.idField) with _ | ⟨r, _ | ⟨r₂, rs⟩⟩
    · rfl
    · rfl
    · rfl
  · rw [if_neg given, if_neg given]
    rfl

theorem existing_firm (row : Dict) : (e.existing row).Firm := by
  unfold existing
  split
  · exact .bind (.ask _ trivial) .oneOrNone
  · exact .pure none

theorem upsert_firm (row : Dict) : (e.upsert row).Firm := by
  refine .bind (.lift _ (rowHouseholdIdOrContext_firm row)) fun householdId => ?_
  refine .bind (.lift _ (e.existing_firm row)) fun existing => ?_
  cases existing with
  | some r => exact .bind (flush_firm t r _) fun _ => .ask .commit trivial
  | none => exact .bind (.bind (.ask _ trivial) fun _ => .pure _) fun _ => .ask .commit trivial

/-- A new row is let in exactly when nobody holds its id. -/
theorem refused_ins_iff (serves : Serves h w) {id : Uuid} {r : t.Row}
    (made : e.make row (some h) id = .ok r) :
    w.refused t (.ins r) = none ↔ ¬ e.IdTaken (w.view t) row := by
  obtain ⟨_, written, owner, parents⟩ := e.make_eq_ok row (some h) id r made
  rw [refused_new_iff e.entries_eq serves owner parents]
  constructor
  · rintro free ⟨r₂, hr₂, s, hs, held⟩
    rw [written] at hs
    exact free r₂ hr₂ s (Except.ok.inj hs) held
  · intro free r₂ hr₂ s hs held
    exact free ⟨r₂, hr₂, s, by rw [written, hs], held⟩

/-! ### A changed row -/

/-- A row is found by its own primary key, and nothing else is. -/
theorem filter_id_eq {rows : List t.Row} (keyed : t.Keyed rows) {r : t.Row} (hr : r ∈ rows) :
    rows.filter (fun x => t.id x == t.id r) = [r] := by
  induction rows with
  | nil => cases hr
  | cons x xs ih =>
      obtain ⟨new, keyed⟩ := List.nodup_cons.mp keyed
      rcases List.mem_cons.mp hr with rfl | hr
      · have rest : xs.filter (fun x => t.id x == t.id r) = [] := by
          refine List.filter_eq_nil_iff.mpr fun y hy same => new ?_
          rw [← beq_iff_eq.mp same]
          exact List.mem_map_of_mem hy
        simp [rest]
      · have other : (t.id x == t.id r) = false := by
          refine beq_eq_false_iff_ne.mpr fun same => new ?_
          rw [same]
          exact List.mem_map_of_mem hr
        rw [List.filter_cons, other]
        exact ih keyed hr

theorem keyed_own {rows : List t.Row} (keyed : t.Keyed rows) :
    t.Keyed (own (T := Table) h t rows) :=
  List.Nodup.sublist (List.Sublist.map _ List.filter_sublist) keyed

/-- The row that an upsert changes takes its new values. -/
theorem run_flush (serves : Serves h w) (keyed : t.Keyed (w.view t)) {r r' : t.Row}
    (hr : r ∈ own (T := Table) h t (w.view t)) (assigned : e.assign row (some h) r = .ok r') :
    ∃ w₁, (DbM.flush t r (e.assign row (some h))).run w = (.ok (), w₁) ∧ w₁.Live ∧
      w₁.view t = (w.view t).map (fun x => if x = r then r' else x) ∧
      ∀ u, u ≠ t → w₁.view u = w.view u := by
  obtain ⟨sameId, sameSheetsId, owner, parents⟩ := e.assign_eq_ok row (some h) r r' assigned
  have owned : t.householdId r = some h := (mem_own.mp hr).2
  -- an assignment that changes nothing is not flushed
  by_cases same : r' = r
  · refine ⟨w, ?_, serves.live, ?_, fun _ _ => rfl⟩
    · unfold DbM.flush
      rw [if_pos (by rw [assigned, same]; rfl)]
      rfl
    · rw [same]
      refine (List.map_id'' (fun x => ?_) _).symm
      split
      · rename_i eq
        exact eq.symm
      · rfl
  · have matched : (w.visible t).filter (fun x => t.id x == t.id r) = [r] := by
      rw [visible_eq_own serves.context e.tenantScoped]
      exact filter_id_eq (keyed_own keyed) hr
    have pairs : rewritten (e.assign row (some h)) [r] = [(r, r')] := by
      simp [rewritten, assigned, Except.toOption]
    -- neither the id nor the references change, and the row stays in its household
    have verdict : w.refused t (.upd [(r, r')]) = none := by
      rw [World.refused_of_nothing_gained]
      · rw [if_pos]
        rw [serves.context]
        simp [Change.news, sees, Schema.owner, owner]
      · refine World.gained_eq_nil fun x hx => ?_
        rw [List.mem_singleton.mp hx]
        show t.entries r' ⊆ t.entries r
        rw [e.entries_eq, e.entries_eq, sameSheetsId]
        exact List.Subset.refl _
      · refine World.referenced_eq_nil fun x hx => ?_
        rw [List.mem_singleton.mp hx]
        show t.parents r' ⊆ t.parents r
        rw [parents owned]
        exact List.Subset.refl _
    refine ⟨w.pend t (.upd [(r, r')]), ?_, serves.live.pend _ _, ?_, fun u hu => ?_⟩
    · unfold DbM.flush
      rw [if_neg (by rw [assigned]; exact fun eq => same (Option.some.inj eq))]
      have updated : (DbM.update t (fun x => t.id x == t.id r) (e.assign row (some h))).run w =
          (.ok [r'], w.pend t (.upd [(r, r')])) := by
        rw [run_update serves.live, matched, pairs]
        · rfl
        · intro x hx
          rw [matched] at hx
          rw [List.mem_singleton.mp hx, assigned]
          rfl
        · rw [matched, pairs]
          exact verdict
      exact CodeM.run_bind_ok updated
    · rw [World.pend_view_self]
      refine List.map_congr_left fun x _ => ?_
      by_cases hx : x = r
      · simp [hx]
      · simp [hx, List.lookup_cons, beq_eq_false_iff_ne.mpr hx]
    · exact World.pend_view_of_ne w _ hu

theorem assigned_of_flush (serves : Serves h w) {r : t.Row}
    (hr : r ∈ own (T := Table) h t (w.view t))
    (flushed : (DbM.flush t r (e.assign row (some h))).run w = (.ok (), w')) :
    ∃ r', e.assign row (some h) r = .ok r' := by
  cases assigned : e.assign row (some h) r with
  | ok r' => exact ⟨r', rfl⟩
  | error x =>
      have seen : r ∈ (w.visible t).filter (fun y => t.id y == t.id r) := by
        rw [visible_eq_own serves.context e.tenantScoped]
        exact List.mem_filter.mpr ⟨hr, beq_self_eq_true _⟩
      unfold DbM.flush at flushed
      rw [if_neg (by rw [assigned]; exact nofun)] at flushed
      obtain ⟨rows, w₁, updated, _⟩ := CodeM.run_bind_eq_ok flushed
      have fits := (run_update_eq_ok serves.live updated).1 r seen
      rw [assigned] at fits
      cases fits

/-! ### The whole upsert -/

theorem mem_own_of_mem_found {rows : List t.Row} {r : t.Row} (hr : r ∈ e.found h rows row) :
    r ∈ own (T := Table) h t rows := by
  unfold found at hr
  split at hr
  · exact (List.mem_filter.mp hr).1
  · cases hr

/-- An upsert that is accepted is stored, and ends the transaction. -/
theorem upsert_of_accepts (serves : Serves h w) (keyed : t.Keyed (w.view t))
    (anonymous : Dict.Anonymous row) (accepts : e.Accepts h (w.view t) row) :
    ∃ w₁ : World Table, (e.upsert row).run w = (.ok (), w₁.committed) ∧ w₁.Live ∧
      w₁.view t = e.upserted h (w.view t) row w.nextId ∧ ∀ u, u ≠ t → w₁.view u = w.view u := by
  have owner := run_rowHouseholdIdOrContext anonymous serves.live
  rw [serves.context] at owner
  have lifted : CodeM.run (rowHouseholdIdOrContext row : DbM (Option Uuid)) w = _ := owner
  have found := e.run_existing row serves
  unfold Accepts at accepts
  unfold upserted upsert
  rw [CodeM.run_bind_ok lifted]
  cases rows : e.found h (w.view t) row with
  | nil =>
      rw [rows] at found accepts
      obtain ⟨⟨id, r₀, made₀⟩, free⟩ := accepts
      obtain ⟨r, made⟩ := e.make_total row (some h) id r₀ made₀ w.nextId
      have inserted := run_insert serves.live made ((e.refused_ins_iff serves made).mpr free)
      refine ⟨w.drew.pend t (.ins r), ?_, serves.live.drew.pend _ _, ?_, fun u hu => ?_⟩
      · have none : CodeM.run (e.existing row : DbM (Option t.Row)) w = _ := found
        refine CodeM.run_bind_of none ?_
        refine CodeM.run_bind_of (CodeM.run_bind_of inserted rfl) ?_
        exact run_commit (serves.live.drew.pend _ _)
      · rw [World.pend_view_self, made]
        rfl
      · exact World.pend_view_of_ne _ _ hu
  | cons r rest =>
      rw [rows] at found accepts
      cases rest with
      | cons r₂ rest => exact accepts.elim
      | nil =>
          obtain ⟨r', assigned⟩ := accepts
          have mem : r ∈ own (T := Table) h t (w.view t) :=
            e.mem_own_of_mem_found (by rw [rows]; exact List.mem_cons_self)
          obtain ⟨w₁, flushed, live, here, elsewhere⟩ := e.run_flush serves keyed mem assigned
          refine ⟨w₁, ?_, live, ?_, elsewhere⟩
          · have one : CodeM.run (e.existing row : DbM (Option t.Row)) w = _ := found
            refine CodeM.run_bind_of one ?_
            exact CodeM.run_bind_of flushed (run_commit live)
          · simp only [assigned]
            exact here

/-- Only an upsert that is accepted returns. -/
theorem accepts_of_upsert (serves : Serves h w) (anonymous : Dict.Anonymous row)
    (returned : (e.upsert row).run w = (.ok (), w')) : e.Accepts h (w.view t) row := by
  have owner := run_rowHouseholdIdOrContext anonymous serves.live
  rw [serves.context] at owner
  have lifted : CodeM.run (rowHouseholdIdOrContext row : DbM (Option Uuid)) w = _ := owner
  have found : CodeM.run (e.existing row : DbM (Option t.Row)) w = _ := e.run_existing row serves
  unfold upsert at returned
  rw [CodeM.run_bind_ok lifted] at returned
  unfold Accepts
  cases rows : e.found h (w.view t) row with
  | nil =>
      rw [rows] at found
      rw [CodeM.run_bind_ok found] at returned
      obtain ⟨_, _, added, _⟩ := CodeM.run_bind_eq_ok returned
      obtain ⟨r, _, inserted, _⟩ := CodeM.run_bind_eq_ok added
      obtain ⟨made, fits, _⟩ := run_insert_eq_ok serves.live inserted
      exact ⟨⟨_, r, made⟩, (e.refused_ins_iff serves made).mp fits⟩
  | cons r rest =>
      rw [rows] at found
      cases rest with
      | cons r₂ rest =>
          rw [CodeM.run_bind_error found] at returned
          cases returned
      | nil =>
          rw [CodeM.run_bind_ok found] at returned
          have mem : r ∈ own (T := Table) h t (w.view t) :=
            e.mem_own_of_mem_found (by rw [rows]; exact List.mem_cons_self)
          obtain ⟨_, _, flushed, _⟩ := CodeM.run_bind_eq_ok returned
          exact e.assigned_of_flush serves mem flushed

end SheetsEntity

end EspressoLogs
