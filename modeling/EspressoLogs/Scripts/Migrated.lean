import EspressoLogs.Scripts.Migration

/-!
What a run of the migration leaves.

Whatever fails, the table of each entity is left as it was or carries every row of the
sheet that can be mapped (`main_allOrNothing`).
-/

namespace EspressoLogs.Migration

open Lib Py Schema

variable {bound : Bool} {py : Python} {args : Args} {book : Workbook} {householdId : Uuid}
  {ids : Entity.Lookups} {e : Entity} {w w' : Connection bound}

/-! ### Mapped rows -/

section Rows

variable {m : Mapped} {row : Dict}

/-- The key of a mapped row is a text. -/
theorem Entity.Keyed.text (keyed : e.Keyed py householdId row m) :
    m.get "sheets_id" = .text (sheetsIdOf m) := by
  unfold sheetsIdOf
  rw [keyed.sheetsId]

theorem Entity.Keyed.household (keyed : e.Keyed py householdId row m) :
    householdOf m = some householdId := by
  unfold householdOf
  rw [keyed.householdId]

theorem Cell.asUuid_uuid {h : Uuid} {o : Option Uuid} (eq : (Cell.uuid h).asUuid = .ok o) :
    o = some h := by
  cases eq
  rfl

/-- A row that is assigned carries the key of what was mapped. -/
theorem Entity.Assigned.named {r n : e.table.Row} (assigned : e.Assigned m r n)
    (keyed : e.Keyed py householdId row m) : e.sheetsId n = some (sheetsIdOf m) := by
  have text := Cell.eq_of_asText assigned.sheetsId
  rw [keyed.text] at text
  cases same : e.sheetsId n with
  | none =>
      rw [same] at text
      cases text
  | some s =>
      rw [same] at text
      cases text
      rfl

/-- It belongs to the default household. -/
theorem Entity.Assigned.owned {r n : e.table.Row} (assigned : e.Assigned m r n)
    (keyed : e.Keyed py householdId row m) : e.table.householdId n = some householdId :=
  Cell.asUuid_uuid (keyed.householdId ▸ assigned.householdId)

theorem Entity.proposal_named (keyed : e.Keyed py householdId row m) :
    (e.proposal m : Proposal String (⟨e.table⟩ : Reach Table bound)).Named e.sheetsId where
  make _ _ made := (Entity.assigned made).named keyed
  set _ _ set := (Entity.assigned set).named keyed

/-- What cannot be mapped is left out. -/
theorem mem_mappedRows {mapper : Dict → Except MappingError Mapped} {rows : List Dict} :
    m ∈ mappedRows mapper rows ↔ ∃ row ∈ rows, mapper row = .ok m := by
  unfold mappedRows
  rw [List.mem_filterMap]
  refine exists_congr fun row => and_congr_right fun _ => ?_
  cases mapper row with
  | error err =>
      constructor
      · rintro ⟨⟩
      · rintro ⟨⟩
  | ok m' =>
      constructor
      · rintro ⟨⟩
        rfl
      · rintro ⟨⟩
        rfl

/-- What the rows of a sheet become in the table of their entity: each is held, in the row
that had its id if there was one, and rows with other ids stay. -/
structure Carried (e : Entity) (householdId : Uuid) (mapped : List Mapped)
    (rows rows' : List e.table.Row) : Prop where
  distinct : (mapped.map sheetsIdOf).Nodup
  held : ∀ m ∈ mapped, ∃ n ∈ rows', e.sheetsId n = some (sheetsIdOf m) ∧
    e.table.householdId n = some householdId ∧
    (∀ c ∈ e.managed, (m.get c).Stored ((e.columns n).get c)) ∧ e.assign m n = .ok n ∧
    ∀ r ∈ rows, e.sheetsId r = some (sheetsIdOf m) → e.table.id n = e.table.id r
  others : ∀ r, (∀ m ∈ mapped, e.sheetsId r ≠ some (sheetsIdOf m)) → (r ∈ rows' ↔ r ∈ rows)
  unshared : Unshared e.sheetsId rows'

/-- What upserts leave is what the mapped rows carried over say. -/
theorem carried_of_upserted {mapped : List Mapped} {rows rows' : List e.table.Row}
    (keyed : ∀ m ∈ mapped, ∃ row, e.Keyed py householdId row m)
    (distinct : (mapped.map sheetsIdOf).Nodup) (unshared : Unshared e.sheetsId rows)
    (upserted : Upserted (t := (⟨e.table⟩ : Reach Table bound)) e.sheetsId (mapped.map e.proposal)
      rows rows') : Carried e householdId mapped rows rows' where
  distinct := distinct
  held := by
    intro m hm
    obtain ⟨row, keyed⟩ := keyed m hm
    obtain ⟨n, hn, held, origin⟩ := upserted.held _ (List.mem_map_of_mem hm)
    have made : ∃ r, e.assign m r = .ok n ∧
        ∀ r' ∈ rows, e.sheetsId r' = some (sheetsIdOf m) → e.table.id r = e.table.id r' := by
      rcases origin with ⟨r, hr, had, set⟩ | ⟨free, id, made⟩
      · exact ⟨r, set, fun r' hr' had' => congrArg e.table.id (unshared r hr r' hr' _ had had')⟩
      · exact ⟨_, made, fun r' hr' had' => absurd had' (free r' hr')⟩
    obtain ⟨r, assign, kept⟩ := made
    have assigned := Entity.assigned assign
    refine ⟨n, hn, held, assigned.owned keyed, ?_, assigned.again, fun r' hr' had => ?_⟩
    · exact Entity.assign_stored assign keyed.catalogId
    · exact assigned.id.trans (kept r' hr' had)
  others := by
    intro r other
    refine upserted.others r fun p hp => ?_
    obtain ⟨m, hm, rfl⟩ := List.mem_map.mp hp
    exact other m hm
  unshared := upserted.unshared

/-- With no row mapped the table is as it was. -/
theorem carried_nil {rows : List e.table.Row} (unshared : Unshared e.sheetsId rows) :
    Carried e householdId [] rows rows :=
  ⟨List.nodup_nil, fun _ hm => absurd hm List.not_mem_nil, fun _ _ => Iff.rfl, unshared⟩

end Rows

/-! ### One entity -/

/-- Nothing but the table of the entity has changed. -/
def OnlyTable (e : Entity) (w w' : Connection bound) : Prop :=
  ∀ t, t ≠ ⟨e.table⟩ → w'.db t = w.db t

/-- Rows of one household pass the check that they are of one household. -/
theorem singleHouseholdId_eq {rows : List Mapped} (present : rows ≠ [])
    (owned : ∀ m ∈ rows, householdOf m = some householdId) :
    singleHouseholdId rows = .ok (some householdId) := by
  have all : rows.filterMap householdOf = List.replicate rows.length householdId := by
    rw [List.filterMap_congr owned]
    simp
  unfold singleHouseholdId
  rw [all, List.replicate_dedup (List.length_eq_zero_iff.not.mpr present)]

/-- Setting the household changes the context alone. -/
theorem of_setHousehold {u : Unit}
    (h : (ScriptM.setHousehold householdId).runOn w = (.ok u, w')) :
    w' = w.advance.withContext householdId := by
  obtain ⟨_, w₁, ran, ends⟩ := Script.of_bind_ok h
  cases ends
  cases Script.of_plain (by rintro ⟨⟩) ran
  rfl

theorem of_select {t : Table} {p : t.Row → Bool} {rows : List t.Row}
    (h : (ScriptM.select t p).runOn w = (.ok rows, w')) :
    w' = w.advance ∧ rows = (w.visible ⟨t⟩).filter p := by
  cases Script.of_plain (by rintro ⟨⟩) h
  exact ⟨rfl, rfl⟩

theorem of_insert {t : Table} {make : Uuid → t.Row} {r : t.Row}
    (h : (ScriptM.insert t make).runOn w = (.ok r, w')) :
    World.OnlyView (⟨t⟩ : Reach Table bound) w.advance w' ∧ (∃ id, make id = r) ∧
      w'.view ⟨t⟩ = w.view ⟨t⟩ ++ [r] := by
  have written : w.advance.drew.write (⟨t⟩ : Reach Table bound)
      (.ins (make w.advance.nextId)) (make w.advance.nextId) = (.ok r, w') :=
    Script.of_plain (by rintro ⟨⟩) h
  obtain ⟨only, view⟩ := World.of_write (w := w.advance) written
  have same : make w.advance.nextId = r := by
    unfold World.write at written
    split at written
    · cases written
    · cases written
      rfl
  refine ⟨only, ⟨_, same⟩, ?_⟩
  rw [view, same]
  rfl

/-- Either a row stood in the way and none was added, or one was. -/
theorem of_insertUnless {t : Table} {conflicting : t.Row → Bool} {make : Uuid → t.Row}
    {o : Option t.Row} (h : (ScriptM.insertUnless t conflicting make).runOn w = (.ok o, w')) :
    World.OnlyView (⟨t⟩ : Reach Table bound) w.advance w' ∧
      ((o = none ∧ (w.view ⟨t⟩).any conflicting = true ∧ w'.view ⟨t⟩ = w.view ⟨t⟩) ∨
        ∃ id, o = some (make id) ∧ w'.view ⟨t⟩ = w.view ⟨t⟩ ++ [make id]) := by
  have performed : w.insertUnless (t := (⟨t⟩ : Reach Table bound)) conflicting
      (fun id => .ok (make id)) = (.ok o, w') := Script.of_perform h
  obtain ⟨only, none | ⟨r, id, some, made, view⟩⟩ := World.insertUnless_eq_ok performed
  · exact ⟨only, .inl none⟩
  · cases made
    exact ⟨only, .inr ⟨id, some, view⟩⟩

/-- What the transaction of an upsert does. -/
def upsertBody (e : Entity) (householdId : Uuid) (rows : List Mapped) : ScriptM bound Unit := do
  ScriptM.setHousehold householdId
  ScriptM.upsert e (rows.map e.proposal)

/-- Rows of one household are upserted in one transaction. -/
theorem bulkUpsert_eq {rows : List Mapped} (present : rows ≠ [])
    (owned : ∀ m ∈ rows, householdOf m = some householdId) :
    (bulkUpsert e rows : ScriptM bound Nat) = (do
      ScriptM.transaction (upsertBody e householdId rows)
      return rows.length) := by
  unfold bulkUpsert
  rw [if_neg (by simpa using present), singleHouseholdId_eq present owned]
  rfl

theorem uncommitted_upsertBody (e : Entity) (householdId : Uuid) (rows : List Mapped) :
    Script.Uncommitted (upsertBody e householdId rows : ScriptM bound Unit) := by
  refine Prog.All.bind (Prog.All.bind (Script.uncommitted_perform ?_) fun _ => trivial)
    fun _ => Script.uncommitted_perform ?_
  · intro same
    cases same
  · intro same
    cases same

/-- The upsert of an entity either leaves the database as it was and raises, or carries
over all of its rows. -/
theorem of_bulkUpsert {rows : List Mapped} {r : Except Exc Nat} (idle : Script.Idle w)
    (unshared : Unshared e.sheetsId (w.db ⟨e.table⟩))
    (keyed : ∀ m ∈ rows, ∃ row, e.Keyed py householdId row m)
    (h : (bulkUpsert e rows).runOn w = (r, w')) : Script.Idle w' ∧
      ((∃ x, r = .error x ∧ w'.db = w.db) ∨ r = .ok rows.length ∧ OnlyTable e w w' ∧
        Carried e householdId rows (w.db ⟨e.table⟩) (w'.db ⟨e.table⟩)) := by
  by_cases present : rows = []
  · subst present
    cases h
    exact ⟨idle, .inr ⟨rfl, fun _ _ => rfl, carried_nil unshared⟩⟩
  · have owned : ∀ m ∈ rows, householdOf m = some householdId := by
      intro m hm
      obtain ⟨row, keyed⟩ := keyed m hm
      exact keyed.household
    rw [bulkUpsert_eq present owned] at h
    have kept : Script.Uncommitted (upsertBody e householdId rows : ScriptM bound Unit) :=
      uncommitted_upsertBody e householdId rows
    rcases Script.of_bind h with ⟨u, w₁, ran, ends⟩ | ⟨x, ran, rfl⟩
    · cases ends
      obtain ⟨idle', ⟨x, none, _⟩ | ⟨_, w₂, _, body, db⟩⟩ := Script.of_transaction kept ran
      · cases none
      · obtain ⟨_, w₃, set, upserts⟩ := Script.of_bind_ok body
        cases of_setHousehold set
        have viewed : (w.advance.withContext householdId).view = w.db := idle.view
        have named : ∀ p ∈ rows.map e.proposal,
            (p : Proposal String (⟨e.table⟩ : Reach Table bound)).Named e.sheetsId := by
          intro p hp
          obtain ⟨m, hm, rfl⟩ := List.mem_map.mp hp
          obtain ⟨row, keyed⟩ := keyed m hm
          exact Entity.proposal_named keyed
        obtain ⟨_, distinct, only, upserted⟩ := World.upsert_eq_ok named (viewed ▸ unshared)
          (Script.of_perform upserts)
        rw [viewed] at upserted
        rw [List.map_map] at distinct
        refine ⟨idle', .inr ⟨rfl, fun t other => ?_, ?_⟩⟩
        · rw [db, only.views t other]
          exact congrFun viewed t
        · rw [db]
          exact carried_of_upserted keyed distinct unshared upserted
    · obtain ⟨idle', ⟨_, _, same⟩ | ⟨_, _, none, _⟩⟩ := Script.of_transaction kept ran
      · exact ⟨idle', .inl ⟨x, rfl, same⟩⟩
      · cases none

theorem run_upsertRows {mapped : List Mapped} {errors n : Nat}
    (h : (bulkUpsert e mapped).runOn w = (.ok n, w')) :
    (upsertRows e mapped errors).runOn w = (.ok [⟨e, mapped.length, n, errors⟩], w') :=
  Script.run_catch_ok (Prog.run_bind_ok h)

/-- A failed upsert is counted, and does not stop the run. -/
theorem run_upsertRows_error {mapped : List Mapped} {errors : Nat} {x : Exc}
    (h : (bulkUpsert e mapped).runOn w = (.error x, w')) :
    (upsertRows e mapped errors).runOn w = (.ok [⟨e, mapped.length, 0, errors + 1⟩], w') :=
  Script.run_catch_error (Prog.run_bind_error h)

variable (py args book householdId ids e w w') in
/-- What becomes of an entity, and what is reported of it. -/
inductive Migrated : Except Exc (List Outcome) → Prop where
  | raised (x : Exc) (same : w'.db = w.db) : Migrated (.error x)
  | unselected (other : args.selects e = false) (same : w'.db = w.db) : Migrated (.ok [])
  | rehearsed (dry : args.dryRun = true) (same : w'.db = w.db) (outcomes : List Outcome) :
      Migrated (.ok outcomes)
  | failed (same : w'.db = w.db) {outcomes : List Outcome} (errors : complete outcomes = false) :
      Migrated (.ok outcomes)
  | carried (selected : args.selects e = true) (wet : args.dryRun = false) {rows : List Dict}
      (read : book e = .ok rows) (only : OnlyTable e w w')
      (carried : Carried e householdId (mappedRows (e.map py householdId ids) rows)
        (w.db ⟨e.table⟩) (w'.db ⟨e.table⟩)) :
      Migrated (.ok [⟨e, (mappedRows (e.map py householdId ids) rows).length,
        (mappedRows (e.map py householdId ids) rows).length,
        skipped (e.map py householdId ids) rows⟩])

theorem keyed_of_mappedRows {rows : List Dict} :
    ∀ m ∈ mappedRows (e.map py householdId ids) rows, ∃ row, e.Keyed py householdId row m := by
  intro m hm
  obtain ⟨row, _, mapped⟩ := mem_mappedRows.mp hm
  exact ⟨row, Entity.map_keyed mapped⟩

/-- What the migration of one entity does, however it ends. -/
theorem of_migrate {r : Except Exc (List Outcome)} (idle : Script.Idle w)
    (unshared : Unshared e.sheetsId (w.db ⟨e.table⟩))
    (h : (migrate py args book householdId ids e).runOn w = (r, w')) :
    Script.Idle w' ∧ Migrated py args book householdId ids e w w' r := by
  unfold migrate at h
  by_cases selected : args.selects e = true
  · rw [if_pos selected] at h
    cases read : book e with
    | error x =>
        rw [read] at h
        cases h
        exact ⟨idle, .raised x rfl⟩
    | ok rows =>
        rw [read] at h
        by_cases dry : args.dryRun = true
        · rw [dry] at h
          cases h
          exact ⟨idle, .rehearsed dry rfl _⟩
        · rw [Bool.eq_false_iff.mpr dry] at h
          cases upserts : (bulkUpsert e (mappedRows (e.map py householdId ids) rows)).runOn w with
          | mk x w₁ =>
              obtain ⟨idle', ⟨y, rfl, same⟩ | ⟨rfl, only, carried⟩⟩ :=
                of_bulkUpsert idle unshared keyed_of_mappedRows upserts
              · cases (run_upsertRows_error upserts).symm.trans h
                refine ⟨idle', .failed same ?_⟩
                simp [complete]
              · cases (run_upsertRows upserts).symm.trans h
                exact ⟨idle', .carried selected (Bool.eq_false_iff.mpr dry) read only carried⟩
  · rw [if_neg selected] at h
    cases h
    exact ⟨idle, .unselected (Bool.eq_false_iff.mpr selected) rfl⟩

/-! ### Lookups -/

/-- The row ids that the role finds, by the ids of the sheets. -/
def found (householdId : Uuid) (db : Tables (Reach Table bound)) : Entity.Lookups := fun e =>
  e.idsBy (((db ⟨e.table⟩).filter (sees (some householdId) (⟨e.table⟩ : Reach Table bound))).filter
    fun r => (e.sheetsId r).isSome)

/-- What the transaction of a lookup does. -/
def lookupBody (householdId : Uuid) (dryRun : Bool) (e : Entity) :
    ScriptM bound (List (String × Uuid)) := do
  unless dryRun do
    ScriptM.setHousehold householdId
  let rows ← ScriptM.select e.table fun r => (e.sheetsId r).isSome
  return e.idsBy rows

theorem uncommitted_lookupBody (householdId : Uuid) (dryRun : Bool) (e : Entity) :
    Script.Uncommitted (lookupBody householdId dryRun e : ScriptM bound (List (String × Uuid))) := by
  have selects : ∀ u : Unit, Script.Uncommitted (do
      let rows ← ScriptM.select e.table fun r => (e.sheetsId r).isSome
      return e.idsBy rows : ScriptM bound (List (String × Uuid))) :=
    fun _ => Prog.All.bind (Script.uncommitted_perform (by rintro ⟨⟩)) fun _ => trivial
  cases dryRun with
  | true => exact selects ()
  | false =>
      refine Prog.All.bind (Prog.All.bind (Script.uncommitted_perform ?_) fun _ => trivial) selects
      rintro ⟨⟩

/-- The ids are read, and nothing is written. -/
theorem of_lookupIds {dryRun : Bool} {r : Except Exc (List (String × Uuid))}
    (h : (lookupIds householdId dryRun e).runOn w = (r, w')) (idle : Script.Idle w) :
    Script.Idle w' ∧ w'.db = w.db ∧
      ∀ l, r = .ok l → dryRun = false → l = found householdId w.db e := by
  have kept := @uncommitted_lookupBody bound householdId dryRun e
  obtain ⟨idle', ⟨x, rfl, same⟩ | ⟨l, w₁, rfl, body, db⟩⟩ := Script.of_transaction kept h
  · exact ⟨idle', same, fun _ none => by cases none⟩
  · cases dryRun with
    | true =>
        obtain ⟨rows, w₂, selects, ends⟩ := Script.of_bind_ok (p := ScriptM.select _ _) body
        cases ends
        obtain ⟨rfl, -⟩ := of_select selects
        exact ⟨idle', db.trans idle.view, fun _ _ none => by cases none⟩
    | false =>
        obtain ⟨_, w₂, sets, body⟩ := Script.of_bind_ok (p := ScriptM.setHousehold _) body
        cases of_setHousehold sets
        obtain ⟨rows, w₃, selects, ends⟩ := Script.of_bind_ok (p := ScriptM.select _ _) body
        cases ends
        obtain ⟨rfl, rfl⟩ := of_select selects
        have viewed : (w.advance.withContext householdId).view = w.db := idle.view
        refine ⟨idle', db.trans viewed, fun l same _ => ?_⟩
        cases same
        unfold World.visible
        rw [viewed]
        rfl

/-! ### One entity after the other -/

/-- Two entities do not share a table. -/
theorem Entity.table_injective {e e' : Entity} (h : e.table = e'.table) : e = e' := by
  cases e <;> cases e' <;> first | rfl | cases h

theorem reach_ne {e e' : Entity} (h : e ≠ e') :
    (⟨e.table⟩ : Reach Table bound) ≠ ⟨e'.table⟩ := by
  intro same
  exact h (Entity.table_injective (congrArg Reach.table same))

/-- Only the table of the entity changes. -/
theorem Migrated.only {r : Except Exc (List Outcome)}
    (migrated : Migrated py args book householdId ids e w w' r) : OnlyTable e w w' := by
  cases migrated with
  | raised x same => exact fun t _ => congrFun same t
  | unselected other same => exact fun t _ => congrFun same t
  | rehearsed dry same outcomes => exact fun t _ => congrFun same t
  | failed same errors => exact fun t _ => congrFun same t
  | carried selected wet read only carried => exact only

/-- The table of an entity is as it was, or it carries the rows of its sheet. -/
def AllOrNothing (py : Python) (args : Args) (book : Workbook) (householdId : Uuid) (e : Entity)
    (rows rows' : List e.table.Row) : Prop :=
  rows' = rows ∨ args.selects e = true ∧ args.dryRun = false ∧ ∃ sheet ids, book e = .ok sheet ∧
    Carried e householdId (mappedRows (e.map py householdId ids) sheet) rows rows'

/-- All of its mapped rows are there, or none of them. -/
theorem Migrated.allOrNothing {r : Except Exc (List Outcome)}
    (migrated : Migrated py args book householdId ids e w w' r) :
    AllOrNothing py args book householdId e (w.db ⟨e.table⟩) (w'.db ⟨e.table⟩) := by
  cases migrated with
  | raised x same => exact .inl (congrFun same _)
  | unselected other same => exact .inl (congrFun same _)
  | rehearsed dry same outcomes => exact .inl (congrFun same _)
  | failed same errors => exact .inl (congrFun same _)
  | carried selected wet read only carried => exact .inr ⟨selected, wet, _, _, read, carried⟩

/-- Either way, no key is stored twice. -/
theorem AllOrNothing.unshared {rows rows' : List e.table.Row}
    (h : AllOrNothing py args book householdId e rows rows') (unshared : Unshared e.sheetsId rows) :
    Unshared e.sheetsId rows' := by
  rcases h with rfl | ⟨_, _, _, _, _, carried⟩
  · exact unshared
  · exact carried.unshared

/-- No two rows of a table of the sheets have an id of the sheet in common. -/
def SheetsIndexed (db : Tables (Reach Table bound)) : Prop :=
  ∀ e : Entity, Unshared e.sheetsId (db ⟨e.table⟩)

/-- The lookup that follows an entity changes nothing. -/
theorem of_lookupAfter {r : Except Exc Entity.Lookups} (idle : Script.Idle w)
    (h : (lookupAfter args householdId ids e).runOn w = (r, w')) :
    Script.Idle w' ∧ w'.db = w.db ∧ ∀ ids', r = .ok ids' → args.dryRun = false →
      (∀ e' ≠ e, ids' e' = ids e') ∧ (e.isReferred = true → ids' e = found householdId w.db e) := by
  unfold lookupAfter at h
  by_cases referred : e.isReferred = true
  · rw [if_pos referred] at h
    rcases Script.of_bind h with ⟨l, w₁, looks, ends⟩ | ⟨x, looks, rfl⟩
    · cases ends
      obtain ⟨idle', same, right⟩ := of_lookupIds looks idle
      refine ⟨idle', same, fun ids' eq wet => ?_⟩
      cases eq
      refine ⟨fun e' other => Function.update_of_ne other _ _, fun _ => ?_⟩
      rw [Function.update_self]
      exact right l rfl wet
    · obtain ⟨idle', same, _⟩ := of_lookupIds looks idle
      exact ⟨idle', same, fun _ none => by cases none⟩
  · rw [if_neg referred] at h
    cases h
    refine ⟨idle, rfl, fun ids' eq _ => ?_⟩
    cases eq
    exact ⟨fun _ _ => rfl, fun also => absurd also referred⟩

/-- So the unique indexes stay as they should be. -/
theorem Migrated.indexed {r : Except Exc (List Outcome)} (indexed : SheetsIndexed w.db)
    (migrated : Migrated py args book householdId ids e w w' r) : SheetsIndexed w'.db := by
  intro e'
  by_cases same : e' = e
  · subst same
    exact migrated.allOrNothing.unshared (indexed e')
  · rw [migrated.only _ (reach_ne same)]
    exact indexed e'

/-- The tables of some entities may carry their sheets, the others are as they were. -/
structure Each (py : Python) (args : Args) (book : Workbook) (householdId : Uuid)
    (es : List Entity) (db db' : Tables (Reach Table bound)) : Prop where
  others : ∀ t, (∀ e ∈ es, t ≠ ⟨e.table⟩) → db' t = db t
  each : ∀ e ∈ es, AllOrNothing py args book householdId e (db ⟨e.table⟩) (db' ⟨e.table⟩)

theorem Each.refl (es : List Entity) (db : Tables (Reach Table bound)) :
    Each py args book householdId es db db := ⟨fun _ _ => rfl, fun _ _ => .inl rfl⟩

/-- The first of the entities is left alone by those behind it. -/
theorem Each.cons {rest : List Entity} {r : Except Exc (List Outcome)}
    {db : Tables (Reach Table bound)} (fresh : e ∉ rest)
    (migrated : Migrated py args book householdId ids e w w' r)
    (others : Each py args book householdId rest w'.db db) :
    Each py args book householdId (e :: rest) w.db db where
  others := by
    intro t away
    rw [others.others t fun e' he' => away e' (List.mem_cons_of_mem _ he')]
    exact migrated.only t (away e List.mem_cons_self)
  each := by
    intro e' he'
    rcases List.mem_cons.mp he' with rfl | he'
    · rw [others.others _ fun e'' he'' => reach_ne fun same => fresh (by rwa [same])]
      exact migrated.allOrNothing
    · rw [← migrated.only _ (reach_ne fun same => fresh (same ▸ he'))]
      exact others.each e' he'

/-- Whatever fails. -/
theorem of_migrateAll {es : List Entity} {r : Except Exc (List Outcome)} (distinct : es.Nodup)
    (idle : Script.Idle w) (indexed : SheetsIndexed w.db)
    (h : (migrateAll py args book householdId ids es).runOn w = (r, w')) :
    Each py args book householdId es w.db w'.db := by
  induction es generalizing w ids r with
  | nil =>
      cases h
      exact .refl _ _
  | cons e rest ih =>
      obtain ⟨fresh, distinct⟩ := List.nodup_cons.mp distinct
      rcases Script.of_bind h with ⟨outcome, w₁, migrates, h⟩ | ⟨x, migrates, rfl⟩
      · obtain ⟨idle₁, migrated⟩ := of_migrate idle (indexed e) migrates
        rcases Script.of_bind h with ⟨ids', w₂, looks, h⟩ | ⟨x, looks, rfl⟩
        · obtain ⟨idle₂, same, _⟩ := of_lookupAfter idle₁ looks
          have ends : ∃ r', (migrateAll py args book householdId ids' rest).runOn w₂ = (r', w') := by
            rcases Script.of_bind h with ⟨_, _, goesOn, ends⟩ | ⟨_, goesOn, _⟩
            · cases ends
              exact ⟨_, goesOn⟩
            · exact ⟨_, goesOn⟩
          obtain ⟨r', goesOn⟩ := ends
          have others := ih distinct idle₂ (same ▸ migrated.indexed indexed) goesOn
          rw [same] at others
          exact .cons fresh migrated others
        · obtain ⟨_, same, _⟩ := of_lookupAfter idle₁ looks
          rw [same]
          exact .cons fresh migrated (.refl _ _)
      · exact .cons fresh (of_migrate idle (indexed e) migrates).2 (.refl _ _)

/-! ### The seed -/

/-- The rows of `users`. -/
def usersOf (db : Tables (Reach Table bound)) : List User := db ⟨.users⟩

/-- The rows of `households`. -/
def householdsOf (db : Tables (Reach Table bound)) : List Household := db ⟨.households⟩

/-- The rows as they were, or with one more that satisfies `p`. -/
def Seeded {R : Type} (p : R → Bool) (rows rows' : List R) : Prop :=
  rows' = rows ∨ ∃ r, p r = true ∧ rows' = rows ++ [r]

theorem uncommitted_findSystemUser :
    Script.Uncommitted (findSystemUser : ScriptM bound Uuid) := by
  refine Prog.All.bind (Script.uncommitted_perform (by rintro ⟨⟩)) fun inserted => ?_
  cases inserted with
  | some user => trivial
  | none =>
      refine Prog.All.bind (Script.uncommitted_perform (by rintro ⟨⟩)) fun users => ?_
      cases (users : List User).head? with
      | some user => trivial
      | none => trivial

theorem uncommitted_findDefaultHousehold (systemUserId : Uuid) :
    Script.Uncommitted (findDefaultHousehold py systemUserId : ScriptM bound Uuid) := by
  refine Prog.All.bind (Script.uncommitted_perform (by rintro ⟨⟩)) fun households => ?_
  cases (households : List Household).head? with
  | some household => trivial
  | none => exact Prog.All.bind (Script.uncommitted_perform (by rintro ⟨⟩)) fun _ => trivial

theorem isSystem_systemUser (id : Uuid) : isSystem (systemUser id) = true := beq_self_eq_true _

theorem isDefault_defaultHousehold (now : Timestamp) (createdBy id : Uuid) :
    isDefault (defaultHousehold now createdBy id) = true := beq_self_eq_true _

/-- The system user is there afterwards, and was added only if it was missing. -/
theorem of_ensureSystemUser {r : Except Exc Uuid} (idle : Script.Idle w)
    (h : (ensureSystemUser : ScriptM bound Uuid).runOn w = (r, w')) : Script.Idle w' ∧
      (∀ t, t ≠ ⟨.users⟩ → w'.db t = w.db t) ∧
      Seeded isSystem (usersOf w.db) (usersOf w'.db) ∧
      ∀ id, r = .ok id → (usersOf w'.db).any isSystem = true := by
  obtain ⟨idle', ⟨x, rfl, same⟩ | ⟨id, w₁, rfl, body, db⟩⟩ :=
    Script.of_transaction uncommitted_findSystemUser h
  · refine ⟨idle', fun t _ => congrFun same t, .inl ?_, fun _ none => by cases none⟩
    rw [usersOf, same]
    rfl
  · obtain ⟨inserted, w₂, inserts, rest⟩ := Script.of_bind_ok body
    have before : w.advance.view = w.db := idle.view
    obtain ⟨only, ⟨rfl, conflict, viewed⟩ | ⟨id', rfl, viewed⟩⟩ := of_insertUnless inserts
    · obtain ⟨users, w₃, selects, rest⟩ := Script.of_bind_ok (p := ScriptM.select _ _) rest
      obtain ⟨rfl, -⟩ := of_select selects
      have same : w₁ = w₂.advance := by
        cases first : users.head? with
        | some user =>
            rw [first] at rest
            cases rest
            rfl
        | none =>
            rw [first] at rest
            cases rest
      have all : w'.db = w₂.view := by
        rw [db, same]
        rfl
      have kept : usersOf w'.db = usersOf w.db :=
        (congrFun all _).trans (viewed.trans (congrFun idle.view _))
      refine ⟨idle', fun t other => ?_, .inl kept, fun _ _ => ?_⟩
      · rw [all, only.views t other]
        exact congrFun before t
      · rw [kept]
        exact (congrArg (List.any · isSystem) (congrFun idle.view _)).symm.trans conflict
    · cases rest
      have added : usersOf w'.db = usersOf w.db ++ [systemUser id'] :=
        (congrFun db _).trans (viewed.trans (congrArg (· ++ _) (congrFun idle.view _)))
      refine ⟨idle', fun t other => ?_, .inr ⟨_, isSystem_systemUser id', added⟩, fun _ _ => ?_⟩
      · rw [db, only.views t other]
        exact congrFun before t
      · rw [added, List.any_append]
        simp [isSystem_systemUser]

/-- So is the default household, whose id is returned. -/
theorem of_ensureDefaultHousehold {systemUserId : Uuid} {r : Except Exc Uuid} (idle : Script.Idle w)
    (h : (ensureDefaultHousehold py systemUserId).runOn w = (r, w')) : Script.Idle w' ∧
      (∀ t, t ≠ ⟨.households⟩ → w'.db t = w.db t) ∧
      Seeded isDefault (householdsOf w.db) (householdsOf w'.db) ∧
      ∀ id, r = .ok id → ((householdsOf w'.db).filter isDefault).head?.map Household.id = some id := by
  obtain ⟨idle', ⟨x, rfl, same⟩ | ⟨id, w₁, rfl, body, db⟩⟩ :=
    Script.of_transaction (uncommitted_findDefaultHousehold systemUserId) h
  · refine ⟨idle', fun t _ => congrFun same t, .inl ?_, fun _ none => by cases none⟩
    rw [householdsOf, same]
    rfl
  · obtain ⟨households, w₂, selects, rest⟩ := Script.of_bind_ok (p := ScriptM.select _ _) body
    obtain ⟨rfl, seen⟩ := of_select selects
    have before : w.advance.view = w.db := idle.view
    have listed : households = (householdsOf w.db).filter isDefault := by
      rw [seen, World.visible_of_unsecured (by cases bound <;> rfl)]
      exact congrArg (List.filter isDefault) (congrFun idle.view _)
    cases first : households.head? with
    | some household =>
        rw [first] at rest
        cases rest
        have all : w'.db = w.db := db.trans before
        refine ⟨idle', fun t _ => congrFun all t, .inl (congrFun all _), fun id eq => ?_⟩
        cases eq
        rw [show householdsOf w'.db = householdsOf w.db from congrFun all _, ← listed, first]
        rfl
    | none =>
        rw [first] at rest
        obtain ⟨household, w₃, inserts, rest⟩ := Script.of_bind_ok (p := ScriptM.insert _ _) rest
        cases rest
        obtain ⟨only, ⟨id', rfl⟩, viewed⟩ := of_insert inserts
        have added : householdsOf w'.db =
            householdsOf w.db ++ [defaultHousehold py.now systemUserId id'] :=
          (congrFun db _).trans (viewed.trans (congrArg (· ++ _) (congrFun idle.view _)))
        have isOne := isDefault_defaultHousehold py.now systemUserId id'
        refine ⟨idle', fun t other => ?_, .inr ⟨_, isOne, added⟩, fun id eq => ?_⟩
        · rw [db, only.views t other]
          exact congrFun before t
        · cases eq
          rw [added, List.filter_append, ← listed, List.head?_eq_none_iff.mp first,
            List.filter_cons_of_pos isOne]
          rfl

/-! ### A run -/

/-- What a run leaves, whatever fails in it. -/
structure Left (py : Python) (args : Args) (book : Workbook) (householdId : Uuid)
    (db db' : Tables (Reach Table bound)) : Prop where
  each : ∀ e : Entity, AllOrNothing py args book householdId e (db ⟨e.table⟩) (db' ⟨e.table⟩)
  users : Seeded isSystem (usersOf db) (usersOf db')
  households : Seeded isDefault (householdsOf db) (householdsOf db')
  others : ∀ t : Table, t.tenantScoped = false → t ≠ .users → t ≠ .households → db' ⟨t⟩ = db ⟨t⟩

/-- The system user and the default household are there. -/
structure Furnished (householdId : Uuid) (db : Tables (Reach Table bound)) : Prop where
  user : (usersOf db).any isSystem = true
  household : ((householdsOf db).filter isDefault).head?.map Household.id = some householdId

/-- The two together; after a dry run, nothing is known of the id. -/
theorem of_seed {dryRun : Bool} {r : Except Exc Uuid} (idle : Script.Idle w)
    (h : (seed py dryRun).runOn w = (r, w')) : Script.Idle w' ∧
      (∀ t, t ≠ ⟨.users⟩ → t ≠ ⟨.households⟩ → w'.db t = w.db t) ∧
      Seeded isSystem (usersOf w.db) (usersOf w'.db) ∧
      Seeded isDefault (householdsOf w.db) (householdsOf w'.db) ∧
      ∀ id, r = .ok id → dryRun = false → Furnished id w'.db := by
  unfold seed at h
  by_cases dry : dryRun = true
  · rw [if_pos dry] at h
    cases h
    exact ⟨idle, fun _ _ _ => rfl, .inl rfl, .inl rfl, fun _ _ wet => by rw [dry] at wet; cases wet⟩
  · rw [if_neg dry] at h
    rcases Script.of_bind h with ⟨userId, w₁, user, household⟩ | ⟨x, user, rfl⟩
    · obtain ⟨idle₁, others₁, users, system⟩ := of_ensureSystemUser idle user
      obtain ⟨idle', others, households, default⟩ := of_ensureDefaultHousehold idle₁ household
      have sameHouseholds : householdsOf w₁.db = householdsOf w.db := others₁ _ (by rintro ⟨⟩)
      have sameUsers : usersOf w'.db = usersOf w₁.db := others _ (by rintro ⟨⟩)
      refine ⟨idle', fun t notUsers notHouseholds => ?_, sameUsers ▸ users,
        sameHouseholds ▸ households, fun id eq _ => ⟨sameUsers ▸ system userId rfl, default id eq⟩⟩
      exact (others t notHouseholds).trans (others₁ t notUsers)
    · obtain ⟨idle', others, users, _⟩ := of_ensureSystemUser idle user
      have sameHouseholds : householdsOf w'.db = householdsOf w.db := others _ (by rintro ⟨⟩)
      exact ⟨idle', fun t notUsers _ => others t notUsers, users, .inl sameHouseholds,
        fun _ none => by cases none⟩

theorem Entity.mem_all (e : Entity) : e ∈ all := by
  cases e <;> decide

theorem entity_ne {t : Table} (shared : t.tenantScoped = false) (e : Entity) :
    (⟨t⟩ : Reach Table bound) ≠ ⟨e.table⟩ := by
  intro same
  cases congrArg Reach.table same
  cases e <;> cases shared

/-- A run leaves the indexes as they should be. -/
theorem Left.indexed {db db' : Tables (Reach Table bound)} (left : Left py args book householdId db db')
    (indexed : SheetsIndexed db) : SheetsIndexed db' :=
  fun e => (left.each e).unshared (indexed e)

/-- The seed adds one user and one household at most, the entities change their own tables. -/
theorem of_main {r : Except Exc (List Outcome)} (idle : Script.Idle w) (indexed : SheetsIndexed w.db)
    (h : (main py args book).runOn w = (r, w')) :
    ∃ householdId, Left py args book householdId w.db w'.db := by
  rcases Script.of_bind h with ⟨householdId, w₁, seeds, migrates⟩ | ⟨x, seeds, rfl⟩
  · obtain ⟨idle₁, others, users, households, _⟩ := of_seed idle seeds
    have before : ∀ e : Entity, w₁.db ⟨e.table⟩ = w.db ⟨e.table⟩ :=
      fun e => others _ (entity_ne rfl e).symm (entity_ne rfl e).symm
    have indexed₁ : SheetsIndexed w₁.db := fun e => before e ▸ indexed e
    have each := of_migrateAll (by decide) idle₁ indexed₁ migrates
    have after : ∀ t : Table, t.tenantScoped = false → w'.db ⟨t⟩ = w₁.db ⟨t⟩ :=
      fun t shared => each.others _ fun e _ => entity_ne shared e
    have sameUsers : usersOf w'.db = usersOf w₁.db := after .users rfl
    have sameHouseholds : householdsOf w'.db = householdsOf w₁.db := after .households rfl
    refine ⟨householdId, fun e => before e ▸ each.each e e.mem_all, sameUsers ▸ users,
      sameHouseholds ▸ households, ?_⟩
    · intro t shared notUsers notHouseholds
      refine (after t shared).trans (others _ ?_ ?_)
      · exact fun same => notUsers (congrArg Reach.table same)
      · exact fun same => notHouseholds (congrArg Reach.table same)
  · obtain ⟨_, others, users, households, _⟩ := of_seed idle seeds
    refine ⟨nullUuid, fun e => .inl (others _ (entity_ne rfl e).symm (entity_ne rfl e).symm),
      users, households, fun t _ notUsers notHouseholds => others _ ?_ ?_⟩
    · exact fun same => notUsers (congrArg Reach.table same)
    · exact fun same => notHouseholds (congrArg Reach.table same)

/-- Each table as it was or with its sheet; the seed adds one user and one household at
most; and other tables are left alone. So it is whatever arguments the script has,
wherever a statement fails, and however the run ends. `SheetsIndexed` is the unique
index on the sheet ids of a household, which the runs keep. -/
theorem main_allOrNothing {r : Except Exc (List Outcome)} (idle : Script.Idle w)
    (indexed : SheetsIndexed w.db) (h : (main py args book).runOn w = (r, w')) :
    SheetsIndexed w'.db ∧ ∃ householdId, Left py args book householdId w.db w'.db := by
  obtain ⟨householdId, left⟩ := of_main idle indexed h
  exact ⟨left.indexed indexed, householdId, left⟩

/-! A migration whose upsert of the bags is interrupted. -/

namespace Sample

open EspressoLogs.Sample

/-- What a run asks of the language, on the clock of the samples. -/
def python : Python := { env with strLower := fun s => s, replaceUtc := fun _ => none }

def bean : Dict :=
  [("Catalog_ID", .str "C1"), ("Roaster", .str "Onyx"), ("Bean_Name", .str "Geometry"),
    ("Roast_Level", .str "Light")]

def bag : Dict :=
  [("Bag_ID", .str "B1"), ("Beans", .str "Geometry"), ("RoastDate", .str "2026-01-02"),
    ("RoastLevel", .str "Light"), ("Display_Name", .str "Geometry 1"), ("Catalog_ID", .str "C1"),
    ("Status", .str "Active")]

def shot : Dict :=
  [("Shot_ID", .str "S1"), ("Date", .str "2026-01-03"), ("Dose_In_g", .str "18.04"),
    ("Shot_Eligibility", .str "God Shot")]

/-- A workbook with a bean, a bag of it and a shot. -/
def workbook : Workbook
  | .catalog => .ok [bean]
  | .inventory => .ok [bag]
  | .brewLog => .ok [shot]
  | _ => .ok []

/-- No entity is named, so all of them are migrated. -/
def everything : Args := { entities := [], dryRun := false }

/-- A connection that was just opened, with the faults that are to come. -/
def opened (bound : Bool) (db : Tables (Reach Table bound)) (faults : List Bool) :
    Connection bound :=
  { db, session := { Session.idle (fun n => EspressoLogs.Sample.id (100 + n)) with faults } }

/-- The statements until the upsert of the bags: two and three of the seed, three of the beans,
three of their lookup, and the household of the bags. -/
def interrupted : Connection true :=
  opened true (fun _ => []) (List.replicate 12 false ++ [true])

theorem interrupted_indexed : SheetsIndexed interrupted.db := fun _ _ hr => absurd hr List.not_mem_nil

/-- The beans and the shot are there, the bags are not. -/
theorem interrupted_allOrNothing :
    ((main python everything workbook).runOn interrupted).1 =
        .ok [⟨.catalog, 1, 1, 0⟩, ⟨.inventory, 1, 0, 1⟩, ⟨.hardware, 0, 0, 0⟩,
          ⟨.maintenance, 0, 0, 0⟩, ⟨.brewLog, 1, 1, 0⟩] ∧
      ∃ householdId, Left python everything workbook householdId interrupted.db
        ((main python everything workbook).runOn interrupted).2.db :=
  ⟨by decide +kernel, (main_allOrNothing ⟨rfl, rfl, rfl⟩ interrupted_indexed rfl).2⟩

end Sample

end EspressoLogs.Migration
