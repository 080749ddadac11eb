import EspressoLogs.Startup.Starts

/-!
What two starts of the application change.

A start that keeps the households of the entries it finds changes nothing on the
rows that were there but the gaps; a second one changes nothing where the rows of
the sheets have settled.
-/

namespace EspressoLogs

open Lib Py

/-! ### Rows that are kept -/

/-- An entry as it was, but for hardware that was not known. -/
structure KeptEvent (r r' : MaintenanceLog) : Prop where
  same : r' = { r with sheetsHardwareId := r'.sheetsHardwareId }
  known : r.sheetsHardwareId ≠ none → r'.sheetsHardwareId = r.sheetsHardwareId

theorem KeptEvent.id {r r' : MaintenanceLog} (kept : KeptEvent r r') : r'.id = r.id := by
  rw [kept.same]

theorem KeptEvent.householdId {r r' : MaintenanceLog} (kept : KeptEvent r r') :
    r'.householdId = r.householdId := by
  rw [kept.same]

theorem KeptEvent.sheetsId {r r' : MaintenanceLog} (kept : KeptEvent r r') :
    r'.sheetsId = r.sheetsId := by
  rw [kept.same]

/-- A bag as it was, but for a catalog entry that was not known. -/
structure KeptBag (r r' : InventoryBag) : Prop where
  same : r' = { r with sheetsCatalogId := r'.sheetsCatalogId }
  known : r.sheetsCatalogId ≠ none → r'.sheetsCatalogId = r.sheetsCatalogId

/-- On the rows of `db` nothing has changed but the gaps. -/
structure OnlyGaps (db s : State) : Prop where
  events : ∀ r ∈ db .maintenanceLog, ∃ r' ∈ s .maintenanceLog, KeptEvent r r'
  bags : ∀ r ∈ db .inventoryBags, ∃ r' ∈ s .inventoryBags, KeptBag r r'
  others : ∀ t, t ≠ .maintenanceLog → t ≠ .inventoryBags → s t = db t

/-! ### Rows of the sheets that do more -/

/-- A row of the maintenance sheet fills a gap and gives the entry to another household. -/
def Reassigns (row : Dict) (s : State) : Prop :=
  ∃ event new, eventsOf row (s .maintenanceLog) = [event] ∧ event.sheetsHardwareId = none ∧
    filledEvent row s event = some new ∧ new.householdId ≠ event.householdId

/-- A row of the maintenance sheet without an id adds an entry. -/
def AddsUnnamed (env : Env) (row : Dict) (s : State) : Prop :=
  (row.get "Maintenance_ID").truthy = false ∧ ∃ id new, insertedEvent env row id s = some new

/-- A row of the inventory sheet adds a bag or fills a gap. -/
def FillsBag (row : Dict) (s : State) : Prop :=
  (row.get "Bag_ID").truthy = true ∧
    ((bagsOf row (s .inventoryBags) = [] ∧ ∃ id new, insertedBag row id s = some new) ∨
      ∃ bag catalog, bagsOf row (s .inventoryBags) = [bag] ∧ bag.sheetsCatalogId = none ∧
        asText (row.get "Catalog_ID") = .ok (some catalog))

/-! ### One row of a sheet -/

section Steps

variable {db s s' : State} {row : Dict} {id : Uuid}

theorem OnlyGaps.event_step {env : Env} {rows : List MaintenanceLog} (only : OnlyGaps db s)
    (step : EventStep env row id s rows) (mine : s' .maintenanceLog = rows)
    (rest : ∀ t, t ≠ .maintenanceLog → s' t = s t)
    (owners : eventsOf row (db .maintenanceLog) ≠ [] → ¬ Reassigns row s) : OnlyGaps db s' where
  events := by
    intro r hr
    obtain ⟨r', hr', kept⟩ := only.events r hr
    rw [mine]
    cases step with
    | filled => exact ⟨r', hr', kept⟩
    | absent new => exact ⟨r', List.mem_append_left _ hr', kept⟩
    | gap event new one gap made =>
        by_cases here : r' = event
        · subst here
          have found : r ∈ eventsOf row (db .maintenanceLog) := by
            obtain ⟨named, _, matching⟩ := mem_eventsOf.mp
              (one ▸ List.mem_cons_self : r' ∈ eventsOf row (s .maintenanceLog))
            rw [kept.sheetsId] at matching
            exact mem_eventsOf.mpr ⟨named, hr, matching⟩
          have stays : new.householdId = r'.householdId :=
            not_not.mp fun moved => owners (List.ne_nil_of_mem found) ⟨r', new, one, gap, made, moved⟩
          obtain ⟨h, hardware, _, _, _, rfl⟩ := filledEvent_eq_some made
          have stays : h = r'.householdId := stays
          subst stays
          refine ⟨_, mem_exchanged.mpr (.inr ⟨rfl, hr'⟩), ?_, ?_⟩
          · rw [kept.same]
          · intro known
            rw [kept.known known] at gap
            exact absurd gap known
        · exact ⟨r', mem_exchanged.mpr (.inl ⟨hr', here⟩), kept⟩
  bags := by
    rw [rest .inventoryBags nofun]
    exact only.bags
  others t h h' := (rest t h).trans (only.others t h h')

theorem OnlyGaps.bag_step {rows : List InventoryBag} (only : OnlyGaps db s)
    (step : BagStep row id s rows) (mine : s' .inventoryBags = rows)
    (rest : ∀ t, t ≠ .inventoryBags → s' t = s t) : OnlyGaps db s' where
  events := by
    rw [rest .maintenanceLog nofun]
    exact only.events
  bags := by
    intro r hr
    obtain ⟨r', hr', kept⟩ := only.bags r hr
    rw [mine]
    cases step with
    | unnamed => exact ⟨r', hr', kept⟩
    | filled => exact ⟨r', hr', kept⟩
    | absent new => exact ⟨r', List.mem_append_left _ hr', kept⟩
    | gap bag catalog _ one gap =>
        by_cases here : r' = bag
        · subst here
          refine ⟨_, mem_exchanged.mpr (.inr ⟨rfl, hr'⟩), ?_, ?_⟩
          · rw [kept.same]
          · intro known
            rw [kept.known known] at gap
            exact absurd gap known
        · exact ⟨r', mem_exchanged.mpr (.inl ⟨hr', here⟩), kept⟩
  others t h h' := (rest t h').trans (only.others t h h')

end Steps

/-! ### The first start -/

section First

variable {env : Env} {usePostgres : Bool} {sheets : BackfillSheets} {supply : Nat → Uuid}
  {db : State}

/-- The start takes no entry that was there from its household. -/
def KeepsOwners (env : Env) (usePostgres : Bool) (sheets : BackfillSheets) (supply : Nat → Uuid)
    (db : State) : Prop :=
  ∀ v ∈ eventVisits env usePostgres sheets supply db, eventsOf v.1 (db .maintenanceLog) ≠ [] →
    ¬ Reassigns v.1 (Bypass.rowsOf v.2.db)

theorem rowsOf_update {w w' : World (Bypass Table)} {t : Table} {rows : List t.Row}
    (db : w'.db = Function.update w.db ⟨t⟩ rows) :
    Bypass.rowsOf w'.db t = rows ∧
      ∀ u, u ≠ t → Bypass.rowsOf w'.db u = Bypass.rowsOf w.db u := by
  unfold Bypass.rowsOf
  rw [db]
  refine ⟨Function.update_self _ _ _, fun u other => Function.update_of_ne (fun same => ?_) _ _⟩
  exact other (congrArg Bypass.table same)

theorem only_gaps_of_keepsOwners (start : Begins env usePostgres sheets supply db)
    (owners : KeepsOwners env usePostgres sheets supply db) :
    ∀ s ∈ startupStates env usePostgres sheets supply db, OnlyGaps db s := by
  have atStart : OnlyGaps db (Bypass.rowsOf (startupWorld supply db).db) :=
    ⟨fun r hr => ⟨r, hr, rfl, fun _ => rfl⟩, fun r hr => ⟨r, hr, rfl, fun _ => rfl⟩,
      fun _ _ _ => rfl⟩
  obtain ⟨atEvents, eachEvent⟩ : OnlyGaps db
      (Bypass.rowsOf (eventSweep env usePostgres sheets supply db).2.db) ∧
      ∀ v ∈ eventVisits env usePostgres sheets supply db, OnlyGaps db (Bypass.rowsOf v.2.db) := by
    refine sweep_keeps (I := fun w : World (Bypass Table) => OnlyGaps db (Bypass.rowsOf w.db))
      (fun v hv only w' taken => ?_) atStart
    obtain ⟨rows, step, _, changed⟩ := event_step ((ready_events start).2 v hv) taken
    obtain ⟨mine, others⟩ := rowsOf_update changed
    exact only.event_step step mine others (owners v hv)
  obtain ⟨atBags, eachBag⟩ : OnlyGaps db
      (Bypass.rowsOf (bagSweep env usePostgres sheets supply db).2.db) ∧
      ∀ v ∈ bagVisits env usePostgres sheets supply db, OnlyGaps db (Bypass.rowsOf v.2.db) := by
    refine sweep_keeps (I := fun w : World (Bypass Table) => OnlyGaps db (Bypass.rowsOf w.db))
      (fun v hv only w' taken => ?_) atEvents
    obtain ⟨rows, step, _, changed⟩ := bag_step ((ready_bags start).2 v hv) taken
    obtain ⟨mine, others⟩ := rowsOf_update changed
    exact only.bag_step step mine others
  intro s hs
  rcases (mem_startupStates start).mp hs with (rfl | ⟨v, hv, rfl⟩) | (rfl | ⟨v, hv, rfl⟩)
  · exact atEvents
  · exact eachEvent v hv
  · exact atBags
  · exact eachBag v hv

/-- A row that does something makes a step. -/
theorem event_performed {row : Dict} {w : World (Bypass Table)} (ready : Ready w)
    {rows : List MaintenanceLog}
    (done : upsertEvent env row w.nextId (Bypass.rowsOf w.db) = some rows) :
    ∃ w', stepOf (SqlMaintenanceRepo.upsert env) row w = some w' ∧
      w'.db = Function.update w.db ⟨.maintenanceLog⟩ rows := by
  have ends := runFor_upsert env row ready.rest ready.events
  rw [done] at ends
  obtain ⟨w', run, _, changed⟩ := ends
  exact ⟨w', stepOf_eq_some.mpr run, changed⟩

theorem bag_performed {row : Dict} {w : World (Bypass Table)} (ready : Ready w)
    {rows : List InventoryBag}
    (done : fillBag row w.nextId (Bypass.rowsOf w.db) = some rows) :
    ∃ w', stepOf backfillBag row w = some w' ∧
      w'.db = Function.update w.db ⟨.inventoryBags⟩ rows := by
  have ends := runFor_backfillBag row ready.rest ready.bags
  rw [done] at ends
  obtain ⟨w', run, _, changed⟩ := ends
  exact ⟨w', stepOf_eq_some.mpr run, changed⟩

theorem Reassigns.upsertEvent {row : Dict} {s : State} (reassigns : Reassigns row s) (env : Env)
    (id : Uuid) :
    ∃ event new, event ∈ s .maintenanceLog ∧ eventsOf row (s .maintenanceLog) = [event] ∧
      new.id = event.id ∧ new.householdId ≠ event.householdId ∧
      upsertEvent env row id s = some (exchanged event new (s .maintenanceLog)) := by
  obtain ⟨event, new, one, gap, made, moved⟩ := reassigns
  refine ⟨event, new, ?_, one, ?_, moved, ?_⟩
  · exact (mem_eventsOf.mp (one ▸ List.mem_cons_self : event ∈ eventsOf row _)).2.1
  · obtain ⟨_, _, _, _, _, rfl⟩ := filledEvent_eq_some made
    rfl
  · rw [EspressoLogs.upsertEvent, one]
    simp only
    rw [if_pos (by rw [gap]; rfl), made]
    rfl

/-- Where it does take one, its rows show it. -/
theorem keepsOwners_of_only_gaps (start : Begins env usePostgres sheets supply db)
    (only : ∀ s ∈ startupStates env usePostgres sheets supply db, OnlyGaps db s) :
    KeepsOwners env usePostgres sheets supply db := by
  intro v hv known reassigns
  have here := (ready_events start).2 v hv
  have before := only _ ((mem_startupStates start).mpr (.inl (.inr ⟨v, hv, rfl⟩)))
  obtain ⟨event, new, there, one, sameId, moved, done⟩ := reassigns.upsertEvent env v.2.nextId
  obtain ⟨w', taken, changed⟩ := event_performed here done
  have after : OnlyGaps db (Bypass.rowsOf w'.db) := by
    rcases visits_next hv taken with rfl | ⟨u, hu, rfl⟩
    · exact only _ ((mem_startupStates start).mpr (.inl (.inl rfl)))
    · exact only _ ((mem_startupStates start).mpr (.inl (.inr ⟨u, hu, rfl⟩)))
  obtain ⟨r, found⟩ := List.exists_mem_of_ne_nil _ known
  obtain ⟨named, hr, matching⟩ := mem_eventsOf.mp found
  obtain ⟨r', hr', kept⟩ := before.events r hr
  have isEvent : r' ∈ eventsOf v.1 (Bypass.rowsOf v.2.db .maintenanceLog) :=
    mem_eventsOf.mpr ⟨named, hr', by rwa [kept.sheetsId]⟩
  rw [one, List.mem_singleton] at isEvent
  subst isEvent
  obtain ⟨r'', hr'', kept'⟩ := after.events r hr
  rw [(rowsOf_update changed).1] at hr''
  rcases mem_exchanged.mp hr'' with ⟨stayed, other⟩ | ⟨rfl, _⟩
  · exact other (List.inj_on_of_nodup_map here.events stayed there (kept'.id.trans kept.id.symm))
  · exact moved (kept'.householdId.trans kept.householdId.symm)

end First

/-! ### Rows that stay -/

section Stays

variable {t : Table}

variable (t) in
/-- What the sheet of a table is about. -/
def keptAt (w : World (Bypass Table)) : List t.Row × List Household :=
  (Bypass.rowsOf w.db t, Bypass.rowsOf w.db .households)

variable (sheetsId filled : t.Row → Option String)

/-- The rows are there still, those without a gap as such. -/
structure Stays (w w' : World (Bypass Table)) : Prop where
  households : Bypass.rowsOf w'.db .households = Bypass.rowsOf w.db .households
  rows : ∀ r ∈ Bypass.rowsOf w.db t, ∃ r' ∈ Bypass.rowsOf w'.db t,
    sheetsId r' = sheetsId r ∧ (filled r ≠ none → filled r' ≠ none)

variable {sheetsId filled}

theorem Stays.refl (w : World (Bypass Table)) : Stays sheetsId filled w w :=
  ⟨rfl, fun r hr => ⟨r, hr, rfl, id⟩⟩

theorem Stays.trans {w₁ w₂ w₃ : World (Bypass Table)} (first : Stays sheetsId filled w₁ w₂)
    (second : Stays sheetsId filled w₂ w₃) : Stays sheetsId filled w₁ w₃ := by
  refine ⟨second.households.trans first.households, fun r hr => ?_⟩
  obtain ⟨r', hr', same, known⟩ := first.rows r hr
  obtain ⟨r'', hr'', same', known'⟩ := second.rows r' hr'
  exact ⟨r'', hr'', same'.trans same, known' ∘ known⟩

theorem Stays.congr {w₁ w₂ w₃ : World (Bypass Table)} (stay : Stays sheetsId filled w₁ w₂)
    (same : keptAt t w₂ = keptAt t w₃) : Stays sheetsId filled w₁ w₃ := by
  obtain ⟨rows, households⟩ := Prod.mk.inj same
  refine ⟨households.symm.trans stay.households, ?_⟩
  rw [← rows]
  exact stay.rows

end Stays

/-- No event loses its hardware. -/
abbrev EventsStay := Stays (t := .maintenanceLog) MaintenanceLog.sheetsId
  MaintenanceLog.sheetsHardwareId

/-- No bag loses its catalog entry. -/
abbrev BagsStay := Stays (t := .inventoryBags) InventoryBag.sheetsId InventoryBag.sheetsCatalogId

/-! ### Entries that have settled -/

section Events

variable {w w' t t' : World (Bypass Table)} {env env₂ : Env} {row : Dict}

theorem event_stays (ready : Ready w) (taken : stepOf (SqlMaintenanceRepo.upsert env) row w = some w') :
    EventsStay w w' := by
  obtain ⟨rows, step, _, changed⟩ := event_step ready taken
  obtain ⟨mine, others⟩ := rowsOf_update changed
  refine ⟨others .households nofun, fun r hr => ?_⟩
  rw [mine]
  cases step with
  | filled => exact ⟨r, hr, rfl, id⟩
  | absent new => exact ⟨r, List.mem_append_left _ hr, rfl, id⟩
  | gap event new _ gap made =>
      by_cases here : r = event
      · obtain ⟨_, _, _, _, _, rfl⟩ := filledEvent_eq_some made
        subst here
        exact ⟨_, mem_exchanged.mpr (.inr ⟨rfl, hr⟩), rfl, fun known => absurd gap known⟩
      · exact ⟨r, mem_exchanged.mpr (.inl ⟨hr, here⟩), rfl, id⟩

/-- After a row with an id there is an entry for it, and its hardware is not known
only where the row names none. -/
theorem event_settles (ready : Ready w)
    (taken : stepOf (SqlMaintenanceRepo.upsert env) row w = some w')
    (named : (row.get "Maintenance_ID").truthy = true) :
    ∃ r ∈ eventsOf row (Bypass.rowsOf w'.db .maintenanceLog),
      r.sheetsHardwareId = none → asText (row.get "Hardware_ID") = .ok none := by
  obtain ⟨rows, step, _, changed⟩ := event_step ready taken
  rw [(rowsOf_update changed).1]
  cases step with
  | filled event one known =>
      exact ⟨event, one ▸ List.mem_cons_self, fun unknown => absurd unknown known⟩
  | gap event new one _ made =>
      obtain ⟨_, there, matching⟩ := mem_eventsOf.mp
        (one ▸ List.mem_cons_self : event ∈ eventsOf row _)
      obtain ⟨_, hardware, _, text, _, rfl⟩ := filledEvent_eq_some made
      refine ⟨_, mem_eventsOf.mpr ⟨named, mem_exchanged.mpr (.inr ⟨rfl, there⟩), matching⟩, ?_⟩
      rintro rfl
      exact text
  | absent new _ made =>
      obtain ⟨_, _, value, _⟩ := insertedEvent_eq_some made
      obtain ⟨id, hardware⟩ := make_event_texts value
      obtain ⟨s, isText, own⟩ := text_of_truthy named id
      refine ⟨new, mem_eventsOf.mpr ⟨named, List.mem_append_right _ List.mem_cons_self, ?_⟩, ?_⟩
      · rw [isText, own]
        exact beq_self_eq_true s
      · intro unknown
        rw [hardware, unknown]

/-- The row again. -/
theorem event_again (ready : Ready w)
    (taken : stepOf (SqlMaintenanceRepo.upsert env) row w = some w') (fit : Ready t)
    (stay : EventsStay w' t)
    (calm : ¬ (AddsUnnamed env₂ row (Bypass.rowsOf t.db) ∨ Reassigns row (Bypass.rowsOf t.db)))
    (again : stepOf (SqlMaintenanceRepo.upsert env₂) row t = some t') :
    keptAt .maintenanceLog t' = keptAt .maintenanceLog t := by
  obtain ⟨rows, step, _, changed⟩ := event_step fit again
  obtain ⟨mine, others⟩ := rowsOf_update changed
  unfold keptAt
  rw [mine, others .households nofun]
  refine congrArg (·, _) ?_
  -- a named row of the sheet has an event since the first start, and its gap is one that
  -- the sheet cannot fill
  have settled : (row.get "Maintenance_ID").truthy = true →
      ∃ r ∈ eventsOf row (Bypass.rowsOf t.db .maintenanceLog),
        r.sheetsHardwareId = none → asText (row.get "Hardware_ID") = .ok none := by
    intro named
    obtain ⟨r, hr, unknown⟩ := event_settles ready taken named
    obtain ⟨_, there, matching⟩ := mem_eventsOf.mp hr
    obtain ⟨r', hr', same, known⟩ := stay.rows r there
    rw [← same] at matching
    exact ⟨r', mem_eventsOf.mpr ⟨named, hr', matching⟩,
      fun gap => unknown (not_not.mp fun was => known was gap)⟩
  cases step with
  | filled => rfl
  | absent new none made =>
      refine absurd ?_ calm
      by_cases named : (row.get "Maintenance_ID").truthy = true
      · obtain ⟨r, hr, _⟩ := settled named
        rw [none] at hr
        cases hr
      · exact .inl ⟨Bool.eq_false_iff.mpr named, _, new, made⟩
  | gap event new one gap made =>
      obtain ⟨r, hr, unknown⟩ := settled (mem_eventsOf.mp
        (one ▸ List.mem_cons_self : event ∈ eventsOf row _)).1
      rw [one, List.mem_singleton] at hr
      subst hr
      have stays : new.householdId = r.householdId :=
        not_not.mp fun moved => calm (.inr ⟨r, new, one, gap, made, moved⟩)
      obtain ⟨h, hardware, _, text, _, rfl⟩ := filledEvent_eq_some made
      have stays : h = r.householdId := stays
      subst stays
      rw [unknown gap] at text
      cases text
      have same : ({ r with sheetsHardwareId := none } : MaintenanceLog) = r := by
        rw [← gap]
      exact (congrArg (exchanged r · _) same).trans (exchanged_self r _)

end Events

/-! ### Bags that have settled -/

section Bags

variable {w w' t t' : World (Bypass Table)} {row : Dict}

theorem bag_stays (ready : Ready w) (taken : stepOf backfillBag row w = some w') :
    BagsStay w w' := by
  obtain ⟨rows, step, _, changed⟩ := bag_step ready taken
  obtain ⟨mine, others⟩ := rowsOf_update changed
  refine ⟨others .households nofun, fun r hr => ?_⟩
  rw [mine]
  cases step with
  | unnamed => exact ⟨r, hr, rfl, id⟩
  | filled => exact ⟨r, hr, rfl, id⟩
  | absent new => exact ⟨r, List.mem_append_left _ hr, rfl, id⟩
  | gap bag catalog _ _ gap =>
      by_cases here : r = bag
      · subst here
        exact ⟨_, mem_exchanged.mpr (.inr ⟨rfl, hr⟩), rfl, fun known => absurd gap known⟩
      · exact ⟨r, mem_exchanged.mpr (.inl ⟨hr, here⟩), rfl, id⟩

/-- After a row with an id there is a bag for it, and its catalog entry is not known
only where the row names none. -/
theorem bag_settles (ready : Ready w) (taken : stepOf backfillBag row w = some w')
    (named : (row.get "Bag_ID").truthy = true) :
    ∃ r ∈ bagsOf row (Bypass.rowsOf w'.db .inventoryBags),
      r.sheetsCatalogId = none → asText (row.get "Catalog_ID") = .ok none := by
  obtain ⟨rows, step, _, changed⟩ := bag_step ready taken
  rw [(rowsOf_update changed).1]
  cases step with
  | unnamed unnamed =>
      rw [named] at unnamed
      cases unnamed
  | filled bag _ one known =>
      exact ⟨bag, one ▸ List.mem_cons_self, fun unknown => absurd unknown known⟩
  | gap bag catalog _ one _ text =>
      obtain ⟨there, matching⟩ := List.mem_filter.mp
        (one ▸ List.mem_cons_self : bag ∈ bagsOf row _)
      refine ⟨_, List.mem_filter.mpr ⟨mem_exchanged.mpr (.inr ⟨rfl, there⟩), matching⟩, ?_⟩
      rintro rfl
      exact text
  | absent new _ _ made =>
      obtain ⟨_, _, value, _⟩ := insertedBag_eq_some made
      obtain ⟨id, catalog⟩ := make_bag_texts value
      obtain ⟨s, isText, own⟩ := text_of_truthy named id
      refine ⟨new, List.mem_filter.mpr ⟨List.mem_append_right _ List.mem_cons_self, ?_⟩, ?_⟩
      · rw [isText, own]
        exact beq_self_eq_true s
      · intro unknown
        rw [catalog, unknown]

/-- The row again. -/
theorem bag_again (ready : Ready w) (taken : stepOf backfillBag row w = some w') (fit : Ready t)
    (stay : BagsStay w' t) (again : stepOf backfillBag row t = some t') :
    keptAt .inventoryBags t' = keptAt .inventoryBags t := by
  obtain ⟨rows, step, _, changed⟩ := bag_step fit again
  obtain ⟨mine, others⟩ := rowsOf_update changed
  unfold keptAt
  rw [mine, others .households nofun]
  refine congrArg (·, _) ?_
  have settled : (row.get "Bag_ID").truthy = true →
      ∃ r ∈ bagsOf row (Bypass.rowsOf t.db .inventoryBags),
        r.sheetsCatalogId = none → asText (row.get "Catalog_ID") = .ok none := by
    intro named
    obtain ⟨r, hr, unknown⟩ := bag_settles ready taken named
    obtain ⟨there, matching⟩ := List.mem_filter.mp hr
    obtain ⟨r', hr', same, known⟩ := stay.rows r there
    rw [← same] at matching
    exact ⟨r', List.mem_filter.mpr ⟨hr', matching⟩,
      fun gap => unknown (not_not.mp fun was => known was gap)⟩
  cases step with
  | unnamed => rfl
  | filled => rfl
  | absent new named none =>
      obtain ⟨r, hr, _⟩ := settled named
      rw [none] at hr
      cases hr
  | gap bag catalog named one gap text =>
      obtain ⟨r, hr, unknown⟩ := settled named
      rw [one, List.mem_singleton] at hr
      subst hr
      rw [unknown gap] at text
      cases text
      have same : ({ r with sheetsCatalogId := none } : InventoryBag) = r := by
        rw [← gap]
      exact (congrArg (exchanged r · _) same).trans (exchanged_self r _)

end Bags

/-! ### Rows that change something, and rows that do not -/

section Changes

variable {w : World (Bypass Table)} {env : Env} {row : Dict}

theorem exchanged_ne {R : Type} [DecidableEq R] {old new : R} {rows : List R} (there : old ∈ rows)
    (differs : new ≠ old) : exchanged old new rows ≠ rows := by
  intro same
  rw [← same] at there
  rcases mem_exchanged.mp there with ⟨_, other⟩ | ⟨eq, _⟩
  · exact other rfl
  · exact differs eq.symm

theorem event_changes (ready : Ready w)
    (stirs : AddsUnnamed env row (Bypass.rowsOf w.db) ∨ Reassigns row (Bypass.rowsOf w.db)) :
    ∃ w', stepOf (SqlMaintenanceRepo.upsert env) row w = some w' ∧
      Bypass.rowsOf w'.db .maintenanceLog ≠ Bypass.rowsOf w.db .maintenanceLog := by
  rcases stirs with ⟨unnamed, id, new, made⟩ | reassigns
  · have none : eventsOf row (Bypass.rowsOf w.db .maintenanceLog) = [] :=
      if_neg (by rw [unnamed]; nofun)
    obtain ⟨new', made'⟩ := Option.isSome_iff_exists.mp
      (insertedEvent_isSome rfl rfl made env w.nextId)
    have done : upsertEvent env row w.nextId (Bypass.rowsOf w.db) =
        some (Bypass.rowsOf w.db .maintenanceLog ++ [new']) := by
      rw [upsertEvent, none]
      simp only
      rw [made']
      rfl
    obtain ⟨w', taken, changed⟩ := event_performed ready done
    refine ⟨w', taken, ?_⟩
    rw [(rowsOf_update changed).1]
    simp
  · obtain ⟨event, new, there, _, _, moved, done⟩ := reassigns.upsertEvent env w.nextId
    obtain ⟨w', taken, changed⟩ := event_performed ready done
    refine ⟨w', taken, ?_⟩
    rw [(rowsOf_update changed).1]
    exact exchanged_ne there fun same => moved (congrArg MaintenanceLog.householdId same)

theorem bag_changes (ready : Ready w) (fills : FillsBag row (Bypass.rowsOf w.db)) :
    ∃ w', stepOf backfillBag row w = some w' ∧
      Bypass.rowsOf w'.db .inventoryBags ≠ Bypass.rowsOf w.db .inventoryBags := by
  obtain ⟨named, ⟨none, id, new, made⟩ | ⟨bag, catalog, one, gap, text⟩⟩ := fills
  · obtain ⟨new', made'⟩ := Option.isSome_iff_exists.mp
      (insertedBag_isSome rfl made w.nextId)
    have done : fillBag row w.nextId (Bypass.rowsOf w.db) =
        some (Bypass.rowsOf w.db .inventoryBags ++ [new']) := by
      rw [fillBag, if_pos named, none]
      simp only
      rw [made']
      rfl
    obtain ⟨w', taken, changed⟩ := bag_performed ready done
    refine ⟨w', taken, ?_⟩
    rw [(rowsOf_update changed).1]
    simp
  · have done : fillBag row w.nextId (Bypass.rowsOf w.db) =
        some (exchanged bag { bag with sheetsCatalogId := some catalog }
          (Bypass.rowsOf w.db .inventoryBags)) := by
      rw [fillBag, if_pos named, one]
      simp only
      rw [if_pos (by rw [gap]; rfl), text]
    obtain ⟨w', taken, changed⟩ := bag_performed ready done
    refine ⟨w', taken, ?_⟩
    rw [(rowsOf_update changed).1]
    refine exchanged_ne ?_ fun same => ?_
    · exact (List.mem_filter.mp (one ▸ List.mem_cons_self : bag ∈ bagsOf row _)).1
    · have filled := congrArg InventoryBag.sheetsCatalogId same
      rw [gap] at filled
      cases filled

theorem bag_still (ready : Ready w) (idle : ¬ FillsBag row (Bypass.rowsOf w.db))
    {w' : World (Bypass Table)} (taken : stepOf backfillBag row w = some w') :
    keptAt .inventoryBags w' = keptAt .inventoryBags w := by
  obtain ⟨rows, step, _, changed⟩ := bag_step ready taken
  obtain ⟨mine, others⟩ := rowsOf_update changed
  unfold keptAt
  rw [mine, others .households nofun]
  refine congrArg (·, _) ?_
  cases step with
  | unnamed => rfl
  | filled => rfl
  | absent new named none made => exact absurd ⟨named, .inl ⟨none, _, new, made⟩⟩ idle
  | gap bag catalog named one gap text =>
      cases catalog with
      | some catalog => exact absurd ⟨named, .inr ⟨bag, catalog, one, gap, text⟩⟩ idle
      | none =>
          have same : ({ bag with sheetsCatalogId := none } : InventoryBag) = bag := by
            rw [← gap]
          exact (congrArg (exchanged bag · _) same).trans (exchanged_self bag _)

end Changes

/-! ### The second start -/

section Second

variable {env env₂ : Env} {usePostgres : Bool} {sheets : BackfillSheets}
  {supply supply₂ : Nat → Uuid} {db : State}

/-- A row of the maintenance sheet that leaves the entries leaves everything. -/
theorem event_db {row : Dict} {w w' : World (Bypass Table)} (ready : Ready w)
    (taken : stepOf (SqlMaintenanceRepo.upsert env) row w = some w')
    (same : keptAt .maintenanceLog w' = keptAt .maintenanceLog w) : w'.db = w.db := by
  obtain ⟨rows, _, _, changed⟩ := event_step ready taken
  have kept : rows = w.db ⟨.maintenanceLog⟩ :=
    (rowsOf_update changed).1.symm.trans (Prod.mk.inj same).1
  rw [changed, kept, Function.update_eq_self]

theorem bag_db {row : Dict} {w w' : World (Bypass Table)} (ready : Ready w)
    (taken : stepOf backfillBag row w = some w')
    (same : keptAt .inventoryBags w' = keptAt .inventoryBags w) : w'.db = w.db := by
  obtain ⟨rows, _, _, changed⟩ := bag_step ready taken
  have kept : rows = w.db ⟨.inventoryBags⟩ :=
    (rowsOf_update changed).1.symm.trans (Prod.mk.inj same).1
  rw [changed, kept, Function.update_eq_self]

/-- The sweep over the inventory sheet leaves the other tables. -/
theorem bagSweep_others (start : Begins env usePostgres sheets supply db) (t : Table)
    (other : t ≠ .inventoryBags) :
    Bypass.rowsOf (bagSweep env usePostgres sheets supply db).2.db t =
      Bypass.rowsOf (eventSweep env usePostgres sheets supply db).2.db t := by
  refine (sweep_keeps (I := fun w : World (Bypass Table) => Bypass.rowsOf w.db t =
    Bypass.rowsOf (eventSweep env usePostgres sheets supply db).2.db t)
    (fun v hv held w' taken => ?_) rfl).1
  obtain ⟨rows, _, _, changed⟩ := bag_step ((ready_bags start).2 v hv) taken
  exact ((rowsOf_update changed).2 t other).trans held

section Again

variable (start : Begins env usePostgres sheets supply db)
  (start₂ : Begins env₂ usePostgres sheets supply₂ (startup env usePostgres sheets supply db))

include start start₂

theorem events_again
    (calm : ∀ v ∈ eventVisits env₂ usePostgres sheets supply₂
        (startup env usePostgres sheets supply db),
      ¬ (AddsUnnamed env₂ v.1 (Bypass.rowsOf v.2.db) ∨ Reassigns v.1 (Bypass.rowsOf v.2.db))) :
    ∀ v ∈ eventVisits env₂ usePostgres sheets supply₂ (startup env usePostgres sheets supply db),
      ∀ t', stepOf (SqlMaintenanceRepo.upsert env₂) v.1 v.2 = some t' →
        keptAt .maintenanceLog t' = keptAt .maintenanceLog v.2 := by
  have rows : ∀ t, t ≠ .inventoryBags → startup env usePostgres sheets supply db t =
      Bypass.rowsOf (eventSweep env usePostgres sheets supply db).2.db t := by
    intro t other
    rw [startup_eq start, bagSweep_others start t other]
  have left : keptAt .maintenanceLog (startupWorld supply₂ (startup env usePostgres sheets supply db)) =
      keptAt .maintenanceLog (eventSweep env usePostgres sheets supply db).2 :=
    Prod.ext (rows .maintenanceLog nofun) (rows .households nofun)
  by_cases none : dueEvents usePostgres sheets (startup env usePostgres sheets supply db) = []
  · intro v hv
    rw [eventVisits, none] at hv
    cases hv
  · -- where a gap is left a gap was there, and both starts take up the whole sheet
    have items : dueEvents usePostgres sheets (startup env usePostgres sheets supply db) =
        dueEvents usePostgres sheets db := by
      cases usePostgres with
      | false => exact absurd rfl none
      | true =>
          have taken : ∀ s, dueEvents true sheets s =
              if (s .maintenanceLog).any (·.sheetsHardwareId.isNone) then sheets.maintenance else [] :=
            fun _ => rfl
          rw [taken] at none
          rw [taken, taken, if_pos (of_not_not fun full => none (if_neg full)), if_pos]
          by_contra full
          refine none (if_neg ?_)
          have untouched : eventSweep env true sheets supply db = (true, startupWorld supply db) := by
            rw [eventSweep, taken, if_neg full]
            rfl
          rw [rows .maintenanceLog nofun, untouched]
          exact full
    have still := sweep_again Ready
      (fun row w => AddsUnnamed env₂ row (Bypass.rowsOf w.db) ∨ Reassigns row (Bypass.rowsOf w.db))
      Stays.refl (fun _ _ _ => Stays.trans) (fun _ _ _ => Stays.congr)
      (R := EventsStay) (π := keptAt .maintenanceLog)
      (fun v hv w' taken => event_stays ((ready_events start).2 v hv) taken)
      (fun v hv w' taken t t' fit stay calm again =>
        event_again ((ready_events start).2 v hv) taken fit stay calm again)
      (fun v hv fails t fit same => event_fails ((ready_events start).2 v hv) fit
        (Prod.mk.inj same).1 (Prod.mk.inj same).2 fails) left
      (fun v hv => ⟨(ready_events start₂).2 v (by rw [eventVisits, items]; exact hv),
        calm v (by rw [eventVisits, items]; exact hv)⟩)
    intro v hv
    rw [eventVisits, items] at hv
    exact still v hv

theorem bags_again
    (left : (eventSweep env₂ usePostgres sheets supply₂
        (startup env usePostgres sheets supply db)).2.db =
      (startupWorld supply₂ (startup env usePostgres sheets supply db)).db)
    (idle : (eventSweep env usePostgres sheets supply db).1 = false →
      ∀ v ∈ bagVisits env₂ usePostgres sheets supply₂ (startup env usePostgres sheets supply db),
        ¬ FillsBag v.1 (Bypass.rowsOf v.2.db)) :
    ∀ v ∈ bagVisits env₂ usePostgres sheets supply₂ (startup env usePostgres sheets supply db),
      ∀ t', stepOf backfillBag v.1 v.2 = some t' →
        keptAt .inventoryBags t' = keptAt .inventoryBags v.2 := by
  cases finished : (eventSweep env usePostgres sheets supply db).1 with
  | false =>
      intro v hv t' taken
      exact bag_still ((ready_bags start₂).2 v hv) (idle finished v hv) taken
  | true =>
      -- nothing to do if no bag has a gap
      by_cases none : dueBags env₂ usePostgres sheets supply₂
          (startup env usePostgres sheets supply db) = []
      · intro v hv
        rw [bagVisits, none] at hv
        cases hv
      · -- a gap that is left was there before, so both starts took up the whole sheet
        have items : dueBags env₂ usePostgres sheets supply₂
            (startup env usePostgres sheets supply db) =
              dueBags env usePostgres sheets supply db := by
          cases usePostgres with
          | false => exact absurd rfl none
          | true =>
              have gaps := of_not_not fun stopped => none (if_neg stopped)
              rw [dueBags, if_pos gaps, left] at none
              have some : ((startup env true sheets supply db) .inventoryBags).any
                  (·.sheetsCatalogId.isNone) = true :=
                of_not_not fun full => none (if_neg full)
              rw [dueBags, if_pos gaps, left, dueBags, if_pos (by rw [finished]; rfl)]
              refine (if_pos some).trans (if_pos ?_).symm
              by_contra full
              have untouched : bagSweep env true sheets supply db =
                  (true, (eventSweep env true sheets supply db).2) := by
                rw [bagSweep, dueBags, if_pos (by rw [finished]; rfl), due, if_neg full]
                rfl
              rw [startup_eq start, untouched] at some
              exact full some
        have same : keptAt .inventoryBags (eventSweep env₂ usePostgres sheets supply₂
            (startup env usePostgres sheets supply db)).2 =
              keptAt .inventoryBags (bagSweep env usePostgres sheets supply db).2 := by
          unfold keptAt
          rw [left, ← startup_eq start]
          rfl
        have again := sweep_again Ready (fun _ _ => False)
          Stays.refl (fun _ _ _ => Stays.trans) (fun _ _ _ => Stays.congr)
          (R := BagsStay) (π := keptAt .inventoryBags)
          (fun v hv w' taken => bag_stays ((ready_bags start).2 v hv) taken)
          (fun v hv w' taken t t' fit stay _ again =>
            bag_again ((ready_bags start).2 v hv) taken fit stay again)
          (fun v hv fails t fit same => bag_fails ((ready_bags start).2 v hv) fit
            (Prod.mk.inj same).1 (Prod.mk.inj same).2 fails) same
          (fun v hv => ⟨(ready_bags start₂).2 v (by rw [bagVisits, items]; exact hv), id⟩)
        intro v hv
        rw [bagVisits, items] at hv
        exact again v hv

end Again

/-- A second start from the same sheets changes nothing where its rows have settled. -/
structure Settled (env env₂ : Env) (usePostgres : Bool) (sheets : BackfillSheets)
    (supply supply₂ : Nat → Uuid) (db : State) : Prop where
  events : ∀ v ∈ eventVisits env₂ usePostgres sheets supply₂
      (startup env usePostgres sheets supply db),
    ¬ (AddsUnnamed env₂ v.1 (Bypass.rowsOf v.2.db) ∨ Reassigns v.1 (Bypass.rowsOf v.2.db))
  bags : (eventSweep env usePostgres sheets supply db).1 = false →
    ∀ v ∈ bagVisits env₂ usePostgres sheets supply₂ (startup env usePostgres sheets supply db),
      ¬ FillsBag v.1 (Bypass.rowsOf v.2.db)

theorem still_iff_settled (start : Begins env usePostgres sheets supply db)
    (start₂ : Begins env₂ usePostgres sheets supply₂ (startup env usePostgres sheets supply db)) :
    (∀ s ∈ startupStates env₂ usePostgres sheets supply₂ (startup env usePostgres sheets supply db),
      s = startup env usePostgres sheets supply db) ↔
    Settled env env₂ usePostgres sheets supply supply₂ db := by
  constructor
  · intro still
    constructor
    · intro v hv stirs
      -- the state behind such a row differs from the one before it, and both are shown
      obtain ⟨w', taken, differs⟩ := event_changes ((ready_events start₂).2 v hv) stirs
      refine differs ?_
      have here := still _ ((mem_startupStates start₂).mpr (.inl (.inr ⟨v, hv, rfl⟩)))
      rw [here]
      rcases visits_next hv taken with rfl | ⟨u, hu, rfl⟩
      · exact congrFun (still _ ((mem_startupStates start₂).mpr (.inl (.inl rfl)))) _
      · rw [still _ ((mem_startupStates start₂).mpr (.inl (.inr ⟨u, hu, rfl⟩)))]
    · intro _ v hv fills
      obtain ⟨w', taken, differs⟩ := bag_changes ((ready_bags start₂).2 v hv) fills
      refine differs ?_
      have here := still _ ((mem_startupStates start₂).mpr (.inr (.inr ⟨v, hv, rfl⟩)))
      rw [here]
      rcases visits_next hv taken with rfl | ⟨u, hu, rfl⟩
      · exact congrFun (still _ ((mem_startupStates start₂).mpr (.inr (.inl rfl)))) _
      · rw [still _ ((mem_startupStates start₂).mpr (.inr (.inr ⟨u, hu, rfl⟩)))]
  · intro settled
    -- the events first: only when they left all as it was do the bags start there
    have eachEvent := events_again start start₂ settled.events
    obtain ⟨atEvents, onEvents⟩ : (eventSweep env₂ usePostgres sheets supply₂
        (startup env usePostgres sheets supply db)).2.db =
          (startupWorld supply₂ (startup env usePostgres sheets supply db)).db ∧
        ∀ v ∈ eventVisits env₂ usePostgres sheets supply₂
          (startup env usePostgres sheets supply db),
        v.2.db = (startupWorld supply₂ (startup env usePostgres sheets supply db)).db := by
      refine sweep_keeps (I := fun w : World (Bypass Table) =>
        w.db = (startupWorld supply₂ (startup env usePostgres sheets supply db)).db)
        (fun v hv same w' taken => ?_) rfl
      exact (event_db ((ready_events start₂).2 v hv) taken (eachEvent v hv w' taken)).trans same
    have eachBag := bags_again start start₂ atEvents settled.bags
    obtain ⟨atBags, onBags⟩ : (bagSweep env₂ usePostgres sheets supply₂
        (startup env usePostgres sheets supply db)).2.db =
          (startupWorld supply₂ (startup env usePostgres sheets supply db)).db ∧
        ∀ v ∈ bagVisits env₂ usePostgres sheets supply₂
          (startup env usePostgres sheets supply db),
        v.2.db = (startupWorld supply₂ (startup env usePostgres sheets supply db)).db := by
      refine sweep_keeps (I := fun w : World (Bypass Table) =>
        w.db = (startupWorld supply₂ (startup env usePostgres sheets supply db)).db)
        (fun v hv same w' taken => ?_) atEvents
      exact (bag_db ((ready_bags start₂).2 v hv) taken (eachBag v hv w' taken)).trans same
    intro s hs
    rcases (mem_startupStates start₂).mp hs with (rfl | ⟨v, hv, rfl⟩) | (rfl | ⟨v, hv, rfl⟩)
    · rw [atEvents]; rfl
    · rw [onEvents v hv]; rfl
    · rw [atBags]; rfl
    · rw [onBags v hv]; rfl

/-- The backfill fills gaps only, and a second one from the same sheets does nothing. -/
structure OnlyFillsGaps (env env₂ : Env) (usePostgres : Bool) (sheets : BackfillSheets)
    (supply supply₂ : Nat → Uuid) (db : State) : Prop where
  gaps : ∀ s ∈ startupStates env usePostgres sheets supply db, OnlyGaps db s
  again : ∀ s ∈ startupStates env₂ usePostgres sheets supply₂
    (startup env usePostgres sheets supply db), s = startup env usePostgres sheets supply db

/-- The backfill fills gaps only, and a second start from the same sheets does nothing,
exactly where the first takes no entry from its household and its rows are settled for
the second. Both conditions are on the rows of the sheets that a start gets to, and on
the database that each of them finds: that no entry with a gap is given another
household; and, for the second start, that no row without an id is inserted again and no
bag is filled late. The ids that are drawn must be new. -/
theorem backfill_fills_gaps_iff (events : Table.maintenanceLog.Keyed (db .maintenanceLog))
    (bags : Table.inventoryBags.Keyed (db .inventoryBags))
    (ids : NewIds env usePostgres sheets supply db)
    (ids₂ : NewIds env₂ usePostgres sheets supply₂ (startup env usePostgres sheets supply db)) :
    OnlyFillsGaps env env₂ usePostgres sheets supply supply₂ db ↔
      KeepsOwners env usePostgres sheets supply db ∧
        Settled env env₂ usePostgres sheets supply supply₂ db := by
  have start := begins events bags ids
  have left : Ready (bagSweep env usePostgres sheets supply db).2 := (ready_bags start).1
  have start₂ : Begins env₂ usePostgres sheets supply₂ (startup env usePostgres sheets supply db) := by
    refine begins ?_ ?_ ids₂
    · rw [startup_eq start]
      exact left.events
    · rw [startup_eq start]
      exact left.bags
  -- the two halves of the claim are about different starts
  constructor
  · rintro ⟨gaps, again⟩
    exact ⟨keepsOwners_of_only_gaps start gaps, (still_iff_settled start start₂).mp again⟩
  · rintro ⟨owners, settled⟩
    exact ⟨only_gaps_of_keepsOwners start owners, (still_iff_settled start start₂).mpr settled⟩

end Second

/-! ### An entry that loses its household -/

namespace Sample

/-- An event with no hardware. -/
def upkeep : MaintenanceLog :=
  { id := id 6, householdId := some household.id, hardwareId := none, action := "Backflush",
    performedAt := .midnight day, notes := none, sheetsId := some "M1", sheetsHardwareId := none }

/-- Ada's household with an entry whose hardware is not known. -/
def withUpkeep : State
  | .maintenanceLog => [upkeep]
  | t => db t

/-- The sheet knows the hardware; it has no column for the household. -/
def upkeepSheet : BackfillSheets where
  maintenance := [[("Maintenance_ID", .str "M1"), ("Hardware_ID", .str "H1")]]
  inventory := []

theorem upkeep_fills_gaps_iff :
    OnlyFillsGaps env env true upkeepSheet call.supply call.supply withUpkeep ↔
      KeepsOwners env true upkeepSheet call.supply withUpkeep ∧
        Settled env env true upkeepSheet call.supply call.supply withUpkeep := by
  refine backfill_fills_gaps_iff (List.nodup_singleton _) List.nodup_nil ⟨?_, ?_⟩ ⟨?_, ?_⟩
  · unfold New
    decide +kernel
  · unfold New
    decide +kernel
  · unfold New
    decide +kernel
  · unfold New
    decide +kernel

/-- The entry belongs to no household any more. -/
theorem upkeep_loses_household :
    ¬ OnlyFillsGaps env env true upkeepSheet call.supply call.supply withUpkeep := by
  intro holds
  have left : startup env true upkeepSheet call.supply withUpkeep .maintenanceLog =
      [{ upkeep with householdId := none, sheetsHardwareId := some "H1" }] := by
    decide +kernel
  obtain ⟨r, hr, kept⟩ := (holds.gaps _ (List.mem_append_right _ List.mem_cons_self)).events upkeep
    List.mem_cons_self
  rw [left, List.mem_singleton] at hr
  subst hr
  cases kept.householdId

end Sample

end EspressoLogs
