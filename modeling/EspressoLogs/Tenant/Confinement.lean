import EspressoLogs.Tenant.Entry

/-!
Requests stay within their household.

Whatever a request does after its dependencies have resolved a household, and
wherever it loses its context, it acts for that household or for nobody. So the
rows of the five tenant tables that are not the household's are the same list
before and after it: none is inserted, changed, deleted or given away, and none
without an owner appears. Rows go by a cascade only with the household of an
admin who deletes it.
-/

namespace EspressoLogs

open Lib Py

/-! ### Confinement -/

/-- The tenant rows that a request acting for a household, or for none, leaves
as they were. -/
def Confined (db db' : State) : Option Uuid → Prop
  | none => ∀ t, t.tenantScoped = true → db' t = db t
  | some h => ∀ t, t.tenantScoped = true → others h t (db' t) = others h t (db t)

/-- A request that resolves a household and then runs its endpoint for it. -/
theorem confined_resolved {α : Type} (resolve : AccountM α) (of : α → Uuid)
    (endpoint : (a : α) → TenantM (of a) Response) {w : World Table} (hw : w.session.Spared) :
    Confined w.db
      (CodeM.run (do let a ← resolve; inContext (of a) (endpoint a) : AppM Response) w).2.db
      ((resolve.run w).1.toOption.map of) := by
  obtain ⟨result, w', resolved, spared, same⟩ := accountM_run resolve hw
  have lifted : CodeM.run (resolve : AppM α) w = (result, w') := resolved
  rw [resolved]
  cases result with
  | error e =>
      intro t ht
      rw [CodeM.run_bind_error lifted]
      exact same t ht
  | ok a =>
      intro t ht
      rw [CodeM.run_bind_ok lifted]
      have confined := run_others (do setConfig (of a); endpoint a).within
        (spared.actsFor (of a)) t ht
      exact confined.trans (congrArg (others (of a) t) (same t ht))

theorem confined_account (p : AccountM Response) {w : World Table} (hw : w.session.Spared) :
    Confined w.db (p.run w).2.db none :=
  (run_spares p.within hw).2

/-- Serving a request confines it to its household. -/
theorem serve_confined (c : Call) (r : Request) (db : State) :
    Confined db (c.serve r db).2 (c.household db r) := by
  have start := c.start_spared db
  cases r with
  | member caller request =>
      exact confined_resolved (callerMembership c.env caller) HouseholdMember.householdId
        (fun m => request.endpoint c.env c.archive m) start
  | brewLogList guestKey caller page perPage =>
      cases guestKey with
      | none =>
          exact confined_resolved (callerMembership c.env caller) HouseholdMember.householdId
            (fun _ => apiBrewLogList page perPage) start
      | some raw =>
          exact confined_resolved (guestToken c.env raw) GuestToken.householdId
            (fun _ => apiBrewLogList page perPage) start
  | guestView householdId key =>
      exact confined_resolved (guestHousehold c.env householdId key) (fun _ => householdId)
        (fun household => guestView household.name) start
  | householdCreate caller name => exact confined_account _ start
  | householdList caller => exact confined_account _ start
  | invitationPreview token => exact confined_account (previewInvitation c.env token) start
  | invitationAccept caller token => exact confined_account _ start
  | invitationDecline token => exact confined_account (declineInvitation c.env token) start
  | me caller => exact confined_account _ start
  | switchHousehold caller householdId => exact confined_account _ start
  | signIn program => exact confined_account _ start

/-! ### Deleting a household -/

/-- The tenant rows of `db₀`, or what is left of them without `h`. -/
def Dissolving (h : Uuid) (db₀ rows : State) : Prop :=
  (∀ t, t.tenantScoped = true → rows t = db₀ t) ∨
    ∀ t, t.tenantScoped = true → rows t = others h t (db₀ t)

theorem others_others (h : Uuid) (t : Table) (rows : List t.Row) :
    others (T := Table) h t (others (T := Table) h t rows) = others (T := Table) h t rows := by
  simp only [others, List.filter_filter, Bool.and_self]

/-- The tenant rows that go with households: all of `h`, if there is one to go. -/
theorem cascaded_households {h : Uuid} {w : World Table} {gone : List Household}
    (ids : ∀ g ∈ gone, g.id = h) {t : Table} (ht : t.tenantScoped = true) (nonempty : gone ≠ []) :
    w.cascaded (T := Table) .households gone t = own h t (w.view t) := by
  refine List.filter_congr fun r _ => ?_
  rw [Bool.eq_iff_iff, List.any_eq_true, decide_eq_true_iff]
  constructor
  · rintro ⟨g, hg, child⟩
    have mem := (of_decide_eq_true child).1
    have owner := (Table.household_mem_parents ht).mp mem
    rw [← ids g hg]
    exact owner
  · intro owner
    obtain ⟨g, hg⟩ := List.exists_mem_of_ne_nil gone nonempty
    refine ⟨g, hg, decide_eq_true ⟨?_, ?_⟩⟩
    · refine (Table.household_mem_parents ht).mpr ?_
      exact owner.trans (congrArg some (ids g hg).symm)
    · exact congrArg Option.isNone (Table.orphaned_household ht r _)

/-- Deleting households `h` leaves the tenant rows, takes all of `h`, or aborts. -/
theorem performDelete_households {h : Uuid} {w : World Table} {gone : List Household}
    (ids : ∀ g ∈ gone, g.id = h) {w' : World Table}
    (hw' : w' = (w.performDelete (T := Table) .households gone).2) :
    w'.db = w.db ∧ (w'.view = w.db ∨ (∀ t, t.tenantScoped = true → w'.view t = w.view t) ∨
      ∀ t, t.tenantScoped = true → w'.view t = others (T := Table) h t (w.view t)) := by
  subst hw'
  unfold World.performDelete
  simp only
  split
  · exact ⟨rfl, .inl rfl⟩
  · refine ⟨rfl, .inr ?_⟩
    set removed := w.pend (T := Table) .households (.del gone)
    have same : ∀ t, t.tenantScoped = true → removed.view t = w.view t := by
      intro t ht
      have hne : t ≠ .households := by rintro rfl; cases ht
      exact World.pend_view_of_ne w _ hne
    have left : ∀ t, t.tenantScoped = true →
        (removed.cascade (T := Table) .households gone).view t =
          (w.view t).filter fun r => r ∉ removed.cascaded (T := Table) .households gone t := by
      intro t ht
      rw [World.view_cascade (fun g hg => household_takesOnly (ids g hg)) ht, same t ht]
    by_cases nonempty : gone = []
    · left
      intro t ht
      rw [left t ht, nonempty]
      exact List.filter_eq_self.mpr fun r _ => by simp [World.cascaded]
    · right
      intro t ht
      rw [left t ht, cascaded_households ids ht nonempty, same t ht]
      exact List.filter_congr fun r hr => by simp [hr]

/-- Committed and pending, the tenant rows are those of `db₀` or what the
deletion of `h` leaves of them. -/
def DissolvingIn (h : Uuid) (db₀ : State) (w : World Table) : Prop :=
  Dissolving h db₀ w.db ∧ Dissolving h db₀ w.view

theorem Dissolving.of_eq {h : Uuid} {db₀ rows rows' : State} (hr : Dissolving h db₀ rows)
    (same : ∀ t, t.tenantScoped = true → rows' t = rows t) : Dissolving h db₀ rows' := by
  rcases hr with all | left
  · exact .inl fun t ht => (same t ht).trans (all t ht)
  · exact .inr fun t ht => (same t ht).trans (left t ht)

theorem Dissolving.others {h : Uuid} {db₀ rows rows' : State} (hr : Dissolving h db₀ rows)
    (less : ∀ t, t.tenantScoped = true → rows' t = Lib.others (T := Table) h t (rows t)) :
    Dissolving h db₀ rows' := by
  refine .inr fun t ht => ?_
  rcases hr with all | left
  · rw [less t ht, all t ht]
  · rw [less t ht, left t ht, others_others]

theorem DissolvingIn.unwritten {h : Uuid} {db₀ : State} {w w' : World Table}
    (hw : DissolvingIn h db₀ w) (same : Unwritten (fun t => Schema.secured t = true) w w') :
    DissolvingIn h db₀ w' := by
  obtain ⟨db, view⟩ := hw
  cases same with
  | stays db' view' => exact ⟨db.of_eq db', view.of_eq view'⟩
  | committed db' view' => exact ⟨view.of_eq db', view.of_eq view'⟩
  | dropped db' view' => exact ⟨db.of_eq db', db.of_eq view'⟩

theorem DissolvingIn.performDelete {h : Uuid} {db₀ : State} {w : World Table}
    (hw : DissolvingIn h db₀ w) {gone : List Household} (ids : ∀ g ∈ gone, g.id = h) :
    DissolvingIn h db₀ (w.performDelete (T := Table) .households gone).2 := by
  obtain ⟨db', aborted | same | less⟩ := performDelete_households (w := w) ids rfl
  · exact ⟨db' ▸ hw.1, aborted ▸ hw.1⟩
  · exact ⟨db' ▸ hw.1, hw.2.of_eq same⟩
  · exact ⟨db' ▸ hw.1, hw.2.others less⟩

theorem dissolvingIn_step {h : Uuid} {db₀ : State} (s : Statement) (w : World Table)
    (hs : Dissolves h s) (hw : DissolvingIn h db₀ w) : DissolvingIn h db₀ (World.exec s w).2 := by
  rcases hs with account | ⟨p, hp, rfl⟩
  · exact hw.unwritten (World.exec_unwritten account.leaves w)
  · simp only [World.exec]
    split
    · exact hw
    · split
      · exact hw.unwritten (.dropped (fun _ _ => rfl) fun _ _ => rfl)
      · exact DissolvingIn.performDelete (w := w.advance) hw
          fun g hg => hp g (List.mem_filter.mp hg).2

/-- The tenant rows are those of `db₀`, also to the session. -/
def Untouched (db₀ : State) (w : World Table) : Prop :=
  ∀ t, t.tenantScoped = true → w.db t = db₀ t ∧ w.view t = db₀ t

/-- The program keeps what `I` says of the tenant rows, whether it returns or not. -/
abbrev KeepsRows {P : Statement → Prop} (I : World Table → Prop) (p : CodeM P Response) : Prop :=
  ProgOf.Keeps World.exec I (fun _ => True) p fun _ => True

theorem setConfig_keeps_untouched {db₀ : State} (h : Uuid) :
    ProgOf.Keeps World.exec (Untouched db₀) (fun _ => True) (setConfig h) fun _ => True := by
  refine keeps_ask_of (fun w hw t ht => ?_) fun _ _ _ _ => ⟨trivial, trivial⟩
  have leaves : Stmt.Leaves (fun t : Table => t.tenantScoped = true) (.setConfig h) := trivial
  obtain ⟨db, view⟩ := hw t ht
  cases World.exec_unwritten leaves w with
  | stays db' view' => exact ⟨(db' t ht).trans db, (view' t ht).trans view⟩
  | committed db' view' => exact ⟨(db' t ht).trans view, (view' t ht).trans view⟩
  | dropped db' view' => exact ⟨(db' t ht).trans db, (view' t ht).trans db⟩

theorem setConfig_keeps_dissolving {h : Uuid} {db₀ : State} :
    ProgOf.Keeps World.exec (DissolvingIn h db₀) (fun _ => True) (setConfig h) fun _ => True :=
  keeps_ask_of (fun w hw => hw.unwritten (World.exec_unwritten (s := .setConfig h) trivial w))
    fun _ _ _ _ => ⟨trivial, trivial⟩

/-- The deletion of a household by an admin of it takes all its rows or none, and
by anybody else none. -/
theorem dissolved_or_untouched {env : Env} {householdId : Uuid} {confirmName : String}
    {m : HouseholdMember} {w : World Table} (hw : Untouched w.db w) :
    let w' := (CodeM.run (inContext m.householdId
      (requireAdmin m (deleteHousehold env householdId confirmName m : DissolveM _ Response))) w).2
    (∀ t, t.tenantScoped = true → w'.db t = w.db t) ∨
      m.role = .admin ∧ m.householdId = householdId ∧
        ∀ t, t.tenantScoped = true → w'.db t = others (T := Table) householdId t (w.db t) := by
  intro w'
  have untouched (endpoint : TenantM m.householdId Response)
      (keeps : KeepsRows (Untouched w.db) endpoint) :
      ∀ t, t.tenantScoped = true →
        (CodeM.run (inContext m.householdId endpoint) w).2.db t = w.db t := fun t ht =>
    (((setConfig_keeps_untouched m.householdId).bind fun _ _ => keeps) w hw trivial).1 t ht |>.1
  -- the two checks of the handler stand before its first write
  by_cases admin : m.role = .admin
  · by_cases here : m.householdId = householdId
    · have keeps : KeepsRows (DissolvingIn m.householdId w.db) ((deleteHousehold env householdId
          confirmName m : DissolveM _ Response) : TenantM m.householdId Response) :=
        ProgOf.Keeps.of_within dissolvingIn_step (deleteHousehold env householdId confirmName m)
      have start : DissolvingIn m.householdId w.db w :=
        ⟨.inl fun _ _ => rfl, .inl fun t ht => (hw t ht).2⟩
      have whole := ((setConfig_keeps_dissolving.bind fun _ _ => keeps) w start trivial).1.1
      simp only [w', requireAdmin_of_admin admin]
      rcases whole with all | left
      · exact .inl all
      · exact .inr ⟨admin, here, here ▸ left⟩
    · refine .inl (untouched _ ?_)
      rw [requireAdmin_of_admin admin]
      have refused : (deleteHousehold env householdId confirmName m) =
          throw notAdminHere := by
        unfold deleteHousehold checkHere
        rw [if_pos here]
        rfl
      exact refused ▸ .throw _
  · refine .inl (untouched _ ?_)
    rw [requireAdmin_of_member admin]
    exact .throw _

theorem untouched_of_spared {w : World Table} (hw : w.session.Spared) : Untouched w.db w :=
  fun t ht => ⟨rfl, by simp only [World.view, hw.pending t ht, Change.applyAll_nil]⟩

/-- Tenant rows go with a household only when an admin of it deletes it. -/
theorem householdDelete_serve (c : Call) (db : State) (caller : Option Uuid) (householdId : Uuid)
    (confirmName : String) :
    let r := Request.member caller (.householdDelete householdId confirmName)
    let db' := (c.serve r db).2
    (∀ t, t.tenantScoped = true → db' t = db t) ∨
      (∃ m ∈ db .householdMembers, caller = some m.userId ∧ m.householdId = householdId ∧
        m.role = .admin) ∧
      c.household db r = some householdId ∧
        ∀ t, t.tenantScoped = true → db' t = others (T := Table) householdId t (db t) := by
  intro r db'
  obtain ⟨result, w, resolved, spared, same⟩ :=
    accountM_run (callerMembership c.env caller) (c.start_spared db)
  have lifted : CodeM.run (callerMembership c.env caller : AppM HouseholdMember) (c.start db) =
    (result, w) := resolved
  cases result with
  | error e =>
      have stopped := c.serve_eq (r := r) (CodeM.run_bind_error lifted)
      exact .inl fun t ht => by rw [show db' = w.db from congrArg Prod.snd stopped, same t ht]; rfl
  | ok m =>
      have served := c.serve_eq (r := r) (CodeM.run_bind_ok lifted)
      have found : c.resolved db (callerMembership c.env caller) = some m := by
        rw [Call.resolved, resolved]
        rfl
      rw [show db' = _ from congrArg Prod.snd served]
      rcases dissolved_or_untouched (untouched_of_spared spared) with all | ⟨admin, here, left⟩
      · exact .inl fun t ht => (all t ht).trans (same t ht)
      · obtain ⟨⟨member, called⟩, _⟩ := resolved_member found
        refine .inr ⟨⟨m, member, called, here, admin⟩, ?_, fun t ht => ?_⟩
        · simp only [r, Call.household, found, Option.map_some, here]
        · exact (left t ht).trans (congrArg (others householdId t) (same t ht))

/-! ### Runs of the API -/

/-- A row that a request put into a tenant table belongs to its household. -/
theorem Confined.arrivals {db db' : State} {h : Option Uuid} (hc : Confined db db' h) {t : Table}
    (ht : t.tenantScoped = true) {r : t.Row} (hr : r ∈ db' t) (new : r ∉ db t) :
    h.isSome ∧ t.householdId r = h := by
  cases h with
  | none => exact absurd (hc t ht ▸ hr) new
  | some x =>
      refine ⟨rfl, ?_⟩
      by_contra foreign
      have mem : r ∈ others (T := Table) x t (db' t) := mem_others.mpr ⟨hr, foreign⟩
      rw [hc t ht] at mem
      exact new (mem_others.mp mem).1

/-- A row that a request took out of a tenant table belonged to its household. -/
theorem Confined.departures {db db' : State} {h : Option Uuid} (hc : Confined db db' h) {t : Table}
    (ht : t.tenantScoped = true) {r : t.Row} (hr : r ∈ db t) (gone : r ∉ db' t) :
    h.isSome ∧ t.householdId r = h := by
  cases h with
  | none => exact absurd (hc t ht ▸ hr) gone
  | some x =>
      refine ⟨rfl, ?_⟩
      by_contra foreign
      have mem : r ∈ others (T := Table) x t (db t) := mem_others.mpr ⟨hr, foreign⟩
      rw [← hc t ht] at mem
      exact gone (mem_others.mp mem).1

/-- The household of a row does not change. -/
theorem Confined.householdId_eq {db db' : State} {h : Option Uuid} (hc : Confined db db' h)
    {t : Table} (ht : t.tenantScoped = true) (before : t.Keyed (db t)) (after : t.Keyed (db' t))
    {r r' : t.Row} (hr : r ∈ db t) (hr' : r' ∈ db' t) (same : t.id r' = t.id r) :
    t.householdId r' = t.householdId r := by
  by_cases new : r' ∈ db t
  · rw [List.inj_on_of_nodup_map before new hr same]
  · by_cases gone : r ∈ db' t
    · rw [List.inj_on_of_nodup_map after hr' gone same]
    · rw [(hc.arrivals ht hr' new).2, (hc.departures ht hr gone).2]

/-- Ownership is immutable and writes stay in the household. Whatever requests came
before, a request leaves the tenant rows of everybody but its household as they are,
also those without a household; the rows it adds or takes away are its household's; no
row changes hands; and rows go with their household only when an admin of it deletes it.
Nothing is asked of the request, of its faults or of the database. -/
theorem requests_keep_ownership (earlier : List (Call × Request)) (db₀ : State) (c : Call)
    (r : Request) :
    let db := serveAll earlier db₀
    let db' := (c.serve r db).2
    Confined db db' (c.household db r) ∧
    (∀ t, t.tenantScoped = true → ∀ row, row ∈ db' t ∧ row ∉ db t ∨ row ∈ db t ∧ row ∉ db' t →
      (t.householdId row).isSome ∧ t.householdId row = c.household db r) ∧
    (∀ t, t.tenantScoped = true → t.Keyed (db t) → t.Keyed (db' t) →
      ∀ row ∈ db t, ∀ row' ∈ db' t, t.id row' = t.id row →
        t.householdId row' = t.householdId row) ∧
    ∀ caller householdId confirmName,
      r = .member caller (.householdDelete householdId confirmName) →
      (∀ t, t.tenantScoped = true → db' t = db t) ∨
        (∃ m ∈ db .householdMembers, caller = some m.userId ∧ m.householdId = householdId ∧
          m.role = .admin) ∧
        c.household db r = some householdId ∧
          ∀ t, t.tenantScoped = true → db' t = others (T := Table) householdId t (db t) := by
  intro db db'
  have confined : Confined db db' (c.household db r) := serve_confined c r db
  refine ⟨confined, fun t ht row moved => ?_, fun t ht before after row hr row' hr' same => ?_, ?_⟩
  · -- a row that came or went is one of the household that the request acted for
    have owned : (c.household db r).isSome ∧ t.householdId row = c.household db r := by
      rcases moved with ⟨arrived, new⟩ | ⟨there, gone⟩
      · exact confined.arrivals ht arrived new
      · exact confined.departures ht there gone
    exact ⟨owned.2 ▸ owned.1, owned.2⟩
  · exact confined.householdId_eq ht before after hr hr' same
  · rintro caller householdId confirmName rfl
    exact householdDelete_serve c db caller householdId confirmName

end EspressoLogs
