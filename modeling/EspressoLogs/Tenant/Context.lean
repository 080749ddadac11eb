import EspressoLogs.Tenant.Guard

/-!
Where the household context is lost inside a request.

`set_config` is local to the transaction and the repositories commit. Four
endpoints perform statements on tenant tables behind such a commit, in a new
transaction that has no context: a correction that finds its shot, a bag whose
status is set and that names a catalog entry, new hardware with an image, and a
new maintenance event. No other request does.
-/

namespace EspressoLogs

open Lib Py

/-! ### What a household sees -/

section Seen

variable (h : Uuid) (db : State)

/-- The shots of household `h` under the id. -/
def shotsSeen (shotId : String) : List BrewLog :=
  (own (T := Table) h .brewLog (db .brewLog)).filter (SqlBrewLogRepo.isShot h shotId)

/-- The bags of household `h` that satisfy `p`, as the repository hands them out. -/
def bagsSeen (p : InventoryBag → Bool) : List Dict :=
  (leftJoined (fun bag bean => bag.catalogId == some bean.id)
    ((own (T := Table) h .inventoryBags (db .inventoryBags)).filter p)
    (own (T := Table) h .catalog (db .catalog))).map
      fun r => SqlInventoryRepo.toDict r.1 (r.2.bind CatalogBean.sheetsId)

/-- The hardware of household `h` under the id. -/
def hardwareSeen (hardwareId : String) : List Hardware :=
  (own (T := Table) h .hardware (db .hardware)).filter fun r => r.sheetsId == some hardwareId

/-- The events of household `h`, as the repository hands them out. -/
def eventsSeen : List Dict :=
  (leftJoined (fun log item => log.hardwareId == some item.id)
    (own (T := Table) h .maintenanceLog (db .maintenanceLog))
    (own (T := Table) h .hardware (db .hardware))).map
      fun r => SqlMaintenanceRepo.toDict r.1 (r.2.bind Hardware.sheetsId)

end Seen

/-! ### The condition -/

/-- A row of the maintenance log with these values is accepted. -/
def AcceptsEvent (env : Env) (h : Uuid) (rows : List MaintenanceLog) (row : Dict) : Prop :=
  (∃ id r, SqlMaintenanceRepo.make env row (some h) id = .ok r) ∧
    ∀ r ∈ rows, ∀ s, asText (row.get "Maintenance_ID") = .ok (some s) → r.sheetsId ≠ some s

/-- The request commits and goes on with statements on tenant tables. -/
def MemberRequest.LosesContext (env : Env) (archive : List String) (h : Uuid) (db : State) :
    MemberRequest → Prop
  | .brewLogPatch shotId body => ∃ fields r r', normaliseBrewLogPatch body = .ok fields ∧
      shotsSeen h db shotId = [r] ∧ SqlBrewLogRepo.correct fields r = .ok r'
  | .inventoryPatch bagId status => checkPatchStatus status = .ok () ∧
      ∃ bag, bagsSeen h db (fun b => b.sheetsId == some bagId) = [bag] ∧
        (bag.set "Status" (.str status)).text "Catalog_ID" ≠ "" ∧
        SqlInventoryRepo.entity.Accepts h (db .inventoryBags) (bag.set "Status" (.str status))
  | .hardwareCreate body => checkHardware env body = .ok () ∧
      ∃ id, HardwareRepo.nextId archive body.category = .ok id ∧
        (hardwareImage env body id).isSome ∧
        SqlHardwareRepo.entity.Accepts h (db .hardware) (hardwareRow body id)
  | .maintenanceCreate body => ∃ item id, hardwareSeen h db body.hardwareId = [item] ∧
      checkMaintenance (SqlHardwareRepo.toDict item) body = .ok () ∧
      makeMaintenanceId ((eventsSeen h db).map fun e => e.text "Maintenance_ID") = .ok id ∧
      AcceptsEvent env h (db .maintenanceLog) (maintenanceRow body id)
  | _ => False

/-- The request loses the context of the household it resolves to. -/
def Call.LosesContext (c : Call) (db : State) : Request → Prop
  | .member caller request => ∃ m, c.resolved db (callerMembership c.env caller) = some m ∧
      request.LosesContext c.env c.archive m.householdId db
  | _ => False

variable {h : Uuid} {db : State} {w w' : World Table}

/-! ### Correcting a shot -/

theorem normaliseGrindSetting_key {v : Option (Option String)} {o : Option (String × Val)}
    (ok : normaliseGrindSetting v = .ok o) : o.map Prod.fst = v.map fun _ => "grind_setting" := by
  cases v with
  | none =>
      cases ok
      rfl
  | some text =>
      simp only [normaliseGrindSetting] at ok
      split at ok
      · cases ok
        rfl
      · split at ok
        · cases ok
        · split at ok
          · cases ok
            rfl
          · cases ok

theorem normaliseShotEligibility_key {v : Option (Option String)} {o : Option (String × Val)}
    (ok : normaliseShotEligibility v = .ok o) :
    o.map Prod.fst = v.map fun _ => "shot_eligibility" := by
  rcases v with _ | _ | text
  · cases ok
    rfl
  · cases ok
    rfl
  · simp only [normaliseShotEligibility] at ok
    split at ok
    · cases ok
      rfl
    · split at ok
      · cases ok
        rfl
      · cases ok

/-- A patch that passes its checks has a field to set. -/
theorem editable_of_normalise {body : BrewLogPatchBody} {fields : Dict}
    (ok : normaliseBrewLogPatch body = .ok fields) :
    SqlBrewLogRepo.correctable.any fields.has = true := by
  unfold normaliseBrewLogPatch at ok
  split at ok
  · cases ok
  · rename_i sent
    obtain ⟨grindSetting, hg, ok⟩ := bind_eq_ok ok
    obtain ⟨shotEligibility, hs, ok⟩ := bind_eq_ok ok
    have grindKey := normaliseGrindSetting_key hg
    have eligibilityKey := normaliseShotEligibility_key hs
    obtain ⟨taste, notes, grind, eligibility⟩ := body
    cases ok
    have keyed : ∃ k ∈ SqlBrewLogRepo.correctable, k ∈ List.map Prod.fst
        ((taste.map fun v => ("taste_summary", ofOption v)).toList ++
          (notes.map fun v => ("user_notes", ofOption v)).toList ++
          grindSetting.toList ++ shotEligibility.toList) := by
      simp only [BrewLogPatchBody.isEmpty, Bool.and_eq_true, Option.isNone_iff_eq_none] at sent
      by_cases ht : taste = none
      · by_cases hn : notes = none
        · by_cases hgr : grind = none
          · have he : eligibility ≠ none := fun he => sent ⟨⟨⟨ht, hn⟩, hgr⟩, he⟩
            obtain ⟨v, rfl⟩ := Option.ne_none_iff_exists'.mp he
            obtain ⟨x, rfl, hx⟩ := Option.map_eq_some_iff.mp eligibilityKey
            exact ⟨"shot_eligibility", by simp [SqlBrewLogRepo.correctable], by simp [← hx]⟩
          · obtain ⟨v, rfl⟩ := Option.ne_none_iff_exists'.mp hgr
            obtain ⟨x, rfl, hx⟩ := Option.map_eq_some_iff.mp grindKey
            exact ⟨"grind_setting", by simp [SqlBrewLogRepo.correctable], by simp [← hx]⟩
        · obtain ⟨v, rfl⟩ := Option.ne_none_iff_exists'.mp hn
          exact ⟨"user_notes", by simp [SqlBrewLogRepo.correctable], by simp⟩
      · obtain ⟨v, rfl⟩ := Option.ne_none_iff_exists'.mp ht
        exact ⟨"taste_summary", by simp [SqlBrewLogRepo.correctable], by simp⟩
    obtain ⟨k, hk, mem⟩ := keyed
    exact List.any_eq_true.mpr ⟨k, hk, Dict.has_iff.mpr mem⟩

/-- What a correction leaves as it is. -/
def SameKeys (r r' : BrewLog) : Prop :=
  r'.id = r.id ∧ r'.householdId = r.householdId ∧ r'.sheetsId = r.sheetsId ∧
    r'.idempotencyKey = r.idempotencyKey

/-- Two corrections in a row. -/
theorem SameKeys.trans {r r' r'' : BrewLog} (first : SameKeys r r') (second : SameKeys r' r'') :
    SameKeys r r'' := by
  obtain ⟨a, b, c, d⟩ := first
  obtain ⟨a', b', c', d'⟩ := second
  exact ⟨a'.trans a, b'.trans b, c'.trans c, d'.trans d⟩

theorem whenGiven_sameKeys {fields : Dict} {key : String}
    {set : Val → BrewLog → Except StmtError BrewLog} {r r' : BrewLog}
    (kept : ∀ v r r', set v r = .ok r' → SameKeys r r')
    (ok : SqlBrewLogRepo.whenGiven fields key set r = .ok r') : SameKeys r r' := by
  unfold SqlBrewLogRepo.whenGiven at ok
  split at ok
  · exact kept _ _ _ ok
  · cases ok
    exact ⟨rfl, rfl, rfl, rfl⟩

/-- A correction of a shot leaves its key and its hash alone. -/
theorem correct_sameKeys {fields : Dict} {r r' : BrewLog}
    (ok : SqlBrewLogRepo.correct fields r = .ok r') : SameKeys r r' := by
  unfold SqlBrewLogRepo.correct at ok
  obtain ⟨r₁, taste, ok⟩ := bind_eq_ok ok
  obtain ⟨r₂, notes, ok⟩ := bind_eq_ok ok
  obtain ⟨r₃, grind, eligibility⟩ := bind_eq_ok ok
  have first : SameKeys r r₁ := whenGiven_sameKeys (fun v r r' eq => by
    obtain ⟨_, _, eq⟩ := bind_eq_ok eq
    cases eq
    exact ⟨rfl, rfl, rfl, rfl⟩) taste
  have second : SameKeys r₁ r₂ := whenGiven_sameKeys (fun v r r' eq => by
    obtain ⟨_, _, eq⟩ := bind_eq_ok eq
    cases eq
    exact ⟨rfl, rfl, rfl, rfl⟩) notes
  have third : SameKeys r₂ r₃ := whenGiven_sameKeys (fun v r r' eq => by
    obtain ⟨_, _, eq⟩ := bind_eq_ok eq
    cases eq
    exact ⟨rfl, rfl, rfl, rfl⟩) grind
  have fourth : SameKeys r₃ r' := whenGiven_sameKeys (fun v r r' eq => by
    obtain ⟨_, _, eq⟩ := bind_eq_ok eq
    cases eq
    exact ⟨rfl, rfl, rfl, rfl⟩) eligibility
  exact first.trans (second.trans (third.trans fourth))

/-- A new value for columns of one shot, none of them a key. -/
theorem run_setShot (live : w.Live) (context : w.session.context = some h) {shotId : String}
    {set : BrewLog → Except StmtError BrewLog} {r r' : BrewLog}
    (seen : shotsSeen h w.view shotId = [r]) (done : set r = .ok r') (same : SameKeys r r') :
    (DbM.update .brewLog (SqlBrewLogRepo.isShot h shotId) set).run w =
      (.ok [r'], w.pend .brewLog (.upd [(r, r')])) := by
  obtain ⟨_, owner, sheetsId, key⟩ := same
  have matched : (w.visible .brewLog).filter (SqlBrewLogRepo.isShot h shotId) = [r] := by
    rw [visible_eq_own context rfl]
    exact seen
  have mem : r ∈ shotsSeen h w.view shotId := by
    rw [seen]
    exact List.mem_cons_self
  have owned : r.householdId = some h := (mem_own.mp (List.mem_filter.mp mem).1).2
  have pairs : rewritten set [r] = [(r, r')] := by
    simp [rewritten, done, Except.toOption]
  have verdict : w.refused .brewLog (.upd [(r, r')]) = none := by
    rw [World.refused_of_nothing_gained]
    · rw [if_pos]
      rw [context]
      simp [Change.news, sees, Schema.owner, Table.householdId, owner, owned]
    · refine World.gained_eq_nil fun x hx => ?_
      rw [List.mem_singleton.mp hx]
      show Table.entries .brewLog r' ⊆ Table.entries .brewLog r
      simp only [Table.entries, owner, sheetsId, key]
      exact List.Subset.refl _
    · refine World.referenced_eq_nil fun x hx => ?_
      rw [List.mem_singleton.mp hx]
      show Table.parents .brewLog r' ⊆ Table.parents .brewLog r
      simp only [Table.parents, owner]
      exact List.Subset.refl _
  rw [run_update live, matched, pairs]
  · rfl
  · intro x hx
    rw [matched] at hx
    rw [List.mem_singleton.mp hx, done]
    rfl
  · rw [matched, pairs]
    exact verdict

/-- The rows that a correction looks at, and what it makes of a single one. -/
theorem run_correction (serves : Serves h w) (reflects : Reflects db w) {shotId : String}
    {fields : Dict} {r r' : BrewLog} (seen : shotsSeen h db shotId = [r])
    (corrected : SqlBrewLogRepo.correct fields r = .ok r') :
    (DbM.update .brewLog (SqlBrewLogRepo.isShot h shotId) (SqlBrewLogRepo.correct fields)).run w =
      (.ok [r'], w.pend .brewLog (.upd [(r, r')])) := by
  have here : shotsSeen h w.view shotId = [r] := by
    rw [shotsSeen, reflects .brewLog rfl]
    exact seen
  exact run_setShot serves.live serves.context here corrected (correct_sameKeys corrected)

/-- A correction that finds its shot commits. -/
theorem run_updateCorrection (serves : Serves h w) (reflects : Reflects db w) {shotId : String}
    {fields : Dict} {r r' : BrewLog} (editable : SqlBrewLogRepo.correctable.any fields.has = true)
    (seen : shotsSeen h db shotId = [r]) (corrected : SqlBrewLogRepo.correct fields r = .ok r') :
    (DualWriteBrewLogRepo.updateCorrection shotId fields).run w =
      (.ok (some (SqlBrewLogRepo.toDict r')), (w.pend .brewLog (.upd [(r, r')])).committed) := by
  refine CodeM.run_catch_ok ?_
  have context : CodeM.run (currentHouseholdId : DbM (Option Uuid)) w = (.ok (some h), w) := by
    rw [← serves.context]
    exact run_currentSetting serves.live
  refine CodeM.run_bind_of context ?_
  simp only [editable, Bool.not_true, Bool.false_eq_true, if_false]
  refine CodeM.run_bind_of (run_correction serves reflects seen corrected) ?_
  refine CodeM.run_bind_of (a := some r') rfl ?_
  exact CodeM.run_bind_of (run_commit (serves.live.pend _ _)) rfl

/-- A correction that returns a shot found it. -/
theorem corrected_of_run (serves : Serves h w) (reflects : Reflects db w) {shotId : String}
    {fields d : Dict} (editable : SqlBrewLogRepo.correctable.any fields.has = true)
    (returned : (SqlBrewLogRepo.updateCorrection shotId fields).run w = (.ok (some d), w')) :
    ∃ r r', shotsSeen h db shotId = [r] ∧ SqlBrewLogRepo.correct fields r = .ok r' := by
  have context : CodeM.run (currentHouseholdId : DbM (Option Uuid)) w = (.ok (some h), w) := by
    rw [← serves.context]
    exact run_currentSetting serves.live
  unfold SqlBrewLogRepo.updateCorrection at returned
  rw [CodeM.run_bind_ok context] at returned
  simp only [editable, Bool.not_true, Bool.false_eq_true, if_false] at returned
  obtain ⟨rows, w₁, updated, returned⟩ := CodeM.run_bind_eq_ok returned
  obtain ⟨o, w₂, single, returned⟩ := CodeM.run_bind_eq_ok returned
  obtain ⟨fits, _, written, _⟩ := run_update_eq_ok serves.live updated
  obtain ⟨one, _⟩ := CodeM.run_oneOrNone_eq_ok single
  have matched : (w.visible .brewLog).filter (SqlBrewLogRepo.isShot h shotId) =
      shotsSeen h db shotId := by
    rw [visible_eq_own serves.context rfl, reflects .brewLog rfl]
    rfl
  rw [matched] at fits written
  cases o with
  | none => cases returned
  | some x =>
      have length : (shotsSeen h db shotId).length = 1 := by
        have same := congrArg List.length (written.symm.trans one)
        simpa [rewritten] using same
      obtain ⟨r, seen⟩ := List.length_eq_one_iff.mp length
      have fit := fits r (by rw [seen]; exact List.mem_cons_self)
      cases corrected : SqlBrewLogRepo.correct fields r with
      | error e =>
          rw [corrected] at fit
          cases fit
      | ok r' => exact ⟨r, r', seen, corrected⟩

theorem get_firm (shotId : String) : (SqlBrewLogRepo.get shotId).Firm := by
  refine .bind (.ask .currentSetting trivial) fun context => ?_
  cases context with
  | none => exact .pure none
  | some h =>
      exact .bind (.ask (.select .brewLog _) trivial) fun rows =>
        .bind (.oneOrNone rows) fun _ => .pure _

theorem updateCorrection_firm (shotId : String) (fields : Dict) :
    (SqlBrewLogRepo.updateCorrection shotId fields).Firm := by
  refine .bind (.lift _ (.ask .currentSetting trivial)) fun context => ?_
  cases context with
  | none => exact .pure none
  | some h =>
      simp only
      split
      · exact .lift _ (get_firm shotId)
      · refine .bind (.ask (.update .brewLog _ _) trivial) fun rows => ?_
        refine .bind (.oneOrNone rows) fun updated => ?_
        cases updated with
        | none => exact .pure none
        | some r => exact .bind (.ask .commit trivial) fun _ => .pure _

/-- The correction stays in its context: it commits last. -/
theorem updateCorrection_guarded (shotId : String) (fields : Dict) (hw : HasContext h w) :
    (SqlBrewLogRepo.updateCorrection shotId fields).Guarded h w := by
  refine .after (reads currentHouseholdId) hw fun context w₁ _ h₁ => ?_
  cases context with
  | none => exact .pure none
  | some h' =>
      simp only
      split
      · exact .lasting (reads (SqlBrewLogRepo.get shotId)) h₁
      · refine .after (lasting_ask (.update .brewLog _ _) _ trivial) h₁ fun rows w₂ _ h₂ => ?_
        refine .after (lasting_oneOrNone rows) h₂ fun updated w₃ _ h₃ => ?_
        cases updated with
        | none => exact .pure none
        | some r => exact .bind (quiet_ask _ id) fun _ _ _ => .pure _

theorem Entered.hasContext (entered : Entered h db w) : HasContext h w := fun _ => entered.context

/-- A patch that is refused, finds no shot or cannot be stored reads nothing after a
commit. -/
theorem brewLogPatch_guarded {env : Env} {archive : List String} (entered : Entered h db w)
    {shotId : String} {body : BrewLogPatchBody}
    (kept : ¬ (MemberRequest.brewLogPatch shotId body).LosesContext env archive h db) :
    (apiBrewLogPatch shotId body).Guarded h w := by
  refine .after (lasting_liftExcept _) entered.hasContext fun fields w₁ checked _ => ?_
  obtain ⟨ok, rfl⟩ := CodeM.run_liftExcept_eq_ok checked
  refine .bind (orRollback_guarded (updateCorrection_guarded shotId fields entered.hasContext))
    fun updated w₂ corrected => ?_
  cases updated with
  | none => exact .throw _
  | some d =>
      exfalso
      have calm := updateCorrection_firm shotId fields _ _ _ (orRollback_eq_ok corrected)
      obtain ⟨r, r', seen, eq⟩ := corrected_of_run entered.serves entered.reflects
        (editable_of_normalise ok) calm
      exact kept ⟨fields, r, r', ok, seen, eq⟩

/-- A patch that finds its shot commits, and then reads the names to show with no
context set. -/
theorem brewLogPatch_loses {env : Env} {archive : List String} (entered : Entered h db w)
    (live : w.Live) {shotId : String} {body : BrewLogPatchBody}
    (loses : (MemberRequest.brewLogPatch shotId body).LosesContext env archive h db) :
    ¬ (apiBrewLogPatch shotId body).Guarded h w := by
  obtain ⟨fields, r, r', ok, seen, eq⟩ := loses
  intro guarded
  unfold apiBrewLogPatch at guarded
  rw [ok] at guarded
  have serves : Serves h w := ⟨live, entered.context, entered.stored⟩
  have corrected := run_updateCorrection serves entered.reflects (editable_of_normalise ok) seen eq
  have checked : (liftExcept (.ok fields) : DbM Dict).run w = (.ok fields, w) := rfl
  have behind := CodeM.Guarded.of_bind guarded checked
  have rest := CodeM.Guarded.of_bind behind corrected
  exact CodeM.not_guarded_op (s := .join .inventoryBags .catalog _ _) (.inl rfl) rfl rfl rest

/-! ### Setting the status of a bag -/

theorem run_withCatalog (serves : Serves h w) (reflects : Reflects db w) (p : InventoryBag → Bool) :
    (SqlInventoryRepo.withCatalog p).run w = (.ok (bagsSeen h db p), w) := by
  refine CodeM.run_bind_of (run_leftJoin serves.live .inventoryBags .catalog _ p) ?_
  unfold World.joined
  rw [visible_eq_own serves.context rfl, visible_eq_own serves.context rfl,
    reflects .inventoryBags rfl, reflects .catalog rfl]
  rfl

theorem withCatalog_firm (p : InventoryBag → Bool) : (SqlInventoryRepo.withCatalog p).Firm :=
  .bind (.ask (.join .inventoryBags .catalog _ p) trivial) fun _ => .pure _

theorem getBag_firm (bagId : String) : (SqlInventoryRepo.get bagId).Firm :=
  .bind (withCatalog_firm _) fun rows => .oneOrNone rows

theorem bag_anonymous (r : InventoryBag) (c : Option String) (status : String) :
    Dict.Anonymous ((SqlInventoryRepo.toDict r c).set "Status" (.str status)) := rfl

/-- The bag that is returned is the only one with its id. -/
theorem seen_of_getBag (serves : Serves h w) (reflects : Reflects db w) {bagId : String}
    {o : Option Dict} (returned : (SqlInventoryRepo.get bagId).run w = (.ok o, w')) :
    bagsSeen h db (fun b => b.sheetsId == some bagId) = o.toList := by
  obtain ⟨rows, w₁, joined, single⟩ := CodeM.run_bind_eq_ok returned
  rw [run_withCatalog serves reflects] at joined
  cases joined
  exact (CodeM.run_oneOrNone_eq_ok single).1

/-- What is handed out is made by `toDict`, with no household in it. -/
theorem mem_bagsSeen {p : InventoryBag → Bool} {d : Dict} (hd : d ∈ bagsSeen h db p) :
    ∃ r c, d = SqlInventoryRepo.toDict r c := by
  obtain ⟨x, _, rfl⟩ := List.mem_map.mp hd
  exact ⟨_, _, rfl⟩

/-- A patch that is refused, finds no bag or whose row is not taken reads nothing after
a commit. -/
theorem inventoryPatch_guarded {env : Env} {archive : List String} (entered : Entered h db w)
    {bagId status : String}
    (kept : ¬ (MemberRequest.inventoryPatch bagId status).LosesContext env archive h db) :
    (apiInventoryPatch bagId status).Guarded h w := by
  refine .after (lasting_liftExcept _) entered.hasContext fun _ w₁ checked _ => ?_
  obtain ⟨ok, rfl⟩ := CodeM.run_liftExcept_eq_ok checked
  refine .after (reads (SqlInventoryRepo.get bagId)) entered.hasContext fun o w₂ got h₂ => ?_
  obtain ⟨calm, got⟩ := read_calm (SqlInventoryRepo.get bagId).within (getBag_firm bagId)
    entered.inOrder got
  have seen := seen_of_getBag entered.serves entered.reflects got
  refine .after (lasting_orRaise _ o) h₂ fun bag w₃ found _ => ?_
  obtain ⟨rfl, rfl⟩ := CodeM.run_orRaise_eq_ok found
  refine .bind (orRollback_guarded (SqlInventoryRepo.entity.upsert_guarded _ h₂))
    fun _ w₄ upserted => ?_
  obtain ⟨r, c, rfl⟩ := mem_bagsSeen (by rw [seen]; exact List.mem_cons_self)
  have stored := SqlInventoryRepo.entity.upsert_firm _ _ _ _ (orRollback_eq_ok upserted)
  rw [calm] at stored
  have accepts := SqlInventoryRepo.entity.accepts_of_upsert entered.serves
    (bag_anonymous r c status) stored
  rw [show w.calm.view .inventoryBags = db .inventoryBags from
    entered.reflects .inventoryBags rfl] at accepts
  have unnamed : ((SqlInventoryRepo.toDict r c).set "Status" (.str status)).text "Catalog_ID" =
      "" := by
    by_contra named
    exact kept ⟨ok, _, seen, named, accepts⟩
  unfold resolveDisplayName
  rw [if_pos unnamed]
  exact .pure _

/-- A patch that finds its bag commits the upsert, and then looks the name of its bean
up with no context set. -/
theorem inventoryPatch_loses {env : Env} {archive : List String} (entered : Entered h db w)
    (live : w.Live) (keyed : ∀ t : Table, t.Keyed (db t)) {bagId status : String}
    (loses : (MemberRequest.inventoryPatch bagId status).LosesContext env archive h db) :
    ¬ (apiInventoryPatch bagId status).Guarded h w := by
  obtain ⟨ok, bag, seen, named, accepts⟩ := loses
  have serves : Serves h w := ⟨live, entered.context, entered.stored⟩
  have view := entered.reflects .inventoryBags rfl
  obtain ⟨r, c, rfl⟩ := mem_bagsSeen (by rw [seen]; exact List.mem_cons_self)
  rw [← view] at accepts
  obtain ⟨w₁, stored, _⟩ := SqlInventoryRepo.entity.upsert_of_accepts serves
    (view ▸ keyed .inventoryBags) (bag_anonymous r c status) accepts
  intro guarded
  unfold apiInventoryPatch at guarded
  rw [ok] at guarded
  have checked : (liftExcept (.ok ()) : DbM Unit).run w = (.ok (), w) := rfl
  have got : CodeM.run (SqlInventoryRepo.get bagId : DbM (Option Dict)) w =
      (.ok (some (SqlInventoryRepo.toDict r c)), w) := by
    refine CodeM.run_bind_of (run_withCatalog serves entered.reflects _) ?_
    rw [seen]
    rfl
  have behindCheck := CodeM.Guarded.of_bind guarded checked
  have behindGet := CodeM.Guarded.of_bind behindCheck got
  have found : (orRaise bagNotFound (some (SqlInventoryRepo.toDict r c)) : DbM Dict).run w =
      (.ok (SqlInventoryRepo.toDict r c), w) := rfl
  have behindFound := CodeM.Guarded.of_bind behindGet found
  have written : (DualWriteInventoryRepo.upsert
      ((SqlInventoryRepo.toDict r c).set "Status" (.str status))).run w =
        (.ok (), w₁.committed) := CodeM.run_catch_ok stored
  have rest := CodeM.Guarded.of_bind behindFound written
  unfold resolveDisplayName at rest
  rw [if_neg named] at rest
  exact CodeM.not_guarded_op (s := .select .catalog _) rfl rfl rfl rest

/-! ### New hardware -/

theorem hardware_anonymous (body : HardwareCreateBody) (id : String) :
    Dict.Anonymous (hardwareRow body id) := rfl

theorem image_anonymous (body : HardwareCreateBody) (id path : String) :
    Dict.Anonymous ((hardwareRow body id).set "Local_Image_Path" (.str path)) := rfl

/-- An id that is drawn is not empty. -/
theorem nextId_ne_empty {archive : List String} {category id : String}
    (next : HardwareRepo.nextId archive category = .ok id) : id ≠ "" := by
  unfold HardwareRepo.nextId at next
  cases found : HardwareRepo.idPrefix category with
  | none =>
      rw [found] at next
      cases next
  | some p =>
      have named : p.toList ≠ [] := by
        unfold HardwareRepo.idPrefix at found
        simp only [List.lookup_cons, List.lookup_nil] at found
        repeat' split at found
        all_goals cases found
        all_goals decide
      rw [found] at next
      have lists : ∀ s : String, p ++ s ≠ "" := by
        intro s empty
        have none := congrArg String.toList empty
        rw [String.toList_append] at none
        exact named (List.append_eq_nil_iff.mp none).1
      simp only at next
      split at next
      · cases next
        exact lists _
      · rename_i n _
        cases written : pyFormat 2 (n + 1) with
        | error e =>
            rw [written] at next
            cases next
        | ok s =>
            rw [written] at next
            cases next
            exact lists s

/-- A piece that is refused, cannot be stored or has no image is not stored a second
time. -/
theorem hardwareCreate_guarded {env : Env} {archive : List String} (entered : Entered h db w)
    {body : HardwareCreateBody}
    (kept : ¬ (MemberRequest.hardwareCreate body).LosesContext env archive h db) :
    (apiHardwareCreate env archive body).Guarded h w := by
  refine .after (lasting_liftExcept _) entered.hasContext fun _ w₁ checked _ => ?_
  obtain ⟨ok, rfl⟩ := CodeM.run_liftExcept_eq_ok checked
  refine .after (lasting_liftExcept _) entered.hasContext fun id w₂ next _ => ?_
  obtain ⟨counted, rfl⟩ := CodeM.run_liftExcept_eq_ok next
  refine .bind (orRollback_guarded (SqlHardwareRepo.entity.upsert_guarded _ entered.hasContext))
    fun _ w₃ upserted => ?_
  have stored := SqlHardwareRepo.entity.upsert_firm _ _ _ _ (orRollback_eq_ok upserted)
  have accepts := SqlHardwareRepo.entity.accepts_of_upsert entered.serves
    (hardware_anonymous body id) stored
  rw [show w.calm.view .hardware = db .hardware from entered.reflects .hardware rfl] at accepts
  cases image : hardwareImage env body id with
  | none => exact .bind (.pure _) fun _ _ _ => .pure _
  | some path =>
      exact absurd ⟨ok, id, counted, by rw [image]; rfl, accepts⟩ kept

/-- A piece with an image is upserted once more with the path of it, after the commit of
the first upsert. -/
theorem hardwareCreate_loses {env : Env} {archive : List String} (entered : Entered h db w)
    (live : w.Live) (keyed : ∀ t : Table, t.Keyed (db t)) {body : HardwareCreateBody}
    (loses : (MemberRequest.hardwareCreate body).LosesContext env archive h db) :
    ¬ (apiHardwareCreate env archive body).Guarded h w := by
  obtain ⟨ok, id, next, image, accepts⟩ := loses
  have serves : Serves h w := ⟨live, entered.context, entered.stored⟩
  have view := entered.reflects .hardware rfl
  rw [← view] at accepts
  obtain ⟨w₁, stored, live₁, _⟩ := SqlHardwareRepo.entity.upsert_of_accepts serves
    (view ▸ keyed .hardware) (hardware_anonymous body id) accepts
  obtain ⟨path, image⟩ := Option.isSome_iff_exists.mp image
  intro guarded
  unfold apiHardwareCreate at guarded
  rw [ok] at guarded
  have checked : (liftExcept (.ok ()) : DbM Unit).run w = (.ok (), w) := rfl
  have behindCheck := CodeM.Guarded.of_bind guarded checked
  rw [next] at behindCheck
  have counted : (liftExcept (.ok id) : DbM String).run w = (.ok id, w) := rfl
  have behindCount := CodeM.Guarded.of_bind behindCheck counted
  have written : (DualWriteHardwareRepo.upsert (hardwareRow body id)).run w =
      (.ok (), w₁.committed) := CodeM.run_catch_ok stored
  have behindWrite := CodeM.Guarded.of_bind behindCount written
  have rest := CodeM.Guarded.left behindWrite
  rw [image] at rest
  have again := CodeM.Guarded.left (CodeM.Guarded.of_catch rest)
  refine SqlHardwareRepo.entity.upsert_lost live₁.committed rfl (image_anonymous body id path) ?_
    (CodeM.Guarded.of_catch again)
  show decide (id ≠ "") = true
  exact decide_eq_true (nextId_ne_empty next)

/-! ### New maintenance events -/

theorem run_getHardware (serves : Serves h w) (reflects : Reflects db w) (hardwareId : String) :
    (SqlHardwareRepo.get hardwareId).run w =
      (do
        let row ← (oneOrNone (hardwareSeen h db hardwareId) : ReadM _)
        return row.map SqlHardwareRepo.toDict : ReadM (Option Dict)).run w := by
  refine (CodeM.run_bind_ok (run_select serves.live .hardware _)).trans ?_
  rw [visible_eq_own serves.context rfl, reflects .hardware rfl]
  rfl

theorem run_listEvents (serves : Serves h w) (reflects : Reflects db w) :
    (SqlMaintenanceRepo.list none).run w = (.ok (eventsSeen h db), w) := by
  refine CodeM.run_bind_of (run_leftJoin serves.live .maintenanceLog .hardware _ _) ?_
  unfold World.joined
  rw [visible_eq_own serves.context rfl, visible_eq_own serves.context rfl,
    reflects .maintenanceLog rfl, reflects .hardware rfl]
  have all : ∀ rows : List MaintenanceLog, rows.filter (fun _ => true) = rows :=
    fun rows => List.filter_eq_self.mpr fun _ _ => rfl
  have every : ∀ rows : List (MaintenanceLog × Option Hardware),
      rows.filter (fun _ => true) = rows :=
    fun rows => List.filter_eq_self.mpr fun _ _ => rfl
  refine congrArg (fun rows => (Except.ok rows, w)) (congrArg (List.map _) ?_)
  exact (every _).trans (congrArg (fun rows => leftJoined _ rows _) (all _))

theorem getHardware_firm (hardwareId : String) : (SqlHardwareRepo.get hardwareId).Firm :=
  .bind (.ask (.select .hardware _) trivial) fun rows => .bind (.oneOrNone rows) fun _ => .pure _

theorem listEvents_firm (hardwareId : Option String) :
    (SqlMaintenanceRepo.list hardwareId).Firm :=
  .bind (.ask (.join .maintenanceLog .hardware _ _) trivial) fun _ => .pure _

/-- What `get` returns is the one piece of the household under that id. -/
theorem seen_of_getHardware (serves : Serves h w) (reflects : Reflects db w) {hardwareId : String}
    {d : Dict} (returned : (SqlHardwareRepo.get hardwareId).run w = (.ok (some d), w')) :
    ∃ item, hardwareSeen h db hardwareId = [item] ∧ d = SqlHardwareRepo.toDict item := by
  rw [run_getHardware serves reflects] at returned
  obtain ⟨o, _, single, mapped⟩ := CodeM.run_bind_eq_ok returned
  obtain ⟨seen, _⟩ := CodeM.run_oneOrNone_eq_ok single
  cases o with
  | none => cases mapped
  | some item =>
      cases mapped
      exact ⟨item, seen, rfl⟩

/-- The row that the request builds names no household. -/
theorem event_anonymous (body : MaintenanceCreateBody) (id : String) :
    Dict.Anonymous (maintenanceRow body id) := rfl

theorem makeEvent_eq_ok {env : Env} {row : Dict} {o : Option Uuid} {id : Uuid} {r : MaintenanceLog}
    (made : SqlMaintenanceRepo.make env row o id = .ok r) :
    r.id = id ∧ asText (row.get "Maintenance_ID") = .ok r.sheetsId ∧ r.householdId = o ∧
      Table.parents .maintenanceLog r = Table.reference .households o := by
  unfold SqlMaintenanceRepo.make at made
  obtain ⟨sheetsId, written, made⟩ := bind_eq_ok made
  repeat obtain ⟨_, _, made⟩ := bind_eq_ok made
  cases made
  exact ⟨rfl, written, rfl, List.append_nil _⟩

/-- Whether an event can be made does not depend on the id that is drawn. -/
theorem makeEvent_total {env : Env} {row : Dict} {o : Option Uuid} {id : Uuid} {r : MaintenanceLog}
    (made : SqlMaintenanceRepo.make env row o id = .ok r) (id₂ : Uuid) :
    ∃ r₂, SqlMaintenanceRepo.make env row o id₂ = .ok r₂ := by
  unfold SqlMaintenanceRepo.make at made ⊢
  repeat obtain ⟨_, _, made⟩ := bind_eq_ok made
  simp only [*, ok_bind]
  exact ⟨_, rfl⟩

/-- A new event is let in exactly when nobody holds its id. -/
theorem refused_event_iff (serves : Serves h w) {env : Env} {row : Dict} {id : Uuid}
    {r : MaintenanceLog} (made : SqlMaintenanceRepo.make env row (some h) id = .ok r) :
    w.refused .maintenanceLog (.ins r) = none ↔ AcceptsEvent env h (w.view .maintenanceLog) row := by
  obtain ⟨_, written, owner, parents⟩ := makeEvent_eq_ok made
  have entries : ∀ r : MaintenanceLog, Table.entries .maintenanceLog r =
      ((MaintenanceLog.sheetsId r).map (.sheetsId .maintenanceLog)).toList := fun _ => rfl
  have verdict := refused_new_iff (t := .maintenanceLog) entries serves owner parents
  rw [verdict]
  constructor
  · intro free
    refine ⟨⟨id, r, made⟩, fun r₂ hr₂ s hs => free r₂ hr₂ s ?_⟩
    rw [written] at hs
    exact Except.ok.inj hs
  · rintro ⟨_, free⟩ r₂ hr₂ s hs
    exact free r₂ hr₂ s (by rw [written, hs])

/-- An event that cannot be stored raises before the commit. -/
theorem maintenanceCreate_guarded {env : Env} {archive : List String} (entered : Entered h db w)
    {body : MaintenanceCreateBody}
    (kept : ¬ (MemberRequest.maintenanceCreate body).LosesContext env archive h db) :
    (apiMaintenanceCreate env body).Guarded h w := by
  refine .after (reads (SqlHardwareRepo.get body.hardwareId)) entered.hasContext
    fun o w₁ got h₁ => ?_
  obtain ⟨calm₁, got⟩ := read_calm (SqlHardwareRepo.get body.hardwareId).within
    (getHardware_firm _) entered.inOrder got
  refine .after (lasting_orRaise _ o) h₁ fun d w₂ found _ => ?_
  obtain ⟨rfl, rfl⟩ := CodeM.run_orRaise_eq_ok found
  obtain ⟨item, seen, rfl⟩ := seen_of_getHardware entered.serves entered.reflects got
  refine .after (lasting_liftExcept _) h₁ fun _ w₃ checked _ => ?_
  obtain ⟨ok, rfl⟩ := CodeM.run_liftExcept_eq_ok checked
  have inOrder₁ : w₁.session.failed = false := by
    rw [← World.calm_failed, calm₁]
    exact entered.inOrder
  refine .after (reads (SqlMaintenanceRepo.list none)) h₁ fun events w₄ listed h₄ => ?_
  obtain ⟨calm₄, listed⟩ := read_calm (SqlMaintenanceRepo.list none).within (listEvents_firm none)
    inOrder₁ listed
  rw [calm₁, run_listEvents entered.serves entered.reflects] at listed
  cases listed
  refine .after (lasting_liftExcept _) h₄ fun id w₅ counted _ => ?_
  obtain ⟨next, rfl⟩ := CodeM.run_liftExcept_eq_ok counted
  refine .bind (orRollback_guarded ?_) fun _ _ _ => .pure _
  refine .after (reads (rowHouseholdIdOrContext _)) h₄ fun owner w₆ owned h₆ => ?_
  have inOrder₄ : w₄.session.failed = false := by
    rw [← World.calm_failed, calm₄, calm₁]
    exact entered.inOrder
  obtain ⟨calm₆, owned⟩ := read_calm (rowHouseholdIdOrContext _).within
    (rowHouseholdIdOrContext_firm _) inOrder₄ owned
  rw [calm₄, calm₁, run_rowHouseholdIdOrContext (event_anonymous body id) entered.serves.live,
    entered.serves.context] at owned
  cases owned
  refine .after (lasting_ask (.insert .maintenanceLog _) _ trivial) h₆ fun r w₇ inserted _ => ?_
  exfalso
  have calm := CodeM.Firm.ask (P := IsPlain) (.insert .maintenanceLog _) trivial _ _ _ inserted
  rw [calm₆, calm₄, calm₁] at calm
  obtain ⟨made, fits, _⟩ := run_insert_eq_ok entered.serves.live calm
  have accepts := (refused_event_iff entered.serves made).mp fits
  rw [show w.calm.view .maintenanceLog = db .maintenanceLog from
    entered.reflects .maintenanceLog rfl] at accepts
  exact kept ⟨item, id, seen, ok, next, accepts⟩

/-- An event that is stored is refreshed with no context set. -/
theorem maintenanceCreate_loses {env : Env} {archive : List String} (entered : Entered h db w)
    (live : w.Live) {body : MaintenanceCreateBody}
    (loses : (MemberRequest.maintenanceCreate body).LosesContext env archive h db) :
    ¬ (apiMaintenanceCreate env body).Guarded h w := by
  obtain ⟨item, id, seen, ok, next, ⟨id₀, r₀, made₀⟩, free⟩ := loses
  have serves : Serves h w := ⟨live, entered.context, entered.stored⟩
  have view := entered.reflects .maintenanceLog rfl
  obtain ⟨r, made⟩ := makeEvent_total made₀ w.nextId
  have fits := (refused_event_iff serves made).mpr ⟨⟨id₀, r₀, made₀⟩, by rw [view]; exact free⟩
  intro guarded
  have got : CodeM.run (SqlHardwareRepo.get body.hardwareId : DbM (Option Dict)) w =
      (.ok (some (SqlHardwareRepo.toDict item)), w) := by
    refine (run_getHardware serves entered.reflects body.hardwareId).trans ?_
    rw [seen]
    rfl
  have behindGet := CodeM.Guarded.of_bind guarded got
  have found : (orRaise (httpError 404 "Hardware not found")
      (some (SqlHardwareRepo.toDict item)) : DbM Dict).run w =
    (.ok (SqlHardwareRepo.toDict item), w) := rfl
  have behindFound := CodeM.Guarded.of_bind behindGet found
  rw [ok] at behindFound
  have checked : (liftExcept (.ok ()) : DbM Unit).run w = (.ok (), w) := rfl
  have behindCheck := CodeM.Guarded.of_bind behindFound checked
  have listed : CodeM.run (SqlMaintenanceRepo.list none : DbM (List Dict)) w =
      (.ok (eventsSeen h db), w) := run_listEvents serves entered.reflects
  have behindList := CodeM.Guarded.of_bind behindCheck listed
  rw [next] at behindList
  have counted : (liftExcept (.ok id) : DbM String).run w = (.ok id, w) := rfl
  have behindCount := CodeM.Guarded.of_bind behindList counted
  have added := CodeM.Guarded.of_catch (CodeM.Guarded.left behindCount)
  have owned : CodeM.run (rowHouseholdIdOrContext (maintenanceRow body id) : DbM (Option Uuid)) w =
      (.ok (some h), w) := by
    rw [← serves.context]
    exact run_rowHouseholdIdOrContext (event_anonymous body id) live
  have behindOwner := CodeM.Guarded.of_bind added owned
  have inserted := run_insert live made fits
  have behindInsert := CodeM.Guarded.of_bind behindOwner inserted
  have committed := run_commit (live.drew.pend .maintenanceLog (.ins r))
  have rest := CodeM.Guarded.of_bind behindInsert committed
  exact CodeM.not_guarded_op (s := .select .maintenanceLog _) rfl rfl rfl rest

/-! ### The other endpoints -/

/-- An upsert at the end of a handler: nothing is asked for after it. -/
theorem upsert_tail_guarded {t : Table} (e : SheetsEntity t) (row : Dict) (response : Response)
    (hw : HasContext h w) :
    (do orRollback (e.upsert row); return response : DbM Response).Guarded h w :=
  .bind (orRollback_guarded (e.upsert_guarded row hw)) fun _ _ _ => .pure _

theorem catalogCreate_guarded (env : Env) (body : CatalogCreateBody) (hw : HasContext h w) :
    (apiCatalogCreate env body).Guarded h w := by
  refine .after (lasting_liftExcept _) hw fun _ _ _ h₁ => ?_
  refine .after (reads SqlCatalogRepo.fetchAll) h₁ fun _ _ _ h₂ => ?_
  refine .after (lasting_liftExcept _) h₂ fun _ _ _ h₃ => ?_
  exact upsert_tail_guarded SqlCatalogRepo.entity _ _ h₃

theorem catalogUpdate_guarded (env : Env) (catalogId : String) (body : CatalogUpdateBody)
    (hw : HasContext h w) : (apiCatalogUpdate env catalogId body).Guarded h w := by
  refine .after (lasting_liftExcept _) hw fun _ _ _ h₁ => ?_
  refine .after (reads SqlCatalogRepo.fetchAll) h₁ fun _ _ _ h₂ => ?_
  refine .after (lasting_orRaise _ _) h₂ fun _ _ _ h₃ => ?_
  exact upsert_tail_guarded SqlCatalogRepo.entity _ _ h₃

theorem catalogUploadImage_guarded (catalogId : String) (file : ImageUpload)
    (stored : Option String) (hw : HasContext h w) :
    (apiCatalogUploadImage catalogId file stored).Guarded h w := by
  unfold apiCatalogUploadImage
  generalize checkUpload file = checked
  refine .after (reads (SqlCatalogRepo.get catalogId)) hw fun _ _ _ h₁ => ?_
  refine .after (lasting_discard (lasting_orRaise _ _)) h₁ fun _ _ _ h₂ => ?_
  refine .after (lasting_liftExcept _) h₂ fun _ _ _ h₃ => ?_
  refine .after (lasting_orRaise _ _) h₃ fun _ _ _ h₄ => ?_
  refine .after (reads (SqlCatalogRepo.get catalogId)) h₄ fun fresh _ _ h₅ => ?_
  cases fresh with
  | none => exact .pure _
  | some row =>
      exact .bind (orRollback_guarded (SqlCatalogRepo.entity.upsert_guarded _ h₅))
        fun _ _ _ => .pure _

theorem catalogAddBag_guarded (env : Env) (catalogId : String) (body : BagCreateBody)
    (hw : HasContext h w) : (apiCatalogAddBag env catalogId body).Guarded h w := by
  refine .after (reads (SqlCatalogRepo.get catalogId)) hw fun _ _ _ h₁ => ?_
  refine .after (lasting_orRaise _ _) h₁ fun _ _ _ h₂ => ?_
  refine .after (lasting_liftExcept _) h₂ fun _ _ _ h₃ => ?_
  refine .after (lasting_liftExcept _) h₃ fun _ _ _ h₄ => ?_
  refine .after (reads (SqlInventoryRepo.list none)) h₄ fun _ _ _ h₅ => ?_
  refine .after (lasting_liftExcept _) h₅ fun _ _ _ h₆ => ?_
  exact upsert_tail_guarded SqlInventoryRepo.entity _ _ h₆

theorem hardwareUpdate_guarded (hardwareId : String) (body : HardwareUpdateBody)
    (hw : HasContext h w) : (apiHardwareUpdate hardwareId body).Guarded h w := by
  refine .after (reads (SqlHardwareRepo.get hardwareId)) hw fun _ _ _ h₁ => ?_
  refine .after (lasting_orRaise _ _) h₁ fun _ _ _ h₂ => ?_
  simp only
  split
  · refine .bind (.throw _) fun _ _ threw => ?_
    cases threw
  · exact upsert_tail_guarded SqlHardwareRepo.entity _ _ h₂

theorem brewLogDelete_guarded (shotId : String) (hw : HasContext h w) :
    (apiBrewLogDelete shotId).Guarded h w := by
  refine .bind ?_ fun deleted _ _ => ?_
  · refine .after (reads currentHouseholdId) hw fun context _ _ h₁ => ?_
    cases context with
    | none => exact .pure _
    | some h' =>
        refine .after (reads (select .brewLog _)) h₁ fun rows _ _ h₂ => ?_
        refine .after (lasting_oneOrNone rows) h₂ fun found _ _ h₃ => ?_
        cases found with
        | none => exact .pure _
        | some r =>
            refine .after (lasting_discard (lasting_ask (.delete .brewLog _) _ trivial)) h₃
              fun _ _ _ _ => ?_
            exact .bind (quiet_ask _ id) fun _ _ _ => .pure _
  · cases deleted with
    | false => exact .bind (.throw _) fun _ _ _ => .pure _
    | true => exact .pure _

/-! ### Endpoints that set the context again -/

theorem run_setConfig_eq_ok (run : (setConfig h).run w = (.ok (), w')) :
    w' = w.advance.withContext h := by
  simp only [setConfig, ask, CodeM.run, Prog.run, World.exec] at run
  by_cases failed : w.session.failed = true
  · simp only [failed, if_true] at run
    cases run
  · by_cases fault : w.session.faults.headD false = true
    · simp only [failed, fault, if_true, World.fail] at run
      cases run
    · simp only [failed, fault] at run
      cases run
      rfl

/-- Once `set_config` has returned, the context is set. -/
theorem hasContext_of_setConfig (run : (setConfig h).run w = (.ok (), w')) : HasContext h w' := by
  intro _
  rw [run_setConfig_eq_ok run]
  rfl

theorem updateFeedback_guarded (shotId text : String) (hw : HasContext h w) :
    (SqlBrewLogRepo.updateFeedback shotId text).Guarded h w := by
  refine .after (reads currentHouseholdId) hw fun context _ _ h₁ => ?_
  cases context with
  | none => exact .pure _
  | some h' =>
      refine .after (lasting_discard (lasting_ask (.update .brewLog _ _) _ trivial)) h₁
        fun _ _ _ _ => ?_
      exact quiet_ask _ id

theorem failWith_guarded (raiseOnError : Bool) (e : Exc) (graceful : String) :
    (failWith raiseOnError e graceful).Guarded h w := by
  unfold failWith
  split
  · exact .throw _
  · exact .pure _

theorem storeReply_guarded (env : Env) (shotId prompt : String) (raiseOnError : Bool)
    (hw : HasContext h w) : (storeReply env shotId prompt raiseOnError).Guarded h w := by
  unfold storeReply
  split
  · exact .throw _
  · exact .throw _
  · exact failWith_guarded _ _ _
  · split
    · exact failWith_guarded _ _ _
    · split
      · exact failWith_guarded _ _ _
      · exact .bind (orRollback_guarded (updateFeedback_guarded _ _ hw)) fun _ _ _ => .pure _

/-- Feedback is stored by the last statement, so that the reads of its prompt all stand
before the commit. -/
theorem getAiFeedback_guarded (env : Env) (shotId : String) (extra : Option ExtraContext)
    (force raiseOnError : Bool) (hw : HasContext h w) :
    (getAiFeedback env shotId extra force raiseOnError).Guarded h w := by
  refine .after (reads (SqlBrewLogRepo.get shotId)) hw fun o _ _ h₁ => ?_
  cases o with
  | none => exact failWith_guarded _ _ _
  | some shot =>
      simp only
      split
      · exact .pure _
      · refine .after (reads (historyOf shotId shot)) h₁ fun history _ _ h₂ => ?_
        refine .after (reads (maintenanceOf env shot)) h₂ fun maintenance _ _ h₃ => ?_
        split
        · exact failWith_guarded _ _ _
        · exact storeReply_guarded env shotId _ raiseOnError h₃

theorem brewLogFeedbackGenerate_guarded (env : Env) (shotId : String) (hw : HasContext h w) :
    (apiBrewLogFeedbackGenerate env shotId : TenantM h Response).Guarded h w := by
  refine .after (reads (SqlBrewLogRepo.get shotId)) hw fun o _ _ h₁ => ?_
  refine .after (lasting_orRaise _ o) h₁ fun shot _ _ h₂ => ?_
  refine .after (reads buildLookups) h₂ fun lookups _ _ h₃ => ?_
  refine .bind (.catch ?_ fun e _ _ => ?_) fun _ _ _ => .pure _
  · refine .bind (quiet_ask _ id) fun _ _ set => ?_
    exact getAiFeedback_guarded env shotId _ true true (hasContext_of_setConfig set)
  · cases e <;> exact .throw _

theorem lasting_add (env : Env) (row : Dict) :
    (SqlBrewLogRepo.add env row false).prog.All Lasting := by
  refine (lasting_liftExcept _).bind fun owner => ?_
  refine (lasting_liftExcept _).bind fun timeSec => ?_
  refine (lasting_liftExcept _).bind fun rating => ?_
  have rest : ∀ householdId : Option Uuid, (do
      let entry ← DbM.insert .brewLog (SqlBrewLogRepo.make env row householdId timeSec rating)
      discard (refresh .brewLog entry)
      pure () : DbM Unit).prog.All Lasting := by
    intro householdId
    refine (lasting_ask (.insert .brewLog _) _ trivial).bind fun entry => ?_
    exact (lasting_discard (reads (refresh .brewLog entry))).bind fun _ => trivial
  cases owner with
  | some h => exact rest (some h)
  | none => exact (reads currentHouseholdId).bind fun householdId => rest householdId

theorem insertShot_guarded (env : Env) (row : Dict) (hw : HasContext h w) :
    (insertShot env row).Guarded h w := by
  refine .bind (orRollback_guarded (.lasting (lasting_add env row) hw)) fun _ w₁ added => ?_
  have h₁ : HasContext h w₁ := by
    have kept := CodeM.run_lasting (lasting_add env row) hw
    rw [orRollback_eq_ok added] at kept
    exact kept
  refine .after (reads buildLookups) h₁ fun lookups _ _ h₂ => ?_
  exact .bind (quiet_ask _ id) fun _ _ _ => .pure _

theorem afterConflict_guarded (env : Env) (idempotency : Option (String × String)) (e : Exc) :
    (afterConflict env idempotency e : TenantM h Response).Guarded h w := by
  refine .bind (quiet_ask (s := .rollback) trivial id) fun _ _ _ => ?_
  cases idempotency with
  | none => exact .throw _
  | some keyed =>
      simp only
      split
      · refine .bind (quiet_ask _ id) fun _ _ set => ?_
        refine .after (reads (existingIdempotentResponse _ _)) (hasContext_of_setConfig set)
          fun o _ _ h₁ => ?_
        exact .lasting (lasting_orRaise _ o) h₁
      · exact .throw _

/-- A conflict rolls back and sets the context again before the stored shot is looked
for. -/
theorem storeShot_guarded (env : Env) (row : Dict) (idempotency : Option (String × String))
    (hw : HasContext h w) : (storeShot env row idempotency : TenantM h _).Guarded h w := by
  refine .catch (.bind (insertShot_guarded env row hw) fun _ _ _ => .pure _) fun e _ _ => ?_
  split
  · exact .bind (afterConflict_guarded env idempotency e) fun _ _ _ => .pure _
  · exact .bind (quiet_ask (s := .rollback) trivial id) fun _ _ _ => .throw _

/-- It sets the context anew, since the create has committed by then. -/
theorem feedbackAfterCreate_guarded (env : Env) (shotId : String) (extra : ExtraContext) :
    (feedbackAfterCreate env shotId extra : TenantM h Unit).Guarded h w := by
  refine .catch ?_ fun e _ _ => ?_
  · refine .bind (quiet_ask _ id) fun _ _ set => ?_
    refine .bind ?_ fun _ _ _ => .pure _
    exact getAiFeedback_guarded env shotId (some extra) false false (hasContext_of_setConfig set)
  · cases e with
    | timeout => exact .pure ()
    | _ => exact quiet_ask (s := .rollback) trivial id

/-- Each of the commits is followed by a new `set_config`, or by nothing. -/
theorem createShot_guarded (env : Env) (body : BrewLogCreateBody) (shotDate : Date)
    (idempotency : Option (String × String)) (hw : HasContext h w) :
    (createShot env body shotDate idempotency : TenantM h Response).Guarded h w := by
  refine .after (reads SqlBrewLogRepo.listExistingIds) hw fun ids _ _ h₁ => ?_
  refine .after (lasting_liftExcept _) h₁ fun shotId _ _ h₂ => ?_
  refine .bind (storeShot_guarded env _ idempotency h₂) fun stored _ _ => ?_
  cases stored with
  | error replayed => exact .pure _
  | ok created => exact .bind (feedbackAfterCreate_guarded env _ _) fun _ _ _ => .pure _

theorem brewLogCreate_guarded (env : Env) (body : BrewLogCreateBody) (hw : HasContext h w) :
    (apiBrewLogCreate env body : TenantM h Response).Guarded h w := by
  refine .after (lasting_liftExcept _) hw fun shotDate _ _ h₁ => ?_
  simp only
  split
  · exact createShot_guarded env body shotDate none h₁
  · refine .after (reads (existingIdempotentResponse _ _)) h₁ fun existing _ _ h₂ => ?_
    cases existing with
    | some replayed => exact .pure _
    | none => exact createShot_guarded env body shotDate _ h₂

/-! ### Every endpoint -/

theorem requireAdmin_guarded {m : HouseholdMember} {p : TenantM m.householdId Response}
    (hp : p.Guarded m.householdId w) : (requireAdmin m p).Guarded m.householdId w := by
  by_cases admin : m.role = .admin
  · rw [requireAdmin_of_admin admin]
    exact hp
  · rw [requireAdmin_of_member admin]
    exact .throw _

theorem dissolve_guarded {h' : Uuid} (p : DissolveM h' Response) : p.Guarded h w :=
  .quiet <| p.within.mono fun s hs => by
    rcases hs with hs | ⟨_, _, rfl⟩
    · exact OnAccounts.not_onTenant s hs
    · exact Bool.false_ne_true

/-- An endpoint that does not lose its context performs everything it performs
on tenant tables for its household. -/
theorem endpoint_guarded {env : Env} {archive : List String} {m : HouseholdMember}
    (request : MemberRequest) (entered : Entered m.householdId db w)
    (kept : ¬ request.LosesContext env archive m.householdId db) :
    (request.endpoint env archive m).Guarded m.householdId w := by
  have hw := entered.hasContext
  -- one case for each endpoint; only four of them can lose their context
  cases request with
  | brewLogFeedback shotId => exact .lasting (reads (apiBrewLogFeedback shotId)) hw
  | brewLogDetail shotId => exact .lasting (reads (apiBrewLogDetail shotId)) hw
  | brewLogPatch shotId body => exact brewLogPatch_guarded entered kept
  | brewLogFeedbackGenerate shotId => exact brewLogFeedbackGenerate_guarded env shotId hw
  | brewLogCreate body => exact brewLogCreate_guarded env body hw
  | brewLogDelete shotId => exact requireAdmin_guarded (brewLogDelete_guarded shotId hw)
  | catalogList => exact .lasting (reads apiCatalogList) hw
  | catalogDetail catalogId => exact .lasting (reads (apiCatalogDetail catalogId)) hw
  | catalogCreate body => exact catalogCreate_guarded env body hw
  | catalogUpdate catalogId body => exact catalogUpdate_guarded env catalogId body hw
  | catalogInfer found => exact .lasting (reads (apiCatalogInfer found)) hw
  | catalogUploadImage catalogId file stored =>
      exact catalogUploadImage_guarded catalogId file stored hw
  | catalogAddBag catalogId body => exact catalogAddBag_guarded env catalogId body hw
  | inventoryList status => exact .lasting (reads (apiInventoryList status)) hw
  | inventoryDetail bagId => exact .lasting (reads (apiInventoryDetail bagId)) hw
  | inventoryPatch bagId status => exact inventoryPatch_guarded entered kept
  | hardwareActionTypes => exact .lasting (reads apiHardwareActionTypes) hw
  | hardwareList => exact .lasting (reads apiHardwareList) hw
  | hardwareDetail hardwareId => exact .lasting (reads (apiHardwareDetail hardwareId)) hw
  | hardwareCreate body => exact hardwareCreate_guarded entered kept
  | hardwareUpdate hardwareId body => exact hardwareUpdate_guarded hardwareId body hw
  | maintenanceList hardwareId => exact .lasting (reads (apiMaintenanceList hardwareId)) hw
  | maintenanceCreate body => exact maintenanceCreate_guarded entered kept
  | dashboard => exact .lasting (reads (apiDashboard env)) hw
  | defaults bagId basketId => exact .lasting (reads (apiGetDefaults bagId basketId)) hw
  | defaultsQuery bagId => exact .lasting (reads (getDefaultsApi bagId)) hw
  | householdDetail householdId => exact .account (getHousehold env householdId m)
  | householdRename householdId name =>
      exact requireAdmin_guarded (.account (renameHousehold householdId name m))
  | householdDelete householdId confirmName =>
      exact requireAdmin_guarded (dissolve_guarded (deleteHousehold env householdId confirmName m))
  | invitationCreate email role =>
      exact requireAdmin_guarded (.account (createInvite env email role m))
  | invitationRevoke id => exact requireAdmin_guarded (.account (revokeInvitation env id m))
  | invitationResend id => exact requireAdmin_guarded (.account (resendInvitation env id m))
  | memberRemove userId => exact requireAdmin_guarded (.account (removeMember env userId m))
  | memberUpdateRole userId role =>
      exact requireAdmin_guarded (.account (updateMemberRole userId role m))
  | guestTokenGenerate householdId =>
      exact requireAdmin_guarded (.account (generateGuestToken env householdId m))
  | guestTokenRevoke householdId =>
      exact requireAdmin_guarded (.account (revokeGuestToken env householdId m))
  | resetPassword username newPassword newHash =>
      exact requireAdmin_guarded (.account (adminResetPassword env username newPassword newHash m))
  | importStart => exact requireAdmin_guarded (.account (startImportWizard env m))

/-- Where the condition says so, the handler asks for rows outside of its context. -/
theorem endpoint_loses {env : Env} {archive : List String} {m : HouseholdMember}
    {request : MemberRequest} (entered : Entered m.householdId db w) (live : w.Live)
    (keyed : ∀ t : Table, t.Keyed (db t))
    (loses : request.LosesContext env archive m.householdId db) :
    ¬ (request.endpoint env archive m).Guarded m.householdId w := by
  cases request with
  | brewLogPatch shotId body => exact brewLogPatch_loses entered live loses
  | inventoryPatch bagId status => exact inventoryPatch_loses entered live keyed loses
  | hardwareCreate body => exact hardwareCreate_loses entered live keyed loses
  | maintenanceCreate body => exact maintenanceCreate_loses entered live loses
  | _ => exact loses.elim

/-! ### Requests -/

/-- Every statement that the request performs on a tenant table has the
household of the request for its context. -/
def Call.KeepsContext (c : Call) (r : Request) (db : State) : Prop :=
  ∀ x ∈ (r.program c.env c.archive).prog.trace World.exec (c.start db),
    OnTenant x.1 → x.2.session.failed = false →
      (c.household db r).isSome ∧ x.2.session.context = c.household db r

/-- What the request shows of a statement if it keeps its context. -/
def Call.InContext (c : Call) (r : Request) (db : State) (s : Statement) (v : World Table) : Prop :=
  OnTenant s → v.session.failed = false →
    (c.household db r).isSome ∧ v.session.context = c.household db r

/-- Every statement on tenant rows is asked for in the context of the caller's
household. -/
theorem keepsContext_iff {c : Call} {r : Request} : c.KeepsContext r db ↔
    (r.program c.env c.archive).prog.Shows World.exec (c.InContext r db) (c.start db) := Iff.rfl

theorem Call.InContext.quiet {c : Call} {r : Request} (s : Statement) (v : World Table)
    (hs : ¬ OnTenant s) : c.InContext r db s v := fun onTenant => absurd onTenant hs

/-- For a caller with a household it is the handler that has to stay in context. -/
theorem guarded_of_keepsContext {c : Call} {r : Request} (hh : c.household db r = some h) :
    c.KeepsContext r db ↔ (r.program c.env c.archive).Guarded h (c.start db) := by
  constructor
  · intro kept x hx onTenant inOrder
    rw [(kept x hx onTenant inOrder).2, hh]
  · intro guarded x hx onTenant inOrder
    rw [hh]
    exact ⟨rfl, guarded x hx onTenant inOrder⟩

theorem keepsContext_of_quiet {c : Call} {r : Request}
    (quiet : (r.program c.env c.archive).prog.All fun s => ¬ OnTenant s) : c.KeepsContext r db :=
  keepsContext_iff.mpr (shows_of_quiet quiet Call.InContext.quiet)

theorem inContext_guarded {endpoint : TenantM h Response}
    (guarded : endpoint.Guarded h (w.advance.withContext h)) :
    (inContext h endpoint).Guarded h w := by
  refine CodeM.Guarded.bind (p := setConfig h) (f := fun _ => endpoint) (quiet_ask _ id) ?_
  intro _ w' set
  rw [run_setConfig_eq_ok set]
  exact guarded

theorem endpoint_of_inContext {endpoint : TenantM h Response} (live : w.Live)
    (guarded : (inContext h endpoint).Guarded h w) :
    endpoint.Guarded h (w.advance.withContext h) := by
  have whole : CodeM.Guarded h (setConfig h >>= fun _ => endpoint) w := guarded
  have set := run_setConfig (h := h) live
  exact run_setConfig_eq_ok set ▸ whole.of_bind set

/-- The dependencies of an endpoint are about no tenant table, and an endpoint is
entered for what they resolve to. -/
theorem keepsContext_of_resolved {α : Type} {c : Call} {r : Request} (p : AccountM α)
    (household : α → Uuid) (endpoint : (a : α) → TenantM (household a) Response)
    (program : r.program c.env c.archive = do
      let a ← p
      inContext (household a) (endpoint a))
    (resolved : c.household db r = (c.resolved db p).map household)
    (guarded : ∀ a w, p.run (c.start db) = (.ok a, w) →
      (endpoint a).Guarded (household a) (w.advance.withContext (household a))) :
    c.KeepsContext r db := by
  cases run : p.run (c.start db) with
  | mk result w =>
      have lifted : CodeM.run (p : AppM α) (c.start db) = (result, w) := run
      cases result with
      | error e =>
          rw [keepsContext_iff, program]
          refine Prog.Shows.bind (p := p.prog) (f := fun a =>
            (inContext (household a) (endpoint a)).prog) ?_ fun a w' got => ?_
          · exact shows_of_quiet (p.within.mono OnAccounts.not_onTenant) Call.InContext.quiet
          · cases lifted.symm.trans got
      | ok a =>
          have found : c.resolved db p = some a := by
            rw [Call.resolved, run]
            rfl
          rw [guarded_of_keepsContext (h := household a) (by rw [resolved, found]; rfl), program]
          refine .bind (.account p) fun b w' returned => ?_
          cases lifted.symm.trans returned
          exact inContext_guarded (guarded a w run)

theorem entered_advance (entered : Entered h db (w.withContext h)) :
    Entered h db (w.advance.withContext h) :=
  ⟨entered.inOrder, rfl, entered.rows, entered.household⟩

/-- The condition is sufficient. -/
theorem keepsContext {c : Call} {r : Request} (kept : ¬ c.LosesContext db r) :
    c.KeepsContext r db := by
  cases r with
  | member caller request =>
      refine keepsContext_of_resolved (callerMembership c.env caller) HouseholdMember.householdId
        (request.endpoint c.env c.archive) rfl rfl fun m w run => ?_
      obtain ⟨_, entered⟩ := Entered.of_resolved run
      refine endpoint_guarded request (entered_advance entered) fun loses => kept ⟨m, ?_, loses⟩
      rw [Call.resolved, run]
      rfl
  | brewLogList guestKey caller page perPage =>
      cases guestKey with
      | none =>
          exact keepsContext_of_resolved (callerMembership c.env caller) HouseholdMember.householdId
            (fun m => apiBrewLogList page perPage) rfl rfl
            fun _ _ _ => .lasting (reads (apiBrewLogList page perPage)) fun _ => rfl
      | some raw =>
          exact keepsContext_of_resolved (guestToken c.env raw) GuestToken.householdId
            (fun token => apiBrewLogList page perPage) rfl rfl
            fun _ _ _ => .lasting (reads (apiBrewLogList page perPage)) fun _ => rfl
  | guestView householdId key =>
      exact keepsContext_of_resolved (guestHousehold c.env householdId key) (fun _ => householdId)
        (fun household => guestView household.name) rfl rfl
        fun household _ _ => .lasting (reads (guestView household.name)) fun _ => rfl
  | householdCreate caller name =>
      exact keepsContext_of_quiet
        ((createHousehold c.env caller name).within.mono OnAccounts.not_onTenant)
  | householdList caller =>
      exact keepsContext_of_quiet
        ((listMyHouseholds c.env caller : AccountM Response).within.mono OnAccounts.not_onTenant)
  | invitationPreview token =>
      exact keepsContext_of_quiet
        ((previewInvitation c.env token : AccountM Response).within.mono OnAccounts.not_onTenant)
  | invitationAccept caller token =>
      exact keepsContext_of_quiet
        ((acceptInvite c.env caller token).within.mono OnAccounts.not_onTenant)
  | invitationDecline token =>
      exact keepsContext_of_quiet
        ((declineInvitation c.env token).within.mono OnAccounts.not_onTenant)
  | me caller =>
      exact keepsContext_of_quiet
        ((getMe c.env caller : AccountM Response).within.mono OnAccounts.not_onTenant)
  | switchHousehold caller householdId =>
      exact keepsContext_of_quiet
        ((switchHousehold caller householdId : AccountM Response).within.mono
          OnAccounts.not_onTenant)
  | signIn program =>
      exact keepsContext_of_quiet (program.within.mono OnAccounts.not_onTenant)

/-- The condition is necessary, where nothing fails from outside. -/
theorem not_keepsContext {c : Call} {r : Request} (noFaults : c.faults = [])
    (keyed : ∀ t : Table, t.Keyed (db t)) (loses : c.LosesContext db r) :
    ¬ c.KeepsContext r db := by
  cases r with
  | member caller request =>
      obtain ⟨m, found, loses⟩ := loses
      obtain ⟨w, run⟩ := resolved_eq_some found
      obtain ⟨inOrder, entered⟩ := Entered.of_resolved run
      have live := live_of_run noFaults inOrder run
      have lifted : CodeM.run (callerMembership c.env caller : AppM HouseholdMember) (c.start db) =
        (.ok m, w) := run
      rw [guarded_of_keepsContext (h := m.householdId) (by
        rw [Call.household, found]
        rfl)]
      intro guarded
      have whole : CodeM.Guarded m.householdId (do
          let m ← (callerMembership c.env caller : AppM HouseholdMember)
          inContext m.householdId (request.endpoint c.env c.archive m)) (c.start db) := guarded
      refine endpoint_loses (entered_advance entered) ?_ keyed loses
        (endpoint_of_inContext live (whole.of_bind lifted))
      rw [World.advance_of_live live]
      exact live.withContext m.householdId
  | _ => exact loses.elim

/-- A request that does not lose its context performs everything that it performs on
tenant tables under the household it was resolved to, whatever faults its statements
meet; and without faults it does so exactly then. Four endpoints lose it, by a commit
after which they go on with statements on tenant tables: what the request has to get
through up to that commit is `LosesContext`, a condition on the request and on the rows
it finds. The keys are asked for in the second part only, where a row that is found has
to be the one that is written. -/
theorem context_kept (c : Call) (r : Request) (db : State) :
    (¬ c.LosesContext db r → c.KeepsContext r db) ∧
    (c.faults = [] → (∀ t : Table, t.Keyed (db t)) →
      (c.KeepsContext r db ↔ ¬ c.LosesContext db r)) := by
  refine ⟨keepsContext, fun noFaults keyed => ⟨fun kept loses => ?_, keepsContext⟩⟩
  exact not_keepsContext noFaults keyed loses kept

/-- A correction of the shot that there is renders it without a context. -/
theorem context_lost_by_patch : ¬ Sample.call.KeepsContext
    (.member (some Sample.ada.id) (.brewLogPatch "S1" ⟨some (some "sweet"), none, none, none⟩))
    Sample.db := by
  refine not_keepsContext rfl Sample.keyed ⟨Sample.membership, rfl, ?_⟩
  exact ⟨[("taste_summary", .str "sweet")], Sample.shot,
    { Sample.shot with tasteSummary := some "sweet" }, rfl, rfl, rfl⟩

end EspressoLogs
