import EspressoLogs.Lib.Relational
import EspressoLogs.Shots.Pages

/-!
What a guest link shows of notes and feedback.

The guest view drops `User_Notes` and `AI_Feedback`, so two states that differ in
nothing else of a household's shots look the same through it. The brew-log list
accepts the same links and shows both columns: it is the same in the two states
only where its page is.
-/

namespace EspressoLogs

open Lib Py

/-! ### States that differ in notes and feedback -/

/-- A shot without the columns that the guest view drops, if it is the household's. -/
def blanked (h : Uuid) (r : BrewLog) : BrewLog :=
  if r.householdId = some h then { r with notes := none, aiFeedback := none } else r

/-- States that differ only in the notes and the feedback of the household's shots. -/
structure DifferInNotes (h : Uuid) (a b : State) : Prop where
  others : ∀ t, t ≠ .brewLog → a t = b t
  shots : (a .brewLog).map (blanked h) = (b .brewLog).map (blanked h)

theorem householdId_blanked (h : Uuid) (r : BrewLog) :
    (blanked h r).householdId = r.householdId := by
  unfold blanked
  split <;> rfl

/-- What a selection that does not look at notes and feedback finds. -/
theorem filter_blanked {h : Uuid} {p : BrewLog → Bool} (blind : ∀ r, p (blanked h r) = p r)
    {rows rows' : List BrewLog} (same : rows.map (blanked h) = rows'.map (blanked h)) :
    (rows.filter p).map (blanked h) = (rows'.filter p).map (blanked h) := by
  have through : ∀ l : List BrewLog, (l.filter p).map (blanked h) = (l.map (blanked h)).filter p := by
    intro l
    rw [List.filter_map]
    congr 1
    exact List.filter_congr fun r _ => (blind r).symm
  rw [through, through, same]

theorem mergeSort_blanked {h : Uuid} {le : BrewLog → BrewLog → Bool}
    (blind : ∀ r s, le (blanked h r) (blanked h s) = le r s) {rows rows' : List BrewLog}
    (same : rows.map (blanked h) = rows'.map (blanked h)) :
    (rows.mergeSort le).map (blanked h) = (rows'.mergeSort le).map (blanked h) := by
  rw [List.map_mergeSort fun r _ s _ => (blind r s).symm,
    List.map_mergeSort fun r _ s _ => (blind r s).symm, same]

theorem inPageOrder_blanked {h : Uuid} {rows rows' : List BrewLog}
    (same : rows.map (blanked h) = rows'.map (blanked h)) :
    (inPageOrder rows).map (blanked h) = (inPageOrder rows').map (blanked h) := by
  refine mergeSort_blanked (fun r s => ?_) (mergeSort_blanked (fun r s => ?_) same)
  all_goals
    unfold blanked
    split <;> split <;> rfl

theorem pageOf_blanked {h : Uuid} {rows rows' : List BrewLog} (size n : Nat)
    (same : rows.map (blanked h) = rows'.map (blanked h)) :
    (pageOf size n rows).map (blanked h) = (pageOf size n rows').map (blanked h) := by
  simp only [pageOf, List.map_take, List.map_drop, same]

/-! ### Two sessions side by side -/

/-- Sessions that have written nothing, over such states. -/
structure SideBySide (h : Uuid) (w v : World Table) : Prop where
  session : w.session = v.session
  idle : w.session.pending .brewLog = []
  states : DifferInNotes h w.db v.db

namespace SideBySide

variable {h : Uuid} {w v : World Table}

theorem view (both : SideBySide h w v) {t : Table} (ht : t ≠ .brewLog) : w.view t = v.view t := by
  unfold World.view
  rw [both.session, both.states.others t ht]

theorem visible (both : SideBySide h w v) {t : Table} (ht : t ≠ .brewLog) :
    w.visible t = v.visible t := by
  unfold World.visible
  rw [both.view ht, both.session]

theorem shots (both : SideBySide h w v) :
    (w.visible .brewLog).map (blanked h) = (v.visible .brewLog).map (blanked h) := by
  have same : (w.view .brewLog).map (blanked h) = (v.view .brewLog).map (blanked h) := by
    unfold World.view
    rw [← both.session, both.idle]
    exact both.states.shots
  unfold World.visible
  rw [← both.session]
  refine filter_blanked (fun r => ?_) same
  show (!true || w.session.context.isSome && (blanked h r).householdId == w.session.context) = _
  rw [householdId_blanked]
  rfl

end SideBySide

/-- A statement that neither writes nor reads the log. -/
def Overlooks : Statement → Prop
  | .select t _ | .column t _ => t ≠ .brewLog
  | .join t u _ _ => t ≠ .brewLog ∧ u ≠ .brewLog
  | .currentSetting | .setConfig _ => True
  | _ => False

theorem IsLookup.overlooks (s : Statement) (hs : IsLookup s) : Overlooks s := by
  obtain ⟨reads, spares⟩ := hs
  have other : ∀ t : Table, t.tenantScoped = false → t ≠ .brewLog := by
    rintro t ht rfl
    cases ht
  cases s with
  | select t p => exact other t spares
  | column t c => exact other t spares
  | join t u on p => exact ⟨other t spares.1, other u spares.2⟩
  | currentSetting => trivial
  | _ => exact reads.elim

/-- Both sessions perform a statement that only reads, or meet the same fault. -/
theorem SideBySide.exec {h : Uuid} {w v : World Table} (both : SideBySide h w v) {s : Statement}
    (reading : IsRead s ∨ ∃ household, s = .setConfig household) {R : Ans s → Ans s → Prop}
    (performed : ∀ w v, SideBySide h w v →
      Agree R (World.perform s w).1 (World.perform s v).1 ∧
        SideBySide h (World.perform s w).2 (World.perform s v).2) :
    Agree R (World.exec s w).1 (World.exec s v).1 ∧
      SideBySide h (World.exec s w).2 (World.exec s v).2 := by
  have exec_eq : ∀ w : World Table, World.exec s w =
      if w.session.failed then (.error .aborted, w)
      else if w.session.faults.headD false then w.advance.fail .operational
      else w.advance.perform s := by
    intro w
    rcases reading with reading | ⟨household, rfl⟩
    · cases s with
      | rollback => exact reading.elim
      | _ => rfl
    · rfl
  rw [exec_eq, exec_eq, ← both.session]
  by_cases failed : w.session.failed = true
  · rw [if_pos failed, if_pos failed]
    exact ⟨rfl, both⟩
  rw [if_neg failed, if_neg failed]
  by_cases fault : w.session.faults.headD false = true
  · rw [if_pos fault, if_pos fault]
    refine ⟨rfl, ?_, rfl, both.states⟩
    simp only [World.fail, World.aborted, World.advance, both.session]
  · rw [if_neg fault, if_neg fault]
    refine performed _ _ ⟨?_, both.idle, both.states⟩
    simp only [World.advance, both.session]

/-- Two runs, side by side, of a program and its like. -/
abbrev InStep {P : Statement → Prop} {α β : Type} (h : Uuid) (R : α → β → Prop) (p : CodeM P α)
    (q : CodeM P β) : Prop :=
  ProgOf.Together World.exec (SideBySide h) R p q

section InStep

variable {h : Uuid} {P : Statement → Prop} {α : Type}

theorem inStep_ask (s : Statement) (hs : P s) {R : Ans s → Ans s → Prop}
    (performed : ∀ w v, SideBySide h w v → Agree R (World.exec s w).1 (World.exec s v).1 ∧
      SideBySide h (World.exec s w).2 (World.exec s v).2) :
    InStep h R (ask s hs : CodeM P (Ans s)) (ask s hs) := by
  intro w v both
  obtain ⟨agree, next⟩ := performed w v both
  simp only [ask, Prog.run]
  rcases agree.cases with ⟨e, hw, hv⟩ | ⟨a, b, hw, hv, related⟩
  · rw [hw, hv]
    exact ⟨rfl, next⟩
  · rw [hw, hv]
    exact ⟨related, next⟩

theorem exec_overlooks {s : Statement} (hs : Overlooks s) {w v : World Table}
    (both : SideBySide h w v) : (World.exec s w).1 = (World.exec s v).1 ∧
      SideBySide h (World.exec s w).2 (World.exec s v).2 := by
  have reading : IsRead s ∨ ∃ household, s = .setConfig household := by
    cases s with
    | setConfig household => exact .inr ⟨household, rfl⟩
    | _ => first | exact .inl trivial | exact hs.elim
  obtain ⟨agree, next⟩ := both.exec reading (R := Eq) fun w v both => by
    cases s with
    | currentSetting => exact ⟨congrArg Session.context both.session, both⟩
    | setConfig household =>
        refine ⟨rfl, ?_, both.idle, both.states⟩
        simp only [World.perform, World.withContext, both.session]
    | select t p =>
        refine ⟨?_, both⟩
        show (w.visible t).filter p = (v.visible t).filter p
        rw [both.visible hs]
    | join t u on p =>
        refine ⟨?_, both⟩
        show w.joined t u on p = v.joined t u on p
        rw [World.joined, World.joined, both.visible hs.1, both.visible hs.2]
    | column t c =>
        refine ⟨?_, both⟩
        show (w.visible t).filterMap c = (v.visible t).filterMap c
        rw [both.visible hs]
    | _ => exact hs.elim
  exact ⟨agree.eq, next⟩

/-- A program that overlooks the log. -/
theorem inStep_of_overlooks {p : CodeM P α} (all : p.prog.All Overlooks) : InStep h Eq p p :=
  ProgOf.Together.of_all (fun _ hs _ _ both => exec_overlooks hs both) all

theorem inStep_lookup (p : LookupM α) : InStep h Eq p p :=
  inStep_of_overlooks (p.within.mono IsLookup.overlooks)

/-- The shots that a selection finds which looks at neither column. -/
theorem inStep_shots {p : BrewLog → Bool} (blind : ∀ r, p (blanked h r) = p r) :
    InStep h (fun rows rows' => rows.map (blanked h) = rows'.map (blanked h))
      (select .brewLog p) (select .brewLog p) := by
  refine inStep_ask (.select .brewLog p) trivial fun w v both => ?_
  refine both.exec (s := .select .brewLog p) (.inl trivial) fun w v both => ?_
  exact ⟨filter_blanked blind both.shots, both⟩

end InStep

/-! ### The guest view -/

section Views

variable {h : Uuid}

theorem setting_overlooks : currentHouseholdId.prog.All Overlooks :=
  ⟨trivial, fun r => by cases r <;> trivial⟩

theorem bags_overlook (p : InventoryBag → Bool) :
    (SqlInventoryRepo.withCatalog p).prog.All Overlooks :=
  all_bind (all_ask ⟨nofun, nofun⟩) fun _ => trivial

theorem catalog_overlooks : SqlCatalogRepo.list.prog.All Overlooks :=
  all_bind (all_ask (show Table.catalog ≠ .brewLog from nofun)) fun _ => trivial

theorem hardware_overlooks (category : Option String) :
    (SqlHardwareRepo.list category).prog.All Overlooks :=
  all_bind (all_ask (show Table.hardware ≠ .brewLog from nofun)) fun _ => trivial

/-- The dictionaries of the same shots, but for notes and feedback. -/
def SameButNotes (h : Uuid) (x y : List Dict × Nat) : Prop :=
  x.2 = y.2 ∧ ∃ rows rows' : List BrewLog, rows.map (blanked h) = rows'.map (blanked h) ∧
    x.1 = rows.map SqlBrewLogRepo.toDict ∧ y.1 = rows'.map SqlBrewLogRepo.toDict

theorem inStep_listPaginated (page perPage : Nat) : InStep h (SameButNotes h)
    (SqlBrewLogRepo.listPaginated page perPage) (SqlBrewLogRepo.listPaginated page perPage) := by
  refine .bind (inStep_of_overlooks setting_overlooks) ?_
  rintro found _ rfl
  cases found with
  | none => exact .pure ⟨rfl, [], [], rfl, rfl, rfl⟩
  | some household =>
      have ofHousehold : ∀ r, ((blanked h r).householdId == some household) =
          (r.householdId == some household) := by
        intro r
        rw [householdId_blanked]
      refine .bind (inStep_shots ofHousehold) fun counted counted' sameCount => ?_
      refine .bind (inStep_shots ofHousehold) fun rows rows' same => .pure ⟨?_, ?_⟩
      · simpa using congrArg List.length sameCount
      · exact ⟨_, _, pageOf_blanked perPage page (inPageOrder_blanked same), rfl, rfl⟩

theorem shotDisplay_blanked (bags catalog hardware : List (String × Dict)) (r : BrewLog) :
    shotDisplay bags catalog hardware (SqlBrewLogRepo.toDict (blanked h r)) =
      shotDisplay bags catalog hardware (SqlBrewLogRepo.toDict r) := by
  unfold blanked
  split <;> rfl

/-- The guest view is the same in both states. -/
theorem inStep_guestView (householdName : String) :
    InStep h Eq (guestView householdName) (guestView householdName) := by
  refine .bind (inStep_of_overlooks (bags_overlook _)) ?_
  rintro activeBags _ rfl
  refine .bind (inStep_of_overlooks (bags_overlook _)) ?_
  rintro allBags _ rfl
  refine .bind (inStep_of_overlooks catalog_overlooks) ?_
  rintro catalogRows _ rfl
  refine .bind (inStep_of_overlooks (hardware_overlooks _)) ?_
  rintro hardwareRows _ rfl
  refine .bind (inStep_listPaginated 1 25) ?_
  rintro ⟨shots, count⟩ ⟨shots', count'⟩ ⟨sameCount, rows, rows', same, hshots, hshots'⟩
  obtain rfl : count = count' := sameCount
  refine .pure ?_
  have shown : ∀ bags catalog hardware : List (String × Dict),
      shots.map (shotDisplay bags catalog hardware) =
        shots'.map (shotDisplay bags catalog hardware) := by
    intro bags catalog hardware
    have through : ∀ l : List BrewLog, (l.map SqlBrewLogRepo.toDict).map
        (shotDisplay bags catalog hardware) = (l.map (blanked h)).map fun r =>
          shotDisplay bags catalog hardware (SqlBrewLogRepo.toDict r) := by
      intro l
      simp only [List.map_map, Function.comp_def, shotDisplay_blanked]
    rw [show shots = _ from hshots, show shots' = _ from hshots', through, through, same]
  simp only [shown]

theorem inStep_buildLookups : InStep h Eq buildLookups buildLookups :=
  inStep_of_overlooks (all_bind (bags_overlook _) fun _ => all_bind catalog_overlooks fun _ =>
    all_bind (hardware_overlooks _) fun _ => trivial)

/-- The list ends alike in both states, whatever it then shows. -/
theorem inStep_list (page perPage : Int) :
    InStep h (fun _ _ => True) (apiBrewLogList page perPage) (apiBrewLogList page perPage) := by
  refine .bind (inStep_listPaginated _ _) fun _ _ _ => ?_
  exact .bind inStep_buildLookups fun _ _ _ => .pure trivial

theorem inStep_inContext (household : Uuid) {R : Response → Response → Prop}
    {endpoint : TenantM household Response} (inStep : InStep h R endpoint endpoint) :
    InStep h R (inContext household endpoint) (inContext household endpoint) := by
  refine .weaken (fun _ _ => trivial) (.bind (inStep_of_overlooks (all_ask trivial)) ?_)
  rintro _ _ rfl
  exact inStep

theorem inStep_guestHouseholdView (env : Env) (householdId : Uuid) (key : String) :
    InStep h Eq (guestHouseholdView env householdId key) (guestHouseholdView env householdId key) := by
  refine .bind (inStep_lookup (guestHousehold env householdId key)) ?_
  rintro household _ rfl
  exact inStep_inContext householdId (inStep_guestView household.name)

theorem inStep_guestList (env : Env) (key : String) (caller : Option Uuid) (page perPage : Int) :
    InStep h (fun _ _ => True)
      (asGuestOrMember env (some key) caller fun _ => apiBrewLogList page perPage)
      (asGuestOrMember env (some key) caller fun _ => apiBrewLogList page perPage) := by
  refine .bind (inStep_lookup (guestToken env key)) ?_
  rintro token _ rfl
  exact inStep_inContext token.householdId (inStep_list page perPage)

end Views

/-! ### The list -/

/-- What the list shows of the two columns. -/
def privateTexts (r : BrewLog) : Option String × Option String :=
  (nonEmpty (r.notes.getD ""), nonEmpty (r.aiFeedback.getD ""))

/-- The shots of a household that a page of its list shows. -/
def pageShots (h : Uuid) (page perPage : Int) (db : State) : List BrewLog :=
  pageOf (pageSize perPage) (max 1 page).toNat (inPageOrder (own (T := Table) h .brewLog (db .brewLog)))

section Pages

variable {h : Uuid} {rows rows' : List BrewLog}

theorem entryOut_blanked (lookups : Lookups) (r : BrewLog) :
    entryOut lookups (SqlBrewLogRepo.toDict r) =
      { entryOut lookups (SqlBrewLogRepo.toDict (blanked h r)) with
        userNotes := (privateTexts r).1
        aiFeedback := (privateTexts r).2 } := by
  unfold blanked
  split <;> rfl

/-- An entry as it is written shows the notes and the feedback. -/
theorem written_entryOut (lookups : Lookups) (r : BrewLog) :
    (entryOut lookups (SqlBrewLogRepo.toDict r)).written =
      { (entryOut lookups (SqlBrewLogRepo.toDict (blanked h r))).written with
        userNotes := (privateTexts r).1
        aiFeedback := (privateTexts r).2 } := by
  rw [entryOut_blanked (h := h)]
  rfl

/-- Shots that differ in notes and feedback are shown alike where these are. -/
theorem entries_eq_iff (lookups : Lookups) (same : rows.map (blanked h) = rows'.map (blanked h)) :
    ((rows.map SqlBrewLogRepo.toDict).map (entryOut lookups)).map BrewLogEntryOut.written =
        ((rows'.map SqlBrewLogRepo.toDict).map (entryOut lookups)).map BrewLogEntryOut.written ↔
      rows.map privateTexts = rows'.map privateTexts := by
  constructor
  · intro shown
    have texts := congrArg (List.map fun e : BrewLogEntryOut => (e.userNotes, e.aiFeedback)) shown
    simp only [List.map_map] at texts
    exact texts
  · intro texts
    have through : ∀ l : List BrewLog,
        ((l.map SqlBrewLogRepo.toDict).map (entryOut lookups)).map BrewLogEntryOut.written =
          ((l.map (blanked h)).zip (l.map privateTexts)).map fun x =>
            { (entryOut lookups (SqlBrewLogRepo.toDict x.1)).written with
              userNotes := x.2.1
              aiFeedback := x.2.2 } := by
      intro l
      rw [List.zip_map', List.map_map, List.map_map, List.map_map]
      exact List.map_congr_left fun r _ => written_entryOut lookups r
    rw [through, through, same, texts]

/-- The two pages are written alike when they hold the same notes and the same feedback. -/
theorem respond_page_eq_iff (lookups : Lookups) (perPage : Int) (page : Nat)
    (same : rows.map (blanked h) = rows'.map (blanked h)) :
    respond (.ok ⟨200, .shotPage (storedPage lookups rows perPage page)⟩) =
        respond (.ok ⟨200, .shotPage (storedPage lookups rows' perPage page)⟩) ↔
      (pageOf (pageSize perPage) (max 1 (page : Int)).toNat (inPageOrder rows)).map privateTexts =
        (pageOf (pageSize perPage) (max 1 (page : Int)).toNat
          (inPageOrder rows')).map privateTexts := by
  have paged := pageOf_blanked (pageSize perPage) (max 1 (page : Int)).toNat
    (inPageOrder_blanked same)
  have length : rows.length = rows'.length := by simpa using congrArg List.length same
  rw [← entries_eq_iff lookups paged]
  constructor
  · intro shown
    injection shown with _ body
    injection body with shown
    exact congrArg BrewLogPageOut.items shown
  · intro shown
    simp only [respond, Body.written, storedPage, length] at shown ⊢
    rw [shown]

end Pages

/-! ### The same responses -/

/-- The key of a guest link that a request carries. -/
def Request.guestKey : Request → Option String
  | .brewLogList key _ _ _ => key
  | .guestView _ key => some key
  | _ => none

/-- The key is that of a link to the household which is neither revoked nor expired. -/
def OpensList (env : Env) (key : String) (h : Uuid) (db : State) : Prop :=
  ∃ g : GuestToken, g.householdId = h ∧ (db .guestTokens).filter (fun g : GuestToken =>
    g.tokenHash == env.sha256Hex key && g.revokedAt.isNone && HouseholdRepo.notExpired env g) = [g]

/-- The list shows, on a page with notes or feedback that differ, what the guest
view drops. -/
def Discloses (env : Env) (h : Uuid) (r : Request) (a b : State) : Prop :=
  ∃ key caller page perPage, r = .brewLogList (some key) caller page perPage ∧
    OpensList env key h a ∧
    (pageShots h page perPage a).map privateTexts ≠ (pageShots h page perPage b).map privateTexts

section Serve

variable {h : Uuid} {a b : State} {env : Env} {key : String} {page perPage : Int}

/-- What the list answers with, once the link was accepted. -/
def listAnswer (lookups : Lookups) (household : Uuid) (page perPage : Int) (db : State) : Response :=
  ⟨200, .shotPage (storedPage lookups (own (T := Table) household .brewLog (db .brewLog)) perPage
    page.toNat)⟩

theorem apiBrewLogList_toNat (page perPage : Int) :
    apiBrewLogList page perPage = apiBrewLogList page.toNat perPage := by
  have clamped : (max 1 page).toNat = (max 1 (page.toNat : Int)).toNat := by omega
  unfold apiBrewLogList
  rw [clamped]

variable (env key page perPage) in
theorem firm_guestList (caller : Option Uuid) :
    (asGuestOrMember env (some key) caller fun _ => apiBrewLogList page perPage).Firm := by
  have token : (guestToken env key).Firm :=
    .bind (.bind (.ask _ _) fun _ => .oneOrNone _) fun _ => .orRaise _ _
  have found : currentHouseholdId.Firm := .ask .currentSetting trivial
  have listed : ∀ page perPage : Nat, (SqlBrewLogRepo.listPaginated page perPage).Firm := by
    intro page perPage
    refine .bind found fun o => ?_
    cases o with
    | none => exact .pure _
    | some household => exact .bind (.ask _ _) fun _ => .bind (.ask _ _) fun _ => .pure _
  have bags : ∀ p, (SqlInventoryRepo.withCatalog p).Firm := fun p =>
    .bind (.ask _ _) fun _ => .pure _
  have lookups : buildLookups.Firm :=
    .bind (bags _) fun _ => .bind (.bind (.ask _ _) fun _ => .pure _) fun _ =>
      .bind (.bind (.ask _ _) fun _ => .pure _) fun _ => .pure _
  have list : (apiBrewLogList page perPage).Firm :=
    .bind (listed _ _) fun _ => .bind lookups fun _ => .pure _
  exact .bind (.lift _ token) fun _ =>
    .lift (fun _ _ => trivial) (.bind (.ask _ _) fun _ => .lift _ list)

/-- The lookups of both states are the same. -/
theorem same_lookups (differ : DifferInNotes h a b) (c : Call) (household : Uuid)
    (calm : c.faults = []) : ∃ lookups, ∀ db, db = a ∨ db = b →
      buildLookups.run ((c.start db).withContext household) =
        (.ok lookups, (c.start db).withContext household) := by
  have live : ∀ db, ((c.start db).withContext household).Live := fun db => ⟨rfl, calm⟩
  obtain ⟨lookups, looked⟩ := run_buildLookups (live a)
  obtain ⟨lookups', looked'⟩ := run_buildLookups (live b)
  have together := (inStep_buildLookups (h := h) ((c.start a).withContext household)
    ((c.start b).withContext household) ⟨rfl, rfl, differ⟩).1.eq
  have same : (buildLookups.run ((c.start a).withContext household)).1 =
      (buildLookups.run ((c.start b).withContext household)).1 := together
  rw [looked, looked'] at same
  obtain rfl : lookups = lookups' := Except.ok.inj same
  refine ⟨lookups, fun db is => ?_⟩
  rcases is with rfl | rfl
  · exact looked
  · exact looked'

theorem run_guestList {c : Call} {db : State} {g : GuestToken} {lookups : Lookups}
    (calm : c.faults = []) (caller : Option Uuid)
    (accepted : (guestToken c.env key).run (c.start db) = (.ok g, c.start db))
    (looked : buildLookups.run ((c.start db).withContext g.householdId) =
      (.ok lookups, (c.start db).withContext g.householdId)) :
    CodeM.run (asGuestOrMember c.env (some key) caller fun _ => apiBrewLogList page perPage)
        (c.start db) =
      (.ok (listAnswer lookups g.householdId page perPage db),
        (c.start db).withContext g.householdId) := by
  have live : (c.start db).Live := ⟨rfl, calm⟩
  have token : CodeM.run (guestToken c.env key : AccountM GuestToken) (c.start db) = _ := accepted
  refine CodeM.run_bind_of token (CodeM.run_bind_of (run_setConfig live g.householdId) ?_)
  have listed := run_apiBrewLogList (live.withContext g.householdId) rfl looked page.toNat perPage
  rw [← apiBrewLogList_toNat] at listed
  exact listed

theorem ownShots_blanked (differ : DifferInNotes h a b) (household : Uuid) :
    (own (T := Table) household .brewLog (a .brewLog)).map (blanked h) =
      (own (T := Table) household .brewLog (b .brewLog)).map (blanked h) := by
  refine filter_blanked (fun r => ?_) differ.shots
  show decide ((blanked h r).householdId = some household) = decide (r.householdId = some household)
  rw [householdId_blanked]

/-- Other households have the same shots in both states. -/
theorem ownShots_of_ne (differ : DifferInNotes h a b) {household : Uuid} (other : household ≠ h) :
    own (T := Table) household .brewLog (a .brewLog) =
      own (T := Table) household .brewLog (b .brewLog) := by
  have untouched : ∀ rows : List BrewLog,
      (own (T := Table) household .brewLog rows).map (blanked h) =
        own (T := Table) household .brewLog rows := by
    intro rows
    refine (List.map_congr_left fun r hr => ?_).trans (List.map_id _)
    have owner : r.householdId = some household := (mem_own.mp hr).2
    rw [blanked, if_neg, id]
    rw [owner]
    exact fun same => other (Option.some.inj same)
  rw [← untouched (a .brewLog), ownShots_blanked differ household, untouched]

/-- The list over a link, served without faults, in both states. -/
theorem listAnswers_eq_iff (differ : DifferInNotes h a b) (lookups : Lookups) (household : Uuid) :
    respond (.ok (listAnswer lookups household page perPage a)) =
        respond (.ok (listAnswer lookups household page perPage b)) ↔
      ¬ (household = h ∧ (pageShots h page perPage a).map privateTexts ≠
        (pageShots h page perPage b).map privateTexts) := by
  have clamped : (max 1 (page.toNat : Int)).toNat = (max 1 page).toNat := by omega
  by_cases here : household = h
  · subst here
    have iff := respond_page_eq_iff lookups perPage page.toNat (ownShots_blanked differ household)
    rw [clamped] at iff
    simp only [true_and, ne_eq, not_not]
    exact iff
  · simp only [listAnswer, ownShots_of_ne differ here, here, false_and, not_false_eq_true]

variable (page perPage) in
/-- A link that is accepted leads to the list, whatever the state of the log. -/
theorem run_calmList (differ : DifferInNotes h a b) (c : Call) (caller : Option Uuid)
    {g : GuestToken} (found : (a .guestTokens).filter (fun g : GuestToken =>
      g.tokenHash == c.env.sha256Hex key && g.revokedAt.isNone && HouseholdRepo.notExpired c.env g)
        = [g]) :
    ∃ lookups : Lookups, ∀ db, db = a ∨ db = b → ∃ w,
      CodeM.run (asGuestOrMember c.env (some key) caller fun _ => apiBrewLogList page perPage)
        (c.calm.start db) = (.ok (listAnswer lookups g.householdId page perPage db), w) := by
  obtain ⟨lookups, looked⟩ := same_lookups differ c.calm g.householdId rfl
  refine ⟨lookups, fun db is => ⟨_, run_guestList rfl caller ?_ (looked db is)⟩⟩
  refine run_guestToken ⟨rfl, rfl⟩ ?_
  rcases is with rfl | rfl
  · exact found
  · rw [differ.others .guestTokens nofun] at found
    exact found

variable (key page perPage) in
/-- Where the list answers at all, it answers as it does without faults. -/
theorem guestList_answers (differ : DifferInNotes h a b) (c : Call) (caller : Option Uuid) :
    (c.serve (.brewLogList (some key) caller page perPage) a).1 =
        (c.serve (.brewLogList (some key) caller page perPage) b).1 ∨
      ∃ (g : GuestToken) (lookups : Lookups), OpensList c.env key g.householdId a ∧
        ∀ db, db = a ∨ db = b → (c.serve (.brewLogList (some key) caller page perPage) db).1 =
          respond (.ok (listAnswer lookups g.householdId page perPage db)) := by
  have agree := (inStep_guestList (h := h) c.env key caller page perPage (c.start a) (c.start b)
    ⟨rfl, rfl, differ⟩).1
  rcases agree.cases with ⟨e, ha, hb⟩ | ⟨ra, rb, ha, hb, _⟩
  · left
    exact congrArg respond (ha.trans hb.symm)
  · right
    have firm := firm_guestList c.env key page perPage caller
    have calmA := firm (c.start a) _ ra (Prod.ext ha rfl)
    have calmB := firm (c.start b) _ rb (Prod.ext hb rfl)
    obtain ⟨g, w, token, _⟩ := CodeM.run_bind_eq_ok calmA
    obtain ⟨_, found⟩ := guestToken_eq_ok ⟨rfl, rfl⟩ token
    obtain ⟨lookups, answered⟩ := run_calmList page perPage differ c caller found
    refine ⟨g, lookups, ⟨g, rfl, found⟩, fun db is => ?_⟩
    obtain ⟨w, answer⟩ := answered db is
    rcases is with rfl | rfl
    · have same := calmA.symm.trans answer
      injection same with same
      exact congrArg respond (ha.trans same)
    · have same := calmB.symm.trans answer
      injection same with same
      exact congrArg respond (hb.trans same)

/-- A page that discloses is seen to, in a call that meets no fault. -/
theorem Discloses.seen {r : Request} (differ : DifferInNotes h a b)
    (discloses : Discloses env h r a b) :
    ∃ c : Call, c.env = env ∧ (c.serve r a).1 ≠ (c.serve r b).1 := by
  obtain ⟨key, caller, page, perPage, rfl, ⟨g, rfl, found⟩, texts⟩ := discloses
  let c : Call := { env, archive := [], supply := fun _ => ⟨0⟩, faults := [] }
  obtain ⟨lookups, answered⟩ := run_calmList page perPage differ c caller found
  obtain ⟨wa, ranA⟩ := answered a (.inl rfl)
  obtain ⟨wb, ranB⟩ := answered b (.inr rfl)
  refine ⟨c, rfl, fun same => ?_⟩
  rw [c.serve_eq (r := .brewLogList (some key) caller page perPage) ranA,
    c.serve_eq (r := .brewLogList (some key) caller page perPage) ranB] at same
  exact (listAnswers_eq_iff differ lookups g.householdId).mp same ⟨rfl, texts⟩

end Serve

/-- A guest link shows the same in two states that differ in notes and feedback, but for
the pages of the list on which these differ. The list is the endpoint that takes the
token of a guest and renders the whole shot. It tells the states apart for a key that
opens the household and a page whose shots have other texts in one of them, an empty
text and a missing one being the same. -/
theorem guest_noninterference {h : Uuid} {a b : State} (differ : DifferInNotes h a b) (env : Env)
    (r : Request) (key : String) (carries : r.guestKey = some key) :
    (∀ c : Call, c.env = env → (c.serve r a).1 = (c.serve r b).1) ↔ ¬ Discloses env h r a b := by
  constructor
  · intro alike discloses
    obtain ⟨c, ofEnv, seen⟩ := discloses.seen differ
    exact seen (alike c ofEnv)
  · rintro closed c rfl
    -- two endpoints take a guest key: the page blanks the notes out, and the list shows
    -- them
    cases r with
    | guestView householdId key =>
        have agree := (inStep_guestHouseholdView (h := h) c.env householdId key (c.start a)
          (c.start b) ⟨rfl, rfl, differ⟩).1
        exact congrArg respond agree.eq
    | brewLogList guestKey caller page perPage =>
        obtain rfl : guestKey = some key := carries
        rcases guestList_answers key page perPage differ c caller with
          same | ⟨g, lookups, opens, answered⟩
        · exact same
        · rw [answered a (.inl rfl), answered b (.inr rfl), listAnswers_eq_iff differ]
          rintro ⟨rfl, texts⟩
          exact closed ⟨key, caller, page, perPage, rfl, opens, texts⟩
    | _ => cases carries

/-! ### A note that a guest reads -/

namespace Sample

def link : GuestToken :=
  { id := id 5, householdId := household.id, tokenHash := "guest",
    displayTokenCiphertext := none, createdByUserId := ada.id, createdAt := .midnight day,
    expiresAt := none, revokedAt := none }

/-- Ada's household with a guest link, and a note on its shot. -/
def noted (text : String) : State
  | .guestTokens => [link]
  | .brewLog => [{ shot with notes := some text }]
  | t => db t

theorem noted_differ : DifferInNotes household.id (noted "sour") (noted "sweet") where
  others t ht := by
    cases t with
    | brewLog => exact absurd rfl ht
    | _ => rfl
  shots := rfl

/-- The guest view hides the note. -/
theorem guest_view_same :
    (∀ c : Call, c.env = env →
      (c.serve (.guestView household.id "guest") (noted "sour")).1 =
        (c.serve (.guestView household.id "guest") (noted "sweet")).1) ↔
      ¬ Discloses env household.id (.guestView household.id "guest") (noted "sour")
        (noted "sweet") :=
  guest_noninterference noted_differ env (.guestView household.id "guest") "guest" rfl

/-- The list shows it. -/
theorem guest_list_differs :
    DifferInNotes household.id (noted "sour") (noted "sweet") ∧
      ∃ c : Call, c.env = env ∧
        (c.serve (.brewLogList (some "guest") none 1 50) (noted "sour")).1 ≠
          (c.serve (.brewLogList (some "guest") none 1 50) (noted "sweet")).1 := by
  have page : ∀ text, pageShots household.id 1 50 (noted text) =
      [{ shot with notes := some text }] := by
    intro text
    have listed : own (T := Table) household.id .brewLog (noted text .brewLog) =
        [{ shot with notes := some text }] := rfl
    rw [pageShots, listed, inPageOrder, List.mergeSort_singleton, SqlBrewLogRepo.newestFirst,
      List.mergeSort_singleton]
    rfl
  refine ⟨noted_differ, Discloses.seen noted_differ ⟨"guest", none, 1, 50, rfl, ⟨link, rfl, ?_⟩, ?_⟩⟩
  · decide
  · rw [page, page]
    decide

end Sample

end EspressoLogs
