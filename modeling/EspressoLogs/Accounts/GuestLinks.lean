import EspressoLogs.Accounts.Clients
import EspressoLogs.Accounts.Leaving
import EspressoLogs.Tenant.Entry
import Mathlib.Logic.Function.Basic

/-!
Guest links, from their making to their end.

Which link of a household works is told by the requests that were answered: the
last one made, unless it was revoked or the household deleted since. The rows of
the tokens, the flags of the households and the two places where a link is
checked all agree with that (`guest_links`).
-/

namespace EspressoLogs

open Lib Py

/-! ### The requests and what they tell -/

/-- The requests about guest links. -/
inductive LinkRequest where
  | generate (householdId : Uuid)
  | revoke (householdId : Uuid)
  | delete (householdId : Uuid) (confirmName : String)

/-- The request of the API. -/
def LinkRequest.request : LinkRequest → MemberRequest
  | generate householdId => .guestTokenGenerate householdId
  | revoke householdId => .guestTokenRevoke householdId
  | delete householdId confirmName => .householdDelete householdId confirmName

/-- One of the three requests, by a caller. -/
structure LinkCall where
  call : Call
  caller : Option Uuid
  request : LinkRequest

/-- What it answers, and what it leaves. -/
def LinkCall.serve (x : LinkCall) (db : State) : Response × State :=
  x.call.serve (.member x.caller x.request.request) db

/-- The raw token that works for a household, if one does. -/
abbrev Links := Uuid → Option String

/-- What an answered request means for the links. -/
def Links.after (links : Links) (request : LinkRequest) (response : Response) : Links :=
  match request, response with
  | .generate h, ⟨201, .guestToken raw _⟩ => Function.update links h (some raw)
  | .revoke h, ⟨204, .empty⟩ => Function.update links h none
  | .delete h _, ⟨204, .empty⟩ => Function.update links h none
  | _, _ => links

/-- Serves requests one after the other, and keeps track of the links. -/
def serveLinks : List LinkCall → Links → State → Links × State
  | [], links, db => (links, db)
  | x :: rest, links, db => serveLinks rest (links.after x.request (x.serve db).1) (x.serve db).2

/-! ### What holds of links and rows -/

/-- The token is one of the household, and not revoked. -/
def isOpenFor (h : Uuid) (g : GuestToken) : Bool := g.householdId == h && g.revokedAt.isNone

theorem isOpenFor_iff {h : Uuid} {g : GuestToken} :
    isOpenFor h g = true ↔ g.householdId = h ∧ g.revokedAt = none := by
  unfold isOpenFor
  rw [Bool.and_eq_true, beq_iff_eq, Option.isNone_iff_eq_none]

/-- The rows are those of the links. -/
structure Tracks (sha : String → String) (links : Links) (db : State) : Prop where
  keyed : Table.households.Keyed (db .households)
  closed : ∀ h, links h = none → (db .guestTokens).filter (isOpenFor h) = []
  opened : ∀ h raw, links h = some raw → ∃ g : GuestToken,
    (db .guestTokens).filter (isOpenFor h) = [g] ∧ g.tokenHash = sha raw ∧ g.expiresAt = none
  distinct : ∀ h k raw, links h = some raw → links k = some raw → h = k
  flags : ∀ r : Household, r ∈ db .households → r.isGuestAccessible = (links r.id).isSome
  stored : ∀ h raw, links h = some raw → ∃ r : Household, r ∈ db .households ∧
    HouseholdRepo.isLive h r = true

/-- Only the tokens and the households matter. -/
theorem Tracks.congr {sha : String → String} {links : Links} {db db' : State}
    (tracks : Tracks sha links db) (tokens : db' .guestTokens = db .guestTokens)
    (households : db' .households = db .households) : Tracks sha links db' where
  keyed := households ▸ tracks.keyed
  closed := tokens ▸ tracks.closed
  opened := tokens ▸ tracks.opened
  distinct := tracks.distinct
  flags := households ▸ tracks.flags
  stored := households ▸ tracks.stored

/-! ### What the requests do -/

section Requests

variable {w w' : World Table} {env : Env} {householdId : Uuid} {m : HouseholdMember}
  {response : Response}

/-- The rows after the tokens of a household are revoked. -/
def revokedFor (env : Env) (h : Uuid) (tokens : List GuestToken) : List GuestToken :=
  tokens.map fun g => if isOpenFor h g then { g with revokedAt := some env.now } else g

/-- The rows after a household was opened to guests or closed to them. -/
def flaggedFor (h : Uuid) (accessible : Bool) (households : List Household) : List Household :=
  households.map fun r => if r.id == h then { r with isGuestAccessible := accessible } else r

/-- An update that does not fail, of rows outside row-level security. -/
theorem run_update_rows {t : Table} {p : t.Row → Bool} {f : t.Row → t.Row} {rows : List t.Row}
    {ht : t.tenantScoped = false} (live : w.Live)
    (updated : (AccountM.update t p (fun r => .ok (f r)) ht).run w = (.ok rows, w')) :
    w'.Live ∧ w'.db = w.db ∧ w'.view t = (w.view t).map (fun r => if p r then f r else r) ∧
      ∀ u, u ≠ t → w'.view u = w.view u := by
  have asked : (DbM.update t p fun r => .ok (f r)).run w = (.ok rows, w') := updated
  obtain ⟨_, _, _, rfl⟩ := run_update_eq_ok live asked
  refine ⟨live.pend _ _, rfl, ?_, fun u hu => World.pend_view_of_ne w _ hu⟩
  rw [World.pend_view_self, World.visible_of_unsecured ht]
  exact Change.apply_upd_filter _ _ _

/-- Revoking marks the tokens of the household, and changes no other table. -/
theorem revoked_rows (live : w.Live)
    (done : (HouseholdRepo.revokePreviousGuestTokens env householdId).run w = (.ok (), w')) :
    w'.Live ∧ w'.db = w.db ∧
      w'.view .guestTokens = revokedFor env householdId (w.view .guestTokens) ∧
      ∀ u, u ≠ .guestTokens → w'.view u = w.view u := by
  obtain ⟨rows, w₁, updated, rest⟩ := CodeM.run_bind_eq_ok done
  cases rest
  exact run_update_rows live updated

/-- The flag is set on the one household. -/
theorem flagged_rows {accessible : Bool} (live : w.Live)
    (done : (HouseholdRepo.setGuestAccessible householdId accessible).run w = (.ok (), w')) :
    w'.Live ∧ w'.db = w.db ∧
      w'.view .households = flaggedFor householdId accessible (w.view .households) ∧
      ∀ u, u ≠ .households → w'.view u = w.view u := by
  obtain ⟨rows, w₁, updated, rest⟩ := CodeM.run_bind_eq_ok done
  cases rest
  exact run_update_rows live updated

theorem requireAdmin_eq_ok {endpoint : TenantM m.householdId Response}
    (answered : (requireAdmin m endpoint).run w = (.ok response, w')) :
    endpoint.run w = (.ok response, w') := by
  by_cases admin : m.role = .admin
  · rw [requireAdmin_of_admin admin] at answered
    exact answered
  · rw [requireAdmin_of_member admin] at answered
    cases answered

/-- The path names the caller's own household. -/
theorem checkHere_eq_ok {P : Statement → Prop} {e : Exc} {u : Unit}
    (passed : (checkHere m householdId e : CodeM P Unit).run w = (.ok u, w')) :
    m.householdId = householdId ∧ w' = w := by
  unfold checkHere at passed
  by_cases here : m.householdId = householdId
  · rw [if_neg (not_not.mpr here)] at passed
    cases passed
    exact ⟨here, rfl⟩
  · rw [if_pos here] at passed
    cases passed

/-- A commit keeps what is pending. -/
theorem commit_eq_ok {u : Unit} (live : w.Live) (done : DbM.commit.run w = (.ok u, w')) :
    w' = w.committed := by
  rw [run_commit live] at done
  cases done
  rfl

/-- A read that returned left the world as it was. -/
theorem read_eq_ok {P : Statement → Prop} {α : Type} {p : CodeM P α} {a : α}
    (reads : p.prog.All IsRead) (live : w.Live) (done : p.run w = (.ok a, w')) : w' = w := by
  have still := run_read reads live
  rw [done] at still
  exact still

theorem refresh_reads (t : Table) (row : t.Row) (ht : t.tenantScoped = false) :
    (AccountM.refresh t row ht).prog.All IsRead :=
  all_bind ((lookup t _ ht).within.mono fun _ h => h.1) fun _ =>
    all_bind (all_oneOrNone _) fun _ => all_orRaise _ _

/-- What is stored is the hash of the token that is handed out. -/
theorem linkToken_eq_ok {token : HouseholdRepo.InvitationToken} (made : linkToken env = .ok token) :
    token.tokenHash = env.sha256Hex env.rawToken := by
  unfold linkToken at made
  cases encrypted : env.encryptToken env.rawToken with
  | none => rw [encrypted] at made; cases made
  | some ciphertext => rw [encrypted] at made; cases made; rfl

/-- A token that was generated: the household's others are revoked, and it is
marked as open to guests. -/
theorem generate_eq_ok (live : w.Live)
    (answered : CodeM.run (generateGuestToken env householdId m) w = (.ok response, w')) :
    ∃ (g : GuestToken) (t : Timestamp), m.householdId = householdId ∧
      response = ⟨201, .guestToken env.rawToken t⟩ ∧ g.householdId = householdId ∧
      g.tokenHash = env.sha256Hex env.rawToken ∧ g.expiresAt = none ∧ g.revokedAt = none ∧
      w'.db .guestTokens = revokedFor env householdId (w.view .guestTokens) ++ [g] ∧
      w'.db .households = flaggedFor householdId true (w.view .households) ∧
      ∀ g' : GuestToken, g' ∈ w.view .guestTokens → g'.tokenHash ≠ g.tokenHash := by
  obtain ⟨_, w₀, checked, rest⟩ := CodeM.run_bind_eq_ok answered
  obtain ⟨here, rfl⟩ := checkHere_eq_ok checked
  obtain ⟨_, w₁, revoked, rest⟩ := CodeM.run_bind_eq_ok rest
  obtain ⟨live₁, db₁, tokens₁, others₁⟩ := revoked_rows live revoked
  obtain ⟨token, w₂, linked, rest⟩ := CodeM.run_bind_eq_ok rest
  obtain ⟨made, rfl⟩ := CodeM.run_liftExcept_eq_ok linked
  have hash := linkToken_eq_ok made
  obtain ⟨shown, w₃, created, rest⟩ := CodeM.run_bind_eq_ok rest
  obtain ⟨g, w₄, inserted, written⟩ := CodeM.run_bind_eq_ok created
  have asked : (DbM.insert .guestTokens fun id => .ok
      { id, householdId, tokenHash := token.tokenHash,
        displayTokenCiphertext := token.displayTokenCiphertext, createdByUserId := m.userId,
        createdAt := env.now, expiresAt := none, revokedAt := none }).run w₁ = (.ok g, w₄) := inserted
  obtain ⟨new, fits, rfl⟩ := run_insert_eq_ok live₁ asked
  obtain ⟨_, w₅, flagged, refreshed⟩ := CodeM.run_bind_eq_ok written
  obtain ⟨live₅, db₅, households₅, others₅⟩ := flagged_rows (live₁.drew.pend _ _) flagged
  obtain rfl := read_eq_ok (refresh_reads _ _ _) live₅ refreshed
  obtain ⟨_, w₆, stored, rest⟩ := CodeM.run_bind_eq_ok rest
  obtain rfl := commit_eq_ok live₅ stored
  cases rest
  have values := Except.ok.inj new
  have tokens : w₃.committed.db .guestTokens =
      revokedFor env householdId (w₀.view .guestTokens) ++ [g] := by
    rw [World.committed_db, others₅ .guestTokens nofun, World.pend_view_self, World.drew_view, tokens₁]
    rfl
  have households : w₃.committed.db .households =
      flaggedFor householdId true (w₀.view .households) := by
    rw [World.committed_db, households₅,
      World.pend_view_of_ne _ _ (show Table.households ≠ .guestTokens from nofun),
      World.drew_view, others₁ .households nofun]
  refine ⟨g, _, here, rfl, ?_, ?_, ?_, ?_, tokens, households, fun g' hg' same => ?_⟩
  · rw [← values]
  · rw [← values]
    exact hash
  · rw [← values]
  · rw [← values]
  · have fresh := ((World.refused_eq_none _).mp fits).2.1 (.guestToken g.tokenHash)
      List.mem_cons_self
    have kept : ∃ r : GuestToken, r ∈ w₁.view .guestTokens ∧ r.tokenHash = g.tokenHash := by
      rw [tokens₁]
      refine ⟨_, List.mem_map_of_mem hg', ?_⟩
      rw [← same]
      split <;> rfl
    obtain ⟨r, hr, same⟩ := kept
    have taken : w₁.taken .guestTokens (.guestToken g.tokenHash) = true := by
      refine List.any_eq_true.mpr ⟨r, hr, decide_eq_true ?_⟩
      show UniqueEntry.guestToken g.tokenHash ∈ UniqueEntry.guestToken r.tokenHash :: _
      rw [same]
      exact List.mem_cons_self
    rw [taken] at fresh
    cases fresh

/-- What a revoke that answers has left. -/
theorem revoke_eq_ok (live : w.Live)
    (answered : CodeM.run (revokeGuestToken env householdId m) w = (.ok response, w')) :
    m.householdId = householdId ∧ response = ⟨204, .empty⟩ ∧
      w'.db .guestTokens = revokedFor env householdId (w.view .guestTokens) ∧
      w'.db .households = flaggedFor householdId false (w.view .households) := by
  obtain ⟨_, w₀, checked, rest⟩ := CodeM.run_bind_eq_ok answered
  obtain ⟨here, rfl⟩ := checkHere_eq_ok checked
  obtain ⟨_, w₂, done, rest⟩ := CodeM.run_bind_eq_ok rest
  obtain ⟨_, w₁, revoked, flagged⟩ := CodeM.run_bind_eq_ok done
  obtain ⟨live₁, db₁, tokens₁, others₁⟩ := revoked_rows live revoked
  obtain ⟨live₂, db₂, households₂, others₂⟩ := flagged_rows live₁ flagged
  obtain ⟨_, w₃, stored, rest⟩ := CodeM.run_bind_eq_ok rest
  obtain rfl := commit_eq_ok live₂ stored
  cases rest
  refine ⟨here, rfl, ?_, ?_⟩
  · rw [World.committed_db, others₂ .guestTokens nofun, tokens₁]
  · rw [World.committed_db, households₂, others₁ .households nofun]

/-- A household takes its tokens with it. -/
theorem cascaded_tokens (gone : List Household) :
    w.cascaded (T := Table) .households gone .guestTokens =
      (w.view .guestTokens).filter fun g : GuestToken => g.householdId ∈ gone.map Household.id := by
  refine List.filter_congr fun g _ => ?_
  have refs : Schema.parents Table.guestTokens g =
      [(Table.households, g.householdId), (Table.users, g.createdByUserId)] := rfl
  rw [Bool.eq_iff_iff, List.any_eq_true, decide_eq_true_eq, List.mem_map]
  constructor
  · rintro ⟨r, hr, child⟩
    have refers := (of_decide_eq_true child).1
    rw [refs] at refers
    rcases List.mem_pair.mp refers with same | other
    · exact ⟨r, hr, (Prod.mk.inj same).2⟩
    · cases (Prod.mk.inj other).1
  · rintro ⟨r, hr, same⟩
    refine ⟨r, hr, decide_eq_true ⟨?_, rfl⟩⟩
    rw [refs, ← same]
    exact List.mem_cons_self

theorem unlinked_tokens (gone : List Household) :
    w.unlinked (T := Table) .households gone .guestTokens = [] := by
  refine List.flatMap_eq_nil_iff.mpr fun g _ => List.filterMap_eq_nil_iff.mpr fun r _ => ?_
  rfl

/-- Deleting households takes their tokens along. -/
theorem delete_rows {gone rows : List Household} (live : w.Live)
    (deleted : w.performDelete (T := Table) .households gone = (.ok rows, w')) :
    rows = gone ∧ w'.Live ∧ w'.db = w.db ∧
      w'.view .households = (w.view .households).filter (fun r => r ∉ gone) ∧
      w'.view .guestTokens = (w.view .guestTokens).filter fun g : GuestToken =>
        g.householdId ∉ gone.map Household.id := by
  unfold World.performDelete at deleted
  simp only at deleted
  split at deleted
  · cases deleted
  · cases deleted
    set removed := w.pend (T := Table) .households (.del gone)
    have tokens : removed.view .guestTokens = w.view .guestTokens :=
      World.pend_view_of_ne w _ nofun
    have none : removed.cascaded (T := Table) .households gone .households = [] := by
      refine List.filter_eq_nil_iff.mpr fun r _ goes => ?_
      obtain ⟨g, _, child⟩ := List.any_eq_true.mp goes
      exact not_household_parent g.id r (of_decide_eq_true child).1
    have same : removed.unlinked (T := Table) .households gone .households = [] := by
      refine List.flatMap_eq_nil_iff.mpr fun r _ => ?_
      have unrelated : gone.filter (fun g => (Table.households, Schema.key Table.households g) ∈
          Schema.parents Table.households r) = [] :=
        List.filter_eq_nil_iff.mpr fun g _ refers =>
          not_household_parent _ r (of_decide_eq_true refers)
      rw [unrelated]
      rfl
    have households : (removed.cascade (T := Table) .households gone).view .households =
        (w.view .households).filter fun r => r ∉ gone := by
      rw [view_cascade_eq, none, same, World.pend_view_self]
      exact (Change.apply_upd_nil _).trans (List.filter_eq_self.mpr fun _ _ => rfl)
    refine ⟨rfl, ⟨live.failed, live.faults⟩, rfl, ?_, ?_⟩
    · exact households
    · rw [view_cascade_eq, cascaded_tokens, unlinked_tokens, tokens]
      refine (Change.apply_upd_nil _).trans ((Change.apply_del_filter _ _).trans ?_)
      refine List.filter_congr fun g _ => ?_
      rw [Bool.eq_iff_iff]
      simp

/-- What the removal of a household has left. -/
theorem hardDelete_eq_ok (live : w.Live)
    (removed : CodeM.run (HouseholdRepo.hardDelete env householdId) w = (.ok (), w')) :
    ∃ r : Household, r ∈ w.view .households ∧ HouseholdRepo.isLive householdId r = true ∧ w'.Live ∧
      w'.view .households =
        (w.view .households).filter (fun r => !HouseholdRepo.isLive householdId r) ∧
      w'.view .guestTokens =
        (w.view .guestTokens).filter fun g : GuestToken => g.householdId ≠ householdId := by
  obtain ⟨members, w₁, listed, rest⟩ := CodeM.run_bind_eq_ok removed
  have reads : (HouseholdRepo.getMembers householdId).prog.All IsRead :=
    (HouseholdRepo.getMembers householdId).within.mono fun _ h => h.1
  obtain rfl := read_eq_ok reads live listed
  obtain ⟨deleted, w₂, went, rest⟩ := CodeM.run_bind_eq_ok rest
  have asked := (run_ask (P := Dissolves householdId) live
    (.deleteCascade .households (HouseholdRepo.isLive householdId))
    (.inr ⟨_, fun _ => HouseholdRepo.id_of_isLive, rfl⟩)).symm.trans went
  rw [World.perform, World.visible_of_unsecured rfl] at asked
  generalize hgone : (w₁.view .households).filter (HouseholdRepo.isLive householdId) = gone at asked
  cases done : w₁.performDelete (T := Table) .households gone with
  | mk result w₃ =>
      rw [done] at asked
      cases result with
      | error e => cases asked
      | ok rows =>
          cases asked
          obtain ⟨rfl, live₂, _, households, tokens⟩ := delete_rows live done
          -- a delete that found no household raises
          cases deleted with
          | nil => cases rest
          | cons r gone =>
              have selected : r ∈ (w₁.view .households).filter (HouseholdRepo.isLive householdId) := by
                rw [hgone]
                exact List.mem_cons_self
              obtain ⟨hr, isLive⟩ := List.mem_filter.mp selected
              obtain ⟨w₄, repaired, live₄, _, view⟩ := run_repair env
                (members.map fun m => m.userId) live₂
              cases repaired.symm.trans rest
              refine ⟨r, hr, isLive, live₄, ?_, ?_⟩
              · rw [view, repaired_of_ne (show Table.households ≠ .users by decide), households,
                  ← hgone]
                refine List.filter_congr fun r' hr' => ?_
                simp [hr']
              · rw [view, repaired_of_ne (show Table.guestTokens ≠ .users by decide), tokens,
                  ← hgone]
                have ids : ∀ k, k ∈ ((w₁.view .households).filter
                    (HouseholdRepo.isLive householdId)).map Household.id ↔ k = householdId := by
                  intro k
                  constructor
                  · intro hk
                    obtain ⟨r', hr', rfl⟩ := List.mem_map.mp hk
                    exact HouseholdRepo.id_of_isLive (List.mem_filter.mp hr').2
                  · rintro rfl
                    exact List.mem_map.mpr ⟨r, selected, HouseholdRepo.id_of_isLive isLive⟩
                refine List.filter_congr fun g _ => ?_
                simp only [ids]

/-- A household that was deleted. -/
theorem delete_eq_ok {confirmName : String} (live : w.Live)
    (answered : CodeM.run (deleteHousehold env householdId confirmName m) w = (.ok response, w')) :
    ∃ r : Household, r ∈ w.view .households ∧ HouseholdRepo.isLive householdId r = true ∧
      response = ⟨204, .empty⟩ ∧
      w'.db .households =
        (w.view .households).filter (fun r => !HouseholdRepo.isLive householdId r) ∧
      w'.db .guestTokens =
        (w.view .guestTokens).filter fun g : GuestToken => g.householdId ≠ householdId := by
  obtain ⟨_, w₀, checked, rest⟩ := CodeM.run_bind_eq_ok answered
  obtain ⟨here, rfl⟩ := checkHere_eq_ok checked
  subst here
  obtain ⟨o, w₁, found, rest₁⟩ := CodeM.run_bind_eq_ok rest
  have reads : (HouseholdRepo.getById m.householdId).prog.All IsRead :=
    (HouseholdRepo.getById m.householdId).within.mono fun _ h => h.1
  obtain rfl := read_eq_ok reads live found
  obtain ⟨household, w₂, there, rest₂⟩ := CodeM.run_bind_eq_ok rest₁
  obtain ⟨_, rfl⟩ := CodeM.run_orRaise_eq_ok there
  by_cases named : confirmName = household.name
  · simp only [named, ne_eq, not_true_eq_false, if_false] at rest₂
    obtain ⟨_, w₃, removed, rest₃⟩ := CodeM.run_bind_eq_ok rest₂
    obtain ⟨r, hr, isLive, live₃, households, tokens⟩ := hardDelete_eq_ok live removed
    obtain ⟨_, w₄, stored, rest₄⟩ := CodeM.run_bind_eq_ok rest₃
    obtain rfl := commit_eq_ok live₃ stored
    cases rest₄
    exact ⟨r, hr, isLive, rfl, households, tokens⟩
  · simp only [named, ne_eq, not_false_eq_true, if_true] at rest₂
    cases rest₂

/-! ### They go through -/

/-- An update that adds no index entry and no reference goes through. -/
theorem run_update_kept {t : Table} {p : t.Row → Bool} {f : t.Row → t.Row}
    (shared : t.tenantScoped = false) (live : w.Live)
    (kept : ∀ r, t.entries (f r) ⊆ t.entries r ∧ t.parents (f r) ⊆ t.parents r) :
    ∃ rows w', (AccountM.update t p (fun r => .ok (f r)) shared).run w = (.ok rows, w') ∧
      w'.nextId = w.nextId := by
  let set (r : t.Row) : Except StmtError t.Row := .ok (f r)
  let rows := (w.visible t).filter p
  have verdict : w.refused t (.upd (rewritten set rows)) = none := by
    rw [World.refused_of_nothing_gained w
      (World.gained_eq_nil fun pair hpair => ?_) (World.referenced_eq_nil fun pair hpair => ?_)]
    · refine if_pos (List.all_eq_true.mpr fun r _ => ?_)
      show (!t.tenantScoped || _) = true
      rw [shared]
      rfl
    · obtain ⟨r, _, rfl⟩ := List.mem_map.mp hpair
      exact (kept r).1
    · obtain ⟨r, _, rfl⟩ := List.mem_map.mp hpair
      exact (kept r).2
  exact ⟨_, _, run_update live (fun _ _ => rfl) verdict, rfl⟩

variable (env householdId) in
/-- Revoking does not fail. -/
theorem run_revokePrevious (live : w.Live) : ∃ w',
    (HouseholdRepo.revokePreviousGuestTokens env householdId).run w = (.ok (), w') ∧
      w'.nextId = w.nextId := by
  obtain ⟨rows, w', updated, same⟩ := run_update_kept (t := .guestTokens) rfl live
    (p := fun g : GuestToken => g.householdId == householdId && g.revokedAt.isNone)
    (f := fun g : GuestToken => { g with revokedAt := some env.now }) fun g => by
      refine ⟨fun e he => ?_, List.Subset.refl _⟩
      rw [List.mem_singleton.mp he]
      exact List.mem_cons_self
  exact ⟨w', CodeM.run_bind_of updated rfl, same⟩

variable (householdId) in
/-- Nor does setting the flag. -/
theorem run_setAccessible (accessible : Bool) (live : w.Live) : ∃ w',
    (HouseholdRepo.setGuestAccessible householdId accessible).run w = (.ok (), w') := by
  obtain ⟨rows, w', updated, _⟩ := run_update_kept (t := .households) rfl live
    (p := fun r : Household => r.id == householdId)
    (f := fun r : Household => { r with isGuestAccessible := accessible })
    fun r => ⟨List.Subset.refl _, List.Subset.refl _⟩
  exact ⟨w', CodeM.run_bind_of updated rfl⟩

theorem run_checkHere {P : Statement → Prop} {e : Exc} (here : m.householdId = householdId) :
    (checkHere m householdId e : CodeM P Unit).run w = (.ok (), w) := by
  unfold checkHere
  rw [if_neg (not_not.mpr here)]
  rfl

/-- A token goes in beside others with other hashes, none of which is open for its
household, when the household and the user are there. -/
theorem refused_token {g : GuestToken} (isOpen : isOpenFor householdId g = true)
    (others : ∀ g' : GuestToken, g' ∈ w.view .guestTokens →
      g'.tokenHash ≠ g.tokenHash ∧ isOpenFor householdId g' = false)
    (household : w.stored (.households, g.householdId) = true)
    (user : w.stored (.users, g.createdByUserId) = true) :
    w.refused Table.guestTokens (.ins g) = none := by
  have own := isOpenFor_iff.mp isOpen
  have entries : Table.entries .guestTokens g =
      [.guestToken g.tokenHash, .activeGuestToken householdId] := by
    simp [Table.entries, own.1, own.2]
  refine (World.refused_eq_none w).mpr ⟨fun _ _ => rfl, fun e he => ?_, ?_, fun ref href => ?_⟩
  · refine Bool.eq_false_iff.mpr fun taken => ?_
    obtain ⟨g', hg', held⟩ := List.any_eq_true.mp taken
    obtain ⟨hash, closed⟩ := others g' hg'
    have held : e ∈ Table.entries .guestTokens g' := of_decide_eq_true held
    have gained : e ∈ Table.entries .guestTokens g := he
    rw [entries] at gained
    by_cases unrevoked : g'.revokedAt.isNone = true
    · simp only [Table.entries, unrevoked, if_true] at held
      rcases List.mem_pair.mp gained with rfl | rfl
      · rcases List.mem_pair.mp held with same | other
        · exact hash (UniqueEntry.guestToken.inj same).symm
        · cases other
      · rcases List.mem_pair.mp held with other | same
        · cases other
        · rw [isOpenFor, unrevoked, ← UniqueEntry.activeGuestToken.inj same, beq_self_eq_true]
            at closed
          cases closed
    · simp only [Table.entries, unrevoked] at held
      rcases List.mem_pair.mp gained with rfl | rfl
      · exact hash (UniqueEntry.guestToken.inj (List.mem_singleton.mp held)).symm
      · cases List.mem_singleton.mp held
  · show (Table.entries .guestTokens g).Nodup
    rw [entries]
    simp
  · rcases List.mem_pair.mp href with rfl | rfl
    · exact household
    · exact user

/-- A token that is new is made and shown. -/
theorem run_generate (live : w.Live) (here : m.householdId = householdId)
    (encrypts : (env.encryptToken env.rawToken).isSome = true)
    (household : w.stored (.households, householdId) = true)
    (user : w.stored (.users, m.userId) = true)
    (new : ∀ g : GuestToken, g ∈ w.view .guestTokens →
      g.tokenHash ≠ env.sha256Hex env.rawToken ∧ g.id ≠ w.nextId) :
    ∃ w', CodeM.run (generateGuestToken env householdId m) w =
      (.ok ⟨201, .guestToken env.rawToken env.now⟩, w') := by
  obtain ⟨ciphertext, encrypted⟩ := Option.isSome_iff_exists.mp encrypts
  have linked : linkToken env = .ok ⟨env.sha256Hex env.rawToken, some ciphertext⟩ := by
    unfold linkToken
    rw [encrypted]
  obtain ⟨w₁, revoked, nextId⟩ := run_revokePrevious env householdId live
  obtain ⟨live₁, _, tokens₁, others₁⟩ := revoked_rows live revoked
  let g : GuestToken :=
    { id := w₁.nextId, householdId, tokenHash := env.sha256Hex env.rawToken,
      displayTokenCiphertext := some ciphertext, createdByUserId := m.userId,
      createdAt := env.now, expiresAt := none, revokedAt := none }
  -- a token that is there keeps its id and its hash, and none is open
  have there : ∀ g' : GuestToken, g' ∈ w₁.view .guestTokens →
      g'.id ≠ g.id ∧ g'.tokenHash ≠ g.tokenHash ∧ isOpenFor householdId g' = false := by
    intro g' hg'
    rw [tokens₁] at hg'
    obtain ⟨old, hold, rfl⟩ := List.mem_map.mp hg'
    obtain ⟨hash, id⟩ := new old hold
    have other : old.id ≠ g.id := fun same => id (same.trans nextId)
    by_cases was : isOpenFor householdId old = true
    · rw [if_pos was]
      exact ⟨other, hash, Bool.and_false _⟩
    · rw [if_neg was]
      exact ⟨other, hash, Bool.eq_false_iff.mpr was⟩
  have kept {t : Table} {id : Uuid} (other : t ≠ .guestTokens) (was : w.stored (t, id) = true) :
      w₁.stored (t, id) = true := by
    rw [World.stored, others₁ t other]
    exact was
  -- the partial index on open tokens is free, since the ones before were revoked
  have fits : w₁.refused Table.guestTokens (.ins g) = none :=
    refused_token (isOpenFor_iff.mpr ⟨rfl, rfl⟩) (fun g' hg' => (there g' hg').2)
      (kept (by decide) household) (kept (by decide) user)
  have inserted : (AccountM.insert .guestTokens (fun id => .ok { g with id })).run w₁ =
      (.ok g, w₁.drew.pend .guestTokens (.ins g)) :=
    run_insert live₁ rfl fits
  have live₂ : World.Live (w₁.drew.pend (T := Table) .guestTokens (.ins g)) := live₁.drew.pend _ _
  obtain ⟨w₃, flagged⟩ := run_setAccessible householdId true live₂
  obtain ⟨live₃, _, _, others₃⟩ := flagged_rows live₂ flagged
  have listed : (w₃.view .guestTokens).filter (fun r => Table.id .guestTokens r == g.id) = [g] := by
    rw [others₃ .guestTokens (by decide), World.pend_view_self, World.drew_view]
    show (w₁.view .guestTokens ++ [g]).filter (fun r : GuestToken => r.id == g.id) = [g]
    rw [List.filter_append, List.filter_eq_nil_iff.mpr fun g' hg' same =>
      (there g' hg').1 (beq_iff_eq.mp same)]
    simp
  have refreshed : (AccountM.refresh .guestTokens g).run w₃ = (.ok g, w₃) := by
    have looked := run_lookup live₃ .guestTokens (fun r => Table.id .guestTokens r == g.id) rfl
    rw [listed] at looked
    exact CodeM.run_bind_of looked rfl
  refine ⟨w₃.committed, ?_⟩
  -- the statements in the order of the handler
  unfold generateGuestToken
  refine CodeM.run_bind_of (run_checkHere here) (CodeM.run_bind_of revoked ?_)
  rw [linked]
  refine CodeM.run_bind_still _ rfl ?_
  refine CodeM.run_bind_of (CodeM.run_bind_of inserted (CodeM.run_bind_of flagged refreshed)) ?_
  exact CodeM.run_bind_of (run_commit live₃) rfl

variable (env) in
/-- Whatever tokens there are, they can be revoked. -/
theorem run_revoke (live : w.Live) (here : m.householdId = householdId) :
    ∃ w', CodeM.run (revokeGuestToken env householdId m) w = (.ok ⟨204, .empty⟩, w') := by
  obtain ⟨w₁, revoked, _⟩ := run_revokePrevious env householdId live
  obtain ⟨live₁, _⟩ := revoked_rows live revoked
  obtain ⟨w₂, flagged⟩ := run_setAccessible householdId false live₁
  obtain ⟨live₂, _⟩ := flagged_rows live₁ flagged
  refine ⟨w₂.committed, ?_⟩
  unfold revokeGuestToken
  refine CodeM.run_bind_of (run_checkHere here) ?_
  refine CodeM.run_bind_of (CodeM.run_bind_of revoked flagged) ?_
  exact CodeM.run_bind_of (run_commit live₂) rfl

variable (env) in
/-- A household that may be deleted is. -/
theorem run_deleted {confirmName : String} (live : w.Live)
    (keyed : Table.households.Keyed (w.view .households)) (here : m.householdId = householdId)
    (may : MayDelete w householdId confirmName) :
    ∃ w', CodeM.run (deleteHousehold env householdId confirmName m) w =
      (.ok ⟨204, .empty⟩, w') := by
  subst here
  obtain ⟨r, hr, there, named, goes⟩ := may
  obtain ⟨w₁, _, deleted, live₁, _⟩ := (run_hardDelete env live keyed hr there).1 goes
  refine ⟨w₁.committed, ?_⟩
  rw [run_deleteHousehold live keyed, if_pos rfl, find_live keyed hr there]
  simp only [named, if_true]
  exact CodeM.run_bind_of deleted (CodeM.run_bind_of (run_commit live₁) rfl)

/-! ### They commit at their end -/

theorem lookup_uncommitting {α : Type} (p : LookupM α) : p.prog.All (· ≠ .commit) := by
  refine p.within.mono fun s reads committing => ?_
  rw [committing] at reads
  exact reads.1

theorem setActive_uncommitting (userId : Uuid) (selection : Option Uuid) :
    (UserRepo.setActive userId selection).prog.All (· ≠ .commit) :=
  all_discard (all_ask nofun)

/-- The repair leaves the commit to its caller. -/
theorem repair_uncommitting (ids : List Uuid) :
    (HouseholdRepo.repairActiveHouseholdsForUsers env ids).prog.All (· ≠ .commit) := by
  induction ids with
  | nil => trivial
  | cons id ids ih =>
      refine all_bind (all_bind (lookup_uncommitting _) fun _ => ?_) fun _ => ih
      exact setActive_uncommitting _ _

theorem repair_firm (ids : List Uuid) :
    (HouseholdRepo.repairActiveHouseholdsForUsers env ids).Firm := by
  induction ids with
  | nil => exact .pure _
  | cons id ids ih =>
      have listed : (HouseholdRepo.getMembershipsForUser env id).Firm :=
        .bind (.ask _ _) fun _ => .pure _
      exact .bind (.bind (.lift _ listed) fun _ => setActive_firm _ _) fun _ => ih

theorem checkHere_firm {P : Statement → Prop} (e : Exc) :
    (checkHere m householdId e : CodeM P Unit).Firm := by
  unfold checkHere
  split
  · exact .throw _
  · exact .pure _

theorem checkHere_uncommitting {P : Statement → Prop} (e : Exc) :
    (checkHere m householdId e : CodeM P Unit).prog.All (· ≠ .commit) := by
  unfold checkHere
  split <;> trivial

theorem updates_firm (t : Table) (p : t.Row → Bool) (set : t.Row → Except StmtError t.Row)
    (ht : t.tenantScoped = false) : (discard (AccountM.update t p set ht) : AccountM Unit).Firm :=
  .bind (.ask _ _) fun _ => .pure _

theorem refresh_firm (t : Table) (row : t.Row) (ht : t.tenantScoped = false) :
    (AccountM.refresh t row ht).Firm := by
  have found : (lookup t (fun r => t.id r == t.id row) ht).Firm := .ask (.select _ _) ⟨trivial, ht⟩
  exact .bind (.lift _ found) fun _ => .bind (.oneOrNone _) fun _ => .orRaise _ _

theorem requireAdmin_firm {endpoint : TenantM m.householdId Response} (firm : endpoint.Firm) :
    (requireAdmin m endpoint).Firm := by
  by_cases admin : m.role = .admin
  · rw [requireAdmin_of_admin admin]
    exact firm
  · rw [requireAdmin_of_member admin]
    exact .throw _

theorem requireAdmin_commitsLast {endpoint : TenantM m.householdId Response}
    (last : endpoint.CommitsLast) : (requireAdmin m endpoint).CommitsLast := by
  by_cases admin : m.role = .admin
  · rw [requireAdmin_of_admin admin]
    exact last
  · rw [requireAdmin_of_member admin]
    exact .of_all trivial

/-- A fault is not swallowed on the way to a link. -/
theorem generate_firm : (generateGuestToken env householdId m).Firm := by
  have created : ∀ token, (HouseholdRepo.createGuestToken env householdId m.userId token).Firm :=
    fun token => .bind (.ask _ _) fun _ => .bind (updates_firm _ _ _ _) fun _ =>
      refresh_firm _ _ _
  exact .bind (checkHere_firm _) fun _ => .bind (updates_firm _ _ _ _) fun _ =>
    .bind (.liftExcept _) fun token => .bind (created token) fun _ =>
      .bind (.ask .commit trivial) fun _ => .pure _

/-- The link is committed last, so that a failure leaves nothing behind. -/
theorem generate_commitsLast : (generateGuestToken env householdId m).CommitsLast := by
  have created : ∀ token, (HouseholdRepo.createGuestToken env householdId m.userId token).prog.All
      (· ≠ .commit) := fun token =>
    all_bind (all_ask nofun) fun _ => all_bind (all_discard (all_ask nofun)) fun _ =>
      (refresh_reads _ _ _).mono fun s reads committing => by rw [committing] at reads; exact reads
  exact .bind (checkHere_uncommitting _) fun _ => .bind (all_discard (all_ask nofun)) fun _ =>
    .bind (all_liftExcept _) fun token => .bind (created token) fun _ => .commit trivial _

theorem revoke_firm : (revokeGuestToken env householdId m).Firm :=
  .bind (checkHere_firm _) fun _ =>
    .bind (.bind (updates_firm _ _ _ _) fun _ => updates_firm _ _ _ _) fun _ =>
      .bind (.ask .commit trivial) fun _ => .pure _

/-- So is its revocation. -/
theorem revoke_commitsLast : (revokeGuestToken env householdId m).CommitsLast :=
  .bind (checkHere_uncommitting _) fun _ =>
    .bind (all_bind (all_discard (all_ask nofun)) fun _ => all_discard (all_ask nofun)) fun _ =>
      .commit trivial _

theorem hardDelete_firm : (HouseholdRepo.hardDelete env householdId).Firm := by
  have members : (HouseholdRepo.getMembers householdId).Firm := .ask (.select _ _) ⟨trivial, rfl⟩
  have gone : ∀ p hp, (deleteHouseholds (h := householdId) p hp).Firm := fun p hp =>
    .ask (.deleteCascade .households p) (.inr ⟨p, hp, rfl⟩)
  refine .bind (.lift _ members) fun _ => .bind (gone _ _) fun deleted => ?_
  by_cases none : deleted = []
  · simp only [none, if_true]
    exact .bind (.throw _) fun _ => .lift _ (repair_firm _)
  · simp only [none, if_false]
    exact .lift _ (repair_firm _)

theorem hardDelete_uncommitting :
    (HouseholdRepo.hardDelete env householdId).prog.All (· ≠ .commit) := by
  refine all_bind (lookup_uncommitting _) fun _ => all_bind (all_ask nofun) fun deleted => ?_
  by_cases none : deleted = []
  · simp only [none, if_true]
    trivial
  · simp only [none, if_false]
    exact repair_uncommitting _

theorem delete_firm {confirmName : String} :
    (deleteHousehold env householdId confirmName m).Firm := by
  have found : (HouseholdRepo.getById householdId).Firm := .bind (.ask _ _) fun _ => .oneOrNone _
  refine .bind (checkHere_firm _) fun _ => .bind (.lift _ found) fun _ =>
    .bind (.orRaise _ _) fun household => ?_
  have removed : CodeM.Firm (do
      HouseholdRepo.hardDelete env m.householdId
      (AccountM.commit : DissolveM m.householdId Unit)
      return (⟨204, .empty⟩ : Response)) :=
    .bind hardDelete_firm fun _ => .bind (.ask .commit (.inl trivial)) fun _ => .pure _
  by_cases named : confirmName = household.name
  · simp only [named, ne_eq, not_true_eq_false, if_false]
    exact removed
  · simp only [named, ne_eq, not_false_eq_true, if_true]
    exact .bind (.throw _) fun _ => removed

/-- And the removal of the household. -/
theorem delete_commitsLast {confirmName : String} :
    (deleteHousehold env householdId confirmName m).CommitsLast := by
  refine .bind (checkHere_uncommitting _) fun _ => .bind (lookup_uncommitting _) fun _ =>
    .bind (all_orRaise _ _) fun household => ?_
  have removed : CodeM.CommitsLast (do
      HouseholdRepo.hardDelete env m.householdId
      (AccountM.commit : DissolveM m.householdId Unit)
      return (⟨204, .empty⟩ : Response)) :=
    .bind hardDelete_uncommitting fun _ => .commit (.inl trivial) _
  by_cases named : confirmName = household.name
  · simp only [named, ne_eq, not_true_eq_false, if_false]
    exact removed
  · simp only [named, ne_eq, not_false_eq_true, if_true]
    exact .of_all trivial

end Requests

/-! ### One request -/

section Step

variable {sha : String → String} {links : Links} {db : State} {h : Uuid}

/-- Revoking the tokens of a household leaves it none that is open. -/
theorem revokedFor_self (env : Env) (h : Uuid) (tokens : List GuestToken) :
    (revokedFor env h tokens).filter (isOpenFor h) = [] := by
  refine List.filter_eq_nil_iff.mpr fun g hg isOpen => ?_
  obtain ⟨g', _, rfl⟩ := List.mem_map.mp hg
  by_cases was : isOpenFor h g' = true
  · rw [if_pos was] at isOpen
    cases (isOpenFor_iff.mp isOpen).2
  · rw [if_neg was] at isOpen
    exact was isOpen

/-- It leaves those of the others as they are. -/
theorem revokedFor_other (env : Env) {h k : Uuid} (other : k ≠ h) (tokens : List GuestToken) :
    (revokedFor env h tokens).filter (isOpenFor k) = tokens.filter (isOpenFor k) := by
  induction tokens with
  | nil => rfl
  | cons g tokens ih =>
      have unroll : revokedFor env h (g :: tokens) =
          (if isOpenFor h g then { g with revokedAt := some env.now } else g) ::
            revokedFor env h tokens := rfl
      rw [unroll]
      by_cases was : isOpenFor h g = true
      · have household := (isOpenFor_iff.mp was).1
        have closed : ∀ g' : GuestToken, g'.householdId = h → ¬ isOpenFor k g' = true :=
          fun g' same isOpen => other ((isOpenFor_iff.mp isOpen).1.symm.trans same)
        rw [if_pos was,
          List.filter_cons_of_neg (closed { g with revokedAt := some env.now } household), ih,
          List.filter_cons_of_neg (closed g household)]
      · rw [if_neg was, List.filter_cons, List.filter_cons, ih]

theorem flaggedFor_keyed {accessible : Bool} {households : List Household}
    (keyed : Table.households.Keyed households) :
    Table.households.Keyed (flaggedFor h accessible households) := by
  have ids : (flaggedFor h accessible households).map Household.id =
      households.map Household.id := by
    unfold flaggedFor
    rw [List.map_map]
    refine List.map_congr_left fun r _ => ?_
    simp only [Function.comp_apply]
    split <;> rfl
  show ((flaggedFor h accessible households).map Household.id).Nodup
  rw [ids]
  exact keyed

/-- Setting the flag changes the one household and nothing else of it. -/
theorem mem_flaggedFor {accessible : Bool} {households : List Household} {r : Household}
    (hr : r ∈ flaggedFor h accessible households) : ∃ r' ∈ households, r'.id = r.id ∧
      r.isGuestAccessible = if r.id = h then accessible else r'.isGuestAccessible := by
  obtain ⟨r', hr', rfl⟩ := List.mem_map.mp hr
  refine ⟨r', hr', ?_⟩
  by_cases same : r'.id = h
  · rw [if_pos (beq_iff_eq.mpr same)]
    exact ⟨rfl, (if_pos same).symm⟩
  · rw [if_neg (fun eq => same (beq_iff_eq.mp eq))]
    exact ⟨rfl, (if_neg same).symm⟩

/-- The household is there afterwards. -/
theorem flaggedFor_stored {accessible : Bool} {households : List Household} {k : Uuid}
    (stored : ∃ r : Household, r ∈ households ∧ HouseholdRepo.isLive k r = true) :
    ∃ r : Household, r ∈ flaggedFor h accessible households ∧ HouseholdRepo.isLive k r = true := by
  obtain ⟨r, hr, live⟩ := stored
  refine ⟨_, List.mem_map_of_mem hr, ?_⟩
  split <;> exact live

/-- A new link takes the place of the one before: that one is revoked, and the new hash
is fresh. -/
theorem Tracks.generated {raw : String} {env : Env} {g : GuestToken} {db' : State}
    (tracks : Tracks sha links db) (live : HouseholdIn db h)
    (household : g.householdId = h) (hash : g.tokenHash = sha raw) (expires : g.expiresAt = none)
    (unrevoked : g.revokedAt = none)
    (tokens : db' .guestTokens = revokedFor env h (db .guestTokens) ++ [g])
    (households : db' .households = flaggedFor h true (db .households))
    (fresh : ∀ g' : GuestToken, g' ∈ db .guestTokens → g'.tokenHash ≠ g.tokenHash) :
    Tracks sha (Function.update links h (some raw)) db' := by
  have own : (db' .guestTokens).filter (isOpenFor h) = [g] := by
    rw [tokens, List.filter_append, revokedFor_self]
    exact List.filter_cons_of_pos (isOpenFor_iff.mpr ⟨household, unrevoked⟩)
  have others : ∀ k, k ≠ h →
      (db' .guestTokens).filter (isOpenFor k) = (db .guestTokens).filter (isOpenFor k) := by
    intro k other
    have closed : ¬ isOpenFor k g = true := fun isOpen =>
      other ((isOpenFor_iff.mp isOpen).1.symm.trans household)
    rw [tokens, List.filter_append, revokedFor_other env other, List.filter_cons_of_neg closed]
    exact List.append_nil _
  -- the new token differs from the one of any other household
  have unique : ∀ k, k ≠ h → links k ≠ some raw := by
    intro k other same
    obtain ⟨g', only, hash', _⟩ := tracks.opened k raw same
    have stored : g' ∈ (db .guestTokens).filter (isOpenFor k) := only ▸ List.mem_cons_self
    exact fresh g' (List.mem_filter.mp stored).1 (hash'.trans hash.symm)
  -- what is tracked of each household: the one of the link, and the others
  constructor
  · rw [households]
    exact flaggedFor_keyed tracks.keyed
  · intro k none
    by_cases same : k = h
    · rw [same, Function.update_self] at none
      cases none
    · rw [Function.update_of_ne same] at none
      rw [others k same]
      exact tracks.closed k none
  · intro k raw' some
    by_cases same : k = h
    · subst same
      rw [Function.update_self] at some
      cases some
      exact ⟨g, own, hash, expires⟩
    · rw [Function.update_of_ne same] at some
      rw [others k same]
      exact tracks.opened k raw' some
  · intro k l raw' hk hl
    by_cases isK : k = h
    · by_cases isL : l = h
      · rw [isK, isL]
      · subst isK
        rw [Function.update_self] at hk
        rw [Function.update_of_ne isL] at hl
        cases hk
        exact absurd hl (unique l isL)
    · rw [Function.update_of_ne isK] at hk
      by_cases isL : l = h
      · subst isL
        rw [Function.update_self] at hl
        cases hl
        exact absurd hk (unique k isK)
      · rw [Function.update_of_ne isL] at hl
        exact tracks.distinct k l raw' hk hl
  · intro r hr
    rw [households] at hr
    obtain ⟨r', hr', same, flag⟩ := mem_flaggedFor hr
    rw [flag]
    by_cases isH : r.id = h
    · rw [if_pos isH, isH, Function.update_self]
      rfl
    · rw [if_neg isH, Function.update_of_ne isH, tracks.flags r' hr', same]
  · intro k raw' some
    rw [households]
    by_cases same : k = h
    · subst same
      exact flaggedFor_stored live
    · rw [Function.update_of_ne same] at some
      exact flaggedFor_stored (tracks.stored k raw' some)

/-- A household without links any more. -/
theorem Tracks.closes {db' : State} (tracks : Tracks sha links db)
    (keyed : Table.households.Keyed (db' .households))
    (own : (db' .guestTokens).filter (isOpenFor h) = [])
    (others : ∀ k, k ≠ h →
      (db' .guestTokens).filter (isOpenFor k) = (db .guestTokens).filter (isOpenFor k))
    (flags : ∀ r : Household, r ∈ db' .households → r.isGuestAccessible =
      if r.id = h then false else (links r.id).isSome)
    (stored : ∀ k, k ≠ h → (∃ r : Household, r ∈ db .households ∧
      HouseholdRepo.isLive k r = true) → ∃ r : Household, r ∈ db' .households ∧
      HouseholdRepo.isLive k r = true) :
    Tracks sha (Function.update links h none) db' := by
  have still : ∀ {k raw}, Function.update links h none k = some raw → k ≠ h ∧ links k = some raw := by
    intro k raw some
    by_cases same : k = h
    · rw [same, Function.update_self] at some
      cases some
    · rw [Function.update_of_ne same] at some
      exact ⟨same, some⟩
  constructor
  · exact keyed
  · intro k none
    by_cases same : k = h
    · rw [same]
      exact own
    · rw [Function.update_of_ne same] at none
      rw [others k same]
      exact tracks.closed k none
  · intro k raw some
    obtain ⟨other, some⟩ := still some
    rw [others k other]
    exact tracks.opened k raw some
  · intro k l raw hk hl
    exact tracks.distinct k l raw (still hk).2 (still hl).2
  · intro r hr
    rw [flags r hr]
    by_cases same : r.id = h
    · rw [if_pos same, same, Function.update_self]
      rfl
    · rw [if_neg same, Function.update_of_ne same]
  · intro k raw some
    obtain ⟨other, some⟩ := still some
    exact stored k other (tracks.stored k raw some)

/-- After a revocation no token of the household is open. -/
theorem Tracks.revoked {env : Env} {db' : State} (tracks : Tracks sha links db)
    (tokens : db' .guestTokens = revokedFor env h (db .guestTokens))
    (households : db' .households = flaggedFor h false (db .households)) :
    Tracks sha (Function.update links h none) db' := by
  refine tracks.closes ?_ ?_ ?_ ?_ ?_
  · rw [households]
    exact flaggedFor_keyed tracks.keyed
  · rw [tokens]
    exact revokedFor_self env h _
  · intro k other
    rw [tokens]
    exact revokedFor_other env other _
  · intro r hr
    rw [households] at hr
    obtain ⟨r', hr', same, flag⟩ := mem_flaggedFor hr
    rw [flag, tracks.flags r' hr', same]
  · intro k _ there
    rw [households]
    exact flaggedFor_stored there

/-- After a removal there is none of them. -/
theorem Tracks.deleted {db' : State} (tracks : Tracks sha links db)
    (there : ∃ r : Household, r ∈ db .households ∧ HouseholdRepo.isLive h r = true)
    (households : db' .households =
      (db .households).filter (fun r => !HouseholdRepo.isLive h r))
    (tokens : db' .guestTokens =
      (db .guestTokens).filter fun g : GuestToken => g.householdId ≠ h) :
    Tracks sha (Function.update links h none) db' := by
  refine tracks.closes ?_ ?_ ?_ ?_ ?_
  · rw [households]
    exact List.Nodup.sublist (List.filter_sublist.map _) tracks.keyed
  · rw [tokens]
    refine List.filter_eq_nil_iff.mpr fun g hg isOpen => ?_
    exact of_decide_eq_true (List.mem_filter.mp hg).2 (isOpenFor_iff.mp isOpen).1
  · intro k other
    rw [tokens, List.filter_filter]
    refine List.filter_congr fun g _ => ?_
    rw [Bool.and_eq_left_iff_imp]
    intro isOpen
    exact decide_eq_true fun same => other ((isOpenFor_iff.mp isOpen).1.symm.trans same)
  · intro r hr
    rw [households] at hr
    obtain ⟨was, gone⟩ := List.mem_filter.mp hr
    have other : r.id ≠ h := by
      -- the ids are unique, and the row with this one is gone
      rintro rfl
      obtain ⟨r', hr', live⟩ := there
      have same := List.inj_on_of_nodup_map tracks.keyed hr' was (HouseholdRepo.id_of_isLive live)
      rw [← same] at gone live
      rw [live] at gone
      cases gone
    rw [if_neg other]
    exact tracks.flags r was
  · rintro k other ⟨r, hr, live⟩
    rw [households]
    refine ⟨r, List.mem_filter.mpr ⟨hr, ?_⟩, live⟩
    rw [Bool.not_eq_true', Bool.eq_false_iff]
    intro isH
    exact other ((HouseholdRepo.id_of_isLive live).symm.trans (HouseholdRepo.id_of_isLive isH))

theorem LinkRequest.firm (request : LinkRequest) (env : Env) (archive : List String)
    (m : HouseholdMember) : (request.request.endpoint env archive m).Firm := by
  cases request with
  | generate householdId =>
      exact requireAdmin_firm (.lift _ (.lift _ generate_firm))
  | revoke householdId =>
      exact requireAdmin_firm (.lift _ (.lift _ revoke_firm))
  | delete householdId confirmName =>
      exact requireAdmin_firm (.lift _ delete_firm)

theorem LinkRequest.commitsLast (request : LinkRequest) (env : Env) (archive : List String)
    (m : HouseholdMember) : (request.request.endpoint env archive m).CommitsLast := by
  cases request with
  | generate householdId => exact requireAdmin_commitsLast generate_commitsLast
  | revoke householdId => exact requireAdmin_commitsLast revoke_commitsLast
  | delete householdId confirmName => exact requireAdmin_commitsLast delete_commitsLast

/-- A request that is answered otherwise says nothing of the links. -/
theorem Links.after_error (links : Links) (request : LinkRequest) (e : Exc) :
    links.after request (respond (.error e)) = links := by
  have detail : ∀ status text, links.after request ⟨status, .detail text⟩ = links := by
    intro status text
    cases request <;> simp [Links.after]
  cases e with
  | http status text =>
      by_cases hidden : status = 403
      · subst hidden
        cases request <;> rfl
      · have shown : respond (.error (.http status text)) = ⟨status, .detail text⟩ := by
          unfold respond
          split
          · rename_i same
            cases same
          · rename_i same
            cases same
            exact absurd rfl hidden
          · rename_i same
            cases same
            rfl
          · rename_i other same
            cases same
            exact absurd rfl (other _ _)
        rw [shown, detail]
  | _ => cases request <;> rfl

/-- One request keeps rows and links together. -/
theorem Tracks.serve (tracks : Tracks sha links db) {x : LinkCall}
    (hashes : x.call.env.sha256Hex = sha) :
    Tracks sha (links.after x.request (x.serve db).1) (x.serve db).2 := by
  cases served : CodeM.run (asMember x.call.env x.caller fun m =>
      x.request.request.endpoint x.call.env x.call.archive m) (x.call.start db) with
  | mk result w =>
      have answer : x.serve db = (respond result, w.db) := Call.serve_eq served
      rw [answer]
      cases result with
      | error e =>
          have kept := asMember_error (fun m => x.request.commitsLast _ _ m) served
          rw [Links.after_error]
          exact tracks.congr (kept .guestTokens nofun) (kept .households nofun)
      | ok response =>
          obtain ⟨m, w₁, live, entered, answered⟩ :=
            asMember_eq_ok (fun m => x.request.firm _ _ m) served
          have tokens : w₁.view .guestTokens = db .guestTokens := (entered.rows .guestTokens nofun).2
          have households : w₁.view .households = db .households :=
            (entered.rows .households nofun).2
          obtain ⟨call, caller, request⟩ := x
          have calm : w.db = w.calm.db := rfl
          cases request with
          | generate householdId =>
              obtain ⟨g, t, here, rfl, household, hash, expires, unrevoked, now, flags, fresh⟩ :=
                generate_eq_ok live (requireAdmin_eq_ok answered)
              subst here
              rw [tokens] at now fresh
              rw [households] at flags
              rw [hashes] at hash
              exact tracks.generated entered.household household hash expires unrevoked now flags fresh
          | revoke householdId =>
              obtain ⟨_, rfl, now, flags⟩ := revoke_eq_ok live (requireAdmin_eq_ok answered)
              rw [tokens] at now
              rw [households] at flags
              exact tracks.revoked now flags
          | delete householdId confirmName =>
              obtain ⟨r, hr, isLive, rfl, flags, now⟩ :=
                delete_eq_ok live (requireAdmin_eq_ok answered)
              rw [tokens] at now
              rw [households] at flags hr
              exact tracks.deleted ⟨r, hr, isLive⟩ flags now

/-- A run of requests is tracked by the links that it answers with. -/
theorem Tracks.serveLinks {calls : List LinkCall} {links : Links} {db : State}
    (tracks : Tracks sha links db) (hashes : ∀ x ∈ calls, x.call.env.sha256Hex = sha) :
    Tracks sha (serveLinks calls links db).1 (serveLinks calls links db).2 := by
  induction calls generalizing links db with
  | nil => exact tracks
  | cons x rest ih =>
      obtain ⟨head, tail⟩ := List.forall_mem_cons.mp hashes
      exact ih (tracks.serve head) tail

end Step

/-! ### Requests by an admin -/

/-- The household of the path. -/
def LinkRequest.householdId : LinkRequest → Uuid
  | .generate householdId | .revoke householdId | .delete householdId _ => householdId

/-- The answer to a request that goes through. -/
def LinkRequest.answer (env : Env) : LinkRequest → Response
  | .generate _ => ⟨201, .guestToken env.rawToken env.now⟩
  | .revoke _ | .delete _ _ => ⟨204, .empty⟩

/-- What a request needs besides an admin. To make a link: a key to encrypt the token
with, and that the token and the id of its row are new. To delete the household: its
name, and that the database lets it go. To revoke: nothing. -/
def LinkRequest.Possible (c : Call) (db : State) : LinkRequest → Prop
  | .generate _ => (c.env.encryptToken c.env.rawToken).isSome = true ∧
      ∀ g : GuestToken, g ∈ db .guestTokens →
        g.tokenHash ≠ c.env.sha256Hex c.env.rawToken ∧ ∀ n, g.id ≠ c.supply n
  | .revoke _ => True
  | .delete householdId confirmName => MayDelete (c.start db) householdId confirmName

/-- A request of an admin of the household, none of whose statements fails for a reason
outside the database, and that nothing else stands in the way of. -/
structure LinkCall.ByAdmin (x : LinkCall) (db : State) : Prop where
  calm : x.call.faults = []
  admin : ∃ m, x.call.resolved db (callerMembership x.call.env x.caller) = some m ∧
    m.role = .admin ∧ m.householdId = x.request.householdId
  possible : x.request.Possible x.call db

/-- A statement that keeps the users under their ids. -/
def KeepsUsers : Statement → Prop
  | .update .users _ set => ∀ u u' : User, set u = .ok u' → u'.id = u.id
  | s => s.Leaves (T := Table) (· = .users)

/-- No statement of a request removes a user. -/
theorem usual_keepsUsers : Usual KeepsUsers where
  read s h := by cases s <;> first | exact h.elim | trivial
  commit := trivial
  setConfig _ := trivial
  users _ _ kept := kept
  members _ := show Table.householdMembers ≠ .users from nofun

/-- The user is there, committed and as the transaction sees it. -/
def HasUser (userId : Uuid) (w : World Table) : Prop :=
  (∃ u : User, u ∈ w.db .users ∧ u.id = userId) ∧ ∃ u : User, u ∈ w.view .users ∧ u.id = userId

/-- So a user that is there stays. -/
theorem HasUser.exec {userId : Uuid} {w : World Table} (has : HasUser userId w) {s : Statement}
    (keeps : KeepsUsers s) : HasUser userId (World.exec s w).2 := by
  by_cases leaves : s.Leaves (T := Table) (· = .users)
  · cases World.exec_unwritten leaves w with
    | stays db view =>
        rw [HasUser, db _ rfl, view _ rfl]
        exact has
    | committed db view =>
        rw [HasUser, db _ rfl, view _ rfl]
        exact ⟨has.2, has.2⟩
    | dropped db view =>
        rw [HasUser, db _ rfl, view _ rfl]
        exact ⟨has.1, has.1⟩
  · -- an update of users, who keep their ids
    obtain ⟨p, set, rfl, ids⟩ : ∃ p set, s = .update .users p set ∧
        ∀ u u' : User, set u = .ok u' → u'.id = u.id := by
      cases s with
      | update t p set =>
          cases t with
          | users => exact ⟨p, set, rfl, keeps⟩
          | _ => exact absurd keeps leaves
      | _ => exact absurd keeps leaves
    have db := World.exec_db (s := (.update .users p set : Statement)) nofun w
    refine ⟨db ▸ has.1, ?_⟩
    obtain ⟨u, hu, same⟩ := has.2
    cases World.exec_leaves (s := (.update .users p set : Statement)) nofun ids (w := w) with
    | kept pending =>
        refine ⟨u, ?_, same⟩
        rw [World.view, db, pending]
        exact hu
    | dropped empty =>
        obtain ⟨u, hu, same⟩ := has.1
        refine ⟨u, ?_, same⟩
        rw [World.view, db, empty]
        exact hu
    | wrote t change _ wrote _ added =>
        cases wrote with
        | update valid =>
            have view : (World.exec (.update .users p set) w).2.view .users =
                (Change.upd (rewritten set ((w.visible .users).filter p))).apply (w.view .users) := by
              rw [← World.pend_view_self, World.view, World.view, db, added]
              rfl
            rw [view, World.visible_of_unsecured rfl, rewritten]
            have rows := Change.apply_upd_filter p (fun u => (set u).toOption.getD u) (w.view .users)
            refine ⟨if p u = true then (set u).toOption.getD u else u, ?_, ?_⟩
            · rw [rows]
              exact List.mem_map_of_mem hu
            · rw [← same]
              split
              · cases new : set u with
                | error e => rfl
                | ok u' => exact ids u u' new
              · rfl

section ByAdmin

variable {c : Call} {db : State} {caller : Option Uuid} {m : HouseholdMember} {w : World Table}

/-- The user whose membership was found is there when the endpoint is entered. -/
theorem stored_user (calm : c.faults = [])
    (found : CodeM.run (callerMembership c.env caller) (c.start db) = (.ok m, w))
    (known : caller = some m.userId) : w.stored (.users, m.userId) = true := by
  have live : (c.start db).Live := ⟨rfl, calm⟩
  have start : HasUser m.userId (c.start db) := by
    obtain ⟨user, w₁, looked, _⟩ := CodeM.run_bind_eq_ok found
    have looked : CodeM.run (currentUser caller) (c.start db) = (.ok user, w₁) := looked
    obtain ⟨userId, w₂, given, rest⟩ := CodeM.run_bind_eq_ok looked
    obtain ⟨same, rfl⟩ := CodeM.run_orRaise_eq_ok given
    cases known.symm.trans same
    obtain ⟨o, w₃, rows, there⟩ := CodeM.run_bind_eq_ok rest
    obtain ⟨rfl, _⟩ := CodeM.run_orRaise_eq_ok there
    obtain ⟨listed, w₄, selected, one⟩ := CodeM.run_bind_eq_ok rows
    cases (run_lookup live .users (fun u : User => u.id == m.userId) rfl).symm.trans selected
    obtain ⟨only, _⟩ := CodeM.run_oneOrNone_eq_ok one
    have here : user ∈ ((c.start db).view .users).filter fun u : User => u.id == m.userId :=
      only ▸ List.mem_singleton_self user
    obtain ⟨mem, same⟩ := List.mem_filter.mp here
    exact ⟨⟨user, mem, beq_iff_eq.mp same⟩, user, mem, beq_iff_eq.mp same⟩
  have stays := (all_callerMembership usual_keepsUsers c.env caller).run_invariant World.exec
    (I := HasUser m.userId) (fun _ _ keeps has => has.exec keeps) start
  have ended : (callerMembership c.env caller).prog.run World.exec (c.start db) = (.ok m, w) := found
  rw [ended] at stays
  obtain ⟨u, hu, same⟩ := stays.2
  exact List.any_eq_true.mpr ⟨u, hu, decide_eq_true same⟩

/-- The ids that rows are given come from the call. -/
theorem supply_of_found
    (found : CodeM.run (callerMembership c.env caller) (c.start db) = (.ok m, w)) :
    w.session.supply = c.supply := by
  have stays := Prog.run_invariant World.exec
    (I := fun v : World Table => v.session.supply = c.supply)
    (fun s v same => (World.supply_exec s v).trans same)
    (callerMembership c.env caller).prog (w := c.start db) rfl
  have ended : (callerMembership c.env caller).prog.run World.exec (c.start db) = (.ok m, w) := found
  rw [ended] at stays
  exact stays

/-- A request of an admin that nothing stands in the way of is answered so. -/
theorem LinkCall.ByAdmin.answered {x : LinkCall} (byAdmin : x.ByAdmin db)
    (keyed : Table.households.Keyed (db .households)) :
    (x.serve db).1 = x.request.answer x.call.env := by
  obtain ⟨calm, ⟨m, resolved, admin, here⟩, possible⟩ := byAdmin
  obtain ⟨w, ⟨w₀, found, rfl⟩, live, entered, asMember⟩ := run_asMember calm resolved
  obtain ⟨⟨_, known⟩, _⟩ := resolved_member resolved
  have rows (t : Table) (ht : t ≠ .users) : (w₀.withContext m.householdId).view t = db t :=
    (entered.rows t ht).2
  have endpoint : ∃ w', CodeM.run (x.request.request.endpoint x.call.env x.call.archive m)
      (w₀.withContext m.householdId) = (.ok (x.request.answer x.call.env), w') := by
    cases given : x.request with
    | generate householdId =>
        rw [given] at here possible
        have user := stored_user calm found known
        obtain ⟨w', done⟩ := run_generate live here possible.1 (here ▸ entered.stored) user
          fun g hg => by
            rw [rows .guestTokens nofun] at hg
            refine ⟨(possible.2 g hg).1, fun same => (possible.2 g hg).2 w₀.session.drawn ?_⟩
            rw [← supply_of_found found]
            exact same
        refine ⟨w', ?_⟩
        refine (congrArg (fun p => CodeM.run p _) (requireAdmin_of_admin admin _)).trans ?_
        exact done
    | revoke householdId =>
        rw [given] at here
        obtain ⟨w', done⟩ := run_revoke x.call.env live here
        refine ⟨w', ?_⟩
        refine (congrArg (fun p => CodeM.run p _) (requireAdmin_of_admin admin _)).trans ?_
        exact done
    | delete householdId confirmName =>
        rw [given] at here possible
        obtain ⟨r, hr, isLive, named, goes⟩ := possible
        have may : MayDelete (w₀.withContext m.householdId) householdId confirmName := by
          refine ⟨r, ?_, isLive, named, Deletable.congr (w := x.call.start db) rows goes⟩
          rw [rows .households nofun]
          exact hr
        obtain ⟨w', done⟩ := run_deleted x.call.env live
          (rows .households nofun ▸ keyed) here may
        refine ⟨w', ?_⟩
        refine (congrArg (fun p => CodeM.run p _) (requireAdmin_of_admin admin _)).trans ?_
        exact done
  obtain ⟨w', done⟩ := endpoint
  have served := asMember (fun m => x.request.request.endpoint x.call.env x.call.archive m) _ done
  have answer : x.serve db = (respond (.ok (x.request.answer x.call.env)), w'.db) :=
    Call.serve_eq served
  rw [answer]
  cases x.request <;> rfl

end ByAdmin

/-! ### Where links are checked -/

/-- The list of shots takes the raw token for a link to the household. -/
def ListAccepts (c : Call) (db : State) (raw : String) (h : Uuid) : Prop :=
  ∃ g w, CodeM.run (guestToken c.env raw) (c.start db) = (.ok g, w) ∧ g.householdId = h

/-- The guest view of the household takes the raw token. -/
def ViewAccepts (c : Call) (db : State) (raw : String) (h : Uuid) : Prop :=
  ∃ household w, CodeM.run (guestHousehold c.env h raw) (c.start db) = (.ok household, w)

section Acceptance

variable {sha : String → String} {links : Links} {db : State} {h : Uuid} {raw : String} {c : Call}

/-- A token that is not revoked is the one of its household's link. -/
theorem Tracks.linked (tracks : Tracks sha links db) {g : GuestToken} (hg : g ∈ db .guestTokens)
    (unrevoked : g.revokedAt = none) : ∃ raw, links g.householdId = some raw ∧
      g.tokenHash = sha raw ∧ g.expiresAt = none := by
  have isOpen : g ∈ (db .guestTokens).filter (isOpenFor g.householdId) :=
    List.mem_filter.mpr ⟨hg, isOpenFor_iff.mpr ⟨rfl, unrevoked⟩⟩
  cases link : links g.householdId with
  | none =>
      rw [tracks.closed _ link] at isOpen
      cases isOpen
  | some raw =>
      obtain ⟨g', only, hash, expires⟩ := tracks.opened _ raw link
      rw [only] at isOpen
      rw [List.mem_singleton.mp isOpen]
      exact ⟨raw, rfl, hash, expires⟩

/-- Of the tokens that are not revoked, the raw token finds that of its link only. -/
theorem Tracks.found (tracks : Tracks sha links db) (injective : Function.Injective sha)
    (link : links h = some raw) : ∃ g : GuestToken, g.householdId = h ∧ g.expiresAt = none ∧
      (db .guestTokens).filter (fun g : GuestToken => g.tokenHash == sha raw &&
        g.revokedAt.isNone) = [g] := by
  obtain ⟨g, only, hash, expires⟩ := tracks.opened h raw link
  have mem : g ∈ (db .guestTokens).filter (isOpenFor h) := only ▸ List.mem_cons_self
  refine ⟨g, (isOpenFor_iff.mp (List.mem_filter.mp mem).2).1, expires, ?_⟩
  rw [← only]
  refine List.filter_congr fun g' hg' => ?_
  rw [Bool.eq_iff_iff, Bool.and_eq_true, beq_iff_eq, Option.isNone_iff_eq_none, isOpenFor_iff]
  constructor
  · rintro ⟨same, unrevoked⟩
    obtain ⟨raw', link', hash', _⟩ := tracks.linked hg' unrevoked
    rw [injective (hash'.symm.trans same)] at link'
    exact ⟨tracks.distinct _ _ raw link' link, unrevoked⟩
  · rintro ⟨household, unrevoked⟩
    obtain ⟨raw', link', hash', _⟩ := tracks.linked hg' unrevoked
    rw [household, link] at link'
    cases link'
    exact ⟨hash', unrevoked⟩

/-- Whatever finds a token found that of a link. -/
theorem Tracks.link_of_found (tracks : Tracks sha links db) (injective : Function.Injective sha)
    {g : GuestToken} (hg : g ∈ db .guestTokens) (hash : g.tokenHash = sha raw)
    (unrevoked : g.revokedAt = none) : links g.householdId = some raw := by
  obtain ⟨raw', link, hash', _⟩ := tracks.linked hg unrevoked
  rw [link, injective (hash'.symm.trans hash)]

/-- A guest link has no end. -/
theorem notExpired_of_none {env : Env} {g : GuestToken} (expires : g.expiresAt = none) :
    HouseholdRepo.notExpired env g = true := by
  unfold HouseholdRepo.notExpired
  rw [expires]

/-- The list of shots lets in the tracked link only. -/
theorem Tracks.list_iff (tracks : Tracks sha links db) (injective : Function.Injective sha)
    (hashes : c.env.sha256Hex = sha) (calm : c.faults = []) :
    ListAccepts c db raw h ↔ links h = some raw := by
  have live : (c.start db).Live := ⟨rfl, calm⟩
  subst hashes
  constructor
  · rintro ⟨g, w, returned, rfl⟩
    obtain ⟨_, only⟩ := guestToken_eq_ok live returned
    have mem : g ∈ ((c.start db).view .guestTokens).filter _ := only ▸ List.mem_cons_self
    obtain ⟨hg, passes⟩ := List.mem_filter.mp mem
    rw [Bool.and_eq_true, Bool.and_eq_true, beq_iff_eq, Option.isNone_iff_eq_none] at passes
    exact tracks.link_of_found injective hg passes.1.1 passes.1.2
  · intro link
    obtain ⟨g, household, expires, only⟩ := tracks.found injective link
    refine ⟨g, _, run_guestToken live ?_, household⟩
    refine Eq.trans ?_ only
    refine List.filter_congr fun g' hg' => ?_
    rw [Bool.and_eq_left_iff_imp, Bool.and_eq_true, Option.isNone_iff_eq_none]
    rintro ⟨_, unrevoked⟩
    obtain ⟨_, _, _, never⟩ := tracks.linked hg' unrevoked
    exact notExpired_of_none never

/-- The token that the guest view looks up, expired or not. -/
theorem run_includeExpired {w : World Table} (live : w.Live) (tokenHash : String) :
    (HouseholdRepo.getGuestTokenByHashIncludeExpired tokenHash).run w =
      (oneOrNone ((w.view .guestTokens).filter fun g : GuestToken =>
        g.tokenHash == tokenHash && g.revokedAt.isNone) : LookupM _).run w :=
  CodeM.run_bind_of (run_lookup live .guestTokens (fun g : GuestToken =>
    g.tokenHash == tokenHash && g.revokedAt.isNone) rfl) rfl

theorem guestHousehold_eq_ok {w w' : World Table} {env : Env} {household : Household}
    (live : w.Live) (returned : (guestHousehold env h raw).run w = (.ok household, w')) :
    ∃ g : GuestToken, g.householdId = h ∧ (w.view .guestTokens).filter (fun g : GuestToken =>
      g.tokenHash == env.sha256Hex raw && g.revokedAt.isNone) = [g] := by
  obtain ⟨o, w₁, found, rest₁⟩ := CodeM.run_bind_eq_ok returned
  obtain ⟨g, w₂, taken, rest₂⟩ := CodeM.run_bind_eq_ok rest₁
  obtain ⟨rfl, rfl⟩ := CodeM.run_orRaise_eq_ok taken
  rw [run_includeExpired live] at found
  obtain ⟨only, _⟩ := CodeM.run_oneOrNone_eq_ok found
  refine ⟨g, ?_, only⟩
  by_contra other
  simp only [ne_eq, other, not_false_eq_true, if_true] at rest₂
  cases rest₂

/-- So does the page of the household. -/
theorem Tracks.view_iff (tracks : Tracks sha links db) (injective : Function.Injective sha)
    (hashes : c.env.sha256Hex = sha) (calm : c.faults = []) :
    ViewAccepts c db raw h ↔ links h = some raw := by
  have live : (c.start db).Live := ⟨rfl, calm⟩
  subst hashes
  constructor
  · rintro ⟨household, w, returned⟩
    obtain ⟨g, rfl, only⟩ := guestHousehold_eq_ok live returned
    have mem : g ∈ ((c.start db).view .guestTokens).filter _ := only ▸ List.mem_cons_self
    obtain ⟨hg, passes⟩ := List.mem_filter.mp mem
    rw [Bool.and_eq_true, beq_iff_eq, Option.isNone_iff_eq_none] at passes
    exact tracks.link_of_found injective hg passes.1 passes.2
  · intro link
    obtain ⟨g, household, expires, only⟩ := tracks.found injective link
    obtain ⟨r, hr, there⟩ := tracks.stored h raw link
    have looked := run_includeExpired live (c.env.sha256Hex raw)
    have only' : ((c.start db).view .guestTokens).filter (fun g : GuestToken =>
        g.tokenHash == c.env.sha256Hex raw && g.revokedAt.isNone) = [g] := only
    rw [only'] at looked
    have stored := run_getById (h := h) (w := c.start db) tracks.keyed live
    cases row : ((c.start db).view .households).find? (HouseholdRepo.isLive h) with
    | none => exact absurd there (List.find?_eq_none.mp row r hr)
    | some r' =>
        rw [row] at stored
        refine ⟨r', c.start db, ?_⟩
        refine CodeM.run_bind_of looked (CodeM.run_bind_of rfl ?_)
        simp only [household, ne_eq, not_true_eq_false, if_false, notExpired_of_none expires,
          Bool.not_true, Bool.false_eq_true]
        exact CodeM.run_bind_of stored rfl

end Acceptance

/-! ### Over every run -/

/-- Who is let in, and what the rows say of it. -/
structure GuestAccess (sha : String → String) (links : Links) (db : State) : Prop where
  atMostOne : ∀ h, ((db .guestTokens).filter (isOpenFor h)).length ≤ 1
  flagged : ∀ r : Household, r ∈ db .households → (r.isGuestAccessible = true ↔
    ∃ g : GuestToken, g ∈ db .guestTokens ∧ isOpenFor r.id g = true)
  list : ∀ c : Call, c.env.sha256Hex = sha → c.faults = [] → ∀ raw h,
    ListAccepts c db raw h ↔ links h = some raw
  view : ∀ c : Call, c.env.sha256Hex = sha → c.faults = [] → ∀ raw h,
    ViewAccepts c db raw h ↔ links h = some raw
  alike : ∀ c : Call, c.env.sha256Hex = sha → c.faults = [] → ∀ raw h,
    ListAccepts c db raw h ↔ ViewAccepts c db raw h
  own : ∀ h k raw, links h = some raw → links k = some raw → h = k
  answered : ∀ x : LinkCall, x.ByAdmin db → (x.serve db).1 = x.request.answer x.call.env

/-- Put together, for every household. -/
theorem Tracks.access {sha : String → String} {links : Links} {db : State}
    (tracks : Tracks sha links db) (injective : Function.Injective sha) :
    GuestAccess sha links db where
  atMostOne h := by
    cases link : links h with
    | none =>
        rw [tracks.closed h link]
        exact Nat.zero_le 1
    | some raw =>
        obtain ⟨g, only, _⟩ := tracks.opened h raw link
        rw [only]
        exact Nat.le_refl 1
  flagged r hr := by
    rw [tracks.flags r hr]
    constructor
    · intro linked
      obtain ⟨raw, link⟩ := Option.isSome_iff_exists.mp linked
      obtain ⟨g, only, _⟩ := tracks.opened r.id raw link
      have mem : g ∈ (db .guestTokens).filter (isOpenFor r.id) := only ▸ List.mem_cons_self
      exact ⟨g, List.mem_filter.mp mem⟩
    · rintro ⟨g, hg, isOpen⟩
      obtain ⟨same, unrevoked⟩ := isOpenFor_iff.mp isOpen
      obtain ⟨raw, link, _⟩ := tracks.linked hg unrevoked
      rw [same] at link
      rw [link]
      rfl
  list c hashes calm raw h := tracks.list_iff injective hashes calm
  view c hashes calm raw h := tracks.view_iff injective hashes calm
  alike c hashes calm raw h :=
    (tracks.list_iff injective hashes calm).trans (tracks.view_iff injective hashes calm).symm
  own := tracks.distinct
  answered x byAdmin := byAdmin.answered tracks.keyed

/-- Before the first link is made. -/
structure Unlinked (db : State) : Prop where
  keyed : Table.households.Keyed (db .households)
  tokens : db .guestTokens = []
  flags : ∀ r : Household, r ∈ db .households → r.isGuestAccessible = false

/-- Without a token there is no link. -/
theorem Unlinked.tracks {sha : String → String} {db : State} (unlinked : Unlinked db) :
    Tracks sha (fun _ => none) db where
  keyed := unlinked.keyed
  closed h _ := by
    rw [unlinked.tokens]
    rfl
  opened h raw link := by cases link
  distinct h k raw link := by cases link
  flags r hr := unlinked.flags r hr
  stored h raw link := by cases link

/-- After any requests that make, revoke and delete, whoever sent them and however they
were answered, the links of the last answers are those that work, and they work the
same way at both places. An admin whose request nothing stands in the way of gets the
answer that counts: 201 with the token for making a link, also where there is one
already, and 204 for revoking, also where there is none, and for deleting. -/
theorem guest_links {sha : String → String} (injective : Function.Injective sha)
    {calls : List LinkCall} (hashes : ∀ x ∈ calls, x.call.env.sha256Hex = sha) {db : State}
    (unlinked : Unlinked db) :
    GuestAccess sha (serveLinks calls (fun _ => none) db).1
      (serveLinks calls (fun _ => none) db).2 :=
  (unlinked.tracks.serveLinks hashes).access injective

namespace Sample

/-- Ada makes a link for her household. -/
def linkCall : LinkCall := ⟨call, some ada.id, .generate household.id⟩

theorem unlinked : Unlinked db := ⟨keyed .households, rfl, by simp [db, household]⟩

/-- She makes another one, without revoking the first. -/
def anotherLink : LinkCall :=
  { linkCall with call := { call with env := { env with rawToken := "second" },
                                      supply := fun n => id (170 + n) } }

/-- The revocation of a link. -/
def revoking : LinkCall := { linkCall with request := .revoke household.id }

/-- The database after a link and another one in its place. -/
def linkedTwice : State := (serveLinks [linkCall, anotherLink] (fun _ => none) db).2

theorem revoking_byAdmin : revoking.ByAdmin linkedTwice where
  calm := rfl
  admin := ⟨membership, by decide +kernel, rfl, rfl⟩
  possible := trivial

/-- The second token works and the first does not; then Ada revokes, and none does. -/
theorem made_link : ListAccepts call linkedTwice "second" household.id ∧
    ¬ ListAccepts call linkedTwice "token" household.id ∧
      (revoking.serve linkedTwice).1 = ⟨204, .empty⟩ ∧
        ¬ ViewAccepts call (revoking.serve linkedTwice).2 "second" household.id := by
  have injective : Function.Injective env.sha256Hex := fun _ _ same => same
  have hashes : ∀ x ∈ [linkCall, anotherLink, revoking], x.call.env.sha256Hex = env.sha256Hex := by
    intro x hx
    simp only [List.mem_cons, List.not_mem_nil, or_false] at hx
    rcases hx with rfl | rfl | rfl <;> rfl
  have two : GuestAccess env.sha256Hex
      (serveLinks [linkCall, anotherLink] (fun _ => none) db).1 linkedTwice := guest_links injective
    (fun x hx => hashes x (List.mem_append_left [revoking] hx)) unlinked
  have none := guest_links injective hashes unlinked
  refine ⟨(two.list call rfl rfl "second" household.id).mpr (by decide +kernel), fun accepts => ?_,
    two.answered revoking revoking_byAdmin, fun accepts => ?_⟩
  · have link := (two.list call rfl rfl "token" household.id).mp accepts
    revert link
    decide +kernel
  · have link := (none.view call rfl rfl "second" household.id).mp accepts
    revert link
    decide +kernel

end Sample

end EspressoLogs
