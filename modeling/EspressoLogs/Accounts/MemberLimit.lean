import EspressoLogs.Accounts.Clients

/-!
The limit on the members of a household.

Accepting an invitation counts the members, and inserts one more in a later
statement. The count keeps a household within its limit where accepts do not
overlap: of two that come to insert a member, one commits before the other
counts (`OneByOne`). Then the members that an accept counted are all there are
until it commits, so what it found to be room still is.

A household that is being created has no members but its creator: until its
transaction commits, nobody else can refer to it.

* `checked_acceptInvite`: an accept that gets to its insert has found room.
* `Founded.spared`: no commit takes that room while it is about to insert.
* `members_limited`: both halves of the claim on the household, in every run.
-/

namespace EspressoLogs

open Lib Py

/-! ### The condition -/

/-- How many members a household has. -/
def membersOf (db : State) (householdId : Uuid) : Nat :=
  (db .householdMembers).countP (HouseholdRepo.ofHousehold householdId)

abbrev Requests := Pool Table Exc Response

/-- The members of a household, with those that open transactions inserted. -/
def crowd (p : Requests) (householdId : Uuid) : Nat :=
  ((p.db .householdMembers) ++ p.clients.flatMap fun c => c.writes.inserted .householdMembers).countP
    (HouseholdRepo.ofHousehold householdId)

/-- The requests that change who is a member of what, and nothing else. -/
def Request.JoinsOrLeaves : Request → Prop
  | householdCreate _ _ | invitationAccept _ _ | member _ (.memberRemove _) => True
  | _ => False

/-- The member that a client is about to insert. An accept gets there when its
count of the members was answered, and found room. -/
def newcomer (c : Client Table Exc Response) : Option HouseholdMember :=
  match c.prog with
  | .op (.insert .householdMembers make) _ => (make (c.session.supply c.session.drawn)).toOption
  | _ => none

/-- Accepts for one household do not overlap. An invited member is inserted while
no other transaction has inserted one of that household and not committed, and
members are committed while no other client is about to insert one there: whoever
is, counted before, and would not know of them. -/
def OneByOne (p : Requests) (c : Client Table Exc Response)
    (others : List (Client Table Exc Response)) : Statement → Prop
  | .insert .householdMembers make => ∀ m : HouseholdMember,
      make (World.nextId ⟨p.db, c.session⟩) = .ok m → m.invitedBy.isSome = true →
        ∀ o ∈ others, ∀ m' ∈ o.writes.inserted .householdMembers, m'.householdId ≠ m.householdId
  | .commit => ∀ m ∈ c.writes.inserted .householdMembers, ∀ o ∈ others,
      ∀ m' ∈ newcomer o, m'.householdId ≠ m.householdId
  | _ => True

/-! ### Who is inserted -/

/-- A member is inserted because of an invitation, where room was found, or into a
household that the transaction just inserted. -/
def Founded : Statement → World Table → Prop
  | .insert .householdMembers make, w => ∀ m : HouseholdMember, make w.nextId = .ok m →
      Writes.inserted w.session.pending .householdMembers = [] ∧
        (m.invitedBy.isSome = true ∧ membersOf w.db m.householdId < HouseholdRepo.memberLimit ∨
          ∃ r ∈ Writes.inserted w.session.pending .households, r.id = m.householdId)
  | _, _ => True

theorem founded_read (s : Statement) (w : World Table) (h : IsRead s) : Founded s w := by
  cases s <;> first | exact h.elim | trivial

theorem AdmitsNobody.founded (s : Statement) (w : World Table) (h : AdmitsNobody s) :
    Founded s w := by
  cases s with
  | insert t make => cases t <;> first | exact h.elim | trivial
  | _ => trivial

/-- A program that inserts no member. -/
theorem checked_of_admitsNobody {α : Type} {p : Prog Statement Resp Exc α}
    (within : p.All AdmitsNobody) (w : World Table) : p.Checked Founded w :=
  Prog.Checked.of_safe (Prog.Safe.of_all (J := fun _ => True) within
    (fun s _ h _ _ _ => h.founded s _) (fun _ _ _ _ _ _ _ => trivial) trivial)

section Founding

variable {α : Type} {w : World Table}

/-- The rows of a new household. -/
theorem safe_householdRows (env : Env) (name : String) (createdBy : Uuid)
    (start : Writes.inserted w.session.pending .householdMembers = []) :
    (HouseholdRepo.createHousehold env name createdBy).prog.Safe (fun _ _ => True) Founded
      (fun _ _ => True) (fun _ _ => True) w := by
  unfold HouseholdRepo.createHousehold
  refine safe_bind (safe_ask (s := .insert .households _) (fun _ _ => trivial) ?_
    fun _ _ _ _ _ _ => trivial)
  intro db found r v _ answered
  obtain ⟨_, made, _, added, _, _⟩ := World.execOn_insert answered
  have unjoined : Writes.inserted v.session.pending .householdMembers = [] :=
    (Writes.inserted_of_ne added (show Table.householdMembers ≠ .households from nofun)).trans start
  have inserted : r ∈ Writes.inserted v.session.pending .households := by
    rw [Writes.inserted_self added]
    exact List.mem_append_right _ (List.mem_singleton_self r)
  refine safe_bind (Prog.Safe.mono (safe_refresh .households r rfl
    (fun ws => ws.inserted .householdMembers = [] ∧ r ∈ ws.inserted .households) founded_read
    ⟨unjoined, inserted⟩) ?_ fun _ _ _ => trivial)
  rintro household u ⟨same, unjoined, inserted⟩
  refine safe_bind (safe_bind (safe_ask (s := .insert .householdMembers _) ?_
    (fun _ _ _ _ _ _ => trivial) fun _ _ _ _ _ _ => trivial))
  intro db _ m made
  cases made
  exact ⟨unjoined, .inr ⟨r, inserted, same.symm⟩⟩

theorem checked_createHousehold (env : Env) (caller : Option Uuid) (name : String)
    (start : Writes.inserted w.session.pending .householdMembers = []) :
    (createHousehold env caller name).prog.Checked Founded w := by
  unfold createHousehold
  generalize checkName name = checked
  refine checked_bind (Prog.Safe.mono (safe_lookup (currentUser caller)
    (fun ws => ws.inserted .householdMembers = []) founded_read start rfl) ?_ fun _ _ _ => trivial)
  intro user v unjoined
  refine checked_bind (safe_liftExcept (fun name _ => ?_) fun _ _ => trivial)
  refine checked_andThen (Prog.Checked.of_safe (safe_householdRows env name user.id unjoined)) ?_
  intro household u
  refine checked_of_admitsNobody (all_bind ?_ fun _ =>
    all_bind (all_ask usual_admitsNobody.commit) fun _ => ?_) u
  · exact all_bind (all_setActive usual_admitsNobody _ _) fun _ => all_ask usual_admitsNobody.commit
  · exact all_bind (all_refresh usual_admitsNobody .households _ rfl) fun _ => trivial

/-- The count of a transaction that changed no members is that of the committed ones. -/
theorem safe_countMembers (householdId : Uuid) (start : w.session.pending .householdMembers = []) :
    (HouseholdRepo.countMembers householdId).prog.Safe (fun _ _ => True) Founded
      (fun count (v : World Table) => v.session.pending .householdMembers = [] ∧
        count = membersOf v.db householdId)
      (fun _ _ => True) w := by
  unfold HouseholdRepo.countMembers
  refine safe_bind (safe_ask (s := .select .householdMembers _) (fun _ _ => trivial) ?_
    fun _ _ _ _ _ _ => trivial)
  intro db found rows v _ answered
  obtain ⟨_, rfl, kept, stored, _⟩ := World.execOn_select answered
  refine ⟨(congrFun kept .householdMembers).trans start, ?_⟩
  have seen : World.visible ⟨db, w.session⟩ .householdMembers = db .householdMembers := by
    rw [World.visible_of_unsecured rfl]
    show Change.applyAll (w.session.pending .householdMembers) (db .householdMembers) = _
    rw [start]
    rfl
  rw [seen, stored, membersOf, List.countP_eq_length_filter]

/-- The insert of an invited member, where the last statement found room. -/
theorem checked_addMember (env : Env) (i : PendingInvitation) (userId : Uuid)
    (start : w.session.pending .householdMembers = [])
    (room : membersOf w.db i.householdId < HouseholdRepo.memberLimit) :
    (HouseholdRepo.addMember env i userId).prog.Checked Founded w := by
  unfold HouseholdRepo.addMember
  refine checked_andThen (checked_ask (s := .insert .householdMembers _) ?_) fun _ v => ?_
  · intro m made
    cases made
    refine ⟨?_, .inl ⟨rfl, room⟩⟩
    rw [Writes.inserted, start]
    rfl
  · exact checked_of_admitsNobody (all_refresh usual_admitsNobody .householdMembers _ rfl) v

/-- An accept gets to its insert only with room for one more. -/
theorem checked_acceptInvite (env : Env) (caller : Option Uuid) (token : String)
    (start : w.session.pending .householdMembers = []) :
    (acceptInvite env caller token).prog.Checked Founded w := by
  have look {β : Type} (p : LookupM β) {v : World Table} {rest : β → AccountM Response}
      (here : v.session.pending .householdMembers = [])
      (go : ∀ b u, u.session.pending .householdMembers = [] → (rest b).prog.Checked Founded u) :
      ((p : AccountM β) >>= rest).prog.Checked Founded v :=
    checked_bind (Prog.Safe.mono (safe_lookup p (fun ws => ws .householdMembers = [])
      founded_read here rfl) go fun _ _ _ => trivial)
  unfold acceptInvite
  refine look _ start fun user v₁ here => look _ here fun i v₂ here => look _ here fun _ v₃ here => ?_
  refine checked_bind (safe_orRaise (fun household _ => ?_) fun _ => trivial)
  refine look _ here fun m v₄ here => ?_
  cases m.isSome with
  | true => exact trivial
  | false =>
      refine checked_bind (Prog.Safe.mono (safe_countMembers i.householdId here) ?_
        fun _ _ _ => trivial)
      rintro members v₅ ⟨here, rfl⟩
      by_cases full : HouseholdRepo.memberLimit ≤ membersOf v₅.db i.householdId
      · simp only [full]
        trivial
      · simp only [full]
        have added := checked_addMember env i user.id here (Nat.lt_of_not_le full)
        refine checked_andThen (checked_andThen added fun _ _ => trivial) fun _ v => ?_
        refine checked_of_admitsNobody (all_bind (all_acceptInvitation (Q := AdmitsNobody)
          (fun p _ _ h => h.keepsPlace p) _ _) fun _ =>
            all_bind (all_setActive usual_admitsNobody _ _) fun _ => ?_) v
        exact all_bind (all_ask usual_admitsNobody.commit) fun _ => trivial

end Founding

/-- The programs of the requests that change who is a member. -/
theorem Request.JoinsOrLeaves.checked {r : Request} (h : r.JoinsOrLeaves) (env : Env)
    (archive : List String) {w : World Table} (start : w.session.pending = fun _ => []) :
    (r.program env archive).prog.Checked Founded w := by
  cases r with
  | householdCreate caller name =>
      refine checked_createHousehold env caller name ?_
      rw [start]
      rfl
  | invitationAccept caller token =>
      exact checked_acceptInvite env caller token (congrFun start .householdMembers)
  | member caller request =>
      cases request with
      | memberRemove userId =>
          exact checked_of_admitsNobody (all_asMember usual_admitsNobody fun m =>
            all_requireAdmin (all_removeMember usual_admitsNobody env userId m)) w
      | _ => exact h.elim
  | _ => exact h.elim

theorem Request.JoinsOrLeaves.keepsPlace {r : Request} (h : r.JoinsOrLeaves) (env : Env)
    (archive : List String) : (r.program env archive).prog.All KeepsPlace := by
  cases r with
  | householdCreate caller name =>
      exact all_createHousehold usual_keepsPlace (fun _ made => made) (fun _ made => made) env caller
        name
  | invitationAccept caller token =>
      exact all_acceptInvite usual_keepsPlace (fun _ joins id m made => (joins id m made).1)
        (fun p _ _ h => h.keepsPlace p) env caller token
  | member caller request =>
      cases request with
      | memberRemove userId =>
          exact all_asMember usual_keepsPlace fun m =>
            all_requireAdmin (all_removeMember usual_keepsPlace env userId m)
      | _ => exact h.elim
  | _ => exact h.elim

/-! ### The invariant -/

/-- Nobody has or refers to the households that a transaction inserted. -/
def Unseen (db : State) (ws : Writes Table) : Prop :=
  ∀ r ∈ ws.inserted .households, (∀ r' ∈ db .households, r'.id ≠ r.id) ∧
    ∀ m ∈ db .householdMembers, m.householdId ≠ r.id

/-- Neither transaction inserted a member of a household that the other inserted. -/
structure Apart (a b : Writes Table) : Prop where
  left : ∀ r ∈ a.inserted .households, ∀ m ∈ b.inserted .householdMembers, m.householdId ≠ r.id
  right : ∀ r ∈ b.inserted .households, ∀ m ∈ a.inserted .householdMembers, m.householdId ≠ r.id

theorem Apart.symm {a b : Writes Table} (h : Apart a b) : Apart b a := ⟨h.right, h.left⟩

/-- There is room for all who are members or about to be. -/
structure Limited (p : Requests) : Prop where
  room : ∀ h, crowd p h ≤ HouseholdRepo.memberLimit
  kept : ∀ c ∈ p.clients, ∀ t : Table, ∀ change ∈ c.writes t, change.Keeps t.householdId
  unseen : ∀ c ∈ p.clients, Unseen p.db c.writes
  apart : p.clients.Pairwise fun a b => Apart a.writes b.writes

section Step

variable {p p' : Requests} {before after : List (Client Table Exc Response)}
  {c c' : Client Table Exc Response}

/-- How many members transactions inserted into a household. -/
def joining (clients : List (Client Table Exc Response)) (householdId : Uuid) : Nat :=
  (clients.flatMap fun c => c.writes.inserted .householdMembers).countP
    (HouseholdRepo.ofHousehold householdId)

theorem crowd_eq (here : p.clients = before ++ c :: after) (h : Uuid) :
    crowd p h = membersOf p.db h + (c.writes.inserted .householdMembers).countP
      (HouseholdRepo.ofHousehold h) + joining (before ++ after) h := by
  simp only [crowd, membersOf, joining, here, List.flatMap_append, List.flatMap_cons,
    List.countP_append]
  omega

theorem apart_middle : ((before ++ c :: after).Pairwise fun a b => Apart a.writes b.writes) ↔
    (∀ o ∈ before ++ after, Apart c.writes o.writes) ∧
      (before ++ after).Pairwise fun a b => Apart a.writes b.writes := by
  rw [List.pairwise_middle Apart.symm, List.pairwise_cons]

/-- The client that made a step is what has to be checked. -/
theorem Limited.replace (h : Limited p) (here : p.clients = before ++ c :: after)
    (there : p'.clients = before ++ c' :: after) (db : p'.db = p.db)
    (room : ∀ h, (c'.writes.inserted .householdMembers).countP (HouseholdRepo.ofHousehold h) ≤
      (c.writes.inserted .householdMembers).countP (HouseholdRepo.ofHousehold h) ∨
        crowd p' h ≤ HouseholdRepo.memberLimit)
    (kept : ∀ t : Table, ∀ change ∈ c'.writes t, change.Keeps t.householdId)
    (unseen : Unseen p.db c'.writes)
    (apart : ∀ o ∈ before ++ after, Apart c'.writes o.writes) : Limited p' := by
  have clients := h.kept
  have others := h.unseen
  have pairs := h.apart
  rw [here] at clients others pairs
  refine ⟨fun household => ?_, ?_, ?_, ?_⟩
  · rcases room household with fewer | enough
    · have before := h.room household
      rw [crowd_eq here] at before
      rw [crowd_eq there, db]
      omega
    · exact enough
  · rw [there]
    exact forall_mem_middle.mpr ⟨kept, (forall_mem_middle.mp clients).2⟩
  · rw [there, db]
    exact forall_mem_middle.mpr ⟨unseen, (forall_mem_middle.mp others).2⟩
  · rw [there]
    exact apart_middle.mpr ⟨apart, (apart_middle.mp pairs).2⟩

/-- A commit adds no members but those that the transaction inserted. -/
theorem membersOf_view_le {db : State}
    (kept : ∀ change ∈ c.writes .householdMembers,
      change.Keeps (Table.householdId .householdMembers)) (householdId : Uuid) :
    membersOf (World.view ⟨db, c.session⟩) householdId ≤ membersOf db householdId +
      (c.writes.inserted .householdMembers).countP (HouseholdRepo.ofHousehold householdId) := by
  have listed : ((World.view ⟨db, c.session⟩ .householdMembers).map _).Subperm _ :=
    Change.subperm_applyAll kept
  have counted := listed.countP_le (· == some householdId)
  rw [List.countP_map, List.countP_map, List.countP_append] at counted
  exact counted

theorem countP_eq_zero_of_ne {rows : List HouseholdMember} {householdId : Uuid}
    (none : ∀ m ∈ rows, m.householdId ≠ householdId) :
    rows.countP (HouseholdRepo.ofHousehold householdId) = 0 :=
  List.countP_eq_zero.mpr fun m hm same => none m hm (beq_iff_eq.mp same)

/-- Nobody commits a member while another client is about to insert one where it found
room, so that room stays. -/
theorem Founded.spared (h : Limited p) (here : p.clients = before ++ c :: after)
    (may : OneByOne p c (before ++ after) .commit) {o : Client Table Exc Response}
    (ho : o ∈ before ++ after) : c.Spares Founded p.db o := by
  intro s k prog founded
  cases s with
  | insert t make =>
      cases t with
      | householdMembers =>
          intro m made
          obtain ⟨unjoined, invited | new⟩ := founded m made
          · refine ⟨unjoined, .inl ⟨invited.1, Nat.lt_of_le_of_lt ?_ invited.2⟩⟩
            have mem : c ∈ p.clients := here ▸ List.mem_append_right _ List.mem_cons_self
            have coming : newcomer o = some m := by
              have made' : make (o.session.supply o.session.drawn) = .ok m := made
              rw [newcomer, prog]
              show (make (o.session.supply o.session.drawn)).toOption = some m
              rw [made']
              rfl
            have grown : membersOf (World.view ⟨p.db, c.session⟩) m.householdId ≤ _ :=
              membersOf_view_le (h.kept c mem .householdMembers) m.householdId
            rw [countP_eq_zero_of_ne fun m' hm same => may m' hm o ho m coming same.symm] at grown
            exact grown
          · exact ⟨unjoined, .inr new⟩
      | _ => trivial
  | _ => trivial

/-- A household that a transaction inserted is not there for another one. -/
theorem absent_of_inserted {db : State} {a b : Writes Table} (unseen : Unseen db a)
    (clear : Clear a b) {r r' : Household} (inserted : r ∈ a.inserted .households)
    (here : r' ∈ Change.applyAll (b .households) (db .households)) : r'.id ≠ r.id := by
  rcases Change.mem_applyAll here with old | new
  · exact (unseen r inserted).1 r' old
  · intro same
    have mine : r.id ∈ a.touched .households := mem_touched (mem_news_of_inserted inserted)
    have theirs : r'.id ∈ b.touched .households := mem_touched new
    exact clear.rows .households mine (same ▸ theirs)

/-- What another transaction commits does not refer to it either. -/
theorem Unseen.commit {db : State} {a b : Writes Table} (unseen : Unseen db a) (clear : Clear a b)
    (apart : Apart a b) (kept : ∀ change ∈ b .householdMembers,
      change.Keeps (Table.householdId .householdMembers)) :
    Unseen (fun t => Change.applyAll (b t) (db t)) a := by
  intro r inserted
  refine ⟨fun r' here => absent_of_inserted unseen clear inserted here, fun m here => ?_⟩
  have listed := (Change.subperm_applyAll kept).subset (List.mem_map_of_mem here)
  obtain ⟨m', here', same⟩ := List.mem_map.mp listed
  have same : m'.householdId = m.householdId := Option.some.inj same
  rw [← same]
  rcases List.mem_append.mp here' with old | new
  · exact (unseen r inserted).2 m' old
  · exact apart.left r inserted m' new

/-- A new household has room. -/
theorem crowd_of_founded (h : Limited p) (here : p.clients = before ++ c :: after)
    (unjoined : c.writes.inserted .householdMembers = []) {r : Household}
    (inserted : r ∈ c.writes.inserted .households) : crowd p r.id = 0 := by
  have others := h.unseen
  have pairs := h.apart
  rw [here] at others pairs
  have unseen := (forall_mem_middle.mp others).1 r inserted
  have stored : membersOf p.db r.id = 0 := countP_eq_zero_of_ne unseen.2
  have joined : joining (before ++ after) r.id = 0 := by
    refine countP_eq_zero_of_ne fun m hm => ?_
    obtain ⟨o, ho, hm⟩ := List.mem_flatMap.mp hm
    exact ((apart_middle.mp pairs).1 o ho).left r inserted m hm
  rw [crowd_eq here, stored, joined, unjoined]
  rfl

/-- Where an accept found room and no other transaction inserted a member, there is room. -/
theorem crowd_of_counted (here : p.clients = before ++ c :: after) {householdId : Uuid}
    (unjoined : c.writes.inserted .householdMembers = [])
    (alone : ∀ o ∈ before ++ after, ∀ m ∈ o.writes.inserted .householdMembers,
      m.householdId ≠ householdId) : crowd p householdId = membersOf p.db householdId := by
  have joined : joining (before ++ after) householdId = 0 := by
    refine countP_eq_zero_of_ne fun m hm => ?_
    obtain ⟨o, ho, hm⟩ := List.mem_flatMap.mp hm
    exact alone o ho m hm
  rw [crowd_eq here, joined, unjoined]
  rfl

/-- A transaction that writes neither households nor members anew. -/
theorem Limited.same (h : Limited p) (here : p.clients = before ++ c :: after)
    (there : p'.clients = before ++ c' :: after) (db : p'.db = p.db)
    (households : c'.writes.inserted .households ⊆ c.writes.inserted .households)
    (members : (c'.writes.inserted .householdMembers).Sublist
      (c.writes.inserted .householdMembers))
    (kept : ∀ t : Table, ∀ change ∈ c'.writes t, change.Keeps t.householdId) : Limited p' := by
  have others := h.unseen
  have pairs := h.apart
  rw [here] at others pairs
  refine h.replace here there db (fun _ => .inl members.countP_le) kept ?_ fun o ho => ?_
  · exact fun r hr => (forall_mem_middle.mp others).1 r (households hr)
  · have apart := (apart_middle.mp pairs).1 o ho
    exact ⟨fun r hr => apart.left r (households hr),
      fun r hr m hm => apart.right r hr m (members.subset hm)⟩

/-- The insert of a household. -/
theorem Limited.household (h : Limited p) (here : p.clients = before ++ c :: after)
    (there : p'.clients = before ++ c' :: after) (db : p'.db = p.db) {r : Household}
    (unused : Unused (T := Table) p.db (p.clients.map Client.writes) r.id)
    (added : c'.writes = Function.update c.writes .households (c.writes .households ++ [.ins r]))
    (kept : ∀ t : Table, ∀ change ∈ c'.writes t, change.Keeps t.householdId) : Limited p' := by
  have others := h.unseen
  have pairs := h.apart
  rw [here] at others pairs
  have households : c'.writes.inserted .households = c.writes.inserted .households ++ [r] :=
    Writes.inserted_self added
  have members : c'.writes.inserted .householdMembers = c.writes.inserted .householdMembers :=
    Writes.inserted_of_ne added (show Table.householdMembers ≠ .households from nofun)
  refine h.replace here there db (fun _ => .inl ?_) kept ?_ fun o ho => ?_
  · rw [members]
  · intro x hx
    rw [households] at hx
    rcases List.mem_append.mp hx with old | new
    · exact (forall_mem_middle.mp others).1 x old
    · cases List.mem_singleton.mp new
      refine ⟨fun r' hr' => ((unused .households).1 r' hr').1, fun m hm => ?_⟩
      exact ((unused .householdMembers).1 m hm).2 (.households, m.householdId) List.mem_cons_self
  · have apart := (apart_middle.mp pairs).1 o ho
    refine ⟨fun x hx m hm => ?_, ?_⟩
    · rw [households] at hx
      rcases List.mem_append.mp hx with old | new
      · exact apart.left x old m hm
      · cases List.mem_singleton.mp new
        have open_ : o.writes ∈ p.clients.map Client.writes := by
          rw [here]
          exact List.mem_map_of_mem ((forall_mem_middle (P := (· ∈ before ++ c :: after)).mp
            fun _ h => h).2 o ho)
        obtain ⟨change, written, new⟩ := mem_news_of_inserted hm
        exact ((unused .householdMembers).2 _ open_ change written m new).2
          (.households, m.householdId) List.mem_cons_self
    · rw [members]
      exact apart.right

/-- The insert of a member, where there is room. -/
theorem Limited.member (h : Limited p) (inOrder : p.InOrder)
    (here : p.clients = before ++ c :: after) (there : p'.clients = before ++ c' :: after)
    (db : p'.db = p.db) {m : HouseholdMember}
    (stored : World.stored ⟨p.db, c.session⟩ (.households, m.householdId) = true)
    (room : crowd p m.householdId < HouseholdRepo.memberLimit)
    (added : c'.writes =
      Function.update c.writes .householdMembers (c.writes .householdMembers ++ [.ins m]))
    (kept : ∀ t : Table, ∀ change ∈ c'.writes t, change.Keeps t.householdId) : Limited p' := by
  have others := h.unseen
  have pairs := h.apart
  have clears := inOrder.clear
  rw [here] at others pairs clears
  have members : c'.writes.inserted .householdMembers =
      c.writes.inserted .householdMembers ++ [m] :=
    Writes.inserted_self added
  have households : c'.writes.inserted .households = c.writes.inserted .households :=
    Writes.inserted_of_ne added (show Table.households ≠ .householdMembers from nofun)
  refine h.replace here there db (fun household => ?_) kept ?_ fun o ho => ?_
  · -- the household that is joined had room for one more; the others are as they were
    by_cases joined : m.householdId = household
    · subst joined
      have before := crowd_eq here m.householdId
      refine .inr ?_
      rw [crowd_eq there, db, members, List.countP_append]
      have one : [m].countP (HouseholdRepo.ofHousehold m.householdId) = 1 := by
        simp [HouseholdRepo.ofHousehold]
      omega
    · refine .inl ?_
      have none : [m].countP (HouseholdRepo.ofHousehold household) = 0 := by
        simp [HouseholdRepo.ofHousehold, joined]
      rw [members, List.countP_append]
      omega
  · rw [Unseen, households]
    exact (forall_mem_middle.mp others).1
  · have apart := (apart_middle.mp pairs).1 o ho
    refine ⟨?_, fun r hr x hx => ?_⟩
    · rw [households]
      exact apart.left
    · rw [members] at hx
      rcases List.mem_append.mp hx with old | new
      · exact apart.right r hr x old
      · -- the household is there for the transaction, but not the one that another inserted
        cases List.mem_singleton.mp new
        obtain ⟨r', seen, same⟩ := List.any_eq_true.mp stored
        have same : r'.id = m.householdId := of_decide_eq_true same
        rw [← same]
        exact absent_of_inserted ((forall_mem_middle.mp others).2 o ho)
          ((Pool.pairwise_middle.mp clears).1 o ho).symm hr seen

/-- A commit. -/
theorem Limited.commit (h : Limited p) (inOrder : p.InOrder)
    (here : p.clients = before ++ c :: after) (there : p'.clients = before ++ c' :: after)
    (db : p'.db = World.view ⟨p.db, c.session⟩) (empty : c'.writes = fun _ => []) : Limited p' := by
  have clients := h.kept
  have others := h.unseen
  have pairs := h.apart
  have clears := inOrder.clear
  rw [here] at clients others pairs clears
  obtain ⟨mine, theirs⟩ := forall_mem_middle.mp clients
  obtain ⟨apart, rest⟩ := apart_middle.mp pairs
  have nothing (t : Table) : c'.writes.inserted t = [] := by
    rw [empty]
    rfl
  refine ⟨fun household => ?_, ?_, ?_, ?_⟩
  · -- the pending members become committed ones, and the sum stays
    have grown : membersOf p'.db household ≤ _ :=
      db ▸ membersOf_view_le (mine .householdMembers) household
    have limit := h.room household
    rw [crowd_eq here] at limit
    rw [crowd_eq there, nothing, List.countP_nil]
    omega
  · rw [there]
    refine forall_mem_middle.mpr ⟨fun t change hc => ?_, theirs⟩
    rw [empty] at hc
    cases hc
  · rw [there, db]
    refine forall_mem_middle.mpr ⟨fun r hr => ?_, fun o ho => ?_⟩
    · rw [nothing] at hr
      cases hr
    · exact ((forall_mem_middle.mp others).2 o ho).commit
        ((Pool.pairwise_middle.mp clears).1 o ho).symm (apart o ho).symm (mine .householdMembers)
  · rw [there]
    refine apart_middle.mpr ⟨fun o _ => ⟨fun r hr => ?_, fun r _ m hm => ?_⟩, rest⟩
    · rw [nothing] at hr
      cases hr
    · rw [nothing] at hm
      cases hm

/-- A step of accepts that do not overlap keeps the limit. -/
theorem Limited.step (h : Limited p) (step : Pool.Step OneByOne p p') (inOrder : p.InOrder)
    (placed : ∀ c ∈ p.clients, c.prog.All KeepsPlace)
    (checked : ∀ c ∈ p.clients, c.Checked Founded p.db) : Limited p' := by
  cases step.did fun c hc => (placed c hc).mono fun _ => KeepsPlace.orderly with
  | @quiet before after c c' here there db log writes =>
      have mem : c ∈ p.clients := here ▸ List.mem_append_right _ List.mem_cons_self
      -- a statement that writes nothing, or aborts what was written
      rcases writes with same | empty
      · refine h.same here there db ?_ ?_ ?_
        · rw [same]
          exact List.Subset.refl _
        · rw [same]
        · rw [same]
          exact h.kept c mem
      · refine h.same here there db ?_ ?_ fun t change hc => ?_
        · rw [empty]
          exact List.nil_subset _
        · rw [empty]
          exact List.nil_sublist _
        · rw [empty] at hc
          cases hc
  | committed here there prog may _ db log writes => exact h.commit inOrder here there db writes
  | @wrote before after c c' s k t change here there db log prog may fresh _ written verdict added =>
      have mem : c ∈ p.clients := here ▸ List.mem_append_right _ List.mem_cons_self
      have keepsPlace : KeepsPlace s := by
        have all := placed c mem
        rw [prog] at all
        exact all.1
      have kept (u : Table) : ∀ d ∈ c'.writes u, d.Keeps u.householdId := by
        intro d hd
        rw [added] at hd
        by_cases same : u = t
        · subst same
          rw [Function.update_self] at hd
          rcases List.mem_append.mp hd with old | new
          · exact h.kept c mem u d old
          · rw [List.mem_singleton.mp new]
            exact (keepsPlace.narrow _).keeps written
        · rw [Function.update_of_ne same] at hd
          exact h.kept c mem u d hd
      have unchanged {u : Table} (other : u ≠ t ∨ change.inserted = []) :
          c'.writes.inserted u = c.writes.inserted u := by
        by_cases same : u = t
        · subst same
          rw [Writes.inserted_self added, other.resolve_left fun differs => differs rfl,
            List.append_nil]
        · exact Writes.inserted_of_ne added same
      have skip (households : Table.households ≠ t ∨ change.inserted = [])
          (members : Table.householdMembers ≠ t ∨ change.inserted = []) : Limited p' := by
        refine h.same here there db ?_ ?_ kept
        · rw [unchanged households]
          exact List.Subset.refl _
        · rw [unchanged members]
      -- only inserts of households and of members bear on the limit
      rcases written.inserted with nothing | ⟨make, r, narrowed, made, rfl⟩
      · exact skip (.inr nothing) (.inr nothing)
      · have inserting := Stmt.narrow_eq_insert.mp narrowed
        subst inserting
        have key : Table.id t r = World.nextId ⟨p.db, c.session⟩ := keepsPlace _ _ made
        cases t with
        | households =>
            have unused := fresh _ _ rfl
            rw [← key] at unused
            exact h.household here there db unused added kept
        | householdMembers =>
            obtain ⟨_, _, _, stored⟩ := (World.refused_eq_none _).mp verdict
            refine h.member inOrder here there db (stored _ List.mem_cons_self) ?_ added kept
            have founded : Founded (.insert .householdMembers make) ⟨p.db, c.session⟩ := by
              have knows := checked c mem
              rw [Client.Checked, prog] at knows
              exact knows.1
            obtain ⟨unjoined, invited | ⟨r', inserted, same⟩⟩ := founded r made
            · -- the room that the accept found, none of which was taken since
              rw [crowd_of_counted here unjoined (may r made invited.1)]
              exact invited.2
            · rw [← same, crowd_of_founded h here unjoined inserted]
              decide
        | _ => exact skip (.inl (by decide)) (.inl (by decide))

end Step

theorem Limited.run {p p' : Requests} (h : Limited p) (run : Pool.Run OneByOne p p')
    (inOrder : p.InOrder) (placed : ∀ c ∈ p.clients, c.prog.All KeepsPlace)
    (checked : ∀ c ∈ p.clients, c.Checked Founded p.db) :
    Limited p' ∧ ∀ c ∈ p'.clients, c.Checked Founded p'.db := by
  induction run with
  | refl => exact ⟨h, checked⟩
  | tail before step ih =>
      obtain ⟨limited, knows⟩ := ih
      refine ⟨limited.step step (Pool.Run.inOrder before inOrder) (Pool.Run.all before placed) knows,
        step.checked (fun _ _ _ _ here _ may o ho => Founded.spared limited here may ho) knows⟩

/-! ### The limit -/

/-- A user is a member of a household once at most. -/
theorem member_once {rows : List HouseholdMember}
    (keyed : Table.Keyed .householdMembers rows)
    (distinct : NoShare (T := Table) .householdMembers rows) (h u : Uuid) :
    rows.countP (HouseholdRepo.isMember h u) ≤ 1 := by
  rw [List.countP_eq_length_filter]
  by_contra several
  have distinctRows := (List.Nodup.of_map _ keyed).filter (HouseholdRepo.isMember h u)
  obtain ⟨a, b, ha, hb, differ⟩ : ∃ a b, a ∈ rows.filter (HouseholdRepo.isMember h u) ∧
      b ∈ rows.filter (HouseholdRepo.isMember h u) ∧ a ≠ b := by
    match found : rows.filter (HouseholdRepo.isMember h u), several, distinctRows with
    | [], several, _ => exact absurd (Nat.zero_le 1) several
    | [_], several, _ => exact absurd (Nat.le_refl 1) several
    | a :: b :: rest, _, distinctRows =>
        refine ⟨a, b, List.mem_cons_self, List.mem_cons_of_mem _ List.mem_cons_self, ?_⟩
        rintro rfl
        exact (List.nodup_cons.mp distinctRows).1 List.mem_cons_self
  have entry {m : HouseholdMember} (hm : m ∈ rows.filter (HouseholdRepo.isMember h u)) :
      m ∈ rows ∧ UniqueEntry.member h u ∈ Table.entries .householdMembers m := by
    obtain ⟨here, matched⟩ := List.mem_filter.mp hm
    simp only [HouseholdRepo.isMember, Bool.and_eq_true, beq_iff_eq] at matched
    rw [Table.entries, matched.1, matched.2]
    exact ⟨here, List.mem_singleton_self _⟩
  obtain ⟨hereA, entryA⟩ := entry ha
  obtain ⟨hereB, entryB⟩ := entry hb
  have same := distinct a hereA b hereB (.member h u) entryA entryB
  exact differ (List.inj_on_of_nodup_map keyed hereA hereB same)

/-- The limit holds in every run in which accepts for one household do not overlap: of
two that insert a member, one commits before the other counts. What bounds the members
then is the count that an accept makes, however many there are and whatever else goes
on, removals and new households among it. That nobody is a member of one household
twice needs no condition on the run. -/
theorem members_limited {db : State} {requests : List (Call × Request)} {p : Requests}
    (indexed : Indexed db) (within : ∀ h, membersOf db h ≤ HouseholdRepo.memberLimit)
    (kinds : ∀ x ∈ requests, x.2.JoinsOrLeaves)
    (run : Pool.Run OneByOne (sideBySide db requests) p) :
    (∀ h, membersOf p.db h ≤ HouseholdRepo.memberLimit) ∧
      ∀ h u, (p.db .householdMembers).countP (HouseholdRepo.isMember h u) ≤ 1 := by
  have client {c : Client Table Exc Response} (hc : c ∈ (sideBySide db requests).clients) :
      ∃ x ∈ requests, x.1.client x.2 = c := List.mem_map.mp hc
  have placed : ∀ c ∈ (sideBySide db requests).clients, c.prog.All KeepsPlace := by
    intro c hc
    obtain ⟨x, hx, rfl⟩ := client hc
    exact (kinds x hx).keepsPlace x.1.env x.1.archive
  have inOrder : (sideBySide db requests).InOrder :=
    sideBySide_inOrder indexed fun x hx =>
      ((kinds x hx).keepsPlace x.1.env x.1.archive).mono fun _ => KeepsPlace.orderly
  -- nothing is pending at the start, so that the members are the committed ones
  have start : Limited (sideBySide db requests) := by
    refine ⟨fun h => ?_, ?_, ?_, ?_⟩
    · have nobody : (sideBySide db requests).clients.flatMap
          (fun c => c.writes.inserted .householdMembers) = [] := by
        refine List.flatMap_eq_nil_iff.mpr fun c hc => ?_
        obtain ⟨x, _, rfl⟩ := client hc
        rfl
      rw [crowd, nobody, List.append_nil]
      exact within h
    · intro c hc
      obtain ⟨x, _, rfl⟩ := client hc
      exact fun t change => nofun
    · intro c hc
      obtain ⟨x, _, rfl⟩ := client hc
      exact fun r => nofun
    · refine List.pairwise_map.mpr (List.pairwise_of_forall fun x y => ?_)
      exact ⟨fun r => nofun, fun r => nofun⟩
  have final := start.run run inOrder placed fun c hc => by
    obtain ⟨x, hx, rfl⟩ := client hc
    exact (kinds x hx).checked x.1.env x.1.archive rfl
  have stored := run.inOrder inOrder
  refine ⟨fun h => ?_, fun h u => ?_⟩
  · -- the committed members are some of those that are counted with the pending ones
    refine Nat.le_trans ?_ (final.1.room h)
    rw [crowd, List.countP_append]
    exact Nat.le_add_right _ _
  · exact member_once (stored.keyed .householdMembers) (stored.distinct .householdMembers) h u

namespace Sample

/-! ### The last place -/

/-- Two invitations are accepted side by side. -/
def rush : List (Call × Request) :=
  [(call, .invitationAccept (some (person 20).id) "20"),
    ({ call with supply := fun n => id (150 + n) }, .invitationAccept (some (person 21).id) "21")]

/-- Both count the members before one of them inserts the new one. -/
def bothCount : List Nat :=
  [0, 0, 0, 0, 0, 1, 1, 1, 1, 1] ++ List.replicate 7 0 ++ List.replicate 7 1

/-- The second is there first, but counts when the other has committed. -/
def inTurn : List Nat := List.replicate 4 1 ++ List.replicate 12 0 ++ List.replicate 2 1

theorem crowded_indexed : ∀ n ∈ [7, 8], Indexed (crowded n) := by
  intro n hn
  refine indexed_of_all ?_
  revert n
  decide +kernel

theorem rush_joins : ∀ x ∈ rush, x.2.JoinsOrLeaves := by
  intro x hx
  rcases List.mem_cons.mp hx with rfl | hx
  · trivial
  · cases List.mem_singleton.mp hx
    trivial

theorem crowded_within {n : Nat} (h : n ≤ 9) (householdId : Uuid) :
    membersOf (crowded n) householdId ≤ HouseholdRepo.memberLimit := by
  refine List.countP_le_length.trans ?_
  rw [show (crowded n .householdMembers).length = n + 1 by simp [crowded]]
  exact Nat.succ_le_succ h

/-- Whether accepts for one household do not overlap. -/
def inOrder (p : Requests) (c : Client Table Exc Response)
    (others : List (Client Table Exc Response)) : Statement → Bool
  | .insert .householdMembers make =>
      match make (World.nextId ⟨p.db, c.session⟩) with
      | .ok (m : HouseholdMember) => others.all fun o =>
          (o.writes.inserted .householdMembers).all fun (m' : HouseholdMember) =>
            m'.householdId != m.householdId
      | .error _ => true
  | .commit => (c.writes.inserted .householdMembers).all fun (m : HouseholdMember) =>
      others.all fun o => (newcomer o).all fun m' => m'.householdId != m.householdId
  | _ => true

theorem oneByOne_of_inOrder (p : Requests) (c : Client Table Exc Response)
    (others : List (Client Table Exc Response)) (s : Statement) (h : inOrder p c others s = true) :
    OneByOne p c others s := by
  cases s with
  | insert t make =>
      cases t with
      | householdMembers =>
          intro m made _ o ho m' hm
          simp only [inOrder, made] at h
          exact bne_iff_ne.mp (List.all_eq_true.mp (List.all_eq_true.mp h o ho) m' hm)
      | _ => trivial
  | commit =>
      intro m hm o ho m' coming
      have none := List.all_eq_true.mp (List.all_eq_true.mp h m hm) o ho
      rw [Option.mem_def.mp coming] at none
      exact bne_iff_ne.mp none
  | _ => trivial

/-- One takes the last place, and the other counts ten and is refused. -/
theorem members_limited_in_turn : ∃ p,
    Pool.play inOrder inTurn (sideBySide (crowded 8) rush) = some p ∧
      membersOf p.db household.id = 10 ∧
        ((∀ h, membersOf p.db h ≤ HouseholdRepo.memberLimit) ∧
          ∀ h u, (p.db .householdMembers).countP (HouseholdRepo.isMember h u) ≤ 1) := by
  have counted : (Pool.play inOrder inTurn (sideBySide (crowded 8) rush)).map (fun p =>
      membersOf p.db household.id) = some 10 := by decide +kernel
  obtain ⟨p, played, full⟩ := Option.map_eq_some_iff.mp counted
  exact ⟨p, played, full, members_limited (crowded_indexed 8 (by decide))
    (crowded_within (by decide)) rush_joins (Pool.run_of_play oneByOne_of_inOrder played)⟩

/-- Both see nine members, and then they are eleven. -/
theorem eleven_members : ¬ ∀ (db : State) (requests : List (Call × Request)) (p : Requests),
    Indexed db → (∀ h, membersOf db h ≤ HouseholdRepo.memberLimit) →
      (∀ x ∈ requests, x.2.JoinsOrLeaves) →
        Pool.Run Pool.Anything (sideBySide db requests) p →
          ∀ h, membersOf p.db h ≤ HouseholdRepo.memberLimit := by
  intro limited
  have counted : (Pool.play (fun _ _ _ _ => true) bothCount (sideBySide (crowded 8) rush)).map
      (fun p => membersOf p.db household.id) = some 11 := by decide +kernel
  obtain ⟨p, played, many⟩ := Option.map_eq_some_iff.mp counted
  have run : Pool.Run Pool.Anything _ p := Pool.run_of_play (fun _ _ _ _ _ => trivial) played
  have few := limited _ _ p (crowded_indexed 8 (by decide)) (crowded_within (by decide)) rush_joins
    run household.id
  rw [many] at few
  exact absurd few (by decide)

end Sample

end EspressoLogs
