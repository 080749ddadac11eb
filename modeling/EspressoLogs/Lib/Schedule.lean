import EspressoLogs.Lib.Concurrent

/-!
Schedules.

A schedule names the client that makes the next step, turn by turn. Playing one
computes a run of the pool, so that what a particular interleaving comes to can
be evaluated. It stops at a statement that may not be performed there.
-/

namespace EspressoLogs.Lib

open Schema

/-- `tables` lists every table. -/
class CompleteSchema (T : Type) [Schema T] : Prop where
  mem_tables : ∀ t : T, t ∈ Schema.tables

variable {T : Type} [Schema T] {E α : Type}

/-! ### Checks -/

/-- `Clear`, checked table by table. -/
def isClear (a b : Writes T) : Bool :=
  tables.all fun t =>
    (a.touched t).all (· ∉ b.touched t) && (a.claimed t).all (· ∉ b.claimed t) &&
      (a.referred t).all (fun ref => ref.2 ∉ b.removed ref.1) &&
        (b.referred t).all fun ref => ref.2 ∉ a.removed ref.1

theorem clear_of_isClear [CompleteSchema T] {a b : Writes T} (h : isClear a b = true) :
    Clear a b := by
  have checked (t : T) := List.all_eq_true.mp h t (CompleteSchema.mem_tables t)
  simp only [Bool.and_eq_true, List.all_eq_true, decide_eq_true_eq] at checked
  exact ⟨fun t _ ha hb => (checked t).1.1.1 _ ha hb, fun t _ ha hb => (checked t).1.1.2 _ ha hb,
    fun t => (checked t).1.2, fun t => (checked t).2⟩

instance (t : T) (rows : List (Row t)) : Decidable (NoShare t rows) :=
  inferInstanceAs (Decidable (∀ r ∈ rows, ∀ r' ∈ rows, ∀ e ∈ entries t r,
    e ∈ entries t r' → key t r = key t r'))

/-- The row does not have the id, nor refer to it. -/
def avoids (t : T) (id : RowId T) (r : Row t) : Bool :=
  key t r ≠ id && (parents t r).all fun ref => ref.2 ≠ id

/-- `Unused`, checked table by table. -/
def isUnused (db : Tables T) (open_ : List (Writes T)) (id : RowId T) : Bool :=
  tables.all fun t => (db t).all (avoids t id) &&
    open_.all fun ws => (ws t).all fun c => c.news.all (avoids t id)

theorem unused_of_isUnused [CompleteSchema T] {db : Tables T} {open_ : List (Writes T)}
    {id : RowId T} (h : isUnused db open_ id = true) : Unused db open_ id := by
  intro t
  have checked := List.all_eq_true.mp h t (CompleteSchema.mem_tables t)
  simp only [avoids, Bool.and_eq_true, List.all_eq_true, decide_eq_true_eq] at checked
  exact checked

/-! ### Turns -/

namespace Pool

variable (permits : Pool T E α → Client T E α → List (Client T E α) → Stmt T → Bool)

/-- Whether a statement gets a new row id that is new. -/
def drawsNew (db : Tables T) (open_ : List (Writes T)) (session : Session T) : Stmt T → Bool
  | .insert _ _ => isUnused db open_ (World.nextId ⟨db, session⟩)
  | _ => true

/-- The statement of the client between `before` and `after`, unless it has to wait. -/
def performed (db : Tables T) (log : List (Writes T)) (before after : List (Client T E α))
    (s : Stmt T) (k : Resp s → Prog (Stmt T) Resp E α) (session : Session T)
    (found : Option (List (RowId T))) : Option (Pool T E α) :=
  match World.execOn (found.getD []) s ⟨db, session⟩ with
  | (r, w) =>
      if drawsNew db ((before ++ ⟨.op s k, session, found⟩ :: after).map Client.writes) session s &&
          permits ⟨db, before ++ ⟨.op s k, session, found⟩ :: after, log⟩ ⟨.op s k, session, found⟩
            (before ++ after) s &&
          (before ++ after).all fun o => isClear w.session.pending o.writes then
        some ⟨w.db, before ++ ⟨k r, w.session, none⟩ :: after, logged s r session.pending log⟩
      else none

/-- The turn of the client between `before` and `after`. -/
def turnOf (db : Tables T) (log : List (Writes T)) (before after : List (Client T E α)) :
    Client T E α → Option (Pool T E α)
  | ⟨.op s k, session, none⟩ =>
      match World.targets ⟨db, session⟩ s with
      | some found => some ⟨db, before ++ ⟨.op s k, session, some found⟩ :: after, log⟩
      | none => performed permits db log before after s k session none
  | ⟨.op s k, session, some found⟩ =>
      performed permits db log before after s k session (some found)
  | ⟨.pure a, session, none⟩ => some ⟨db, before ++ ⟨.pure a, session.ended, none⟩ :: after, log⟩
  | ⟨.raise e, session, none⟩ => some ⟨db, before ++ ⟨.raise e, session.ended, none⟩ :: after, log⟩
  | ⟨_, _, some _⟩ => none

/-- The turn of the client at a position. -/
def turn (p : Pool T E α) (i : Nat) : Option (Pool T E α) :=
  match p.clients.drop i with
  | c :: after => turnOf permits p.db p.log (p.clients.take i) after c
  | [] => none

/-- The turns of a schedule, one after the other. -/
def play : List Nat → Pool T E α → Option (Pool T E α)
  | [], p => some p
  | i :: rest, p => (p.turn permits i).bind (play rest)

section Others

variable {permits}

/-- A turn leaves the clients at other positions as they are. -/
theorem getElem?_of_turnOf {db : Tables T} {log : List (Writes T)}
    {before after : List (Client T E α)} {c : Client T E α} {p : Pool T E α} {j : Nat}
    (done : turnOf permits db log before after c = some p) (other : j ≠ before.length) :
    p.clients[j]? = (before ++ c :: after)[j]? := by
  have aside (x y : Client T E α) : (before ++ x :: after)[j]? = (before ++ y :: after)[j]? :=
    getElem?_middle_of_ne other x y
  have performing {s : Stmt T} {k : Resp s → Prog (Stmt T) Resp E α} {session : Session T}
      {found : Option (List (RowId T))}
      (done : performed permits db log before after s k session found = some p) :
      p.clients[j]? = (before ++ c :: after)[j]? := by
    unfold performed at done
    split at done
    split at done
    · cases done
      exact aside _ _
    · cases done
  obtain ⟨prog, session, found⟩ := c
  cases prog with
  | op s k =>
      cases found with
      | some found => exact performing done
      | none =>
          simp only [turnOf] at done
          split at done
          · cases done
            exact aside _ _
          · exact performing done
  | pure a =>
      cases found with
      | some found => cases done
      | none =>
          cases done
          exact aside _ _
  | raise e =>
      cases found with
      | some found => cases done
      | none =>
          cases done
          exact aside _ _

theorem getElem?_of_turn {p p' : Pool T E α} {i j : Nat} (done : p.turn permits i = some p')
    (other : j ≠ i) : p'.clients[j]? = p.clients[j]? := by
  unfold turn at done
  split at done
  · rename_i c after here
    have inside : i < p.clients.length := by
      refine Nat.lt_of_not_le fun beyond => ?_
      rw [List.drop_eq_nil_of_le beyond] at here
      cases here
    have length : (p.clients.take i).length = i := by
      rw [List.length_take, Nat.min_eq_left (Nat.le_of_lt inside)]
    rw [getElem?_of_turnOf done (length.symm ▸ other), ← here, List.take_append_drop]
  · cases done

/-- A schedule leaves the clients that it does not name as they are. -/
theorem getElem?_of_play {schedule : List Nat} {p p' : Pool T E α} {j : Nat}
    (done : play permits schedule p = some p') (others : j ∉ schedule) :
    p'.clients[j]? = p.clients[j]? := by
  induction schedule generalizing p with
  | nil =>
      cases done
      rfl
  | cons i rest ih =>
      obtain ⟨q, first, played⟩ := Option.bind_eq_some_iff.mp done
      rw [List.mem_cons, not_or] at others
      exact (ih played others.2).trans (getElem?_of_turn first others.1)

end Others

variable [CompleteSchema T] {permits : Pool T E α → Client T E α → List (Client T E α) → Stmt T → Bool}
  {allowed : Pool T E α → Client T E α → List (Client T E α) → Stmt T → Prop}
  (sound : ∀ p c others s, permits p c others s = true → allowed p c others s)

include sound

theorem step_of_performed {db : Tables T} {log : List (Writes T)}
    {before after : List (Client T E α)} {s : Stmt T} {k : Resp s → Prog (Stmt T) Resp E α}
    {session : Session T} {found : Option (List (RowId T))} {p : Pool T E α}
    (ready : (World.targets ⟨db, session⟩ s).isSome → found.isSome)
    (done : performed permits db log before after s k session found = some p) :
    Step allowed ⟨db, before ++ ⟨.op s k, session, found⟩ :: after, log⟩ p := by
  unfold performed at done
  cases answered : World.execOn (found.getD []) s ⟨db, session⟩ with
  | mk r w =>
      rw [answered] at done
      simp only at done
      split at done
      · rename_i checked
        obtain ⟨first, clear⟩ := Bool.and_eq_true_iff.mp checked
        obtain ⟨new, may⟩ := Bool.and_eq_true_iff.mp first
        cases done
        refine .perform ready (fun t make inserts => ?_) (sound _ _ _ _ may) answered fun o ho => ?_
        · subst inserts
          exact unused_of_isUnused new
        · exact clear_of_isClear (List.all_eq_true.mp clear o ho)
      · cases done

theorem step_of_turnOf {db : Tables T} {log : List (Writes T)}
    {before after : List (Client T E α)} {c : Client T E α} {p : Pool T E α}
    (done : turnOf permits db log before after c = some p) :
    Step allowed ⟨db, before ++ c :: after, log⟩ p := by
  obtain ⟨prog, session, found⟩ := c
  cases prog with
  | op s k =>
      cases found with
      | some found => exact step_of_performed sound (fun _ => rfl) done
      | none =>
          simp only [turnOf] at done
          cases looked : World.targets ⟨db, session⟩ s with
          | some found =>
              rw [looked] at done
              cases done
              exact .find looked
          | none =>
              rw [looked] at done
              refine step_of_performed sound (fun some => ?_) done
              rw [looked] at some
              cases some
  | pure a =>
      cases found with
      | some found => cases done
      | none =>
          cases done
          exact .leave trivial
  | raise e =>
      cases found with
      | some found => cases done
      | none =>
          cases done
          exact .leave trivial

theorem step_of_turn {p p' : Pool T E α} {i : Nat} (done : p.turn permits i = some p') :
    Step allowed p p' := by
  unfold turn at done
  split at done
  · rename_i c after here
    have whole : p.clients.take i ++ c :: after = p.clients := by
      rw [← here, List.take_append_drop]
    have step := step_of_turnOf sound done
    rw [whole] at step
    exact step
  · cases done

/-- What a schedule plays is a run. -/
theorem run_of_play {schedule : List Nat} {p p' : Pool T E α}
    (done : play permits schedule p = some p') : Run allowed p p' := by
  induction schedule generalizing p with
  | nil =>
      cases done
      exact .refl
  | cons i rest ih =>
      obtain ⟨q, first, played⟩ := Option.bind_eq_some_iff.mp done
      exact .head (step_of_turn sound first) (ih played)

end Pool

end EspressoLogs.Lib
