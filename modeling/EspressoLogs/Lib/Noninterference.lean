import EspressoLogs.Lib.Tenancy

/-!
What a session acting for one owner can observe.

`Alike h` relates two worlds in the same session whose stores agree on the shared
tables and on the rows of `h`. A statement that reads answers alike in both and
keeps them alike, and so does a write to a shared table, as long as shared tables
refer to none that are secured. Writes to secured tables are left out: they are
checked against unique indexes and foreign keys, and these range over the rows of
everybody.
-/

namespace EspressoLogs.Lib

open Schema

variable {T : Type} [Schema T] {h : RowId T} {t : T} {E α : Type}

/-- Two worlds that a session acting for `h` cannot tell apart by reading. -/
structure Alike (h : RowId T) (w₁ w₂ : World T) : Prop where
  acts : w₁.session.ActsFor h
  session : w₁.session = w₂.session
  shared : ∀ t, secured t = false → w₁.db t = w₂.db t
  rows : ∀ t, secured t = true → own h t (w₁.db t) = own h t (w₂.db t)

variable (T) in
/-- The rows of shared tables refer to shared tables only. -/
def SharedApart : Prop :=
  ∀ (t : T) (r : Row t), secured t = false → ∀ ref ∈ parents t r, secured ref.1 = false

/-- A row of a shared table refers to shared tables only. -/
theorem SharedApart.referenced (apart : SharedApart T) (ht : secured t = false) (c : Change (Row t)) :
    ∀ ref ∈ referenced t c, secured ref.1 = false := by
  intro ref mem
  cases c with
  | ins r => exact apart t r ht ref mem
  | upd pairs =>
      obtain ⟨p, _, mem⟩ := List.mem_flatMap.mp mem
      exact apart t p.2 ht ref (List.mem_filter.mp mem).1
  | del gone => exact absurd mem List.not_mem_nil

/-- The statements whose answer tells `h` nothing about the others. -/
def Stmt.Sheltered (h : RowId T) : Stmt T → Prop
  | .setConfig value => value = h
  | .insert t _ | .update t _ _ | .delete t _ => secured t = false
  | .deleteCascade _ _ => False
  | _ => True

/-- A sheltered statement acts for its own household. -/
theorem Stmt.Sheltered.actsFor {s : Stmt T} (hs : s.Sheltered h) : s.ActsFor h := by
  cases s with
  | setConfig value => exact hs
  | deleteCascade t p => exact hs.elim
  | _ => trivial

theorem Stmt.Spares.sheltered {s : Stmt T} (hs : s.Spares) : s.Sheltered h := by
  cases s with
  | setConfig value => exact hs.elim
  | deleteCascade t p => exact hs
  | insert t make => exact hs
  | update t p set => exact hs
  | delete t p => exact hs
  | _ => trivial

namespace Alike

variable {w₁ w₂ : World T}

/-- Both worlds show the same rows of a shared table. -/
theorem shared_view (a : Alike h w₁ w₂) (ht : secured t = false) : w₁.view t = w₂.view t := by
  unfold World.view
  rw [a.session, a.shared t ht]

/-- Both show the household the same rows of its own. -/
theorem own_view (a : Alike h w₁ w₂) (ht : secured t = true) :
    own h t (w₁.view t) = own h t (w₂.view t) := by
  have acts₂ : w₂.session.ActsFor h := a.session ▸ a.acts
  unfold World.view
  rw [own_applyAll (a.acts.pending t ht), own_applyAll (acts₂.pending t ht), a.session,
    a.rows t ht]

/-- So a session of the household sees the same rows in both. -/
theorem visible (a : Alike h w₁ w₂) (t : T) : w₁.visible t = w₂.visible t := by
  cases ht : secured t with
  | false =>
      unfold World.visible
      rw [a.session, a.shared_view ht]
  | true =>
      have sight : ∀ w : World T, w.session = w₁.session →
          w.visible t = if w₁.session.context = none then [] else own h t (w.view t) := by
        intro w hw
        unfold World.visible
        rw [hw]
        rcases a.acts.context with hc | hc
        · rw [hc, if_pos rfl, List.filter_eq_nil_iff]
          intro r _
          simp [sees, ht]
        · rw [hc, if_neg (Option.some_ne_none h)]
          exact List.filter_congr fun r _ => by simp [sees, ht, beq_eq_decide]
      rw [sight w₁ rfl, sight w₂ a.session.symm, a.own_view ht]

theorem drew (a : Alike h w₁ w₂) : Alike h w₁.drew w₂.drew :=
  ⟨⟨a.acts.context, a.acts.pending⟩, by simp only [World.drew, a.session], a.shared, a.rows⟩

theorem advance (a : Alike h w₁ w₂) : Alike h w₁.advance w₂.advance :=
  ⟨⟨a.acts.context, a.acts.pending⟩, by simp only [World.advance, a.session], a.shared, a.rows⟩

theorem aborted (a : Alike h w₁ w₂) (e : StmtError) :
    Alike h (w₁.fail (α := α) e).2 (w₂.fail (α := α) e).2 :=
  ⟨.aborted, by simp only [World.fail, World.aborted, a.session], a.shared, a.rows⟩

/-- A write to a shared table is let in by both worlds, or refused alike. -/
theorem refused (a : Alike h w₁ w₂) (apart : SharedApart T) (ht : secured t = false)
    (c : Change (Row t)) : w₁.refused t c = w₂.refused t c := by
  have taken : w₁.taken t = w₂.taken t := by
    funext e
    unfold World.taken
    rw [a.shared_view ht]
  have stored : (referenced t c).all w₁.stored = (referenced t c).all w₂.stored := by
    rw [Bool.eq_iff_iff, List.all_eq_true, List.all_eq_true]
    refine forall₂_congr fun ref mem => ?_
    unfold World.stored
    rw [a.shared_view (apart.referenced ht c ref mem)]
  unfold World.refused
  rw [a.session, taken, stored]

/-- A write to a shared table ends alike in both. -/
theorem write (a : Alike h w₁ w₂) (apart : SharedApart T) (ht : secured t = false)
    (c : Change (Row t)) (answer : α) :
    (w₁.write t c answer).1 = (w₂.write t c answer).1 ∧
      Alike h (w₁.write t c answer).2 (w₂.write t c answer).2 := by
  have foreign : ∀ r ∈ c.olds, secured t = true → owner t r = some h := by
    intro r _ also
    rw [ht] at also
    cases also
  have acts := (World.write_actsFor a.acts foreign answer).1
  unfold World.write at acts ⊢
  rw [← a.refused apart ht c]
  cases verdict : w₁.refused t c with
  | some e => exact ⟨rfl, a.aborted e⟩
  | none =>
      rw [verdict] at acts
      exact ⟨rfl, acts, by simp only [World.pend, a.session], a.shared, a.rows⟩

/-- One statement answers alike, and leaves the worlds alike. -/
theorem perform {s : Stmt T} (apart : SharedApart T) (hs : s.Sheltered h) (a : Alike h w₁ w₂) :
    (World.perform s w₁).1 = (World.perform s w₂).1 ∧
      Alike h (World.perform s w₁).2 (World.perform s w₂).2 := by
  have acts := (World.perform_actsFor hs.actsFor a.acts).1
  cases s with
  | currentSetting => exact ⟨by simp only [World.perform, a.session], a⟩
  | setConfig value =>
      exact ⟨rfl, acts, by simp only [World.perform, World.withContext, a.session], a.shared, a.rows⟩
  | select t p => exact ⟨by simp only [World.perform, a.visible t], a⟩
  | join t u on p =>
      exact ⟨by simp only [World.perform, World.joined, a.visible t, a.visible u], a⟩
  | column t c => exact ⟨by simp only [World.perform, a.visible t], a⟩
  | insert t make =>
      have next : w₁.nextId = w₂.nextId := by simp only [World.nextId, a.session]
      simp only [World.perform, ← next]
      cases made : make w₁.nextId with
      | error e => exact ⟨rfl, a.aborted _⟩
      | ok r => exact a.drew.write apart hs _ r
  | update t p set =>
      simp only [World.perform, ← a.visible t]
      split
      · exact ⟨rfl, a.aborted _⟩
      · exact a.write apart hs _ _
  | delete t p =>
      simp only [World.perform, ← a.visible t]
      exact a.write apart hs _ _
  | deleteCascade t p => exact hs.elim
  | commit =>
      exact ⟨rfl, acts, by simp only [World.perform, World.committed, a.session],
        fun t ht => a.shared_view ht, fun t ht => a.own_view ht⟩
  | rollback =>
      exact ⟨rfl, acts, by simp only [World.perform, World.undone, a.session], a.shared, a.rows⟩

/-- One statement answers alike in worlds that are alike. -/
theorem exec {s : Stmt T} (apart : SharedApart T) (hs : s.Sheltered h) (a : Alike h w₁ w₂) :
    (World.exec s w₁).1 = (World.exec s w₂).1 ∧
      Alike h (World.exec s w₁).2 (World.exec s w₂).2 := by
  unfold World.exec
  split
  · exact a.perform apart hs
  · rw [← a.session]
    split
    · exact ⟨rfl, a⟩
    · split
      · exact ⟨rfl, a.advance.aborted _⟩
      · exact a.advance.perform apart hs

/-- A run has one result in worlds that are alike, and leaves them alike. -/
theorem run {p : Prog (Stmt T) Resp E α} (apart : SharedApart T) (hp : p.All (Stmt.Sheltered h))
    (a : Alike h w₁ w₂) : (p.run World.exec w₁).1 = (p.run World.exec w₂).1 ∧
      Alike h (p.run World.exec w₁).2 (p.run World.exec w₂).2 := by
  induction p generalizing w₁ w₂ with
  | pure x => exact ⟨rfl, a⟩
  | raise e => exact ⟨rfl, a⟩
  | op s k ih =>
      obtain ⟨answer, next⟩ := a.exec apart hp.1
      simp only [Prog.run, answer]
      exact ih _ (hp.2 _) next

end Alike

end EspressoLogs.Lib
