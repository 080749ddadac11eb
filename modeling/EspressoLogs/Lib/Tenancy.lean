import EspressoLogs.Lib.Store

/-!
Row-level security confines a session to one owner.

A session whose context is only ever unset or `h` writes nothing but rows of
`h`, whatever else goes wrong in it: the rows of the others, also those without
an owner, are the same list before and after (`run_others`). Cascades bypass
row-level security and are bound by what they follow instead (`TakesOnly`).
A program that spares the secured tables leaves them as they are (`run_spares`).
-/

namespace EspressoLogs.Lib

open Schema

section Tenancy

variable {T : Type} [Schema T] {h : RowId T} {t : T} {E α β : Type}

/-- The rows that belong to `h`. -/
def own (h : RowId T) (t : T) (rows : List (Row t)) : List (Row t) :=
  rows.filter fun r => owner t r = some h

/-- The rows that belong to others or to nobody. -/
def others (h : RowId T) (t : T) (rows : List (Row t)) : List (Row t) :=
  rows.filter fun r => owner t r ≠ some h

@[simp] theorem mem_own {rows : List (Row t)} {r : Row t} :
    r ∈ own h t rows ↔ r ∈ rows ∧ owner t r = some h := by
  simp [own]

@[simp] theorem mem_others {rows : List (Row t)} {r : Row t} :
    r ∈ others h t rows ↔ r ∈ rows ∧ owner t r ≠ some h := by
  simp [others]

/-! ### Changes to rows of one owner -/

/-- The write takes and puts rows of `h` only. -/
def Change.Of (h : RowId T) (t : T) (c : Change (Row t)) : Prop :=
  ∀ r, r ∈ c.news ∨ r ∈ c.olds → owner t r = some h

/-- A row that is rewritten in place keeps its owner. -/
theorem owner_rewritten {pairs : List (Row t × Row t)} (ho : (Change.upd pairs).Of h t)
    (r : Row t) :
    owner t ((pairs.lookup r).getD r) = some h ↔ owner t r = some h := by
  cases found : pairs.lookup r with
  | none => rfl
  | some n =>
      have new := ho n (.inl (Change.mem_news_of_lookup found))
      have old := ho r (.inr (Change.mem_olds_of_lookup found))
      exact ⟨fun _ => old, fun _ => new⟩

/-- A change of one household's rows leaves those of the others. -/
theorem others_apply {c : Change (Row t)} (ho : c.Of h t) (rows : List (Row t)) :
    others h t (c.apply rows) = others h t rows := by
  cases c with
  | ins r =>
      have new := ho r (.inl List.mem_cons_self)
      simp [others, Change.apply, new]
  | upd pairs =>
      induction rows with
      | nil => rfl
      | cons r rs ih =>
          have same := owner_rewritten ho r
          simp only [others, Change.apply, List.map_cons, List.filter_cons, decide_not,
            Bool.not_eq_true', decide_eq_false_iff_not] at ih ⊢
          by_cases hr : owner t r = some h
          · simp only [same.mpr hr, hr, not_true_eq_false, if_false]
            exact ih
          · have kept : pairs.lookup r = none := by
              cases found : pairs.lookup r with
              | none => rfl
              | some n => exact absurd (ho r (.inr (Change.mem_olds_of_lookup found))) hr
            simp only [kept, Option.getD_none, hr, not_false_eq_true, if_true]
            exact congrArg (r :: ·) ih
  | del gone =>
      simp only [others, Change.apply, List.filter_filter]
      refine List.filter_congr fun r _ => ?_
      by_cases hr : r ∈ gone
      · simp [ho r (.inr hr)]
      · simp [hr]

/-- On its own rows it does what it does on all of them. -/
theorem own_apply {c : Change (Row t)} (ho : c.Of h t) (rows : List (Row t)) :
    own h t (c.apply rows) = c.apply (own h t rows) := by
  cases c with
  | ins r =>
      have new := ho r (.inl List.mem_cons_self)
      simp [own, Change.apply, new]
  | upd pairs =>
      simp only [own, Change.apply, List.filter_map]
      congr 1
      refine List.filter_congr fun r _ => ?_
      have same := owner_rewritten ho r
      by_cases hr : owner t r = some h <;> simp [hr, same]
  | del gone =>
      simp only [own, Change.apply, List.filter_filter]
      exact List.filter_congr fun r _ => Bool.and_comm _ _

/-- The same for a transaction's changes. -/
theorem others_applyAll {cs : List (Change (Row t))} (ho : ∀ c ∈ cs, c.Of h t)
    (rows : List (Row t)) : others h t (Change.applyAll cs rows) = others h t rows := by
  induction cs generalizing rows with
  | nil => rfl
  | cons c cs ih =>
      have first := others_apply (ho c List.mem_cons_self) rows
      exact (ih (fun d hd => ho d (List.mem_cons_of_mem _ hd)) _).trans first

theorem own_applyAll {cs : List (Change (Row t))} (ho : ∀ c ∈ cs, c.Of h t)
    (rows : List (Row t)) :
    own h t (Change.applyAll cs rows) = Change.applyAll cs (own h t rows) := by
  induction cs generalizing rows with
  | nil => rfl
  | cons c cs ih =>
      have rest := ih (fun d hd => ho d (List.mem_cons_of_mem _ hd)) (c.apply rows)
      rw [own_apply (ho c List.mem_cons_self)] at rest
      exact rest

/-- The rows that an update replaces are those it matched. -/
theorem mem_olds_rewritten {set : Row t → Except StmtError (Row t)} {rows : List (Row t)}
    {r : Row t} : r ∈ (Change.upd (rewritten set rows)).olds ↔ r ∈ rows := by
  simp [Change.olds, rewritten]

/-! ### Confinement -/

/-- The rows of secured tables that reference `g` belong to `h` and go with it. -/
def TakesOnly (h : RowId T) (t : T) (g : Row t) : Prop :=
  ∀ u, secured u = true → ∀ r, (t, key t g) ∈ parents u r →
    owner u r = some h ∧ orphaned u r (t, key t g) = none

/-- The statements of a request that acts for `h`: it sets no other context and
deletes nothing that rows of others go with. -/
def Stmt.ActsFor (h : RowId T) : Stmt T → Prop
  | .setConfig value => value = h
  | .deleteCascade t p => ∀ g, p g = true → TakesOnly h t g
  | _ => True

/-- The session has acted for nobody but `h`. -/
structure Session.ActsFor (h : RowId T) (s : Session T) : Prop where
  context : s.context = none ∨ s.context = some h
  pending : ∀ t, secured t = true → ∀ c ∈ s.pending t, c.Of h t

theorem Session.ActsFor.ended {s : Session T} : s.ended.ActsFor h :=
  ⟨.inl rfl, fun _ _ _ hc => nomatch hc⟩

theorem Session.ActsFor.aborted {s : Session T} : s.aborted.ActsFor h :=
  ⟨.inl rfl, fun _ _ _ hc => nomatch hc⟩

/-- A row that a session acting for `h` may see on a secured table is one of `h`. -/
theorem owner_of_sees {context : Option (RowId T)} (hc : context = none ∨ context = some h)
    (ht : secured t = true) {r : Row t} (hr : sees context t r = true) : owner t r = some h := by
  rcases hc with rfl | rfl
  · simp [sees, ht] at hr
  · simpa [sees, ht] using hr

/-- What a session of the household sees under the policies is the household's. -/
theorem owner_of_mem_visible {w : World T} (hw : w.session.ActsFor h) (ht : secured t = true)
    {r : Row t} (hr : r ∈ w.visible t) : owner t r = some h :=
  owner_of_sees hw.context ht (List.mem_filter.mp hr).2

/-- In the context of `h` the visible rows of a secured table are those of `h`. -/
theorem visible_eq_own {w : World T} (hc : w.session.context = some h) (ht : secured t = true) :
    w.visible t = own h t (w.view t) := by
  unfold World.visible own
  refine List.filter_congr fun r _ => ?_
  simp only [sees, ht, hc, Bool.not_true, Bool.false_or, Option.isSome_some, Bool.true_and]
  exact beq_eq_decide _ _

/-- The rows a session acting for `h` has pending leave the others' rows alone. -/
theorem others_view {w : World T} (hw : w.session.ActsFor h) (ht : secured t = true) :
    others h t (w.view t) = others h t (w.db t) :=
  others_applyAll (hw.pending t ht) _

namespace World

/-- A write that is performed only puts rows that row-level security lets through. -/
theorem sees_news {w : World T} {c : Change (Row t)} (hn : w.refused t c = none) :
    ∀ r ∈ c.news, sees w.session.context t r = true := by
  unfold refused at hn
  split at hn
  · cases hn
  · rename_i all
    simpa using all

theorem write_actsFor {w : World T} (hw : w.session.ActsFor h) {c : Change (Row t)}
    (olds : ∀ r ∈ c.olds, secured t = true → owner t r = some h) (answer : α) :
    (w.write t c answer).2.session.ActsFor h ∧ (w.write t c answer).2.db = w.db := by
  unfold write
  cases verdict : w.refused t c with
  | some e => exact ⟨.aborted, rfl⟩
  | none =>
      refine ⟨⟨hw.context, fun u hu d hd => ?_⟩, rfl⟩
      by_cases hut : u = t
      · subst hut
        simp only [pend, Session.add, Function.update_self, List.mem_append, List.mem_singleton] at hd
        rcases hd with hd | rfl
        · exact hw.pending u hu d hd
        · rintro r (hr | hr)
          · exact owner_of_sees hw.context hu (sees_news verdict r hr)
          · exact olds r hr hu
      · simp only [pend, Session.add, Function.update_of_ne hut] at hd
        exact hw.pending u hu d hd

/-- What a delete takes with it is of the household, where its rows are. -/
theorem cascaded_takesOnly {w : World T} {gone : List (Row t)}
    (takes : ∀ g ∈ gone, TakesOnly h t g) {u : T} (hu : secured u = true) :
    (Change.del (w.cascaded t gone u)).Of h u := by
  rintro r (hr | hr)
  · cases hr
  · obtain ⟨_, matched⟩ := List.mem_filter.mp hr
    obtain ⟨g, hg, child⟩ := List.any_eq_true.mp matched
    exact (takes g hg u hu r (of_decide_eq_true child).1).1

/-- And it unlinks no row under the policies. -/
theorem unlinked_takesOnly {w : World T} {gone : List (Row t)}
    (takes : ∀ g ∈ gone, TakesOnly h t g) {u : T} (hu : secured u = true) :
    w.unlinked t gone u = [] := by
  refine List.flatMap_eq_nil_iff.mpr fun r _ => List.filterMap_eq_nil_iff.mpr fun g hg => ?_
  obtain ⟨mem, child⟩ := List.mem_filter.mp hg
  rw [(takes g mem u hu r (of_decide_eq_true child)).2]
  rfl

/-- A cascade removes what goes along, and nothing else of a secured table. -/
theorem view_cascade {w : World T} {gone : List (Row t)}
    (takes : ∀ g ∈ gone, TakesOnly h t g) {u : T} (hu : secured u = true) :
    (w.cascade t gone).view u = (w.view u).filter fun r => r ∉ w.cascaded t gone u := by
  simp only [view, cascade, Change.applyAll_append, unlinked_takesOnly takes hu]
  exact Change.apply_upd_nil _

/-- A delete takes along rows of `h` only, when its rows take only those. -/
theorem performDelete_actsFor {w : World T} (hw : w.session.ActsFor h) {g : List (Row t)}
    (owned : ∀ r ∈ g, secured t = true → owner t r = some h)
    (takes : ∀ r ∈ g, TakesOnly h t r) :
    (w.performDelete t g).2.session.ActsFor h ∧ (w.performDelete t g).2.db = w.db := by
  unfold performDelete
  simp only
  split
  · exact ⟨.aborted, rfl⟩
  · refine ⟨⟨hw.context, fun u hu d hd => ?_⟩, rfl⟩
    simp only [cascade, List.mem_append, List.mem_cons, List.not_mem_nil, or_false] at hd
    rcases hd with hd | rfl | rfl
    · by_cases hut : u = t
      · subst hut
        simp only [pend, Session.add, Function.update_self, List.mem_append, List.mem_singleton] at hd
        rcases hd with hd | rfl
        · exact hw.pending u hu d hd
        · rintro r (hr | hr)
          · cases hr
          · exact owned r hr hu
      · simp only [pend, Session.add, Function.update_of_ne hut] at hd
        exact hw.pending u hu d hd
    · exact cascaded_takesOnly takes hu
    · rw [unlinked_takesOnly takes hu]
      rintro r (hr | hr) <;> cases hr

/-- One statement of a request acting for `h` leaves the rows of the others. -/
theorem perform_actsFor {s : Stmt T} (hs : s.ActsFor h) {w : World T}
    (hw : w.session.ActsFor h) :
    (perform s w).2.session.ActsFor h ∧
      ∀ t, secured t = true → others h t ((perform s w).2.db t) = others h t (w.db t) := by
  have visible : ∀ {t : T} {p : Row t → Bool} {r : Row t}, r ∈ (w.visible t).filter p →
      secured t = true → owner t r = some h := fun hr ht =>
    owner_of_mem_visible hw ht (List.mem_filter.mp hr).1
  cases s with
  | currentSetting => exact ⟨hw, fun _ _ => rfl⟩
  | setConfig value => exact ⟨⟨.inr (congrArg some hs), hw.pending⟩, fun _ _ => rfl⟩
  | select t p => exact ⟨hw, fun _ _ => rfl⟩
  | join t u on p => exact ⟨hw, fun _ _ => rfl⟩
  | column t c => exact ⟨hw, fun _ _ => rfl⟩
  | insert t make =>
      simp only [perform]
      cases make w.nextId with
      | error e => exact ⟨.aborted, fun _ _ => rfl⟩
      | ok r =>
          have drew : w.drew.session.ActsFor h := ⟨hw.context, hw.pending⟩
          obtain ⟨acts, db⟩ := write_actsFor (c := .ins r) drew (fun _ hr => absurd hr List.not_mem_nil) r
          exact ⟨acts, fun u _ => congrArg (fun d => others h u (d u)) db⟩
  | update t p set =>
      simp only [perform]
      split
      · exact ⟨.aborted, fun _ _ => rfl⟩
      · obtain ⟨acts, db⟩ := write_actsFor hw
          (c := .upd (rewritten set ((w.visible t).filter p)))
          (fun r hr ht => visible (mem_olds_rewritten.mp hr) ht)
          ((rewritten set ((w.visible t).filter p)).map Prod.snd)
        exact ⟨acts, fun u _ => congrArg (fun d => others h u (d u)) db⟩
  | delete t p =>
      obtain ⟨acts, db⟩ := write_actsFor hw (c := .del ((w.visible t).filter p))
        (fun r hr ht => visible hr ht) ((w.visible t).filter p)
      exact ⟨acts, fun u _ => congrArg (fun d => others h u (d u)) db⟩
  | deleteCascade t p =>
      obtain ⟨acts, db⟩ := performDelete_actsFor hw
        (g := (w.visible t).filter p) (fun r hr ht => visible hr ht)
          (fun g hg => hs g (List.mem_filter.mp hg).2)
      exact ⟨acts, fun u _ => congrArg (fun d => others h u (d u)) db⟩
  | commit => exact ⟨.ended, fun t ht => others_view hw ht⟩
  | rollback => exact ⟨.ended, fun _ _ => rfl⟩

theorem advance_actsFor {w : World T} (hw : w.session.ActsFor h) :
    w.advance.session.ActsFor h :=
  ⟨hw.context, hw.pending⟩

/-- One statement for the household: the session goes on acting for it, and the rows of
the others stay. -/
theorem exec_actsFor {s : Stmt T} (hs : s.ActsFor h) {w : World T} (hw : w.session.ActsFor h) :
    (exec s w).2.session.ActsFor h ∧
      ∀ t, secured t = true → others h t ((exec s w).2.db t) = others h t (w.db t) := by
  unfold exec
  split
  · exact perform_actsFor hs hw
  · split
    · exact ⟨hw, fun _ _ => rfl⟩
    · split
      · exact ⟨.aborted, fun _ _ => rfl⟩
      · exact perform_actsFor hs (advance_actsFor hw)

end World

/-- Confinement: after any run of a request acting for `h`, whatever its
statements answered, the rows of the others are the same list as before. -/
theorem run_others {p : Prog (Stmt T) Resp E α} (hp : p.All (Stmt.ActsFor h)) {w : World T}
    (hw : w.session.ActsFor h) (t : T) (ht : secured t = true) :
    others h t ((p.run World.exec w).2.db t) = others h t (w.db t) := by
  have kept := hp.run_invariant World.exec
    (I := fun v => v.session.ActsFor h ∧
      ∀ t, secured t = true → others h t (v.db t) = others h t (w.db t))
    (fun s v hs hv => by
      obtain ⟨acts, same⟩ := World.exec_actsFor hs hv.1
      exact ⟨acts, fun t ht => (same t ht).trans (hv.2 t ht)⟩)
    (w := w) ⟨hw, fun _ _ => rfl⟩
  exact kept.2 t ht

/-! ### Tables that a program leaves alone -/

/-- The statement writes no table of `A`. -/
def Stmt.Leaves (A : T → Prop) : Stmt T → Prop
  | .insert t _ | .update t _ _ | .delete t _ => ¬ A t
  | .deleteCascade _ _ => False
  | _ => True

/-- The rows of the tables of `A`, committed or pending, go from one world to
the next without a write to them: they stay, or a transaction ends. -/
inductive Unwritten (A : T → Prop) (w w' : World T) : Prop where
  | stays (db : ∀ t, A t → w'.db t = w.db t) (view : ∀ t, A t → w'.view t = w.view t)
  | committed (db : ∀ t, A t → w'.db t = w.view t) (view : ∀ t, A t → w'.view t = w.view t)
  | dropped (db : ∀ t, A t → w'.db t = w.db t) (view : ∀ t, A t → w'.view t = w.db t)

variable {A : T → Prop}

theorem Unwritten.of_same {v w w' : World T} (h : Unwritten A v w') (db : v.db = w.db)
    (pending : v.session.pending = w.session.pending) : Unwritten A w w' := by
  have view : v.view = w.view := by
    funext t
    simp only [World.view, db, pending]
  cases h with
  | stays db' view' => exact .stays (db ▸ db') (view ▸ view')
  | committed db' view' => exact .committed (view ▸ db') (view ▸ view')
  | dropped db' view' => exact .dropped (db ▸ db') (db ▸ view')

namespace World

theorem write_unwritten (w : World T) (ht : ¬ A t) (c : Change (Row t)) (answer : α) :
    Unwritten A w (w.write t c answer).2 := by
  unfold write
  cases w.refused t c with
  | some e => exact .dropped (fun _ _ => rfl) fun _ _ => rfl
  | none =>
      refine .stays (fun _ _ => rfl) fun u hu => ?_
      have hut : u ≠ t := by
        rintro rfl
        exact ht hu
      exact pend_view_of_ne w c hut

/-- A statement that leaves a table alone has nothing pending on it. -/
theorem perform_unwritten {s : Stmt T} (hs : s.Leaves A) (w : World T) :
    Unwritten A w (perform s w).2 := by
  cases s with
  | deleteCascade t p => exact hs.elim
  | insert t make =>
      simp only [perform]
      cases make w.nextId with
      | error e => exact .dropped (fun _ _ => rfl) fun _ _ => rfl
      | ok r => exact (write_unwritten w.drew hs (.ins r) r).of_same rfl rfl
  | update t p set =>
      simp only [perform]
      split
      · exact .dropped (fun _ _ => rfl) fun _ _ => rfl
      · exact write_unwritten w hs _ _
  | delete t p => exact write_unwritten w hs _ _
  | commit => exact .committed (fun _ _ => rfl) fun _ _ => rfl
  | rollback => exact .dropped (fun _ _ => rfl) fun _ _ => rfl
  | _ => exact .stays (fun _ _ => rfl) fun _ _ => rfl

/-- Faults do not write either. -/
theorem exec_unwritten {s : Stmt T} (hs : s.Leaves A) (w : World T) :
    Unwritten A w (exec s w).2 := by
  unfold exec
  split
  · exact perform_unwritten hs w
  · split
    · exact .stays (fun _ _ => rfl) fun _ _ => rfl
    · split
      · exact .dropped (fun _ _ => rfl) fun _ _ => rfl
      · exact (perform_unwritten hs w.advance).of_same rfl rfl

end World

/-! ### Programs that spare the secured tables -/

/-- The statement is about no secured table and sets no context. -/
def Stmt.Spares : Stmt T → Prop
  | .select t _ | .column t _ | .insert t _ | .update t _ _ | .delete t _ => secured t = false
  | .join t u _ _ => secured t = false ∧ secured u = false
  | .setConfig _ | .deleteCascade _ _ => False
  | .currentSetting | .commit | .rollback => True

theorem Stmt.Spares.leaves {s : Stmt T} (hs : s.Spares) :
    s.Leaves fun t => secured t = true := by
  cases s with
  | insert t make => exact Bool.eq_false_iff.mp hs
  | update t p set => exact Bool.eq_false_iff.mp hs
  | delete t p => exact Bool.eq_false_iff.mp hs
  | setConfig value => exact hs.elim
  | deleteCascade t p => exact hs.elim
  | _ => trivial

/-- Nothing is pending on a secured table, and there is no context. -/
structure Session.Spared (s : Session T) : Prop where
  context : s.context = none
  pending : ∀ t, secured t = true → s.pending t = []

theorem Session.Spared.aborted {s : Session T} : s.aborted.Spared := ⟨rfl, fun _ _ => rfl⟩

/-- A session that has not touched tenant rows acts for any household. -/
theorem Session.Spared.actsFor {s : Session T} (hs : s.Spared) (h : RowId T) : s.ActsFor h :=
  ⟨.inl hs.context, fun t ht c hc => by rw [hs.pending t ht] at hc; cases hc⟩

namespace World

theorem write_spared {w : World T} (hw : w.session.Spared) (ht : secured t = false)
    (c : Change (Row t)) (answer : α) :
    (w.write t c answer).2.session.Spared ∧ (w.write t c answer).2.db = w.db := by
  unfold write
  cases w.refused t c with
  | some e => exact ⟨.aborted, rfl⟩
  | none =>
      refine ⟨⟨hw.context, fun u hu => ?_⟩, rfl⟩
      have hut : u ≠ t := by
        rintro rfl
        rw [ht] at hu
        cases hu
      simp only [pend, Session.add, Function.update_of_ne hut]
      exact hw.pending u hu

/-- A statement that spares the tenant rows leaves them in the database. -/
theorem perform_spares {s : Stmt T} (hs : s.Spares) {w : World T} (hw : w.session.Spared) :
    (perform s w).2.session.Spared ∧
      ∀ t, secured t = true → (perform s w).2.db t = w.db t := by
  cases s with
  | setConfig value => exact hs.elim
  | deleteCascade t p => exact hs.elim
  | insert t make =>
      simp only [perform]
      cases make w.nextId with
      | error e => exact ⟨.aborted, fun _ _ => rfl⟩
      | ok r =>
          have drew : w.drew.session.Spared := ⟨hw.context, hw.pending⟩
          obtain ⟨spared, db⟩ := write_spared drew hs (.ins r) r
          exact ⟨spared, fun u _ => congrFun db u⟩
  | update t p set =>
      simp only [perform]
      split
      · exact ⟨.aborted, fun _ _ => rfl⟩
      · obtain ⟨spared, db⟩ := write_spared hw hs (.upd (rewritten set ((w.visible t).filter p)))
          ((rewritten set ((w.visible t).filter p)).map Prod.snd)
        exact ⟨spared, fun u _ => congrFun db u⟩
  | delete t p =>
      obtain ⟨spared, db⟩ := write_spared hw hs (.del ((w.visible t).filter p))
        ((w.visible t).filter p)
      exact ⟨spared, fun u _ => congrFun db u⟩
  | commit =>
      refine ⟨⟨rfl, fun _ _ => rfl⟩, fun t ht => ?_⟩
      simp only [perform, committed_db, view, hw.pending t ht, Change.applyAll_nil]
  | rollback => exact ⟨⟨rfl, fun _ _ => rfl⟩, fun _ _ => rfl⟩
  | _ => exact ⟨hw, fun _ _ => rfl⟩

/-- The same with the faults. -/
theorem exec_spares {s : Stmt T} (hs : s.Spares) {w : World T} (hw : w.session.Spared) :
    (exec s w).2.session.Spared ∧ ∀ t, secured t = true → (exec s w).2.db t = w.db t := by
  unfold exec
  split
  · exact perform_spares hs hw
  · split
    · exact ⟨hw, fun _ _ => rfl⟩
    · split
      · exact ⟨.aborted, fun _ _ => rfl⟩
      · exact perform_spares (w := w.advance) hs ⟨hw.context, hw.pending⟩

end World

/-- A program that spares the secured tables leaves them as they were, and a
session that could act for anybody. -/
theorem run_spares {p : Prog (Stmt T) Resp E α} (hp : p.All Stmt.Spares) {w : World T}
    (hw : w.session.Spared) :
    (p.run World.exec w).2.session.Spared ∧
      ∀ t, secured t = true → (p.run World.exec w).2.db t = w.db t :=
  hp.run_invariant World.exec
    (I := fun v => v.session.Spared ∧ ∀ t, secured t = true → v.db t = w.db t)
    (fun s v hs hv => by
      obtain ⟨spared, same⟩ := World.exec_spares hs hv.1
      exact ⟨spared, fun t ht => (same t ht).trans (hv.2 t ht)⟩)
    ⟨hw, fun _ _ => rfl⟩

end Tenancy

end EspressoLogs.Lib
