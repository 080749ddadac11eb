import EspressoLogs.Frontend.AuthSession

/-!
What logging out in the browser is worth.

In every run at most one refresh is under way and each request is resent at most once. That
the session stays cleared after a logout (`LogoutFinal`) nothing in the client sees to: it
holds exactly in the runs in which no call that began before the session was cleared is
given a success after it (`Careful`).
-/

namespace EspressoLogs.Frontend

open Lib

/-! ### The properties -/

/-- No two refreshes are under way at once. -/
def AtMostOneRefresh (σ : Session) : Prop :=
  ∀ k k', σ.refresh.Sent k → σ.refresh.Sent k' → k = k'

/-- No request is sent more than twice. -/
def ResentOnce (σ : Session) : Prop := ∀ r ∈ σ.requests, r.sends ≤ 2

/-- As long as nobody has logged in since a logout cleared the session, a token comes from calls
that began after that, and so does that the user is authenticated. -/
def LogoutFinal (σ : Session) : Prop :=
  ∀ c, σ.clearedAt = some c →
    (σ.accessToken ≠ none → c < σ.tokenFrom) ∧ (σ.authState = .authenticated → c < σ.stateFrom)

/-- A success that a call waited for which is not cancelled comes, after the session was cleared,
only to calls that began after that, and from a refresh that did. -/
def Careful (σ : Session) : Event → Prop
  | .resumeRequest i => ∀ c r since token, σ.clearedAt = some c →
      σ.resumable i = some (r, since, .ok token) → c < min r.since since
  | .resumeChain j => ∀ c x, σ.clearedAt = some c → x.cancelled = false →
      (∀ since token, σ.waking j = some (x, .refreshed since (.ok token)) → c < min x.since since) ∧
      (σ.waking j = some (x, .gotMe (.ok ())) → c < x.since)
  | _ => True

/-! ### Refreshes and requests -/

/-- A request that was not tried again was sent once, and one that waits for a refresh too. -/
def Request.Sound (r : Request) : Prop :=
  match r.phase with
  | .refreshing _ => r.retry = true ∧ r.sends ≤ 1
  | _ => r.sends ≤ if r.retry then 2 else 1

/-- What is known of a request bounds how often it was sent. -/
theorem Request.Sound.bounded {r : Request} (sound : r.Sound) : r.sends ≤ 2 := by
  unfold Request.Sound at sound
  split at sound
  · omega
  · split at sound <;> omega

/-- What the invariant says of the refreshes and the requests. -/
structure Session.Sound (σ : Session) : Prop where
  shared : σ.refresh.Shared
  requests : ∀ r ∈ σ.requests, r.Sound

namespace Session

variable {σ : Session}

theorem sound_start : start.Sound where
  shared := SingleFlight.shared_empty
  requests r mem := by cases mem

/-- Nothing else matters. -/
theorem Sound.same {τ : Session} (sound : σ.Sound) (flights : τ.refresh = σ.refresh := by rfl)
    (requests : τ.requests = σ.requests := by rfl) : τ.Sound where
  shared := flights ▸ sound.shared
  requests := requests ▸ sound.requests

theorem Sound.send (sound : σ.Sound) (url : String) : (σ.send url).Sound where
  shared := sound.shared
  requests r mem := by
    rcases List.mem_append.mp mem with old | new
    · exact sound.requests r old
    · rw [List.mem_singleton.mp new]
      exact Nat.le_refl 1

theorem Sound.setRequest (sound : σ.Sound) {i : Nat} {r : Request} (ok : r.Sound) :
    (σ.setRequest i r).Sound where
  shared := sound.shared
  requests x mem := by
    rcases List.mem_or_eq_of_mem_set mem with old | rfl
    · exact sound.requests x old
    · exact ok

/-- A refresh joins the one under way, if there is one. -/
theorem Sound.refreshAccessToken (sound : σ.Sound) : σ.refreshAccessToken.2.Sound where
  shared := sound.shared.join σ.now
  requests := sound.requests

theorem Sound.respond (sound : σ.Sound) {i : Nat} {r : Request} (found : σ.requests[i]? = some r)
    (sent : r.phase = .sent) (result : Except Failure Unit) : (σ.respond i r result).Sound := by
  have ok : r.sends ≤ if r.retry then 2 else 1 := by
    have of := sound.requests r (List.mem_of_getElem? found)
    unfold Request.Sound at of
    rw [sent] at of
    exact of
  unfold Session.respond
  split
  · exact sound.setRequest ok
  · split
    · rename_i retry
      have first : r.retry = false := by
        unfold Request.shouldRetry at retry
        cases again : r.retry with
        | false => rfl
        | true => simp [again] at retry
      rw [first] at ok
      exact sound.refreshAccessToken.setRequest ⟨rfl, ok⟩
    · exact sound.setRequest ok

/-- A request is resent once, and never after that. -/
theorem Sound.resend (sound : σ.Sound) {i since : Nat} {r : Request}
    {result : Except Failure String} (found : σ.resumable i = some (r, since, result)) :
    (σ.resend i r since result).Sound := by
  have waits : r ∈ σ.requests ∧ ∃ k, r.phase = .refreshing k := by
    unfold resumable at found
    split at found
    · rename_i r' here
      split at found
      · rename_i k phase
        obtain ⟨x, -, eq⟩ := Option.map_eq_some_iff.mp found
        cases eq
        exact ⟨List.mem_of_getElem? here, k, phase⟩
      · cases found
    · cases found
  obtain ⟨mem, k, phase⟩ := waits
  have ok := sound.requests r mem
  unfold Request.Sound at ok
  rw [phase] at ok
  obtain ⟨retry, once⟩ := ok
  unfold Session.resend
  split
  · refine Sound.setRequest sound.same ?_
    simp only [Request.Sound, retry, if_true]
    omega
  · refine Sound.setRequest sound.same ?_
    simp only [Request.Sound, retry, if_true]
    omega

theorem Sound.setChain (sound : σ.Sound) (j : Nat) (c : Chain) : (σ.setChain j c).Sound :=
  ⟨sound.shared, sound.requests⟩

/-- A timer or a mount starts a chain, which joins the refresh under way. -/
theorem Sound.runRefresh (sound : σ.Sound) (cancellable : Bool) :
    (σ.runRefresh cancellable).Sound :=
  ⟨sound.refreshAccessToken.shared, sound.requests⟩

theorem Sound.refreshed (sound : σ.Sound) (j : Nat) (c : Chain) (since : Nat)
    (result : Except Failure String) : (σ.refreshed j c since result).Sound := by
  unfold Session.refreshed
  split
  · split
    · exact sound.setChain j _
    · exact Sound.setChain (Sound.send sound.same "/auth/me") j _
  · split
    · exact sound.setChain j _
    · split
      · exact Sound.setChain sound.same j _
      · exact sound.setChain j _

theorem Sound.gotMe (sound : σ.Sound) (j : Nat) (c : Chain) (result : Except Failure Unit) :
    (σ.gotMe j c result).Sound := by
  unfold Session.gotMe
  split <;> split <;> exact sound.same

theorem Sound.tryAgain (sound : σ.Sound) (j : Nat) (c : Chain) : (σ.tryAgain j c).Sound := by
  unfold Session.tryAgain
  split
  · exact sound.setChain j _
  · exact sound.refreshAccessToken.setChain j _

/-- Every event keeps the session sound: one case for each. -/
theorem Sound.act (sound : σ.Sound) (e : Event) : (σ.act e).Sound := by
  cases e with
  | call url => exact sound.send url
  | mount => exact sound.runRefresh true
  | unmount => exact sound.same
  | attemptRefresh => exact Sound.runRefresh sound.same false
  | setAccessToken token =>
      cases token with
      | none => exact sound.same
      | some token => exact sound.same
  | logout => exact ⟨sound.shared, (sound.send "/auth/logout").requests⟩
  | respond i result =>
      unfold Session.act
      simp only
      split
      · rename_i r found
        split
        · rename_i sent
          exact sound.respond found sent result
        · exact sound
      · exact sound
  | answerRefresh k result => exact ⟨sound.shared.answer k result, sound.requests⟩
  | settleRefresh k => exact ⟨sound.shared.settle k, sound.requests⟩
  | resumeRequest i =>
      unfold Session.act
      simp only
      split
      · rename_i r since result found
        exact sound.resend found
      · exact sound
  | resumeChain j =>
      unfold Session.act
      simp only
      split
      · exact sound.refreshed j _ _ _
      · exact sound.gotMe j _ _
      · exact sound.same
      · exact sound
  | endDelay j =>
      unfold Session.act
      simp only
      split
      · split
        · exact sound.tryAgain j _
        · exact sound
      · exact sound

/-- Time passes, and the event is handled. -/
theorem Sound.step (sound : σ.Sound) (e : Event) : (σ.step e).Sound :=
  ⟨(sound.act e).shared, (sound.act e).requests⟩

end Session

/-! ### Sessions that were cleared -/

section

variable {σ τ : Session}

/-- What the property is about. -/
def Session.login (σ : Session) : Option Nat × Option String × Nat × AuthState × Nat :=
  (σ.clearedAt, σ.accessToken, σ.tokenFrom, σ.authState, σ.stateFrom)

/-- Whether a logout is final depends on what the login shows alone. -/
theorem logoutFinal_congr (same : τ.login = σ.login) : LogoutFinal τ ↔ LogoutFinal σ := by
  obtain ⟨cleared, token, tokenFrom, state, stateFrom⟩ :
      τ.clearedAt = σ.clearedAt ∧ τ.accessToken = σ.accessToken ∧ τ.tokenFrom = σ.tokenFrom ∧
        τ.authState = σ.authState ∧ τ.stateFrom = σ.stateFrom := by
    simpa only [Session.login, Prod.mk.injEq] using same
  unfold LogoutFinal
  rw [cleared, token, tokenFrom, state, stateFrom]

/-- A session that is cleared is as a logout leaves it. -/
theorem logoutFinal_of_cleared (token : τ.accessToken = none)
    (state : τ.authState = .unauthenticated) : LogoutFinal τ := by
  intro c _
  refine ⟨fun some => absurd token some, fun authenticated => ?_⟩
  cases state.symm.trans authenticated

/-- A new token. -/
theorem logoutFinal_token {token : String} (final : LogoutFinal σ)
    (cleared : τ.clearedAt = σ.clearedAt) (written : τ.accessToken = some token)
    (state : τ.authState = σ.authState) (stateFrom : τ.stateFrom = σ.stateFrom) :
    LogoutFinal τ ↔ ∀ c, σ.clearedAt = some c → c < τ.tokenFrom := by
  constructor
  · intro after c eq
    refine (after c (cleared.trans eq)).1 ?_
    rw [written]
    exact Option.some_ne_none token
  · intro new c eq
    refine ⟨fun _ => new c (cleared.symm.trans eq), fun authenticated => ?_⟩
    rw [stateFrom]
    exact (final c (cleared.symm.trans eq)).2 (state.symm.trans authenticated)

/-- To be authenticated. -/
theorem logoutFinal_state (final : LogoutFinal σ) (cleared : τ.clearedAt = σ.clearedAt)
    (token : τ.accessToken = σ.accessToken) (tokenFrom : τ.tokenFrom = σ.tokenFrom)
    (written : τ.authState = .authenticated) :
    LogoutFinal τ ↔ ∀ c, σ.clearedAt = some c → c < τ.stateFrom := by
  constructor
  · intro after c eq
    exact (after c (cleared.trans eq)).2 written
  · intro new c eq
    refine ⟨fun some => ?_, fun _ => new c (cleared.symm.trans eq)⟩
    rw [tokenFrom]
    exact (final c (cleared.symm.trans eq)).1 (token ▸ some)

/-- An answer of the API does not change the login. -/
theorem login_respond (i : Nat) (r : Request) (result : Except Failure Unit) :
    (σ.respond i r result).login = σ.login := by
  unfold Session.respond
  split
  · rfl
  · split <;> rfl

theorem login_tryAgain (j : Nat) (c : Chain) : (σ.tryAgain j c).login = σ.login := by
  unfold Session.tryAgain
  split <;> rfl

/-- The interceptor, with what came of the refresh. -/
theorem final_resend (final : LogoutFinal σ) {i since : Nat} {r : Request}
    {result : Except Failure String} :
    LogoutFinal (σ.resend i r since result) ↔
      ∀ c token, σ.clearedAt = some c → result = .ok token → c < min r.since since := by
  cases result with
  | ok token =>
      refine (@logoutFinal_token _ _ token final (by rfl) (by rfl) (by rfl) (by rfl)).trans ?_
      constructor
      · intro new c token' cleared _
        exact new c cleared
      · intro new c cleared
        exact new c token cleared rfl
  | error e =>
      constructor
      · intro _ c token _ eq
        cases eq
      · intro _ c cleared
        exact ⟨fun some => absurd rfl some, (final c cleared).2⟩

/-- `runRefresh`, with what came of the refresh. -/
theorem final_refreshed (final : LogoutFinal σ) {j since : Nat} {x : Chain}
    {result : Except Failure String} :
    LogoutFinal (σ.refreshed j x since result) ↔
      ∀ c token, σ.clearedAt = some c → x.cancelled = false → result = .ok token →
        c < min x.since since := by
  cases result with
  | ok token =>
      unfold Session.refreshed
      cases cancelled : x.cancelled with
      | true =>
          simp only [if_true]
          constructor
          · intro _ c token _ not
            cases not
          · intro _
            exact (logoutFinal_congr rfl).mpr final
      | false =>
          simp only [Bool.false_eq_true, if_false]
          refine (@logoutFinal_token _ _ token final (by rfl) (by rfl) (by rfl) (by rfl)).trans ?_
          constructor
          · intro new c token' cleared _ _
            exact new c cleared
          · intro new c cleared
            exact new c token cleared trivial rfl
  | error e =>
      have kept : LogoutFinal (σ.refreshed j x since (.error e)) := by
        unfold Session.refreshed
        simp only
        split
        · exact (logoutFinal_congr rfl).mpr final
        · split
          · exact logoutFinal_of_cleared rfl rfl
          · exact (logoutFinal_congr rfl).mpr final
      constructor
      · intro _ c token _ _ eq
        cases eq
      · intro _
        exact kept

/-- `runRefresh`, with what came of `getMe`. -/
theorem final_gotMe (final : LogoutFinal σ) {j : Nat} {x : Chain} {result : Except Failure Unit} :
    LogoutFinal (σ.gotMe j x result) ↔
      ∀ c, σ.clearedAt = some c → x.cancelled = false → result = .ok () → c < x.since := by
  cases result with
  | ok u =>
      unfold Session.gotMe
      cases cancelled : x.cancelled with
      | true =>
          simp only [if_true]
          constructor
          · intro _ c _ not
            cases not
          · intro _
            exact (logoutFinal_congr rfl).mpr final
      | false =>
          simp only [Bool.false_eq_true, if_false]
          refine (logoutFinal_state final (by rfl) (by rfl) (by rfl) (by rfl)).trans ?_
          constructor
          · intro new c cleared _ _
            exact new c cleared
          · intro new c cleared
            exact new c cleared trivial trivial
  | error e =>
      have kept : LogoutFinal (σ.gotMe j x (.error e)) := by
        unfold Session.gotMe
        simp only
        split
        · exact (logoutFinal_congr rfl).mpr final
        · exact logoutFinal_of_cleared rfl rfl
      constructor
      · intro _ c _ _ eq
        cases eq
      · intro _
        exact kept

/-- A step keeps the session cleared just when it is careful. -/
theorem final_act (final : LogoutFinal σ) (e : Event) : Careful σ e ↔ LogoutFinal (σ.act e) := by
  have idle : ∀ {P : Prop} {τ : Session}, τ.login = σ.login → P → (P ↔ LogoutFinal τ) :=
    fun same holds => ⟨fun _ => (logoutFinal_congr same).mpr final, fun _ => holds⟩
  -- the events that touch the login are those with a case of their own: a new token, an
  -- answer to a refresh, and what waits for one
  cases e with
  | call url => exact idle rfl trivial
  | mount => exact idle rfl trivial
  | unmount => exact idle rfl trivial
  | logout => exact idle rfl trivial
  | answerRefresh k result => exact idle rfl trivial
  | settleRefresh k => exact idle rfl trivial
  | attemptRefresh =>
      refine ⟨fun _ c cleared => ⟨(final c cleared).1, fun authenticated => ?_⟩, fun _ => trivial⟩
      refine (final c cleared).2 ?_
      by_cases kept : σ.authState = .authenticated
      · exact kept
      · have loading : (σ.act .attemptRefresh).authState = .loading := if_neg kept
        cases loading.symm.trans authenticated
  | setAccessToken token =>
      refine ⟨fun _ => ?_, fun _ => trivial⟩
      cases token with
      | none => exact logoutFinal_of_cleared rfl rfl
      | some token =>
          -- setting a token forgets the logout, so that nothing is left to keep
          intro c cleared
          cases cleared
  | respond i result =>
      refine idle ?_ trivial
      unfold Session.act
      simp only
      split
      · split
        · exact login_respond i _ result
        · rfl
      · rfl
  | endDelay j =>
      refine idle ?_ trivial
      unfold Session.act
      simp only
      split
      · split
        · exact login_tryAgain j _
        · rfl
      · rfl
  | resumeRequest i =>
      unfold Careful Session.act
      simp only
      -- a request goes on only if its refresh was answered with a token
      cases waits : σ.resumable i with
      | none =>
          refine idle rfl ?_
          intro c r since token _ not
          cases not
      | some x =>
          obtain ⟨r, since, result⟩ := x
          refine Iff.trans ?_ (final_resend final).symm
          constructor
          · intro careful c token cleared eq
            exact careful c r since token cleared (by rw [eq])
          · intro new c r' since' token cleared eq
            cases eq
            exact new c token cleared rfl
  | resumeChain j =>
      unfold Careful Session.act
      simp only
      cases goes : σ.waking j with
      | none =>
          refine idle rfl ?_
          intro c x _ _
          constructor
          · intro since token not
            cases not
          · intro not
            cases not
      | some y =>
          obtain ⟨x, wake⟩ := y
          cases wake with
          | refreshed since result =>
              refine Iff.trans ?_ (final_refreshed final).symm
              constructor
              · intro careful c token cleared going eq
                exact (careful c x cleared going).1 since token (by rw [eq])
              · intro new c x' cleared going
                constructor
                · intro since' token eq
                  cases eq
                  exact new c token cleared going rfl
                · intro not
                  cases not
          | gotMe result =>
              refine Iff.trans ?_ (final_gotMe final).symm
              constructor
              · intro careful c cleared going eq
                exact (careful c x cleared going).2 (by rw [eq])
              · intro new c x' cleared going
                constructor
                · intro since token not
                  cases not
                · intro eq
                  cases eq
                  exact new c cleared going rfl
          | loggedOut =>
              refine ⟨fun _ => logoutFinal_of_cleared rfl rfl, ?_⟩
              intro _ c x' _ _
              constructor
              · intro since token not
                cases not
              · intro not
                cases not

/-- A step keeps a logout final if and only if it is a careful one. -/
theorem final_step (final : LogoutFinal σ) (e : Event) : Careful σ e ↔ LogoutFinal (σ.step e) :=
  (final_act final e).trans (logoutFinal_congr rfl)

end

/-- In every run from a page that was loaded, at most one refresh is under way and each
request is resent at most once; and the session stays cleared just when every step is
careful. A step that is not hands the success of a call that began before the logout to
somebody who waits for it and is not cancelled. -/
theorem logout_final_iff (run : List Event) :
    Always Session.step (fun σ => AtMostOneRefresh σ ∧ ResentOnce σ) .start run ∧
      (Always Session.step (fun σ => AtMostOneRefresh σ ∧ ResentOnce σ ∧ LogoutFinal σ) .start run ↔
        Along Session.step Careful .start run) := by
  have init : LogoutFinal .start := by
    intro c cleared
    cases cleared
  -- soundness holds in every state of every run, so that only the last clause needs the
  -- condition
  have sound : Always Session.step Session.Sound .start run :=
    .of_invariant Session.sound_start (fun _ e sound => sound.step e) run
  have always : Along Session.step Careful .start run ↔
      Always Session.step LogoutFinal .start run :=
    Along.iff_always Session.sound_start init (fun _ e sound => sound.step e)
      fun _ e _ final => final_step final e
  have calls : Always Session.step (fun σ => AtMostOneRefresh σ ∧ ResentOnce σ) .start run :=
    sound.imp fun _ h => ⟨fun _ _ => h.shared.sent_unique, fun r mem => (h.requests r mem).bounded⟩
  refine ⟨calls, ?_⟩
  constructor
  · intro holds
    exact always.mpr (holds.imp fun _ h => h.2.2)
  · intro careful
    exact (calls.and (always.mp careful)).imp fun _ h => ⟨h.1.1, h.1.2, h.2⟩

namespace Sample

/-- A user is signed in when a request is refused, so that a refresh is on its way. The user logs
out, and only then the refresh is answered. -/
def late : List Event :=
  [.mount, .answerRefresh 0 (.ok "first"), .settleRefresh 0, .resumeChain 0, .respond 0 (.ok ()),
    .resumeChain 0, .call "/api/brew-log", .respond 1 (.error (.status 401)), .logout,
    .respond 2 (.ok ()), .resumeChain 1, .answerRefresh 1 (.ok "second"), .settleRefresh 1,
    .resumeRequest 1]

/-- With the late answer there is a token again. -/
theorem late_token :
    ¬ Always Session.step (fun σ => AtMostOneRefresh σ ∧ ResentOnce σ ∧ LogoutFinal σ) .start
      late := by
  intro holds
  have final := holds.last.2.2
  have token : (late.foldl Session.step .start).accessToken = some "second" := by decide
  have older : 10 < (late.foldl Session.step .start).tokenFrom :=
    (final 10 (by decide)).1 (by rw [token]; exact Option.some_ne_none _)
  exact absurd older (by decide)

end Sample

end EspressoLogs.Frontend
