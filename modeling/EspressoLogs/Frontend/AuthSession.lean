import EspressoLogs.Lib.Along
import EspressoLogs.Lib.SingleFlight

/-!
The session in the browser: the client with its silent refresh, and the context that
components log in and out with.

Every continuation of an asynchronous function is a step of its own, and the steps come in
any order, so that every order in which promises are resolved is among the runs. It is
recorded when each call began, when a logout last cleared the session, if nobody has
logged in since, and how old the oldest call is whose result the token and the state were
set by. Loading another page ends a run.
-/

namespace EspressoLogs.Frontend

open Lib

/-! ### `client.ts` -/

/-- Why a request failed; `other` is no error of the client library. -/
inductive Failure where
  | other
  | noResponse
  | status (code : Nat)
  deriving DecidableEq, Repr

/-- How far a request has come: it waits for a response, or for the refresh of that number, or it
is resolved. -/
inductive RequestPhase where
  | sent
  | refreshing (refresh : Nat)
  | resolved (result : Except Failure Unit)
  deriving DecidableEq, Repr

/-- A request made with `apiClient`, and how often it was sent. -/
structure Request where
  url : String
  since : Nat
  retry : Bool
  sends : Nat
  phase : RequestPhase
  deriving DecidableEq, Repr

/-- `SKIP_REFRESH_PATHS`. -/
def skipRefreshPaths : List String :=
  ["/auth/login", "/auth/register", "/auth/refresh", "/auth/logout"]

/-- `shouldRetry`. -/
def Request.shouldRetry (r : Request) (e : Failure) : Bool :=
  e = .status 401 && !r.retry && !skipRefreshPaths.contains r.url

/-! ### `AuthContext.tsx` -/

inductive AuthState where
  | loading
  | authenticated
  | unauthenticated
  deriving DecidableEq, Repr

def maxRefreshAttempts : Nat := 3

def isRetryableRefreshError : Failure → Bool
  | .other => false
  | .noResponse => true
  | .status code => if code = 401 || code = 429 then false else 500 ≤ code && code ≤ 599

/-- What a call of `runRefresh` or `logout` waits for. -/
inductive ChainPhase where
  | refreshing (refresh : Nat)
  | gettingMe (request : Nat)
  | delayed
  | loggingOut (request : Nat)
  | finished
  deriving DecidableEq, Repr

/-- A call of `runRefresh` or `logout`. -/
structure Chain where
  since : Nat
  attempt : Nat
  /-- There is a flag for it that is set when the context is unmounted. -/
  cancellable : Bool
  cancelled : Bool
  phase : ChainPhase
  deriving DecidableEq, Repr

structure Session where
  /-- `_accessToken`. -/
  accessToken : Option String
  /-- The `accessToken` of the context. -/
  shownToken : Option String
  authState : AuthState
  refresh : SingleFlight (Except Failure String)
  requests : List Request
  chains : List Chain
  now : Nat
  clearedAt : Option Nat
  tokenFrom : Nat
  stateFrom : Nat

namespace Session

variable (σ : Session)

/-- A page that has been loaded. -/
def start : Session where
  accessToken := none
  shownToken := none
  authState := .loading
  refresh := .empty
  requests := []
  chains := []
  now := 0
  clearedAt := none
  tokenFrom := 0
  stateFrom := 0

/-- To make a request. -/
def send (url : String) : Session :=
  { σ with requests := σ.requests ++ [⟨url, σ.now, false, 1, .sent⟩] }

def setRequest (i : Nat) (r : Request) : Session := { σ with requests := σ.requests.set i r }

def setChain (j : Nat) (c : Chain) : Session := { σ with chains := σ.chains.set j c }

/-- `refreshAccessToken`, up to what it waits for. -/
def refreshAccessToken : Nat × Session :=
  let (i, refresh) := σ.refresh.join σ.now
  (i, { σ with refresh })

/-- A response to a request: the interceptor. -/
def respond (i : Nat) (r : Request) : Except Failure Unit → Session
  | .ok () => σ.setRequest i { r with phase := .resolved (.ok ()) }
  | .error e =>
      if r.shouldRetry e then
        let (k, σ) := σ.refreshAccessToken
        σ.setRequest i { r with retry := true, phase := .refreshing k }
      else
        σ.setRequest i { r with phase := .resolved (.error e) }

/-- The interceptor, with what came of the refresh that it waited for. -/
def resend (i : Nat) (r : Request) (since : Nat) : Except Failure String → Session
  | .ok token =>
      { σ with accessToken := some token, tokenFrom := min r.since since }.setRequest i
        { r with sends := r.sends + 1, phase := .sent }
  | .error _ =>
      { σ with accessToken := none }.setRequest i
        { r with phase := .resolved (.error (.status 401)) }

def clearAuthSession : Session :=
  { σ with shownToken := none, accessToken := none, authState := .unauthenticated }

/-- `runRefresh`, up to what it waits for. -/
def runRefresh (cancellable : Bool) : Session :=
  let (k, τ) := σ.refreshAccessToken
  { τ with chains := τ.chains ++ [⟨σ.now, 1, cancellable, false, .refreshing k⟩] }

/-- `runRefresh`, with what came of the refresh. -/
def refreshed (j : Nat) (c : Chain) (since : Nat) : Except Failure String → Session
  | .ok token =>
      if c.cancelled then
        σ.setChain j { c with phase := .finished }
      else
        let τ := { σ with
          shownToken := some token, accessToken := some token, tokenFrom := min c.since since }
        (τ.send "/auth/me").setChain j { c with phase := .gettingMe σ.requests.length }
  | .error e =>
      if c.cancelled then
        σ.setChain j { c with phase := .finished }
      else if !isRetryableRefreshError e || c.attempt = maxRefreshAttempts then
        σ.clearAuthSession.setChain j { c with phase := .finished }
      else
        σ.setChain j { c with phase := .delayed }

/-- `runRefresh`, with what came of `getMe`. -/
def gotMe (j : Nat) (c : Chain) : Except Failure Unit → Session
  | .ok () =>
      if c.cancelled then
        σ.setChain j { c with phase := .finished }
      else
        { σ with authState := .authenticated, stateFrom := c.since }.setChain j
          { c with phase := .finished }
  | .error _ =>
      if c.cancelled then
        σ.setChain j { c with phase := .finished }
      else
        σ.clearAuthSession.setChain j { c with phase := .finished }

/-- `runRefresh` after its delay. -/
def tryAgain (j : Nat) (c : Chain) : Session :=
  if c.cancelled then
    σ.setChain j { c with phase := .finished }
  else
    let (k, τ) := σ.refreshAccessToken
    τ.setChain j { c with attempt := c.attempt + 1, phase := .refreshing k }

/-- `logout`, up to what it waits for. -/
def logout : Session :=
  let τ := σ.send "/auth/logout"
  { τ with chains := τ.chains ++ [⟨σ.now, 0, false, false, .loggingOut σ.requests.length⟩] }

/-- `logout`, when its request is resolved, one way or the other. -/
def loggedOut (j : Nat) (c : Chain) : Session :=
  { σ.clearAuthSession with clearedAt := some σ.now }.setChain j { c with phase := .finished }

/-- `setAccessToken` of the context, with which a user logs in. -/
def setAccessToken : Option String → Session
  | some token =>
      { σ with
        shownToken := some token, accessToken := some token, authState := .authenticated,
        clearedAt := none, tokenFrom := σ.now, stateFrom := σ.now }
  | none => { σ with shownToken := none, accessToken := none, authState := .unauthenticated }

def attemptRefresh : Session :=
  let kept := σ.authState = AuthState.authenticated
  { σ with authState := if kept then .authenticated else .loading }.runRefresh false

/-- The context is unmounted. -/
def unmount : Session :=
  { σ with chains := σ.chains.map fun c => { c with cancelled := c.cancelled || c.cancellable } }

end Session

/-! ### Steps -/

/-- What happens next: a component calls something, a call is answered, or a function that waited
goes on. -/
inductive Event where
  | call (url : String)
  | mount
  | unmount
  | attemptRefresh
  | setAccessToken (token : Option String)
  | logout
  | respond (i : Nat) (result : Except Failure Unit)
  | answerRefresh (k : Nat) (result : Except Failure String)
  | settleRefresh (k : Nat)
  | resumeRequest (i : Nat)
  | resumeChain (j : Nat)
  | endDelay (j : Nat)
  deriving DecidableEq, Repr

/-- What a call of `runRefresh` or `logout` goes on with. -/
inductive Wake where
  | refreshed (since : Nat) (result : Except Failure String)
  | gotMe (result : Except Failure Unit)
  | loggedOut
  deriving DecidableEq, Repr

namespace Session

variable (σ : Session)

/-- A request that waits for a refresh that is settled, and what came of that. -/
def resumable (i : Nat) : Option (Request × Nat × Except Failure String) :=
  match σ.requests[i]? with
  | some r => match r.phase with
    | .refreshing k => (σ.refresh.result? k).map fun x => (r, x)
    | _ => none
  | none => none

/-- What came of a request. -/
def resolved (i : Nat) : Option (Except Failure Unit) :=
  match σ.requests[i]? with
  | some r => match r.phase with
    | .resolved result => some result
    | _ => none
  | none => none

/-- A call of `runRefresh` or `logout` that can go on, and with what. -/
def waking (j : Nat) : Option (Chain × Wake) :=
  match σ.chains[j]? with
  | some c => match c.phase with
    | .refreshing k => (σ.refresh.result? k).map fun x => (c, .refreshed x.1 x.2)
    | .gettingMe i => (σ.resolved i).map fun result => (c, .gotMe result)
    | .loggingOut i => (σ.resolved i).map fun _ => (c, .loggedOut)
    | _ => none
  | none => none

/-- The same step without the passing of time. -/
def act : Event → Session
  | .call url => σ.send url
  | .mount => σ.runRefresh true
  | .unmount => σ.unmount
  | .attemptRefresh => σ.attemptRefresh
  | .setAccessToken token => σ.setAccessToken token
  | .logout => σ.logout
  | .respond i result => match σ.requests[i]? with
    | some r => if r.phase = .sent then σ.respond i r result else σ
    | none => σ
  | .answerRefresh k result => { σ with refresh := σ.refresh.answer k result }
  | .settleRefresh k => { σ with refresh := σ.refresh.settle k }
  | .resumeRequest i => match σ.resumable i with
    | some (r, since, result) => σ.resend i r since result
    | none => σ
  | .resumeChain j => match σ.waking j with
    | some (c, .refreshed since result) => σ.refreshed j c since result
    | some (c, .gotMe result) => σ.gotMe j c result
    | some (c, .loggedOut) => σ.loggedOut j c
    | none => σ
  | .endDelay j => match σ.chains[j]? with
    | some c => if c.phase = .delayed then σ.tryAgain j c else σ
    | none => σ

def step (e : Event) : Session := { σ.act e with now := σ.now + 1 }

end Session

end EspressoLogs.Frontend
