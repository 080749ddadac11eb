import EspressoLogs.Api
import EspressoLogs.Lib.Turns
import EspressoLogs.Services.IdempotencyStore

/-!
How long responses to `POST /api/brew-log` stay in the cache, and for whom.

The endpoint is modelled as what it does with the cache; whatever else it awaits
may be answered in any way. Requests take turns at the lock, and the clock never
goes back.
-/

namespace EspressoLogs.IdempotencyStore

open Lib Py

/-! ### The endpoint -/

/-- What a request awaits: the two methods of the cache, the look for a stored
shot with its key, and the write with its handlers and the feedback. -/
inductive Stmt where
  | checkAndSetSentinel (key : String)
  | store (key : String) (response : BrewLogEntryOut)
  | existing (key requestHash : String)
  | write (body : BrewLogCreateBody) (shotDate : Date) (idempotency : Option (String × String))

def Stmt.Resp : Stmt → Type
  | checkAndSetSentinel _ => Option BrewLogEntryOut
  | store _ _ => Unit
  | existing _ _ => Except Exc (Option Response)
  | write _ _ _ => Except Exc (Except Response BrewLogEntryOut)

abbrev CreateM := Prog Stmt Stmt.Resp Exc

def perform (s : Stmt) : CreateM s.Resp := .op s .pure

def ofExcept {α : Type} : Except Exc α → CreateM α
  | .ok a => pure a
  | .error e => throw e

/-- The part after the checks for a replay. -/
def writeShot (body : BrewLogCreateBody) (shotDate : Date)
    (idempotency : Option (String × String)) : CreateM Response := do
  match ← ofExcept (← perform (.write body shotDate idempotency)) with
  | .error replaced => return replaced
  | .ok shotOut =>
      match idempotency with
      | some (key, _) =>
          perform (.store key shotOut)
          return ⟨201, .shot shotOut⟩
      | none => return ⟨201, .shot shotOut⟩

/-- `api_brew_log_create`. -/
def apiBrewLogCreate (env : Env) (usePostgres : Bool) (body : BrewLogCreateBody) :
    CreateM Response := do
  let shotDate ← ofExcept (shotDateOf env body)
  match normaliseIdempotencyKey body.idempotencyKey with
  | none => writeShot body shotDate none
  | some key =>
      let requestHash := idempotencyRequestHash env body shotDate
      if usePostgres then
        match ← ofExcept (← perform (.existing key requestHash)) with
        | some existing => return existing
        | none => writeShot body shotDate (some (key, requestHash))
      else
        match ← perform (.checkAndSetSentinel key) with
        | some cached => return ⟨200, .shot cached⟩
        | none => writeShot body shotDate (some (key, requestHash))

/-! ### Runs -/

/-- What has happened to the keys. -/
inductive Event where
  /-- The key was received while nothing was known of it. -/
  | opened (key : String) (time : ℚ)
  | stored (key : String) (response : BrewLogEntryOut)
  /-- A cached response was returned. -/
  | replayed (key : String) (response : BrewLogEntryOut) (time : ℚ)
  deriving DecidableEq

/-- The process: its cache, what its clock read last, and what has happened, the
last first. -/
structure Process where
  cache : Cache BrewLogEntryOut
  now : ℚ
  history : List Event

/-- A process that has just started. -/
def Process.fresh (now : ℚ) : Process := ⟨.empty, now, []⟩

/-- What is remembered of a request: its key, and when it began. -/
structure Received where
  key : Option String
  began : ℚ

abbrev Request := Job Stmt Stmt.Resp Exc Received Response

/-- What a check adds to the history. -/
def checked (key : String) (now later : ℚ) (cache : Cache BrewLogEntryOut) : List Event :=
  match (checkAndSetSentinel defaultTtlSeconds key now later cache).1 with
  | some response => [.replayed key response now]
  | none =>
      match (evictExpired defaultTtlSeconds now cache).get key with
      | some _ => []
      | none => [.opened key later]

/-- What a statement may be answered, and what it leaves. -/
def Answers : (s : Stmt) → Process → s.Resp → Process → Prop
  | .checkAndSetSentinel key, p, r, p' => ∃ now later, p.now ≤ now ∧ now ≤ later ∧
      (r, p'.cache) = checkAndSetSentinel defaultTtlSeconds key now later p.cache ∧
        p'.now = later ∧ p'.history = checked key now later p.cache ++ p.history
  | .store key response, p, _, p' => ∃ now, p.now ≤ now ∧
      p' = ⟨store key response now p.cache, now, .stored key response :: p.history⟩
  | .existing _ _, p, _, p' => p' = p
  | .write _ _ _, p, _, p' => p' = p

/-- A request begins, in whichever mode, on whatever day. -/
def Begins (p : Process) (received : Received) (prog : CreateM Response) (p' : Process) : Prop :=
  ∃ env usePostgres body, received.key = normaliseIdempotencyKey body.idempotencyKey ∧
    p.now ≤ received.began ∧ prog = apiBrewLogCreate env usePostgres body ∧
      p' = { p with now := received.began }

/-! ### What is asked of the cache -/

/-- After a request with a key, no entry is older than the TTL when it began. -/
def Retained (σ : Process × List Request) : Prop :=
  ∀ request ∈ σ.2, request.Over → request.label.key ≠ none →
    ∀ x ∈ σ.1.cache.entries, request.label.began - defaultTtlSeconds ≤ x.2.ts

/-- When the key was received first, since nothing was known of it. -/
def firstReceipt (key : String) : List Event → Option ℚ
  | [] => none
  | .opened k time :: earlier => if k = key then some time else firstReceipt key earlier
  | .stored _ _ :: earlier => firstReceipt key earlier
  | .replayed _ _ _ :: earlier => firstReceipt key earlier

/-- What is returned from the cache was stored under the key, which was received
first no longer than the TTL before. -/
def Honest (history : List Event) : Prop :=
  ∀ later key response time earlier, history = later ++ .replayed key response time :: earlier →
    .stored key response ∈ earlier ∧
      ∃ first, firstReceipt key earlier = some first ∧ time ≤ first + defaultTtlSeconds

/-! ### When it holds -/

/-- A request with a key checks it: in Sheets mode, with a date that is accepted. -/
def BeginsChecked (p : Process) (received : Received) (prog : CreateM Response) (p' : Process) :
    Prop :=
  ∃ env usePostgres body, received.key = normaliseIdempotencyKey body.idempotencyKey ∧
    p.now ≤ received.began ∧ prog = apiBrewLogCreate env usePostgres body ∧
      p' = { p with now := received.began } ∧
        (received.key ≠ none → usePostgres = false ∧ ∃ d, shotDateOf env body = .ok d)

/-- When a response is stored, the entry of its key is still there. -/
def AnswersInTime (s : Stmt) (p : Process) (r : s.Resp) (p' : Process) : Prop :=
  Answers s p r p' ∧ ∀ key response, s = .store key response → p.cache.get key ≠ none

/-! ### One turn -/

/-- No entry is older than the TTL was at a time. -/
def Swept (time : ℚ) (p : Process) : Prop :=
  ∀ x ∈ p.cache.entries, time - defaultTtlSeconds ≤ x.2.ts

theorem swept_iff {time : ℚ} {p : Process} : Swept time p ↔
    ∀ key entry, p.cache.get key = some entry → time - defaultTtlSeconds ≤ entry.ts := by
  constructor
  · intro swept key entry there
    exact swept _ (Ordered.get_eq_some_iff.mp there)
  · intro all x hx
    exact all x.1 x.2 (Ordered.get_eq_some_iff.mpr hx)

/-- The entries bear the time of the first receipt of their key, and complete ones
what was stored under it. -/
structure Sound (p : Process) : Prop where
  dated : ∀ key entry, p.cache.get key = some entry →
    firstReceipt key p.history = some entry.ts
  stored : ∀ key entry, p.cache.get key = some entry → entry.inFlight = false →
    ∃ response, entry.response = some response ∧ .stored key response ∈ p.history
  honest : Honest p.history

theorem ttl_nonneg : 0 ≤ defaultTtlSeconds := by
  unfold defaultTtlSeconds
  norm_num

theorem Honest.cons {history : List Event} {event : Event} (honest : Honest history)
    (new : ∀ key response time, event = .replayed key response time →
      .stored key response ∈ history ∧
        ∃ first, firstReceipt key history = some first ∧ time ≤ first + defaultTtlSeconds) :
    Honest (event :: history) := by
  intro later key response time earlier split
  cases later with
  | nil =>
      obtain ⟨rfl, rfl⟩ := List.cons.inj split
      exact new key response time rfl
  | cons _ later =>
      obtain ⟨rfl, rfl⟩ := List.cons.inj split
      exact honest later key response time earlier rfl

section Turn

variable {p p' : Process} {key : String}

/-- A check leaves no expired entry, and keeps the state sound. -/
theorem Sound.check {r : Option BrewLogEntryOut} (sound : Sound p)
    (answered : Answers (.checkAndSetSentinel key) p r p') :
    Sound p' ∧ p.now ≤ p'.now ∧ ∀ time ≤ p.now, Swept time p' := by
  obtain ⟨now, later, notBefore, inOrder, outcome, clock, history⟩ := answered
  obtain ⟨rfl, cache⟩ := Prod.mk.inj outcome
  have ttl := ttl_nonneg
  -- an entry behind the call was there before and has not expired, or is the new sentinel
  have left : ∀ k entry, p'.cache.get k = some entry →
      (evictExpired defaultTtlSeconds now p.cache).get k = some entry ∨
        (k = key ∧ (evictExpired defaultTtlSeconds now p.cache).get key = none ∧
          entry = ⟨none, later, true⟩) := by
    intro k entry there
    rw [cache] at there
    exact get_checked there
  -- a receipt is noted for a new key only
  have told : ∀ k, (k ≠ key ∨ (evictExpired defaultTtlSeconds now p.cache).get key ≠ none) →
      firstReceipt k p'.history = firstReceipt k p.history := by
    intro k other
    rw [history, checked]
    split
    · rfl
    · split
      · rfl
      · rename_i absent
        rcases other with other | known
        · exact if_neg fun same => other same.symm
        · exact absurd absent known
  have kept : ∀ event ∈ p.history, event ∈ p'.history := by
    intro event there
    rw [history]
    exact List.mem_append_right _ there
  refine ⟨⟨fun k entry there => ?_, fun k entry there complete => ?_, ?_⟩, ?_, fun time past => ?_⟩
  · rcases left k entry there with old | ⟨rfl, absent, rfl⟩
    · have known : k ≠ key ∨ (evictExpired defaultTtlSeconds now p.cache).get key ≠ none := by
        by_cases same : k = key
        · subst same
          right
          rw [old]
          exact Option.some_ne_none _
        · exact .inl same
      rw [told k known]
      exact sound.dated k entry (get_evictExpired.mp old).1
    · rw [history, checked, answer_of_absent absent, absent]
      exact if_pos rfl
  · rcases left k entry there with old | ⟨rfl, absent, rfl⟩
    · obtain ⟨response, inside, event⟩ := sound.stored k entry (get_evictExpired.mp old).1 complete
      exact ⟨response, inside, kept _ event⟩
    · cases complete
  · rw [history, checked]
    split
    · rename_i response answered
      refine sound.honest.cons fun key' response' time' eq => ?_
      cases eq
      obtain ⟨entry, unexpired, complete, inside⟩ := exists_of_answer answered
      obtain ⟨there, fresh⟩ := get_evictExpired.mp unexpired
      obtain ⟨response', inside', event⟩ := sound.stored key entry there complete
      obtain rfl : response = response' := Option.some.inj (inside.symm.trans inside')
      exact ⟨event, entry.ts, sound.dated key entry there, by linarith⟩
    · split
      · exact sound.honest
      · exact sound.honest.cons fun _ _ _ eq => absurd eq Event.noConfusion
  · rw [clock]
    exact notBefore.trans inOrder
  · refine swept_iff.mpr fun k entry there => ?_
    rcases left k entry there with old | ⟨-, -, rfl⟩
    · have fresh := (get_evictExpired.mp old).2
      linarith
    · show time - defaultTtlSeconds ≤ later
      linarith

/-- A response that replaces an entry bears its time. -/
theorem Sound.store {response : BrewLogEntryOut} (sound : Sound p)
    (there : p.cache.get key ≠ none) (answered : Answers (.store key response) p () p') :
    Sound p' ∧ p.now ≤ p'.now ∧ ∀ time, Swept time p → Swept time p' := by
  obtain ⟨now, notBefore, rfl⟩ := answered
  obtain ⟨old, found⟩ := Option.ne_none_iff_exists'.mp there
  have left : ∀ k entry, (IdempotencyStore.store key response now p.cache).get k = some entry →
      (k ≠ key ∧ p.cache.get k = some entry) ∨
        (k = key ∧ entry = ⟨some response, old.ts, false⟩) := by
    intro k entry got
    rcases get_store got with other | ⟨same, eq⟩
    · exact .inl other
    · rw [found] at eq
      exact .inr ⟨same, eq⟩
  refine ⟨⟨fun k entry got => ?_, fun k entry got complete => ?_, ?_⟩, notBefore, fun time swept => ?_⟩
  · rcases left k entry got with ⟨-, same⟩ | ⟨rfl, rfl⟩
    · exact sound.dated k entry same
    · exact sound.dated k old found
  · rcases left k entry got with ⟨-, same⟩ | ⟨rfl, rfl⟩
    · obtain ⟨response', inside, event⟩ := sound.stored k entry same complete
      exact ⟨response', inside, List.mem_cons_of_mem _ event⟩
    · exact ⟨response, rfl, List.mem_cons_self⟩
  · exact sound.honest.cons fun _ _ _ eq => absurd eq Event.noConfusion
  · refine swept_iff.mpr fun k entry got => ?_
    rcases left k entry got with ⟨-, same⟩ | ⟨rfl, rfl⟩
    · exact swept_iff.mp swept k entry same
    · exact swept_iff.mp swept k old found

end Turn

/-! ### All turns -/

/-- In Sheets mode, a request with a key and a date that is accepted checks the key
before anything else. -/
theorem apiBrewLogCreate_checks {env : Env} {body : BrewLogCreateBody} {shotDate : Date}
    {key : String} (dated : shotDateOf env body = .ok shotDate)
    (keyed : normaliseIdempotencyKey body.idempotencyKey = some key) :
    apiBrewLogCreate env false body = .op (.checkAndSetSentinel key) fun
      | some cached => .pure ⟨200, .shot cached⟩
      | none => writeShot body shotDate
          (some (key, idempotencyRequestHash env body shotDate)) := by
  simp only [apiBrewLogCreate, dated, ofExcept, keyed, Prog.pure_eq, Prog.bind_pure_left, perform,
    Prog.bind_op, Bool.false_eq_true, if_false]

/-- In Postgres mode, it looks for a stored shot instead. -/
theorem apiBrewLogCreate_looks {env : Env} {body : BrewLogCreateBody} {shotDate : Date}
    {key : String} (dated : shotDateOf env body = .ok shotDate)
    (keyed : normaliseIdempotencyKey body.idempotencyKey = some key) :
    apiBrewLogCreate env true body =
      .op (.existing key (idempotencyRequestHash env body shotDate)) fun found =>
        ofExcept found >>= fun
          | some existing => .pure existing
          | none => writeShot body shotDate
              (some (key, idempotencyRequestHash env body shotDate)) := by
  simp only [apiBrewLogCreate, dated, ofExcept, keyed, Prog.pure_eq, Prog.bind_pure_left, perform,
    Prog.bind_op, if_true]

/-- A request that began in the past, and has yet to check its key unless the
cache was swept since. -/
def Kept (p : Process) (request : Request) : Prop :=
  request.label.began ≤ p.now ∧ (request.label.key ≠ none →
    (∃ key k, request.prog = .op (.checkAndSetSentinel key) k) ∨ Swept request.label.began p)

theorem begins_kept {p p' : Process} {received : Received} {prog : CreateM Response}
    (sound : Sound p) (begun : BeginsChecked p received prog p') :
    Sound p' ∧ Kept p' ⟨received, prog⟩ ∧ ∀ request, Kept p request → Kept p' request := by
  obtain ⟨env, usePostgres, body, key, notBefore, rfl, rfl, checks⟩ := begun
  refine ⟨⟨sound.dated, sound.stored, sound.honest⟩, ⟨le_rfl, fun keyed => .inl ?_⟩,
    fun request ⟨began, kept⟩ => ⟨began.trans notBefore, kept⟩⟩
  obtain ⟨rfl, d, dated⟩ := checks keyed
  obtain ⟨k, found⟩ := Option.ne_none_iff_exists'.mp keyed
  exact ⟨k, _, apiBrewLogCreate_checks dated (key ▸ found)⟩

theorem performs_kept {p p' : Process} {received : Received} {s : Stmt}
    {k : s.Resp → CreateM Response} {r : s.Resp} (sound : Sound p)
    (own : Kept p ⟨received, .op s k⟩) (answered : AnswersInTime s p r p') :
    Sound p' ∧ Kept p' ⟨received, k r⟩ ∧ ∀ request, Kept p request → Kept p' request := by
  obtain ⟨answered, inTime⟩ := answered
  cases s with
  | checkAndSetSentinel key =>
      obtain ⟨sound', later, swept⟩ := sound.check answered
      exact ⟨sound', ⟨own.1.trans later, fun _ => .inr (swept _ own.1)⟩,
        fun request ⟨began, _⟩ => ⟨began.trans later, fun _ => .inr (swept _ began)⟩⟩
  | store key response =>
      obtain ⟨sound', later, swept⟩ := sound.store (inTime key response rfl) answered
      have still : ∀ request, Kept p request → request.label.key ≠ none →
          Swept request.label.began p' ∨
            ∃ key k, request.prog = .op (.checkAndSetSentinel key) k := by
        rintro request ⟨_, kept⟩ keyed
        rcases kept keyed with unchecked | since
        · exact .inr unchecked
        · exact .inl (swept _ since)
      refine ⟨sound', ⟨own.1.trans later, fun keyed => ?_⟩, fun request kept =>
        ⟨kept.1.trans later, fun keyed => (still request kept keyed).symm⟩⟩
      rcases still _ own keyed with since | ⟨key', k', same⟩
      · exact .inr since
      · exact absurd same (by simp)
  | existing key requestHash =>
      obtain rfl : p' = p := answered
      refine ⟨sound, ⟨own.1, fun keyed => ?_⟩, fun _ => id⟩
      rcases own.2 keyed with ⟨key', k', same⟩ | since
      · exact absurd same (by simp)
      · exact .inr since
  | write body shotDate idempotency =>
      obtain rfl : p' = p := answered
      refine ⟨sound, ⟨own.1, fun keyed => ?_⟩, fun _ => id⟩
      rcases own.2 keyed with ⟨key', k', same⟩ | since
      · exact absurd same (by simp)
      · exact .inr since

theorem Sound.fresh (now : ℚ) : Sound (.fresh now) where
  dated _ _ there := absurd there (by simp [Process.fresh])
  stored _ _ there := absurd there (by simp [Process.fresh])
  honest := by
    intro later key response time earlier split
    exact absurd split (by simp [Process.fresh])

/-- Where every keyed request checks its key, and no entry expires between its check and
its response, no entry outlives the TTL by more than the requests do, and nothing is
returned from the cache under another key or too late. It is the check that sweeps
expired entries: a request that never gets to it, with Postgres or with a date that is
refused, leaves them where they are. -/
theorem cache_retains {now : ℚ} {σ : Process × List Request}
    (turns : Turns BeginsChecked AnswersInTime (.fresh now, []) σ) :
    Retained σ ∧ Honest σ.1.history := by
  have kept : Sound σ.1 ∧ ∀ request ∈ σ.2, Kept σ.1 request :=
    turns.keeps (fun sound begun => begins_kept sound begun)
      (fun sound own answered => performs_kept sound own answered)
      ⟨.fresh now, fun _ there => absurd there List.not_mem_nil⟩
  refine ⟨fun request there done keyed => ?_, kept.1.honest⟩
  rcases (kept.2 request there).2 keyed with ⟨key, k, unchecked⟩ | swept
  · exact absurd unchecked (done _ k)
  · exact swept

/-! ### Two requests an hour apart -/

namespace Sample

open EspressoLogs.Sample (env day)

def body (key : String) : BrewLogCreateBody where
  bagId := "BAG001"
  machineId := ""
  grinderId := ""
  basketId := ""
  doseInG := .fin 18
  yieldOutG := .fin 36
  timeSec := .fin 30
  grindSetting := ""
  shotEligibility := ""
  tasteSummary := ""
  userNotes := ""
  storageMethod := ""
  shotDate := none
  idempotencyKey := some key

def shotOut : BrewLogEntryOut where
  shotId := "SHOT-1"
  date := "2026-01-02"
  bagDisplay := "BAG001"
  roastLevel := none
  machineName := none
  grinderName := none
  basketName := none
  storageMethod := none
  doseInG := some (.fin 18)
  yieldOutG := some (.fin 36)
  timeSec := some (.fin 30)
  grindSetting := none
  shotEligibility := none
  tasteSummary := none
  userNotes := none
  aiFeedback := none

theorem keyed_first : normaliseIdempotencyKey (body "first").idempotencyKey = some "first" := by
  decide +kernel

theorem keyed_second : normaliseIdempotencyKey (body "second").idempotencyKey = some "second" := by
  decide +kernel

/-- The answer of a request that made a shot. -/
def made : CreateM Response := .pure ⟨201, .shot shotOut⟩

/-- In Postgres mode, a shot with a key, and an hour later another one: the first
response is still there. -/
def hourLater : Process × List Request :=
  (⟨store "second" shotOut 3600 (store "first" shotOut 0 .empty), 3600,
      [.stored "second" shotOut, .stored "first" shotOut]⟩,
    [⟨⟨some "second", 3600⟩, made⟩, ⟨⟨some "first", 0⟩, made⟩])

/-- A shot that is made in Postgres mode. -/
theorem makes (p : Process) (jobs : List Request) {key : String} {time : ℚ}
    (keyed : normaliseIdempotencyKey (body key).idempotencyKey = some key) (later : p.now ≤ time) :
    Turns Begins Answers (p, jobs)
      (⟨store key shotOut time p.cache, time, .stored key shotOut :: p.history⟩,
        ⟨⟨some key, time⟩, made⟩ :: jobs) := by
  have dated : shotDateOf env (body key) = .ok day := rfl
  have begun : Begins p ⟨some key, time⟩ (apiBrewLogCreate env true (body key))
      { p with now := time } := ⟨env, true, body key, keyed.symm, later, rfl, rfl⟩
  rw [apiBrewLogCreate_looks dated keyed] at begun
  let q : Process := { p with now := time }
  have looked : Answers (.existing key (idempotencyRequestHash env (body key) day)) q (.ok none) q :=
    rfl
  have wrote : Answers (.write (body key) day
      (some (key, idempotencyRequestHash env (body key) day))) q (.ok (.ok shotOut)) q := rfl
  have kept : Answers (.store key shotOut) q ()
      ⟨store key shotOut time p.cache, time, .stored key shotOut :: p.history⟩ := ⟨time, le_rfl, rfl⟩
  exact (((Relation.ReflTransGen.single (.enter begun)).tail (.first looked rfl)).tail
    (.first wrote rfl)).tail (.first kept rfl)

theorem hour_later : Turns Begins Answers (.fresh 0, []) hourLater :=
  (makes (.fresh 0) [] keyed_first le_rfl).trans
    (makes _ _ keyed_second (show (0 : ℚ) ≤ 3600 by norm_num))

/-- The cache keeps what has expired long ago. -/
theorem first_retained : ¬ ∀ now σ, Turns Begins Answers (.fresh now, []) σ →
    Retained σ ∧ Honest σ.1.history := by
  intro all
  obtain ⟨retained, -⟩ := all 0 hourLater hour_later
  have done : (⟨⟨some "second", 3600⟩, made⟩ : Request).Over := by simp [Job.Over, made]
  have old := retained _ List.mem_cons_self done (Option.some_ne_none _)
    ("first", ⟨some shotOut, 0, false⟩) List.mem_cons_self
  simp only [defaultTtlSeconds] at old
  norm_num at old

/-- In Sheets mode, a shot with a key, and the request again: the shot is made at
ten seconds, its response returned at two hundred. -/
def retried : Process × List Request :=
  (⟨store "first" shotOut 10 (Ordered.set .empty "first" ⟨none, 0, true⟩), 200,
      [.replayed "first" shotOut 200, .stored "first" shotOut, .opened "first" 0]⟩,
    [⟨⟨some "first", 200⟩, .pure ⟨200, .shot shotOut⟩⟩, ⟨⟨some "first", 0⟩, made⟩])

theorem retry : Turns BeginsChecked AnswersInTime (.fresh 0, []) retried := by
  have dated : shotDateOf env (body "first") = .ok day := rfl
  have begins : ∀ (p : Process) (time : ℚ), p.now ≤ time →
      BeginsChecked p ⟨some "first", time⟩ (apiBrewLogCreate env false (body "first"))
        { p with now := time } := fun p time later =>
    ⟨env, false, body "first", keyed_first.symm, later, rfl, rfl, fun _ => ⟨rfl, day, dated⟩⟩
  rw [apiBrewLogCreate_checks dated keyed_first] at begins
  let opened : Process :=
    ⟨Ordered.set .empty "first" ⟨none, 0, true⟩, 0, [.opened "first" 0]⟩
  have missed : (none, opened.cache) =
      checkAndSetSentinel defaultTtlSeconds "first" 0 0 (Process.fresh 0).cache := by
    decide +kernel
  have checks : AnswersInTime (.checkAndSetSentinel "first") (.fresh 0) none opened :=
    ⟨⟨0, 0, le_rfl, le_rfl, missed, rfl, by decide +kernel⟩,
      fun _ _ eq => absurd eq Stmt.noConfusion⟩
  have wrote : AnswersInTime (.write (body "first") day
      (some ("first", idempotencyRequestHash env (body "first") day))) opened (.ok (.ok shotOut))
      opened := ⟨rfl, fun _ _ eq => absurd eq Stmt.noConfusion⟩
  let stored : Process :=
    ⟨store "first" shotOut 10 (Ordered.set .empty "first" ⟨none, 0, true⟩), 10,
      [.stored "first" shotOut, .opened "first" 0]⟩
  have kept : AnswersInTime (.store "first" shotOut) opened () stored := by
    refine ⟨⟨10, show (0 : ℚ) ≤ 10 by norm_num, rfl⟩, fun key response eq => ?_⟩
    cases eq
    exact Option.some_ne_none _
  have hit : (some shotOut, stored.cache) =
      checkAndSetSentinel defaultTtlSeconds "first" 200 200 stored.cache := by
    decide +kernel
  have found : AnswersInTime (.checkAndSetSentinel "first") { stored with now := 200 }
      (some shotOut) retried.1 :=
    ⟨⟨200, 200, le_rfl, le_rfl, hit, rfl, by decide +kernel⟩,
      fun _ _ eq => absurd eq Stmt.noConfusion⟩
  have first := begins (.fresh 0) 0 le_rfl
  have again := begins stored 200 (show (10 : ℚ) ≤ 200 by norm_num)
  have served : Turns BeginsChecked AnswersInTime (.fresh 0, [])
      (stored, [⟨⟨some "first", 0⟩, made⟩]) :=
    (((Relation.ReflTransGen.single (.enter first)).tail (.first checks rfl)).tail
      (.first wrote rfl)).tail (.first kept rfl)
  exact (served.tail (.enter again)).tail (.first found rfl)

theorem retried_retains : Retained retried ∧ Honest retried.1.history := cache_retains retry

end Sample

end EspressoLogs.IdempotencyStore
