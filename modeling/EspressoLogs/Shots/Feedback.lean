import EspressoLogs.Lib.Oracle
import EspressoLogs.Tenant.GetPut
import EspressoLogs.Tenant.Context

/-!
What `get_ai_feedback` asks the language model, and what it stores.

`getAiFeedback` has the answers of the model built in. Here the same steps are a
program that asks for them: `answered_feedbackCalls` says that it becomes
`getAiFeedback` once it is answered, so its questions are the prompts sent. The
stored feedback of a shot changes only by a usable reply.
-/

namespace EspressoLogs

open Lib Py

/-! ### The calls -/

/-- A program of the code that may call the language model. -/
abbrev Calls (α : Type) := Asking Statement Resp String LlmOutcome Exc α

namespace Calls

variable {P : Statement → Prop} {α : Type}

def ofCode (p : CodeM P α) : Calls α := Asking.silent p.prog

/-- `llm_client.complete`. -/
def complete (prompt : String) : Calls LlmOutcome := Asking.question prompt

end Calls

/-- What becomes of the outcome of a call. -/
def storeOutcome (shotId : String) (raiseOnError : Bool) : LlmOutcome → DbM String
  | .timeout => throw .timeout
  | .crash => throw .typeError
  | .llmError => failWith raiseOnError .llmError gracefulError
  | .reply text =>
      if text = "" then failWith raiseOnError .llmError gracefulError
      else if "AI feedback unavailable".toList.isPrefixOf text.toList ∧
          ¬ (text = noopFeedback ∧ ¬ raiseOnError) then
        failWith raiseOnError .llmError gracefulError
      else do
        DualWriteBrewLogRepo.updateFeedback shotId text
        return text

/-- `get_ai_feedback`, with the call of the language model as a step. -/
def feedbackCalls (env : Env) (shotId : String) (extra : Option ExtraContext)
    (force raiseOnError : Bool) : Calls String := do
  match ← Calls.ofCode (SqlBrewLogRepo.get shotId) with
  | none => Calls.ofCode (failWith raiseOnError .keyError gracefulNotFound)
  | some shot =>
      if shot.text "AI_Feedback" ≠ "" ∧ ¬ force then return shot.text "AI_Feedback"
      else do
        let history ← Calls.ofCode (historyOf shotId shot)
        let maintenance ← Calls.ofCode (maintenanceOf env shot)
        match promptFor env shot history maintenance extra with
        | none => Calls.ofCode (failWith raiseOnError .valueError gracefulError)
        | some prompt => do
            let outcome ← Calls.complete prompt
            Calls.ofCode (storeOutcome shotId raiseOnError outcome)

/-- The prompts that a run of `get_ai_feedback` sends. -/
def promptsSent (env : Env) (shotId : String) (extra : Option ExtraContext)
    (force raiseOnError : Bool) (w : World Table) : List String :=
  (feedbackCalls env shotId extra force raiseOnError).questions World.exec env.llm w

theorem storeReply_eq (env : Env) (shotId prompt : String) (raiseOnError : Bool) :
    storeReply env shotId prompt raiseOnError =
      storeOutcome shotId raiseOnError (env.llm prompt) := by
  unfold storeReply storeOutcome
  cases env.llm prompt <;> rfl

/-- Answered by the language model, the calls are `get_ai_feedback`. -/
theorem answered_feedbackCalls (env : Env) (shotId : String) (extra : Option ExtraContext)
    (force raiseOnError : Bool) :
    (feedbackCalls env shotId extra force raiseOnError).answered env.llm =
      (getAiFeedback env shotId extra force raiseOnError).prog := by
  refine (Asking.answered_bind _ _).trans ?_
  rw [Calls.ofCode, Asking.answered_silent]
  refine congrArg ((SqlBrewLogRepo.get shotId).prog >>= ·) (funext fun o => ?_)
  cases o with
  | none => exact Asking.answered_silent _
  | some shot =>
      by_cases kept : shot.text "AI_Feedback" ≠ "" ∧ ¬ force
      · simp only [if_pos kept]
        rfl
      · simp only [if_neg kept]
        refine (Asking.answered_bind _ _).trans ?_
        rw [Calls.ofCode, Asking.answered_silent]
        refine congrArg ((historyOf shotId shot).prog >>= ·) (funext fun history => ?_)
        refine (Asking.answered_bind _ _).trans ?_
        rw [Calls.ofCode, Asking.answered_silent]
        refine congrArg ((maintenanceOf env shot).prog >>= ·) (funext fun maintenance => ?_)
        simp only [storeReply_eq]
        cases promptFor env shot history maintenance extra with
        | none => exact Asking.answered_silent _
        | some prompt => exact Asking.answered_silent _

/-! ### What a run comes to -/

/-- A reply that is stored. -/
def Usable (raiseOnError : Bool) (text : String) : Prop :=
  text ≠ "" ∧ (¬ "AI feedback unavailable".toList <+: text.toList ∨
    (text = noopFeedback ∧ raiseOnError = false))

/-- The shot is there, and feedback on it is wanted. -/
def Wanted (h : Uuid) (shotId : String) (force : Bool) (w : World Table) (r : BrewLog) : Prop :=
  shotsSeen h w.view shotId = [r] ∧ (r.aiFeedback.getD "" = "" ∨ force = true)

/-- A usable reply came to one of the prompts. -/
def Answers (llm : String → LlmOutcome) (raiseOnError : Bool) (sent : List String)
    (text : String) : Prop :=
  ∃ prompt ∈ sent, llm prompt = .reply text ∧ Usable raiseOnError text

/-- What `get_ai_feedback` may come to in a world `w`: the prompts it sends, its
result and the world it leaves. -/
structure FeedbackRun (h : Uuid) (llm : String → LlmOutcome) (shotId : String)
    (force raiseOnError : Bool) (w : World Table) (sent : List String)
    (result : Except Exc String) (w' : World Table) : Prop where
  once : sent.length ≤ 1
  short : ∀ prompt ∈ sent, prompt.utf8ByteSize ≤ 2048
  wanted : sent ≠ [] → ∃ r, Wanted h shotId force w r
  stored : ∀ text, Storable text → Answers llm raiseOnError sent text →
    result = .ok text ∧ ∃ r, Wanted h shotId force w r ∧
      w'.db = replaced (t := .brewLog) r { r with aiFeedback := some text } w.view
  kept : (¬ ∃ text, Answers llm raiseOnError sent text) → w' = w
  raised : raiseOnError = true → (∃ r, Wanted h shotId force w r) →
    (¬ ∃ text, Answers llm raiseOnError sent text) → ∃ e, result = .error e

section Feedback

variable {h : Uuid} {w : World Table} {env : Env} {shotId : String} {force raiseOnError : Bool}

/-- Nothing was sent. -/
theorem FeedbackRun.unsent {llm : String → LlmOutcome} {result : Except Exc String}
    (raised : raiseOnError = true → (∃ r, Wanted h shotId force w r) → ∃ e, result = .error e) :
    FeedbackRun h llm shotId force raiseOnError w [] result w where
  once := Nat.zero_le 1
  short := nofun
  wanted := fun sent => absurd rfl sent
  stored := by
    rintro text _ ⟨prompt, mem, _⟩
    cases mem
  kept := fun _ => rfl
  raised := fun raising wanted _ => raised raising wanted

theorem failWith_raises {e : Exc} {graceful : String} :
    ∃ result, (failWith raiseOnError e graceful).run w = (result, w) ∧
      (raiseOnError = true → ∃ e, result = .error e) := by
  cases raiseOnError with
  | false => exact ⟨.ok graceful, rfl, nofun⟩
  | true => exact ⟨.error e, rfl, fun _ => ⟨e, rfl⟩⟩

/-- A prompt that is sent fits. -/
theorem promptFor_short {shot : Dict} {history maintenance : List Dict}
    {extra : Option ExtraContext} {prompt : String}
    (sent : promptFor env shot history maintenance extra = some prompt) :
    prompt.utf8ByteSize ≤ 2048 := by
  have fits : ∀ maintenance, (buildPrompt env shot history maintenance extra).toOption =
      some prompt → prompt.utf8ByteSize ≤ 2048 := by
    intro maintenance built
    unfold buildPrompt at built
    split at built
    · cases built
    · rename_i short
      obtain rfl := Option.some.inj built
      exact not_lt.mp short
  unfold promptFor at sent
  cases whole : (buildPrompt env shot history maintenance extra).toOption with
  | some p =>
      rw [whole] at sent
      cases sent
      exact fits maintenance whole
  | none =>
      rw [whole] at sent
      exact fits [] sent

/-- `get` of a shot. -/
theorem run_getShot (live : w.Live) (context : w.session.context = some h) :
    (SqlBrewLogRepo.get shotId).run w =
      CodeM.run (do return (← oneOrNone (shotsSeen h w.view shotId)).map SqlBrewLogRepo.toDict :
        ReadM (Option Dict)) w := by
  have found : CodeM.run currentHouseholdId w = (.ok (some h), w) := by
    rw [← context]
    exact run_currentSetting live
  have matched : (w.visible .brewLog).filter (SqlBrewLogRepo.isShot h shotId) =
      shotsSeen h w.view shotId := by
    rw [visible_eq_own context rfl]
    rfl
  refine CodeM.run_bind_of found ?_
  refine (CodeM.run_bind_ok (run_select live .brewLog _)).trans ?_
  rw [matched]

/-- A usable reply goes to the shot that was found. -/
theorem run_storeOutcome_usable (live : w.Live) (context : w.session.context = some h)
    {r : BrewLog} (seen : shotsSeen h w.view shotId = [r]) {text : String}
    (usable : Usable raiseOnError text) (storable : Storable text) :
    (storeOutcome shotId raiseOnError (.reply text)).run w =
      (.ok text,
        (w.pend .brewLog (.upd [(r, { r with aiFeedback := some text })])).committed) := by
  obtain ⟨nonempty, accepted⟩ := usable
  have passes : ¬ ("AI feedback unavailable".toList.isPrefixOf text.toList ∧
      ¬ (text = noopFeedback ∧ ¬ raiseOnError)) := by
    rintro ⟨sentinel, disallowed⟩
    rcases accepted with plain | ⟨noop, quiet⟩
    · exact plain (List.isPrefixOf_iff_prefix.mp sentinel)
    · exact disallowed ⟨noop, by simp [quiet]⟩
  have set : (do return { r with aiFeedback := ← asText (.str text) } :
      Except StmtError BrewLog) = .ok { r with aiFeedback := some text } := by
    rw [asText_str storable]
    rfl
  have found : CodeM.run (currentHouseholdId : DbM (Option Uuid)) w = (.ok (some h), w) := by
    rw [← context]
    exact run_currentSetting live
  simp only [storeOutcome, if_neg nonempty, if_neg passes]
  refine CodeM.run_bind_of (CodeM.run_catch_ok (a := ()) ?_) rfl
  refine CodeM.run_bind_of found ?_
  refine CodeM.run_bind_of (a := ()) ?_ (run_commit (live.pend _ _))
  exact CodeM.run_bind_of (run_setShot live context seen set ⟨rfl, rfl, rfl, rfl⟩) rfl

/-- Any other outcome leaves the world alone. -/
theorem run_storeOutcome_useless (w : World Table) (shotId : String) {outcome : LlmOutcome}
    (useless : ∀ text, outcome = .reply text → ¬ Usable raiseOnError text) :
    ∃ result, (storeOutcome shotId raiseOnError outcome).run w = (result, w) ∧
      (raiseOnError = true → ∃ e, result = .error e) := by
  cases outcome with
  | timeout => exact ⟨.error .timeout, rfl, fun _ => ⟨_, rfl⟩⟩
  | crash => exact ⟨.error .typeError, rfl, fun _ => ⟨_, rfl⟩⟩
  | llmError => exact failWith_raises
  | reply text =>
      by_cases empty : text = ""
      · simp only [storeOutcome, if_pos empty]
        exact failWith_raises
      · have sentinel : "AI feedback unavailable".toList.isPrefixOf text.toList ∧
            ¬ (text = noopFeedback ∧ ¬ raiseOnError) := by
          constructor
          · by_contra plain
            refine useless text rfl ⟨empty, .inl fun starts => ?_⟩
            exact plain (List.isPrefixOf_iff_prefix.mpr starts)
          · rintro ⟨noop, quiet⟩
            exact useless text rfl ⟨empty, .inr ⟨noop, by simpa using quiet⟩⟩
        simp only [storeOutcome, if_neg empty, if_pos sentinel]
        exact failWith_raises

/-- The database once the new feedback of a shot is committed. -/
theorem committed_setShot (r r' : BrewLog) :
    (w.pend .brewLog (.upd [(r, r')])).committed.db = replaced (t := .brewLog) r r' w.view := by
  rw [World.committed_db]
  funext t
  by_cases here : t = .brewLog
  · subst here
    rw [World.pend_view_self, replaced, Function.update_self]
    refine List.map_congr_left fun x _ => ?_
    by_cases same : x = r
    · simp [same]
    · simp [List.lookup_cons, same, beq_eq_false_iff_ne.mpr same]
  · rw [World.pend_view_of_ne w _ here, replaced, Function.update_of_ne here]

/-- One prompt was sent. -/
theorem FeedbackRun.sentOne (live : w.Live) (context : w.session.context = some h) {r : BrewLog}
    (wanted : Wanted h shotId force w r) {llm : String → LlmOutcome} {prompt : String}
    (short : prompt.utf8ByteSize ≤ 2048) :
    FeedbackRun h llm shotId force raiseOnError w [prompt]
      ((storeOutcome shotId raiseOnError (llm prompt)).run w).1
      ((storeOutcome shotId raiseOnError (llm prompt)).run w).2 := by
  have answers : ∀ text, Answers llm raiseOnError [prompt] text ↔
      llm prompt = .reply text ∧ Usable raiseOnError text := by
    intro text
    constructor
    · rintro ⟨p, mem, answered⟩
      exact List.mem_singleton.mp mem ▸ answered
    · intro answered
      exact ⟨prompt, List.mem_singleton_self prompt, answered⟩
  have useless : (¬ ∃ text, Answers llm raiseOnError [prompt] text) →
      ∀ text, llm prompt = .reply text → ¬ Usable raiseOnError text :=
    fun none text reply usable => none ⟨text, (answers text).mpr ⟨reply, usable⟩⟩
  constructor
  · exact Nat.le_refl 1
  · intro p mem
    exact List.mem_singleton.mp mem ▸ short
  · intro _
    exact ⟨r, wanted⟩
  · intro text storable answered
    obtain ⟨reply, usable⟩ := (answers text).mp answered
    rw [reply, run_storeOutcome_usable live context wanted.1 usable storable]
    exact ⟨rfl, r, wanted, committed_setShot r _⟩
  · intro none
    obtain ⟨result, ran, _⟩ := run_storeOutcome_useless w shotId (useless none)
    rw [ran]
  · intro raising _ none
    obtain ⟨result, ran, raises⟩ := run_storeOutcome_useless w shotId (useless none)
    rw [ran]
    exact raises raising

theorem text_feedback (r : BrewLog) :
    (SqlBrewLogRepo.toDict r).text "AI_Feedback" = r.aiFeedback.getD "" := rfl

/-- What the calls come to, started in `w`. -/
def Comes (h : Uuid) (env : Env) (shotId : String) (force raiseOnError : Bool) (w : World Table)
    (c : Calls String) : Prop :=
  FeedbackRun h env.llm shotId force raiseOnError w (c.questions World.exec env.llm w)
    ((c.answered env.llm).run World.exec w).1 ((c.answered env.llm).run World.exec w).2

theorem Comes.silent {p : DbM String} {result : Except Exc String} (ran : p.run w = (result, w))
    (raised : raiseOnError = true → (∃ r, Wanted h shotId force w r) → ∃ e, result = .error e) :
    Comes h env shotId force raiseOnError w (Calls.ofCode p) := by
  unfold Comes Calls.ofCode
  rw [Asking.questions_silent, Asking.answered_silent]
  show FeedbackRun _ _ _ _ _ _ _ (p.run w).1 (p.run w).2
  rw [ran]
  exact .unsent raised

/-- A read changes nothing, and ends the run if it raises. -/
theorem Comes.afterRead {α : Type} {p : ReadM α} {f : α → Calls String} (live : w.Live)
    (next : ∀ a, p.run w = (.ok a, w) → Comes h env shotId force raiseOnError w (f a)) :
    Comes h env shotId force raiseOnError w (Calls.ofCode p >>= f) := by
  unfold Comes Calls.ofCode
  rw [Asking.answered_bind, Asking.answered_silent]
  have still := run_read p.within live
  cases ran : p.run w with
  | mk result w' =>
      obtain rfl : w' = w := by
        rw [ran] at still
        exact still
      cases result with
      | error e =>
          rw [Asking.questions_silent_bind_error ran, Prog.run_bind_error ran]
          exact .unsent fun _ _ => ⟨e, rfl⟩
      | ok a =>
          rw [Asking.questions_silent_bind_ok ran, Prog.run_bind_ok ran]
          exact next a ran

/-- From a shot of which feedback is wanted. -/
theorem comes_wanted (live : w.Live) (context : w.session.context = some h) {r : BrewLog}
    (wanted : Wanted h shotId force w r) (shot : Dict) (extra : Option ExtraContext) :
    Comes h env shotId force raiseOnError w (do
      let history ← Calls.ofCode (historyOf shotId shot)
      let maintenance ← Calls.ofCode (maintenanceOf env shot)
      match promptFor env shot history maintenance extra with
      | none => Calls.ofCode (failWith raiseOnError .valueError gracefulError)
      | some prompt => do
          let outcome ← Calls.complete prompt
          Calls.ofCode (storeOutcome shotId raiseOnError outcome)) := by
  refine .afterRead live fun history _ => .afterRead live fun maintenance _ => ?_
  cases sent : promptFor env shot history maintenance extra with
  | none =>
      obtain ⟨result, ran, raises⟩ : ∃ result, _ ∧ _ := failWith_raises
      exact .silent ran fun raising _ => raises raising
  | some prompt =>
      have outcome : FeedbackRun h env.llm shotId force raiseOnError w [prompt] _ _ :=
        .sentOne live context wanted (promptFor_short sent)
      unfold Comes
      have asked : Asking.questions World.exec env.llm (do
          let outcome ← Calls.complete prompt
          Calls.ofCode (storeOutcome shotId raiseOnError outcome)) w = [prompt] :=
        congrArg (prompt :: ·) (Asking.questions_silent _ w)
      have told : Asking.answered env.llm (do
          let outcome ← Calls.complete prompt
          Calls.ofCode (storeOutcome shotId raiseOnError outcome)) =
            (storeOutcome shotId raiseOnError (env.llm prompt)).prog :=
        Asking.answered_silent _
      simp only [asked, told]
      exact outcome

/-- `get_ai_feedback` sends at most one prompt, for a shot that wants feedback, and
stores only a usable reply to it; every other outcome leaves the database as it was, and
raises when it is told to raise. The statements succeed and the session has the context
of the household. A text that no column can hold is not among the replies considered:
the statement that stores it fails. -/
theorem feedback_stored_if_usable (live : w.Live) (context : w.session.context = some h)
    (extra : Option ExtraContext) :
    FeedbackRun h env.llm shotId force raiseOnError w
      (promptsSent env shotId extra force raiseOnError w)
      ((getAiFeedback env shotId extra force raiseOnError).run w).1
      ((getAiFeedback env shotId extra force raiseOnError).run w).2 := by
  have calls : Comes h env shotId force raiseOnError w
      (feedbackCalls env shotId extra force raiseOnError) := by
    refine .afterRead live fun o got => ?_
    rw [run_getShot live context] at got
    obtain ⟨found, v, single, returned⟩ := CodeM.run_bind_eq_ok got
    cases returned
    obtain ⟨seen, _⟩ := CodeM.run_oneOrNone_eq_ok single
    -- a shot that is missing, one with feedback, or one that is to be asked about
    cases found with
    | none =>
        obtain ⟨result, ran, raises⟩ : ∃ result, _ ∧ _ := failWith_raises
        exact .silent ran fun raising _ => raises raising
    | some r =>
        simp only [Option.map_some]
        by_cases kept : (SqlBrewLogRepo.toDict r).text "AI_Feedback" ≠ "" ∧ ¬ force
        · rw [if_pos kept]
          refine .silent (p := pure _) rfl fun _ wanted => ?_
          obtain ⟨r', seen', asked⟩ := wanted
          obtain rfl : r = r' := by simpa [seen] using seen'
          rcases asked with none | forced
          · exact absurd none (text_feedback r ▸ kept.1)
          · exact absurd forced kept.2
        · rw [if_neg kept]
          refine comes_wanted live context ⟨seen, ?_⟩ _ extra
          by_contra neither
          exact kept ⟨fun none => neither (.inl none), fun forced => neither (.inr forced)⟩
  unfold Comes at calls
  rw [answered_feedbackCalls] at calls
  exact calls

end Feedback

namespace Sample

/-- A model that always has the same advice. -/
def advised : Env := { env with llm := fun _ => .reply "Grind finer." }

/-- The shot with a feedback of an earlier run. -/
def advisedBefore : World Table :=
  { serving with
    db
      | .brewLog => [{ shot with aiFeedback := some "Grind coarser." }]
      | t => db t }

/-- One prompt is sent for the shot, and its reply takes the place of the old
feedback. -/
theorem serving_feedback :
    (promptsSent advised "S1" none true true advisedBefore).length = 1 ∧
    ((getAiFeedback advised "S1" none true true).run advisedBefore).2.db .brewLog =
      [{ shot with aiFeedback := some "Grind finer." }] ∧
    FeedbackRun household.id advised.llm "S1" true true advisedBefore
      (promptsSent advised "S1" none true true advisedBefore)
      ((getAiFeedback advised "S1" none true true).run advisedBefore).1
      ((getAiFeedback advised "S1" none true true).run advisedBefore).2 := by
  refine ⟨?_, ?_, feedback_stored_if_usable ⟨rfl, rfl⟩ rfl none⟩
  · decide +kernel
  · decide +kernel

end Sample

end EspressoLogs
