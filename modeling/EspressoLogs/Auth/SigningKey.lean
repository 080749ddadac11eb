import EspressoLogs.Auth.Schema

/-!
The rotation of the key that signs access tokens.

A process that starts with a previous key configured accepts that key too, for
fifteen minutes from its own start. `previous_key_dies_iff` says when this keeps
tokens of the previous key out fifteen minutes after the first start: when no later
start finds one that is still valid.
-/

namespace EspressoLogs.Auth

open Lib Py

/-- The claims of a token that are read. -/
structure Claims where
  sub : Option String
  deriving DecidableEq, Repr

/-- `jose.jwt.decode` of a token with a secret, at an instant: the claims, or `none`
for a `JWTError`. -/
abbrev JwtDecode := String → String → Instant → Option Claims

structure Settings where
  jwtSecret : String
  jwtSecretPrevious : Option String
  deriving DecidableEq, Repr

/-- A server process, from its start until it ends, if it does. -/
structure Process where
  started : Instant
  stopped : Option Instant
  deriving DecidableEq, Repr

namespace Process

def Alive (p : Process) (now : Instant) : Prop :=
  p.started ≤ now ∧ ∀ stopped, p.stopped = some stopped → now < stopped

/-- `_ROTATION_WINDOW`. -/
def rotationWindow : Instant := minutes 15

/-- `_rotation_window_opened_at`, set when the module is loaded. -/
def rotationWindowOpenedAt (settings : Settings) (p : Process) : Option Instant :=
  match settings.jwtSecretPrevious with
  | none => none
  | some previous => if previous = "" then none else some p.started

end Process

open Process

def invalidToken : Exc := httpError 401 "Invalid or expired token"

/-- The payload under the previous key, where the current one does not do. -/
def decodeWithPrevious (jwtDecode : JwtDecode) (settings : Settings) (p : Process) (now : Instant)
    (token : String) : Except Exc Claims :=
  match p.rotationWindowOpenedAt settings, settings.jwtSecretPrevious with
  | some openedAt, some previous =>
      if now - openedAt ≤ rotationWindow then
        match jwtDecode token previous now with
        | some payload => .ok payload
        | none => .error invalidToken
      else .error invalidToken
  | _, _ => .error invalidToken

/-- The user id of a payload. -/
def userIdOf (payload : Claims) : Except Exc Uuid :=
  match payload.sub with
  | none => .error invalidToken
  | some sub =>
      if sub = "" then .error invalidToken
      else match Uuid.ofString sub with
        | some id => .ok id
        | none => .error invalidToken

/-- `decode_access_token`, in a process at an instant. -/
def decodeAccessToken (jwtDecode : JwtDecode) (settings : Settings) (p : Process) (now : Instant)
    (token : String) : Except Exc Uuid := do
  let payload ← match jwtDecode token settings.jwtSecret now with
    | some payload => .ok payload
    | none => decodeWithPrevious jwtDecode settings p now token
  userIdOf payload

/-! ### A fleet of processes -/

/-- All starts of server processes with one configuration, in their order. -/
structure Fleet where
  first : Process
  later : List Process
  inOrder : (first :: later).Pairwise fun p q => p.started ≤ q.started

def Fleet.processes (fleet : Fleet) : List Process := fleet.first :: fleet.later

section Dies

variable {jwtDecode : JwtDecode} {settings : Settings} {fleet : Fleet} {token : String}

/-- The token verifies under the previous key, for a user. -/
def ValidUnderPrevious (jwtDecode : JwtDecode) (settings : Settings) (token : String)
    (now : Instant) : Prop :=
  ∃ previous, settings.jwtSecretPrevious = some previous ∧ previous ≠ "" ∧
    ∃ payload, jwtDecode token previous now = some payload ∧ ∃ id, userIdOf payload = .ok id

theorem userIdOf_cases (payload : Claims) :
    (∃ id, userIdOf payload = .ok id) ∨ userIdOf payload = .error invalidToken := by
  unfold userIdOf
  split
  · exact .inr rfl
  · split
    · exact .inr rfl
    · split
      · rename_i id _
        exact .inl ⟨id, rfl⟩
      · exact .inr rfl

/-- A token that the current key does not verify is let in while the window of the
process is open, if the previous key verifies it. -/
theorem accepted_iff {p : Process} {now : Instant}
    (foreign : jwtDecode token settings.jwtSecret now = none) :
    decodeAccessToken jwtDecode settings p now token ≠ .error invalidToken ↔
      now ≤ p.started + rotationWindow ∧ ValidUnderPrevious jwtDecode settings token now := by
  unfold decodeAccessToken
  rw [foreign]
  show (decodeWithPrevious jwtDecode settings p now token >>= userIdOf) ≠ _ ↔ _
  unfold decodeWithPrevious ValidUnderPrevious Process.rotationWindowOpenedAt
  -- an empty previous key counts as none
  cases configured : settings.jwtSecretPrevious with
  | none => simp [bind, Except.bind]
  | some previous =>
      by_cases empty : previous = ""
      · simp [empty, bind, Except.bind]
      · simp only [if_neg empty]
        by_cases inside : now - p.started ≤ rotationWindow
        · have within : now ≤ p.started + rotationWindow := Int.le_add_of_sub_left_le inside
          rw [if_pos inside]
          cases decoded : jwtDecode token previous now with
          | none => simp [bind, Except.bind, decoded]
          | some payload =>
              have outcome := userIdOf_cases payload
              constructor
              · intro accepted
                rcases outcome with some | refused
                · exact ⟨within, previous, rfl, empty, payload, decoded, some⟩
                · exact absurd refused accepted
              · rintro ⟨_, _, same, _, _, known, id, some⟩
                cases same
                rw [decoded] at known
                cases known
                intro refused
                have clash : userIdOf payload = .error invalidToken := refused
                rw [some] at clash
                cases clash
        · have outside : ¬ now ≤ p.started + rotationWindow := fun within =>
            inside (Int.sub_left_le_of_le_add within)
          rw [if_neg inside]
          simp [outside, bind, Except.bind]

/-- Fifteen minutes after the first start, every process rejects the token. -/
def Dies (jwtDecode : JwtDecode) (settings : Settings) (fleet : Fleet) (token : String) : Prop :=
  ∀ p ∈ fleet.processes, ∀ now, p.Alive now → fleet.first.started + rotationWindow < now →
    decodeAccessToken jwtDecode settings p now token = .error invalidToken

/-- A process that starts later has its window open when the token is still valid. -/
def Outlives (jwtDecode : JwtDecode) (settings : Settings) (fleet : Fleet) (token : String) : Prop :=
  ∃ p ∈ fleet.later, ∃ now, p.Alive now ∧ fleet.first.started + rotationWindow < now ∧
    now ≤ p.started + rotationWindow ∧ ValidUnderPrevious jwtDecode settings token now

/-- A token that the current key never verifies is out fifteen minutes after the first
start exactly when no later start lets it in. A start lets it in while its own window is
open, if the token still verifies under the previous key then, with a sub that is an id:
the window is opened by each process for itself when it loads the module. -/
theorem previous_key_dies_iff (foreign : ∀ now, jwtDecode token settings.jwtSecret now = none) :
    Dies jwtDecode settings fleet token ↔ ¬ Outlives jwtDecode settings fleet token := by
  constructor
  · rintro dies ⟨p, there, now, alive, late, inside, valid⟩
    exact (accepted_iff (foreign now)).mpr ⟨inside, valid⟩
      (dies p (List.mem_cons_of_mem _ there) now alive late)
  · intro rejected p there now alive late
    by_contra accepted
    obtain ⟨inside, valid⟩ := (accepted_iff (foreign now)).mp accepted
    rcases List.mem_cons.mp there with rfl | there
    · exact absurd inside (Int.not_le.mpr late)
    · exact rejected ⟨p, there, now, alive, late, inside, valid⟩

end Dies

/-! ### A restart after twenty minutes -/

namespace Sample

def rotated : Settings := ⟨"the new secret, long enough to sign", some "the old secret, which has leaked"⟩

/-- A token that was made with the old secret, valid for an hour. -/
def forged : JwtDecode := fun token secret now =>
  if token = "forged" ∧ secret = "the old secret, which has leaked" ∧ now ≤ minutes 60 then
    some ⟨some "00000000-0000-0000-0000-000000000002"⟩
  else none

theorem forged_foreign (now : Instant) : forged "forged" rotated.jwtSecret now = none := by
  have other : ¬ ("forged" = "forged" ∧
      rotated.jwtSecret = "the old secret, which has leaked" ∧ now ≤ minutes 60) := by
    rintro ⟨_, same, _⟩
    exact absurd same (by decide)
  exact if_neg other

def restarted : Fleet where
  first := ⟨0, some (minutes 20)⟩
  later := [⟨minutes 20, none⟩]
  inOrder := by decide

/-- The second process lets it in at twenty-five minutes. -/
theorem forged_outlives : ¬ Dies forged rotated restarted "forged" := by
  intro dies
  have rejected := dies ⟨minutes 20, none⟩ (by decide) (minutes 25) ⟨by decide, nofun⟩ (by decide)
  have accepted : decodeAccessToken forged rotated ⟨minutes 20, none⟩ (minutes 25) "forged" =
      .ok ⟨2⟩ := by decide +kernel
  rw [accepted] at rejected
  cases rejected

theorem forged_dies_iff : Dies forged rotated restarted "forged" ↔
    ¬ Outlives forged rotated restarted "forged" :=
  previous_key_dies_iff forged_foreign

end Sample

end EspressoLogs.Auth
