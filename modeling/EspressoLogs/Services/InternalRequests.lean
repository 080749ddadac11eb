import EspressoLogs.Services.ImageSourcer

/-!
Requests to internal addresses.

The checks keep a request from an internal address where the URL names the address
itself. They say nothing of the address that the client finds for a name, nor of
where redirects lead. `outside_iff` says that nothing else goes wrong.
-/

namespace EspressoLogs.ImageSourcer

open Py

variable {web : Web}

/-! ### Hops -/

/-- The address of the `k`-th of the requests from number `n` on, if the redirects
get there. -/
def hop (web : Web) : Nat → Nat → String → Option IpAddress
  | 0, n, url => (web.clientHost url).bind (web.connect n)
  | k + 1, n, url =>
      match (web.clientHost url).bind (web.connect n), web.answer n with
      | some _, .redirect next => hop web k (n + 1) next
      | _, _ => none

/-- The client sends its requests along the hops, as far as it follows redirects. -/
theorem mem_send {redirects n : Nat} {url : String} {addr : IpAddress} :
    addr ∈ (send web redirects n url).1 ↔ ∃ k ≤ redirects, hop web k n url = some addr := by
  -- by the redirects left; a hop less is a hop of the rest
  induction redirects generalizing n url with
  | zero =>
      have first : addr ∈ (send web 0 n url).1 ↔ hop web 0 n url = some addr := by
        unfold send hop
        cases web.clientHost url with
        | none => simp
        | some host =>
            cases connected : web.connect n host with
            | none => simp [connected]
            | some a => cases web.answer n <;> simp [connected, eq_comm]
      rw [first]
      constructor
      · intro here
        exact ⟨0, Nat.le_refl 0, here⟩
      · rintro ⟨k, within, here⟩
        obtain rfl := Nat.le_zero.mp within
        exact here
  | succ left ih =>
      have split : (∃ k ≤ left + 1, hop web k n url = some addr) ↔
          hop web 0 n url = some addr ∨ ∃ k ≤ left, hop web (k + 1) n url = some addr := by
        constructor
        · rintro ⟨k, within, here⟩
          cases k with
          | zero => exact .inl here
          | succ k => exact .inr ⟨k, Nat.le_of_succ_le_succ within, here⟩
        · rintro (here | ⟨k, within, here⟩)
          · exact ⟨0, Nat.zero_le _, here⟩
          · exact ⟨k + 1, Nat.succ_le_succ within, here⟩
      rw [split]
      unfold send hop
      cases web.clientHost url with
      | none => simp
      | some host =>
          cases connected : web.connect n host with
          | none => simp [connected]
          | some a =>
              cases web.answer n with
              | response r => simp [connected, eq_comm]
              | broken => simp [connected, eq_comm]
              | redirect next => simp [connected, ih, eq_comm]

/-! ### What goes wrong -/

/-- The lookup of an address finds that address. -/
def LiteralsResolve (web : Web) : Prop :=
  ∀ n host addr found, IpAddress.ofString host = some addr → web.connect n host = some found →
    found = addr

/-- The host of a URL, as the checks read it. -/
def hostOf (web : Web) (url : String) : Option String :=
  (urlparse web.unicode url).bind (Url.hostname web.unicode)

/-- The URL names an address, and the client reads it as the checks do. -/
def Literal (web : Web) (url : String) : Prop :=
  ∃ host addr, hostOf web url = some host ∧ web.clientHost url = some host ∧
    IpAddress.ofString host = some addr

/-- The client finds an internal address for the host of the URL, which names none. -/
def Rebound (web : Web) (url : String) : Prop :=
  ¬ Literal web url ∧ ∃ addr, hop web 0 0 url = some addr ∧ internal addr = true

/-- A redirect that is followed leads to an internal address. -/
def Diverted (web : Web) (url : String) : Prop :=
  ∃ k addr, 0 < k ∧ k ≤ maxRedirects ∧ hop web k 0 url = some addr ∧ internal addr = true

/-- The lookup before the download finds no internal address for the host. -/
def Vets (web : Web) (url : String) : Prop :=
  ∃ hostname, hostOf web url = some hostname ∧ vetted web hostname = true

/-- No request goes to an internal address. -/
def Outside (sent : List IpAddress) : Prop := ∀ addr ∈ sent, internal addr = false

/-! ### The checks -/

/-- A URL that passes names no internal address. -/
theorem external_of_isSafeUrl {url host : String} {addr : IpAddress} (safe : isSafeUrl web url = true)
    (named : hostOf web url = some host) (literal : IpAddress.ofString host = some addr) :
    internal addr = false := by
  unfold hostOf at named
  unfold isSafeUrl at safe
  cases parsed : urlparse web.unicode url with
  | none =>
      rw [parsed] at named
      cases named
  | some parts =>
      rw [parsed] at named safe
      have hosted : parts.hostname web.unicode = some host := named
      simp only [hosted, Option.getD_some, literal] at safe
      split at safe
      · cases safe
      · split at safe
        · cases safe
        · split at safe
          · cases safe
          · exact Bool.not_eq_true' _ ▸ safe

/-- The first request of a URL that passes goes astray only by its name. -/
theorem outside_get_iff (resolve : LiteralsResolve web) {url : String}
    (safe : isSafeUrl web url = true) :
    Outside (get web url).1 ↔ ¬ (Rebound web url ∨ Diverted web url) := by
  constructor
  · rintro outside (⟨-, addr, here, inside⟩ | ⟨k, addr, -, within, here, inside⟩)
    · have external := outside addr (mem_send.mpr ⟨0, Nat.zero_le _, here⟩)
      exact Bool.false_ne_true (external.symm.trans inside)
    · have external := outside addr (mem_send.mpr ⟨k, within, here⟩)
      exact Bool.false_ne_true (external.symm.trans inside)
  · intro none addr sent
    obtain ⟨k, within, here⟩ := mem_send.mp sent
    refine Bool.eq_false_iff.mpr fun inside => none ?_
    cases k with
    | succ k => exact .inr ⟨k + 1, addr, Nat.succ_pos k, within, here, inside⟩
    | zero =>
        refine .inl ⟨?_, addr, here, inside⟩
        rintro ⟨host, named, hosted, read, literal⟩
        obtain ⟨host', hosted', connected⟩ := Option.bind_eq_some_iff.mp here
        obtain rfl : host' = host := Option.some.inj (hosted'.symm.trans read)
        obtain rfl := resolve 0 host' named addr literal connected
        have external := external_of_isSafeUrl safe hosted literal
        exact Bool.false_ne_true (external.symm.trans inside)

/-! ### The two functions -/

theorem isSafeUrl_empty : isSafeUrl web "" = false := rfl

theorem fetchPageContext_sent (url : String) : (fetchPageContext web url).1 =
    if isSafeUrl web url then (get web url).1 else [] := by
  unfold fetchPageContext
  by_cases safe : isSafeUrl web url = true
  · have given : url ≠ "" := by
      rintro rfl
      rw [isSafeUrl_empty] at safe
      cases safe
    simp only [safe, given, if_true, Bool.not_true, Bool.false_eq_true, or_self, if_false]
    cases get web url with
    | mk sent r => cases r <;> rfl
  · simp [safe]

theorem fetchImageBytes_sent_of_vets {url : String} (safe : isSafeUrl web url = true)
    (vets : Vets web url) : (fetchImageBytes web url).1 = (get web url).1 := by
  obtain ⟨hostname, hosted, passed⟩ := vets
  unfold hostOf at hosted
  simp only [fetchImageBytes, safe, hosted, passed, Bool.not_true, Bool.false_eq_true, if_false]
  cases get web url with
  | mk sent r =>
      cases r with
      | none => rfl
      | some r => dsimp only; split <;> rfl

theorem fetchImageBytes_sent_of_not {url : String}
    (stops : ¬ (isSafeUrl web url = true ∧ Vets web url)) : (fetchImageBytes web url).1 = [] := by
  unfold fetchImageBytes
  by_cases safe : isSafeUrl web url = true
  · have unvetted : ¬ Vets web url := fun vets => stops ⟨safe, vets⟩
    cases hosted : hostOf web url with
    | none =>
        unfold hostOf at hosted
        simp only [safe, hosted, Bool.not_true, Bool.false_eq_true, if_false]
    | some hostname =>
        have refused : vetted web hostname = false :=
          Bool.eq_false_iff.mpr fun passed => unvetted ⟨hostname, hosted, passed⟩
        unfold hostOf at hosted
        simp only [safe, hosted, refused, Bool.not_true, Bool.not_false, Bool.false_eq_true, if_false,
          if_true]
  · simp [safe]

/-- No request of either function goes to an internal address, exactly unless the URL
passes the checks and the client finds an internal address for a name or is redirected
to one. The checks see addresses that the URL names; a name is looked up again by the
client, and redirects are followed unseen. The image is only fetched if the lookup
before it finds no internal address either. Of the resolver it is asked that an address
is looked up as itself. -/
theorem outside_iff (resolve : LiteralsResolve web) (url : String) :
    (Outside (fetchPageContext web url).1 ↔
      ¬ (isSafeUrl web url = true ∧ (Rebound web url ∨ Diverted web url))) ∧
    (Outside (fetchImageBytes web url).1 ↔
      ¬ (isSafeUrl web url = true ∧ Vets web url ∧ (Rebound web url ∨ Diverted web url))) := by
  have nothing : Outside [] := fun _ sent => nomatch sent
  constructor
  · rw [fetchPageContext_sent]
    -- a url that is not safe is not fetched
    by_cases safe : isSafeUrl web url = true
    · rw [if_pos safe, outside_get_iff resolve safe]
      simp [safe]
    · rw [if_neg safe]
      exact ⟨fun _ both => safe both.1, fun _ => nothing⟩
  · by_cases passes : isSafeUrl web url = true ∧ Vets web url
    · rw [fetchImageBytes_sent_of_vets passes.1 passes.2, outside_get_iff resolve passes.1]
      simp [passes.1, passes.2]
    · rw [fetchImageBytes_sent_of_not passes]
      exact ⟨fun _ all => passes ⟨all.1, all.2.1⟩, fun _ => nothing⟩

namespace Sample

def imgTest : IpAddress := .v4 0x5db8d822#32

/-- A public server that redirects to the metadata service of a cloud. -/
def redirecting : Web where
  unicode := ⟨id, fun cs => cs.map Char.toLower⟩
  getaddrinfo _ := some ["93.184.216.34"]
  clientHost url :=
    if url = "https://img.test/bag.png" then some "img.test"
    else if url = "http://169.254.169.254/latest/" then some "169.254.169.254"
    else none
  connect _ host := if host = "img.test" then some imgTest else IpAddress.ofString host
  answer
    | 0 => .redirect "http://169.254.169.254/latest/"
    | _ => .broken
  extract _ _ := .empty

theorem redirecting_resolves : LiteralsResolve redirecting := by
  intro n host addr found literal connected
  have named : host ≠ "img.test" := by
    rintro rfl
    rw [show IpAddress.ofString "img.test" = none by decide +kernel] at literal
    cases literal
  have asked : redirecting.connect n host = IpAddress.ofString host := if_neg named
  exact Option.some.inj (connected.symm.trans (asked.trans literal))

/-- Both functions follow the redirect. -/
theorem redirecting_inside :
    ¬ Outside (fetchPageContext redirecting "https://img.test/bag.png").1 ∧
      ¬ Outside (fetchImageBytes redirecting "https://img.test/bag.png").1 := by
  have metadata : internal (.v4 0xa9fea9fe#32) = true := by decide +kernel
  have page : (fetchPageContext redirecting "https://img.test/bag.png").1 =
      [imgTest, .v4 0xa9fea9fe#32] := by decide +kernel
  have image : (fetchImageBytes redirecting "https://img.test/bag.png").1 =
      [imgTest, .v4 0xa9fea9fe#32] := by decide +kernel
  rw [page, image]
  constructor
  · intro outside
    exact Bool.false_ne_true ((outside _ (by simp)).symm.trans metadata)
  · intro outside
    exact Bool.false_ne_true ((outside _ (by simp)).symm.trans metadata)

theorem redirecting_iff :
    (Outside (fetchPageContext redirecting "https://img.test/bag.png").1 ↔
      ¬ (isSafeUrl redirecting "https://img.test/bag.png" = true ∧
        (Rebound redirecting "https://img.test/bag.png" ∨
          Diverted redirecting "https://img.test/bag.png"))) ∧
    (Outside (fetchImageBytes redirecting "https://img.test/bag.png").1 ↔
      ¬ (isSafeUrl redirecting "https://img.test/bag.png" = true ∧
        Vets redirecting "https://img.test/bag.png" ∧
          (Rebound redirecting "https://img.test/bag.png" ∨
            Diverted redirecting "https://img.test/bag.png"))) :=
  outside_iff redirecting_resolves "https://img.test/bag.png"

end Sample

end EspressoLogs.ImageSourcer
