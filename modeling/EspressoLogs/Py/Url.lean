import EspressoLogs.Py.IpAddress

/-!
`urlparse` of `urllib.parse`: the scheme and the host name of a URL.
-/

namespace EspressoLogs.Py

/-- What strings do by the tables of Unicode. -/
structure Unicode where
  /-- `unicodedata.normalize("NFKC", s)`. -/
  nfkc : List Char → List Char
  /-- `str.lower`. -/
  lower : List Char → List Char

namespace Url

/-! ### Partitions -/

/-- What stands before the first `c`. -/
def before (c : Char) (cs : List Char) : List Char := cs.takeWhile (· ≠ c)

/-- What stands behind the first `c`, nothing without one. -/
def behind (c : Char) (cs : List Char) : List Char := (cs.dropWhile (· ≠ c)).drop 1

/-- What stands behind the last `c`, everything without one. -/
def behindLast (c : Char) (cs : List Char) : List Char := (cs.reverse.takeWhile (· ≠ c)).reverse

/-! ### The parts of a URL -/

def isSchemeChar (c : Char) : Bool := c.isAlphanum || c == '+' || c == '-' || c == '.'

/-- The scheme of a URL and the rest. -/
def splitScheme (url : List Char) : List Char × List Char :=
  let scheme := before ':' url
  if ':' ∈ url ∧ (scheme.head?.any Char.isAlpha) ∧ scheme.all isSchemeChar then
    (scheme.map Char.toLower, behind ':' url)
  else ([], url)

/-- `_splitnetloc`. -/
def netlocOf : List Char → List Char
  | '/' :: '/' :: rest => rest.takeWhile fun c => c ∉ ['/', '?', '#']
  | _ => []

/-- An address of a later version of the protocol. -/
def isIpvFuture : List Char → Bool
  | 'v' :: rest =>
      let hex := rest.takeWhile fun c => (IpAddress.hexDigit c).isSome
      match rest.drop hex.length with
      | '.' :: tail => !hex.isEmpty && !tail.isEmpty
      | _ => false
  | _ => false

/-- `_check_bracketed_host` does not raise. -/
def bracketedHost (host : List Char) : Bool :=
  if host.head? = some 'v' then isIpvFuture host
  else match IpAddress.ofString (String.ofList host) with
    | some (.v6 _) => true
    | _ => false

/-- `_check_bracketed_netloc` does not raise. -/
def bracketedNetloc (netloc : List Char) : Bool :=
  let hostAndPort := behindLast '@' netloc
  if '[' ∈ hostAndPort then
    let bracketed := behind '[' hostAndPort
    let port := behind ']' bracketed
    (before '[' hostAndPort).isEmpty && (port.isEmpty || port.head? == some ':') &&
      bracketedHost (before ']' bracketed)
  else bracketedHost (before ':' hostAndPort)

/-- `_checknetloc` does not raise. -/
def checkNetloc (u : Unicode) (netloc : List Char) : Bool :=
  let n := netloc.filter fun c => c ∉ ['@', ':', '#', '?']
  netloc.all (·.toNat < 128) || u.nfkc n == n ||
    (u.nfkc n).all fun c => c ∉ ['/', '?', '#', '@', ':']

end Url

/-- A URL that was parsed. -/
structure Url where
  scheme : List Char
  netloc : List Char
  deriving DecidableEq, Repr

/-- `urlparse(url)`, `none` for its `ValueError`. -/
def urlparse (u : Unicode) (url : String) : Option Url :=
  let stripped := url.toList.dropWhile (·.toNat ≤ 32)
  let (scheme, rest) := Url.splitScheme (stripped.filter fun c => c ∉ ['\t', '\r', '\n'])
  let netloc := Url.netlocOf rest
  if ('[' ∈ netloc) ≠ (']' ∈ netloc) then none
  else if '[' ∈ netloc ∧ !Url.bracketedNetloc netloc then none
  else if !Url.checkNetloc u netloc then none
  else some ⟨scheme, netloc⟩

/-- `hostname`; a zone keeps its case. -/
def Url.hostname (u : Unicode) (url : Url) : Option String :=
  let hostinfo := Url.behindLast '@' url.netloc
  let host := if '[' ∈ hostinfo then Url.before ']' (Url.behind '[' hostinfo)
    else Url.before ':' hostinfo
  if host = [] then none
  else some (String.ofList (u.lower (Url.before '%' host) ++ host.dropWhile (· ≠ '%')))

end EspressoLogs.Py
