import EspressoLogs.Py.Text
import EspressoLogs.Py.Url

/-!
What the image sourcer asks of the network.

A URL is checked before it is fetched: by its text, and for an image by one lookup
of its host name. The client then reads the URL itself, looks the host up again for
every request, and follows redirects. `connect` and `answer` say what each request
meets, so that lookups may change in between.
-/

namespace EspressoLogs.ImageSourcer

open Py

/-- Addresses that no request is to be sent to. -/
def internal (addr : IpAddress) : Bool :=
  addr.isPrivate || addr.isLoopback || addr.isLinkLocal || addr.isReserved

structure Response where
  status : Nat
  /-- The header `content-type`, empty without one. -/
  contentType : String
  text : String
  chunks : List (List UInt8)
  /-- The connection breaks before the body is complete. -/
  cut : Bool

/-- What a request that was sent meets. -/
inductive Answer where
  | response (r : Response)
  /-- A redirect, by the URL that it leads to. -/
  | redirect (url : String)
  | broken

/-- A page's title, descriptions and image. -/
structure PageContext where
  ogImage : String
  ogTitle : String
  ogDescription : String
  metaDescription : String
  pageTitle : String
  deriving DecidableEq

def PageContext.empty : PageContext := ⟨"", "", "", "", ""⟩

/-- One call's view of the network. -/
structure Web where
  unicode : Unicode
  /-- The addresses of `socket.getaddrinfo(hostname, None)`, `none` where it raises. -/
  getaddrinfo : String → Option (List String)
  /-- The host of a URL as the client reads it, `none` where it refuses the URL. -/
  clientHost : String → Option String
  /-- The address that request number `n` is sent to for a host, `none` without a
  connection. -/
  connect : Nat → String → Option IpAddress
  answer : Nat → Answer
  /-- The tags of a page, by its URL and text. -/
  extract : String → String → PageContext

variable (web : Web)

/-! ### The client -/

/-- The requests from number `n` on, at most so many redirects later, and the
response, `none` where the client raises. -/
def send : Nat → Nat → String → List IpAddress × Option Response
  | redirects, n, url =>
      match web.clientHost url with
      | none => ([], none)
      | some host =>
          match web.connect n host with
          | none => ([], none)
          | some addr =>
              match web.answer n with
              | .response r => ([addr], some r)
              | .broken => ([addr], none)
              | .redirect next =>
                  match redirects with
                  | 0 => ([addr], none)
                  | left + 1 =>
                      let (sent, r) := send left (n + 1) next
                      (addr :: sent, r)

/-- `DEFAULT_MAX_REDIRECTS`. -/
def maxRedirects : Nat := 20

/-- A request with `follow_redirects=True`. -/
def get (url : String) : List IpAddress × Option Response := send web maxRedirects 0 url

/-! ### The checks -/

/-- `_is_safe_url`. -/
def isSafeUrl (url : String) : Bool :=
  match urlparse web.unicode url with
  | none => false
  | some parsed =>
      let host := (parsed.hostname web.unicode).getD ""
      if String.ofList parsed.scheme ∉ ["http", "https"] then false
      else if host = "" then false
      else if host ∈ ["localhost", "127.0.0.1", "::1"] ∨ ".local".toList.isSuffixOf host.toList then
        false
      else
        match IpAddress.ofString host with
        | some addr => !internal addr
        | none => true

/-- The lookup finds no internal address; texts that are no address are passed over. -/
def vetted (hostname : String) : Bool :=
  match web.getaddrinfo hostname with
  | none => false
  | some addrInfos => addrInfos.all fun ipStr => !(IpAddress.ofString ipStr).any internal

/-! ### The two functions -/

/-- `fetch_page_context`. -/
def fetchPageContext (url : String) : List IpAddress × PageContext :=
  if url = "" ∨ !isSafeUrl web url then ([], .empty)
  else
    match get web url with
    | (sent, some r) =>
        (sent, if r.cut ∨ r.status ≠ 200 then .empty else web.extract url r.text)
    | (sent, none) => (sent, .empty)

def allowedContentTypes : List String := ["image/jpeg", "image/png", "image/webp"]

def maxImageBytes : Nat := 2097152

/-- The body of an image, `none` where it is too large or breaks off. -/
def readImage (r : Response) : Option (List UInt8) :=
  if r.chunks.flatten.length > maxImageBytes ∨ r.cut then none else some r.chunks.flatten

/-- `raw_ct.split(";")[0].strip().lower()`. -/
def mediaType (raw : String) : String :=
  String.ofList (web.unicode.lower (strip (String.ofList (Url.before ';' raw.toList))).toList)

/-- `fetch_image_bytes`. -/
def fetchImageBytes (url : String) : List IpAddress × Option (List UInt8 × String) :=
  if !isSafeUrl web url then ([], none)
  else
    match (urlparse web.unicode url).bind (Url.hostname web.unicode) with
    | none => ([], none)
    | some hostname =>
        if !vetted web hostname then ([], none)
        else
          match get web url with
          | (sent, none) => (sent, none)
          | (sent, some r) =>
              let contentType := mediaType web r.contentType
              if r.status ≠ 200 ∨ contentType ∉ allowedContentTypes then (sent, none)
              else (sent, (readImage r).map fun body => (body, contentType))

end EspressoLogs.ImageSourcer
