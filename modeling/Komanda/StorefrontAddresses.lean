import Komanda.Text

/-!
# The addresses of the storefronts (`proxy.ts`, `tenancy/utils/storefront-url.ts`, `lib/config/public-site.ts`)

A storefront has no path of its own: `buildStorefrontUrl` makes a host of the slug, and the proxy in front of every
page reads the slug off the host again and hands it on in a header. A text is the list of its characters; the value of
a header has no character above U+00FF.
-/

namespace Komanda
namespace PublicSite

/-! ## Texts -/

def trim (s : List Char) : List Char :=
  ((s.dropWhile Text.isSpace).reverse.dropWhile Text.isSpace).reverse

def toLowerCase (s : List Char) : List Char := s.map Text.lowerChar

/-- `s.slice(0, -n)` -/
def sliceEnd (n : Nat) (s : List Char) : List Char := s.take (s.length - n)

/-- `a || b` of an optional text. -/
def orElse (a : Option (List Char)) (b : List Char) : List Char :=
  match a with
  | none => b
  | some s => if s = [] then b else s

/-! ## The root domain (`public-site.ts`) -/

/-- The environment of the process. `hostname` is `new URL(…).hostname`, if the text is a URL. -/
structure SiteSettings where
  NEXT_PUBLIC_SITE_URL : Option (List Char) := none
  STOREFRONT_ROOT_DOMAIN : Option (List Char) := none
  hostname : List Char → Option (List Char)

/-- `/^https?:\/\//i` -/
def hasProtocol (value : List Char) : Bool :=
  "http://".toList.isPrefixOf (toLowerCase value) || "https://".toList.isPrefixOf (toLowerCase value)

def normalizeOrigin (value : List Char) : List Char :=
  let withProtocol := if hasProtocol value then value else "https://".toList ++ value
  (withProtocol.reverse.dropWhile (· = '/')).reverse

def legacyRootDomain (site : SiteSettings) : List Char :=
  orElse (site.STOREFRONT_ROOT_DOMAIN.map fun root => toLowerCase (trim root)) "localhost".toList

def storefrontRootDomain (site : SiteSettings) : List Char :=
  match site.NEXT_PUBLIC_SITE_URL.map trim with
  | none => legacyRootDomain site
  | some url =>
    if url = [] then legacyRootDomain site
    else
      match site.hostname (normalizeOrigin url) with
      | none => legacyRootDomain site
      | some hostname => toLowerCase hostname

/-! ## Links (`storefront-url.ts`) -/

/-- The domain of the storefronts of a local server. -/
def dotLocalhost : List Char := ".localhost".toList

structure LinkOptions where
  host : Option (List Char) := none
  protocol : Option (List Char) := none

/-- `host?.split(",")[0]?.trim() || ""` -/
def rawHost (host : Option (List Char)) : List Char :=
  orElse (host.map fun host => trim ((host.splitOn ',').headD [])) []

/-- `rawHost.split(":")` -/
def hostWithoutPort (host : List Char) : List Char := (host.splitOn ':').headD []

def portSuffix (host : List Char) : List Char :=
  match (host.splitOn ':')[1]? with
  | none => []
  | some port => if port = [] then [] else ':' :: port

/-- `protocol?.replace(/:$/, "")` -/
def dropColon (protocol : List Char) : List Char :=
  if [':'] <:+ protocol then protocol.dropLast else protocol

def isLocalHost (host : List Char) : Bool := host = "localhost".toList || host = "127.0.0.1".toList

def isLocal (site : SiteSettings) (options : LinkOptions) : Bool :=
  storefrontRootDomain site = "localhost".toList || isLocalHost (hostWithoutPort (rawHost options.host))

def buildStorefrontUrl (site : SiteSettings) (slug : List Char) (options : LinkOptions) : List Char :=
  if isLocal site options then
    orElse (options.protocol.map dropColon) "http".toList ++ "://".toList ++ slug ++ dotLocalhost ++
      portSuffix (rawHost options.host)
  else
    orElse (options.protocol.map dropColon) "https".toList ++ "://".toList ++ slug ++ '.' :: storefrontRootDomain site

/-- `window` is the host and the protocol of `window.location`, in a browser. -/
def buildPublicDirectoryUrl (options : LinkOptions) (tenantSlug : Option (List Char))
    (window : Option (List Char × List Char)) : List Char :=
  let host := orElse (some (rawHost options.host)) ((window.map Prod.fst).getD [])
  if host = [] then "/".toList
  else
    let name := hostWithoutPort host
    let proto := orElse (some (dropColon (orElse options.protocol ((window.map Prod.snd).getD [])))) "http".toList
    if isLocalHost name ∨ dotLocalhost <:+ name then
      proto ++ "://localhost".toList ++ portSuffix host ++ "/".toList
    else
      match tenantSlug.filter fun slug => slug ≠ [] ∧ slug ++ ['.'] <+: name with
      | some slug => proto ++ "://".toList ++ name.drop (slug.length + 1) ++ portSuffix host ++ "/".toList
      | none =>
        if 3 ≤ (name.splitOn '.').length then
          proto ++ "://".toList ++ ['.'].intercalate ((name.splitOn '.').drop 1) ++ portSuffix host ++ "/".toList
        else "/".toList

/-! ## The proxy -/

def TENANT_HINT_HEADER : String := "x-komanda-tenant-slug"

/-- The names of the headers are in lower case, and each stands once. -/
structure NextRequest where
  pathname : List Char
  headers : List (String × List Char)

def header (name : String) (headers : List (String × List Char)) : Option (List Char) :=
  (headers.find? (·.1 = name)).map (·.2)

/-- `[a-z0-9]` -/
def slugChar (c : Char) : Bool := ('a' ≤ c && c ≤ 'z') || c.isDigit

/-- `/^[a-z0-9]+(?:-[a-z0-9]+)*$/` -/
def isSlug (s : List Char) : Bool := (s.splitOn '-').all fun part => part ≠ [] && part.all slugChar

def normalizedSlug (value : List Char) : Option (List Char) :=
  let normalized := toLowerCase (trim value)
  if value ≠ [] && isSlug normalized then some normalized else none

/-- `/^\/storefronts\/([^/]+)/` -/
def storefrontPath (pathname : List Char) : Option (List Char) :=
  let segment := (pathname.drop "/storefronts/".length).takeWhile (· ≠ '/')
  if "/storefronts/".toList <+: pathname ∧ segment ≠ [] then some segment else none

def slugFromHost (site : SiteSettings) (host : List Char) : Option (List Char) :=
  let root := storefrontRootDomain site
  if host = [] then none
  else if dotLocalhost <:+ host then normalizedSlug (sliceEnd dotLocalhost.length host)
  else if root = [] ∨ host = root ∨ ¬ '.' :: root <:+ host then none
  else normalizedSlug (sliceEnd (root.length + 1) host)

def slugFromRequest (site : SiteSettings) (request : NextRequest) : Option (List Char) :=
  match storefrontPath request.pathname with
  | some segment => normalizedSlug segment
  | none =>
    match (header "x-forwarded-host" request.headers).or (header "host" request.headers) with
    | none => none
    | some host => slugFromHost site (toLowerCase (hostWithoutPort host))

/-- The headers that the pages see. -/
def proxy (site : SiteSettings) (request : NextRequest) : List (String × List Char) :=
  let headers := request.headers.filter (·.1 ≠ TENANT_HINT_HEADER)
  match slugFromRequest site request with
  | some slug => headers ++ [(TENANT_HINT_HEADER, slug)]
  | none => headers

end PublicSite
end Komanda
