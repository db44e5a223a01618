import Obelus.Data.Text
import Obelus.Live.WebEvidence.PublicAddress

/-!
# Evidence requests

A request of the secure transport with its redirects.  The URL class and `toLowerCase` of
the platform, the resolver and the raw request are parameters; the resolver and the raw
request may answer each redirect in their own way.
-/

namespace Obelus.Live.WebEvidence

open Obelus.Data

def maxRedirects : Nat := 3

def maxUrlLength : Nat := 2048

/-- The components of a URL object. -/
structure Url where
  protocol : String
  username : String
  password : String
  hostname : String
  port : String
  pathname : String
  search : String
  hash : String

/-- The origin of a URL that has a host. -/
def Url.origin (url : Url) : String :=
  url.protocol ++ "//" ++ url.hostname ++ (if url.port = "" then "" else ":" ++ url.port)

/-- `parse` is `new URL`, `href` is `toString`, and `assignedHostname` is the hostname that
an object has after the assignment of one. -/
structure Platform where
  parse : String → Option Url → Option Url
  href : Url → String
  assignedHostname : Url → String → String
  searchParams : String → List (String × String)
  searchOf : List (String × String) → String
  toLowerCase : String → String

inductive RequestError
  | evidence (message : String)
  | invalidUrl
  | rejected

inductive HttpMethod
  | get
  | post
  deriving DecidableEq

inductive HeaderValue
  | one (value : String)
  | many (values : List String)

structure SecureResponse where
  url : Url
  statusCode : Nat
  headers : List (String × HeaderValue)
  body : List UInt8

structure SecureRequestOptions where
  method : Option HttpMethod
  headers : Option (List (String × String))
  body : Option String
  maxBytes : Nat
  timeoutMs : Nat
  contentTypes : List String
  allowedRedirectOrigins : Option (List String)

structure ResolvedAddress where
  address : String
  family : Nat

structure RawRequestOptions where
  url : Url
  address : ResolvedAddress
  method : HttpMethod
  headers : List (String × String)
  body : Option String
  maxBytes : Nat
  timeoutMs : Nat

/-- What the resolver and the raw request answer, after a number of redirects. -/
structure Network where
  resolveHost : Nat → String → Option (List ResolvedAddress)
  rawRequest : Nat → RawRequestOptions → Option SecureResponse

def utf16Length (text : String) : Nat :=
  (text.toList.map fun c => if c.val ≤ 0xFFFF then 1 else 2).sum

def hasSuffix (text suffix : String) : Bool :=
  suffix.toList.isSuffixOf text.toList

/-- A label of letters, digits and inner hyphens. -/
def isSafeLabel (label : List Char) : Bool :=
  1 ≤ label.length && label.length ≤ 63 && label.all (fun c => c.isAlphanum || c == '-') &&
    label.head? != some '-' && label.getLast? != some '-'

def isSafePublicHostname (hostname : String) : Bool :=
  if hostname = "" ∨ utf16Length hostname > 253 ∨ isIP hostname ≠ 0 ∨ hostname = "localhost" ∨
      hasSuffix hostname ".localhost" ∨ hasSuffix hostname ".local" ∨
      hasSuffix hostname ".internal" ∨ hasSuffix hostname ".home" ∨
      hasSuffix hostname ".lan" then
    false
  else
    let labels := hostname.toList.splitOn '.'
    2 ≤ labels.length && labels.all isSafeLabel

def trackingParameters : List String :=
  ["fbclid", "gclid", "mc_cid", "mc_eid", "utm_campaign", "utm_content", "utm_medium",
    "utm_source", "utm_term"]

def withoutFinalDot (text : String) : String :=
  if text.toList.getLast? = some '.' then String.ofList text.toList.dropLast else text

namespace Platform

variable (platform : Platform)

def isTracking (key : String) : Bool :=
  trackingParameters.contains (platform.toLowerCase key) ||
    "utm_".toList.isPrefixOf (platform.toLowerCase key).toList

/-- The loop over the keys of the search parameters. -/
def deleteTracking (url : Url) : Url :=
  (platform.searchParams url.search).foldl
    (fun url parameter =>
      if platform.isTracking parameter.1 then
        { url with
          search := platform.searchOf
            ((platform.searchParams url.search).filter fun other => other.1 ≠ parameter.1) }
      else url)
    url

def canonicalizePublicUrl (value : Url) : Except RequestError Url :=
  match platform.parse (platform.href value) none with
  | none => .error .invalidUrl
  | some url =>
    if url.protocol ≠ "https:" ∨ url.username ≠ "" ∨ url.password ≠ "" ∨ url.port ≠ "" ∨
        utf16Length (platform.href url) > maxUrlLength then
      .error (.evidence "An evidence URL was blocked by the public HTTPS policy.")
    else
      let url := { url with hash := "" }
      let hostname := withoutFinalDot (platform.toLowerCase url.hostname)
      if isSafePublicHostname hostname then
        .ok (platform.deleteTracking
          { url with hostname := platform.assignedHostname url hostname })
      else
        .error (.evidence "An evidence URL was blocked because its host is not public.")

end Platform

def firstHeader : Option HeaderValue → Option String
  | some (.one value) => some value
  | some (.many values) => values.head?
  | none => none

def SecureResponse.header (response : SecureResponse) (name : String) : Option String :=
  firstHeader (response.headers.lookup name)

namespace Platform

variable (platform : Platform)

def safeRequestHeaders (headers : List (String × String)) : List (String × String) :=
  headers.filter fun header =>
    ["accept", "accept-language", "content-type", "user-agent"].contains
      (platform.toLowerCase header.1)

def assertAllowedContentType (response : SecureResponse) (allowed : List String) :
    Except RequestError Unit :=
  let contentType := (response.header "content-type").map fun raw =>
    platform.toLowerCase (trim (String.ofList (raw.toList.takeWhile (· != ';'))))
  match contentType with
  | some contentType =>
    if contentType ≠ "" ∧ contentType ∈ allowed then .ok ()
    else .error (.evidence "An evidence response used a blocked content type.")
  | none => .error (.evidence "An evidence response used a blocked content type.")

def redirectStatuses : List Nat :=
  [301, 302, 303, 307, 308]

/-- A response that is not a redirect. -/
def accept (options : SecureRequestOptions) (response : SecureResponse) :
    Except RequestError SecureResponse :=
  match platform.assertAllowedContentType response options.contentTypes with
  | .error error => .error error
  | .ok () =>
    if response.body.length > options.maxBytes then
      .error (.evidence "An evidence response exceeded the allowed size.")
    else .ok response

/-- The URL of the next request. -/
def follow (options : SecureRequestOptions) (url : Url) (response : SecureResponse) :
    Except RequestError Url :=
  match response.header "location" with
  | none => .error (.evidence "An evidence provider returned an invalid redirect.")
  | some location =>
    if location = "" then
      .error (.evidence "An evidence provider returned an invalid redirect.")
    else
      match platform.parse location (some url) with
      | none => .error .invalidUrl
      | some target =>
        match platform.canonicalizePublicUrl target with
        | .error error => .error error
        | .ok next =>
          if options.allowedRedirectOrigins.any fun origins => !origins.contains next.origin
          then
            .error (.evidence
              "An evidence request was blocked from redirecting to another host.")
          else .ok next

end Platform

/-- The next request is a `GET` without a body. -/
def becomesGet (statusCode : Nat) (method : HttpMethod) : Bool :=
  statusCode = 303 || ((statusCode = 301 || statusCode = 302) && method = .post)

/-- A raw request, the resolver's answer before it and the response. -/
structure RawExchange where
  request : RawRequestOptions
  answer : List ResolvedAddress
  response : Option SecureResponse

namespace SecureWebTransport

variable (platform : Platform) (network : Network) (options : SecureRequestOptions)

/-- The loop of `request` with the number of requests that are left and the number of
redirects so far. -/
def hops : Nat → Nat → Url → HttpMethod → Option String →
    List RawExchange × Except RequestError SecureResponse
  | 0, _, _, _, _ =>
    ([], .error (.evidence "An evidence request exceeded the redirect limit."))
  | left + 1, redirectCount, url, method, body =>
    match network.resolveHost redirectCount url.hostname with
    | none => ([], .error .rejected)
    | some [] =>
      ([], .error (.evidence
        "An evidence request was blocked because its host is not public."))
    | some (address :: others) =>
      if (address :: others).any fun entry => !isPublicIpAddress entry.address then
        ([], .error (.evidence
          "An evidence request was blocked because its host is not public."))
      else
        let request : RawRequestOptions :=
          { url, address, method, body
            headers := platform.safeRequestHeaders (options.headers.getD [])
            maxBytes := options.maxBytes
            timeoutMs := options.timeoutMs }
        let response := network.rawRequest redirectCount request
        let exchange : RawExchange := ⟨request, address :: others, response⟩
        match response with
        | none => ([exchange], .error .rejected)
        | some response =>
          if response.statusCode ∉ Platform.redirectStatuses then
            ([exchange], platform.accept options response)
          else if redirectCount = maxRedirects then
            ([exchange],
              .error (.evidence "An evidence request exceeded the redirect limit."))
          else
            match platform.follow options url response with
            | .error error => ([exchange], .error error)
            | .ok next =>
              let rest :=
                if becomesGet response.statusCode method then
                  hops left (redirectCount + 1) next .get none
                else hops left (redirectCount + 1) next method body
              (exchange :: rest.1, rest.2)

/-- The raw requests that `request` issues, and what it returns. -/
def request (initialUrl : Url) : List RawExchange × Except RequestError SecureResponse :=
  match platform.canonicalizePublicUrl initialUrl with
  | .error error => ([], .error error)
  | .ok url =>
    hops platform network options (maxRedirects + 1) 0 url (options.method.getD .get)
      options.body

end SecureWebTransport

/-!
## Evidence requests reach public hosts

Each request of a chain of redirects is made to a canonical URL and to an address of an
answer that passed the filter.
-/

open Obelus.Data List

structure Url.IsSecure (url : Url) : Prop where
  protocol : url.protocol = "https:"
  username : url.username = ""
  password : url.password = ""
  port : url.port = ""

theorem isSecure_deleteTracking (platform : Platform) {url : Url} (secure : url.IsSecure) :
    (platform.deleteTracking url).IsSecure := by
  unfold Platform.deleteTracking
  generalize platform.searchParams url.search = parameters
  induction parameters generalizing url with
  | nil => exact secure
  | cons parameter rest ih =>
    rw [foldl_cons]
    apply ih
    split
    · exact { secure with }
    · exact secure

theorem isSecure_of_canonicalizePublicUrl {platform : Platform} {value url : Url}
    (canonical : platform.canonicalizePublicUrl value = .ok url) : url.IsSecure := by
  unfold Platform.canonicalizePublicUrl at canonical
  split at canonical
  · cases canonical
  · split at canonical
    · cases canonical
    · next allowed =>
      simp only [not_or, not_not] at allowed
      obtain ⟨protocol, username, password, port, -⟩ := allowed
      dsimp only at canonical
      split at canonical
      · cases canonical
        exact isSecure_deleteTracking platform ⟨protocol, username, password, port⟩
      · cases canonical

theorem isSecure_of_follow {platform : Platform} {options : SecureRequestOptions}
    {url next : Url} {response : SecureResponse}
    (followed : platform.follow options url response = .ok next) : next.IsSecure := by
  unfold Platform.follow at followed
  split at followed
  · cases followed
  · split at followed
    · cases followed
    · split at followed
      · cases followed
      · split at followed
        · cases followed
        · next target canonical =>
          split at followed
          · cases followed
          · cases followed
            exact isSecure_of_canonicalizePublicUrl canonical

/-- An exchange for a URL, as the transport makes it. -/
structure RawExchange.IsFor (network : Network) (redirectCount : Nat) (url : Url)
    (method : HttpMethod) (body : Option String) (exchange : RawExchange) : Prop where
  isUrl : exchange.request.url = url
  isMethod : exchange.request.method = method
  isBody : exchange.request.body = body
  resolved : network.resolveHost redirectCount url.hostname = some exchange.answer
  address : exchange.request.address ∈ exchange.answer
  isPublic : ∀ entry ∈ exchange.answer, isPublicIpAddress entry.address

/-- The exchanges of a request with a number of redirects behind it and a number of
requests that are left. -/
inductive Chain (platform : Platform) (network : Network) (options : SecureRequestOptions) :
    Nat → Nat → Url → HttpMethod → Option String → List RawExchange → Prop
  | stop {left redirectCount url method body} :
      Chain platform network options left redirectCount url method body []
  | last {left redirectCount url method body exchange} :
      exchange.IsFor network redirectCount url method body →
      Chain platform network options (left + 1) redirectCount url method body [exchange]
  | becomesGet {left redirectCount url method body exchange response next exchanges} :
      exchange.IsFor network redirectCount url method body →
      exchange.response = some response →
      WebEvidence.becomesGet response.statusCode method →
      platform.follow options url response = .ok next →
      Chain platform network options left (redirectCount + 1) next .get none exchanges →
      Chain platform network options (left + 1) redirectCount url method body
        (exchange :: exchanges)
  | keeps {left redirectCount url method body exchange response next exchanges} :
      exchange.IsFor network redirectCount url method body →
      exchange.response = some response →
      WebEvidence.becomesGet response.statusCode method = false →
      platform.follow options url response = .ok next →
      Chain platform network options left (redirectCount + 1) next method body exchanges →
      Chain platform network options (left + 1) redirectCount url method body
        (exchange :: exchanges)

section Chains

variable {platform : Platform} {network : Network} {options : SecureRequestOptions}
  {left redirectCount : Nat} {url : Url} {method : HttpMethod} {body : Option String}
  {exchanges : List RawExchange}

theorem chain_hops : Chain platform network options left redirectCount url method body
    (SecureWebTransport.hops platform network options left redirectCount url method body).1 := by
  induction left generalizing redirectCount url method body with
  | zero => exact .stop
  | succ left ih =>
    unfold SecureWebTransport.hops
    split
    · exact .stop
    · exact .stop
    · next address others resolved =>
      split
      · exact .stop
      · next notBlocked =>
        have isPublic : ∀ entry ∈ address :: others, isPublicIpAddress entry.address := by
          simpa using notBlocked
        have isFor (response : Option SecureResponse) :
            RawExchange.IsFor network redirectCount url method body
              ⟨{ url, address, method, body
                 headers := platform.safeRequestHeaders (options.headers.getD [])
                 maxBytes := options.maxBytes
                 timeoutMs := options.timeoutMs }, address :: others, response⟩ :=
          ⟨rfl, rfl, rfl, resolved, .head _, isPublic⟩
        dsimp only
        split
        · exact .last (isFor _)
        · next response answered =>
          split
          · exact .last (isFor _)
          · split
            · exact .last (isFor _)
            · split
              · exact .last (isFor _)
              · next next followed =>
                split
                · next gets => exact .becomesGet (isFor _) answered gets followed ih
                · next stays =>
                  exact .keeps (isFor _) answered (by simpa using stays) followed ih

namespace Chain

variable (chain : Chain platform network options left redirectCount url method body exchanges)
include chain

theorem length_le : exchanges.length ≤ left := by
  induction chain with
  | stop => exact Nat.zero_le _
  | last isFor => exact Nat.succ_le_succ (Nat.zero_le _)
  | becomesGet isFor answered gets followed rest ih => exact Nat.succ_le_succ ih
  | keeps isFor answered stays followed rest ih => exact Nat.succ_le_succ ih

theorem secure (isSecure : url.IsSecure) :
    ∀ exchange ∈ exchanges, exchange.request.url.IsSecure := by
  induction chain with
  | stop => simp
  | last isFor => simpa [isFor.isUrl] using isSecure
  | becomesGet isFor answered gets followed rest ih =>
    exact forall_mem_cons.mpr ⟨isFor.isUrl ▸ isSecure, ih (isSecure_of_follow followed)⟩
  | keeps isFor answered stays followed rest ih =>
    exact forall_mem_cons.mpr ⟨isFor.isUrl ▸ isSecure, ih (isSecure_of_follow followed)⟩

/-- Each exchange is for its own URL, method and body. -/
theorem isFor {place : Nat} {exchange : RawExchange}
    (isAt : exchanges[place]? = some exchange) :
    exchange.IsFor network (redirectCount + place) exchange.request.url exchange.request.method
      exchange.request.body := by
  induction chain generalizing place with
  | stop => simp at isAt
  | last first =>
    cases place with
    | zero =>
      cases isAt
      rw [first.isUrl, first.isMethod, first.isBody]
      exact first
    | succ place => simp at isAt
  | becomesGet first answered gets followed rest ih =>
    cases place with
    | zero =>
      cases isAt
      rw [first.isUrl, first.isMethod, first.isBody]
      exact first
    | succ place =>
      have later := ih isAt
      rwa [Nat.add_right_comm] at later
  | keeps first answered stays followed rest ih =>
    cases place with
    | zero =>
      cases isAt
      rw [first.isUrl, first.isMethod, first.isBody]
      exact first
    | succ place =>
      have later := ih isAt
      rwa [Nat.add_right_comm] at later

/-- A request without a body stays without one. -/
theorem noBody (isNone : body = none) : ∀ exchange ∈ exchanges, exchange.request.body = none := by
  induction chain with
  | stop => simp
  | last isFor => simpa [isFor.isBody] using isNone
  | becomesGet isFor answered gets followed rest ih =>
    exact forall_mem_cons.mpr ⟨isFor.isBody.trans isNone, ih rfl⟩
  | keeps isFor answered stays followed rest ih =>
    exact forall_mem_cons.mpr ⟨isFor.isBody.trans isNone, ih isNone⟩

end Chain

/-- The answer was a 303, or a 301 or 302 to a `POST`. -/
def RawExchange.DropsBody (exchange : RawExchange) : Prop :=
  ∃ response, exchange.response = some response ∧
    (response.statusCode = 303 ∨
      ((response.statusCode = 301 ∨ response.statusCode = 302) ∧
        exchange.request.method = .post))

theorem becomesGet_of_dropsBody {exchange : RawExchange} {response : SecureResponse}
    (drops : exchange.DropsBody) (answered : exchange.response = some response) :
    becomesGet response.statusCode exchange.request.method := by
  obtain ⟨own, ownAnswer, drops⟩ := drops
  cases answered.symm.trans ownAnswer
  simpa [becomesGet] using drops

theorem Chain.bodyDropped
    (chain : Chain platform network options left redirectCount url method body exchanges) :
    exchanges.Pairwise fun earlier later => earlier.DropsBody → later.request.body = none := by
  induction chain with
  | stop => exact .nil
  | last isFor => exact pairwise_singleton _ _
  | becomesGet isFor answered gets followed rest ih =>
    exact .cons (fun later member _ => rest.noBody rfl later member) ih
  | keeps isFor answered stays followed rest ih =>
    refine .cons (fun later member drops => ?_) ih
    have gets := becomesGet_of_dropsBody drops answered
    rw [isFor.isMethod, stays] at gets
    cases gets

end Chains

/-- The requests are secure, go to addresses of answers without a blocked address, are at
most one more than the redirects, and drop the body when they should. -/
structure SafeRequests (blocked : IpAddress → Prop) (network : Network)
    (exchanges : List RawExchange) : Prop where
  secure : ∀ exchange ∈ exchanges, exchange.request.url.IsSecure
  resolved : ∀ redirectCount exchange, exchanges[redirectCount]? = some exchange →
    network.resolveHost redirectCount exchange.request.url.hostname = some exchange.answer ∧
    exchange.request.address ∈ exchange.answer
  routable : ∀ exchange ∈ exchanges, ∀ entry ∈ exchange.answer,
    ∃ address, ipAddress? entry.address = some address ∧ ¬blocked address
  bounded : exchanges.length ≤ maxRedirects + 1
  bodyDropped : exchanges.Pairwise fun earlier later =>
    earlier.DropsBody → later.request.body = none

/-- No request reaches a blocked address, and the filter refuses every text of one. -/
structure ReachesPublicHosts (blocked : IpAddress → Prop) : Prop where
  requests : ∀ platform network options initialUrl, SafeRequests blocked network
    (SecureWebTransport.request platform network options initialUrl).1
  filter : ∀ text address, ipAddress? text = some address → blocked address →
    isPublicIpAddress text = false

theorem safeRequests (platform : Platform) (network : Network) (options : SecureRequestOptions)
    (initialUrl : Url) : SafeRequests Filtered network
      (SecureWebTransport.request platform network options initialUrl).1 := by
  unfold SecureWebTransport.request
  split
  · exact ⟨by simp, by simp, by simp, by simp, .nil⟩
  · next url canonical =>
    have chain : Chain platform network options (maxRedirects + 1) 0 url
        (options.method.getD .get) options.body _ := chain_hops
    refine ⟨chain.secure (isSecure_of_canonicalizePublicUrl canonical), ?_, ?_,
      chain.length_le, chain.bodyDropped⟩
    · intro redirectCount exchange isAt
      have isFor := chain.isFor isAt
      rw [Nat.zero_add] at isFor
      exact ⟨isFor.resolved, isFor.address⟩
    · intro exchange member entry inAnswer
      obtain ⟨place, isAt⟩ := mem_iff_getElem?.mp member
      have isPublic := (chain.isFor isAt).isPublic entry inAnswer
      obtain ⟨address, writes⟩ := exists_address_of_isPublicIpAddress isPublic
      exact ⟨address, writes, not_filtered_of_isPublicIpAddress writes isPublic⟩

/-- No request reaches an address that the filter is meant to refuse. -/
theorem reachesPublicHosts_filtered : ReachesPublicHosts Filtered where
  requests := safeRequests
  filter := fun _ _ writes filtered =>
    Bool.eq_false_iff.mpr fun isPublic => not_filtered_of_isPublicIpAddress writes isPublic filtered

/-- The mapped text of a public IPv4 address passes the filter. -/
theorem not_reachesPublicHosts_mappedAddress :
    ipAddress? "::ffff:808:808" = some (.v6 [0, 0, 0, 0, 0, 0xffff, 0x808, 0x808]) ∧
      isPublicIpAddress "::ffff:808:808" = true ∧ ¬ReachesPublicHosts NotGloballyReachable := by
  have writes : ipAddress? "::ffff:808:808" =
      some (.v6 [0, 0, 0, 0, 0, 0xffff, 0x808, 0x808]) := by decide +kernel
  have isPublic : isPublicIpAddress "::ffff:808:808" = true := by decide +kernel
  refine ⟨writes, isPublic, fun reaches => ?_⟩
  have special : NotGloballyReachable (.v6 [0, 0, 0, 0, 0, 0xffff, 0x808, 0x808]) :=
    ⟨mappedIpv4Block, .head _, by decide +kernel⟩
  exact absurd (reaches.filter _ _ writes special) (by rw [isPublic]; decide)

end Obelus.Live.WebEvidence
