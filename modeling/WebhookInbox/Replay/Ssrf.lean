import WebhookInbox.Config
import WebhookInbox.Library.Fallible
import WebhookInbox.Library.IpAddress

/-!
# Vetting a replay destination

`validate` decides whether a URL may be called and fixes the address that the
connection goes to. URL parsing and name resolution are not the application's:
they are parameters, the resolver one that may answer every call differently.

`validate_ok` is the contract of the module. A destination that comes out of
`validate` has an allowed scheme, a host and no credentials, its address is the
first of the answer, and every address of that answer is unblocked unless
private networks are allowed.
-/

namespace WebhookInbox.Ssrf

open Library Fallible

/-- The parts of an `httpx.URL` that are read or changed here. The host is
decoded and without brackets, unless decoding it raises; the target is path, query
and fragment. -/
structure Url where
  scheme : Str
  userinfo : Str
  host : Str
  port : Option Nat
  target : Str
  hostRaises : Bool
deriving DecidableEq

/-- `url.copy_with(host=host)` -/
def Url.copyWithHost (url : Url) (host : Str) : Url :=
  { url with host := host, hostRaises := false }

/-- What parsing or joining a URL raises. -/
inductive UrlError where
  | invalidUrl
  | unicodeError
deriving DecidableEq

/-- The URL type of the HTTP client: `httpx.URL(text)`, `str(url)` and
`url.join(location)`. -/
structure UrlApi where
  parse : Str → Except UrlError Url
  text : Url → Str
  join : Url → Str → Except UrlError Url

/-- What `socket.getaddrinfo` does: the addresses of its answer in order, a
resolver error, the error of encoding a host name, or an error of the system. -/
inductive Resolution where
  | addresses (found : List IpAddress)
  | gaierror
  | unicodeError
  | osError
deriving DecidableEq

/-- What leaves `validate`: a rejection, or an error that it does not catch. -/
inductive Rejection where
  | destinationError (message : Str)
  | unicodeError
  | osError
deriving DecidableEq

def Rejection.uncaught : Rejection → Bool
  | .destinationError _ => false
  | .unicodeError | .osError => true

/-- `Destination(url, ip)` -/
structure Destination where
  url : Url
  ip : Str
deriving DecidableEq

/-- The URL to connect to: the vetted address takes the place of the name. -/
def Destination.pinned (target : Destination) : Url := target.url.copyWithHost target.ip

/-- The `Host` header: the real name, in brackets if it is an IPv6 literal, with
the port unless that is absent or zero. -/
def Destination.authority (target : Destination) : Str :=
  let name := target.url.host
  let host := if Text.contains name (lit ":") then lit "[" ++ name ++ lit "]" else name
  match target.url.port with
  | none | some 0 => host
  | some port => host ++ lit ":" ++ Text.ofInt port

def allowedSchemes : List Str := [lit "http", lit "https"]

/-- A mapped address is judged by the IPv4 address inside it, which maps no
further one. -/
def isBlocked (ip : IpAddress) : Bool :=
  let judged := ip.ipv4Mapped.getD ip
  judged.isPrivate || judged.isLoopback || judged.isLinkLocal || judged.isMulticast ||
    judged.isReserved || judged.isUnspecified

example : isBlocked (.v6 0xffff7f000001 none) = true := by decide
example : isBlocked (.v4 0x5db8d822) = false := by decide

/-- A resolver error is a rejection; the other errors pass through. -/
def resolve (answer : Resolution) (host : Str) : Except Rejection (List IpAddress) :=
  match answer with
  | .addresses found => .ok found
  | .gaierror => .error (.destinationError (lit "Cannot resolve '" ++ host ++ lit "'"))
  | .unicodeError => .error .unicodeError
  | .osError => .error .osError

/-- The port of the connection. A missing port and port zero give the default. -/
def connectPort (url : Url) : Nat :=
  match url.port with
  | none | some 0 => if url.scheme = lit "https" then 443 else 80
  | some port => port

/-- The checks that read the URL alone, in order. Reading the host may raise. -/
def checkUrl (url : Url) : Except Rejection Unit :=
  if url.scheme ∉ allowedSchemes then
    let shown := if url.scheme = [] then lit "none" else url.scheme
    .error (.destinationError (lit "Scheme '" ++ shown ++ lit "' is not allowed"))
  else if url.hostRaises then .error .unicodeError
  else if url.host = [] then .error (.destinationError (lit "Destination has no host"))
  else if url.userinfo ≠ [] then
    .error (.destinationError (lit "Credentials in the URL are not allowed"))
  else .ok ()

/-- The checks of the answer: it is not empty, and every address passes. The
message names the first blocked one. -/
def checkAddresses (config : ReplayConfig) (host : Str) (found : List IpAddress) :
    Except Rejection IpAddress :=
  match found with
  | [] => .error (.destinationError (lit "Cannot resolve '" ++ host ++ lit "'"))
  | first :: _ =>
      match if config.allowPrivateNetworks then none else found.find? isBlocked with
      | some candidate =>
          .error (.destinationError
            (lit "'" ++ host ++ lit "' resolves to blocked address " ++ candidate.text))
      | none => .ok first

/-- Vet a URL. The resolver is called once, for the host and port of the URL. -/
def validate (urls : UrlApi) (resolver : Str → Nat → Resolution) (url : Str)
    (config : ReplayConfig) : Except Rejection Destination :=
  match urls.parse url with
  | .error _ => .error (.destinationError (lit "Malformed URL"))
  | .ok parsed => do
      checkUrl parsed
      let found ← resolve (resolver parsed.host (connectPort parsed)) parsed.host
      let first ← checkAddresses config parsed.host found
      pure ⟨parsed, first.text⟩

/-- A URL passes its checks exactly with an allowed scheme, a host that can be read and
no credentials. -/
theorem checkUrl_ok (url : Url) :
    checkUrl url = .ok () ↔ url.scheme ∈ allowedSchemes ∧ url.hostRaises = false ∧
      url.host ≠ [] ∧ url.userinfo = [] := by
  unfold checkUrl
  by_cases scheme : url.scheme ∈ allowedSchemes
  · cases raises : url.hostRaises with
    | true => simp [scheme]
    | false =>
      by_cases host : url.host = []
      · simp [scheme, host]
      · by_cases userinfo : url.userinfo = [] <;> simp [scheme, host, userinfo]
  · simp [scheme]

/-- Only an answer reaches the address checks. -/
theorem resolve_ok {answer : Resolution} {host : Str} {found : List IpAddress}
    (resolved : resolve answer host = .ok found) : answer = .addresses found := by
  cases answer with
  | addresses known => exact congrArg _ (Except.ok.inj resolved)
  | gaierror => cases resolved
  | unicodeError => cases resolved
  | osError => cases resolved

/-- The address used is the first one, and none of them is blocked unless
private networks are allowed. -/
theorem checkAddresses_ok {config : ReplayConfig} {host : Str} {found : List IpAddress}
    {first : IpAddress} (passed : checkAddresses config host found = .ok first) :
    found.head? = some first ∧
      (config.allowPrivateNetworks = false → ∀ address ∈ found, isBlocked address = false) := by
  cases found with
  | nil => cases passed
  | cons head rest =>
    simp only [checkAddresses] at passed
    split at passed
    · cases passed
    · rename_i vetted
      refine ⟨congrArg some (Except.ok.inj passed), ?_⟩
      intro guarded address member
      rw [guarded] at vetted
      simpa using List.find?_eq_none.mp vetted address member

/-- A returned destination has passed every step. -/
theorem validate_cases {urls : UrlApi} {resolver : Str → Nat → Resolution} {url : Str}
    {config : ReplayConfig} {target : Destination}
    (validated : validate urls resolver url config = .ok target) :
    ∃ parsed found first, urls.parse url = .ok parsed ∧ checkUrl parsed = .ok () ∧
      resolve (resolver parsed.host (connectPort parsed)) parsed.host = .ok found ∧
      checkAddresses config parsed.host found = .ok first ∧ target = ⟨parsed, first.text⟩ := by
  unfold validate at validated
  split at validated
  · cases validated
  · rename_i parsed read
    obtain ⟨_, checked, validated⟩ := bind_ok validated
    obtain ⟨found, resolved, validated⟩ := bind_ok validated
    obtain ⟨first, passed, validated⟩ := bind_ok validated
    exact ⟨parsed, found, first, read, checked, resolved, passed, (Except.ok.inj validated).symm⟩

/-- A destination keeps the URL that its text parses to. -/
theorem validate_parse {urls : UrlApi} {resolver : Str → Nat → Resolution} {url : Str}
    {config : ReplayConfig} {target : Destination}
    (validated : validate urls resolver url config = .ok target) :
    urls.parse url = .ok target.url := by
  obtain ⟨parsed, _, _, read, _, _, _, rfl⟩ := validate_cases validated
  exact read

/-- What a successful vetting establishes about its destination. -/
structure Vetted (config : ReplayConfig) (resolver : Str → Nat → Resolution)
    (target : Destination) : Prop where
  scheme : target.url.scheme ∈ allowedSchemes
  host : target.url.host ≠ []
  userinfo : target.url.userinfo = []
  pinned : ∃ found first, resolver target.url.host (connectPort target.url) = .addresses found ∧
    found.head? = some first ∧ target.ip = first.text ∧
    (config.allowPrivateNetworks = false → ∀ address ∈ found, isBlocked address = false)

/-- Every destination that `validate` returns is vetted. -/
theorem validate_ok {urls : UrlApi} {resolver : Str → Nat → Resolution} {url : Str}
    {config : ReplayConfig} {target : Destination}
    (validated : validate urls resolver url config = .ok target) :
    Vetted config resolver target := by
  obtain ⟨parsed, found, first, _, checked, resolved, passed, rfl⟩ := validate_cases validated
  obtain ⟨scheme, _, host, userinfo⟩ := (checkUrl_ok parsed).mp checked
  obtain ⟨head, unblocked⟩ := checkAddresses_ok passed
  exact ⟨scheme, host, userinfo, found, first, resolve_ok resolved, head, rfl, unblocked⟩

/-- The checks of the URL reject with a message, unless its host cannot be read. -/
theorem checkUrl_error {url : Url} {rejection : Rejection}
    (refused : checkUrl url = .error rejection) :
    rejection.uncaught = true ↔ url.scheme ∈ allowedSchemes ∧ url.hostRaises = true := by
  unfold checkUrl at refused
  by_cases scheme : url.scheme ∈ allowedSchemes
  · cases raises : url.hostRaises with
    | true =>
      obtain rfl : Rejection.unicodeError = rejection := by simpa [scheme, raises] using refused
      simp [Rejection.uncaught, scheme]
    | false =>
      by_cases host : url.host = []
      · simp only [scheme, raises, host, not_true_eq_false, Bool.false_eq_true, ↓reduceIte] at refused
        cases refused
        simp [Rejection.uncaught]
      · by_cases userinfo : url.userinfo = []
        · simp [scheme, raises, host, userinfo] at refused
        · simp only [scheme, raises, host, userinfo, not_true_eq_false, Bool.false_eq_true, ne_eq,
            not_false_eq_true, ↓reduceIte] at refused
          cases refused
          simp [Rejection.uncaught]
  · rw [if_pos scheme] at refused
    cases refused
    simp [Rejection.uncaught, scheme]

/-- The checks of the answer reject with a message. -/
theorem checkAddresses_error {config : ReplayConfig} {host : Str} {found : List IpAddress}
    {rejection : Rejection} (refused : checkAddresses config host found = .error rejection) :
    rejection.uncaught = false := by
  unfold checkAddresses at refused
  split at refused
  · cases refused
    rfl
  · split at refused
    · cases refused
      rfl
    · cases refused

/-- The host of a URL with an allowed scheme cannot be read, or a URL that passes its
checks meets an error of the resolver that is no resolution error. -/
def NameFails (resolver : Str → Nat → Resolution) (url : Url) : Prop :=
  url.scheme ∈ allowedSchemes ∧
    (url.hostRaises = true ∨ url.host ≠ [] ∧ url.userinfo = [] ∧
      (resolver url.host (connectPort url) = .unicodeError ∨
        resolver url.host (connectPort url) = .osError))

/-- An error that is no rejection leaves `validate` exactly where the name fails.

Proof: the steps in order. The checks of the URL let such an error pass if the host cannot
be read, the resolver if it raises one, and the checks of the answer never do. -/
theorem validate_uncaught {urls : UrlApi} {resolver : Str → Nat → Resolution} {url : Str}
    (config : ReplayConfig) :
    (∃ rejection, validate urls resolver url config = .error rejection ∧
        rejection.uncaught = true) ↔
      ∃ parsed, urls.parse url = .ok parsed ∧ NameFails resolver parsed := by
  unfold validate
  cases read : urls.parse url with
  | error error => simp [Rejection.uncaught]
  | ok parsed =>
    cases checked : checkUrl parsed with
    | error rejection =>
      have passes : ¬ checkUrl parsed = .ok () := by simp [checked]
      rw [checkUrl_ok] at passes
      have explained := checkUrl_error checked
      simp only [bind, Except.bind, checked, Except.error.injEq, exists_eq_left', explained,
        Except.ok.injEq, NameFails]
      grind
    | ok _ =>
      obtain ⟨scheme, raises, host, userinfo⟩ := (checkUrl_ok parsed).mp checked
      have named : NameFails resolver parsed ↔
          (resolver parsed.host (connectPort parsed) = .unicodeError ∨
            resolver parsed.host (connectPort parsed) = .osError) := by
        simp [NameFails, scheme, raises, host, userinfo]
      simp only [Except.ok.injEq, exists_eq_left', named]
      cases resolver parsed.host (connectPort parsed) with
      | gaierror => simp [checked, resolve, bind, Except.bind, Rejection.uncaught]
      | unicodeError => simp [checked, resolve, bind, Except.bind, Rejection.uncaught]
      | osError => simp [checked, resolve, bind, Except.bind, Rejection.uncaught]
      | addresses found =>
        cases passed : checkAddresses config parsed.host found with
        | ok first => simp [checked, resolve, bind, Except.bind, passed, pure, Except.pure]
        | error rejection =>
          have explained := checkAddresses_error passed
          simp [checked, resolve, bind, Except.bind, passed, explained]

end WebhookInbox.Ssrf
