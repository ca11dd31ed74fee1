import WebhookInbox.Library.Dict
import WebhookInbox.Library.Encoding
import WebhookInbox.Replay.Ssrf

/-!
# One delivery attempt

`send` follows redirects by hand: each hop is vetted from scratch and its request
goes to the address that this vetting fixed. Resolver and client are arbitrary
and may answer differently at every hop, so they take the number of the hop.

The result of a run is paired with the requests that were issued, in order.
What can leave `execute` as an exception is stated exactly by `execute_raises`.
-/

namespace WebhookInbox.Runner

open Library Ssrf

/-- The exceptions of the client, while sending or while reading the body. -/
inductive ClientError where
  | timeoutException
  | transportError (message : Str)
  | decodingError
  | unicodeEncodeError
deriving DecidableEq

/-- A response: the body arrives in chunks, and reading it may end in an error. Where the
client refuses a response for its headers, as one that redirects to no URL, that error
comes before any chunk. The header names are in lower case and each occurs once. -/
structure Answer where
  statusCode : Nat
  headers : Dict Str Str
  chunks : List Bytes
  broken : Option ClientError

/-- A request as the client receives it. -/
structure Request where
  method : Str
  url : Url
  headers : Dict Str Str
  content : Option Bytes
  sniHostname : Str

/-- What the application does not decide: URL syntax, name resolution, and the
behaviour of the client. The last two may depend on the hop. -/
structure World where
  urls : UrlApi
  resolver : Nat → Str → Nat → Resolution
  client : Nat → Request → Except ClientError Answer

structure Attempt where
  statusCode : Option Nat := none
  headers : Dict Str Str := []
  body : Str := []
  truncated : Bool := false
  durationMs : Int := 0
  error : Option Str := none
  retryable : Bool := false
deriving DecidableEq

/-- `attempt.succeeded` -/
def Attempt.succeeded (attempt : Attempt) : Bool :=
  attempt.error.isNone && (attempt.statusCode.map (fun status => decide (status < 400))).getD false

/-- What leaves `send` as an exception. -/
inductive Raised where
  | destinationError (message : Str)
  | client (error : ClientError)
  | invalidUrl
  | unicodeError
  | osError
deriving DecidableEq

def Raised.ofRejection : Rejection → Raised
  | .destinationError message => .destinationError message
  | .unicodeError => .unicodeError
  | .osError => .osError

def Raised.ofUrlError : UrlError → Raised
  | .invalidUrl => .invalidUrl
  | .unicodeError => .unicodeError

def blockedHeaders : List Str :=
  [lit "authorization", lit "cookie", lit "proxy-authorization", lit "host", lit "content-length",
    lit "connection", lit "transfer-encoding", lit "te", lit "upgrade", lit "expect"]

def hopByHopHeaders : List Str :=
  [lit "host", lit "content-length", lit "connection", lit "transfer-encoding", lit "te",
    lit "upgrade", lit "expect"]

def forwardExact : List Str := [lit "content-type", lit "accept", lit "user-agent"]

def forwardPrefixes : List Str := [lit "x-", lit "stripe-"]

def retryableStatus : List Nat := [429, 500, 502, 503, 504, 507, 508, 509]

/-- The headers of the original request that a replay may repeat. -/
def forwardable (casing : Casing) (headers : Dict Str Str) : Dict Str Str :=
  headers.foldl (fun forwarded item =>
    let lowered := casing.lower item.1
    if lowered ∈ blockedHeaders then forwarded
    else if lowered ∈ forwardExact ∨ forwardPrefixes.any (Text.startsWith lowered) then
      Dict.set forwarded lowered item.2
    else forwarded) []

/-- The headers of a replay: chosen ones override forwarded ones. -/
def mergeHeaders (casing : Casing) (original custom : Dict Str Str) : Dict Str Str :=
  let chosen := Dict.ofPairs ((custom.filter
    (fun item => decide (casing.lower item.1 ∉ hopByHopHeaders))).map
    (fun item => (casing.lower item.1, item.2)))
  Dict.union (forwardable casing original) chosen

/-- The chunks that fit, and whether one did not. Reading stops at the first
chunk that exceeds the limit. -/
def readChunks (limit : Int) : Nat → List Bytes → Bytes × Bool
  | _, [] => ([], false)
  | total, chunk :: rest =>
      if limit < ((total + chunk.length : Nat) : Int) then ([], true)
      else
        let (body, truncated) := readChunks limit (total + chunk.length) rest
        (chunk ++ body, truncated)

/-- The request for a vetted destination. -/
def requestFor (target : Destination) (method : Str) (headers : Dict Str Str) (body : Bytes) :
    Request where
  method := method
  url := target.pinned
  headers := Dict.set headers (lit "Host") target.authority
  content := if body = [] then none else some body
  sniHostname := target.url.host

/-- Issue one request and read its body. An error at the end of the chunks is
only met if the limit did not stop the reading before. -/
def request (client : Request → Except ClientError Answer) (issued : Request)
    (config : ReplayConfig) : Except ClientError (Answer × Bytes × Bool) :=
  match client issued with
  | .error error => .error error
  | .ok response =>
      let (body, truncated) := readChunks config.maxResponseSize 0 response.chunks
      match response.broken with
      | some error => if truncated then .ok (response, body, truncated) else .error error
      | none => .ok (response, body, truncated)

/-- What is read is the response that the client returned. -/
theorem request_ok {client : Request → Except ClientError Answer} {issued : Request}
    {config : ReplayConfig} {response : Answer} {body : Bytes} {truncated : Bool}
    (read : request client issued config = .ok (response, body, truncated)) :
    client issued = .ok response := by
  unfold request at read
  cases answered : client issued with
  | error error => simp [answered] at read
  | ok answer =>
    simp only [answered] at read
    split at read
    · split at read
      · cases read
        rfl
      · cases read
    · cases read
      rfl

/-- The attempt that a final response amounts to. -/
def result (response : Answer) (body : Bytes) (truncated : Bool) : Attempt where
  statusCode := some response.statusCode
  headers := response.headers
  body := Encoding.decodeUtf8Replace body
  truncated := truncated
  retryable := decide (response.statusCode ∈ retryableStatus)

/-- The place a response redirects to, if its status and header say so. -/
def redirection (response : Answer) : Option Str :=
  if 300 ≤ response.statusCode ∧ response.statusCode < 400 then
    (Dict.get response.headers (lit "location")).filter (· ≠ [])
  else none

section
variable (world : World) (method : Str) (headers : Dict Str Str) (body : Bytes)
  (config : ReplayConfig)

/-- What one hop comes to: it is over, or the next hop has this URL. -/
inductive Hop where
  | done (outcome : Except Raised Attempt)
  | redirect (url : Str)

/-- What follows a request: its error, its result, or the URL of the next hop. -/
def afterRequest (target : Destination) :
    Except ClientError (Answer × Bytes × Bool) → Hop
  | .error error => .done (.error (.client error))
  | .ok (response, bodyBytes, truncated) =>
      match redirection response with
      | none => .done (.ok (result response bodyBytes truncated))
      | some location =>
          if config.allowRedirects then
            match world.urls.join target.url location with
            | .error error => .done (.error (.ofUrlError error))
            | .ok joined => .redirect (world.urls.text joined)
          else .done (.ok (result response bodyBytes truncated))

/-- One hop: vet the URL, issue the request if it passes, and read the answer. -/
def hopStep (hop : Nat) (url : Str) : Option Request × Hop :=
  match validate world.urls (world.resolver hop) url config with
  | .error rejection => (none, .done (.error (.ofRejection rejection)))
  | .ok target =>
      let issued := requestFor target method headers body
      (some issued, afterRequest world config target (request (world.client hop) issued config))

/-- The loop over the hops that are left. -/
def sendLoop : Nat → Nat → Str → List Request × Except Raised Attempt
  | 0, _, _ => ([], .error (.destinationError (lit "Too many redirects")))
  | left + 1, hop, url =>
      let (issued, next) := hopStep world method headers body config hop url
      match next with
      | .done outcome => (issued.toList, outcome)
      | .redirect location =>
          let (later, outcome) := sendLoop left (hop + 1) location
          (issued.toList ++ later, outcome)

/-- `range(config.max_redirects + 1)` counts nothing when the bound is negative. -/
def hopBudget : Nat := (config.maxRedirects + 1).toNat

/-- `_send(url, method, headers, body, config)` with the requests it issues. -/
def send (url : Str) : List Request × Except Raised Attempt :=
  sendLoop world method headers body config (hopBudget config) 0 url

/-- `execute` turns a rejected destination, a timeout and a transport error into
a failed attempt. Every other exception leaves it. -/
def execute (elapsed : Int) (url : Str) : Except Raised Attempt :=
  match (send world method headers body config url).2 with
  | .ok attempt => .ok { attempt with durationMs := elapsed }
  | .error (.destinationError message) =>
      .ok { error := some message, retryable := false, durationMs := elapsed }
  | .error (.client .timeoutException) =>
      .ok { error := some (lit "Timed out after " ++ Text.ofInt config.timeout ++ lit "s"),
            retryable := true, durationMs := elapsed }
  | .error (.client (.transportError message)) =>
      .ok { error := some (lit "Connection failed: " ++ message), retryable := true,
            durationMs := elapsed }
  | .error raised => .error raised

/-- The URL that a hop starts from, if the hops before it all redirected. -/
def hopUrl (url : Str) : Nat → Option Str
  | 0 => some url
  | hop + 1 =>
      match hopUrl url hop with
      | none => none
      | some current =>
          match (hopStep world method headers body config hop current).2 with
          | .done _ => none
          | .redirect location => some location

variable {world method headers body config}

/-- A hop issues a request exactly for the destination it vetted. -/
theorem hopStep_issued {hop : Nat} {url : Str} {issued : Request} :
    (hopStep world method headers body config hop url).1 = some issued ↔
      ∃ target, validate world.urls (world.resolver hop) url config = .ok target ∧
        issued = requestFor target method headers body := by
  unfold hopStep
  cases validated : validate world.urls (world.resolver hop) url config with
  | error rejection => simp
  | ok target => simp [eq_comm]

/-- Only a hop that issued a request redirects, and only when that is allowed. -/
theorem hopStep_redirect {hop : Nat} {url location : Str}
    (redirected : (hopStep world method headers body config hop url).2 = .redirect location) :
    config.allowRedirects = true ∧
      ((hopStep world method headers body config hop url).1).isSome = true := by
  unfold hopStep at redirected ⊢
  cases validated : validate world.urls (world.resolver hop) url config with
  | error rejection => simp [validated] at redirected
  | ok target =>
    simp only [validated, afterRequest] at redirected
    split at redirected
    · cases redirected
    · split at redirected
      · cases redirected
      · split at redirected
        · rename_i allowed
          exact ⟨allowed, rfl⟩
        · cases redirected

/-- Where a hop that was reached redirects to is where the next hop starts. -/
theorem hopUrl_succ {url current : Str} {hop : Nat}
    (reached : hopUrl world method headers body config url hop = some current) :
    hopUrl world method headers body config url (hop + 1) =
      match (hopStep world method headers body config hop current).2 with
      | .done _ => none
      | .redirect location => some location := by
  simp only [hopUrl, reached]

/-- The requests of the remaining hops are those of the hops that are reached,
in order.

Proof: induction on the hops that are left. A hop that redirects has issued one
request, so positions and hop numbers move together. -/
theorem sendLoop_requests {url : Str} (left hop : Nat) (current : Str)
    (reached : hopUrl world method headers body config url hop = some current)
    {index : Nat} {issued : Request}
    (located : (sendLoop world method headers body config left hop current).1[index]? =
      some issued) :
    ∃ start, hopUrl world method headers body config url (hop + index) = some start ∧
      (hopStep world method headers body config (hop + index) start).1 = some issued := by
  induction left generalizing hop current index with
  | zero => simp [sendLoop] at located
  | succ left inductionHypothesis =>
    cases next : (hopStep world method headers body config hop current).2 with
    | done outcome =>
      simp only [sendLoop, next] at located
      cases index with
      | zero =>
        refine ⟨current, reached, ?_⟩
        cases first : (hopStep world method headers body config hop current).1 with
        | none => simp [first] at located
        | some sent => simpa [first] using located
      | succ index =>
        cases first : (hopStep world method headers body config hop current).1 <;>
          simp [first] at located
    | redirect location =>
      have following := hopUrl_succ reached
      rw [next] at following
      obtain ⟨_, isSent⟩ := hopStep_redirect next
      obtain ⟨sent, first⟩ := Option.isSome_iff_exists.mp isSent
      simp only [sendLoop, next, first, Option.toList_some, List.singleton_append] at located
      cases index with
      | zero =>
        refine ⟨current, reached, ?_⟩
        rw [Nat.add_zero, first]
        simpa using located
      | succ index =>
        have shifted : hop + (index + 1) = hop + 1 + index := by omega
        rw [shifted]
        exact inductionHypothesis (hop + 1) location following (by simpa using located)

/-- No more requests than hops. -/
theorem sendLoop_length (world : World) (method : Str) (headers : Dict Str Str) (body : Bytes)
    (config : ReplayConfig) (left hop : Nat) (current : Str) :
    (sendLoop world method headers body config left hop current).1.length ≤ left := by
  induction left generalizing hop current with
  | zero => simp [sendLoop]
  | succ left inductionHypothesis =>
    have atMostOne : (hopStep world method headers body config hop current).1.toList.length ≤ 1 := by
      cases (hopStep world method headers body config hop current).1 <;> simp
    cases next : (hopStep world method headers body config hop current).2 with
    | done outcome =>
      simp only [sendLoop, next]
      omega
    | redirect location =>
      have rest := inductionHypothesis (hop + 1) location
      simp only [sendLoop, next, List.length_append]
      omega

/-- The loop ends at the first hop that is over, or after its last hop. -/
theorem sendLoop_outcome {url : Str} (left hop : Nat) (current : Str)
    (reached : hopUrl world method headers body config url hop = some current) :
    (∃ index start outcome, index < left ∧
        hopUrl world method headers body config url (hop + index) = some start ∧
        (hopStep world method headers body config (hop + index) start).2 = .done outcome ∧
        (sendLoop world method headers body config left hop current).2 = outcome) ∨
      (sendLoop world method headers body config left hop current).2 =
          .error (.destinationError (lit "Too many redirects")) ∧
        (hopUrl world method headers body config url (hop + left)).isSome = true := by
  induction left generalizing hop current with
  | zero => exact .inr ⟨rfl, by simp [reached]⟩
  | succ left inductionHypothesis =>
    cases next : (hopStep world method headers body config hop current).2 with
    | done outcome =>
      exact .inl ⟨0, current, outcome, Nat.succ_pos left, reached, next, by simp [sendLoop, next]⟩
    | redirect location =>
      have following := hopUrl_succ reached
      rw [next] at following
      have unfolded : (sendLoop world method headers body config (left + 1) hop current).2 =
          (sendLoop world method headers body config left (hop + 1) location).2 := by
        simp [sendLoop, next]
      rw [unfolded]
      have moved : ∀ index, hop + 1 + index = hop + (index + 1) := by
        intro index
        omega
      rcases inductionHypothesis (hop + 1) location following with
        ⟨index, start, outcome, inside, started, ended, same⟩ | ⟨exhausted, beyond⟩
      · rw [moved] at started ended
        exact .inl ⟨index + 1, start, outcome, by omega, started, ended, same⟩
      · rw [moved] at beyond
        exact .inr ⟨exhausted, beyond⟩

/-- No hop is reached after one that is over. -/
theorem hopUrl_none {url current : Str} {hop : Nat} {outcome : Except Raised Attempt}
    (reached : hopUrl world method headers body config url hop = some current)
    (ended : (hopStep world method headers body config hop current).2 = .done outcome)
    (later : Nat) : hopUrl world method headers body config url (hop + 1 + later) = none := by
  induction later with
  | zero => simp [hopUrl, reached, ended]
  | succ later inductionHypothesis =>
    rw [← Nat.add_assoc]
    simp [hopUrl, inductionHypothesis]

/-- A hop that is reached within the bound and is over decides the outcome.

Proof: the loop ends at some reached hop that is over, and two such hops cannot
differ, because no hop is reached after one that is over. -/
theorem send_outcome {url current : Str} {hop : Nat} {outcome : Except Raised Attempt}
    (inside : hop < hopBudget config)
    (reached : hopUrl world method headers body config url hop = some current)
    (ended : (hopStep world method headers body config hop current).2 = .done outcome) :
    (send world method headers body config url).2 = outcome := by
  rcases sendLoop_outcome (hopBudget config) 0 url
      (show hopUrl world method headers body config url 0 = some url from rfl) with
    ⟨index, start, other, _, started, otherEnded, same⟩ | ⟨_, beyond⟩
  · rw [Nat.zero_add] at started otherEnded
    have equal : index = hop := by
      rcases Nat.lt_trichotomy index hop with earlier | equal | later
      · have gone := hopUrl_none started otherEnded (hop - (index + 1))
        rw [Nat.add_sub_cancel' earlier, reached] at gone
        cases gone
      · exact equal
      · have gone := hopUrl_none reached ended (index - (hop + 1))
        rw [Nat.add_sub_cancel' later, started] at gone
        cases gone
    subst equal
    obtain rfl : start = current := Option.some.inj (started.symm.trans reached)
    have agree : Hop.done other = .done outcome := otherEnded.symm.trans ended
    cases agree
    exact same
  · have gone := hopUrl_none reached ended (hopBudget config - (hop + 1))
    rw [Nat.add_sub_cancel' inside] at gone
    rw [Nat.zero_add, gone] at beyond
    cases beyond

/-- What the outcome of an attempt satisfies is what the outcome of some hop that
is reached satisfies, unless running out of hops satisfies it. -/
theorem send_satisfies {url : Str} (property : Except Raised Attempt → Prop)
    (refuses : ¬ property (.error (.destinationError (lit "Too many redirects")))) :
    property (send world method headers body config url).2 ↔
      ∃ hop current outcome, hop < hopBudget config ∧
        hopUrl world method headers body config url hop = some current ∧
        (hopStep world method headers body config hop current).2 = .done outcome ∧
        property outcome := by
  constructor
  · intro satisfied
    rcases sendLoop_outcome (hopBudget config) 0 url
        (show hopUrl world method headers body config url 0 = some url from rfl) with
      ⟨hop, current, outcome, inside, reached, ended, same⟩ | ⟨exhausted, _⟩
    · rw [Nat.zero_add] at reached ended
      rw [send, same] at satisfied
      exact ⟨hop, current, outcome, inside, reached, ended, satisfied⟩
    · rw [send, exhausted] at satisfied
      exact absurd satisfied refuses
  · rintro ⟨hop, current, outcome, inside, reached, ended, satisfied⟩
    rw [send_outcome inside reached ended]
    exact satisfied

/-! ## Where requests go -/

/-- URLs of the form `scheme://host/target`, as the client reads them. -/
def absoluteUrls : UrlApi where
  parse text :=
    let scheme := Text.beforeChar 0x3A text
    let rest := text.drop (scheme.length + 3)
    let host := Text.beforeChar 0x2F rest
    .ok ⟨scheme, [], host, none, rest.drop host.length, false⟩
  text url := url.scheme ++ lit "://" ++ url.host ++ url.target
  join _ location :=
    let scheme := Text.beforeChar 0x3A location
    let rest := location.drop (scheme.length + 3)
    let host := Text.beforeChar 0x2F rest
    .ok ⟨scheme, [], host, none, rest.drop host.length, false⟩

/-- Every name has one public address, and every request gets the same reply. -/
def publicWorld (reply : Except ClientError Answer) : World where
  urls := absoluteUrls
  resolver _ _ _ := .addresses [.v4 0x5db8d822]
  client _ _ := reply

/-- An empty response with status 200. -/
def okAnswer : Answer := ⟨200, [], [], none⟩

/-- Every request is issued by a hop that was reached and vetted its own URL. -/
theorem send_issued {url : Str} {hop : Nat} {issued : Request}
    (located : (send world method headers body config url).1[hop]? = some issued) :
    ∃ start target, hopUrl world method headers body config url hop = some start ∧
      validate world.urls (world.resolver hop) start config = .ok target ∧
      issued = requestFor target method headers body := by
  obtain ⟨start, reached, sent⟩ := sendLoop_requests (hopBudget config) 0 url
    (show hopUrl world method headers body config url 0 = some url from rfl) located
  rw [Nat.zero_add] at reached sent
  obtain ⟨target, validated, same⟩ := hopStep_issued.mp sent
  exact ⟨start, target, reached, validated, same⟩

/-- The exceptions of the client that `execute` does not catch. -/
def ClientError.uncaught : ClientError → Bool
  | .timeoutException | .transportError _ => false
  | .decodingError | .unicodeEncodeError => true

/-- The host of a hop's URL cannot be decoded, or its name not be encoded for the
resolver, or the resolver fails with an error of the system. -/
def HostFails (world : World) (hop : Nat) (url : Str) : Prop :=
  ∃ parsed, world.urls.parse url = .ok parsed ∧ NameFails (world.resolver hop) parsed

variable (world method headers body config) in
/-- The request of a hop, or the reading of its body, ends in an exception that
is neither a timeout nor a transport error. -/
def ClientFails (hop : Nat) (url : Str) : Prop :=
  ∃ target error, validate world.urls (world.resolver hop) url config = .ok target ∧
    request (world.client hop) (requestFor target method headers body) config = .error error ∧
    error.uncaught = true

variable (world method headers body config) in
/-- A redirect is followed whose location cannot be joined to the URL. -/
def LocationMalformed (hop : Nat) (url : Str) : Prop :=
  ∃ target response bodyBytes truncated location error,
    validate world.urls (world.resolver hop) url config = .ok target ∧
    request (world.client hop) (requestFor target method headers body) config =
      .ok (response, bodyBytes, truncated) ∧
    redirection response = some location ∧ config.allowRedirects = true ∧
    world.urls.join target.url location = .error error

variable (world method headers body config) in
/-- Some hop that the attempt comes to meets one of the three faults. -/
def Faulty (url : Str) : Prop :=
  ∃ hop current, hop < hopBudget config ∧
    hopUrl world method headers body config url hop = some current ∧
    (HostFails world hop current ∨
      ClientFails world method headers body config hop current ∨
      LocationMalformed world method headers body config hop current)

/-- The exceptions that `execute` lets pass. -/
def Raised.uncaught : Raised → Bool
  | .destinationError _ => false
  | .client error => error.uncaught
  | .invalidUrl | .unicodeError | .osError => true

@[simp]
theorem Raised.uncaught_ofRejection (rejection : Rejection) :
    (Raised.ofRejection rejection).uncaught = rejection.uncaught := by
  cases rejection <;> rfl

/-- `execute` catches exactly the other exceptions. -/
theorem execute_isOk (elapsed : Int) (url : Str) :
    (execute world method headers body config elapsed url).isOk = false ↔
      ∃ raised, (send world method headers body config url).2 = .error raised ∧
        raised.uncaught = true := by
  unfold execute
  split <;> rename_i outcome <;>
    simp_all [Except.isOk, Except.toBool, Raised.uncaught, ClientError.uncaught]
  rename_i raised unrejected untimed untransported
  cases raised with
  | destinationError message => exact absurd rfl (unrejected message)
  | client error =>
    cases error with
    | timeoutException => exact absurd rfl untimed
    | transportError message => exact absurd rfl (untransported message)
    | decodingError => rfl
    | unicodeEncodeError => rfl
  | invalidUrl => rfl
  | unicodeError => rfl
  | osError => rfl

/-- A hop ends in an uncaught exception exactly through one of the three faults. -/
theorem hopStep_uncaught {hop : Nat} {url : Str} :
    (∃ raised, (hopStep world method headers body config hop url).2 = .done (.error raised) ∧
        raised.uncaught = true) ↔
      HostFails world hop url ∨ ClientFails world method headers body config hop url ∨
        LocationMalformed world method headers body config hop url := by
  unfold hopStep
  cases validated : validate world.urls (world.resolver hop) url config with
  | error rejection =>
    have named : HostFails world hop url ↔ rejection.uncaught = true := by
      rw [HostFails, ← validate_uncaught config, validated]
      simp
    simp [named, ClientFails, LocationMalformed, validated]
  | ok target =>
    have named : ¬ HostFails world hop url := by
      rw [HostFails, ← validate_uncaught config, validated]
      simp
    cases answered : request (world.client hop) (requestFor target method headers body) config with
    | error error =>
      simp [named, ClientFails, LocationMalformed, validated, answered, afterRequest,
        Raised.uncaught]
    | ok read =>
      obtain ⟨response, bodyBytes, truncated⟩ := read
      have finished : ¬ ClientFails world method headers body config hop url := by
        simp [ClientFails, validated, answered]
      have malformed : LocationMalformed world method headers body config hop url ↔
          ∃ location error, redirection response = some location ∧
            config.allowRedirects = true ∧ world.urls.join target.url location = .error error := by
        constructor
        · rintro ⟨_, _, _, _, location, error, sameTarget, sameRead, moved, allowed, joined⟩
          obtain rfl := Except.ok.inj (validated.symm.trans sameTarget)
          cases answered.symm.trans sameRead
          exact ⟨location, error, moved, allowed, joined⟩
        · rintro ⟨location, error, moved, allowed, joined⟩
          exact ⟨target, response, bodyBytes, truncated, location, error, validated, answered,
            moved, allowed, joined⟩
      cases moved : redirection response with
      | none => simp [named, finished, malformed, answered, afterRequest, moved]
      | some location =>
        by_cases allowed : config.allowRedirects = true
        · cases joined : world.urls.join target.url location with
          | ok next => simp [named, finished, malformed, answered, afterRequest, moved, allowed, joined]
          | error error =>
            cases error <;>
              simp [named, finished, malformed, answered, afterRequest, moved, allowed, joined,
                Raised.ofUrlError, Raised.uncaught]
        · simp [named, finished, malformed, answered, afterRequest, moved, allowed]

/-- An attempt comes to a result unless a hop it comes to is at fault.

Proof: running out of hops is caught, so an uncaught exception is that of a hop
which is reached, and such a hop is at fault. -/
theorem execute_raises (elapsed : Int) (url : Str) :
    (execute world method headers body config elapsed url).isOk = false ↔
      Faulty world method headers body config url := by
  rw [execute_isOk, send_satisfies
    (fun outcome => ∃ raised, outcome = .error raised ∧ raised.uncaught = true) (by
      rintro ⟨raised, same, uncaught⟩
      rw [← Except.error.inj same] at uncaught
      cases uncaught)]
  constructor
  · rintro ⟨hop, current, outcome, inside, reached, ended, raised, rfl, uncaught⟩
    exact ⟨hop, current, inside, reached, hopStep_uncaught.mp ⟨raised, ended, uncaught⟩⟩
  · rintro ⟨hop, current, inside, reached, fault⟩
    obtain ⟨raised, ended, uncaught⟩ := hopStep_uncaught.mpr fault
    exact ⟨hop, current, .error raised, inside, reached, ended, raised, rfl, uncaught⟩

/-! ## What is tried again -/

variable (world method headers body config) in
/-- The request of a hop times out or fails in transport, or is answered with a
status that is tried again. -/
def TransientHop (hop : Nat) (url : Str) : Prop :=
  ∃ target, validate world.urls (world.resolver hop) url config = .ok target ∧
    ((∃ error, request (world.client hop) (requestFor target method headers body) config =
        .error error ∧ error.uncaught = false) ∨
      ∃ response bodyBytes truncated,
        request (world.client hop) (requestFor target method headers body) config =
          .ok (response, bodyBytes, truncated) ∧ response.statusCode ∈ retryableStatus)

variable (world method headers body config) in
/-- Some hop that the attempt comes to fails for a reason that may pass. -/
def Transient (url : Str) : Prop :=
  ∃ hop current, hop < hopBudget config ∧
    hopUrl world method headers body config url hop = some current ∧
    TransientHop world method headers body config hop current

/-- Whether an outcome makes a retryable attempt. -/
def retries : Except Raised Attempt → Bool
  | .ok attempt => attempt.retryable
  | .error (.client error) => !error.uncaught
  | .error _ => false

/-- A response that redirects has a status from 300 to 399. -/
theorem redirection_range {response : Answer} {location : Str}
    (moved : redirection response = some location) :
    300 ≤ response.statusCode ∧ response.statusCode < 400 := by
  unfold redirection at moved
  split at moved
  · assumption
  · cases moved

/-- Redirects are not tried again. -/
theorem redirection_status {response : Answer} {location : Str}
    (moved : redirection response = some location) : response.statusCode ∉ retryableStatus := by
  have redirecting := redirection_range moved
  simp only [retryableStatus, List.mem_cons, List.not_mem_nil, or_false]
  omega

/-- A hop that is over makes a retryable attempt exactly if its failure may pass. -/
theorem hopStep_transient {hop : Nat} {url : Str} :
    (∃ outcome, (hopStep world method headers body config hop url).2 = .done outcome ∧
        retries outcome = true) ↔ TransientHop world method headers body config hop url := by
  unfold hopStep TransientHop
  cases validated : validate world.urls (world.resolver hop) url config with
  | error rejection => cases rejection <;> simp [Raised.ofRejection, retries]
  | ok target =>
    cases answered : request (world.client hop) (requestFor target method headers body) config with
    | error error => simp [answered, afterRequest, retries]
    | ok read =>
      obtain ⟨response, bodyBytes, truncated⟩ := read
      have status : (∃ target', Except.ok target = (Except.ok target' : Except Rejection _) ∧
          ((∃ error, request (world.client hop) (requestFor target' method headers body) config =
              .error error ∧ error.uncaught = false) ∨
            ∃ response bodyBytes truncated,
              request (world.client hop) (requestFor target' method headers body) config =
                .ok (response, bodyBytes, truncated) ∧ response.statusCode ∈ retryableStatus)) ↔
          response.statusCode ∈ retryableStatus := by
        constructor
        · rintro ⟨other, same, ⟨error, failed, _⟩ | ⟨_, _, _, read, retried⟩⟩
          · obtain rfl := Except.ok.inj same
            cases answered.symm.trans failed
          · obtain rfl := Except.ok.inj same
            cases answered.symm.trans read
            exact retried
        · intro retried
          exact ⟨target, rfl, .inr ⟨response, bodyBytes, truncated, answered, retried⟩⟩
      rw [status]
      cases moved : redirection response with
      | none => simp [answered, afterRequest, moved, retries, result]
      | some location =>
        have settled := redirection_status moved
        by_cases allowed : config.allowRedirects = true
        · cases joined : world.urls.join target.url location with
          | ok next => simp [answered, afterRequest, moved, allowed, joined, settled]
          | error error =>
            cases error <;>
              simp [answered, afterRequest, moved, allowed, joined, settled, Raised.ofUrlError,
                retries]
        · simp [answered, afterRequest, moved, allowed, settled, retries, result]

/-- The result of an attempt is retryable as its outcome is, and then it is no
success. -/
theorem execute_retries {elapsed : Int} {url : Str} {attempt : Attempt}
    (executed : execute world method headers body config elapsed url = .ok attempt) :
    attempt.retryable = retries (send world method headers body config url).2 := by
  unfold execute at executed
  split at executed
  · rename_i sent outcome
    obtain rfl := Except.ok.inj executed
    rw [outcome]
    rfl
  · rename_i message outcome
    obtain rfl := Except.ok.inj executed
    rw [outcome]
    rfl
  · rename_i outcome
    obtain rfl := Except.ok.inj executed
    rw [outcome]
    rfl
  · rename_i message outcome
    obtain rfl := Except.ok.inj executed
    rw [outcome]
    rfl
  · cases executed

/-- The attempt that an execution comes to is retryable exactly if a hop it came
to failed for a reason that may pass. -/
theorem execute_transient {elapsed : Int} {url : Str} {attempt : Attempt}
    (executed : execute world method headers body config elapsed url = .ok attempt) :
    attempt.retryable = true ↔ Transient world method headers body config url := by
  rw [execute_retries executed, send_satisfies (fun outcome => retries outcome = true) (by
    simp [retries])]
  constructor
  · rintro ⟨hop, current, outcome, inside, reached, ended, retried⟩
    exact ⟨hop, current, inside, reached, hopStep_transient.mp ⟨outcome, ended, retried⟩⟩
  · rintro ⟨hop, current, inside, reached, failed⟩
    obtain ⟨outcome, ended, retried⟩ := hopStep_transient.mpr failed
    exact ⟨hop, current, outcome, inside, reached, ended, retried⟩

/-- A hop that ends without an exception ends with the result of a response. -/
theorem hopStep_result {hop : Nat} {url : Str} {attempt : Attempt}
    (ended : (hopStep world method headers body config hop url).2 = .done (.ok attempt)) :
    ∃ response bodyBytes truncated, attempt = result response bodyBytes truncated := by
  unfold hopStep at ended
  split at ended
  · cases ended
  · simp only [afterRequest] at ended
    split at ended
    · cases ended
    · rename_i response bodyBytes truncated _
      split at ended
      · cases ended
        exact ⟨response, bodyBytes, truncated, rfl⟩
      · split at ended
        · split at ended <;> cases ended
        · cases ended
          exact ⟨response, bodyBytes, truncated, rfl⟩

/-- A retryable result is no success. -/
theorem result_retryable {response : Answer} {bodyBytes : Bytes} {truncated : Bool}
    (retryable : (result response bodyBytes truncated).retryable = true) :
    (result response bodyBytes truncated).succeeded = false := by
  have status : response.statusCode ∈ retryableStatus := of_decide_eq_true retryable
  simp only [retryableStatus, List.mem_cons, List.not_mem_nil, or_false] at status
  have large : ¬ response.statusCode < 400 := by omega
  simp [Attempt.succeeded, result, large]

/-- The attempt that an execution comes to is not both retryable and a success. -/
theorem execute_retryable {elapsed : Int} {url : Str} {attempt : Attempt}
    (executed : execute world method headers body config elapsed url = .ok attempt)
    (retryable : attempt.retryable = true) : attempt.succeeded = false := by
  unfold execute at executed
  split at executed
  · rename_i sent outcome
    obtain rfl := Except.ok.inj executed
    have settled : ¬ ∃ contrary, (send world method headers body config url).2 = .ok contrary ∧
        contrary.retryable = true ∧ contrary.succeeded = true := by
      rw [send_satisfies (fun outcome => ∃ contrary, outcome = .ok contrary ∧
        contrary.retryable = true ∧ contrary.succeeded = true) (by simp)]
      rintro ⟨_, _, _, _, _, ended, contrary, rfl, retried, succeeded⟩
      obtain ⟨_, _, _, rfl⟩ := hopStep_result ended
      rw [result_retryable retried] at succeeded
      cases succeeded
    cases succeeded : sent.succeeded with
    | true => exact absurd ⟨sent, outcome, retryable, succeeded⟩ settled
    | false => exact succeeded
  · obtain rfl := Except.ok.inj executed
    rfl
  · obtain rfl := Except.ok.inj executed
    rfl
  · obtain rfl := Except.ok.inj executed
    rfl
  · cases executed

end

end WebhookInbox.Runner
