import WebhookInbox.Replay.Body
import WebhookInbox.Ingest.Storable

/-!
# What a replay discloses

A request to an endpoint with a shared secret presents the secret as the value of a
header. The request is stored with its headers, and a replay repeats those whose names
are on a list. `secret_withheld` says for every request of a replay exactly when none
of its headers has the secret as its value.

Header names arrive in lower case, as servers pass them.
-/

namespace WebhookInbox.Runner

open Library Ssrf WebhookInbox.Endpoint WebhookInbox.Receiver Worker Store

/-- A stored header of this name is repeated by a replay. -/
def forwards (casing : Casing) (name : Str) : Bool :=
  decide (casing.lower name ∉ blockedHeaders) &&
    (decide (casing.lower name ∈ forwardExact) ||
      forwardPrefixes.any (Text.startsWith (casing.lower name)))

/-- Headers with different names in lower case are taken over unchanged, those whose
names are on the list.

Induction on the headers, for the ones that were taken over before. -/
theorem foldl_forwardable {casing : Casing} (headers taken : Dict Str Str)
    (lowered : ∀ header ∈ headers, casing.lower header.1 = header.1)
    (distinct : ((taken ++ headers).map Prod.fst).Nodup) :
    headers.foldl (fun forwarded item =>
      if casing.lower item.1 ∈ blockedHeaders then forwarded
      else if casing.lower item.1 ∈ forwardExact ∨
          forwardPrefixes.any (Text.startsWith (casing.lower item.1)) then
        Dict.set forwarded (casing.lower item.1) item.2
      else forwarded) taken =
      taken ++ headers.filter (fun header => forwards casing header.1) := by
  induction headers generalizing taken with
  | nil => simp
  | cons first rest inductionHypothesis =>
    have later : ∀ header ∈ rest, casing.lower header.1 = header.1 :=
      fun header member => lowered header (List.mem_cons_of_mem _ member)
    have skipped : ((taken ++ rest).map Prod.fst).Nodup :=
      ((List.sublist_cons_self first rest).append_left taken).map Prod.fst |>.nodup distinct
    have same := lowered first List.mem_cons_self
    rw [List.foldl_cons, List.filter_cons]
    by_cases blocked : casing.lower first.1 ∈ blockedHeaders
    · have kept : forwards casing first.1 = false := by simp [forwards, blocked]
      rw [if_pos blocked, kept]
      exact inductionHypothesis taken later skipped
    · rw [if_neg blocked]
      by_cases listed : casing.lower first.1 ∈ forwardExact ∨
          forwardPrefixes.any (Text.startsWith (casing.lower first.1)) = true
      · have kept : forwards casing first.1 = true := by
          simpa only [forwards, blocked, not_false_eq_true, decide_true, Bool.true_and,
            Bool.or_eq_true, decide_eq_true_eq] using listed
        have fresh : first.1 ∉ taken.map Prod.fst := by
          rw [List.map_append, List.nodup_append] at distinct
          intro member
          exact distinct.2.2 _ member _ List.mem_cons_self rfl
        rw [if_pos listed, kept, same, Dict.set_of_not_mem _ fresh]
        rw [inductionHypothesis (taken ++ [(first.1, first.2)]) later (by simpa using distinct)]
        simp
      · have kept : forwards casing first.1 = false := by
          have off : ¬ (forwards casing first.1 = true) := by
            simpa only [forwards, blocked, not_false_eq_true, decide_true, Bool.true_and,
              Bool.or_eq_true, decide_eq_true_eq] using listed
          simpa using off
        rw [if_neg listed, kept]
        exact inductionHypothesis taken later skipped

/-- The headers that a replay takes over from a stored request. -/
theorem forwardable_eq_filter {casing : Casing} {headers : Dict Str Str}
    (lowered : ∀ header ∈ headers, casing.lower header.1 = header.1)
    (distinct : (headers.map Prod.fst).Nodup) :
    forwardable casing headers = headers.filter (fun header => forwards casing header.1) := by
  have taken := foldl_forwardable headers [] lowered (by simpa using distinct)
  rw [List.nil_append] at taken
  exact taken

/-- The header in which an endpoint with a shared secret expects it. -/
def secretHeader (auth : AuthDoc) : Str :=
  Signature.orElse auth.header ((defaultAuthHeader .staticSecret).getD [])

/-- A verified request to such an endpoint has the secret in that header. -/
theorem verify_static {casing : Casing} {hexDigest : Bytes → Bytes → Str} {endpoint : EndpointDoc}
    {headers : Dict Str Str} {body : Bytes} {auth : AuthDoc} {secret : Str}
    (verified : Signature.verify casing hexDigest endpoint headers body = some true)
    (authenticated : endpoint.authentication = some auth)
    (static : auth.type = AuthType.staticSecret.value) (shared : endpoint.secret = some secret) :
    headers.get (secretHeader auth) = some secret := by
  have type : AuthType.ofValue auth.type = some .staticSecret := by rw [static, ofValue_value]
  simp only [Signature.verify, authenticated, type, shared] at verified
  split at verified
  · cases verified
  · rename_i stored present
    obtain rfl : secret = stored := Option.some.inj (Option.filter_eq_some_iff.mp present).1
    split at verified
    · cases verified
    · rename_i provided given
      simp only [Signature.compareDigest] at verified
      split at verified
      · have same : provided = secret := by simpa using verified
        rw [← same]
        exact (Option.filter_eq_some_iff.mp given).1
      · cases verified

section
variable {world : Environment} {settings : Settings} {endpoints : Endpoints}
  {request : Receiver.Request} {now : Calendar.Instant} {doc : EventDoc}

/-- The headers of an accepted request are stored under different names, in lower case if
they arrived so. -/
theorem receive_headers (accepted : receive world settings endpoints request now = .inserted doc)
    (lowered : ∀ header ∈ request.headers,
      world.runtime.casing.lower header.1 = header.1) :
    doc.headers = request.headerDict ∧ (doc.headers.map Prod.fst).Nodup ∧
      ∀ header ∈ doc.headers, world.runtime.casing.lower header.1 = header.1 := by
  obtain ⟨endpoint, methods, _, _, _, stored⟩ := receive_inserted accepted
  obtain ⟨body, name, expiry, _, _, rfl⟩ := store_inserted stored
  refine ⟨rfl, Dict.nodup_keys_ofPairs _, ?_⟩
  intro header member
  obtain ⟨source, inRequest, rfl⟩ := List.mem_map.mp (Dict.mem_ofPairs member)
  exact lowered source inRequest

/-- The headers of a replay without headers of its own are the stored ones that are
repeated, and the host. -/
theorem replay_headers {headers : Dict Str Str} {casing : Casing} {target : Destination}
    (method : Str) (body : Bytes)
    (lowered : ∀ header ∈ headers, casing.lower header.1 = header.1)
    (distinct : (headers.map Prod.fst).Nodup) :
    (requestFor target method (mergeHeaders casing headers []) body).headers =
      headers.filter (fun header => forwards casing header.1) ++
        [(lit "Host", target.authority)] := by
  have merged : mergeHeaders casing headers [] =
      headers.filter (fun header => forwards casing header.1) := by
    rw [← forwardable_eq_filter lowered distinct]
    rfl
  have fresh : lit "Host" ∉ (headers.filter (fun header =>
      forwards casing header.1)).map Prod.fst := by
    intro member
    obtain ⟨header, kept, same⟩ := List.mem_map.mp member
    have lower := lowered header (List.mem_of_mem_filter kept)
    rw [same, casing.lower_ascii _ (by decide)] at lower
    revert lower
    decide
  rw [requestFor, merged, Dict.set_of_not_mem _ fresh]

/-- No header of a request that replays an accepted event has the shared secret as its
value exactly if the header in which the secret was presented is not repeated, the
request did not present it in another header that is repeated, and the destination is
not named like it.

Proof: the secret stands in the stored headers under the name that verification reads,
and a replay sends the repeated headers as they are stored, and the host. -/
theorem secret_withheld {endpoint : EndpointDoc} {auth : AuthDoc} {secret : Str}
    (accepted : receive world settings endpoints request now = .inserted doc)
    (served : endpoints.findPath (normalizePath request.path) = some endpoint)
    (authenticated : endpoint.authentication = some auth)
    (static : auth.type = AuthType.staticSecret.value) (shared : endpoint.secret = some secret)
    (lowered : ∀ header ∈ request.headers,
      world.runtime.casing.lower header.1 = header.1)
    {replayed : World} {config : ReplayConfig} {job : ReplayDoc} (plain : job.headers = [])
    {body : Bytes} {hop : Nat} {issued : Request}
    (sent : (send replayed job.method
      (sentHeaders world.runtime.casing job (storedParts doc)) body config
      job.destination).1[hop]? = some issued) :
    (∀ header ∈ issued.headers, header.2 ≠ secret) ↔
      forwards world.runtime.casing (secretHeader auth) = false ∧
      (∀ header ∈ request.headerDict, header.1 ≠ secretHeader auth → header.2 = secret →
        forwards world.runtime.casing header.1 = false) ∧
      ∀ start target, hopUrl replayed job.method
          (sentHeaders world.runtime.casing job (storedParts doc)) body config job.destination
          hop = some start →
        validate replayed.urls (replayed.resolver hop) start config = .ok target →
        target.authority ≠ secret := by
  obtain ⟨other, _, found, _, _, verified, _⟩ := receive_verified accepted
  obtain rfl := Option.some.inj (served.symm.trans found)
  have presented := Dict.get_mem (verify_static verified authenticated static shared)
  obtain ⟨same, distinct, lower⟩ := receive_headers accepted lowered
  obtain ⟨start, target, reached, validated, rfl⟩ := send_issued sent
  have headers : (requestFor target job.method
      (sentHeaders world.runtime.casing job (storedParts doc)) body).headers =
      request.headerDict.filter (fun header => forwards world.runtime.casing header.1) ++
        [(lit "Host", target.authority)] := by
    rw [sentHeaders, plain, ← same]
    exact replay_headers job.method body lower distinct
  rw [headers]
  constructor
  · intro withheld
    refine ⟨?_, ?_, ?_⟩
    · cases repeated : forwards world.runtime.casing (secretHeader auth) with
      | false => rfl
      | true =>
        have kept : (secretHeader auth, secret) ∈ request.headerDict.filter (fun header =>
            forwards world.runtime.casing header.1) := List.mem_filter.mpr ⟨presented, repeated⟩
        exact absurd rfl (withheld _ (List.mem_append_left _ kept))
    · intro header stored _ value
      cases repeated : forwards world.runtime.casing header.1 with
      | false => rfl
      | true =>
        have kept : header ∈ request.headerDict.filter (fun header =>
            forwards world.runtime.casing header.1) := List.mem_filter.mpr ⟨stored, repeated⟩
        exact absurd value (withheld _ (List.mem_append_left _ kept))
    · intro otherStart otherTarget otherReached otherValidated
      obtain rfl := Option.some.inj (reached.symm.trans otherReached)
      obtain rfl := Except.ok.inj (validated.symm.trans otherValidated)
      exact withheld _ (List.mem_append_right _ List.mem_cons_self)
  · rintro ⟨dropped, nowhere, unnamed⟩ header member value
    cases List.mem_append.mp member with
    | inl repeated =>
      obtain ⟨stored, kept⟩ := List.mem_filter.mp repeated
      by_cases presenting : header.1 = secretHeader auth
      · rw [presenting, dropped] at kept
        cases kept
      · rw [nowhere header stored presenting value] at kept
        cases kept
    | inr host =>
      obtain rfl := List.mem_singleton.mp host
      exact unnamed start target reached validated value

end

theorem named_gitHub : NameChecked (lit "GitHub") := by decide

theorem path_github : PathChecked (lit "github") := by decide

/-- An endpoint under the path `github` whose requests present the secret `s3cret`, in a
header of the given name or the default one. -/
def secretCreate (header : Option Str) : EndpointCreate where
  name := ⟨lit "GitHub", named_gitHub⟩
  path := ⟨lit "github", path_github⟩
  enabled := true
  authentication := AuthConfig.applyDefaultHeader Casing.ascii ⟨.staticSecret, header, none⟩
  secret := some (lit "s3cret")
  allowedMethods := ⟨[lit "POST"], methods_post⟩
  maxPayloadSize := none
  retentionDays := none

/-- The collection with that endpoint. -/
def secretEndpoints (header : Option Str) : Endpoints :=
  match Endpoints.empty.insertOne ((secretCreate header).toDocument ⟨1⟩ 0) with
  | .ok endpoints => endpoints
  | .error _ => .empty

/-- A delivery that presents the secret in the default header. -/
def presentedByDefault : Receiver.Request :=
  { small with
    headers := [(lit "content-type", lit "application/json"),
      (lit "x-webhook-secret", lit "s3cret")]
    headersLatin1 := by decide }

/-- A delivery that presents it in the header of HTTP authentication. -/
def presentedAsAuthorization : Receiver.Request :=
  { small with
    headers := [(lit "content-type", lit "application/json"), (lit "authorization", lit "s3cret")]
    headersLatin1 := by decide }

/-- What those deliveries store. -/
def defaultDoc : EventDoc :=
  (receive plainWorld {} (secretEndpoints none) presentedByDefault 0).doc.get (by decide +kernel)

def authorizationDoc : EventDoc :=
  (receive plainWorld {} (secretEndpoints (some (lit "Authorization"))) presentedAsAuthorization
    0).doc.get (by decide +kernel)

/-- The requests of a replay of a stored document to a public destination. -/
def replayRequests (doc : EventDoc) : List Request :=
  (send (publicWorld (.ok okAnswer)) onlyClaim.2.method
    (sentHeaders Casing.ascii onlyClaim.2 (storedParts doc)) [] {} onlyClaim.2.destination).1

/-- The authorization is not repeated. -/
theorem secret_withheld_authorization :
    (replayRequests authorizationDoc).length = 1 ∧
      ∀ issued ∈ replayRequests authorizationDoc, ∀ header ∈ issued.headers,
        header.2 ≠ lit "s3cret" := by
  have one : (replayRequests authorizationDoc).length = 1 := by decide +kernel
  refine ⟨one, ?_⟩
  intro issued member
  obtain ⟨hop, inside, located⟩ := List.getElem_of_mem member
  have sent : (replayRequests authorizationDoc)[hop]? = some issued := by
    rw [List.getElem?_eq_getElem inside, located]
  obtain rfl : hop = 0 := by omega
  have accepted : receive plainWorld {} (secretEndpoints (some (lit "Authorization")))
      presentedAsAuthorization 0 = .inserted authorizationDoc :=
    Outcome.inserted_of_doc (Option.some_get _).symm
  have served : (secretEndpoints (some (lit "Authorization"))).findPath
      (normalizePath presentedAsAuthorization.path) =
      some ((secretCreate (some (lit "Authorization"))).toDocument ⟨1⟩ 0) := by decide +kernel
  have plain : onlyClaim.2.headers = [] := by decide +kernel
  have exact := secret_withheld accepted served rfl rfl rfl (by decide +kernel) plain sent
  refine exact.mpr ⟨by decide +kernel, by decide +kernel, ?_⟩
  intro start target reached validated
  obtain rfl : onlyClaim.2.destination = start := Option.some.inj reached
  have named : (validate (publicWorld (.ok okAnswer)).urls ((publicWorld (.ok okAnswer)).resolver 0)
      onlyClaim.2.destination {}).toOption.map Destination.authority =
      some (lit "example.com") := by decide +kernel
  rw [validated] at named
  rw [show target.authority = lit "example.com" from Option.some.inj named]
  decide

/-- The default header is repeated, as its name begins with `x-`. -/
theorem secret_disclosed :
    ¬ ∀ (world : Environment) (settings : Settings) (endpoints : Endpoints)
      (request : Receiver.Request) (now : Calendar.Instant) (doc : EventDoc)
      (endpoint : EndpointDoc) (auth : AuthDoc) (secret : Str) (replayed : World)
      (config : ReplayConfig) (job : ReplayDoc) (body : Bytes),
      receive world settings endpoints request now = .inserted doc →
      endpoints.findPath (normalizePath request.path) = some endpoint →
      endpoint.authentication = some auth → auth.type = AuthType.staticSecret.value →
      endpoint.secret = some secret → secret ≠ [] →
      (∀ header ∈ request.headers, world.runtime.casing.lower header.1 = header.1) →
      job.headers = [] →
      ∀ issued ∈ (send replayed job.method
        (sentHeaders world.runtime.casing job (storedParts doc)) body config
        job.destination).1, ∀ header ∈ issued.headers, header.2 ≠ secret := by
  intro claimed
  have accepted : receive plainWorld {} (secretEndpoints none) presentedByDefault 0 =
      .inserted defaultDoc := Outcome.inserted_of_doc (Option.some_get _).symm
  have withheld := claimed plainWorld {} (secretEndpoints none) presentedByDefault 0 defaultDoc
    ((secretCreate none).toDocument ⟨1⟩ 0) (secretCreate none).authentication.dump
    (lit "s3cret") (publicWorld (.ok okAnswer)) {} onlyClaim.2 [] accepted (by decide +kernel)
    rfl rfl rfl (by decide) (by decide +kernel) (by decide +kernel)
  have disclosed : ∃ issued ∈ replayRequests defaultDoc, ∃ header ∈ issued.headers,
      header.2 = lit "s3cret" := by decide +kernel
  obtain ⟨issued, sent, header, member, value⟩ := disclosed
  exact withheld issued sent header member value

end WebhookInbox.Runner
