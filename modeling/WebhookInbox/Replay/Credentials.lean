import WebhookInbox.Replay.Worker

/-!
# Credentials and redirects

The headers that a user typed for a replay are merged once and sent with every request of an
attempt. A redirect is answered by a server that the user may not have named, and where it
leads to another origin the credentials among the headers go there.
-/

namespace WebhookInbox.Runner

open Library Ssrf Store Worker

/-- The scheme, the host and the port of a URL. -/
structure Origin where
  scheme : Str
  host : Str
  port : Nat
deriving DecidableEq

def originOf (url : Url) : Origin := ⟨url.scheme, url.host, connectPort url⟩

/-- The origin that a request goes to. Its URL has the vetted address for a host, and the name
is sent for the server to choose its certificate. -/
def Request.origin (issued : Request) : Origin :=
  ⟨issued.url.scheme, issued.sniHostname, connectPort issued.url⟩

/-- The headers with credentials that can be used again. -/
def credentialHeaders : List Str :=
  [lit "authorization", lit "cookie", lit "proxy-authorization"]

/-- A header with credentials is among these. -/
def Carries (casing : Casing) (headers : Dict Str Str) : Prop :=
  ∃ header ∈ headers, casing.lower header.1 ∈ credentialHeaders

/-! ## What is sent -/

/-- A request for a destination goes to the origin of its URL. -/
@[simp] theorem requestFor_origin (target : Destination) (method : Str) (headers : Dict Str Str)
    (body : Bytes) : (requestFor target method headers body).origin = originOf target.url := rfl

/-- The names of these headers are in lower case, and a connection needs none of them. -/
theorem credential_kept (casing : Casing) {name : Str} (credential : name ∈ credentialHeaders) :
    casing.lower name = name ∧ name ∉ hopByHopHeaders := by
  have ascii : ∀ name ∈ credentialHeaders, Text.Ascii name ∧
      name.map Text.asciiLower = name ∧ name ∉ hopByHopHeaders := by decide
  obtain ⟨plain, same, kept⟩ := ascii name credential
  exact ⟨(casing.lower_ascii name plain).trans same, kept⟩

/-- Credentials that the user typed are among the merged headers. -/
theorem mergeHeaders_carries {casing : Casing} (original : Dict Str Str) {custom : Dict Str Str}
    (typed : Carries casing custom) : Carries casing (mergeHeaders casing original custom) := by
  obtain ⟨header, member, credential⟩ := typed
  obtain ⟨same, kept⟩ := credential_kept casing credential
  have chosen : casing.lower header.1 ∈ (mergeHeaders casing original custom).map Prod.fst := by
    refine (Dict.mem_keys_union _ _ _).mpr (.inr ((Dict.mem_keys_ofPairs _ _).mpr ?_))
    have stays : header ∈ custom.filter
        (fun item => decide (casing.lower item.1 ∉ hopByHopHeaders)) :=
      List.mem_filter.mpr ⟨member, decide_eq_true kept⟩
    rw [List.map_map]
    exact List.mem_map_of_mem stays
  obtain ⟨sent, inMerged, named⟩ := List.mem_map.mp chosen
  refine ⟨sent, inMerged, ?_⟩
  rw [named, same]
  exact credential

/-- They are among the headers of a request. -/
theorem requestFor_carries {casing : Casing} {headers : Dict Str Str}
    (carried : Carries casing headers) (target : Destination) (method : Str) (body : Bytes) :
    Carries casing (requestFor target method headers body).headers := by
  obtain ⟨header, member, credential⟩ := carried
  have stays : header.1 ∈ ((requestFor target method headers body).headers).map Prod.fst :=
    (Dict.mem_keys_set _ _ _ _).mpr (.inr (List.mem_map_of_mem member))
  obtain ⟨sent, inRequest, named⟩ := List.mem_map.mp stays
  exact ⟨sent, inRequest, named ▸ credential⟩

/-! ## Where it is sent -/

section
variable {world : World} {method : Str} {headers : Dict Str Str} {body : Bytes}
  {config : ReplayConfig}

/-- A hop that is reached issues its request at its own place.

Proof: by induction on the hops that are left; every hop before it redirected, and so issued
one request. -/
theorem sendLoop_issues {url start : Str} (left hop : Nat) (current : Str)
    (reached : hopUrl world method headers body config url hop = some current) {index : Nat}
    (inside : index < left)
    (later : hopUrl world method headers body config url (hop + index) = some start) :
    (sendLoop world method headers body config left hop current).1[index]? =
      (hopStep world method headers body config (hop + index) start).1 := by
  induction left generalizing hop current index with
  | zero => exact absurd inside (Nat.not_lt_zero index)
  | succ left inductionHypothesis =>
    cases ended : (hopStep world method headers body config hop current).2 with
    | done outcome =>
      cases index with
      | zero =>
        obtain rfl := Option.some.inj (reached.symm.trans later)
        simp only [sendLoop, ended, Nat.add_zero]
        cases (hopStep world method headers body config hop current).1 <;> rfl
      | succ index =>
        have gone := hopUrl_none reached ended index
        rw [Nat.add_assoc, Nat.add_comm 1 index, later] at gone
        cases gone
    | redirect location =>
      have following := hopUrl_succ reached
      rw [ended] at following
      obtain ⟨_, isSent⟩ := hopStep_redirect ended
      obtain ⟨sent, first⟩ := Option.isSome_iff_exists.mp isSent
      simp only [sendLoop, ended, first, Option.toList_some, List.singleton_append]
      cases index with
      | zero =>
        obtain rfl := Option.some.inj (reached.symm.trans later)
        exact first.symm
      | succ index =>
        have shifted : hop + (index + 1) = hop + 1 + index := by omega
        rw [shifted] at later ⊢
        exact inductionHypothesis (hop + 1) location following (by omega) later

variable (world method headers body config) in
/-- A redirect that is followed leads to a destination of another origin. -/
def LeadsAway (url : Str) (home : Origin) : Prop :=
  ∃ hop start target, hop < hopBudget config ∧
    hopUrl world method headers body config url hop = some start ∧
    validate world.urls (world.resolver hop) start config = .ok target ∧
    originOf target.url ≠ home

/-- Requests go to other origins exactly if redirects lead there. -/
theorem send_away_iff {url : Str} {home : Origin} :
    (∃ issued ∈ (send world method headers body config url).1, issued.origin ≠ home) ↔
      LeadsAway world method headers body config url home := by
  constructor
  · rintro ⟨issued, member, away⟩
    obtain ⟨hop, located⟩ := List.mem_iff_getElem?.mp member
    obtain ⟨start, target, reached, validated, rfl⟩ := send_issued located
    have bounded := sendLoop_length world method headers body config (hopBudget config) 0 url
    have inside := (List.getElem?_eq_some_iff.mp located).1
    exact ⟨hop, start, target, inside.trans_le bounded, reached, validated, away⟩
  · rintro ⟨hop, start, target, inside, reached, validated, away⟩
    have located := sendLoop_issues (hopBudget config) 0 url rfl inside
      (show hopUrl world method headers body config url (0 + hop) = some start by
        rw [Nat.zero_add, reached])
    rw [Nat.zero_add, hopStep_issued.mpr ⟨target, validated, rfl⟩] at located
    exact ⟨_, List.mem_of_getElem? located, away⟩

end

/-- The origin of the destination that a user named. -/
def homeOf (world : World) (job : ReplayDoc) : Option Origin :=
  (world.urls.parse job.destination).toOption.map originOf

/-- Credentials that the user typed stay with the origin of the destination exactly if no
redirect that is followed leads to another one.

Proof: every request of an attempt has the merged headers, wherever it goes. -/
theorem credentials_stay_iff (world : World) {casing : Casing} (config : ReplayConfig)
    {job : ReplayDoc} (event : StoredEvent) (body : Bytes) (typed : Carries casing job.headers) :
    (∀ home ∈ homeOf world job,
        ∀ issued ∈ (send world job.method (sentHeaders casing job event) body config
          job.destination).1,
        issued.origin ≠ home → ¬ Carries casing issued.headers) ↔
      ∀ home ∈ homeOf world job,
        ¬ LeadsAway world job.method (sentHeaders casing job event) body config job.destination
          home := by
  refine forall₂_congr fun home _ => ?_
  rw [← send_away_iff]
  constructor
  · rintro withheld ⟨issued, member, away⟩
    obtain ⟨hop, located⟩ := List.mem_iff_getElem?.mp member
    obtain ⟨start, target, reached, validated, rfl⟩ := send_issued located
    exact withheld _ member away
      (requestFor_carries (mergeHeaders_carries event.headers typed) target job.method body)
  · intro kept issued member away
    exact absurd ⟨issued, member, away⟩ kept

/-- A world in which the first hop is sent on to this place. -/
def movedTo (location : Str) : World where
  urls := absoluteUrls
  resolver _ _ _ := .addresses [.v4 0x5db8d822]
  client hop _ :=
    if hop = 0 then .ok ⟨302, [(lit "location", location)], [], none⟩ else .ok okAnswer

/-- Redirects are followed. -/
def following : ReplayConfig := { allowRedirects := true }

/-- A job whose user typed an authorization. -/
def authorizedJob : ReplayDoc :=
  { onlyClaim.2 with headers := [(lit "Authorization", lit "Bearer s3cret")] }

theorem authorizedJob_typed : Carries Casing.ascii authorizedJob.headers :=
  ⟨(lit "Authorization", lit "Bearer s3cret"), List.mem_singleton_self _, by decide⟩

/-- What is requested for it in such a world. -/
def authorizedRequests (location : Str) : List Request :=
  (send (movedTo location) authorizedJob.method
    (sentHeaders Casing.ascii authorizedJob (storedEvent [] [])) [] following
    authorizedJob.destination).1

/-- The origin of its destination. -/
def exampleHome : Origin := ⟨lit "https", lit "example.com", 443⟩

/-- A redirect within the origin keeps the authorization there. -/
theorem credentials_stay_iff_within :
    (authorizedRequests (lit "https://example.com/final")).length = 2 ∧
      ∀ issued ∈ authorizedRequests (lit "https://example.com/final"),
        issued.origin ≠ exampleHome → ¬ Carries Casing.ascii issued.headers := by
  have home : homeOf (movedTo (lit "https://example.com/final")) authorizedJob =
      some exampleHome := by decide +kernel
  have within : ∀ issued ∈ authorizedRequests (lit "https://example.com/final"),
      issued.origin = exampleHome := by decide +kernel
  refine ⟨by decide +kernel, ?_⟩
  refine (credentials_stay_iff (movedTo (lit "https://example.com/final")) following
    (storedEvent [] []) [] authorizedJob_typed).mpr ?_ exampleHome home
  intro other same
  obtain rfl := Option.some.inj (home.symm.trans same)
  rw [← send_away_iff]
  rintro ⟨issued, member, away⟩
  exact away (within issued member)

/-- A redirect to another host takes it there. -/
theorem credentials_leave :
    ¬ ∀ (world : World) (casing : Casing) (config : ReplayConfig) (job : ReplayDoc)
      (event : StoredEvent) (body : Bytes) (home : Origin), config.allowRedirects = true →
      Carries casing job.headers → homeOf world job = some home →
      ∀ issued ∈ (send world job.method (sentHeaders casing job event) body config
        job.destination).1,
      issued.origin ≠ home → ¬ Carries casing issued.headers := by
  intro claimed
  have withheld := claimed (movedTo (lit "https://other.example/final")) Casing.ascii following
    authorizedJob (storedEvent [] []) [] exampleHome rfl authorizedJob_typed (by decide +kernel)
  have left : ∃ issued ∈ authorizedRequests (lit "https://other.example/final"),
      issued.origin ≠ exampleHome ∧ ∃ header ∈ issued.headers,
        Casing.ascii.lower header.1 ∈ credentialHeaders := by decide +kernel
  obtain ⟨issued, sent, away, carried⟩ := left
  exact withheld issued sent away carried

end WebhookInbox.Runner
