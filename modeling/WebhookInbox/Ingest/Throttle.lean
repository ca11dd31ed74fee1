import WebhookInbox.Ingest.Storable
import WebhookInbox.Throttle

/-!
# The limiter in front of the receiver

The receiver of webhooks is a route behind a limiter. Its key is the path and the client,
and the shape of a request is checked before the limiter is asked.

What other clients send, and what is sent to other paths, does not change what a webhook
comes to, and in a window of time no more webhooks of one path and client are stored than
the limiter allows.
-/

namespace WebhookInbox.Receiver

open Library Calendar RateLimit WebhookInbox.Endpoint

/-- A webhook that arrives, with the endpoints among which it is looked up. -/
structure Arrival where
  request : Request
  endpoints : Endpoints
  now : Instant

section
variable (world : Environment) (settings : Settings)

/-- The key that `receive` asks the limiter for, unless a check before it refuses. -/
def bucketOf (request : Request) : Option Str :=
  if settings.limits.maxHeaderCount < request.headers.length ∨
      settings.limits.maxHeaderBytes < headerBytes request.headers ∨
      settings.limits.maxQueryLength < request.urlQuery.length then none
  else
    some (normalizePath request.path ++ lit ":" ++ clientKey request settings.rateLimit)

/-- `receive` at a time of the limiter's clock, and the limiter after it. -/
def receiveLimited (limiter : RateLimiter) (arrival : Arrival) (time : ℚ) :
    Outcome × RateLimiter :=
  (receive { world with limiter := fun bucket => (limiter.ask bucket time).1 } settings
      arrival.endpoints arrival.request arrival.now,
    match bucketOf settings arrival.request with
    | none => limiter
    | some bucket => (limiter.ask bucket time).2)

/-- What webhooks come to that arrive one after another. -/
def receiveAll : RateLimiter → List (Arrival × ℚ) → List Outcome
  | _, [] => []
  | limiter, (arrival, time) :: rest =>
      (receiveLimited world settings limiter arrival time).1 ::
        receiveAll (receiveLimited world settings limiter arrival time).2 rest

/-- The receiver as a route. -/
def webhooks : Route Arrival Outcome where
  key arrival := bucketOf settings arrival.request
  reply arrival refused := receive { world with limiter := fun _ => refused } settings
    arrival.endpoints arrival.request arrival.now

end

section
variable {world : Environment} {settings : Settings}

/-- A webhook depends on the limiter only by what it says for its key. -/
theorem receive_limiter {limiter other : Str → Option Int} {request : Request}
    (agree : ∀ bucket ∈ bucketOf settings request, limiter bucket = other bucket)
    (endpoints : Endpoints) (now : Instant) :
    receive { world with limiter := limiter } settings endpoints request now =
      receive { world with limiter := other } settings endpoints request now := by
  unfold receive
  dsimp only
  split
  · rfl
  · rename_i count
    split
    · rfl
    · rename_i size
      split
      · rfl
      · rename_i query
        rw [agree _ (by simp [bucketOf, count, size, query])]
        rfl

/-- A webhook that the limiter refuses is not stored. -/
theorem receive_refused (seconds : Int) (endpoints : Endpoints) (request : Request)
    (now : Instant) :
    (receive { world with limiter := fun _ => some seconds } settings endpoints request now).doc =
      none := by
  unfold receive reject
  dsimp only
  split
  · rfl
  · split
    · rfl
    · split <;> rfl

/-- A webhook that is stored asked the limiter. -/
theorem bucketOf_stored {endpoints : Endpoints} {request : Request} {now : Instant}
    (stored : (receive world settings endpoints request now).doc.isSome = true) :
    bucketOf settings request =
      some (normalizePath request.path ++ lit ":" ++ clientKey request settings.rateLimit) := by
  unfold receive reject at stored
  dsimp only at stored
  unfold bucketOf
  split at stored
  · cases stored
  · rename_i count
    split at stored
    · cases stored
    · rename_i size
      split at stored
      · cases stored
      · rename_i query
        exact if_neg (by simp only [count, size, query, or_self, not_false_eq_true])

/-- The receiver with its limiter is the route. -/
theorem receiveLimited_eq (limiter : RateLimiter) (arrival : Arrival) (time : ℚ) :
    receiveLimited world settings limiter arrival time =
      (webhooks world settings).serve limiter arrival time := by
  unfold receiveLimited Route.serve webhooks
  dsimp only
  cases asked : bucketOf settings arrival.request with
  | none =>
    refine congrArg (·, limiter) (receive_limiter ?_ _ _)
    rw [asked]
    exact fun _ given => nomatch given
  | some bucket =>
    refine congrArg (·, _) (receive_limiter ?_ _ _)
    rw [asked]
    rintro _ ⟨⟩
    rfl

/-- So are the webhooks that arrive one after another. -/
theorem receiveAll_eq (limiter : RateLimiter) (arrivals : List (Arrival × ℚ)) :
    receiveAll world settings limiter arrivals =
      (webhooks world settings).replies limiter arrivals := by
  induction arrivals generalizing limiter with
  | nil => rfl
  | cons first rest inductionHypothesis =>
    rw [receiveAll, Route.replies, receiveLimited_eq, inductionHypothesis]

/-- Each was answered by the receiver with some state of the limiter. -/
theorem receiveAll_member {limiter : RateLimiter} {arrivals : List (Arrival × ℚ)}
    {served : (Arrival × ℚ) × Outcome}
    (member : served ∈ arrivals.zip (receiveAll world settings limiter arrivals)) :
    ∃ held, served.2 = (receiveLimited world settings held served.1.1 served.1.2).1 := by
  induction arrivals generalizing limiter with
  | nil => cases member
  | cons first rest inductionHypothesis =>
    rw [receiveAll, List.zip_cons_cons] at member
    cases List.mem_cons.mp member with
    | inl same => exact ⟨limiter, same ▸ rfl⟩
    | inr later => exact inductionHypothesis later

end

/-- Whatever other webhooks arrive, to other paths, from other clients, or refused before
the limiter is asked, and whatever is configured: those of one bucket come to what they
would come to alone.

Proof: the receiver is a route, and the requests of a key are answered as their bucket
says. -/
theorem webhooks_isolated (world : Environment) (settings : Settings) (perMinute : Int)
    (enabled : Bool) (arrivals : List (Arrival × ℚ))
    (ordered : (arrivals.map Prod.snd).Pairwise (· ≤ ·)) (bucket : Str) :
    let own : Arrival × ℚ → Bool :=
      fun arrival => decide (bucketOf settings arrival.1.request = some bucket)
    (arrivals.zip
        (receiveAll world settings (RateLimiter.new perMinute enabled) arrivals)).filter
          (fun served => own served.1) =
      (arrivals.filter own).zip
        (receiveAll world settings (RateLimiter.new perMinute enabled) (arrivals.filter own)) := by
  intro own
  have alone := @answered_alone _ _ (webhooks world settings) arrivals perMinute enabled ordered
    bucket
  rw [receiveAll_eq, receiveAll_eq]
  exact alone

/-- In a window of time no more webhooks of one path and client are stored than calls a
minute are allowed and what flows in during the window, whatever else arrives.

Proof: a webhook that is stored asked under its key and was let pass. -/
theorem stored_bounded (world : Environment) (settings : Settings) {perMinute : Int}
    (positive : 1 ≤ perMinute) (arrivals : List (Arrival × ℚ))
    (ordered : (arrivals.map Prod.snd).Pairwise (· ≤ ·)) (path client : Str) {first last : ℚ}
    (window : first ≤ last) :
    ((arrivals.zip (receiveAll world settings (RateLimiter.new perMinute) arrivals)).countP
      (fun served =>
        decide (normalizePath served.1.1.request.path = path ∧
          clientKey served.1.1.request settings.rateLimit = client ∧
          first ≤ served.1.2 ∧ served.1.2 ≤ last) && served.2.doc.isSome) : ℚ) ≤
      perMinute + (last - first) * perMinute / 60 := by
  have refused : ∀ (arrival : Arrival) (seconds : Int),
      ((webhooks world settings).reply arrival (some seconds)).doc.isSome = false := by
    intro arrival seconds
    rw [webhooks, receive_refused]
    rfl
  have bounded := @answered_bounded _ _ (webhooks world settings) arrivals perMinute positive
    ordered (path ++ lit ":" ++ client) first last window (fun outcome => outcome.doc.isSome)
    refused
  rw [Route.answered, ← receiveAll_eq, List.countP_filter] at bounded
  refine le_trans ?_ bounded
  refine Nat.cast_le.mpr (List.countP_mono_left ?_)
  intro served member counted
  obtain ⟨inside, stored⟩ := Bool.and_eq_true_iff.mp counted
  obtain ⟨samePath, sameClient, window⟩ := of_decide_eq_true inside
  obtain ⟨held, outcome⟩ := receiveAll_member member
  have asked := bucketOf_stored (outcome ▸ stored)
  rw [samePath, sameClient] at asked
  refine Bool.and_eq_true_iff.mpr ⟨Bool.and_eq_true_iff.mpr ⟨decide_eq_true window, stored⟩, ?_⟩
  exact decide_eq_true asked

/-- A webhook to another path. -/
def elsewhere : Request := { small with path := lit "elsewhere" }

/-- Webhooks to two paths, one of them without an endpoint. -/
def someArrivals : List (Arrival × ℚ) :=
  [(⟨small, githubEndpoints, 0⟩, 0), (⟨elsewhere, githubEndpoints, 1⟩, 1),
    (⟨small, githubEndpoints, 2⟩, 2), (⟨small, githubEndpoints, 70⟩, 70)]

/-- The webhooks to the endpoint. -/
def toGithub (arrival : Arrival × ℚ) : Bool :=
  decide (bucketOf {} arrival.1.request = some (lit "github:unknown"))

/-- The second of them is refused, and the one to another path does not matter. -/
theorem webhooks_isolated_some :
    (receiveAll plainWorld {} (RateLimiter.new 1) (someArrivals.filter toGithub)).map
        (fun outcome => outcome.doc.isSome) = [true, false, true] ∧
      (someArrivals.zip (receiveAll plainWorld {} (RateLimiter.new 1) someArrivals)).filter
          (fun served => toGithub served.1) =
        (someArrivals.filter toGithub).zip
          (receiveAll plainWorld {} (RateLimiter.new 1) (someArrivals.filter toGithub)) :=
  ⟨by decide +kernel,
    webhooks_isolated plainWorld {} 1 true someArrivals (by decide +kernel) (lit "github:unknown")⟩

/-- Of two that arrive in ten seconds one is stored. -/
theorem stored_bounded_some :
    (((someArrivals.zip (receiveAll plainWorld {} (RateLimiter.new 1) someArrivals)).countP
      (fun served =>
        decide (normalizePath served.1.1.request.path = lit "github" ∧
          clientKey served.1.1.request {} = lit "unknown" ∧
          0 ≤ served.1.2 ∧ served.1.2 ≤ 10) && served.2.doc.isSome) : Nat) : ℚ) ≤
      1 + (10 - 0) * 1 / 60 := by
  have bounded := stored_bounded plainWorld {} (by decide : (1 : Int) ≤ 1) someArrivals
    (by decide +kernel) (lit "github") (lit "unknown") (by norm_num : (0 : ℚ) ≤ 10)
  simpa using bounded

end WebhookInbox.Receiver
