import WebhookInbox.Library.Calendar
import WebhookInbox.Library.Collection
import WebhookInbox.Library.ObjectId
import WebhookInbox.Replay.Runner

/-!
# The replay store

A replay document and the database calls on it. A job is claimed in two calls:
expired leases are taken back first, then one due document is marked running.
Its result is written by `finish` or `abandon`, which select the document by its
identifier alone.

Each call is one change of the collection. Dates are stored in milliseconds;
the arithmetic on them may leave the range of `datetime`, which is a failure.
-/

namespace WebhookInbox.Store

open Library Calendar Runner

inductive ReplayState where
  | pending
  | running
  | success
  | failed
deriving DecidableEq

/-- The stored response of an attempt. -/
structure ReplayResponse where
  statusCode : Nat
  headers : Dict Str Str
  body : Str
  truncated : Bool
deriving DecidableEq

/-- A validated replay request. -/
structure ReplayCreate where
  destination : Str
  method : Str
  headers : Dict Str Str

/-- A document of the `replays` collection. The lease has no time until the
first claim writes one. -/
structure ReplayDoc where
  id : ObjectId
  eventId : ObjectId
  destination : Str
  method : Str
  headers : Dict Str Str
  state : ReplayState
  attempt : Nat
  maxAttempts : Int
  nextAttemptAt : Millis
  createdAt : Millis
  leasedAt : Option Millis
  startedAt : Option Millis
  completedAt : Option Millis
  durationMs : Option Int
  response : Option ReplayResponse
  error : Option Str
deriving DecidableEq

/-- Success and failure end a replay. -/
def ReplayDoc.Finished (replay : ReplayDoc) : Prop :=
  replay.state = .success ∨ replay.state = .failed

instance (replay : ReplayDoc) : Decidable replay.Finished :=
  inferInstanceAs (Decidable (_ ∨ _))

/-- The `replays` collection. -/
abbrev Replays := Collection ReplayDoc.id

/-- The document that `enqueue` inserts. -/
def enqueued (id eventId : ObjectId) (payload : ReplayCreate) (now : Instant)
    (config : ReplayConfig) : ReplayDoc where
  id := id
  eventId := eventId
  destination := payload.destination
  method := payload.method
  headers := payload.headers
  state := .pending
  attempt := 0
  maxAttempts := config.maxRetries + 1
  nextAttemptAt := toMillis now
  createdAt := toMillis now
  leasedAt := none
  startedAt := none
  completedAt := none
  durationMs := none
  response := none
  error := none

/-- `enqueue(db, event_id, payload, config)` under a fresh identifier. -/
def enqueue (replays : Replays) (id eventId : ObjectId) (payload : ReplayCreate) (now : Instant)
    (config : ReplayConfig) : Option Replays :=
  replays.insert (enqueued id eventId payload now config)

/-! ## Claiming -/

/-- `now - timedelta(seconds=config.lease_timeout)`, as the filter stores it. -/
def leaseCutoff (now : Instant) (config : ReplayConfig) : Option Millis :=
  (addSeconds now (-config.leaseTimeout)).map toMillis

/-- A running job whose lease is older than the cutoff. -/
def expired (cutoff : Millis) (replay : ReplayDoc) : Bool :=
  decide (replay.state = .running) &&
    (replay.leasedAt.map (fun leased => decide (leased < cutoff))).getD false

/-- The first call of `claim`: expired jobs become pending again. -/
def reclaim (replays : Replays) (cutoff : Millis) : Replays :=
  replays.updateMany (expired cutoff) (fun replay => { replay with state := .pending })
    (fun _ => rfl)

/-- A pending job that is due. -/
def claimable (now : Instant) (replay : ReplayDoc) : Bool :=
  decide (replay.state = .pending) && decide (replay.nextAttemptAt ≤ toMillis now)

/-- The change that a claim makes. -/
def leased (now : Instant) (replay : ReplayDoc) : ReplayDoc :=
  { replay with
    state := .running
    leasedAt := some (toMillis now)
    startedAt := some (toMillis now)
    attempt := replay.attempt + 1 }

theorem leased_id (now : Instant) (replay : ReplayDoc) : (leased now replay).id = replay.id := rfl

/-- The job can be the one that the sort by `next_attempt_at` puts first. Which of
several equal ones that is stays open. -/
def mayTake (replays : Replays) (now : Instant) (replay : ReplayDoc) : Bool :=
  claimable now replay &&
    replays.docs.all (fun other => !claimable now other ||
      decide (replay.nextAttemptAt ≤ other.nextAttemptAt))

/-- The second call of `claim`, when it picks the document with this identifier.
The result is the changed collection and the document after the change. -/
def take (replays : Replays) (now : Instant) (id : ObjectId) : Option (Replays × ReplayDoc) :=
  match replays.find id with
  | none => none
  | some replay =>
      if mayTake replays now replay then
        some (replays.updateOne id (leased now) (leased_id now), leased now replay)
      else none

/-- The second call of `claim` finds nothing. -/
def nothingDue (replays : Replays) (now : Instant) : Bool :=
  replays.docs.all (fun replay => !claimable now replay)

/-! ## Settling -/

/-- What the state of a job becomes, with the date that goes with it. -/
inductive Verdict where
  | success (completedAt : Millis)
  | retry (nextAttemptAt : Millis)
  | failed (completedAt : Millis)
deriving DecidableEq

/-- The branch that `finish` takes. It reads the claimed document, not the stored
one. The result is missing when the retry time leaves the range of `datetime`. -/
def verdict (now : Instant) (replay : ReplayDoc) (attempt : Attempt) (config : ReplayConfig) :
    Option Verdict :=
  if attempt.succeeded then some (.success (toMillis now))
  else if attempt.retryable ∧ (replay.attempt : Int) < replay.maxAttempts then
    let delay := config.retryDelaySeconds * 2 ^ (replay.attempt - 1)
    (addSeconds now delay).map (fun due => .retry (toMillis due))
  else some (.failed (toMillis now))

/-- The three branches of `finish`. -/
theorem verdict_cases {now : Instant} {replay : ReplayDoc} {attempt : Attempt}
    {config : ReplayConfig} {settled : Verdict}
    (computed : verdict now replay attempt config = some settled) :
    attempt.succeeded = true ∧ settled = .success (toMillis now) ∨
      (attempt.succeeded = false ∧ attempt.retryable = true ∧
        (replay.attempt : Int) < replay.maxAttempts ∧
        ∃ due, addSeconds now (config.retryDelaySeconds * 2 ^ (replay.attempt - 1)) = some due ∧
          settled = .retry (toMillis due)) ∨
      attempt.succeeded = false ∧
        ¬ (attempt.retryable = true ∧ (replay.attempt : Int) < replay.maxAttempts) ∧
        settled = .failed (toMillis now) := by
  simp only [verdict] at computed
  split at computed
  · rename_i succeeded
    exact .inl ⟨succeeded, (Option.some.inj computed).symm⟩
  · rename_i failed
    have unsuccessful : attempt.succeeded = false := by simpa using failed
    split at computed
    · rename_i again
      obtain ⟨due, added, result⟩ := Option.map_eq_some_iff.mp computed
      exact .inr (.inl ⟨unsuccessful, again.1, again.2, due, added, result.symm⟩)
    · rename_i ended
      exact .inr (.inr ⟨unsuccessful, ended, (Option.some.inj computed).symm⟩)

/-- The stored form of a response, absent if there was none. -/
def responseOf (attempt : Attempt) : Option ReplayResponse :=
  attempt.statusCode.map (fun status =>
    ⟨status, attempt.headers, attempt.body, attempt.truncated⟩)

/-- The changes of `finish` on a document. -/
def finished (attempt : Attempt) (settled : Verdict) (replay : ReplayDoc) : ReplayDoc :=
  let recorded := { replay with
    durationMs := some attempt.durationMs
    error := attempt.error
    response := responseOf attempt }
  match settled with
  | .success completedAt => { recorded with state := .success, completedAt := some completedAt }
  | .retry nextAttemptAt => { recorded with state := .pending, nextAttemptAt := nextAttemptAt }
  | .failed completedAt => { recorded with state := .failed, completedAt := some completedAt }

/-- The changes of `abandon` on a document. -/
def abandoned (reason : Str) (completedAt : Millis) (replay : ReplayDoc) : ReplayDoc :=
  { replay with state := .failed, error := some reason, completedAt := some completedAt }

/-- A write that settles a job: the last call of `finish` or of `abandon`. -/
inductive Settlement where
  | finish (attempt : Attempt) (settled : Verdict)
  | abandon (reason : Str) (completedAt : Millis)

/-- The changes of a settlement on a document. -/
def Settlement.apply : Settlement → ReplayDoc → ReplayDoc
  | .finish attempt settled, replay => finished attempt settled replay
  | .abandon reason completedAt, replay => abandoned reason completedAt replay

/-- The state that a settlement writes. -/
def Settlement.target : Settlement → ReplayState
  | .finish _ (.success _) => .success
  | .finish _ (.retry _) => .pending
  | .finish _ (.failed _) => .failed
  | .abandon _ _ => .failed

@[simp] theorem Settlement.apply_id (settlement : Settlement) (replay : ReplayDoc) :
    (settlement.apply replay).id = replay.id := by
  rcases settlement with ⟨attempt, settled⟩ | ⟨reason, completedAt⟩
  · cases settled <;> rfl
  · rfl

@[simp] theorem Settlement.apply_state (settlement : Settlement) (replay : ReplayDoc) :
    (settlement.apply replay).state = settlement.target := by
  rcases settlement with ⟨attempt, settled⟩ | ⟨reason, completedAt⟩
  · cases settled <;> rfl
  · rfl

@[simp] theorem Settlement.apply_attempt (settlement : Settlement) (replay : ReplayDoc) :
    (settlement.apply replay).attempt = replay.attempt := by
  rcases settlement with ⟨attempt, settled⟩ | ⟨reason, completedAt⟩
  · cases settled <;> rfl
  · rfl

@[simp] theorem Settlement.apply_maxAttempts (settlement : Settlement) (replay : ReplayDoc) :
    (settlement.apply replay).maxAttempts = replay.maxAttempts := by
  rcases settlement with ⟨attempt, settled⟩ | ⟨reason, completedAt⟩
  · cases settled <;> rfl
  · rfl

/-- `update_one({"_id": id}, {"$set": changes})` -/
def settle (replays : Replays) (id : ObjectId) (settlement : Settlement) : Replays :=
  replays.updateOne id settlement.apply settlement.apply_id

/-! ## What each call leaves under an identifier -/

/-- A new job is stored under its identifier and nothing else changes. -/
theorem find_enqueue {replays grown : Replays} {id eventId : ObjectId} {payload : ReplayCreate}
    {now : Instant} {config : ReplayConfig}
    (inserted : enqueue replays id eventId payload now config = some grown) (wanted : ObjectId) :
    grown.find wanted =
      if wanted = id then some (enqueued id eventId payload now config)
      else replays.find wanted := by
  exact Collection.find_insert inserted wanted

/-- Reclaiming changes the state of expired jobs and nothing else. -/
theorem find_reclaim (replays : Replays) (cutoff : Millis) (wanted : ObjectId) :
    (reclaim replays cutoff).find wanted =
      (replays.find wanted).map (fun replay =>
        if expired cutoff replay then { replay with state := .pending } else replay) := by
  simp [reclaim]

/-- A claim takes a pending job, returns it as stored, and changes no other. -/
theorem take_cases {replays taken : Replays} {now : Instant} {id : ObjectId} {job : ReplayDoc}
    (claimed : take replays now id = some (taken, job)) :
    ∃ replay, replays.find id = some replay ∧ replay.state = .pending ∧
      replay.nextAttemptAt ≤ toMillis now ∧ job = leased now replay ∧
      ∀ wanted, taken.find wanted = if wanted = id then some job else replays.find wanted := by
  unfold take at claimed
  split at claimed
  · cases claimed
  · rename_i replay found
    split at claimed
    · rename_i chosen
      obtain ⟨rfl, rfl⟩ := Prod.mk.inj (Option.some.inj claimed)
      have due : claimable now replay = true := by
        simp only [mayTake, Bool.and_eq_true] at chosen
        exact chosen.1
      simp only [claimable, Bool.and_eq_true, decide_eq_true_eq] at due
      refine ⟨replay, found, due.1, due.2, rfl, ?_⟩
      intro wanted
      rw [Collection.find_updateOne]
      by_cases same : wanted = id
      · simp [same, found]
      · simp [same]
    · cases claimed

/-- A settlement changes the document with its identifier and no other. -/
theorem find_settle (replays : Replays) (id : ObjectId) (settlement : Settlement)
    (wanted : ObjectId) :
    (settle replays id settlement).find wanted =
      if wanted = id then (replays.find wanted).map settlement.apply else replays.find wanted := by
  rw [settle, Collection.find_updateOne]

end WebhookInbox.Store
