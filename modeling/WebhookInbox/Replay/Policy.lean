import WebhookInbox.Replay.Worker

/-!
# The documented retry policy

Documented is that timeouts, connection errors and answers with a status from 500 to
599 are tried again, and that an answer with a status from 400 to 499 and a rejected
destination never are. `finish` decides by a table of statuses instead, and only where the
answer could be read: its status counts here in any case.

A run is a list of turns of one worker, each with the job it claims and the world that
its delivery meets. `policy_exact` says of every run when it follows the documentation.
-/

namespace WebhookInbox.Worker

open Library Library.Run Calendar Ssrf Runner Store WebhookInbox.Parser

/-- One turn of the worker: when it claims, which job that is, what its delivery meets,
and when it settles. The event is the one stored for a request, if it is still there. -/
structure Turn where
  now : Instant
  id : ObjectId
  world : World
  arrived : Option (Dict Str Str × Bytes)
  elapsed : Int
  settledAt : Instant

/-- `claim(db, config)` without interference, when it returns this job. -/
def claim (config : ReplayConfig) (replays : Replays) (now : Instant) (id : ObjectId) :
    Option (Replays × ReplayDoc) :=
  (leaseCutoff now config).bind (fun cutoff => take (reclaim replays cutoff) now id)

section
variable (casing : Casing) (config : ReplayConfig)

/-- `run_once` when its claim returns the job of the turn. -/
def turn (replays : Replays) (current : Turn) : Option Replays :=
  (claim config replays current.now current.id).map (fun claimed =>
    (runClaimed current.world casing config claimed.1 claimed.2
      (current.arrived.map (fun request => storedEvent request.1 request.2)) current.elapsed
      current.settledAt).1)

end

section
variable (world : World) (method : Str) (headers : Dict Str Str) (body : Bytes)
  (config : ReplayConfig)

/-- The status that the request of a hop is answered with, whether the body of the
response can be read or not. -/
def hopStatus (hop : Nat) (url : Str) : Option Nat :=
  match validate world.urls (world.resolver hop) url config with
  | .error _ => none
  | .ok target =>
      ((world.client hop (requestFor target method headers body)).toOption).map Answer.statusCode

/-- The statuses of the hops that are left, as `sendLoop` comes to them. -/
def hopStatuses : Nat → Nat → Str → List (Option Nat)
  | 0, _, _ => []
  | left + 1, hop, url =>
      hopStatus world method headers body config hop url ::
        match (hopStep world method headers body config hop url).2 with
        | .done _ => []
        | .redirect location => hopStatuses left (hop + 1) location

end

/-- What a delivery comes to: the status that each request was answered with, if it
was, and the attempt or the exception at the end. -/
structure Ending where
  statuses : List (Option Nat)
  outcome : Except Raised Attempt

/-- The delivery of a body, as `send` goes through it. -/
def ending (world : World) (method : Str) (headers : Dict Str Str) (body : Bytes)
    (config : ReplayConfig) (url : Str) : Ending where
  statuses := hopStatuses world method headers body config (hopBudget config) 0 url
  outcome := (send world method headers body config url).2

section
variable (casing : Casing) (config : ReplayConfig)

/-- The claimed job of a turn that delivers, with what its delivery comes to. -/
def delivery (replays : Replays) (current : Turn) : Option (ReplayDoc × Ending) :=
  (claim config replays current.now current.id).bind (fun claimed =>
    current.arrived.map (fun request =>
      (claimed.2, ending current.world claimed.2.method
        (sentHeaders casing claimed.2 (storedEvent request.1 request.2)) request.2 config
        claimed.2.destination)))

end

/-! ## What is documented -/

namespace Ending

/-- The status of the last response that was received, also if its body cannot be read. -/
def status (ending : Ending) : Option Nat :=
  ending.statuses.reduceOption.getLast?

/-- The last request was answered. -/
def answered (ending : Ending) : Bool :=
  (ending.statuses.getLast?.join).isSome

/-- The last response was read to its end, or up to the limit. -/
def read (ending : Ending) : Bool :=
  ending.outcome.isOk

/-- An exception leaves the delivery. -/
def escapes (ending : Ending) : Bool :=
  match ending.outcome with
  | .ok _ => false
  | .error raised => raised.uncaught

def timedOut (ending : Ending) : Bool :=
  match ending.outcome with
  | .error (.client .timeoutException) => true
  | _ => false

/-- A request ends in a transport error, before or after it was answered. -/
def transportFailed (ending : Ending) : Bool :=
  match ending.outcome with
  | .error (.client (.transportError _)) => true
  | _ => false

/-- The attempt timed out, or its last request got no answer. -/
def unreachable (ending : Ending) : Bool :=
  ending.timedOut || (ending.transportFailed && !ending.answered)

/-- The connection breaks off after an answer. -/
def brokenOff (ending : Ending) : Bool :=
  ending.transportFailed && ending.answered

/-- The destination was rejected. -/
def rejected (ending : Ending) : Bool :=
  match ending.outcome with
  | .error (.destinationError _) => true
  | _ => false

/-- The status lies between two bounds. -/
def statusWithin (least most : Nat) (ending : Ending) : Bool :=
  ending.status.any (fun status => decide (least ≤ status ∧ status ≤ most))

/-- What is documented to be tried again. -/
def documentedRetry (ending : Ending) : Bool :=
  ending.unreachable || ending.statusWithin 500 599

/-- What is documented never to be tried again. -/
def documentedFinal (ending : Ending) : Bool :=
  ending.rejected || ending.statusWithin 400 499

end Ending

/-- The time at which `finish` would try a job again, missing when it is out of range. -/
def retryTime (config : ReplayConfig) (job : ReplayDoc) (settledAt : Instant) : Option Instant :=
  addSeconds settledAt (config.retryDelaySeconds * 2 ^ (job.attempt - 1))

/-- No later turn takes the job. -/
def NotAgain (id : ObjectId) (later : List Turn) : Prop :=
  ∀ other ∈ later, other.id ≠ id

section
variable (casing : Casing) (config : ReplayConfig)

/-- The documentation holds of a turn and the turns that follow it: with budget left, an
attempt that was answered, timed out or failed to connect puts the job back exactly if
that is documented; and what is documented to be final is not delivered again. -/
def FollowsPolicy (replays : Replays) (current : Turn) (later : List Turn) : Prop :=
  ∀ job ending, delivery casing config replays current = some (job, ending) →
    ((job.attempt : Int) < job.maxAttempts →
      (ending.status.isSome = true ∨ ending.unreachable = true) →
      ((∃ next stored, turn casing config replays current = some next ∧
          next.find current.id = some stored ∧ stored.state = .pending) ↔
        ending.documentedRetry = true)) ∧
    (ending.documentedFinal = true → NotAgain current.id later)

/-- What the last answer and the retry time have to be for the code to do what is
documented of a delivery. -/
structure Meets (current : Turn) (later : List Turn) (job : ReplayDoc) (ending : Ending) :
    Prop where
  /-- A status from 500 to 599 comes with a body that raises no exception of its own,
  and is in the table if the body was read. -/
  serverError : (job.attempt : Int) < job.maxAttempts →
    ending.statusWithin 500 599 = true → ending.escapes = false ∧
      (ending.read = true → ∃ status ∈ retryableStatus, ending.status = some status)
  /-- What is documented to be tried again has a retry time. -/
  inRange : (job.attempt : Int) < job.maxAttempts → ending.documentedRetry = true →
    (retryTime config job current.settledAt).isSome = true
  /-- The table has 429, and a connection that breaks off counts as one that failed: both
  do no harm only where there is no retry time. -/
  outOfRange : (job.attempt : Int) < job.maxAttempts → ending.statusWithin 500 599 = false →
    (ending.read = true ∧ ending.status = some 429 ∨ ending.brokenOff = true) →
    (retryTime config job current.settledAt).isSome = false
  /-- A status from 400 to 499 ends the job if its body was read and it is not 429, or if
  the attempt was the last one. Otherwise no later turn may take the job. -/
  clientError : ending.statusWithin 400 499 = true →
    (ending.escapes = true ∨ (job.attempt : Int) < job.maxAttempts ∧
      (ending.read = false ∨ ending.status = some 429)) →
    NotAgain current.id later

/-- Every delivery of the turn is one of which the code does what is documented. -/
def MeetsTable (replays : Replays) (current : Turn) (later : List Turn) : Prop :=
  ∀ job ending, delivery casing config replays current = some (job, ending) →
    Meets config current later job ending

end

/-! ## Where a turn leaves its job -/

/-- `finish` tries again exactly with a retryable attempt, budget left and a time in
range. -/
theorem verdict_retry {config : ReplayConfig} {job : ReplayDoc} {settledAt : Instant}
    {attempt : Attempt} (exclusive : attempt.retryable = true → attempt.succeeded = false) :
    (∃ due, verdict settledAt job attempt config = some (.retry due)) ↔
      attempt.retryable = true ∧ (job.attempt : Int) < job.maxAttempts ∧
        (retryTime config job settledAt).isSome := by
  constructor
  · rintro ⟨due, settled⟩
    rcases verdict_cases settled with ⟨_, other⟩ | ⟨_, again, remaining, time, computed, _⟩ |
      ⟨_, _, other⟩
    · cases other
    · exact ⟨again, remaining, by rw [retryTime, computed]; rfl⟩
    · cases other
  · rintro ⟨retryable, remaining, inRange⟩
    obtain ⟨time, computed⟩ := Option.isSome_iff_exists.mp inRange
    refine ⟨toMillis time, ?_⟩
    rw [verdict, if_neg (by simp [exclusive retryable]), if_pos ⟨retryable, remaining⟩]
    simp only [retryTime] at computed
    simp only [computed, Option.map_some]

/-- Otherwise it ends the job. -/
theorem verdict_final {config : ReplayConfig} {job : ReplayDoc} {attempt : Attempt}
    (settledAt : Instant)
    (ended : ¬ (attempt.retryable = true ∧ (job.attempt : Int) < job.maxAttempts)) :
    ∃ settled, verdict settledAt job attempt config = some settled ∧
      ∀ replay, (finished attempt settled replay).Finished := by
  rw [verdict, if_neg ended]
  split
  · exact ⟨_, rfl, fun replay => .inl rfl⟩
  · exact ⟨_, rfl, fun replay => .inr rfl⟩

/-- A claimed job was pending and is stored as it was claimed. -/
theorem claim_cases {config : ReplayConfig} {replays taken : Replays} {now : Instant}
    {id : ObjectId} {job : ReplayDoc} (claimed : claim config replays now id = some (taken, job)) :
    job.id = id ∧ taken.find id = some job ∧ job.state = .running ∧
      (∀ stored, replays.find id = some stored → ¬ stored.Finished) ∧
      ∀ wanted stored, wanted ≠ id → replays.find wanted = some stored → stored.Finished →
        taken.find wanted = some stored := by
  obtain ⟨cutoff, _, picked⟩ := Option.bind_eq_some_iff.mp claimed
  obtain ⟨replay, located, pending, _, rfl, changed⟩ := take_cases picked
  have key := (Collection.find_some located).2
  have kept : ∀ wanted stored, replays.find wanted = some stored → stored.Finished →
      (reclaim replays cutoff).find wanted = some stored := by
    intro wanted stored found done
    have notRunning : stored.state ≠ .running := by
      intro running
      rcases done with done | done <;> simp [running] at done
    simp [find_reclaim, found, expired, notRunning]
  refine ⟨key, by rw [changed, if_pos rfl], rfl, ?_, ?_⟩
  · intro stored found done
    obtain rfl := Option.some.inj ((kept id stored found done).symm.trans located)
    rcases done with done | done <;> simp [pending] at done
  · intro wanted stored different found done
    rw [changed, if_neg different]
    exact kept wanted stored found done

/-- A turn from its claim on writes its own job or nothing. -/
theorem runClaimed_writes (world : World) (casing : Casing) (config : ReplayConfig)
    (replays : Replays) (job : ReplayDoc) (event : Option StoredEvent) (elapsed : Int)
    (settledAt : Instant) :
    (runClaimed world casing config replays job event elapsed settledAt).1 = replays ∨
      ∃ settlement, (runClaimed world casing config replays job event elapsed settledAt).1 =
        settle replays job.id settlement := by
  unfold runClaimed
  split
  · exact .inr ⟨_, rfl⟩
  · split
    · exact .inl rfl
    · split
      · exact .inl rfl
      · exact .inr ⟨_, rfl⟩

/-- A finished job stays as it is, and no turn takes it. -/
theorem turn_finished {casing : Casing} {config : ReplayConfig} {replays next : Replays}
    {current : Turn} {id : ObjectId} {stored : ReplayDoc}
    (taken : turn casing config replays current = some next)
    (found : replays.find id = some stored) (done : stored.Finished) :
    current.id ≠ id ∧ next.find id = some stored := by
  obtain ⟨⟨claimed, job⟩, picked, rfl⟩ := Option.map_eq_some_iff.mp taken
  obtain ⟨key, _, _, unfinished, others⟩ := claim_cases picked
  have different : current.id ≠ id := by
    intro same
    exact unfinished stored (same ▸ found) done
  refine ⟨different, ?_⟩
  have kept := others id stored different.symm found done
  cases runClaimed_writes current.world casing config claimed job
    (current.arrived.map (fun request => storedEvent request.1 request.2)) current.elapsed
    current.settledAt with
  | inl same => rw [same, kept]
  | inr written =>
    obtain ⟨settlement, same⟩ := written
    rw [same, find_settle, key, if_neg different.symm, kept]

/-- No later turn takes a finished job.

Induction on the later turns. -/
theorem run_finished {casing : Casing} {config : ReplayConfig} {replays final : Replays}
    {later : List Turn} {id : ObjectId} {stored : ReplayDoc}
    (ran : run (turn casing config) replays later = some final)
    (found : replays.find id = some stored) (done : stored.Finished) :
    ∀ other ∈ later, other.id ≠ id := by
  induction later generalizing replays with
  | nil => simp
  | cons first rest inductionHypothesis =>
    obtain ⟨next, taken, continued⟩ := run_cons_some _ ran
    obtain ⟨different, kept⟩ := turn_finished taken found done
    intro other member
    cases List.mem_cons.mp member with
    | inl same => exact same ▸ different
    | inr inRest => exact inductionHypothesis continued kept other inRest

/-! ## The statuses of a delivery -/

section
variable {world : World} {method : Str} {headers : Dict Str Str} {body : Bytes}
  {config : ReplayConfig}

/-- A hop that ends with a result was answered with the status of that result. -/
theorem hopStatus_ok {hop : Nat} {url : Str} {attempt : Attempt}
    (ended : (hopStep world method headers body config hop url).2 = .done (.ok attempt)) :
    ∃ status, hopStatus world method headers body config hop url = some status ∧
      (attempt.retryable = true ↔ status ∈ retryableStatus) := by
  unfold hopStep at ended
  unfold hopStatus
  cases validated : validate world.urls (world.resolver hop) url config with
  | error rejection => simp [validated] at ended
  | ok target =>
    simp only [validated] at ended
    cases read : request (world.client hop) (requestFor target method headers body) config with
    | error error => simp [read, afterRequest] at ended
    | ok answer =>
      obtain ⟨response, bytes, truncated⟩ := answer
      have answered := request_ok read
      have same : attempt = result response bytes truncated := by
        simp only [read, afterRequest] at ended
        split at ended
        · cases ended
          rfl
        · split at ended
          · split at ended <;> cases ended
          · cases ended
            rfl
      refine ⟨response.statusCode, by simp [answered, Except.toOption], ?_⟩
      simp [same, result]

/-- A hop that redirects, or is over because its URL or its location is refused, was
answered with a redirect or not at all. -/
theorem hopStatus_redirect {hop : Nat} {url : Str} {status : Nat}
    (answered : hopStatus world method headers body config hop url = some status) :
    (300 ≤ status ∧ status < 400) ∨
      (∃ attempt, (hopStep world method headers body config hop url).2 = .done (.ok attempt)) ∨
      ∃ error, (hopStep world method headers body config hop url).2 =
        .done (.error (.client error)) := by
  unfold hopStatus at answered
  unfold hopStep
  cases validated : validate world.urls (world.resolver hop) url config with
  | error rejection => simp [validated] at answered
  | ok target =>
    simp only [validated] at answered
    cases read : request (world.client hop) (requestFor target method headers body) config with
    | error error => exact .inr (.inr ⟨error, by simp [read, afterRequest]⟩)
    | ok answer =>
      obtain ⟨response, bytes, truncated⟩ := answer
      rw [request_ok read] at answered
      obtain rfl : response.statusCode = status := by simpa [Except.toOption] using answered
      cases moved : redirection response with
      | none =>
        have done : afterRequest world config target (request (world.client hop)
            (requestFor target method headers body) config) =
            .done (.ok (result response bytes truncated)) := by
          simp only [read, afterRequest, moved]
        exact .inr (.inl ⟨_, done⟩)
      | some location => exact .inl (redirection_range moved)

/-- A delivery that ends with a result was answered in the end with its status.

Induction on the hops that are left. -/
theorem hopStatuses_ok {left hop : Nat} {url : Str} {attempt : Attempt}
    (ended : (sendLoop world method headers body config left hop url).2 = .ok attempt) :
    ∃ status, (hopStatuses world method headers body config left hop url).getLast? =
        some (some status) ∧ (attempt.retryable = true ↔ status ∈ retryableStatus) := by
  induction left generalizing hop url with
  | zero => cases ended
  | succ left inductionHypothesis =>
    cases next : (hopStep world method headers body config hop url).2 with
    | done outcome =>
      simp only [sendLoop, next] at ended
      obtain ⟨status, answered, table⟩ := hopStatus_ok (next.trans (congrArg Hop.done ended))
      exact ⟨status, by simp [hopStatuses, next, answered], table⟩
    | redirect location =>
      simp only [sendLoop, next] at ended
      obtain ⟨status, last, table⟩ := inductionHypothesis ended
      exact ⟨status, by simp [hopStatuses, next, List.getLast?_cons, last], table⟩

/-- A delivery whose destination is rejected was answered with redirects only.

Induction on the hops that are left. -/
theorem hopStatuses_rejected {left hop : Nat} {url message : Str}
    (ended : (sendLoop world method headers body config left hop url).2 =
      .error (.destinationError message)) {status : Nat}
    (answered : some status ∈ hopStatuses world method headers body config left hop url) :
    300 ≤ status ∧ status < 400 := by
  induction left generalizing hop url with
  | zero => cases answered
  | succ left inductionHypothesis =>
    have redirects : ∀ found, hopStatus world method headers body config hop url = some found →
        300 ≤ found ∧ found < 400 := by
      intro found same
      rcases hopStatus_redirect same with range | ⟨attempt, done⟩ | ⟨error, done⟩
      · exact range
      · simp [sendLoop, done] at ended
      · simp [sendLoop, done] at ended
    cases next : (hopStep world method headers body config hop url).2 with
    | done outcome =>
      rw [hopStatuses, next, List.mem_singleton] at answered
      exact redirects status answered.symm
    | redirect location =>
      simp only [sendLoop, next] at ended
      rw [hopStatuses, next] at answered
      cases List.mem_cons.mp answered with
      | inl first => exact redirects status first.symm
      | inr later => exact inductionHypothesis ended later

end

namespace Ending

/-- An answer to the last request is the last answer. -/
theorem status_last {ending : Ending} {status : Nat}
    (last : ending.statuses.getLast? = some (some status)) : ending.status = some status := by
  obtain ⟨earlier, same⟩ := List.getLast?_eq_some_iff.mp last
  simp [Ending.status, same, List.reduceOption_append]

/-- Where the last request was answered there is a last answer. -/
theorem status_answered {ending : Ending} (answered : ending.answered = true) :
    ending.status.isSome = true := by
  obtain ⟨status, found⟩ := Option.isSome_iff_exists.mp answered
  rw [status_last (Option.join_eq_some_iff.mp found)]
  rfl

/-- A status in a range is there. -/
theorem statusWithin_isSome {ending : Ending} {least most : Nat}
    (within : ending.statusWithin least most = true) : ending.status.isSome = true := by
  cases found : ending.status with
  | none => simp [statusWithin, found] at within
  | some status => rfl

end Ending

/-! ## The outcome decides -/

section
variable {casing : Casing} {config : ReplayConfig} {replays next : Replays} {current : Turn}
  {job : ReplayDoc} {ending : Ending}

/-- A turn that delivers comes from a claim, and leaves what the rest of it leaves. -/
theorem delivery_cases (delivered : delivery casing config replays current = some (job, ending)) :
    ∃ (taken : Replays) (request : Dict Str Str × Bytes),
      claim config replays current.now current.id = some (taken, job) ∧
      ending = Worker.ending current.world job.method
        (sentHeaders casing job (storedEvent request.1 request.2))
        (sentBody (storedEvent request.1 request.2)) config job.destination ∧
      turn casing config replays current =
        some (runClaimed current.world casing config taken job
          (some (storedEvent request.1 request.2)) current.elapsed current.settledAt).1 := by
  obtain ⟨⟨taken, claimed⟩, picked, rest⟩ := Option.bind_eq_some_iff.mp delivered
  obtain ⟨request, arrived, same⟩ := Option.map_eq_some_iff.mp rest
  obtain ⟨rfl, rfl⟩ := Prod.mk.inj same
  have body : sentBody (storedEvent request.1 request.2) = request.2 := by
    rw [sentBody, eventBody_stored]
    rfl
  refine ⟨taken, request, picked, by rw [body], ?_⟩
  simp only [turn, picked, Option.map_some, arrived]

/-- A turn that delivers leaves its job stored. If no exception escapes, the job is
pending afterwards exactly if the attempt is tried again, and is finished if it is not
to be.

Proof: the attempt is retryable as the outcome is, and `finish` writes what its branch
says. -/
theorem delivery_settles (delivered : delivery casing config replays current = some (job, ending))
    (caught : ending.escapes = false) :
    ∃ next stored, turn casing config replays current = some next ∧
      next.find current.id = some stored ∧
      (stored.state = .pending ↔ retries ending.outcome = true ∧
        (job.attempt : Int) < job.maxAttempts ∧
        (retryTime config job current.settledAt).isSome = true) ∧
      (¬ (retries ending.outcome = true ∧ (job.attempt : Int) < job.maxAttempts) →
        stored.Finished) := by
  obtain ⟨taken, request, claimed, rfl, left⟩ := delivery_cases delivered
  obtain ⟨key, held, isRunning, _, _⟩ := claim_cases claimed
  have readable := eventBody_stored request.1 request.2
  have attempted := deliver_eq current.world casing config job current.elapsed readable
  cases executed : execute current.world job.method
      (sentHeaders casing job (storedEvent request.1 request.2))
      (sentBody (storedEvent request.1 request.2)) config current.elapsed job.destination with
  | error error =>
    obtain ⟨raised, failed, uncaught⟩ := (execute_isOk current.elapsed job.destination).mp
      (by rw [executed]; rfl)
    simp [Ending.escapes, Worker.ending, failed, uncaught] at caught
  | ok attempt =>
    have exclusive := execute_retryable executed
    have retried := execute_retries executed
    rw [executed] at attempted
    rw [Worker.ending, ← retried]
    cases settled : verdict current.settledAt job attempt config with
    | none =>
      have overflow := (verdict_none config job current.settledAt exclusive).mp settled
      have unchanged : (runClaimed current.world casing config taken job
          (some (storedEvent request.1 request.2)) current.elapsed current.settledAt).1 =
          taken := by
        simp only [runClaimed, attempted, settled]
      refine ⟨_, job, left, by rw [unchanged, held], ?_, ?_⟩
      · simp [isRunning, retryTime, overflow.2.2]
      · intro ended
        exact absurd ⟨overflow.1, overflow.2.1⟩ ended
    | some written =>
      have changed : (runClaimed current.world casing config taken job
          (some (storedEvent request.1 request.2)) current.elapsed current.settledAt).1 =
          settle taken job.id (.finish attempt written) := by
        simp only [runClaimed, attempted, settled]
      refine ⟨_, finished attempt written job, left, ?_, ?_, ?_⟩
      · rw [changed, find_settle, key, if_pos rfl, held]
        rfl
      · rw [← verdict_retry exclusive, settled]
        cases written <;> simp [finished]
      · intro ended
        obtain ⟨other, same, done⟩ := verdict_final current.settledAt ended
        obtain rfl := Option.some.inj (settled.symm.trans same)
        exact done job

/-- An exception that escapes leaves the job running. -/
theorem delivery_escapes (delivered : delivery casing config replays current = some (job, ending))
    (escapes : ending.escapes = true) :
    ∃ next, turn casing config replays current = some next ∧
      next.find current.id = some job ∧ job.state = .running := by
  obtain ⟨taken, request, claimed, rfl, left⟩ := delivery_cases delivered
  obtain ⟨_, held, isRunning, _, _⟩ := claim_cases claimed
  have attempted := deliver_eq current.world casing config job current.elapsed
    (eventBody_stored request.1 request.2)
  have failed : (execute current.world job.method
      (sentHeaders casing job (storedEvent request.1 request.2))
      (sentBody (storedEvent request.1 request.2)) config current.elapsed
      job.destination).isOk = false := by
    rw [execute_isOk]
    simp only [Ending.escapes, Worker.ending] at escapes
    split at escapes
    · cases escapes
    · rename_i raised outcome
      exact ⟨raised, outcome, escapes⟩
  cases executed : execute current.world job.method
      (sentHeaders casing job (storedEvent request.1 request.2))
      (sentBody (storedEvent request.1 request.2)) config current.elapsed job.destination with
  | ok attempt =>
    rw [executed] at failed
    cases failed
  | error error =>
    rw [executed] at attempted
    refine ⟨_, left, ?_, isRunning⟩
    simp only [runClaimed, attempted, held]

/-- When a turn that delivers puts its job back. -/
theorem delivery_pending (delivered : delivery casing config replays current = some (job, ending)) :
    (∃ next stored, turn casing config replays current = some next ∧
        next.find current.id = some stored ∧ stored.state = .pending) ↔
      ending.escapes = false ∧ retries ending.outcome = true ∧
        (job.attempt : Int) < job.maxAttempts ∧
        (retryTime config job current.settledAt).isSome = true := by
  cases escapes : ending.escapes with
  | true =>
    obtain ⟨next, taken, found, isRunning⟩ := delivery_escapes delivered escapes
    simp [taken, found, isRunning]
  | false =>
    obtain ⟨next, stored, taken, found, pending, _⟩ := delivery_settles delivered escapes
    simp [taken, found, pending]

/-- Where a turn ends its job, no later turn takes it. -/
theorem delivery_final (delivered : delivery casing config replays current = some (job, ending))
    {later : List Turn} {final : Replays}
    (ran : run (turn casing config) replays (current :: later) = some final)
    (caught : ending.escapes = false)
    (ended : ¬ (retries ending.outcome = true ∧ (job.attempt : Int) < job.maxAttempts)) :
    NotAgain current.id later := by
  obtain ⟨next, stored, taken, found, _, ends⟩ := delivery_settles delivered caught
  obtain ⟨after, continues, continued⟩ := run_cons_some _ ran
  obtain rfl := Option.some.inj (taken.symm.trans continues)
  exact run_finished continued found (ends ended)

/-- An attempt with a result is retryable if the last status is in the table. -/
theorem delivery_read (delivered : delivery casing config replays current = some (job, ending))
    (read : ending.read = true) :
    ∃ status, ending.status = some status ∧
      (retries ending.outcome = true ↔ status ∈ retryableStatus) := by
  obtain ⟨_, request, _, rfl, _⟩ := delivery_cases delivered
  cases outcome : (send current.world job.method
      (sentHeaders casing job (storedEvent request.1 request.2))
      (sentBody (storedEvent request.1 request.2)) config job.destination).2 with
  | error raised => simp [Ending.read, Worker.ending, outcome, Except.isOk, Except.toBool] at read
  | ok attempt =>
    obtain ⟨status, last, table⟩ := hopStatuses_ok outcome
    refine ⟨status, Ending.status_last last, ?_⟩
    simp only [Worker.ending, outcome]
    exact table

/-- Where the destination is rejected, the answers before were redirects. -/
theorem delivery_rejected (delivered : delivery casing config replays current = some (job, ending))
    (rejected : ending.rejected = true) {status : Nat} (answered : ending.status = some status) :
    300 ≤ status ∧ status < 400 := by
  obtain ⟨_, request, _, rfl, _⟩ := delivery_cases delivered
  simp only [Ending.rejected, Worker.ending] at rejected
  split at rejected
  · rename_i message outcome
    have member := List.mem_of_getLast? answered
    exact hopStatuses_rejected outcome (List.reduceOption_mem_iff.mp member)
  · cases rejected

end

/-- The table has the status 429 and otherwise only statuses from 500 to 599. -/
theorem mem_retryableStatus {status : Nat} (member : status ∈ retryableStatus) :
    status = 429 ∨ (500 ≤ status ∧ status ≤ 599) := by
  simp only [retryableStatus, List.mem_cons, List.not_mem_nil, or_false] at member
  omega

namespace Ending

/-- A status is in a range of statuses or not. -/
theorem statusWithin_some {ending : Ending} {status : Nat} (found : ending.status = some status)
    (least most : Nat) :
    ending.statusWithin least most = true ↔ least ≤ status ∧ status ≤ most := by
  simp [statusWithin, found]

/-- How a delivery ends: its last response was read, it timed out or got no answer, the
connection broke off after an answer, the destination was rejected, or an exception
leaves it. -/
inductive Kind (ending : Ending) : Prop where
  | read (read : ending.read = true) (escapes : ending.escapes = false)
      (unreachable : ending.unreachable = false) (brokenOff : ending.brokenOff = false)
      (rejected : ending.rejected = false)
  | unreachable (read : ending.read = false) (escapes : ending.escapes = false)
      (unreachable : ending.unreachable = true) (brokenOff : ending.brokenOff = false)
      (rejected : ending.rejected = false) (again : retries ending.outcome = true)
  | brokenOff (read : ending.read = false) (escapes : ending.escapes = false)
      (unreachable : ending.unreachable = false) (brokenOff : ending.brokenOff = true)
      (rejected : ending.rejected = false) (again : retries ending.outcome = true)
  | rejected (read : ending.read = false) (escapes : ending.escapes = false)
      (unreachable : ending.unreachable = false) (brokenOff : ending.brokenOff = false)
      (rejected : ending.rejected = true) (final : retries ending.outcome = false)
  | escapes (read : ending.read = false) (escapes : ending.escapes = true)
      (unreachable : ending.unreachable = false) (brokenOff : ending.brokenOff = false)
      (rejected : ending.rejected = false)

/-- The kinds cover every ending. -/
theorem kind (ending : Ending) : ending.Kind := by
  obtain ⟨statuses, outcome⟩ := ending
  cases outcome with
  | ok attempt => exact .read rfl rfl rfl rfl rfl
  | error raised =>
    cases raised with
    | destinationError message => exact .rejected rfl rfl rfl rfl rfl rfl
    | client error =>
      cases error with
      | timeoutException => exact .unreachable rfl rfl rfl rfl rfl rfl
      | transportError message =>
        cases answered : Ending.answered ⟨statuses, .error (.client (.transportError message))⟩ with
        | true =>
          exact .brokenOff rfl rfl (by simp [Ending.unreachable, timedOut, answered])
            (by simp [Ending.brokenOff, transportFailed, answered]) rfl rfl
        | false =>
          exact .unreachable rfl rfl
            (by simp [Ending.unreachable, transportFailed, answered])
            (by simp [Ending.brokenOff, answered]) rfl rfl
      | decodingError => exact .escapes rfl rfl rfl rfl rfl
      | unicodeEncodeError => exact .escapes rfl rfl rfl rfl rfl
    | invalidUrl => exact .escapes rfl rfl rfl rfl rfl
    | unicodeError => exact .escapes rfl rfl rfl rfl rfl
    | osError => exact .escapes rfl rfl rfl rfl rfl

end Ending

section
variable (config : ReplayConfig) (current : Turn) (later : List Turn) (job : ReplayDoc)
  (ending : Ending)

/-- What the documentation says of a delivery, where the putting back is what
`delivery_pending` says of it. -/
def Agrees : Prop :=
  ((job.attempt : Int) < job.maxAttempts →
    (ending.status.isSome = true ∨ ending.unreachable = true) →
    (ending.escapes = false ∧ retries ending.outcome = true ∧
        (job.attempt : Int) < job.maxAttempts ∧
        (retryTime config job current.settledAt).isSome = true ↔
      ending.documentedRetry = true)) ∧
  (ending.documentedFinal = true → NotAgain current.id later)

end

section
variable {config : ReplayConfig} {current : Turn} {later : List Turn} {job : ReplayDoc}
  {ending : Ending}
  (never : ¬ (retries ending.outcome = true ∧ (job.attempt : Int) < job.maxAttempts) →
    NotAgain current.id later)

include never in
/-- A response that was read: the status is in the table or not. One from 400 to 499 that
is in the table is 429. -/
theorem agrees_read (read : ending.read = true) (escapes : ending.escapes = false)
    (unreachable : ending.unreachable = false) (brokenOff : ending.brokenOff = false)
    (rejected : ending.rejected = false) {status : Nat} (found : ending.status = some status)
    (table : retries ending.outcome = true ↔ status ∈ retryableStatus) :
    Agrees config current later job ending ↔ Meets config current later job ending := by
  unfold Agrees
  have server := Ending.statusWithin_some found 500 599
  have client := Ending.statusWithin_some found 400 499
  have throttled : ending.status = some 429 ↔ status = 429 := by simp [found]
  simp only [Ending.documentedRetry, Ending.documentedFinal, unreachable, rejected, escapes,
    found, Option.isSome_some, Bool.false_or, true_or, true_implies, true_and, table]
  constructor
  · rintro ⟨putBack, refused⟩
    constructor
    case serverError =>
      intro remaining within
      exact ⟨escapes, fun _ => ⟨status, ((putBack remaining).mpr within).1, found⟩⟩
    case inRange =>
      intro remaining documented
      simp only [Ending.documentedRetry, unreachable, Bool.false_or] at documented
      exact ((putBack remaining).mpr documented).2.2
    case outOfRange =>
      rintro remaining within (⟨_, tooMany⟩ | broken)
      · obtain rfl := throttled.mp tooMany
        rw [← Bool.not_eq_true]
        intro inRange
        rw [(putBack remaining).mp ⟨by decide, remaining, inRange⟩] at within
        cases within
      · simp [brokenOff] at broken
    case clientError =>
      intro within _
      exact refused within
  · intro meets
    refine ⟨fun remaining => ?_, fun within => ?_⟩
    · constructor
      · rintro ⟨member, _, inRange⟩
        cases mem_retryableStatus member with
        | inl tooMany =>
          cases within : ending.statusWithin 500 599 with
          | true => rfl
          | false =>
            rw [meets.outOfRange remaining within (.inl ⟨read, throttled.mpr tooMany⟩)] at inRange
            cases inRange
        | inr documented => exact server.mpr documented
      · intro within
        obtain ⟨other, member, same⟩ := (meets.serverError remaining within).2 read
        obtain rfl := Option.some.inj (found.symm.trans same)
        exact ⟨member, remaining,
          meets.inRange remaining (by simp [Ending.documentedRetry, within])⟩
    · by_cases again : status ∈ retryableStatus ∧ (job.attempt : Int) < job.maxAttempts
      · have tooMany : status = 429 := by
          have bounds := client.mp within
          have inTable := mem_retryableStatus again.1
          omega
        exact meets.clientError within (.inr ⟨again.2, .inr (throttled.mpr tooMany)⟩)
      · exact never (by rw [table]; exact again)

include never in
/-- A status from 400 to 499 whose body was not read: no later turn takes the job, be there
budget left or not. -/
theorem notAgain_unread (meets : Meets config current later job ending)
    (read : ending.read = false) (within : ending.statusWithin 400 499 = true) :
    NotAgain current.id later := by
  by_cases remaining : (job.attempt : Int) < job.maxAttempts
  · exact meets.clientError within (.inr ⟨remaining, .inl read⟩)
  · exact never (by simp [remaining])

include never in
/-- A timeout, or a request without an answer, is tried again as documented. -/
theorem agrees_unreachable (read : ending.read = false) (escapes : ending.escapes = false)
    (unreachable : ending.unreachable = true) (brokenOff : ending.brokenOff = false)
    (rejected : ending.rejected = false) (again : retries ending.outcome = true) :
    Agrees config current later job ending ↔ Meets config current later job ending := by
  unfold Agrees
  simp only [Ending.documentedRetry, Ending.documentedFinal, unreachable, rejected, escapes,
    again, Bool.true_or, Bool.false_or, or_true, true_implies, true_and, iff_true]
  constructor
  · rintro ⟨putBack, refused⟩
    constructor
    case serverError => simp [escapes, read]
    case inRange =>
      intro remaining _
      exact (putBack remaining).2
    case outOfRange => simp [read, brokenOff]
    case clientError =>
      intro within _
      exact refused within
  · intro meets
    refine ⟨fun remaining => ⟨remaining, meets.inRange remaining
      (by simp [Ending.documentedRetry, unreachable])⟩, fun within => ?_⟩
    exact notAgain_unread never meets read within

include never in
/-- A connection that breaks off after an answer is tried again whatever the status. -/
theorem agrees_brokenOff (read : ending.read = false) (escapes : ending.escapes = false)
    (unreachable : ending.unreachable = false) (brokenOff : ending.brokenOff = true)
    (rejected : ending.rejected = false) (again : retries ending.outcome = true) :
    Agrees config current later job ending ↔ Meets config current later job ending := by
  unfold Agrees
  have answered : ending.status.isSome = true := by
    simp only [Ending.brokenOff, Bool.and_eq_true] at brokenOff
    exact Ending.status_answered brokenOff.2
  simp only [Ending.documentedRetry, Ending.documentedFinal, unreachable, rejected, escapes,
    again, answered, Bool.false_or, true_or, true_implies, true_and]
  constructor
  · rintro ⟨putBack, refused⟩
    constructor
    case serverError => simp [escapes, read]
    case inRange =>
      intro remaining documented
      simp only [Ending.documentedRetry, unreachable, Bool.false_or] at documented
      exact ((putBack remaining).mpr documented).2
    case outOfRange =>
      intro remaining within _
      rw [← Bool.not_eq_true]
      intro inRange
      rw [(putBack remaining).mp ⟨remaining, inRange⟩] at within
      cases within
    case clientError =>
      intro within _
      exact refused within
  · intro meets
    refine ⟨fun remaining => ?_, fun within => ?_⟩
    · constructor
      · rintro ⟨_, inRange⟩
        cases within : ending.statusWithin 500 599 with
        | true => rfl
        | false =>
          rw [meets.outOfRange remaining within (.inr brokenOff)] at inRange
          cases inRange
      · intro within
        exact ⟨remaining, meets.inRange remaining (by simp [Ending.documentedRetry, within])⟩
    · exact notAgain_unread never meets read within

include never in
/-- A rejected destination is never tried again, and only redirects came before. -/
theorem agrees_rejected (read : ending.read = false) (unreachable : ending.unreachable = false)
    (brokenOff : ending.brokenOff = false) (final : retries ending.outcome = false)
    (redirects : ∀ status, ending.status = some status → 300 ≤ status ∧ status < 400) :
    Agrees config current later job ending ↔ Meets config current later job ending := by
  unfold Agrees
  have notAgain : NotAgain current.id later := never (by simp [final])
  have outside : ∀ least most, (most < 300 ∨ 400 ≤ least) →
      ending.statusWithin least most = false := by
    intro least most bounds
    rw [← Bool.not_eq_true]
    intro within
    obtain ⟨status, found⟩ := Option.isSome_iff_exists.mp (Ending.statusWithin_isSome within)
    have range := redirects status found
    have inside := (Ending.statusWithin_some found least most).mp within
    omega
  have server := outside 500 599 (by decide)
  have client := outside 400 499 (by decide)
  constructor
  · intro _
    constructor <;>
      simp [Ending.documentedRetry, server, client, unreachable, read, brokenOff]
  · intro _
    exact ⟨by simp [Ending.documentedRetry, server, unreachable, final], fun _ => notAgain⟩

/-- An exception that escapes puts nothing back, and nothing keeps a later turn from
taking the job. -/
theorem agrees_escapes (read : ending.read = false) (escapes : ending.escapes = true)
    (unreachable : ending.unreachable = false) (brokenOff : ending.brokenOff = false)
    (rejected : ending.rejected = false) :
    Agrees config current later job ending ↔ Meets config current later job ending := by
  unfold Agrees
  constructor
  · rintro ⟨putBack, refused⟩
    have server : (job.attempt : Int) < job.maxAttempts → ending.statusWithin 500 599 = false := by
      intro remaining
      rw [← Bool.not_eq_true]
      intro within
      have documented := (putBack remaining (.inl (Ending.statusWithin_isSome within))).mpr
        (by simp [Ending.documentedRetry, within])
      simp [escapes] at documented
    constructor
    case serverError =>
      intro remaining within
      simp [server remaining] at within
    case inRange =>
      intro remaining documented
      simp [Ending.documentedRetry, unreachable, server remaining] at documented
    case outOfRange => simp [read, brokenOff]
    case clientError =>
      intro within _
      exact refused (by simp [Ending.documentedFinal, within])
  · intro meets
    refine ⟨fun remaining _ => ?_, fun documented => ?_⟩
    · have server : ending.statusWithin 500 599 = false := by
        rw [← Bool.not_eq_true]
        intro within
        have contained := (meets.serverError remaining within).1
        rw [escapes] at contained
        cases contained
      simp [escapes, Ending.documentedRetry, unreachable, server]
    · exact meets.clientError (by simpa [Ending.documentedFinal, rejected] using documented)
        (.inl escapes)

end

section
variable {casing : Casing} {config : ReplayConfig} {replays final : Replays} {current : Turn}
  {later : List Turn}

/-- A turn that delivers, and the turns that follow it, keep to the documentation exactly
if the outcome of the delivery meets the table.

Proof: one case for each kind of ending. -/
theorem followsPolicy_iff
    (ran : run (turn casing config) replays (current :: later) = some final) :
    FollowsPolicy casing config replays current later ↔
      MeetsTable casing config replays current later := by
  unfold FollowsPolicy MeetsTable
  refine forall_congr' (fun job => forall_congr' (fun ending => ?_))
  refine forall_congr' (fun delivered => ?_)
  rw [delivery_pending delivered]
  change Agrees config current later job ending ↔ Meets config current later job ending
  have never := delivery_final delivered ran
  cases ending.kind with
  | read read escapes unreachable brokenOff rejected =>
    obtain ⟨status, found, table⟩ := delivery_read delivered read
    exact agrees_read (never escapes) read escapes unreachable brokenOff rejected found table
  | unreachable read escapes unreachable brokenOff rejected again =>
    exact agrees_unreachable (never escapes) read escapes unreachable brokenOff rejected again
  | brokenOff read escapes unreachable brokenOff rejected again =>
    exact agrees_brokenOff (never escapes) read escapes unreachable brokenOff rejected again
  | rejected read escapes unreachable brokenOff rejected final =>
    exact agrees_rejected (never escapes) read unreachable brokenOff final
      (fun _ answered => delivery_rejected delivered rejected answered)
  | escapes read escapes unreachable brokenOff rejected =>
    exact agrees_escapes read escapes unreachable brokenOff rejected

end

/-- A run of the worker keeps to the documented policy in every turn exactly if every
delivery of it meets the table.

Proof: turn by turn, by `followsPolicy_iff` on the part of the run that starts there. -/
theorem policy_exact (casing : Casing) (config : ReplayConfig) {start final : Replays}
    {turns : List Turn} (ran : run (turn casing config) start turns = some final) :
    (∀ before current later replays, turns = before ++ current :: later →
      run (turn casing config) start before = some replays →
      FollowsPolicy casing config replays current later) ↔
    ∀ before current later replays, turns = before ++ current :: later →
      run (turn casing config) start before = some replays →
      MeetsTable casing config replays current later := by
  have pointwise : ∀ before current later replays, turns = before ++ current :: later →
      run (turn casing config) start before = some replays →
      (FollowsPolicy casing config replays current later ↔
        MeetsTable casing config replays current later) := by
    intro before current later replays split reached
    rw [split, run_append, reached] at ran
    exact followsPolicy_iff ran
  constructor
  · intro follows before current later replays split reached
    exact (pointwise before current later replays split reached).mp
      (follows before current later replays split reached)
  · intro meets before current later replays split reached
    exact (pointwise before current later replays split reached).mpr
      (meets before current later replays split reached)

/-- A turn on the only job, whose delivery is answered with this status. -/
def statusTurn (now : Instant) (status : Nat) : Turn where
  now := now
  id := Queue.exampleId
  world := publicWorld (.ok { okAnswer with statusCode := status })
  arrived := some ([], [])
  elapsed := 0
  settledAt := now

/-- A job whose only delivery so far is answered with 503 is put back as documented. -/
theorem policy_exact_retried :
    (delivery Casing.ascii {} onlyJob (statusTurn 0 503)).isSome = true ∧
      FollowsPolicy Casing.ascii {} onlyJob (statusTurn 0 503) [] := by
  have ran : (run (turn Casing.ascii {}) onlyJob [statusTurn 0 503]).isSome = true := by
    decide +kernel
  have facts : (delivery Casing.ascii {} onlyJob (statusTurn 0 503)).map (fun delivered =>
      (delivered.2.status, delivered.2.escapes, delivered.2.brokenOff,
        (retryTime {} delivered.1 0).isSome)) = some (some 503, false, false, true) := by
    decide +kernel
  refine ⟨by decide +kernel,
    (policy_exact Casing.ascii {} (Option.some_get ran).symm).mpr ?_ [] _ _ _ rfl rfl⟩
  rintro before current later replays split reached job ending delivered
  obtain ⟨rfl, rfl, rfl⟩ : before = [] ∧ current = statusTurn 0 503 ∧ later = [] := by
    cases before with
    | nil => simpa [eq_comm] using split
    | cons first rest => simp at split
  obtain rfl := Option.some.inj reached
  rw [delivered] at facts
  simp only [Option.map_some, Option.some.injEq, Prod.mk.injEq] at facts
  obtain ⟨status, escapes, brokenOff, inRange⟩ := facts
  constructor
  case serverError =>
    intro _ _
    exact ⟨escapes, fun _ => ⟨503, by decide, status⟩⟩
  case inRange =>
    intro _ _
    exact inRange
  case outOfRange => simp [Ending.statusWithin, status]
  case clientError => simp [Ending.statusWithin, status]

/-- A job that is answered with 429 is delivered again. -/
theorem policy_throttled :
    ¬ ∀ (casing : Casing) (config : ReplayConfig) (start final : Replays) (turns : List Turn),
      run (turn casing config) start turns = some final →
      ∀ before current later replays, turns = before ++ current :: later →
        run (turn casing config) start before = some replays →
        FollowsPolicy casing config replays current later := by
  intro claimed
  have ran : (run (turn Casing.ascii {}) onlyJob
      [statusTurn 0 429, statusTurn 2000000 429]).isSome = true := by decide +kernel
  have follows := claimed Casing.ascii {} onlyJob _ _ (Option.some_get ran).symm [] _ _ _ rfl rfl
  have delivers : (delivery Casing.ascii {} onlyJob (statusTurn 0 429)).isSome = true := by
    decide +kernel
  have refused : (delivery Casing.ascii {} onlyJob (statusTurn 0 429)).any
      (fun delivered => delivered.2.documentedFinal) = true := by decide +kernel
  rw [← Option.some_get delivers, Option.any_some] at refused
  exact (follows _ _ (Option.some_get delivers).symm).2 refused (statusTurn 2000000 429)
    List.mem_cons_self rfl

-- A 404 with a body that cannot be decoded ends nothing: after the lease it is taken again.
example :
    let answer : Answer := { okAnswer with statusCode := 404, broken := some .decodingError }
    let garbled (now : Instant) : Turn :=
      { statusTurn now 404 with world := publicWorld (.ok answer) }
    (delivery Casing.ascii {} onlyJob (garbled 0)).any
        (fun delivered => delivered.2.documentedFinal) = true ∧
      (run (turn Casing.ascii {}) onlyJob [garbled 0, garbled 61000000]).isSome = true := by
  decide +kernel

end WebhookInbox.Worker
