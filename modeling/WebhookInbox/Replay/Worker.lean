import WebhookInbox.Ingest.Parser
import WebhookInbox.Library.Utf8
import WebhookInbox.Replay.Lease

/-!
# One turn of a replay worker

`runClaimed` is `run_once` from the claim on, without interference: it looks the
event up, delivers its body, and settles the job. An exception that leaves the
delivery leaves the job as it was claimed.

`run_once_settles` says when that happens. `runClaimed_steps` connects the turn to
the steps of the queue: it is one of the ways in which a worker there can go on.
-/

namespace WebhookInbox.Worker

open Library Library.Run Calendar Runner Store WebhookInbox.Parser

/-- The parts of a stored event that a replay reads. -/
structure StoredEvent where
  headers : Dict Str Str
  rawBody : Str
  rawEncoding : RawEncoding

/-- The event that was stored for a request with these headers and this body. -/
def storedEvent (headers : Dict Str Str) (body : Bytes) : StoredEvent :=
  ⟨headers, (decodeRaw body).1, (decodeRaw body).2⟩

/-- `event_body(event)`, missing when decoding or encoding raises. -/
def eventBody (event : StoredEvent) : Option Bytes :=
  match event.rawEncoding with
  | .base64 => Base64.decode event.rawBody
  | .utf8 => Encoding.encodeUtf8 event.rawBody

/-- What leaves `run_once` as an exception. -/
inductive RunError where
  | badBody
  | raised (error : Raised)
  | overflowError

section
variable (world : World) (casing : Casing) (config : ReplayConfig)

/-- The attempt that delivers an event. -/
def deliver (job : ReplayDoc) (event : StoredEvent) (elapsed : Int) : Except RunError Attempt :=
  match eventBody event with
  | none => .error .badBody
  | some body =>
      match execute world job.method (mergeHeaders casing event.headers job.headers) body config
          elapsed job.destination with
      | .error error => .error (.raised error)
      | .ok attempt => .ok attempt

/-- `run_once` after its claim returned a job. The result is the collection that
it leaves and the exception that leaves it. -/
def runClaimed (replays : Replays) (job : ReplayDoc) (event : Option StoredEvent) (elapsed : Int)
    (settledAt : Instant) : Replays × Except RunError Unit :=
  match event with
  | none =>
      (settle replays job.id
        (.abandon (lit "The event no longer exists") (toMillis settledAt)), .ok ())
  | some event =>
      match deliver world casing config job event elapsed with
      | .error error => (replays, .error error)
      | .ok attempt =>
          match verdict settledAt job attempt config with
          | none => (replays, .error .overflowError)
          | some settled => (settle replays job.id (.finish attempt settled), .ok ())

end

/-- The body of a stored event is read back as it arrived.

Proof: text that was decoded strictly encodes to its bytes, and base64 decodes to its
bytes. -/
theorem eventBody_stored (headers : Dict Str Str) (body : Bytes) :
    eventBody (storedEvent headers body) = some body := by
  unfold eventBody storedEvent decodeRaw
  cases decoded : Encoding.decodeUtf8 false body with
  | none => exact Base64.decode_encode body
  | some text => exact Encoding.encodeUtf8_decodeUtf8 decoded

section
variable (world : World) (casing : Casing) (config : ReplayConfig) (job : ReplayDoc)
  (event : StoredEvent) (settledAt : Instant)

/-- The bytes of the event that are sent. -/
def sentBody : Bytes := (eventBody event).getD []

/-- The headers that are sent. -/
def sentHeaders : Dict Str Str := mergeHeaders casing event.headers job.headers

/-- The job is to be tried again, at a time that no `datetime` can hold. -/
def RetryOverflows : Prop :=
  Transient world job.method (sentHeaders casing job event) (sentBody event) config
      job.destination ∧
    (job.attempt : Int) < job.maxAttempts ∧
    addSeconds settledAt (config.retryDelaySeconds * 2 ^ (job.attempt - 1)) = none

/-- An exception leaves the turn before it settles the job. -/
def Escapes : Prop :=
  Faulty world job.method (sentHeaders casing job event) (sentBody event) config
      job.destination ∨
    RetryOverflows world casing config job event settledAt

end

section
variable {event : StoredEvent}

/-- A delivery is an execution on the headers and the body that are sent. -/
theorem deliver_eq (world : World) (casing : Casing) (config : ReplayConfig) (job : ReplayDoc)
    (elapsed : Int) {body : Bytes} (readable : eventBody event = some body) :
    deliver world casing config job event elapsed =
      match execute world job.method (sentHeaders casing job event) (sentBody event) config
          elapsed job.destination with
      | .error error => .error (.raised error)
      | .ok attempt => .ok attempt := by
  unfold deliver sentBody sentHeaders
  simp only [readable, Option.getD_some]

/-- The branch of `finish` is missing exactly if the retry time is. -/
theorem verdict_none (config : ReplayConfig) (job : ReplayDoc) (settledAt : Instant)
    {attempt : Attempt} (exclusive : attempt.retryable = true →
      attempt.succeeded = false) :
    verdict settledAt job attempt config = none ↔
      attempt.retryable = true ∧ (job.attempt : Int) < job.maxAttempts ∧
        addSeconds settledAt (config.retryDelaySeconds * 2 ^ (job.attempt - 1)) = none := by
  unfold verdict
  cases succeeded : attempt.succeeded with
  | true =>
    have settled : attempt.retryable ≠ true := by
      intro retryable
      rw [exclusive retryable] at succeeded
      cases succeeded
    simp [settled]
  | false =>
    by_cases again : attempt.retryable = true ∧ (job.attempt : Int) < job.maxAttempts
    · simp [again.1, again.2]
    · rw [if_neg (by simp), if_neg again]
      constructor
      · intro impossible
        cases impossible
      · rintro ⟨retryable, remaining, _⟩
        exact absurd ⟨retryable, remaining⟩ again

/-- A turn settles its job unless an exception escapes. Whatever it writes names a
state other than running.

Proof: the delivery fails exactly if a hop is at fault, and otherwise `finish` has
no branch exactly if the retry time overflows. -/
theorem runClaimed_cases (world : World) (casing : Casing) (config : ReplayConfig)
    (job : ReplayDoc) (elapsed : Int) (settledAt : Instant) {body : Bytes}
    (readable : eventBody event = some body) (replays : Replays) :
    (Escapes world casing config job event settledAt ∧
        (runClaimed world casing config replays job (some event) elapsed settledAt).1 = replays) ∨
      (¬ Escapes world casing config job event settledAt ∧ ∃ attempt settled,
        (runClaimed world casing config replays job (some event) elapsed settledAt).1 =
          settle replays job.id (.finish attempt settled)) := by
  have delivery := deliver_eq world casing config job elapsed readable
  cases executed : execute world job.method (sentHeaders casing job event) (sentBody event) config
      elapsed job.destination with
  | error error =>
    have faulty := (execute_raises elapsed job.destination).mp (by rw [executed]; rfl)
    rw [executed] at delivery
    exact .inl ⟨.inl faulty, by simp [runClaimed, delivery]⟩
  | ok attempt =>
    have sound : ¬ Faulty world job.method (sentHeaders casing job event) (sentBody event) config
        job.destination := by
      intro faulty
      have failed := (execute_raises elapsed job.destination).mpr faulty
      rw [executed] at failed
      cases failed
    have branch := verdict_none config job settledAt (execute_retryable executed)
    rw [execute_transient executed] at branch
    rw [executed] at delivery
    cases settled : verdict settledAt job attempt config with
    | none => exact .inl ⟨.inr (branch.mp settled), by simp [runClaimed, delivery, settled]⟩
    | some written =>
      have representable : ¬ RetryOverflows world casing config job event settledAt := by
        intro overflows
        rw [branch.mpr overflows] at settled
        cases settled
      refine .inr ⟨?_, attempt, written, by simp [runClaimed, delivery, settled]⟩
      rintro (faulty | overflows)
      · exact sound faulty
      · exact representable overflows

/-- The job that `run_once` claimed is left running exactly if an exception
escapes: its event is still there, and either a hop of the delivery meets a fault
or the job is to be tried again at a time out of range. -/
theorem run_once_settles (world : World) (casing : Casing) (config : ReplayConfig)
    {replays taken : Replays} {now : Instant} {id : ObjectId} {job : ReplayDoc}
    (claimed : take replays now id = some (taken, job))
    (arrived : Option (Dict Str Str × Bytes)) (elapsed : Int) (settledAt : Instant) :
    (∃ stored, (runClaimed world casing config taken job
        (arrived.map (fun request => storedEvent request.1 request.2)) elapsed settledAt).1.find id =
          some stored ∧ stored.state ≠ .running) ↔
      ∀ request ∈ arrived,
        ¬ Escapes world casing config job (storedEvent request.1 request.2) settledAt := by
  obtain ⟨replay, located, _, _, marked, changed⟩ := take_cases claimed
  have key : job.id = id := by
    rw [marked, leased_id]
    exact (Collection.find_some located).2
  have held : taken.find id = some job := by
    rw [changed, if_pos rfl]
  have isRunning : job.state = .running := by
    rw [marked]
    rfl
  cases arrived with
  | none =>
    refine ⟨fun _ => by simp, fun _ => ?_⟩
    refine ⟨abandoned (lit "The event no longer exists") (toMillis settledAt) job, ?_, nofun⟩
    simp only [Option.map_none, runClaimed, find_settle, key, ↓reduceIte, held, Option.map_some]
    rfl
  | some request =>
    obtain ⟨headers, body⟩ := request
    have readable := eventBody_stored headers body
    simp only [Option.map_some, Option.mem_def, Option.some.injEq, forall_eq']
    rcases runClaimed_cases world casing config job elapsed settledAt readable taken with
      ⟨escapes, same⟩ | ⟨contained, attempt, settled, written⟩
    · rw [same]
      refine ⟨?_, fun contained => absurd escapes contained⟩
      rintro ⟨stored, found, settled⟩
      obtain rfl := Option.some.inj (held.symm.trans found)
      exact absurd isRunning settled
    · rw [written]
      refine ⟨fun _ => contained, fun _ => ?_⟩
      refine ⟨(Settlement.finish attempt settled).apply job, ?_, ?_⟩
      · rw [find_settle, if_pos key.symm, held, Option.map_some]
      · rw [Settlement.apply_state]
        cases settled <;> simp [Settlement.target]

/-- A queue with one job. -/
def onlyJob : Replays :=
  (enqueue Collection.empty Queue.exampleId ⟨2⟩ ⟨lit "https://example.com/", lit "POST", []⟩ 0
    {}).get (by decide)

/-- Its claim, at the time it was queued. -/
def onlyClaim : Replays × ReplayDoc := (take onlyJob 0 Queue.exampleId).get (by decide)

theorem onlyClaim_taken : take onlyJob 0 Queue.exampleId = some (onlyClaim.1, onlyClaim.2) := by
  have taken : (take onlyJob 0 Queue.exampleId).isSome := by decide
  exact (Option.some_get taken).symm

/-- The collection that a turn on the only job leaves, for an empty request. -/
def afterTurn (world : World) : Replays :=
  (runClaimed world Casing.ascii {} onlyClaim.1 onlyClaim.2 (some (storedEvent [] [])) 0 0).1

/-- A delivery that is answered settles the job: no exception escapes from it. -/
theorem run_once_settles_answered :
    (∃ stored, (afterTurn (publicWorld (.ok okAnswer))).find Queue.exampleId = some stored ∧
      stored.state ≠ .running) ∧
    ∀ request ∈ (some ([], []) : Option (Dict Str Str × Bytes)),
      ¬ Escapes (publicWorld (.ok okAnswer)) Casing.ascii {} onlyClaim.2
        (storedEvent request.1 request.2) 0 := by
  have settled : ∃ stored, (afterTurn (publicWorld (.ok okAnswer))).find Queue.exampleId =
      some stored ∧ stored.state ≠ .running :=
    ⟨((afterTurn (publicWorld (.ok okAnswer))).find Queue.exampleId).get (by decide),
      (Option.some_get _).symm, by decide⟩
  exact ⟨settled, (run_once_settles (publicWorld (.ok okAnswer)) Casing.ascii {} onlyClaim_taken
    (some ([], [])) 0 0).mp settled⟩

/-- The body of every response is compressed badly, which the client reports by an
exception that is not caught. -/
def garbledWorld : World := publicWorld (.ok { okAnswer with broken := some .decodingError })

/-- Then the job stays running. -/
theorem run_once_leaves_running :
    ¬ ∀ (world : World) (casing : Casing) (config : ReplayConfig) (replays taken : Replays)
      (now : Instant) (id : ObjectId) (job : ReplayDoc) (headers : Dict Str Str) (body : Bytes)
      (elapsed : Int) (settledAt : Instant), take replays now id = some (taken, job) →
      ∃ stored, (runClaimed world casing config taken job (some (storedEvent headers body)) elapsed
        settledAt).1.find id = some stored ∧ stored.state ≠ .running := by
  intro claimed
  obtain ⟨stored, found, settled⟩ := claimed garbledWorld Casing.ascii {} onlyJob onlyClaim.1 0
    Queue.exampleId onlyClaim.2 [] [] 0 0 onlyClaim_taken
  have running : ((afterTurn garbledWorld).find Queue.exampleId).map ReplayDoc.state =
      some .running := by decide
  change (afterTurn garbledWorld).find Queue.exampleId = some stored at found
  rw [found] at running
  exact settled (Option.some.inj running)

/-! ## The turn as steps of the queue -/

/-- A worker of the queue that has claimed a job can go on as the turn does: its
steps leave the same collection, and the worker is idle again.

Proof: one list of labels for each way through the turn. -/
theorem runClaimed_steps (world : World) (casing : Casing) (config : ReplayConfig)
    (queue : Queue.State) (worker : Nat) (job : ReplayDoc)
    (standing : queue.workers worker = .claimed job) (event : Option StoredEvent) (elapsed : Int) :
    ∃ labels final, run (Queue.step config) queue labels = some final ∧
      final.replays =
        (runClaimed world casing config queue.replays job event elapsed queue.clock).1 ∧
      final.workers worker = .idle := by
  cases event with
  | none =>
    refine ⟨[.lookup worker false, .stamp worker, .write worker], ?_⟩
    simp [run, Queue.step, standing, Queue.stamped, Queue.State.move, runClaimed]
  | some event =>
    cases delivered : deliver world casing config job event elapsed with
    | error error =>
      refine ⟨[.stop worker], ?_⟩
      simp [run, Queue.step, Queue.State.move, runClaimed, delivered]
    | ok attempt =>
      cases settled : verdict queue.clock job attempt config with
      | none =>
        refine ⟨[.lookup worker true, .deliver worker, .reply worker attempt, .stamp worker], ?_⟩
        simp [run, Queue.step, standing, Queue.stamped, Queue.State.move, runClaimed, delivered,
          settled]
      | some written =>
        refine ⟨[.lookup worker true, .deliver worker, .reply worker attempt, .stamp worker,
          .write worker], ?_⟩
        simp [run, Queue.step, standing, Queue.stamped, Queue.State.move, runClaimed, delivered,
          settled]

end

end WebhookInbox.Worker
