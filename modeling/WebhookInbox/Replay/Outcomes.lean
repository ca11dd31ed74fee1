import WebhookInbox.Replay.Budget
import Mathlib.Order.Bounds.Basic

/-!
# Retries follow the outcomes

The attempts of a job have outcomes, one for each number. The last attempt is the first
one whose outcome is not retryable, or the one that uses up the budget. In a run where
no lease of the job runs out and every claim is settled by `finish`, the job is delivered
until that attempt and no further: `Course` says where it stands at each moment, in terms
of what was noted on the way.

The times noted are the readings of the clock by `claim` and by `finish`. Both are
stored in whole milliseconds, and so is the time between them.
-/

namespace WebhookInbox.Queue

open Library Library.Run Calendar Runner Store

/-- This is what some execution comes to. -/
def Executed (attempt : Attempt) : Prop :=
  ∃ world method headers body config elapsed url,
    execute world method headers body config elapsed url = .ok attempt

/-- The numbers at which a job with these outcomes ends. -/
def endings (config : ReplayConfig) (outcomes : Nat → Attempt) : Set Nat :=
  { number | 1 ≤ number ∧
    ((outcomes number).retryable = false ∨ (number : Int) = config.maxRetries + 1) }

/-- The seconds that `finish` waits before the attempt after this one. -/
def backoff (config : ReplayConfig) (number : Nat) : Int :=
  config.retryDelaySeconds * 2 ^ (number - 1)

/-! ## Conditions on a run -/

/-- The job is within its lease while it is running. -/
def Prompt (config : ReplayConfig) (id : ObjectId) (queue : State) (_ : Label) : Prop :=
  ∀ stored ∈ queue.replays.find id, stored.state = .running → ∀ since ∈ stored.leasedAt,
    queue.clock ≤ since * 1000 + config.leaseTimeout * 1000000

/-- The event of the job is there, and its deliveries have these outcomes. -/
def Answered (outcomes : Nat → Attempt) (id : ObjectId) (queue : State) : Label → Prop
  | .lookup worker present =>
      ∀ replay ∈ (queue.workers worker).held, replay.id = id → present = true
  | .reply worker attempt =>
      ∀ replay ∈ (queue.workers worker).held, replay.id = id →
        attempt = outcomes replay.attempt
  | _ => True

instance decidablePrompt (config : ReplayConfig) (id : ObjectId) (queue : State) (label : Label) :
    Decidable (Prompt config id queue label) := by
  dsimp only [Prompt]
  infer_instance

instance decidableAnswered (outcomes : Nat → Attempt) (id : ObjectId) (queue : State) :
    (label : Label) → Decidable (Answered outcomes id queue label)
  | .lookup worker present =>
      inferInstanceAs (Decidable (∀ replay ∈ (queue.workers worker).held, replay.id = id →
        present = true))
  | .reply worker attempt =>
      inferInstanceAs (Decidable (∀ replay ∈ (queue.workers worker).held, replay.id = id →
        attempt = outcomes replay.attempt))
  | .tick _ | .enqueue _ _ _ _ | .begin _ | .reclaim _ | .take _ _ | .miss _ | .deliver _
  | .stamp _ | .write _ | .stop _ => .isTrue trivial

/-! ## What is noted -/

/-- A note on the job: its claim and the reading of the clock by `claim`, the reading of
the clock by `finish`, and the write of `finish`, each with the number of the attempt. -/
inductive Note where
  | claimed (number : Nat) (now : Instant)
  | read (number : Nat) (now : Instant)
  | recorded (number : Nat)
deriving DecidableEq

/-- The number of the attempt that is noted. -/
def Note.number : Note → Nat
  | .claimed number _ | .read number _ | .recorded number => number

/-- What is noted about the job at a step. -/
def observe (id : ObjectId) (queue : State) : Label → List Note
  | .take worker target =>
      match queue.workers worker, queue.replays.find target with
      | .reclaimed now, some stored =>
          if target = id then [.claimed (stored.attempt + 1) now] else []
      | _, _ => []
  | .stamp worker =>
      match queue.workers worker with
      | .delivered replay _ =>
          if replay.id = id then [.read replay.attempt queue.clock] else []
      | _ => []
  | .write worker =>
      match queue.workers worker with
      | .settling replay (.finish _ _) => if replay.id = id then [.recorded replay.attempt] else []
      | _ => []
  | _ => []

/-- The notes of a whole run. -/
def notes (config : ReplayConfig) (id : ObjectId) (start : Instant) (labels : List Label) :
    List Note :=
  observed (step config) (observe id) (initial start) labels

/-- The clock was read once for this attempt, and showed this time. -/
def ReadAt (past : List Note) (number : Nat) (now : Instant) : Prop :=
  ∀ other, .read number other ∈ past ↔ other = now

/-- Notes that are no reading for the attempt leave its reading as it is. -/
theorem ReadAt.append {past more : List Note} {number : Nat} {now : Instant}
    (read : ReadAt past number now) (silent : ∀ other, .read number other ∉ more) :
    ReadAt (past ++ more) number now := by
  intro other
  rw [List.mem_append, read other]
  exact or_iff_left (silent other)

/-- One more note with a number within the bound. -/
theorem bounded_append {past : List Note} {note : Note} {most : Nat}
    (bounded : ∀ other ∈ past, other.number ≤ most) (within : note.number ≤ most) :
    ∀ other ∈ past ++ [note], other.number ≤ most := by
  intro other noted
  cases List.mem_append.mp noted with
  | inl old => exact bounded other old
  | inr new =>
    obtain rfl := List.mem_singleton.mp new
    exact within

/-! ## Where the job stands -/

section
variable (config : ReplayConfig) (outcomes : Nat → Attempt) (id : ObjectId) (last : Nat)

/-- The document of the job agrees with the notes. -/
structure Tracks (stored : ReplayDoc) (sent : List (ObjectId × Nat)) (past : List Note) : Prop where
  bound : stored.maxAttempts = config.maxRetries + 1
  bounded : ∀ note ∈ past, note.number ≤ stored.attempt
  recorded : ∀ number, .recorded number ∈ past ↔
    1 ≤ number ∧ (number < stored.attempt ∨ number = stored.attempt ∧ stored.state ≠ .running)
  delivered : ∀ number, .recorded number ∈ past → (id, number) ∈ sent
  pending : stored.state = .pending → stored.attempt < last
  running : stored.state = .running → 1 ≤ stored.attempt ∧ stored.attempt ≤ last
  success : stored.state = .success → stored.attempt = last ∧ (outcomes last).succeeded = true
  failed : stored.state = .failed → stored.attempt = last ∧ (outcomes last).succeeded = false
  completed : stored.completedAt.isSome = true ↔ stored.Finished
  due : stored.state = .pending → 1 ≤ stored.attempt → ∃ now, ReadAt past stored.attempt now ∧
    stored.nextAttemptAt = toMillis (now + backoff config stored.attempt * 1000000)

/-- A worker that holds the job holds its latest claim, and has gone as far with it as the
notes say. -/
structure Fits (stored : ReplayDoc) (sent : List (ObjectId × Nat)) (past : List Note)
    (place : Worker) : Prop where
  latest : ∀ replay ∈ place.held, replay.id = id → stored.state = .running ∧
    replay.attempt = stored.attempt ∧ replay.maxAttempts = stored.maxAttempts
  unread : ∀ replay ∈ place.held, replay.id = id → place.settlement = none →
    ∀ now, .read stored.attempt now ∉ past
  sent : ∀ replay ∈ place.held, replay.id = id → place.undelivered = none →
    (id, stored.attempt) ∈ sent
  present : ∀ replay, place = .orphaned replay → replay.id ≠ id
  answer : ∀ replay attempt, place = .delivered replay attempt → replay.id = id →
    attempt = outcomes stored.attempt
  settling : ∀ replay settlement, place = .settling replay settlement → replay.id = id →
    ∃ now settled, settlement = .finish (outcomes stored.attempt) settled ∧
      verdict now replay (outcomes stored.attempt) config = some settled ∧
      ReadAt past stored.attempt now

/-- The next attempt is claimed when the time to wait is over, to the millisecond. -/
def Spaced (past : List Note) : Prop :=
  ∀ number claimed, 1 ≤ number → .claimed (number + 1) claimed ∈ past →
    ∃ finished, ReadAt past number finished ∧
      toMillis (finished + backoff config number * 1000000) ≤ toMillis claimed

/-- Where the job, the workers that hold it and the notes on it stand. -/
structure Course (queue : State) (past : List Note) : Prop where
  absent : queue.replays.find id = none → past = []
  tracks : ∀ stored, queue.replays.find id = some stored →
    Tracks config outcomes id last stored queue.sent past
  fits : ∀ stored worker, queue.replays.find id = some stored →
    Fits config outcomes id stored queue.sent past (queue.workers worker)
  spaced : Spaced config past

end

section
variable {config : ReplayConfig} {outcomes : Nat → Attempt} {id : ObjectId} {last : Nat}

/-- A worker without this job fits it. -/
theorem Fits.other {stored : ReplayDoc} {sent : List (ObjectId × Nat)} {past : List Note}
    {place : Worker} (elsewhere : ∀ replay ∈ place.held, replay.id ≠ id) :
    Fits config outcomes id stored sent past place where
  latest replay holding job := absurd job (elsewhere replay holding)
  unread replay holding job := absurd job (elsewhere replay holding)
  sent replay holding job := absurd job (elsewhere replay holding)
  present replay standing := elsewhere replay (by rw [standing]; rfl)
  answer replay attempt standing job := absurd job (elsewhere replay (by rw [standing]; rfl))
  settling replay settlement standing job :=
    absurd job (elsewhere replay (by rw [standing]; rfl))

/-- A free worker fits every job. -/
theorem Fits.free {stored : ReplayDoc} {sent : List (ObjectId × Nat)} {past : List Note}
    {place : Worker} (free : place.held = none) :
    Fits config outcomes id stored sent past place := by
  refine Fits.other ?_
  intro replay holding
  rw [free] at holding
  cases holding

/-- More deliveries do not matter to a worker. -/
theorem Fits.more {stored : ReplayDoc} {sent grown : List (ObjectId × Nat)} {past : List Note}
    {place : Worker} (fits : Fits config outcomes id stored sent past place)
    (more : sent ⊆ grown) : Fits config outcomes id stored grown past place :=
  { fits with sent := fun replay holding job under => more (fits.sent replay holding job under) }

/-- More deliveries do not matter to the document. -/
theorem Tracks.more {stored : ReplayDoc} {sent grown : List (ObjectId × Nat)} {past : List Note}
    (tracks : Tracks config outcomes id last stored sent past) (more : sent ⊆ grown) :
    Tracks config outcomes id last stored grown past :=
  { tracks with delivered := fun number noted => more (tracks.delivered number noted) }

/-- A step that leaves the job and the record alone keeps the course if the workers go on
to fit. -/
theorem Course.kept {before after : State} {past : List Note}
    (course : Course config outcomes id last before past)
    (found : after.replays.find id = before.replays.find id) (sent : after.sent = before.sent)
    (fits : ∀ stored worker, before.replays.find id = some stored →
      Fits config outcomes id stored before.sent past (after.workers worker)) :
    Course config outcomes id last after past where
  absent none := course.absent (found ▸ none)
  tracks stored present := by
    rw [sent]
    exact course.tracks stored (found ▸ present)
  fits stored worker present := by
    rw [sent]
    exact fits stored worker (found ▸ present)
  spaced := course.spaced

/-- If the moved worker fits, all do. -/
theorem Course.fits_move {queue : State} {past : List Note}
    (course : Course config outcomes id last queue past) {mover : Nat} {place : Worker}
    {stored : ReplayDoc} (present : queue.replays.find id = some stored)
    (fits : Fits config outcomes id stored queue.sent past place) (worker : Nat) :
    Fits config outcomes id stored queue.sent past ((queue.move mover place).workers worker) := by
  by_cases same : worker = mover
  · subst same
    rwa [move_same]
  · rw [move_other queue place same]
    exact course.fits stored worker present

/-- A worker that moves alone keeps the course if it fits in its new place. -/
theorem Course.moved {queue : State} {past : List Note}
    (course : Course config outcomes id last queue past) {mover : Nat} {place : Worker}
    (fits : ∀ stored, queue.replays.find id = some stored →
      Fits config outcomes id stored queue.sent past place) :
    Course config outcomes id last (queue.move mover place) past :=
  course.kept rfl rfl (fun stored worker present =>
    course.fits_move present (fits stored present) worker)

/-- The document of a new job agrees with no notes. -/
theorem Tracks.enqueued {eventId : ObjectId} {payload : ReplayCreate} {now : Instant}
    {sent : List (ObjectId × Nat)} (first : 0 < last) :
    Tracks config outcomes id last (enqueued id eventId payload now config) sent [] := by
  constructor
  · rfl
  · exact fun note noted => absurd noted List.not_mem_nil
  · intro number
    simp only [List.not_mem_nil, Store.enqueued, false_iff]
    omega
  · exact fun number noted => absurd noted List.not_mem_nil
  · intro _
    exact first
  · intro impossible
    cases impossible
  · intro impossible
    cases impossible
  · intro impossible
    cases impossible
  · simp [Store.enqueued, ReplayDoc.Finished]
  · intro _ counted
    simp [Store.enqueued] at counted

/-- A new job has no history. -/
theorem Course.inserted {before : State} {past : List Note} {fresh eventId : ObjectId}
    {payload : ReplayCreate} {now : Instant} {grown : Replays} (numbered : Numbered before)
    (course : Course config outcomes id last before past)
    (least : IsLeast (endings config outcomes) last)
    (inserted : enqueue before.replays fresh eventId payload now config = some grown) :
    Course config outcomes id last { before with replays := grown } past := by
  by_cases same : id = fresh
  · subst same
    have missing : before.replays.find id = none := Collection.insert_fresh inserted
    have empty := course.absent missing
    have stored : grown.find id = some (enqueued id eventId payload now config) := by
      rw [find_enqueue inserted, if_pos rfl]
    subst empty
    refine ⟨fun _ => rfl, ?_, ?_, course.spaced⟩
    · intro document found
      obtain rfl := Option.some.inj (stored.symm.trans found)
      exact Tracks.enqueued least.1.1
    · intro document worker found
      refine Fits.other ?_
      rintro replay holding rfl
      obtain ⟨other, present, _⟩ := numbered.latest holding
      rw [missing] at present
      cases present
  · refine course.kept ?_ rfl (fun stored worker present => course.fits stored worker present)
    change grown.find id = before.replays.find id
    rw [find_enqueue inserted, if_neg same]

/-- The worker that begins to deliver the job fits it, as the delivery is on record. -/
theorem Fits.delivering {stored replay : ReplayDoc} {sent : List (ObjectId × Nat)}
    {past : List Note} (fits : Fits config outcomes id stored sent past (.found replay)) :
    Fits config outcomes id stored (sent ++ [(replay.id, replay.attempt)]) past
      (.delivering replay) := by
  constructor
  · exact fits.latest
  · exact fun held holding job _ => fits.unread held holding job rfl
  · intro held holding job _
    obtain rfl := Option.some.inj holding
    have latest := (fits.latest replay rfl job).2.1
    rw [← job, ← latest]
    exact List.mem_append_right _ List.mem_cons_self
  · intro held standing
    cases standing
  · intro held attempt standing
    cases standing
  · intro held settlement standing
    cases standing

/-- A delivery that begins is on record. -/
theorem Course.delivering {before : State} {past : List Note} {worker : Nat} {replay : ReplayDoc}
    (course : Course config outcomes id last before past)
    (place : before.workers worker = .found replay) :
    Course config outcomes id last { before.move worker (.delivering replay) with
      sent := before.sent ++ [(replay.id, replay.attempt)] } past := by
  have more : before.sent ⊆ before.sent ++ [(replay.id, replay.attempt)] :=
    List.subset_append_left _ _
  refine ⟨course.absent, fun stored found => (course.tracks stored found).more more, ?_,
    course.spaced⟩
  intro stored other found
  change Fits config outcomes id stored (before.sent ++ [(replay.id, replay.attempt)]) past
    ((before.move worker (.delivering replay)).workers other)
  by_cases same : other = worker
  · subst same
    rw [move_same]
    have fits := course.fits stored other found
    rw [place] at fits
    exact fits.delivering
  · rw [move_other before _ same]
    exact (course.fits stored other found).more more

/-- The document of a claimed job agrees with the longer notes. -/
theorem Tracks.claimedNext {replay : ReplayDoc} {sent : List (ObjectId × Nat)} {past : List Note}
    {now : Instant} (tracks : Tracks config outcomes id last replay sent past)
    (pending : replay.state = .pending) :
    Tracks config outcomes id last (leased now replay) sent
      (past ++ [.claimed (replay.attempt + 1) now]) := by
  constructor
  · exact tracks.bound
  · exact bounded_append (fun note old => (tracks.bounded note old).trans (Nat.le_succ _))
      (Nat.le_refl _)
  · intro number
    have old := tracks.recorded number
    simp only [pending, ne_eq, reduceCtorEq, not_false_eq_true, and_true] at old
    simp only [List.mem_append, List.mem_singleton, reduceCtorEq, or_false, old, leased,
      ne_eq, not_true_eq_false, and_false]
    omega
  · intro number noted
    exact tracks.delivered number (by simpa using noted)
  · intro impossible
    cases impossible
  · intro _
    exact ⟨Nat.le_add_left 1 _, tracks.pending pending⟩
  · intro impossible
    cases impossible
  · intro impossible
    cases impossible
  · have unfinished : ¬ replay.Finished := by simp [ReplayDoc.Finished, pending]
    have open' : ¬ (leased now replay).Finished := by simp [ReplayDoc.Finished, leased]
    exact iff_of_false (fun done => unfinished (tracks.completed.mp done)) open'
  · intro impossible
    cases impossible

/-- The worker that has claimed the job fits it: its attempt has no reading yet. -/
theorem Fits.claimedNext {replay : ReplayDoc} {sent : List (ObjectId × Nat)} {past : List Note}
    {now : Instant} (tracks : Tracks config outcomes id last replay sent past) :
    Fits config outcomes id (leased now replay) sent
      (past ++ [.claimed (replay.attempt + 1) now]) (.claimed (leased now replay)) := by
  constructor
  · intro held holding _
    obtain rfl := Option.some.inj holding
    exact ⟨rfl, rfl, rfl⟩
  · intro held holding _ _ clock noted
    have earlier : .read (replay.attempt + 1) clock ∈ past := by simpa [leased] using noted
    exact absurd (tracks.bounded _ earlier) (Nat.not_succ_le_self _)
  · intro held holding _ under
    cases under
  · intro held standing
    cases standing
  · intro held attempt standing
    cases standing
  · intro held settlement standing
    cases standing

/-- A claim is noted with the reading of its clock, which came after the time to wait. -/
theorem Course.claimed {before : State} {past : List Note} {worker : Nat} {now : Instant}
    {replays : Replays} {job replay : ReplayDoc}
    (course : Course config outcomes id last before past)
    (found : before.replays.find id = some replay)
    (claimed : take before.replays now id = some (replays, job)) :
    Course config outcomes id last { before.move worker (.claimed job) with replays := replays }
      (past ++ [.claimed (replay.attempt + 1) now]) := by
  obtain ⟨other, located, pending, due, rfl, changed⟩ := take_cases claimed
  obtain rfl := Option.some.inj (found.symm.trans located)
  have tracks := course.tracks replay found
  have stored : replays.find id = some (leased now replay) := by rw [changed, if_pos rfl]
  constructor
  · intro missing
    exact absurd (stored.symm.trans missing) (Option.some_ne_none _)
  · intro document present
    obtain rfl := Option.some.inj (stored.symm.trans present)
    exact tracks.claimedNext pending
  · intro document other present
    obtain rfl := Option.some.inj (stored.symm.trans present)
    change Fits config outcomes id (leased now replay) before.sent _
      ((before.move worker (.claimed (leased now replay))).workers other)
    by_cases same : other = worker
    · subst same
      rw [move_same]
      exact Fits.claimedNext tracks
    · rw [move_other before _ same]
      apply Fits.other
      intro held holding job
      have running := ((course.fits replay other found).latest held holding job).1
      rw [pending] at running
      cases running
  · intro number clock positive next
    cases List.mem_append.mp next with
    | inl old =>
      obtain ⟨finished, read, time⟩ := course.spaced number clock positive old
      exact ⟨finished, read.append (by simp), time⟩
    | inr new =>
      obtain ⟨same, rfl⟩ := Note.claimed.inj (List.mem_singleton.mp new)
      obtain rfl := Nat.succ.inj same
      obtain ⟨finished, read, time⟩ := tracks.due pending positive
      exact ⟨finished, read.append (by simp), time ▸ due⟩

/-- While a worker holds the job no other worker does. -/
theorem Course.alone {queue : State} {past : List Note} (numbered : Numbered queue)
    (course : Course config outcomes id last queue past) {stored replay : ReplayDoc}
    {worker other : Nat} (found : queue.replays.find id = some stored)
    (held : (queue.workers worker).held = some replay) (job : replay.id = id)
    (different : other ≠ worker) : ∀ replay ∈ (queue.workers other).held, replay.id ≠ id := by
  intro second holding sameJob
  have number := ((course.fits stored worker found).latest replay held job).2.1
  have otherNumber := ((course.fits stored other found).latest second holding sameJob).2.1
  exact different (numbered.distinct ⟨second, holding, sameJob, otherNumber⟩
    ⟨replay, held, job, number⟩)

/-- When the worker that holds the job moves, it is enough that it fits in its new place,
whatever becomes of the document and of the notes. -/
theorem Course.fits_holder {queue : State} {past : List Note} (numbered : Numbered queue)
    (course : Course config outcomes id last queue past) {stored replay : ReplayDoc}
    {worker : Nat} (found : queue.replays.find id = some stored)
    (held : (queue.workers worker).held = some replay) (job : replay.id = id)
    {document : ReplayDoc} {sent : List (ObjectId × Nat)} {noted : List Note} {place : Worker}
    (fits : Fits config outcomes id document sent noted place) (other : Nat) :
    Fits config outcomes id document sent noted ((queue.move worker place).workers other) := by
  by_cases same : other = worker
  · subst same
    rwa [move_same]
  · rw [move_other queue place same]
    exact Fits.other (course.alone numbered found held job same)

/-- The document of a running job agrees with the notes and one more reading. -/
theorem Tracks.readNext {stored : ReplayDoc} {sent : List (ObjectId × Nat)} {past : List Note}
    {now : Instant} (tracks : Tracks config outcomes id last stored sent past)
    (running : stored.state = .running) :
    Tracks config outcomes id last stored sent (past ++ [.read stored.attempt now]) := by
  constructor
  · exact tracks.bound
  · exact bounded_append tracks.bounded (Nat.le_refl _)
  · intro number
    rw [← tracks.recorded number]
    simp
  · intro number noted
    exact tracks.delivered number (by simpa using noted)
  · exact tracks.pending
  · exact tracks.running
  · exact tracks.success
  · exact tracks.failed
  · exact tracks.completed
  · intro pending
    rw [running] at pending
    cases pending

/-- The worker with the reading fits the job in its next place, where it is free or writes
what the reading decides. -/
theorem Fits.readNext {stored replay : ReplayDoc} {attempt : Attempt}
    {sent : List (ObjectId × Nat)} {past : List Note} {now : Instant} {place : Worker}
    (fits : Fits config outcomes id stored sent past (.delivered replay attempt))
    (job : replay.id = id)
    (settling : place = .idle ∨ ∃ settled, verdict now replay attempt config =
      some settled ∧ place = .settling replay (.finish attempt settled)) :
    Fits config outcomes id stored sent (past ++ [.read stored.attempt now]) place := by
  cases settling with
  | inl freed => exact Fits.free (by rw [freed]; rfl)
  | inr finishing =>
    obtain ⟨settled, computed, rfl⟩ := finishing
    have unread := fits.unread replay rfl job rfl
    constructor
    · exact fits.latest
    · intro held holding _ unsettled
      cases unsettled
    · exact fun held holding sameJob _ => fits.sent held holding sameJob rfl
    · intro held placed
      cases placed
    · intro held other placed
      cases placed
    · intro held settlement placed _
      obtain ⟨rfl, rfl⟩ := Worker.settling.inj placed
      obtain rfl := fits.answer replay attempt rfl job
      refine ⟨now, settled, rfl, computed, ?_⟩
      intro clock
      simp [unread clock]

/-- The reading of the clock by `finish` is noted, and decides what is written. -/
theorem Course.read {before : State} {past : List Note} {worker : Nat} {replay : ReplayDoc}
    {attempt : Attempt} {place : Worker} (numbered : Numbered before)
    (course : Course config outcomes id last before past)
    (standing : before.workers worker = .delivered replay attempt) (job : replay.id = id)
    (settling : place = .idle ∨ ∃ settled, verdict before.clock replay attempt config =
      some settled ∧ place = .settling replay (.finish attempt settled)) :
    Course config outcomes id last (before.move worker place)
      (past ++ [.read replay.attempt before.clock]) := by
  have held : (before.workers worker).held = some replay := by rw [standing]; rfl
  obtain ⟨stored, found, _⟩ := numbered.latest held
  rw [job] at found
  have tracks := course.tracks stored found
  have fits := course.fits stored worker found
  rw [standing] at fits
  obtain ⟨running, latest, _⟩ := fits.latest replay rfl job
  rw [latest]
  constructor
  · intro missing
    exact absurd (found.symm.trans missing) (Option.some_ne_none _)
  · intro document present
    obtain rfl := Option.some.inj (found.symm.trans present)
    exact tracks.readNext running
  · intro document other present
    obtain rfl := Option.some.inj (found.symm.trans present)
    exact course.fits_holder numbered found held job (fits.readNext job settling) other
  · intro number clock positive next
    have claimed : .claimed (number + 1) clock ∈ past := by simpa using next
    have earlier : number ≠ stored.attempt := Nat.ne_of_lt (tracks.bounded _ claimed)
    obtain ⟨finished, read, time⟩ := course.spaced number clock positive claimed
    exact ⟨finished, read.append (by simp [earlier]), time⟩

/-- What `finish` writes ends the job with its last attempt, and not before. -/
theorem verdict_last {now : Instant} {replay stored : ReplayDoc} {settled : Verdict}
    (executed : ∀ number, Executed (outcomes number)) (nonneg : 0 ≤ config.maxRetries)
    (least : IsLeast (endings config outcomes) last) (number : replay.attempt = stored.attempt)
    (bound : replay.maxAttempts = config.maxRetries + 1)
    (started : 1 ≤ stored.attempt) (within : stored.attempt ≤ last)
    (computed : verdict now replay (outcomes stored.attempt) config = some settled) :
    (∃ time, settled = .success time ∧ stored.attempt = last ∧ (outcomes last).succeeded = true) ∨
      (settled = .retry (toMillis (now + backoff config stored.attempt * 1000000)) ∧
        stored.attempt < last) ∨
      ∃ time, settled = .failed time ∧ stored.attempt = last ∧
        (outcomes last).succeeded = false := by
  have ended : (outcomes stored.attempt).retryable = false ∨
      (stored.attempt : Int) = config.maxRetries + 1 → stored.attempt = last :=
    fun spent => Nat.le_antisymm within (least.2 ⟨started, spent⟩)
  have budget : (last : Int) ≤ config.maxRetries + 1 := by
    have most : (config.maxRetries + 1).toNat ∈ endings config outcomes :=
      ⟨by omega, .inr (by omega)⟩
    have bounded := least.2 most
    omega
  cases verdict_cases computed with
  | inl success =>
    obtain ⟨succeeded, result⟩ := success
    have final : (outcomes stored.attempt).retryable = false := by
      cases retryable : (outcomes stored.attempt).retryable with
      | false => rfl
      | true =>
        obtain ⟨_, _, _, _, _, _, _, execution⟩ := executed stored.attempt
        rw [execute_retryable execution retryable] at succeeded
        cases succeeded
    have same := ended (.inl final)
    exact .inl ⟨_, result, same, same ▸ succeeded⟩
  | inr others =>
    cases others with
    | inl retry =>
      obtain ⟨_, retryable, remaining, due, added, result⟩ := retry
      rw [number] at added remaining
      refine .inr (.inl ⟨?_, ?_⟩)
      · rw [result, addSeconds_eq added]
        rfl
      · refine Nat.lt_of_le_of_ne within ?_
        intro same
        cases least.1.2 with
        | inl settled =>
          rw [← same, retryable] at settled
          cases settled
        | inr used => omega
    | inr failed =>
      obtain ⟨unsuccessful, spent, result⟩ := failed
      have same : stored.attempt = last := by
        cases retryable : (outcomes stored.attempt).retryable with
        | false => exact ended (.inl retryable)
        | true =>
          refine ended (.inr ?_)
          rw [number, bound] at spent
          have used : ¬ (stored.attempt : Int) < config.maxRetries + 1 :=
            fun remaining => spent ⟨retryable, remaining⟩
          omega
      exact .inr (.inr ⟨_, result, same, same ▸ unsuccessful⟩)

/-- A document that records the outcome of its latest claim agrees with the longer notes. -/
theorem Tracks.recordedNext {stored : ReplayDoc} {sent : List (ObjectId × Nat)} {past : List Note}
    {settled : Verdict} (tracks : Tracks config outcomes id last stored sent past)
    (executed : ∀ number, Executed (outcomes number)) (nonneg : 0 ≤ config.maxRetries)
    (least : IsLeast (endings config outcomes) last) (running : stored.state = .running)
    (begun : (id, stored.attempt) ∈ sent) {now : Instant} {replay : ReplayDoc}
    (number : replay.attempt = stored.attempt) (bound : replay.maxAttempts = stored.maxAttempts)
    (computed : verdict now replay (outcomes stored.attempt) config = some settled)
    (read : ReadAt past stored.attempt now) :
    Tracks config outcomes id last (finished (outcomes stored.attempt) settled stored) sent
      (past ++ [.recorded stored.attempt]) := by
  obtain ⟨started, within⟩ := tracks.running running
  have open' : stored.completedAt = none := by
    have unfinished : ¬ stored.Finished := by simp [ReplayDoc.Finished, running]
    have missing := mt tracks.completed.mp unfinished
    simpa using missing
  have attempt : (finished (outcomes stored.attempt) settled stored).attempt = stored.attempt :=
    Settlement.apply_attempt (.finish _ _) stored
  have left : (finished (outcomes stored.attempt) settled stored).state ≠ .running := by
    cases settled <;> simp [finished]
  have verdicts := verdict_last executed nonneg least number (bound.trans tracks.bound) started
    within computed
  constructor
  · rw [← tracks.bound]
    exact Settlement.apply_maxAttempts (.finish _ _) stored
  · rw [attempt]
    exact bounded_append tracks.bounded (Nat.le_refl _)
  · intro other
    have old := tracks.recorded other
    simp only [running, ne_eq, not_true_eq_false, and_false, or_false] at old
    simp only [List.mem_append, List.mem_singleton, Note.recorded.injEq, old, attempt, left,
      ne_eq, not_false_eq_true, and_true]
    omega
  · intro other noted
    cases List.mem_append.mp noted with
    | inl old => exact tracks.delivered other old
    | inr new =>
      obtain rfl := Note.recorded.inj (List.mem_singleton.mp new)
      exact begun
  · intro pending
    rw [attempt]
    rcases verdicts with ⟨time, rfl, _⟩ | ⟨_, more⟩ | ⟨time, rfl, _⟩
    · cases pending
    · exact more
    · cases pending
  · exact fun stuck => absurd stuck left
  · intro success
    rw [attempt]
    rcases verdicts with ⟨time, _, result⟩ | ⟨rfl, _⟩ | ⟨time, rfl, _⟩
    · exact result
    · cases success
    · cases success
  · intro failed
    rw [attempt]
    rcases verdicts with ⟨time, rfl, _⟩ | ⟨rfl, _⟩ | ⟨time, _, result⟩
    · cases failed
    · cases failed
    · exact result
  · cases settled <;> simp [finished, ReplayDoc.Finished, open']
  · intro pending _
    rw [attempt]
    refine ⟨now, read.append (by simp), ?_⟩
    rcases verdicts with ⟨time, rfl, _⟩ | ⟨rfl, _⟩ | ⟨time, rfl, _⟩
    · cases pending
    · rfl
    · cases pending

/-- The write of `finish` is noted. -/
theorem Course.recorded {before : State} {past : List Note} {worker : Nat} {replay : ReplayDoc}
    {settlement : Settlement} (numbered : Numbered before)
    (course : Course config outcomes id last before past)
    (executed : ∀ number, Executed (outcomes number)) (nonneg : 0 ≤ config.maxRetries)
    (least : IsLeast (endings config outcomes) last)
    (standing : before.workers worker = .settling replay settlement) (job : replay.id = id) :
    Course config outcomes id last { before.move worker .idle with
        replays := settle before.replays replay.id settlement }
      (past ++ observe id before (.write worker)) := by
  have held : (before.workers worker).held = some replay := by rw [standing]; rfl
  obtain ⟨stored, found, _⟩ := numbered.latest held
  rw [job] at found
  have fits := course.fits stored worker found
  rw [standing] at fits
  obtain ⟨running, latest, bound⟩ := fits.latest replay rfl job
  obtain ⟨now, settled, rfl, computed, read⟩ := fits.settling replay settlement rfl job
  have noted : observe id before (.write worker) = [.recorded stored.attempt] := by
    simp only [observe, standing, if_pos job, latest]
  have written : (settle before.replays replay.id (.finish (outcomes stored.attempt) settled)).find
      id = some (finished (outcomes stored.attempt) settled stored) := by
    rw [find_settle, if_pos job.symm, found]
    rfl
  have tracks := (course.tracks stored found).recordedNext executed nonneg least running
    (fits.sent replay rfl job rfl) latest bound computed read
  rw [noted]
  constructor
  · intro missing
    exact absurd (written.symm.trans missing) (Option.some_ne_none _)
  · intro document present
    obtain rfl := Option.some.inj (written.symm.trans present)
    exact tracks
  · intro document other present
    exact course.fits_holder numbered found held job (Fits.free rfl) other
  · intro number clock positive next
    obtain ⟨finished, noted, time⟩ := course.spaced number clock positive (by simpa using next)
    exact ⟨finished, noted.append (by simp), time⟩

/-- Leases that stand are not reclaimed. -/
theorem Course.reclaimed {before : State} {past : List Note} {worker : Nat} {now : Instant}
    {cutoff : Millis} (timely : Timely config before)
    (course : Course config outcomes id last before past)
    (prompt : Prompt config id before (.reclaim worker))
    (place : before.workers worker = .claiming now cutoff) :
    Course config outcomes id last { before.move worker (.reclaimed now) with
      replays := reclaim before.replays cutoff } past := by
  obtain ⟨earlier, computed⟩ := timely worker now cutoff place
  refine course.kept ?_ rfl (fun stored other present =>
    course.fits_move present (Fits.free rfl) other)
  change (reclaim before.replays cutoff).find id = before.replays.find id
  rw [find_reclaim]
  cases found : before.replays.find id with
  | none => rfl
  | some stored =>
    have standing : expired cutoff stored = false := by
      cases leased : stored.leasedAt with
      | none => simp [expired, leased]
      | some since =>
        by_cases running : stored.state = .running
        · have within := prompt stored found running since leased
          have current : ¬ since < cutoff := fun older =>
            absurd ((expired_lease computed older).trans_le (earlier.trans within)) (lt_irrefl _)
          simp [expired, leased, current]
        · simp [expired, running]
    simp [standing]

/-- Another job that is claimed does not matter. -/
theorem Course.claimedOther {before : State} {past : List Note} {worker : Nat} {now : Instant}
    {replays : Replays} {target : ObjectId} {job : ReplayDoc}
    (course : Course config outcomes id last before past)
    (claimed : take before.replays now target = some (replays, job)) (other : target ≠ id) :
    Course config outcomes id last { before.move worker (.claimed job) with replays := replays }
      past := by
  obtain ⟨replay, located, _, _, marked, changed⟩ := take_cases claimed
  have elsewhere : job.id ≠ id := by
    rw [marked, leased_id, (Collection.find_some located).2]
    exact other
  refine course.kept ?_ rfl (fun stored holder present => course.fits_move present
    (Fits.other (by rintro _ ⟨⟩; exact elsewhere)) holder)
  change replays.find id = before.replays.find id
  rw [changed, if_neg (Ne.symm other)]

/-- The event of a claimed job is found. -/
theorem Course.lookedUp {before : State} {past : List Note} {worker : Nat} {present : Bool}
    {replay : ReplayDoc} (course : Course config outcomes id last before past)
    (answered : Answered outcomes id before (.lookup worker present))
    (place : before.workers worker = .claimed replay) :
    Course config outcomes id last
      (before.move worker (if present then .found replay else .orphaned replay)) past := by
  refine course.moved ?_
  intro stored found
  have fits := course.fits stored worker found
  rw [place] at fits
  by_cases job : replay.id = id
  · rw [answered replay (by rw [place]; rfl) job]
    constructor
    · exact fits.latest
    · exact fun held holding sameJob _ => fits.unread held holding sameJob rfl
    · intro held holding _ under
      cases under
    · intro held standing
      cases standing
    · intro held attempt standing
      cases standing
    · intro held settlement standing
      cases standing
  · cases present with
    | true => exact Fits.other (by rintro _ ⟨⟩; exact job)
    | false => exact Fits.other (by rintro _ ⟨⟩; exact job)

/-- The answer to a delivery is the outcome of the attempt. -/
theorem Course.replied {before : State} {past : List Note} {worker : Nat} {attempt : Attempt}
    {replay : ReplayDoc} (course : Course config outcomes id last before past)
    (answered : Answered outcomes id before (.reply worker attempt))
    (place : before.workers worker = .delivering replay) :
    Course config outcomes id last (before.move worker (.delivered replay attempt)) past := by
  refine course.moved ?_
  intro stored found
  have fits := course.fits stored worker found
  rw [place] at fits
  constructor
  · exact fits.latest
  · exact fun held holding sameJob _ => fits.unread held holding sameJob rfl
  · exact fun held holding sameJob _ => fits.sent held holding sameJob rfl
  · intro held standing
    cases standing
  · intro held other standing job
    obtain ⟨rfl, rfl⟩ := Worker.delivered.inj standing
    rw [answered replay (by rw [place]; rfl) job, (fits.latest replay rfl job).2.1]
  · intro held settlement standing
    cases standing

/-- Reading the clock for a settlement. -/
theorem Course.stamped {before after : State} {past : List Note} {worker : Nat}
    (numbered : Numbered before) (course : Course config outcomes id last before past)
    (taken : step config before (.stamp worker) = some after) :
    Course config outcomes id last after (past ++ observe id before (.stamp worker)) := by
  cases step_stamp taken with
  | inl finishing =>
    obtain ⟨replay, attempt, place, outcome⟩ := finishing
    by_cases job : replay.id = id
    · have noted : observe id before (.stamp worker) = [.read replay.attempt before.clock] := by
        simp [observe, place, job]
      rw [noted]
      cases outcome with
      | inl overflow =>
        rw [overflow.2]
        exact course.read numbered place job (.inl rfl)
      | inr settled =>
        obtain ⟨branch, computed, rfl⟩ := settled
        exact course.read numbered place job (.inr ⟨branch, computed, rfl⟩)
    · have noted : observe id before (.stamp worker) = [] := by simp [observe, place, job]
      rw [noted, List.append_nil]
      cases outcome with
      | inl overflow =>
        rw [overflow.2]
        exact course.moved (fun _ _ => Fits.free rfl)
      | inr settled =>
        obtain ⟨branch, _, rfl⟩ := settled
        exact course.moved (fun _ _ => Fits.other (by rintro _ ⟨⟩; exact job))
  | inr abandoning =>
    obtain ⟨replay, settlement, place, rfl⟩ := abandoning
    have noted : observe id before (.stamp worker) = [] := by simp [observe, place]
    rw [noted, List.append_nil]
    refine course.moved ?_
    intro stored found
    have fits := course.fits stored worker found
    exact Fits.other (by rintro _ ⟨⟩; exact fits.present replay place)

/-- Another job that is settled does not matter. -/
theorem Course.settledOther {before : State} {past : List Note} {worker : Nat}
    {replay : ReplayDoc} {settlement : Settlement}
    (course : Course config outcomes id last before past) (other : replay.id ≠ id) :
    Course config outcomes id last { before.move worker .idle with
      replays := settle before.replays replay.id settlement } past := by
  refine course.kept ?_ rfl (fun stored holder present =>
    course.fits_move present (Fits.free rfl) holder)
  change (settle before.replays replay.id settlement).find id = before.replays.find id
  rw [find_settle, if_neg (Ne.symm other)]

/-- A finished job is at the last attempt, with the result of it. -/
theorem Tracks.finished_last {stored : ReplayDoc} {sent : List (ObjectId × Nat)}
    {past : List Note} (tracks : Tracks config outcomes id last stored sent past)
    (done : stored.Finished) :
    stored.attempt = last ∧ (stored.state = .success ↔ (outcomes last).succeeded = true) := by
  cases done with
  | inl success =>
    obtain ⟨ended, succeeded⟩ := tracks.success success
    exact ⟨ended, iff_of_true success succeeded⟩
  | inr failed =>
    obtain ⟨ended, unsuccessful⟩ := tracks.failed failed
    exact ⟨ended, iff_of_false (by simp [failed]) (by simp [unsuccessful])⟩

/-- No job goes beyond the last attempt. -/
theorem Tracks.attempt_le {stored : ReplayDoc} {sent : List (ObjectId × Nat)} {past : List Note}
    (tracks : Tracks config outcomes id last stored sent past) : stored.attempt ≤ last := by
  cases standing : stored.state with
  | pending => exact Nat.le_of_lt (tracks.pending standing)
  | running => exact (tracks.running standing).2
  | success => exact Nat.le_of_eq (tracks.success standing).1
  | failed => exact Nat.le_of_eq (tracks.failed standing).1

/-- A job is finished exactly if its last attempt is recorded. -/
theorem Tracks.finished_iff {stored : ReplayDoc} {sent : List (ObjectId × Nat)}
    {past : List Note} (tracks : Tracks config outcomes id last stored sent past)
    (positive : 1 ≤ last) : stored.Finished ↔ .recorded last ∈ past := by
  rw [tracks.recorded last]
  constructor
  · intro done
    have running : stored.state ≠ .running := by
      intro running
      simp [ReplayDoc.Finished, running] at done
    exact ⟨positive, .inr ⟨(tracks.finished_last done).1.symm, running⟩⟩
  · rintro ⟨_, noted⟩
    cases standing : stored.state with
    | pending =>
      have more := tracks.pending standing
      omega
    | running =>
      have within := (tracks.running standing).2
      simp only [standing, ne_eq, not_true_eq_false, and_false, or_false] at noted
      omega
    | success => exact .inl standing
    | failed => exact .inr standing

/-- Once the last attempt is recorded, every attempt was delivered. -/
theorem Tracks.delivered_each {stored : ReplayDoc} {sent : List (ObjectId × Nat)}
    {past : List Note} (tracks : Tracks config outcomes id last stored sent past)
    (noted : .recorded last ∈ past) {number : Nat} (positive : 1 ≤ number)
    (within : number ≤ last) : (id, number) ∈ sent := by
  refine tracks.delivered number ((tracks.recorded number).mpr ⟨positive, ?_⟩)
  have latest := ((tracks.recorded last).mp noted).2
  cases Nat.lt_or_eq_of_le within with
  | inl less =>
    left
    omega
  | inr same =>
    rw [same]
    exact latest

/-- Every step of such a run keeps the course of the job. -/
theorem step_course {before after : State} {past : List Note} {label : Label}
    (executed : ∀ number, Executed (outcomes number)) (nonneg : 0 ≤ config.maxRetries)
    (least : IsLeast (endings config outcomes) last) (numbered : Numbered before)
    (timely : Timely config before) (course : Course config outcomes id last before past)
    (prompt : Prompt config id before label) (answered : Answered outcomes id before label)
    (taken : step config before label = some after) :
    Course config outcomes id last after (past ++ observe id before label) := by
  cases label with
  | tick now =>
    obtain ⟨_, rfl⟩ := step_tick taken
    simp only [observe, List.append_nil]
    exact course.kept rfl rfl (fun stored worker present => course.fits stored worker present)
  | enqueue fresh eventId payload now =>
    obtain ⟨grown, inserted, rfl⟩ := step_enqueue taken
    simp only [observe, List.append_nil]
    exact course.inserted numbered least inserted
  | begin worker =>
    simp only [observe, List.append_nil]
    cases step_begin taken with
    | inl unchanged =>
      rw [unchanged]
      exact course
    | inr started =>
      obtain ⟨_, _, rfl⟩ := started
      exact course.moved (fun _ _ => Fits.free rfl)
  | reclaim worker =>
    obtain ⟨now, cutoff, place, rfl⟩ := step_reclaim taken
    simp only [observe, List.append_nil]
    exact course.reclaimed timely prompt place
  | take worker target =>
    obtain ⟨now, replays, job, place, claimed, rfl⟩ := step_take taken
    obtain ⟨replay, located, _⟩ := take_cases claimed
    by_cases same : target = id
    · subst same
      have noted : observe target before (.take worker target) =
          [.claimed (replay.attempt + 1) now] := by simp [observe, place, located]
      rw [noted]
      exact course.claimed located claimed
    · have noted : observe id before (.take worker target) = [] := by
        simp [observe, place, located, same]
      rw [noted, List.append_nil]
      exact course.claimedOther claimed same
  | miss worker =>
    rw [step_miss taken]
    simp only [observe, List.append_nil]
    exact course.moved (fun _ _ => Fits.free rfl)
  | lookup worker present =>
    obtain ⟨replay, place, rfl⟩ := step_lookup taken
    simp only [observe, List.append_nil]
    exact course.lookedUp answered place
  | deliver worker =>
    obtain ⟨replay, place, rfl⟩ := step_deliver taken
    simp only [observe, List.append_nil]
    exact course.delivering place
  | reply worker attempt =>
    obtain ⟨replay, place, rfl⟩ := step_reply taken
    simp only [observe, List.append_nil]
    exact course.replied answered place
  | stamp worker => exact course.stamped numbered taken
  | write worker =>
    obtain ⟨replay, settlement, place, rfl⟩ := step_write taken
    by_cases job : replay.id = id
    · exact course.recorded numbered executed nonneg least place job
    · have noted : observe id before (.write worker) = [] := by
        cases settlement <;> simp [observe, place, job]
      rw [noted, List.append_nil]
      exact course.settledOther job
  | stop worker =>
    obtain rfl := Option.some.inj taken
    simp only [observe, List.append_nil]
    exact course.moved (fun _ _ => Fits.free rfl)

end

/-- Before it starts there is neither a job nor a note. -/
theorem initial_course (config : ReplayConfig) (outcomes : Nat → Attempt) (id : ObjectId)
    (last : Nat) (clock : Instant) : Course config outcomes id last (initial clock) [] where
  absent _ := rfl
  tracks stored found := by cases found
  fits stored worker found := by cases found
  spaced number claimed _ noted := by cases noted

/-- A job whose attempts up to this number are on record was delivered as often. -/
theorem le_deliveries {queue : State} {id : ObjectId} {bound : Nat}
    (each : ∀ number, 1 ≤ number → number ≤ bound → (id, number) ∈ queue.sent) :
    bound ≤ deliveries queue id := by
  have inside : (List.range' 1 bound).map (fun number => (id, number)) ⊆
      queue.sent.filter (fun entry => decide (entry.1 = id)) := by
    intro entry member
    obtain ⟨number, within, rfl⟩ := List.mem_map.mp member
    rw [List.mem_range'_1] at within
    exact List.mem_filter.mpr ⟨each number within.1 (by omega), decide_eq_true rfl⟩
  have distinct : ((List.range' 1 bound).map (fun number => (id, number))).Nodup :=
    List.Nodup.map (fun first second same => (Prod.mk.inj same).2) List.nodup_range'
  have counts := (distinct.subperm inside).length_le
  rwa [List.length_map, List.length_range'] at counts

/-- In a run in which no lease of a job runs out, its event is there and its deliveries
have given outcomes, retries follow these: the job is delivered until the last attempt
and no further, it is finished once that attempt is recorded, with its result, and every
attempt is claimed when the time to wait since `finish` is over. Times are compared as
they are stored, in whole milliseconds.

Proof: every step keeps the course of the job. At its end the notes, the document and
the record of deliveries are read off. -/
theorem outcomes_followed (config : ReplayConfig) (start : Instant) (id : ObjectId)
    (outcomes : Nat → Attempt) {last : Nat} (nonneg : 0 ≤ config.maxRetries)
    (executed : ∀ number, Executed (outcomes number))
    (least : IsLeast (endings config outcomes) last) {labels : List Label} {reached : State}
    {doc : ReplayDoc} (ran : run (step config) (initial start) labels = some reached)
    (prompt : Along (step config) (Prompt config id) (initial start) labels)
    (answered : Along (step config) (Answered outcomes id) (initial start) labels)
    (found : reached.replays.find id = some doc) :
    deliveries reached id ≤ last ∧
      (doc.Finished ↔ .recorded last ∈ notes config id start labels) ∧
      (doc.Finished → doc.attempt = last ∧ deliveries reached id = last ∧
        (doc.state = .success ↔ (outcomes last).succeeded = true)) ∧
      (doc.completedAt.isSome = true ↔ doc.Finished) ∧
      ∀ number claimed, 1 ≤ number →
        .claimed (number + 1) claimed ∈ notes config id start labels →
        ∃ finished, ReadAt (notes config id start labels) number finished ∧
          toMillis (finished + backoff config number * 1000000) ≤ toMillis claimed := by
  have preserved : ∀ state past label next,
      ((Numbered state ∧ Counted state) ∧ Timely config state) ∧
        Course config outcomes id last state past →
      Prompt config id state label ∧ Answered outcomes id state label →
      step config state label = some next →
      ((Numbered next ∧ Counted next) ∧ Timely config next) ∧
        Course config outcomes id last next (past ++ observe id state label) := by
    rintro state past label next ⟨⟨⟨numbered, counted⟩, timely⟩, course⟩ condition taken
    exact ⟨⟨⟨step_numbered numbered taken, step_counted numbered counted taken⟩,
      step_timely timely taken⟩, step_course executed nonneg least numbered timely course
        condition.1 condition.2 taken⟩
  have carried := run_history (step config) (observe id) preserved
    (along_and (step config) prompt answered) ran ⟨⟨⟨initial_numbered start,
      initial_counted start⟩, initial_timely config start⟩,
      initial_course config outcomes id last start⟩
  obtain ⟨⟨⟨_, counted⟩, _⟩, course⟩ := carried
  rw [List.nil_append] at course
  change Course config outcomes id last reached (notes config id start labels) at course
  have tracks := course.tracks doc found
  have recorded := tracks.finished_iff least.1.1
  have within : deliveries reached id ≤ last :=
    (counted.deliveries_le found).trans tracks.attempt_le
  refine ⟨within, recorded, ?_, tracks.completed, course.spaced⟩
  intro done
  obtain ⟨ended, result⟩ := tracks.finished_last done
  have each : last ≤ deliveries reached id :=
    le_deliveries (fun number => tracks.delivered_each (recorded.mp done))
  exact ⟨ended, Nat.le_antisymm within each, result⟩

/-- A failed connection is what an execution can come to. -/
theorem failedAttempt_executed : Executed failedAttempt :=
  ⟨publicWorld (.error (.transportError (lit "reset"))), lit "POST", [], [], {}, 0,
    lit "https://example.com/", by decide +kernel⟩

/-- If all attempts fail, the one that uses up the budget is the last one. -/
theorem endings_failed (config : ReplayConfig) (nonneg : 0 ≤ config.maxRetries) :
    IsLeast (endings config fun _ => failedAttempt) (config.maxRetries + 1).toNat := by
  constructor
  · exact ⟨by omega, .inr (by omega)⟩
  · rintro number ⟨_, ended⟩
    have retryable : failedAttempt.retryable = true := rfl
    simp only [retryable, Bool.true_eq_false, false_or] at ended
    omega

/-- With one retry the job is delivered twice if both deliveries fail, and then it is
failed. -/
theorem outcomes_followed_retried :
    deliveries retried exampleId = 2 ∧
      ((retried.replays.find exampleId).get (by decide)).state = .failed := by
  have followed := outcomes_followed { maxRetries := 1 } 0 exampleId (fun _ => failedAttempt)
    (by decide) (fun _ => failedAttempt_executed) (endings_failed { maxRetries := 1 } (by decide))
    (Option.some_get _).symm (by decide) (by decide)
    (Option.some_get (by decide : (retried.replays.find exampleId).isSome)).symm
  exact ⟨(followed.2.2.1 (by decide)).2.1, by decide⟩

/-- The first attempt fails 900 microseconds after a whole millisecond, and the second one
is claimed at a whole millisecond. -/
def hurriedLabels : List Label :=
  enqueueLabels ++ startLabels 0 exampleId ++
    [.reply 0 failedAttempt, .tick 900, .stamp 0, .write 0, .tick 2000000] ++
    claimLabels 1 exampleId

def hurried : State := (run (step {}) (initial 0) hurriedLabels).get (by decide)

/-- It is claimed when the two seconds to wait are not over. -/
theorem claimed_early :
    ¬ ∀ (config : ReplayConfig) (start : Instant) (id : ObjectId) (outcomes : Nat → Attempt)
      (last : Nat) (labels : List Label) (reached : State) (doc : ReplayDoc),
      0 ≤ config.maxRetries → (∀ number, Executed (outcomes number)) →
      IsLeast (endings config outcomes) last →
      run (step config) (initial start) labels = some reached →
      Along (step config) (Prompt config id) (initial start) labels →
      Along (step config) (Answered outcomes id) (initial start) labels →
      reached.replays.find id = some doc →
      ∀ number finished claimed, .read number finished ∈ notes config id start labels →
        .claimed (number + 1) claimed ∈ notes config id start labels →
        finished + backoff config number * 1000000 ≤ claimed := by
  intro promised
  have late := promised {} 0 exampleId (fun _ => failedAttempt) _ hurriedLabels hurried
    ((hurried.replays.find exampleId).get (by decide)) (by decide)
    (fun _ => failedAttempt_executed) (endings_failed {} (by decide)) (Option.some_get _).symm
    (by decide) (by decide) (Option.some_get _).symm 1 900 2000000 (by decide) (by decide)
  revert late
  decide

end WebhookInbox.Queue
