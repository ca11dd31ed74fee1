import WebhookInbox.Library.Run
import WebhookInbox.Replay.Store
import Mathlib.Logic.Function.Basic

/-!
# The replay queue under any schedule

Any number of workers and any number of requests share one collection and one
clock. Every database call and every reading of the clock is a step of its own,
so a worker can be overtaken between any two of them and can stop anywhere. An
exception that leaves `run_once` is one more way to stop. What a delivery comes
to is left open: every attempt may be the answer, after any time.

`step_effect` says once what a step can do. The invariants below are derived from
it: a claim of a job carries a number that no other claim of that job has, and
the stored number never falls behind it.
-/

namespace WebhookInbox.Queue

open Library Library.Run Calendar Runner Store

/-- Where a worker stands in `run_once`. -/
inductive Worker where
  | idle
  | claiming (now : Instant) (cutoff : Millis)
  | reclaimed (now : Instant)
  | claimed (replay : ReplayDoc)
  | found (replay : ReplayDoc)
  | orphaned (replay : ReplayDoc)
  | delivering (replay : ReplayDoc)
  | delivered (replay : ReplayDoc) (attempt : Attempt)
  | settling (replay : ReplayDoc) (settlement : Settlement)

/-- The document that a worker's claim returned and that it has not settled. -/
def Worker.held : Worker → Option ReplayDoc
  | .idle | .claiming _ _ | .reclaimed _ => none
  | .claimed replay | .found replay | .orphaned replay | .delivering replay => some replay
  | .delivered replay _ | .settling replay _ => some replay

/-- The job is claimed and its delivery has not begun. -/
def Worker.undelivered : Worker → Option ReplayDoc
  | .claimed replay | .found replay => some replay
  | _ => none

/-- The cutoff with which a worker is about to reclaim. -/
def Worker.cutoff : Worker → Option Millis
  | .claiming _ cutoff => some cutoff
  | _ => none

/-- The job and the settlement that a worker is about to write. -/
def Worker.settlement : Worker → Option (ReplayDoc × Settlement)
  | .settling replay settlement => some (replay, settlement)
  | _ => none

/-- The whole system. `sent` records each delivery that began, by its job and the
number of its attempt; no step reads it. -/
structure State where
  clock : Instant
  replays : Replays
  workers : Nat → Worker
  sent : List (ObjectId × Nat)

/-- No jobs and idle workers. -/
def initial (clock : Instant) : State := ⟨clock, .empty, fun _ => .idle, []⟩

/-- The steps of the clock, of the request that enqueues, and of each worker. -/
inductive Label where
  | tick (now : Instant)
  | enqueue (id eventId : ObjectId) (payload : ReplayCreate) (now : Instant)
  | begin (worker : Nat)
  | reclaim (worker : Nat)
  | take (worker : Nat) (id : ObjectId)
  | miss (worker : Nat)
  | lookup (worker : Nat) (present : Bool)
  | deliver (worker : Nat)
  | reply (worker : Nat) (attempt : Attempt)
  | stamp (worker : Nat)
  | write (worker : Nat)
  | stop (worker : Nat)

/-- Move one worker. -/
def State.move (queue : State) (worker : Nat) (place : Worker) : State :=
  { queue with workers := Function.update queue.workers worker place }

/-- What the worker writes after reading the clock. A retry time out of range
raises before the write. -/
def stamped (now : Instant) (config : ReplayConfig) : Worker → Option (Option Worker)
  | .delivered replay attempt =>
      some ((verdict now replay attempt config).map
        (fun settled => .settling replay (.finish attempt settled)))
  | .orphaned replay =>
      some (some (.settling replay (.abandon (lit "The event no longer exists") (toMillis now))))
  | _ => none

/-- One step. The clock never runs back, and a request may have read it earlier
than it inserts. -/
def step (config : ReplayConfig) (queue : State) : Label → Option State
  | .tick now => if queue.clock ≤ now then some { queue with clock := now } else none
  | .enqueue id eventId payload now =>
      if now ≤ queue.clock then
        (enqueue queue.replays id eventId payload now config).map
          (fun grown => { queue with replays := grown })
      else none
  | .begin worker =>
      match queue.workers worker with
      | .idle =>
          -- The cutoff is computed before any call, so its overflow leaves no trace.
          match leaseCutoff queue.clock config with
          | none => some queue
          | some cutoff => some (queue.move worker (.claiming queue.clock cutoff))
      | _ => none
  | .reclaim worker =>
      match queue.workers worker with
      | .claiming now cutoff =>
          some { queue.move worker (.reclaimed now) with replays := reclaim queue.replays cutoff }
      | _ => none
  | .take worker id =>
      match queue.workers worker with
      | .reclaimed now =>
          (take queue.replays now id).map
            (fun taken => { queue.move worker (.claimed taken.2) with replays := taken.1 })
      | _ => none
  | .miss worker =>
      match queue.workers worker with
      | .reclaimed now =>
          if nothingDue queue.replays now then some (queue.move worker .idle) else none
      | _ => none
  | .lookup worker present =>
      match queue.workers worker with
      | .claimed replay =>
          some (queue.move worker (if present then .found replay else .orphaned replay))
      | _ => none
  | .deliver worker =>
      match queue.workers worker with
      | .found replay =>
          some { queue.move worker (.delivering replay) with
            sent := queue.sent ++ [(replay.id, replay.attempt)] }
      | _ => none
  | .reply worker attempt =>
      match queue.workers worker with
      | .delivering replay => some (queue.move worker (.delivered replay attempt))
      | _ => none
  | .stamp worker =>
      (stamped queue.clock config (queue.workers worker)).map
        (fun place => queue.move worker (place.getD .idle))
  | .write worker =>
      match queue.workers worker with
      | .settling replay settlement =>
          some { queue.move worker .idle with
            replays := settle queue.replays replay.id settlement }
      | _ => none
  | .stop worker => some (queue.move worker .idle)

/-- What a step can do to the parts that the invariants speak of. -/
inductive Effect (config : ReplayConfig) (before after : State) : Label → Prop where
  | quiet (label : Label) (later : before.clock ≤ after.clock)
      (replays : after.replays = before.replays) (sent : after.sent = before.sent)
      (held : ∀ worker, (after.workers worker).held = none ∨
        (after.workers worker).held = (before.workers worker).held)
      (undelivered : ∀ worker, (after.workers worker).undelivered = none ∨
        (after.workers worker).undelivered = (before.workers worker).undelivered)
      (claiming : ∀ worker now cutoff, after.workers worker = .claiming now cutoff →
        before.workers worker = .claiming now cutoff ∨
          now = before.clock ∧ leaseCutoff now config = some cutoff) :
      Effect config before after label
  | enqueued (id eventId : ObjectId) (payload : ReplayCreate) (now : Instant) (grown : Replays)
      (inserted : enqueue before.replays id eventId payload now config = some grown)
      (result : after = { before with replays := grown }) :
      Effect config before after (.enqueue id eventId payload now)
  | reclaimed (worker : Nat) (now : Instant) (cutoff : Millis)
      (place : before.workers worker = .claiming now cutoff)
      (result : after = { before.move worker (.reclaimed now) with
        replays := reclaim before.replays cutoff }) :
      Effect config before after (.reclaim worker)
  | taken (worker : Nat) (id : ObjectId) (now : Instant) (replays : Replays) (job : ReplayDoc)
      (place : before.workers worker = .reclaimed now)
      (claimed : take before.replays now id = some (replays, job))
      (result : after = { before.move worker (.claimed job) with replays := replays }) :
      Effect config before after (.take worker id)
  | delivering (worker : Nat) (replay : ReplayDoc) (place : before.workers worker = .found replay)
      (result : after = { before.move worker (.delivering replay) with
        sent := before.sent ++ [(replay.id, replay.attempt)] }) :
      Effect config before after (.deliver worker)
  | settled (worker : Nat) (replay : ReplayDoc) (settlement : Settlement)
      (place : before.workers worker = .settling replay settlement)
      (result : after = { before.move worker .idle with
        replays := settle before.replays replay.id settlement }) :
      Effect config before after (.write worker)

/-- The moved worker stands in its new place. -/
@[simp] theorem move_same (queue : State) (worker : Nat) (place : Worker) :
    (queue.move worker place).workers worker = place := by
  simp [State.move]

/-- The others stay where they are. -/
theorem move_other (queue : State) {worker other : Nat} (place : Worker)
    (different : other ≠ worker) : (queue.move worker place).workers other = queue.workers other := by
  simp [State.move, different]

/-- The held claim of a moved worker is the one of its new place. -/
theorem held_move (queue : State) (moved worker : Nat) (place : Worker) :
    ((queue.move moved place).workers worker).held =
      if worker = moved then place.held else (queue.workers worker).held := by
  by_cases same : worker = moved
  · simp [same]
  · rw [move_other queue place same, if_neg same]

/-- Nobody gains a claim if the moved worker does not. -/
theorem held_move_kept (queue : State) (moved : Nat) (place : Worker)
    (kept : place.held = none ∨ place.held = (queue.workers moved).held) (worker : Nat) :
    ((queue.move moved place).workers worker).held = none ∨
      ((queue.move moved place).workers worker).held = (queue.workers worker).held := by
  rw [held_move]
  by_cases same : worker = moved
  · rw [if_pos same, same]
    exact kept
  · rw [if_neg same]
    exact .inr rfl

/-- Nobody gains an undelivered claim if the moved worker does not. -/
theorem undelivered_move_kept (queue : State) (moved : Nat) (place : Worker)
    (kept : place.undelivered = none ∨ place.undelivered = (queue.workers moved).undelivered)
    (worker : Nat) :
    ((queue.move moved place).workers worker).undelivered = none ∨
      ((queue.move moved place).workers worker).undelivered =
        (queue.workers worker).undelivered := by
  by_cases same : worker = moved
  · subst same
    simpa using kept
  · rw [move_other queue place same]
    exact .inr rfl

/-- Moving one worker is quiet if that worker claims nothing by it. -/
theorem quiet_move (config : ReplayConfig) (queue : State) (worker : Nat) (place : Worker)
    (label : Label)
    (held : place.held = none ∨ place.held = (queue.workers worker).held)
    (undelivered : place.undelivered = none ∨
      place.undelivered = (queue.workers worker).undelivered)
    (claiming : ∀ now cutoff, place = .claiming now cutoff →
      now = queue.clock ∧ leaseCutoff now config = some cutoff) :
    Effect config queue (queue.move worker place) label := by
  refine .quiet label (Int.le_refl _) rfl rfl (held_move_kept queue worker place held)
    (undelivered_move_kept queue worker place undelivered) ?_
  intro other now cutoff standing
  by_cases same : other = worker
  · subst same
    rw [move_same] at standing
    exact .inr (claiming now cutoff standing)
  · rw [move_other queue place same] at standing
    exact .inl standing

/-- The clock moves on. -/
theorem step_tick {config : ReplayConfig} {before after : State} {now : Instant}
    (taken : step config before (.tick now) = some after) :
    before.clock ≤ now ∧ after = { before with clock := now } := by
  obtain ⟨later, result⟩ := Option.ite_none_right_eq_some.mp taken
  exact ⟨later, (Option.some.inj result).symm⟩

/-- A job is inserted. -/
theorem step_enqueue {config : ReplayConfig} {before after : State} {id eventId : ObjectId}
    {payload : ReplayCreate} {now : Instant}
    (taken : step config before (.enqueue id eventId payload now) = some after) :
    ∃ grown, enqueue before.replays id eventId payload now config = some grown ∧
      after = { before with replays := grown } := by
  obtain ⟨_, result⟩ := Option.ite_none_right_eq_some.mp taken
  obtain ⟨grown, inserted, same⟩ := Option.map_eq_some_iff.mp result
  exact ⟨grown, inserted, same.symm⟩

/-- A poll that begins computes the cutoff first. If that overflows nothing happens. -/
theorem step_begin {config : ReplayConfig} {before after : State} {worker : Nat}
    (taken : step config before (.begin worker) = some after) :
    after = before ∨ ∃ cutoff, leaseCutoff before.clock config = some cutoff ∧
      after = before.move worker (.claiming before.clock cutoff) := by
  simp only [step] at taken
  split at taken
  · split at taken
    · exact .inl (Option.some.inj taken).symm
    · rename_i cutoff computed
      exact .inr ⟨cutoff, computed, (Option.some.inj taken).symm⟩
  · cases taken

/-- A poll that finds no job due frees the worker. -/
theorem step_miss {config : ReplayConfig} {before after : State} {worker : Nat}
    (taken : step config before (.miss worker) = some after) :
    after = before.move worker .idle := by
  simp only [step] at taken
  split at taken
  · obtain ⟨_, result⟩ := Option.ite_none_right_eq_some.mp taken
    exact (Option.some.inj result).symm
  · cases taken

/-- A claim is the second call of a worker that has made the first one. -/
theorem step_take {config : ReplayConfig} {before after : State} {worker : Nat} {id : ObjectId}
    (taken : step config before (.take worker id) = some after) :
    ∃ now replays job, before.workers worker = .reclaimed now ∧
      take before.replays now id = some (replays, job) ∧
      after = { before.move worker (.claimed job) with replays := replays } := by
  simp only [step] at taken
  split at taken
  · rename_i now place
    obtain ⟨⟨replays, job⟩, claimed, result⟩ := Option.map_eq_some_iff.mp taken
    exact ⟨now, replays, job, place, claimed, result.symm⟩
  · cases taken

/-- The first call of a claim goes by the cutoff that the worker computed. -/
theorem step_reclaim {config : ReplayConfig} {before after : State} {worker : Nat}
    (taken : step config before (.reclaim worker) = some after) :
    ∃ now cutoff, before.workers worker = .claiming now cutoff ∧
      after = { before.move worker (.reclaimed now) with
        replays := reclaim before.replays cutoff } := by
  simp only [step] at taken
  split at taken
  · rename_i now cutoff place
    exact ⟨now, cutoff, place, (Option.some.inj taken).symm⟩
  · cases taken

/-- The event is looked up for a claimed job. -/
theorem step_lookup {config : ReplayConfig} {before after : State} {worker : Nat} {present : Bool}
    (taken : step config before (.lookup worker present) = some after) :
    ∃ replay, before.workers worker = .claimed replay ∧
      after = before.move worker (if present then .found replay else .orphaned replay) := by
  simp only [step] at taken
  split at taken
  · rename_i replay place
    exact ⟨replay, place, (Option.some.inj taken).symm⟩
  · cases taken

/-- A delivery begins with the event found, and is put on record. -/
theorem step_deliver {config : ReplayConfig} {before after : State} {worker : Nat}
    (taken : step config before (.deliver worker) = some after) :
    ∃ replay, before.workers worker = .found replay ∧
      after = { before.move worker (.delivering replay) with
        sent := before.sent ++ [(replay.id, replay.attempt)] } := by
  simp only [step] at taken
  split at taken
  · rename_i replay place
    exact ⟨replay, place, (Option.some.inj taken).symm⟩
  · cases taken

/-- A delivery that has begun is answered. -/
theorem step_reply {config : ReplayConfig} {before after : State} {worker : Nat}
    {attempt : Attempt} (taken : step config before (.reply worker attempt) = some after) :
    ∃ replay, before.workers worker = .delivering replay ∧
      after = before.move worker (.delivered replay attempt) := by
  simp only [step] at taken
  split at taken
  · rename_i replay place
    exact ⟨replay, place, (Option.some.inj taken).symm⟩
  · cases taken

/-- A settlement is written as it was computed, and the worker is free. -/
theorem step_write {config : ReplayConfig} {before after : State} {worker : Nat}
    (taken : step config before (.write worker) = some after) :
    ∃ replay settlement, before.workers worker = .settling replay settlement ∧
      after = { before.move worker .idle with
        replays := settle before.replays replay.id settlement } := by
  simp only [step] at taken
  split at taken
  · rename_i replay settlement place
    exact ⟨replay, settlement, place, (Option.some.inj taken).symm⟩
  · cases taken

/-- After reading the clock a worker settles what it delivered or what it found orphaned.
A retry time out of range frees it. -/
theorem step_stamp {config : ReplayConfig} {before after : State} {worker : Nat}
    (taken : step config before (.stamp worker) = some after) :
    (∃ replay attempt, before.workers worker = .delivered replay attempt ∧
      (verdict before.clock replay attempt config = none ∧ after = before.move worker .idle ∨
        ∃ settled, verdict before.clock replay attempt config = some settled ∧
          after = before.move worker (.settling replay (.finish attempt settled)))) ∨
      ∃ replay settlement, before.workers worker = .orphaned replay ∧
        after = before.move worker (.settling replay settlement) := by
  obtain ⟨place, computed, rfl⟩ := Option.map_eq_some_iff.mp taken
  simp only [stamped] at computed
  split at computed
  · rename_i replay attempt standing
    refine .inl ⟨replay, attempt, standing, ?_⟩
    cases settled : verdict before.clock replay attempt config with
    | none =>
      rw [settled] at computed
      obtain rfl := Option.some.inj computed
      exact .inl ⟨rfl, rfl⟩
    | some branch =>
      rw [settled] at computed
      obtain rfl := Option.some.inj computed
      exact .inr ⟨branch, rfl, rfl⟩
  · rename_i replay standing
    obtain rfl := Option.some.inj computed
    exact .inr ⟨replay, _, standing, rfl⟩
  · cases computed

/-- Every step has one of the effects. -/
theorem step_effect {config : ReplayConfig} {before after : State} {label : Label}
    (taken : step config before label = some after) : Effect config before after label := by
  cases label with
  | tick now =>
    obtain ⟨later, rfl⟩ := step_tick taken
    exact .quiet _ later rfl rfl (fun _ => .inr rfl) (fun _ => .inr rfl) (fun _ _ _ => .inl)
  | enqueue id eventId payload now =>
    obtain ⟨grown, inserted, result⟩ := step_enqueue taken
    exact .enqueued id eventId payload now grown inserted result
  | begin worker =>
    cases step_begin taken with
    | inl unchanged =>
      subst unchanged
      exact .quiet _ (Int.le_refl _) rfl rfl (fun _ => .inr rfl) (fun _ => .inr rfl)
        (fun _ _ _ => .inl)
    | inr started =>
      obtain ⟨cutoff, computed, rfl⟩ := started
      refine quiet_move config before worker _ _ (.inl rfl) (.inl rfl) ?_
      rintro now other standing
      obtain ⟨rfl, rfl⟩ := Worker.claiming.inj standing
      exact ⟨rfl, computed⟩
  | reclaim worker =>
    obtain ⟨now, cutoff, place, result⟩ := step_reclaim taken
    exact .reclaimed worker now cutoff place result
  | take worker id =>
    obtain ⟨now, replays, job, place, claimed, result⟩ := step_take taken
    exact .taken worker id now replays job place claimed result
  | miss worker =>
    rw [step_miss taken]
    exact quiet_move config before worker _ _ (.inl rfl) (.inl rfl) nofun
  | lookup worker present =>
    obtain ⟨replay, place, rfl⟩ := step_lookup taken
    cases present with
    | true =>
      exact quiet_move config before worker (.found replay) _ (.inr (by rw [place]; rfl))
        (.inr (by rw [place]; rfl)) nofun
    | false =>
      exact quiet_move config before worker (.orphaned replay) _ (.inr (by rw [place]; rfl))
        (.inl rfl) nofun
  | deliver worker =>
    obtain ⟨replay, place, result⟩ := step_deliver taken
    exact .delivering worker replay place result
  | reply worker attempt =>
    obtain ⟨replay, place, rfl⟩ := step_reply taken
    exact quiet_move config before worker (.delivered replay attempt) _
      (.inr (by rw [place]; rfl)) (.inl rfl) nofun
  | stamp worker =>
    cases step_stamp taken with
    | inl finishing =>
      obtain ⟨replay, attempt, standing, outcome⟩ := finishing
      cases outcome with
      | inl overflow =>
        rw [overflow.2]
        exact quiet_move config before worker _ _ (.inl rfl) (.inl rfl) nofun
      | inr settled =>
        obtain ⟨branch, _, rfl⟩ := settled
        exact quiet_move config before worker (.settling replay (.finish attempt branch)) _
          (.inr (by rw [standing]; rfl)) (.inl rfl) nofun
    | inr abandoning =>
      obtain ⟨replay, settlement, standing, rfl⟩ := abandoning
      exact quiet_move config before worker (.settling replay settlement) _
        (.inr (by rw [standing]; rfl)) (.inl rfl) nofun
  | write worker =>
    obtain ⟨replay, settlement, place, result⟩ := step_write taken
    exact .settled worker replay settlement place result
  | stop worker =>
    obtain rfl := Option.some.inj taken
    exact quiet_move config before worker _ _ (.inl rfl) (.inl rfl) nofun

/-- The clock never runs back. -/
theorem step_clock {config : ReplayConfig} {before after : State} {label : Label}
    (taken : step config before label = some after) : before.clock ≤ after.clock := by
  cases step_effect taken with
  | quiet _ later => exact later
  | enqueued _ _ _ _ _ _ result => simp [result]
  | reclaimed _ _ _ _ result => simp [result, State.move]
  | taken _ _ _ _ _ _ _ result => simp [result, State.move]
  | delivering _ _ _ result => simp [result, State.move]
  | settled _ _ _ _ result => simp [result, State.move]

/-- What a step does to the document of a job: nothing, or one of the calls writes it. -/
inductive Written (config : ReplayConfig) (id : ObjectId) (before after : State) : Label → Prop
  | kept (label : Label) (same : after.replays.find id = before.replays.find id) :
      Written config id before after label
  | inserted (eventId : ObjectId) (payload : ReplayCreate) (now : Instant)
      (missing : before.replays.find id = none)
      (stored : after.replays.find id = some (enqueued id eventId payload now config)) :
      Written config id before after (.enqueue id eventId payload now)
  | reclaimed (worker : Nat) (now : Instant) (cutoff : Millis) (replay : ReplayDoc)
      (place : before.workers worker = .claiming now cutoff)
      (found : before.replays.find id = some replay) (old : expired cutoff replay = true)
      (stored : after.replays.find id = some { replay with state := .pending }) :
      Written config id before after (.reclaim worker)
  | claimed (worker : Nat) (now : Instant) (replay : ReplayDoc)
      (found : before.replays.find id = some replay) (pending : replay.state = .pending)
      (stored : after.replays.find id = some (leased now replay)) :
      Written config id before after (.take worker id)
  | settled (worker : Nat) (held replay : ReplayDoc) (settlement : Settlement)
      (place : before.workers worker = .settling held settlement) (job : held.id = id)
      (found : before.replays.find id = some replay)
      (stored : after.replays.find id = some (settlement.apply replay)) :
      Written config id before after (.write worker)

/-- Every step does one of these. -/
theorem step_written {config : ReplayConfig} {before after : State} {label : Label}
    (taken : step config before label = some after) (id : ObjectId) :
    Written config id before after label := by
  cases step_effect taken with
  | quiet _ _ replays => exact .kept _ (by rw [replays])
  | enqueued fresh eventId payload now grown inserted result =>
    subst result
    by_cases same : id = fresh
    · subst same
      exact .inserted eventId payload now (Collection.insert_fresh inserted)
        (by simp [find_enqueue inserted])
    · exact .kept _ (by simp [find_enqueue inserted, same])
  | reclaimed worker now cutoff place result =>
    subst result
    have after := find_reclaim before.replays cutoff id
    cases found : before.replays.find id with
    | none => exact .kept _ (by simp [after, found])
    | some replay =>
      by_cases old : expired cutoff replay = true
      · exact .reclaimed worker now cutoff replay place found old (by simp [after, found, old])
      · exact .kept _ (by simp [after, found, old])
  | taken worker target now replays job _ claimed result =>
    obtain ⟨replay, located, pending, _, rfl, changed⟩ := take_cases claimed
    subst result
    by_cases same : id = target
    · subst same
      exact .claimed worker now replay located pending (by simp [changed])
    · exact .kept _ (by simp [changed, same])
  | delivering _ _ _ result => exact .kept _ (by rw [result]; rfl)
  | settled worker held settlement place result =>
    subst result
    by_cases same : id = held.id
    · subst same
      cases found : before.replays.find held.id with
      | none => exact .kept _ (by simp [find_settle, found])
      | some replay =>
        exact .settled worker held replay settlement place rfl found (by simp [find_settle, found])
    · exact .kept _ (by simp [find_settle, same])

/-! ## Claims and their numbers -/

/-- A worker holds the claim with this number on this job. -/
def Holds (queue : State) (worker : Nat) (id : ObjectId) (number : Nat) : Prop :=
  ∃ replay, (queue.workers worker).held = some replay ∧ replay.id = id ∧ replay.attempt = number

/-- A job's claims are numbered from one, the stored number is the latest one,
and no two workers hold the same claim. -/
structure Numbered (queue : State) : Prop where
  latest : ∀ {worker replay}, (queue.workers worker).held = some replay →
    ∃ stored, queue.replays.find replay.id = some stored ∧
      1 ≤ replay.attempt ∧ replay.attempt ≤ stored.attempt
  distinct : ∀ {first second id number}, Holds queue first id number →
    Holds queue second id number → first = second

/-- A step keeps every document and never lowers the number of its claims. -/
theorem step_grows {config : ReplayConfig} {before after : State} {label : Label}
    (taken : step config before label = some after) {id : ObjectId} {stored : ReplayDoc}
    (found : before.replays.find id = some stored) :
    ∃ later, after.replays.find id = some later ∧ stored.attempt ≤ later.attempt := by
  cases step_written taken id with
  | kept _ same => exact ⟨stored, same.trans found, Nat.le_refl _⟩
  | inserted _ _ _ missing =>
    rw [missing] at found
    cases found
  | reclaimed _ _ _ replay _ located _ result =>
    obtain rfl := Option.some.inj (located.symm.trans found)
    exact ⟨_, result, Nat.le_refl _⟩
  | claimed _ _ replay located _ result =>
    obtain rfl := Option.some.inj (located.symm.trans found)
    exact ⟨_, result, Nat.le_succ _⟩
  | settled _ _ replay settlement _ _ located result =>
    obtain rfl := Option.some.inj (located.symm.trans found)
    exact ⟨_, result, by simp⟩

/-- Nobody gains a claim but by claiming. -/
theorem step_held {config : ReplayConfig} {before after : State} {label : Label}
    (taken : step config before label = some after) {worker : Nat} {replay : ReplayDoc}
    (holding : (after.workers worker).held = some replay) :
    (before.workers worker).held = some replay ∨
      ∃ now stored, label = .take worker replay.id ∧
        before.replays.find replay.id = some stored ∧ replay = leased now stored := by
  have kept : ∀ {held : Option ReplayDoc}, held = some replay →
      held = none ∨ held = (before.workers worker).held →
      (before.workers worker).held = some replay := by
    intro held present cases
    rcases cases with none | same
    · rw [none] at present
      cases present
    · exact same ▸ present
  cases step_effect taken with
  | quiet _ _ _ _ held => exact .inl (kept holding (held worker))
  | enqueued _ _ _ _ _ _ result => exact .inl (kept holding (.inr (by rw [result])))
  | reclaimed mover _ _ _ result =>
    rw [result] at holding
    exact .inl (kept holding (held_move_kept before mover _ (.inl rfl) worker))
  | delivering mover held place result =>
    rw [result] at holding
    exact .inl (kept holding (held_move_kept before mover _ (.inr (by rw [place]; rfl)) worker))
  | settled mover _ _ _ result =>
    rw [result] at holding
    exact .inl (kept holding (held_move_kept before mover _ (.inl rfl) worker))
  | taken mover target now replays job _ claimed result =>
    obtain ⟨stored, located, _, _, rfl, _⟩ := take_cases claimed
    rw [result] at holding
    change ((before.move mover _).workers worker).held = some replay at holding
    rw [held_move] at holding
    by_cases same : worker = mover
    · rw [if_pos same] at holding
      obtain rfl := Option.some.inj holding
      have key : stored.id = target := (Collection.find_some located).2
      refine .inr ⟨now, stored, ?_, ?_, rfl⟩
      · rw [leased_id, key, same]
      · rw [leased_id, key, located]
    · rw [if_neg same] at holding
      exact .inl holding

/-- Every step keeps the numbering of the claims.

Proof: only `take` gives out a claim, and its number exceeds the stored one,
which bounds all numbers that workers hold. -/
theorem step_numbered {config : ReplayConfig} {before after : State} {label : Label}
    (numbered : Numbered before) (taken : step config before label = some after) :
    Numbered after := by
  -- A new claim has a number that no held claim of the job has.
  have above : ∀ (now : Instant) {other replay stored}, (before.workers other).held = some replay →
      before.replays.find replay.id = some stored →
        replay.attempt < (leased now stored).attempt := by
    intro now other replay stored holding found
    obtain ⟨latest, located, _, bounded⟩ := numbered.latest holding
    obtain rfl := Option.some.inj (located.symm.trans found)
    exact Nat.lt_succ_of_le bounded
  constructor
  · intro worker replay holding
    rcases step_held taken holding with old | ⟨now, stored, rfl, located, marked⟩
    · obtain ⟨stored, found, positive, bounded⟩ := numbered.latest old
      obtain ⟨later, kept, grown⟩ := step_grows taken found
      exact ⟨later, kept, positive, bounded.trans grown⟩
    · have number : replay.attempt = stored.attempt + 1 := by rw [marked]; rfl
      obtain ⟨now, replays, job, _, claimed, rfl⟩ := step_take taken
      obtain ⟨found, same, _, _, rfl, changed⟩ := take_cases claimed
      obtain rfl := Option.some.inj (same.symm.trans located)
      exact ⟨leased now found, by simp [changed], number ▸ Nat.le_add_left 1 _, number ▸ Nat.le_refl _⟩
  · rintro first second id number ⟨one, oneHeld, oneId, oneNumber⟩ ⟨two, twoHeld, twoId, twoNumber⟩
    have sameId : one.id = two.id := oneId.trans twoId.symm
    rcases step_held taken oneHeld with oneOld | ⟨now, stored, oneLabel, oneFound, oneMarked⟩ <;>
      rcases step_held taken twoHeld with twoOld | ⟨now', stored', twoLabel, twoFound, twoMarked⟩
    · exact numbered.distinct ⟨one, oneOld, oneId, oneNumber⟩ ⟨two, twoOld, twoId, twoNumber⟩
    · have less := above now' oneOld (sameId ▸ twoFound)
      rw [← twoMarked] at less
      omega
    · have less := above now twoOld (sameId ▸ oneFound)
      rw [← oneMarked] at less
      omega
    · exact (Label.take.inj (oneLabel.symm.trans twoLabel)).1

/-- Idle workers hold nothing. -/
theorem initial_numbered (clock : Instant) : Numbered (initial clock) := by
  constructor
  · intro worker replay holding
    cases holding
  · rintro first second id number ⟨replay, holding, _⟩
    cases holding

/-! ## Claims in the making -/

/-- A worker that is about to reclaim read the clock in the past and computed its
cutoff from that reading. -/
def Timely (config : ReplayConfig) (queue : State) : Prop :=
  ∀ worker now cutoff, queue.workers worker = .claiming now cutoff →
    now ≤ queue.clock ∧ leaseCutoff now config = some cutoff

/-- Readings stay in the past, whatever a step does. -/
theorem step_timely {config : ReplayConfig} {before after : State} {label : Label}
    (timely : Timely config before) (taken : step config before label = some after) :
    Timely config after := by
  have later := step_clock taken
  have moved : ∀ mover place, (∀ now cutoff, place ≠ .claiming now cutoff) →
      after.workers = (before.move mover place).workers → Timely config after := by
    intro mover place other workers worker now cutoff standing
    rw [workers] at standing
    by_cases same : worker = mover
    · subst same
      rw [move_same] at standing
      exact absurd standing (other now cutoff)
    · rw [move_other before place same] at standing
      obtain ⟨past, computed⟩ := timely worker now cutoff standing
      exact ⟨past.trans later, computed⟩
  cases step_effect taken with
  | quiet _ _ _ _ _ _ claiming =>
    intro worker now cutoff standing
    rcases claiming worker now cutoff standing with old | ⟨rfl, computed⟩
    · obtain ⟨past, computed⟩ := timely worker now cutoff old
      exact ⟨past.trans later, computed⟩
    · exact ⟨later, computed⟩
  | enqueued _ _ _ _ _ _ result =>
    intro worker now cutoff standing
    rw [result] at standing
    obtain ⟨past, computed⟩ := timely worker now cutoff standing
    exact ⟨past.trans later, computed⟩
  | reclaimed worker now _ _ result => exact moved worker (.reclaimed now) nofun (by rw [result])
  | taken worker _ _ _ job _ _ result => exact moved worker (.claimed job) nofun (by rw [result])
  | delivering worker replay _ result =>
    exact moved worker (.delivering replay) nofun (by rw [result])
  | settled worker _ _ _ result => exact moved worker .idle nofun (by rw [result])

/-- No worker has read the clock yet. -/
theorem initial_timely (config : ReplayConfig) (clock : Instant) :
    Timely config (initial clock) := by
  intro worker now cutoff standing
  cases standing

end WebhookInbox.Queue
