import WebhookInbox.Replay.Queue
import Mathlib.Tactic.Linarith

/-!
# Leases that are respected

A settlement selects its document by identifier alone, so a worker whose lease
ran out still writes after another worker has claimed the job. `Owned` is the
condition under which this does not happen: whoever settles a job holds its
latest claim.

In runs that meet the condition a finished job is never touched again, and a
claimed job is not handed out a second time before its lease runs out. The last
section shows runs that break both without it.
-/

namespace WebhookInbox.Queue

open Library Library.Run Calendar Runner Store

/-- The worker that settles this job holds the latest claim of it. -/
def Owned (id : ObjectId) (queue : State) : Label → Prop
  | .write worker =>
      ∀ written ∈ (queue.workers worker).settlement, written.1.id = id →
        ∀ stored ∈ queue.replays.find id, written.1.attempt = stored.attempt
  | _ => True

instance decidableOwned (id : ObjectId) (queue : State) (label : Label) :
    Decidable (Owned id queue label) := by
  cases label <;> dsimp only [Owned] <;> infer_instance

/-- In an owned write the stored number is the writer's. -/
theorem Owned.number {id : ObjectId} {queue : State} {worker : Nat} {replay stored : ReplayDoc}
    {settlement : Settlement} (owned : Owned id queue (.write worker))
    (place : queue.workers worker = .settling replay settlement) (job : replay.id = id)
    (found : queue.replays.find id = some stored) : replay.attempt = stored.attempt :=
  owned (replay, settlement) (by rw [place]; rfl) job stored found

/-! ## Concrete schedules -/

section
variable (worker : Nat) (id : ObjectId)

/-- A worker claims a job. -/
def claimLabels : List Label := [.begin worker, .reclaim worker, .take worker id]

/-- A worker claims a job and begins to deliver it. -/
def startLabels : List Label := claimLabels worker id ++ [.lookup worker true, .deliver worker]

/-- The delivery comes to this attempt, and the worker finishes the job with it. -/
def finishLabels (attempt : Attempt) : List Label :=
  [.reply worker attempt, .stamp worker, .write worker]

end

def exampleId : ObjectId := ⟨1⟩

/-- A job for a public destination is queued at time zero. -/
def enqueueLabels : List Label :=
  [.enqueue exampleId ⟨2⟩ ⟨lit "https://example.com/", lit "POST", []⟩ 0]

/-- A delivery that was answered with status 200. -/
def okAttempt : Attempt := { statusCode := some 200 }

/-- A delivery whose connection failed. -/
def failedAttempt : Attempt :=
  { error := some (lit "Connection failed: reset"), retryable := true }

/-! ## Finished jobs -/

/-- Nobody holds the latest claim of this job once it is finished. -/
def Released (id : ObjectId) (queue : State) : Prop :=
  ∀ stored worker, queue.replays.find id = some stored → stored.Finished →
    ¬ Holds queue worker id stored.attempt

/-- Owned steps keep finished jobs released.

Proof: reclaiming and claiming leave a job unfinished. A settlement that
finishes the job is made by the holder of its latest claim, who gives it up,
and nobody else holds the same claim. -/
theorem step_released {config : ReplayConfig} {before after : State} {label : Label}
    {id : ObjectId} (numbered : Numbered before) (released : Released id before)
    (owned : Owned id before label) (taken : step config before label = some after) :
    Released id after := by
  rintro stored worker found done ⟨replay, holding, job, number⟩
  -- A claim that somebody holds afterwards was held before, or is the one just made.
  have old : (∀ other, label ≠ .take other id) → Holds before worker id stored.attempt := by
    intro other
    rcases step_held taken holding with held | ⟨_, _, same, _, _⟩
    · exact ⟨replay, held, job, number⟩
    · exact absurd (job ▸ same) (other worker)
  cases step_written taken id with
  | kept _ same =>
    rw [same] at found
    rcases step_held taken holding with held | ⟨now, earlier, _, located, marked⟩
    · exact released stored worker found done ⟨replay, held, job, number⟩
    · rw [job, found] at located
      obtain rfl := Option.some.inj located
      have next : replay.attempt = stored.attempt + 1 := by rw [marked]; rfl
      omega
  | inserted _ _ _ _ result =>
    obtain rfl := Option.some.inj (result.symm.trans found)
    rcases done with done | done <;> cases done
  | reclaimed _ _ _ _ _ _ _ result =>
    obtain rfl := Option.some.inj (result.symm.trans found)
    rcases done with done | done <;> cases done
  | claimed _ _ _ _ _ result =>
    obtain rfl := Option.some.inj (result.symm.trans found)
    rcases done with done | done <;> cases done
  | settled writer held earlier settlement place sameJob located result =>
    obtain rfl := Option.some.inj (result.symm.trans found)
    have holds := old nofun
    rw [Settlement.apply_attempt] at holds
    have mine : Holds before writer id earlier.attempt :=
      ⟨held, by rw [place]; rfl, sameJob, owned.number place sameJob located⟩
    obtain rfl : worker = writer := numbered.distinct holds mine
    -- The writer is idle now and holds nothing.
    obtain ⟨_, _, _, rfl⟩ := step_write taken
    change ((before.move worker _).workers worker).held = some replay at holding
    rw [move_same] at holding
    cases holding

/-- An owned step leaves a finished job as it is. -/
theorem step_finished {config : ReplayConfig} {before after : State} {label : Label}
    {id : ObjectId} {stored : ReplayDoc} (released : Released id before)
    (owned : Owned id before label) (taken : step config before label = some after)
    (found : before.replays.find id = some stored) (done : stored.Finished) :
    after.replays.find id = some stored := by
  cases step_written taken id with
  | kept _ same => exact same.trans found
  | inserted _ _ _ missing =>
    rw [missing] at found
    cases found
  | reclaimed _ _ cutoff replay _ located old =>
    obtain rfl := Option.some.inj (located.symm.trans found)
    have running : replay.state = .running := (of_decide_eq_true (Bool.and_eq_true_iff.mp old).1)
    rcases done with done | done <;> simp [running] at done
  | claimed _ _ replay located pending =>
    obtain rfl := Option.some.inj (located.symm.trans found)
    rcases done with done | done <;> simp [pending] at done
  | settled worker held replay settlement place job located =>
    obtain rfl := Option.some.inj (located.symm.trans found)
    have number := owned.number place job found
    exact absurd ⟨held, by rw [place]; rfl, job, number⟩ (released replay worker found done)

/-- The start of a run has no jobs. -/
theorem initial_released (id : ObjectId) (clock : Instant) : Released id (initial clock) := by
  intro stored worker found
  cases found

/-- Once a job is finished, no later step of an owned run changes its document.

Proof: the numbering and the release of finished jobs are carried to the state
where the job is finished, and from there together with its document. -/
theorem finished_stays (config : ReplayConfig) (start : Instant) (id : ObjectId)
    {before after : List Label} {reached final : State} {doc : ReplayDoc}
    (ran : run (step config) (initial start) before = some reached)
    (continued : run (step config) reached after = some final)
    (owned : Along (step config) (Owned id) (initial start) (before ++ after))
    (found : reached.replays.find id = some doc) (done : doc.Finished) :
    final.replays.find id = some doc := by
  obtain ⟨ownedBefore, ownedAfter⟩ := (along_append (step config) ran).mp owned
  have preserved : ∀ state label next, Numbered state ∧ Released id state →
      Owned id state label → step config state label = some next →
      Numbered next ∧ Released id next := by
    intro state label next holds condition taken
    exact ⟨step_numbered holds.1 taken, step_released holds.1 holds.2 condition taken⟩
  have sound : Numbered reached ∧ Released id reached :=
    run_invariant (step config) preserved ownedBefore ran
      ⟨initial_numbered start, initial_released id start⟩
  have persistent : ∀ state label next,
      (Numbered state ∧ Released id state) ∧ state.replays.find id = some doc →
      Owned id state label → step config state label = some next →
      (Numbered next ∧ Released id next) ∧ next.replays.find id = some doc := by
    intro state label next holds condition taken
    exact ⟨preserved state label next holds.1 condition taken,
      step_finished holds.1.2 condition taken holds.2 done⟩
  exact (run_invariant (step config) persistent ownedAfter continued ⟨sound, found⟩).2

/-- One worker finishes the job, and a second one later finds nothing to do. -/
def delivered : State :=
  (run (step {}) (initial 0) (enqueueLabels ++ startLabels 0 exampleId ++
    finishLabels 0 okAttempt)).get (by decide)

def idleLater : State :=
  (run (step {}) delivered [.tick 100000000, .begin 1, .reclaim 1, .miss 1]).get (by decide)

/-- The finished job is still there as it was. -/
theorem finished_stays_delivered :
    idleLater.replays.find exampleId =
      some ((delivered.replays.find exampleId).get (by decide)) :=
  finished_stays {} 0 exampleId (Option.some_get _).symm (Option.some_get _).symm (by decide)
    (Option.some_get _).symm (by decide)

/-- A first worker delivers for longer than the lease. A second one takes the job
over and finishes it. -/
def overtaken : State :=
  (run (step {}) (initial 0) (enqueueLabels ++ startLabels 0 exampleId ++ [.tick 61000000] ++
    startLabels 1 exampleId ++ finishLabels 1 okAttempt)).get (by decide)

/-- Then the first delivery fails, and its worker writes that. -/
def overwritten : State :=
  (run (step {}) overtaken (finishLabels 0 failedAttempt)).get (by decide)

/-- Without the condition a finished job becomes pending again: the late write
replaces its state, its response and its error. -/
theorem finished_overwritten :
    ¬ ∀ (config : ReplayConfig) (start : Instant) (id : ObjectId) (before after : List Label)
      (reached final : State) (doc : ReplayDoc),
      run (step config) (initial start) before = some reached →
      run (step config) reached after = some final →
      reached.replays.find id = some doc → doc.Finished →
      ∃ later, final.replays.find id = some later ∧ later.state = doc.state ∧
        later.response = doc.response ∧ later.error = doc.error ∧
        later.completedAt = doc.completedAt := by
  intro claimed
  obtain ⟨later, found, state, _⟩ := claimed {} 0 exampleId _ (finishLabels 0 failedAttempt)
    overtaken overwritten ((overtaken.replays.find exampleId).get (by decide))
    (Option.some_get _).symm (Option.some_get _).symm (Option.some_get _).symm (by decide)
  have pending : (overwritten.replays.find exampleId).map ReplayDoc.state = some .pending := by
    decide
  rw [found, Option.map_some, state] at pending
  revert pending
  decide

/-! ## Exclusive leases -/

/-- The worker settles the claim with this number on this job. -/
def Settles (id : ObjectId) (number : Nat) (queue : State) : Label → Prop
  | .write worker =>
      ∃ written ∈ (queue.workers worker).settlement,
        written.1.id = id ∧ written.1.attempt = number
  | _ => False

instance decidableSettles (id : ObjectId) (number : Nat) (queue : State) (label : Label) :
    Decidable (Settles id number queue label) := by
  cases label <;> dsimp only [Settles] <;> infer_instance

/-- The lease of this claim: the job still runs under it, or its time has passed. -/
structure Leased (config : ReplayConfig) (id : ObjectId) (number : Nat) (since : Millis)
    (queue : State) : Prop where
  stored : ∃ replay, queue.replays.find id = some replay ∧ number ≤ replay.attempt
  running : since * 1000 + config.leaseTimeout * 1000000 < queue.clock ∨
    ∃ replay, queue.replays.find id = some replay ∧ replay.state = .running ∧
      replay.attempt = number ∧ replay.leasedAt = some since

/-- A lease that is older than a cutoff has run out when the cutoff was computed. -/
theorem expired_lease {config : ReplayConfig} {now : Instant} {cutoff since : Millis}
    (computed : leaseCutoff now config = some cutoff) (older : since < cutoff) :
    since * 1000 + config.leaseTimeout * 1000000 < now := by
  obtain ⟨moved, added, rfl⟩ := Option.map_eq_some_iff.mp computed
  have shifted := addSeconds_eq added
  have passed := lt_of_lt_toMillis older
  rw [shifted] at passed
  linarith

/-- A lease runs on or has run out, if its claim is not settled meanwhile.

Proof: a running job becomes pending by reclaiming, after the lease, or by the
write of whoever holds this claim, which is excluded. Claiming needs a pending
job, and no other write changes it in an owned run. -/
theorem step_leased {config : ReplayConfig} {before after : State} {label : Label}
    {id : ObjectId} {number : Nat} {since : Millis} (timely : Timely config before)
    (leased : Leased config id number since before) (owned : Owned id before label)
    (unsettled : ¬ Settles id number before label)
    (taken : step config before label = some after) : Leased config id number since after := by
  have later := step_clock taken
  obtain ⟨earlier, located, bounded⟩ := leased.stored
  obtain ⟨stored, kept, grown⟩ := step_grows taken located
  refine ⟨⟨stored, kept, bounded.trans grown⟩, ?_⟩
  rcases leased.running with passed | ⟨replay, found, isRunning, isNumber, isSince⟩
  · exact .inl (passed.trans_le later)
  · cases step_written taken id with
    | kept _ same => exact .inr ⟨replay, same.trans found, isRunning, isNumber, isSince⟩
    | inserted _ _ _ missing =>
      rw [missing] at found
      cases found
    | reclaimed worker now cutoff other place also old =>
      obtain rfl := Option.some.inj (also.symm.trans found)
      obtain ⟨past, computed⟩ := timely worker now cutoff place
      have older : since < cutoff := by simpa [expired, isSince, isRunning] using old
      exact .inl ((expired_lease computed older).trans_le (past.trans later))
    | claimed _ _ other also pending =>
      obtain rfl := Option.some.inj (also.symm.trans found)
      rw [isRunning] at pending
      cases pending
    | settled worker held other settlement place job also =>
      have writers := owned.number place job found
      exact absurd ⟨(held, settlement), by rw [place]; rfl, job, writers.trans isNumber⟩ unsettled

/-- Two claims of one job lie apart by more than the lease, unless the first was
settled in between. The times of claims are those that the job records.

Proof: the lease is carried from the first claim to the second, which finds the
job pending, so that the lease must have run out. -/
theorem lease_exclusive (config : ReplayConfig) (start : Instant) (id : ObjectId)
    (first second : Nat) {before between : List Label}
    {reached granted waiting regranted : State} {job : ReplayDoc} {since : Millis}
    (ran : run (step config) (initial start) before = some reached)
    (claimed : step config reached (.take first id) = some granted)
    (holding : (granted.workers first).held = some job) (leasedAt : job.leasedAt = some since)
    (continued : run (step config) granted between = some waiting)
    (owned : Along (step config) (Owned id) granted between)
    (unsettled : Along (step config) (fun state label => ¬ Settles id job.attempt state label)
      granted between)
    (reclaimed : step config waiting (.take second id) = some regranted) :
    since * 1000 + config.leaseTimeout * 1000000 < waiting.clock := by
  have timely : Timely config granted := by
    have before : Timely config reached :=
      run_preserves (step config) (fun _ _ _ holds taken => step_timely holds taken) ran
        (initial_timely config start)
    exact step_timely before claimed
  have leased : Leased config id job.attempt since granted := by
    obtain ⟨now, replays, taken, _, took, result⟩ := step_take claimed
    obtain ⟨pendingJob, _, _, _, marked, changed⟩ := take_cases took
    have returned : taken = job := by
      rw [result] at holding
      change ((reached.move first _).workers first).held = some job at holding
      rw [move_same] at holding
      exact Option.some.inj holding
    have found : granted.replays.find id = some job := by
      rw [result, ← returned]
      simp [changed]
    have isRunning : job.state = .running := by
      rw [← returned, marked]
      rfl
    exact ⟨⟨job, found, Nat.le_refl _⟩, .inr ⟨job, found, isRunning, rfl, leasedAt⟩⟩
  have preserved : ∀ state label next,
      Timely config state ∧ Leased config id job.attempt since state →
      Owned id state label ∧ ¬ Settles id job.attempt state label →
      step config state label = some next →
      Timely config next ∧ Leased config id job.attempt since next := by
    intro state label next holds condition taken
    exact ⟨step_timely holds.1 taken,
      step_leased holds.1 holds.2 condition.1 condition.2 taken⟩
  have carried := run_invariant (step config) preserved
    (along_and (step config) owned unsettled) continued ⟨timely, leased⟩
  obtain ⟨_, _, _, _, took, _⟩ := step_take reclaimed
  obtain ⟨pendingJob, pendingFound, pending, _⟩ := take_cases took
  rcases carried.2.running with passed | ⟨replay, found, isRunning, _⟩
  · exact passed
  · obtain rfl : replay = pendingJob := Option.some.inj (found.symm.trans pendingFound)
    rw [isRunning] at pending
    cases pending

/-- A worker is about to claim the only job. -/
def claimable : State :=
  (run (step {}) (initial 0) (enqueueLabels ++ [.begin 0, .reclaim 0])).get (by decide)

def firstClaim : State := (step {} claimable (.take 0 exampleId)).get (by decide)

/-- Its worker stops, and after the lease a second one has taken the job back. -/
def leaseOver : State :=
  (run (step {}) firstClaim [.stop 0, .tick 61000000, .begin 1, .reclaim 1]).get (by decide)

/-- The second claim comes after the lease of the first. -/
theorem lease_exclusive_reclaimed :
    (0 : Millis) * 1000 + ReplayConfig.leaseTimeout {} * 1000000 < leaseOver.clock :=
  lease_exclusive {} 0 exampleId 0 1 (Option.some_get _).symm (Option.some_get _).symm
    (Option.some_get (by decide : ((firstClaim.workers 0).held).isSome)).symm (by decide)
    (Option.some_get _).symm (by decide) (by decide)
    (Option.some_get (by decide : ((step {} leaseOver (.take 1 exampleId))).isSome)).symm

/-- A first worker delivers for longer than the lease, and a second one is about
to claim the job. -/
def leaseLost : State :=
  (run (step {}) (initial 0) (enqueueLabels ++ startLabels 0 exampleId ++
    [.tick 61000000, .begin 1, .reclaim 1])).get (by decide)

def secondClaim : State := (step {} leaseLost (.take 1 exampleId)).get (by decide)

/-- The first delivery fails. Its worker makes the job pending under the lease of
the second one, and a third one is about to claim it. -/
def leaseBroken : State :=
  (run (step {}) secondClaim (finishLabels 0 failedAttempt ++
    [.tick 64000000, .begin 2, .reclaim 2])).get (by decide)

/-- Without the condition a job is handed out again three seconds into a lease of
sixty. -/
theorem lease_broken :
    ¬ ∀ (config : ReplayConfig) (start : Instant) (id : ObjectId) (first second : Nat)
      (before between : List Label) (reached granted waiting regranted : State) (job : ReplayDoc)
      (since : Millis), run (step config) (initial start) before = some reached →
      step config reached (.take first id) = some granted →
      (granted.workers first).held = some job → job.leasedAt = some since →
      run (step config) granted between = some waiting →
      Along (step config) (fun state label => ¬ Settles id job.attempt state label)
        granted between →
      step config waiting (.take second id) = some regranted →
      since * 1000 + config.leaseTimeout * 1000000 < waiting.clock := by
  intro claimed
  have late := claimed {} 0 exampleId 1 2 _ (finishLabels 0 failedAttempt ++
      [.tick 64000000, .begin 2, .reclaim 2]) leaseLost secondClaim leaseBroken
    ((step {} leaseBroken (.take 2 exampleId)).get (by decide))
    ((secondClaim.workers 1).held.get (by decide)) 61000
    (Option.some_get _).symm (Option.some_get _).symm (Option.some_get _).symm (by decide)
    (Option.some_get _).symm (by decide) (Option.some_get _).symm
  revert late
  decide

end WebhookInbox.Queue
