import WebhookInbox.Replay.Worker

/-!
# The loop of a worker

`run_forever` polls: each `run_once` takes expired leases back, claims a job if one is due,
and delivers it. Between two polls requests may queue jobs. What a poll meets is left open:
the clock, the event, the network, and which of several equal jobs is claimed.

Every job has a number of turns left, and a turn that is worked off lowers their sum:
`turns_bounded`. So a worker comes to an end of its work whatever happens, and
`idle_leaves_waiting` says what is left when it finds nothing to do.
-/

namespace WebhookInbox.Worker

open Library Library.Run Calendar Runner Store

/-- What one `run_once` meets. -/
structure Round where
  now : Instant
  picked : ObjectId
  event : ObjectId → Option StoredEvent
  world : World
  elapsed : Int
  settledAt : Instant

/-- What one `run_once` comes to: `False`, `True`, or an exception. -/
inductive Polled where
  | idle
  | worked
  | failed
deriving DecidableEq

/-- A poll of the worker, or a request that queues a job. -/
inductive Happening where
  | poll (round : Round)
  | queued (id eventId : ObjectId) (payload : ReplayCreate) (now : Instant)

section
variable (casing : Casing) (config : ReplayConfig)

/-- `run_once(db, settings)`. A round in which the job that is picked cannot be claimed does
not happen. -/
def runOnce (replays : Replays) (round : Round) : Option (Replays × Polled) :=
  match leaseCutoff round.now config with
  | none => some (replays, .failed)
  | some cutoff =>
      if nothingDue (reclaim replays cutoff) round.now then some (reclaim replays cutoff, .idle)
      else
        (take (reclaim replays cutoff) round.now round.picked).map (fun taken =>
          match runClaimed round.world casing config taken.1 taken.2
              (round.event taken.2.eventId) round.elapsed round.settledAt with
          | (after, .ok ()) => (after, .worked)
          | (after, .error _) => (after, .failed))

/-- What one thing that happens leaves, and the turn if it was a poll. -/
def happen (replays : Replays) : Happening → Option (Replays × List Polled)
  | .poll round => (runOnce casing config replays round).map (fun after => (after.1, [after.2]))
  | .queued id eventId payload now =>
      (enqueue replays id eventId payload now config).map (fun after => (after, []))

/-- `run_forever(db, settings, stop)` with the requests in between. The waits change
nothing. -/
def runForever (replays : Replays) : List Happening → Option (Replays × List Polled)
  | [] => some (replays, [])
  | first :: rest =>
      (happen casing config replays first).bind (fun after =>
        (runForever after.1 rest).map (fun final => (final.1, after.2 ++ final.2)))

end

/-! ## Work -/

/-- The turns that a job has left. One whose attempts are used up is still settled once. -/
def remaining (replay : ReplayDoc) : Nat :=
  if replay.Finished then 0 else max 1 (replay.maxAttempts - replay.attempt).toNat

/-- The turns that all jobs have left. -/
def work (replays : Replays) : Nat := (replays.docs.map remaining).sum

/-- A finished job has none. -/
theorem remaining_finished {replay : ReplayDoc} (done : replay.Finished) : remaining replay = 0 :=
  if_pos done

/-- A pending or running job has some. -/
theorem remaining_open {replay : ReplayDoc} (unfinished : ¬ replay.Finished) :
    remaining replay = max 1 (replay.maxAttempts - replay.attempt).toNat :=
  if_neg unfinished

/-- Taking expired leases back leaves the work. -/
theorem work_reclaim (replays : Replays) (cutoff : Millis) :
    work (reclaim replays cutoff) = work replays := by
  refine Collection.sum_updateMany replays _ _ _ remaining ?_
  intro replay expires
  have running : replay.state = .running :=
    of_decide_eq_true (Bool.and_eq_true_iff.mp expires).1
  have before : ¬ replay.Finished := by simp [ReplayDoc.Finished, running]
  rw [remaining_open before, remaining_open (by simp [ReplayDoc.Finished])]

/-- A claim takes at most one turn from its job. -/
theorem work_take {replays taken : Replays} {now : Instant} {id : ObjectId} {job : ReplayDoc}
    (claimed : take replays now id = some (taken, job)) :
    taken.find job.id = some job ∧ ¬ job.Finished ∧ work taken ≤ work replays ∧
      ((job.attempt : Int) < job.maxAttempts → work taken + 1 = work replays) := by
  obtain ⟨replay, found, pending, _, rfl, changed⟩ := take_cases claimed
  have key : replay.id = id := (Collection.find_some found).2
  have held : taken.find (leased now replay).id = some (leased now replay) := by
    rw [leased_id, key, changed, if_pos rfl]
  have result : taken = replays.updateOne id (leased now) (leased_id now) := by
    unfold take at claimed
    rw [found] at claimed
    simp only at claimed
    split at claimed
    · exact (Prod.mk.inj (Option.some.inj claimed)).1.symm
    · cases claimed
  have sum := Collection.sum_updateOne replays (leased now) (leased_id now) remaining found
  have before : remaining replay = max 1 (replay.maxAttempts - replay.attempt).toNat :=
    remaining_open (by simp [ReplayDoc.Finished, pending])
  have after : remaining (leased now replay) =
      max 1 (replay.maxAttempts - (replay.attempt + 1)).toNat := by
    have unfinished : ¬ (leased now replay).Finished := by simp [ReplayDoc.Finished, leased]
    rw [remaining_open unfinished]
    simp [leased]
  rw [← result, before, after] at sum
  refine ⟨held, by simp [ReplayDoc.Finished, leased], ?_, ?_⟩
  · change (taken.docs.map remaining).sum ≤ (replays.docs.map remaining).sum
    omega
  · intro left
    have number : ((replay.attempt : Int) + 1) < replay.maxAttempts := by
      simpa [leased] using left
    change (taken.docs.map remaining).sum + 1 = (replays.docs.map remaining).sum
    omega

/-- A settlement that is no retry, or one of a job with attempts left, leaves less work than
there was before the claim. -/
theorem work_settle {replays : Replays} {job : ReplayDoc} {settlement : Settlement}
    (held : replays.find job.id = some job) (unfinished : ¬ job.Finished) :
    (settlement.target ≠ .pending ∧ settlement.target ≠ .running →
      work (settle replays job.id settlement) + 1 ≤ work replays) ∧
      (settlement.target = .pending → work (settle replays job.id settlement) = work replays) := by
  have sum := Collection.sum_updateOne replays settlement.apply settlement.apply_id remaining held
  have before := remaining_open unfinished
  have changed : work (settle replays job.id settlement) + remaining job =
      work replays + remaining (settlement.apply job) := sum
  constructor
  · rintro ⟨notPending, notRunning⟩
    have done : (settlement.apply job).Finished := by
      rw [ReplayDoc.Finished, settlement.apply_state]
      cases target : settlement.target with
      | pending => exact absurd target notPending
      | running => exact absurd target notRunning
      | success => exact .inl rfl
      | failed => exact .inr rfl
    rw [remaining_finished done] at changed
    omega
  · intro pending
    have again : ¬ (settlement.apply job).Finished := by
      rw [ReplayDoc.Finished, settlement.apply_state, pending]
      simp
    have same : remaining (settlement.apply job) = remaining job := by
      rw [remaining_open again, before, settlement.apply_attempt, settlement.apply_maxAttempts]
    omega

section
variable {casing : Casing} {config : ReplayConfig}

/-- What a turn that was worked off has written. -/
theorem runClaimed_worked {world : World} {replays after : Replays} {job : ReplayDoc}
    {event : Option StoredEvent} {elapsed : Int} {settledAt : Instant}
    (ran : runClaimed world casing config replays job event elapsed settledAt = (after, .ok ())) :
    ∃ settlement : Settlement, after = settle replays job.id settlement ∧
      settlement.target ≠ .running ∧
      (settlement.target = .pending → (job.attempt : Int) < job.maxAttempts) := by
  unfold runClaimed at ran
  split at ran
  · obtain ⟨rfl, _⟩ := Prod.mk.inj ran
    exact ⟨_, rfl, nofun, nofun⟩
  · split at ran
    · cases (Prod.mk.inj ran).2
    · rename_i attempt _
      split at ran
      · cases (Prod.mk.inj ran).2
      · rename_i settled computed
        obtain ⟨rfl, _⟩ := Prod.mk.inj ran
        refine ⟨.finish attempt settled, rfl, ?_, ?_⟩
        · cases settled <;> exact nofun
        · intro pending
          rcases verdict_cases computed with ⟨_, rfl⟩ | ⟨_, _, left, _⟩ | ⟨_, _, rfl⟩
          · cases pending
          · exact left
          · cases pending

/-- A turn that failed has written nothing. -/
theorem runClaimed_failed {world : World} {replays after : Replays} {job : ReplayDoc}
    {event : Option StoredEvent} {elapsed : Int} {settledAt : Instant} {error : RunError}
    (ran : runClaimed world casing config replays job event elapsed settledAt =
      (after, .error error)) : after = replays := by
  unfold runClaimed at ran
  split at ran
  · cases (Prod.mk.inj ran).2
  · split at ran
    · exact (Prod.mk.inj ran).1.symm
    · split at ran
      · exact (Prod.mk.inj ran).1.symm
      · cases (Prod.mk.inj ran).2

/-- What one `run_once` can do. -/
inductive RoundEffect (config : ReplayConfig) (before after : Replays) (round : Round) :
    Polled → Prop where
  | raised (result : after = before) : RoundEffect config before after round .failed
  | idle (cutoff : Millis) (computed : leaseCutoff round.now config = some cutoff)
      (nothing : nothingDue (reclaim before cutoff) round.now = true)
      (result : after = reclaim before cutoff) : RoundEffect config before after round .idle
  | worked (cutoff : Millis) (taken : Replays) (job : ReplayDoc) (settlement : Settlement)
      (claimed : take (reclaim before cutoff) round.now round.picked = some (taken, job))
      (settled : settlement.target ≠ .running)
      (again : settlement.target = .pending → (job.attempt : Int) < job.maxAttempts)
      (result : after = settle taken job.id settlement) :
      RoundEffect config before after round .worked
  | failed (cutoff : Millis) (taken : Replays) (job : ReplayDoc)
      (claimed : take (reclaim before cutoff) round.now round.picked = some (taken, job))
      (result : after = taken) : RoundEffect config before after round .failed

/-- Every `run_once` does one of these. -/
theorem runOnce_effect {before after : Replays} {round : Round} {turn : Polled}
    (ran : runOnce casing config before round = some (after, turn)) :
    RoundEffect config before after round turn := by
  unfold runOnce at ran
  split at ran
  · obtain ⟨rfl, rfl⟩ := Prod.mk.inj (Option.some.inj ran)
    exact .raised rfl
  · rename_i cutoff computed
    split at ran
    · rename_i nothing
      obtain ⟨rfl, rfl⟩ := Prod.mk.inj (Option.some.inj ran)
      exact .idle cutoff computed nothing rfl
    · obtain ⟨⟨taken, job⟩, claimed, result⟩ := Option.map_eq_some_iff.mp ran
      dsimp only at result
      split at result
      · rename_i worked
        obtain ⟨rfl, rfl⟩ := Prod.mk.inj result
        obtain ⟨settlement, written, settled, again⟩ := runClaimed_worked worked
        exact .worked cutoff taken job settlement claimed settled again written
      · rename_i failed
        obtain ⟨rfl, rfl⟩ := Prod.mk.inj result
        exact .failed cutoff taken job claimed (runClaimed_failed failed)

/-- A poll lowers the work if it works, and never raises it. -/
theorem runOnce_work {before after : Replays} {round : Round} {turn : Polled}
    (ran : runOnce casing config before round = some (after, turn)) :
    [turn].count .worked + work after ≤ work before := by
  cases runOnce_effect ran with
  | raised result => simp [result]
  | idle cutoff computed nothing result => simp [result, work_reclaim]
  | failed cutoff taken job claimed result =>
    have less := (work_take claimed).2.2.1
    rw [work_reclaim] at less
    simpa [result] using less
  | worked cutoff taken job settlement claimed settled again result =>
    obtain ⟨held, unfinished, less, counted⟩ := work_take claimed
    rw [work_reclaim] at less counted
    obtain ⟨done, retried⟩ := @work_settle taken job settlement held unfinished
    have sum : work after + 1 ≤ work before := by
      rw [result]
      by_cases pending : settlement.target = .pending
      · rw [retried pending]
        exact (counted (again pending)).le
      · exact (done ⟨pending, settled⟩).trans less
    simpa [Nat.add_comm] using sum

/-- The turns that a new job has. -/
def budget (config : ReplayConfig) : Nat := max 1 (config.maxRetries + 1).toNat

/-- The number of jobs that are queued. -/
def queuedCount (happenings : List Happening) : Nat :=
  happenings.countP (fun | .queued _ _ _ _ => true | .poll _ => false)

/-- However long a worker polls, and whatever goes wrong, the polls that work off a turn are
no more than the turns that jobs had at the start and got by being queued, and less by those
that are left.

Induction on what happens: a poll that works takes its turn from the job that it settles. -/
theorem turns_bounded {start final : Replays} {happenings : List Happening} {turns : List Polled}
    (ran : runForever casing config start happenings = some (final, turns)) :
    turns.count .worked + work final ≤ work start + queuedCount happenings * budget config := by
  induction happenings generalizing start turns with
  | nil =>
    obtain ⟨rfl, rfl⟩ := Prod.mk.inj (Option.some.inj ran)
    simp
  | cons first rest inductionHypothesis =>
    obtain ⟨⟨middle, here⟩, happened, continued⟩ := Option.bind_eq_some_iff.mp ran
    obtain ⟨⟨last, later⟩, others, same⟩ := Option.map_eq_some_iff.mp continued
    obtain ⟨rfl, rfl⟩ := Prod.mk.inj same
    have bounded := inductionHypothesis others
    rw [List.count_append]
    cases first with
    | poll round =>
      obtain ⟨⟨after, turn⟩, polled, same⟩ := Option.map_eq_some_iff.mp happened
      obtain ⟨rfl, rfl⟩ := Prod.mk.inj same
      have less := runOnce_work polled
      have count : queuedCount (.poll round :: rest) = queuedCount rest :=
        List.countP_cons_of_neg (by simp)
      dsimp only at bounded less ⊢
      rw [count]
      omega
    | queued id eventId payload now =>
      obtain ⟨after, inserted, same⟩ := Option.map_eq_some_iff.mp happened
      obtain ⟨rfl, rfl⟩ := Prod.mk.inj same
      have more : work after = work start + budget config := by
        refine (Collection.sum_insert inserted remaining).trans ?_
        rw [remaining_open (by simp [ReplayDoc.Finished, enqueued])]
        simp [enqueued, budget, work]
      have count : queuedCount (.queued id eventId payload now :: rest) = queuedCount rest + 1 :=
        List.countP_cons_of_pos rfl
      dsimp only at bounded ⊢
      rw [count, Nat.add_mul]
      simp only [List.count_nil]
      omega

/-! ## What is left -/

/-- Whatever is running was running before, just as it is: no lease was added. -/
def NoNewLease (before after : Replays) : Prop :=
  ∀ replay ∈ after.docs, replay.state = .running → replay ∈ before.docs

/-- So it is over two stretches. -/
theorem NoNewLease.trans {before middle after : Replays} (first : NoNewLease before middle)
    (second : NoNewLease middle after) : NoNewLease before after := by
  intro replay member running
  exact first replay (second replay member running) running

/-- Taking expired leases back adds none. -/
theorem reclaim_noNewLease (replays : Replays) (cutoff : Millis) :
    NoNewLease replays (reclaim replays cutoff) := by
  intro replay member running
  obtain ⟨earlier, old, rfl⟩ := List.mem_map.mp member
  split at running
  · cases running
  · rename_i kept
    rwa [if_neg kept]

/-- What is still running after expired leases were taken back has not expired. -/
theorem reclaim_running {replays : Replays} {cutoff : Millis} {replay : ReplayDoc}
    (member : replay ∈ (reclaim replays cutoff).docs) (running : replay.state = .running) :
    expired cutoff replay = false := by
  obtain ⟨earlier, old, rfl⟩ := List.mem_map.mp member
  split at running
  · cases running
  · rename_i kept
    rw [if_neg kept]
    exact Bool.not_eq_true _ ▸ kept

/-- A poll that does not fail gives back the lease that it takes. -/
theorem runOnce_noNewLease {before after : Replays} {round : Round} {turn : Polled}
    (ran : runOnce casing config before round = some (after, turn)) (whole : turn ≠ .failed) :
    NoNewLease before after := by
  cases runOnce_effect ran with
  | raised result => exact absurd rfl whole
  | failed cutoff taken job claimed result => exact absurd rfl whole
  | idle cutoff computed nothing result => exact result ▸ reclaim_noNewLease before cutoff
  | worked cutoff taken job settlement claimed settled again result =>
    intro replay member running
    obtain ⟨held, _⟩ := work_take claimed
    obtain ⟨stored, _, _, _, rfl, changed⟩ := take_cases claimed
    have found := Collection.find_of_mem member
    rw [result, find_settle] at found
    by_cases same : replay.id = (leased round.now stored).id
    · rw [if_pos same, same, held, Option.map_some] at found
      rw [← Option.some.inj found, settlement.apply_state] at running
      exact absurd running settled
    · rw [if_neg same, changed] at found
      split at found
      · rw [Option.some.inj found] at same
        exact absurd rfl same
      · exact reclaim_noNewLease before cutoff replay (Collection.find_some found).1 running

/-- Nor does a request add one. -/
theorem happen_noNewLease {before after : Replays} {happening : Happening} {turns : List Polled}
    (happened : happen casing config before happening = some (after, turns))
    (whole : .failed ∉ turns) : NoNewLease before after := by
  cases happening with
  | poll round =>
    obtain ⟨⟨later, turn⟩, polled, same⟩ := Option.map_eq_some_iff.mp happened
    obtain ⟨rfl, rfl⟩ := Prod.mk.inj same
    exact runOnce_noNewLease polled (fun failed => whole (failed ▸ List.mem_cons_self))
  | queued id eventId payload now =>
    obtain ⟨grown, inserted, same⟩ := Option.map_eq_some_iff.mp happened
    obtain ⟨rfl, _⟩ := Prod.mk.inj same
    intro replay member running
    rcases (Collection.mem_insert inserted replay).mp member with old | rfl
    · exact old
    · cases running

/-- A worker that meets no exception adds no lease.

Induction on what happens. -/
theorem runForever_noNewLease {start final : Replays} {happenings : List Happening}
    {turns : List Polled} (ran : runForever casing config start happenings = some (final, turns))
    (whole : .failed ∉ turns) : NoNewLease start final := by
  induction happenings generalizing start turns with
  | nil =>
    obtain ⟨rfl, rfl⟩ := Prod.mk.inj (Option.some.inj ran)
    exact fun _ member _ => member
  | cons first rest inductionHypothesis =>
    obtain ⟨⟨after, here⟩, happened, continued⟩ := Option.bind_eq_some_iff.mp ran
    obtain ⟨⟨last, later⟩, others, same⟩ := Option.map_eq_some_iff.mp continued
    obtain ⟨rfl, rfl⟩ := Prod.mk.inj same
    have step := happen_noNewLease happened (fun member => whole (List.mem_append_left _ member))
    exact step.trans (inductionHypothesis others
      (fun member => whole (List.mem_append_right _ member)))

/-- When a worker that met no exception finds nothing to do, every job is finished, waits for
a later time, or has been running since before the start under a lease that has not
expired: the worker itself leaves none behind.

Proof: it adds no lease, and its last poll has taken the expired ones back. -/
theorem idle_leaves_waiting {start middle final : Replays} {happenings : List Happening}
    {turns : List Polled} {round : Round}
    (ran : runForever casing config start happenings = some (middle, turns))
    (whole : .failed ∉ turns)
    (idle : runOnce casing config middle round = some (final, .idle)) :
    ∀ replay ∈ final.docs, replay.Finished ∨
      (replay.state = .pending ∧ toMillis round.now < replay.nextAttemptAt) ∨
      (replay.state = .running ∧ replay ∈ start.docs ∧
        ∃ cutoff, leaseCutoff round.now config = some cutoff ∧ expired cutoff replay = false) := by
  have kept := (runForever_noNewLease ran whole).trans (runOnce_noNewLease idle nofun)
  cases runOnce_effect idle with
  | idle cutoff computed nothing result =>
    subst result
    intro replay member
    cases state : replay.state with
    | running =>
      exact .inr (.inr ⟨rfl, kept replay member state, cutoff, computed,
        reclaim_running member state⟩)
    | success => exact .inl (.inl state)
    | failed => exact .inl (.inr state)
    | pending =>
      have claimed := List.all_eq_true.mp nothing replay member
      refine .inr (.inl ⟨rfl, ?_⟩)
      simpa [claimable, state] using claimed

/-! ## The poll as steps of the queue -/

/-- A worker of the queue that is idle can go on as a poll does: its steps leave the same
collection, and the worker is idle again. -/
theorem runOnce_steps {queue : Queue.State} {worker : Nat} {round : Round} {after : Replays}
    {turn : Polled} (standing : queue.workers worker = .idle) (clock : queue.clock = round.now)
    (later : round.now ≤ round.settledAt)
    (ran : runOnce casing config queue.replays round = some (after, turn)) :
    ∃ labels final, run (Queue.step config) queue labels = some final ∧
      final.replays = after ∧ final.workers worker = .idle := by
  unfold runOnce at ran
  split at ran
  · obtain ⟨rfl, rfl⟩ := Prod.mk.inj (Option.some.inj ran)
    exact ⟨[], queue, rfl, rfl, standing⟩
  · rename_i cutoff computed
    have begun : Queue.step config queue (.begin worker) =
        some (queue.move worker (.claiming round.now cutoff)) := by
      simp only [Queue.step, standing, clock, computed]
    split at ran
    · rename_i nothing
      obtain ⟨rfl, rfl⟩ := Prod.mk.inj (Option.some.inj ran)
      refine ⟨[.begin worker, .reclaim worker, .miss worker], ?_⟩
      rw [run, begun]
      simp [run, Queue.step, Queue.State.move, nothing]
    · obtain ⟨⟨taken, job⟩, claimed, result⟩ := Option.map_eq_some_iff.mp ran
      let claiming : Queue.State :=
        { queue.move worker (.claimed job) with clock := round.settledAt, replays := taken }
      have reached : run (Queue.step config) queue
          [.begin worker, .reclaim worker, .take worker round.picked, .tick round.settledAt] =
          some claiming := by
        rw [run, begun]
        simp [run, Queue.step, Queue.State.move, claimed, clock, later, claiming]
      obtain ⟨labels, final, went, left, idle⟩ := runClaimed_steps round.world casing config
        claiming worker job (by simp [claiming, Queue.State.move]) (round.event job.eventId)
        round.elapsed
      refine ⟨[.begin worker, .reclaim worker, .take worker round.picked,
        .tick round.settledAt] ++ labels, final, ?_, ?_, idle⟩
      · rw [run_append, reached]
        exact went
      · rw [left]
        dsimp only at result
        split at result
        · rename_i worked
          rw [← (Prod.mk.inj result).1]
          exact congrArg Prod.fst worked
        · rename_i failed
          rw [← (Prod.mk.inj result).1]
          exact congrArg Prod.fst failed

end

/-! ## A worker that polls -/

/-- A poll at a time, in which this job is delivered to an address that answers. -/
def answeredAt (id : ObjectId) (now : Instant) : Happening :=
  .poll ⟨now, id, fun _ => some (storedEvent [] []), publicWorld (.ok okAnswer), 0, now⟩

/-- A job is queued and delivered. -/
def oneJob (id : ObjectId) : List Happening :=
  [.queued id ⟨2⟩ ⟨lit "https://example.com/", lit "POST", []⟩ 0, answeredAt id 0]

/-- The collection afterwards, with the turns. -/
def oneTurn : Replays × List Polled :=
  (runForever Casing.ascii {} .empty (oneJob Queue.exampleId)).get (by decide)

theorem oneTurn_ran :
    runForever Casing.ascii {} .empty (oneJob Queue.exampleId) = some (oneTurn.1, oneTurn.2) := by
  have ran : (runForever Casing.ascii {} .empty (oneJob Queue.exampleId)).isSome := by decide
  exact (Option.some_get ran).symm

/-- The job takes one of its four turns. -/
theorem turns_bounded_answered : oneTurn.2 = [.worked] ∧
    oneTurn.2.count .worked + work oneTurn.1 ≤
      work .empty + queuedCount (oneJob Queue.exampleId) * budget {} :=
  ⟨by decide, turns_bounded oneTurn_ran⟩

/-- The same beside a job that another worker has leased. -/
def besideLease : Replays × List Polled :=
  (runForever Casing.ascii {} onlyClaim.1 (oneJob ⟨8⟩)).get (by decide)

theorem besideLease_ran :
    runForever Casing.ascii {} onlyClaim.1 (oneJob ⟨8⟩) =
      some (besideLease.1, besideLease.2) := by
  have ran : (runForever Casing.ascii {} onlyClaim.1 (oneJob ⟨8⟩)).isSome := by decide
  exact (Option.some_get ran).symm

/-- A second poll finds nothing to do: one job is finished, the other still leased. -/
theorem idle_leaves_waiting_answered :
    besideLease.1.docs.map ReplayDoc.state = [.running, .success] ∧
      ∀ replay ∈ besideLease.1.docs, replay.Finished ∨
        (replay.state = .pending ∧ toMillis 5 < replay.nextAttemptAt) ∨
        (replay.state = .running ∧ replay ∈ onlyClaim.1.docs ∧
          ∃ cutoff, leaseCutoff 5 {} = some cutoff ∧ expired cutoff replay = false) := by
  have idle : runOnce Casing.ascii {} besideLease.1
      ⟨5, ⟨8⟩, fun _ => none, publicWorld (.ok okAnswer), 0, 5⟩ = some (besideLease.1, .idle) := by
    rfl
  exact ⟨by decide, idle_leaves_waiting besideLease_ran (by decide) idle⟩

end WebhookInbox.Worker
