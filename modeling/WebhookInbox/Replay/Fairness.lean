import WebhookInbox.Replay.Lease

/-!
# Waiting for a claim

A claim takes the due job whose time came first, and a job that is to be tried again gets
a time in the future. So a job that is due is not passed over for long: until it is
claimed, every other job is claimed at most once, as long as no lease expires.

The invariant is that a job which was claimed meanwhile comes after the waiting one: it is
running, finished, or pending with a later time, and whatever a worker is about to write
for it has a later time too.
-/

namespace WebhookInbox.Queue

open Library Library.Run Calendar Runner Store

/-- The step takes no job back from a worker: no lease is older than its cutoff. -/
def Unexpired (queue : State) : Label → Prop
  | .reclaim worker => ∀ cutoff ∈ (queue.workers worker).cutoff,
      ∀ replay ∈ queue.replays.docs, expired cutoff replay = false
  | _ => True

instance decidableUnexpired (queue : State) (label : Label) : Decidable (Unexpired queue label) :=
  match label with
  | .reclaim worker => inferInstanceAs (Decidable (∀ cutoff ∈ (queue.workers worker).cutoff, _))
  | .tick _ | .enqueue _ _ _ _ | .begin _ | .take _ _ | .miss _ | .lookup _ _ | .deliver _
  | .reply _ _ | .stamp _ | .write _ | .stop _ => isTrue trivial

/-- The job that a step claims. -/
def Label.claims : Label → Option ObjectId
  | .take _ id => some id
  | _ => none

/-- Without expired leases no step takes a job back. -/
theorem Unexpired.kept {queue : State} {worker : Nat} (unexpired : Unexpired queue (.reclaim worker))
    {now : Instant} {cutoff : Millis} (place : queue.workers worker = .claiming now cutoff)
    {id : ObjectId} {replay : ReplayDoc} (found : queue.replays.find id = some replay) :
    expired cutoff replay = false :=
  unexpired cutoff (by rw [place]; rfl) replay (Collection.find_some found).1

/-- A claim takes a job whose time no due job's time comes before. -/
theorem take_first {replays taken : Replays} {now : Instant} {id : ObjectId} {job : ReplayDoc}
    (claimed : take replays now id = some (taken, job)) :
    ∃ replay, replays.find id = some replay ∧ ∀ other ∈ replays.docs,
      Store.claimable now other = true → replay.nextAttemptAt ≤ other.nextAttemptAt := by
  unfold take at claimed
  split at claimed
  · cases claimed
  · rename_i replay found
    split at claimed
    · rename_i chosen
      refine ⟨replay, found, fun other member due => ?_⟩
      have first := List.all_eq_true.mp (Bool.and_eq_true_iff.mp chosen).2 other member
      rwa [due, Bool.not_true, Bool.false_or, decide_eq_true_eq] at first
    · cases claimed

/-! ## Who holds a job -/

/-- A job that a worker holds is running under the worker's claim. -/
def Solo (queue : State) : Prop :=
  ∀ worker replay, (queue.workers worker).held = some replay →
    ∃ stored, queue.replays.find replay.id = some stored ∧ stored.state = .running ∧
      stored.attempt = replay.attempt

/-- Nobody holds a job that is not running. -/
theorem Solo.free {queue : State} (solo : Solo queue) {id : ObjectId} {stored : ReplayDoc}
    (found : queue.replays.find id = some stored) (resting : stored.state ≠ .running) {worker : Nat}
    {replay : ReplayDoc} (holding : (queue.workers worker).held = some replay) :
    replay.id ≠ id := by
  rintro rfl
  obtain ⟨other, located, running, _⟩ := solo worker replay holding
  rw [found] at located
  exact resting (Option.some.inj located ▸ running)

/-- Every step keeps this while no lease expires. -/
theorem step_solo {config : ReplayConfig} {before after : State} {label : Label}
    (numbered : Numbered before) (solo : Solo before) (unexpired : Unexpired before label)
    (taken : step config before label = some after) : Solo after := by
  intro worker replay holding
  rcases step_held taken holding with old | ⟨now, earlier, same, located, marked⟩
  · obtain ⟨stored, found, running, number⟩ := solo worker replay old
    cases step_written taken replay.id with
    | kept _ same => exact ⟨stored, same.trans found, running, number⟩
    | inserted _ _ _ missing =>
      rw [missing] at found
      cases found
    | reclaimed _ _ _ other place located expires =>
      rw [unexpired.kept place located] at expires
      cases expires
    | claimed _ _ other located pending =>
      obtain rfl := Option.some.inj (located.symm.trans found)
      rw [pending] at running
      cases running
    | settled writer held other settlement place job =>
      have writes : (before.workers writer).held = some held := by rw [place]; rfl
      obtain ⟨same, located, _, mine⟩ := solo writer held writes
      rw [job] at located
      obtain rfl := Option.some.inj (located.symm.trans found)
      obtain rfl : worker = writer :=
        numbered.distinct ⟨replay, old, rfl, rfl⟩ ⟨held, writes, job, mine.symm.trans number⟩
      -- The writer is idle now and holds nothing.
      obtain ⟨_, _, _, rfl⟩ := step_write taken
      change ((before.move worker _).workers worker).held = some replay at holding
      rw [move_same] at holding
      cases holding
  · obtain ⟨clock, replays, job, _, claimed, rfl⟩ := step_take (same ▸ taken)
    obtain ⟨found, there, _, _, rfl, changed⟩ := take_cases claimed
    change ((before.move worker _).workers worker).held = some replay at holding
    rw [move_same] at holding
    obtain rfl := Option.some.inj holding
    exact ⟨leased clock found, by simp [changed], rfl, rfl⟩

/-- Idle workers hold nothing. -/
theorem initial_solo (clock : Instant) : Solo (initial clock) := by
  intro worker replay holding
  cases holding

/-! ## The waiting job -/

/-- The job is pending, and its time has come. -/
def Waits (id : ObjectId) (due : Millis) (queue : State) : Prop :=
  due ≤ toMillis queue.clock ∧ ∃ stored, queue.replays.find id = some stored ∧
    stored.state = .pending ∧ stored.nextAttemptAt = due

/-- It waits on unless it is claimed. -/
theorem step_waits {config : ReplayConfig} {before after : State} {label : Label} {id : ObjectId}
    {due : Millis} (solo : Solo before) (waits : Waits id due before)
    (passed : label.claims ≠ some id) (taken : step config before label = some after) :
    Waits id due after := by
  obtain ⟨come, stored, found, pending, time⟩ := waits
  have later : toMillis before.clock ≤ toMillis after.clock :=
    Int.ediv_le_ediv (by decide) (step_clock taken)
  refine ⟨come.trans later, stored, ?_, pending, time⟩
  cases step_written taken id with
  | kept _ same => exact same.trans found
  | inserted _ _ _ missing =>
    rw [missing] at found
    cases found
  | reclaimed _ _ _ other _ located expires =>
    obtain rfl := Option.some.inj (located.symm.trans found)
    rw [expired, pending] at expires
    cases expires
  | claimed => exact absurd rfl passed
  | settled writer held other settlement place job =>
    have resting : stored.state ≠ .running := by
      intro running
      rw [pending] at running
      cases running
    exact absurd job (solo.free found resting (by rw [place]; rfl : _ = some held))

/-! ## The jobs that were claimed meanwhile -/

/-- The job comes after a time: it is pending with a later one if it is, and what workers
are about to write for it has a later one. -/
structure Served (due : Millis) (id : ObjectId) (queue : State) : Prop where
  stored : ∃ stored, queue.replays.find id = some stored ∧
    (stored.state = .pending → due < stored.nextAttemptAt)
  settling : ∀ worker replay attempt next,
    queue.workers worker = .settling replay (.finish attempt (.retry next)) →
      replay.id = id → due < next

/-- What is a second later is stored later. -/
theorem toMillis_later (now : Int) {seconds : Int} (positive : 1 ≤ seconds) :
    toMillis now < toMillis (now + seconds * 1000000) := by
  have later : now / 1000 < (now + seconds * 1000000) / 1000 := by omega
  exact later

/-- A retry comes after the reading of the clock. -/
theorem verdict_later {now : Instant} {replay : ReplayDoc} {attempt : Attempt}
    {config : ReplayConfig} (positive : 1 ≤ config.retryDelaySeconds) {next : Millis}
    (computed : verdict now replay attempt config = some (.retry next)) :
    toMillis now < next := by
  rcases verdict_cases computed with ⟨_, other⟩ | ⟨_, _, _, due, added, same⟩ | ⟨_, _, other⟩
  · cases other
  · obtain rfl := Verdict.retry.inj same
    have power : (1 : Int) ≤ 2 ^ (replay.attempt - 1) := one_le_pow₀ (by decide)
    have delay := mul_le_mul positive power (by decide) (le_trans (by decide) positive)
    rw [addSeconds_eq added]
    exact toMillis_later now delay
  · cases other

/-- What a worker is about to write it was about to write before, or has just read the
clock for. -/
theorem step_settling {config : ReplayConfig} {before after : State} {label : Label}
    (taken : step config before label = some after) {worker : Nat} {replay : ReplayDoc}
    {settlement : Settlement} (standing : after.workers worker = .settling replay settlement) :
    before.workers worker = .settling replay settlement ∨
      (∃ attempt settled, settlement = .finish attempt settled ∧
        verdict before.clock replay attempt config = some settled) ∨
      ∃ reason time, settlement = .abandon reason time := by
  have moved : ∀ mover place, place.settlement = none →
      after.workers = (before.move mover place).workers →
      before.workers worker = .settling replay settlement := by
    intro mover place other workers
    rw [workers] at standing
    by_cases same : worker = mover
    · subst same
      rw [move_same] at standing
      rw [standing] at other
      cases other
    · rwa [move_other before place same] at standing
  cases label with
  | tick now =>
    obtain ⟨_, rfl⟩ := step_tick taken
    exact .inl standing
  | enqueue id eventId payload now =>
    obtain ⟨_, _, rfl⟩ := step_enqueue taken
    exact .inl standing
  | begin mover =>
    rcases step_begin taken with rfl | ⟨_, _, rfl⟩
    · exact .inl standing
    · exact .inl (moved mover _ rfl rfl)
  | reclaim mover =>
    obtain ⟨_, _, _, rfl⟩ := step_reclaim taken
    exact .inl (moved mover _ rfl rfl)
  | take mover id =>
    obtain ⟨_, _, job, _, _, rfl⟩ := step_take taken
    exact .inl (moved mover (.claimed job) rfl rfl)
  | miss mover =>
    obtain rfl := step_miss taken
    exact .inl (moved mover _ rfl rfl)
  | lookup mover present =>
    obtain ⟨_, _, rfl⟩ := step_lookup taken
    exact .inl (moved mover _ (by cases present <;> rfl) rfl)
  | deliver mover =>
    obtain ⟨job, _, rfl⟩ := step_deliver taken
    exact .inl (moved mover (.delivering job) rfl rfl)
  | reply mover attempt =>
    obtain ⟨job, _, rfl⟩ := step_reply taken
    exact .inl (moved mover (.delivered job attempt) rfl rfl)
  | stamp mover =>
    by_cases same : worker = mover
    · subst same
      obtain ⟨place, computed, rfl⟩ := Option.map_eq_some_iff.mp taken
      rw [move_same] at standing
      simp only [stamped] at computed
      split at computed
      · rename_i job attempt here
        cases settled : verdict before.clock job attempt config with
        | none =>
          rw [settled] at computed
          obtain rfl := Option.some.inj computed
          cases standing
        | some branch =>
          rw [settled] at computed
          obtain rfl := Option.some.inj computed
          obtain ⟨rfl, rfl⟩ := Worker.settling.inj standing
          exact .inr (.inl ⟨attempt, branch, rfl, settled⟩)
      · obtain rfl := Option.some.inj computed
        obtain ⟨rfl, rfl⟩ := Worker.settling.inj standing
        exact .inr (.inr ⟨_, _, rfl⟩)
      · cases computed
    · obtain ⟨place, _, rfl⟩ := Option.map_eq_some_iff.mp taken
      rw [move_other before _ same] at standing
      exact .inl standing
  | write mover =>
    obtain ⟨_, _, _, rfl⟩ := step_write taken
    exact .inl (moved mover _ rfl rfl)
  | stop mover =>
    obtain rfl := Option.some.inj taken
    exact .inl (moved mover _ rfl rfl)

/-- A job that comes later goes on to do so while no lease expires. -/
theorem step_served {config : ReplayConfig} (positive : 1 ≤ config.retryDelaySeconds)
    {before after : State} {label : Label} {id : ObjectId} {due : Millis}
    (come : due ≤ toMillis before.clock) (served : Served due id before)
    (unexpired : Unexpired before label) (taken : step config before label = some after) :
    Served due id after := by
  constructor
  · obtain ⟨stored, found, later⟩ := served.stored
    cases step_written taken id with
    | kept _ same => exact ⟨stored, same.trans found, later⟩
    | inserted _ _ _ missing =>
      rw [missing] at found
      cases found
    | reclaimed _ _ _ other place located expires =>
      rw [unexpired.kept place located] at expires
      cases expires
    | claimed _ now other _ _ result => exact ⟨leased now other, result, nofun⟩
    | settled writer held other settlement place job _ result =>
      refine ⟨_, result, fun pending => ?_⟩
      cases settlement with
      | abandon reason time => cases pending
      | finish attempt settled =>
        cases settled with
        | success time => cases pending
        | failed time => cases pending
        | retry next => exact served.settling writer held attempt next place job
  · intro worker replay attempt next standing job
    rcases step_settling taken standing with old | ⟨other, settled, same, computed⟩ | ⟨_, _, other⟩
    · exact served.settling worker replay attempt next old job
    · obtain ⟨rfl, rfl⟩ := Settlement.finish.inj same
      exact lt_of_le_of_lt come (verdict_later positive computed)
    · cases other

/-- A job that is claimed comes later from then on. -/
theorem served_take {config : ReplayConfig} {before after : State} {worker : Nat} {id : ObjectId}
    {due : Millis} (solo : Solo before) (taken : step config before (.take worker id) = some after) :
    Served due id after := by
  obtain ⟨now, replays, job, _, claimed, rfl⟩ := step_take taken
  obtain ⟨stored, found, pending, _, rfl, changed⟩ := take_cases claimed
  have resting : stored.state ≠ .running := by
    rw [pending]
    exact nofun
  refine ⟨⟨leased now stored, by simp [changed], nofun⟩, ?_⟩
  intro other replay attempt next standing same
  have place : (before.move worker (.claimed (leased now stored))).workers other =
      .settling replay (.finish attempt (.retry next)) := standing
  by_cases here : other = worker
  · subst here
    rw [move_same] at place
    cases place
  · rw [move_other before _ here] at place
    exact absurd same (solo.free found resting (by rw [place]; rfl : _ = some replay))

/-- It is not claimed again while the other job waits. -/
theorem served_passed {config : ReplayConfig} {before after : State} {worker : Nat}
    {id waiting : ObjectId} {due : Millis} (waits : Waits waiting due before)
    (served : Served due id before) :
    step config before (.take worker id) ≠ some after := by
  intro taken
  obtain ⟨now, replays, job, _, claimed, _⟩ := step_take taken
  obtain ⟨stored, found, pending, come, _⟩ := take_cases claimed
  obtain ⟨first, located, least⟩ := take_first claimed
  obtain rfl := Option.some.inj (located.symm.trans found)
  obtain ⟨other, same, later⟩ := served.stored
  obtain rfl := Option.some.inj (same.symm.trans found)
  obtain ⟨_, queued, there, waitingState, time⟩ := waits
  have after := later pending
  have isDue : Store.claimable now queued = true := by
    have soon : queued.nextAttemptAt ≤ toMillis now := time ▸ (le_of_lt after).trans come
    simp [Store.claimable, waitingState, soon]
  have before := least queued (Collection.find_some there).1 isDue
  exact absurd after (not_lt.mpr (time ▸ before))

/-! ## Runs -/

/-- While a job waits, no job that comes after it is claimed, and none is claimed twice. -/
theorem run_served {config : ReplayConfig} (positive : 1 ≤ config.retryDelaySeconds)
    {waiting : ObjectId} {due : Millis} {labels : List Label} {start final : State}
    (numbered : Numbered start) (solo : Solo start) (waits : Waits waiting due start)
    (unexpired : Along (step config) Unexpired start labels)
    (ran : run (step config) start labels = some final)
    (passed : waiting ∉ labels.filterMap Label.claims) :
    (labels.filterMap Label.claims).Nodup ∧
      ∀ id, Served due id start → id ∉ labels.filterMap Label.claims := by
  induction labels generalizing start with
  | nil => exact ⟨List.nodup_nil, fun _ _ => List.not_mem_nil⟩
  | cons label rest inductionHypothesis =>
    obtain ⟨next, taken, continued⟩ := run_cons_some _ ran
    have other : label.claims ≠ some waiting := by
      intro same
      exact passed (by simp [same])
    have passedRest : waiting ∉ rest.filterMap Label.claims := by
      intro member
      exact passed (List.mem_filterMap.mpr (by
        obtain ⟨later, there, same⟩ := List.mem_filterMap.mp member
        exact ⟨later, List.mem_cons_of_mem _ there, same⟩))
    obtain ⟨once, never⟩ := inductionHypothesis (step_numbered numbered taken)
      (step_solo numbered solo unexpired.1 taken) (step_waits solo waits other taken)
      (unexpired.2 next taken) continued passedRest
    have kept : ∀ id, Served due id start → id ∉ rest.filterMap Label.claims :=
      fun id served => never id (step_served positive waits.1 served unexpired.1 taken)
    cases claimed : label.claims with
    | none =>
      rw [List.filterMap_cons_none claimed]
      exact ⟨once, kept⟩
    | some id =>
      rw [List.filterMap_cons_some claimed]
      have take : ∃ worker, label = .take worker id := by
        cases label with
        | take worker target => exact ⟨worker, by rw [Option.some.inj claimed]⟩
        | _ => cases claimed
      obtain ⟨worker, rfl⟩ := take
      refine ⟨List.nodup_cons.mpr ⟨never id (served_take solo taken), once⟩, ?_⟩
      intro earlier served member
      rcases List.mem_cons.mp member with rfl | later
      · exact served_passed waits served taken
      · exact kept earlier served later

/-- Documents stay. -/
theorem run_grows {config : ReplayConfig} {labels : List Label} {start final : State}
    (ran : run (step config) start labels = some final) {id : ObjectId}
    (stored : (start.replays.find id).isSome = true) :
    (final.replays.find id).isSome = true := by
  refine @run_preserves _ _ (step config) (fun queue => (queue.replays.find id).isSome = true) ?_
    _ _ _ ran stored
  intro before label after present taken
  obtain ⟨doc, found⟩ := Option.isSome_iff_exists.mp present
  obtain ⟨later, kept, _⟩ := step_grows taken found
  rw [kept]
  rfl

/-- A job that is claimed in a run is stored at its end. -/
theorem run_claimed {config : ReplayConfig} {labels : List Label} {start final : State}
    (ran : run (step config) start labels = some final) {id : ObjectId}
    (claimed : id ∈ labels.filterMap Label.claims) :
    (final.replays.find id).isSome = true := by
  induction labels generalizing start with
  | nil => cases claimed
  | cons label rest inductionHypothesis =>
    obtain ⟨next, taken, continued⟩ := run_cons_some _ ran
    cases here : label.claims with
    | none =>
      rw [List.filterMap_cons_none here] at claimed
      exact inductionHypothesis continued claimed
    | some first =>
      rw [List.filterMap_cons_some here] at claimed
      rcases List.mem_cons.mp claimed with rfl | later
      · cases label with
        | take worker target =>
          obtain rfl := Option.some.inj here
          obtain ⟨_, _, _, _, taken', rfl⟩ := step_take taken
          obtain ⟨_, _, _, _, _, changed⟩ := take_cases taken'
          exact run_grows continued (by simp [changed])
        | _ => cases here
      · exact inductionHypothesis continued later

/-- A job that is due waits for each other job at most once: however many workers poll, from
the moment on in which its time has come until it is claimed no job is claimed twice, so
fewer jobs are claimed before it than there are. Retries are to come later than at once, and
no lease may expire.

Proof: a job that is claimed meanwhile is running until its worker writes, and then pending
with a time after the moment in which the waiting one was due. -/
theorem due_overtaken_once (config : ReplayConfig) (start : Instant)
    (positive : 1 ≤ config.retryDelaySeconds) {before after : List Label} {reached final : State}
    {waiting : ReplayDoc} (ran : run (step config) (initial start) before = some reached)
    (continued : run (step config) reached after = some final)
    (unexpired : Along (step config) Unexpired (initial start) (before ++ after))
    (found : reached.replays.find waiting.id = some waiting) (pending : waiting.state = .pending)
    (due : waiting.nextAttemptAt ≤ toMillis reached.clock)
    (passed : waiting.id ∉ after.filterMap Label.claims) :
    (after.filterMap Label.claims).Nodup ∧
      (after.filterMap Label.claims).length < final.replays.docs.length := by
  obtain ⟨unexpiredBefore, unexpiredAfter⟩ := (along_append (step config) ran).mp unexpired
  have sound : Numbered reached ∧ Solo reached :=
    @run_invariant _ _ (step config) Unexpired (fun queue => Numbered queue ∧ Solo queue)
      (fun _ _ _ holds condition taken =>
        ⟨step_numbered holds.1 taken, step_solo holds.1 holds.2 condition taken⟩)
      _ _ _ unexpiredBefore ran ⟨initial_numbered start, initial_solo start⟩
  have once := (run_served positive sound.1 sound.2 ⟨due, waiting, found, pending, rfl⟩
    unexpiredAfter continued passed).1
  refine ⟨once, ?_⟩
  have inside : waiting.id :: after.filterMap Label.claims ⊆
      final.replays.docs.map ReplayDoc.id := by
    intro id member
    have present : (final.replays.find id).isSome = true := by
      rcases List.mem_cons.mp member with rfl | claimed
      · exact run_grows continued (by rw [found]; rfl)
      · exact run_claimed continued claimed
    obtain ⟨doc, located⟩ := Option.isSome_iff_exists.mp present
    obtain ⟨there, rfl⟩ := Collection.find_some located
    exact List.mem_map_of_mem there
  have few := (List.subperm_of_subset (List.nodup_cons.mpr ⟨passed, once⟩) inside).length_le
  rw [List.length_cons, List.length_map] at few
  omega

/-- Two jobs are queued, and two workers poll. The first job fails and is queued again
while the second one waits. -/
def contended : List Label :=
  enqueueLabels ++ [.enqueue ⟨3⟩ ⟨2⟩ ⟨lit "https://example.com/", lit "POST", []⟩ 0] ++
    [.begin 0, .reclaim 0, .begin 1, .reclaim 1]

/-- The first job is claimed, fails, and is not claimed again. -/
def passing : List Label :=
  [.take 0 exampleId, .lookup 0 true, .deliver 0] ++ finishLabels 0 failedAttempt

/-- The state with both jobs queued. -/
def bothQueued : State := (run (step {}) (initial 0) contended).get (by decide)

/-- The state in which the first one has failed once. -/
def firstFailed : State := (run (step {}) bothQueued passing).get (by decide)

/-- The second job. -/
def secondJob : ReplayDoc := (bothQueued.replays.find ⟨3⟩).get (by decide)

/-- The first job is claimed once while the second one waits. -/
theorem due_overtaken_once_contended :
    passing.filterMap Label.claims = [exampleId] ∧ (passing.filterMap Label.claims).Nodup ∧
      (passing.filterMap Label.claims).length < firstFailed.replays.docs.length := by
  have located : bothQueued.replays.find ⟨3⟩ = some secondJob := (Option.some_get _).symm
  have found : bothQueued.replays.find secondJob.id = some secondJob := by
    rw [(Collection.find_some located).2]
    exact located
  exact ⟨by decide, due_overtaken_once {} 0 (by decide) (Option.some_get _).symm
    (Option.some_get _).symm (by decide) found (by decide) (by decide) (by decide)⟩

end WebhookInbox.Queue
