import WebhookInbox.Replay.Lease
import Mathlib.Data.List.Perm.Subperm

/-!
# The delivery budget

A job may be attempted `max_attempts` times. `finish` checks this before it makes
a job pending again, but on the document that was claimed; reclaiming does not
check it at all. `Affordable` is the condition that neither way back spends more
than the budget. In runs that meet it no job exceeds its budget, and since each
claim is delivered at most once, neither do its deliveries.
-/

namespace WebhookInbox.Queue

open Library Library.Run Calendar Runner Store

/-! ## Deliveries are counted by claims -/

/-- Each claim was delivered at most once, and only a claim that was made. -/
structure Counted (queue : State) : Prop where
  once : queue.sent.Nodup
  claimed : ∀ entry ∈ queue.sent, ∃ stored, queue.replays.find entry.1 = some stored ∧
    1 ≤ entry.2 ∧ entry.2 ≤ stored.attempt
  fresh : ∀ {worker replay}, (queue.workers worker).undelivered = some replay →
    (replay.id, replay.attempt) ∉ queue.sent

/-- An undelivered claim is held. -/
theorem held_of_undelivered {place : Worker} {replay : ReplayDoc}
    (waiting : place.undelivered = some replay) : place.held = some replay := by
  cases place <;> first | exact waiting | cases waiting

/-- Deliveries stay counted by claims if the numbers of the claims only grow. -/
theorem Counted.claimed_grows {before after : State} (counted : Counted before)
    (grows : ∀ id stored, before.replays.find id = some stored →
      ∃ later, after.replays.find id = some later ∧ stored.attempt ≤ later.attempt)
    {entry : ObjectId × Nat} (member : entry ∈ before.sent) :
    ∃ later, after.replays.find entry.1 = some later ∧
      1 ≤ entry.2 ∧ entry.2 ≤ later.attempt := by
  obtain ⟨stored, found, positive, bounded⟩ := counted.claimed entry member
  obtain ⟨later, kept, grown⟩ := grows _ stored found
  exact ⟨later, kept, positive, bounded.trans grown⟩

/-- The record stays right where no delivery began and nobody gained a claim. -/
theorem Counted.kept {before after : State} (counted : Counted before)
    (sent : after.sent = before.sent)
    (undelivered : ∀ worker, (after.workers worker).undelivered = none ∨
      (after.workers worker).undelivered = (before.workers worker).undelivered)
    (grows : ∀ id stored, before.replays.find id = some stored →
      ∃ later, after.replays.find id = some later ∧ stored.attempt ≤ later.attempt) :
    Counted after := by
  constructor
  · rw [sent]
    exact counted.once
  · intro entry member
    rw [sent] at member
    exact counted.claimed_grows grows member
  · intro worker replay waiting
    rcases undelivered worker with none | same
    · rw [none] at waiting
      cases waiting
    · rw [sent]
      exact counted.fresh (same ▸ waiting)

/-- A delivery uses up its claim, which nobody else holds. -/
theorem Counted.delivering {before : State} (numbered : Numbered before)
    (counted : Counted before) {worker : Nat} {replay : ReplayDoc}
    (place : before.workers worker = .found replay) :
    Counted { before.move worker (.delivering replay) with
      sent := before.sent ++ [(replay.id, replay.attempt)] } := by
  have waiting : (before.workers worker).undelivered = some replay := by
    rw [place]
    rfl
  constructor
  · refine List.nodup_append.mpr ⟨counted.once, List.nodup_singleton _, ?_⟩
    intro entry old last isLast same
    rw [List.mem_singleton] at isLast
    exact counted.fresh waiting (isLast ▸ same ▸ old)
  · intro entry member
    rcases List.mem_append.mp member with old | new
    · exact counted.claimed entry old
    · rw [List.mem_singleton] at new
      subst new
      exact numbered.latest (held_of_undelivered waiting)
  · intro other held stillWaiting
    change ((before.move worker _).workers other).undelivered = some held at stillWaiting
    by_cases same : other = worker
    · subst same
      rw [move_same] at stillWaiting
      cases stillWaiting
    · rw [move_other before _ same] at stillWaiting
      intro member
      rcases List.mem_append.mp member with old | new
      · exact counted.fresh stillWaiting old
      · rw [List.mem_singleton, Prod.mk.injEq] at new
        exact same (numbered.distinct ⟨held, held_of_undelivered stillWaiting, new.1, new.2⟩
          ⟨replay, held_of_undelivered waiting, rfl, rfl⟩)

/-- A new claim has a number above all numbers on record. -/
theorem Counted.taken {before : State} (counted : Counted before) {worker : Nat}
    {target : ObjectId} {now : Instant} {replays : Replays} {job : ReplayDoc}
    (claimed : take before.replays now target = some (replays, job))
    (grows : ∀ id stored, before.replays.find id = some stored →
      ∃ later, replays.find id = some later ∧ stored.attempt ≤ later.attempt) :
    Counted { before.move worker (.claimed job) with replays := replays } := by
  obtain ⟨replay, located, _, _, rfl, _⟩ := take_cases claimed
  constructor
  · exact counted.once
  · intro entry member
    exact counted.claimed_grows grows member
  · intro other held waiting
    change ((before.move worker _).workers other).undelivered = some held at waiting
    by_cases same : other = worker
    · subst same
      rw [move_same] at waiting
      obtain rfl := Option.some.inj waiting
      intro member
      obtain ⟨stored, found, _, bounded⟩ := counted.claimed _ member
      change before.replays.find replay.id = some stored at found
      rw [(Collection.find_some located).2, located] at found
      obtain rfl := Option.some.inj found
      exact absurd bounded (Nat.not_succ_le_self _)
    · rw [move_other before _ same] at waiting
      exact counted.fresh waiting

/-- Every step keeps the record of deliveries right. -/
theorem step_counted {config : ReplayConfig} {before after : State} {label : Label}
    (numbered : Numbered before) (counted : Counted before)
    (taken : step config before label = some after) : Counted after := by
  have grows : ∀ id stored, before.replays.find id = some stored →
      ∃ later, after.replays.find id = some later ∧ stored.attempt ≤ later.attempt :=
    fun id stored found => step_grows taken found
  cases step_effect taken with
  | quiet _ _ _ sent _ undelivered => exact counted.kept sent undelivered grows
  | enqueued _ _ _ _ _ _ result =>
    exact counted.kept (by rw [result]) (fun worker => .inr (by rw [result])) grows
  | reclaimed worker _ _ _ result =>
    refine counted.kept (by rw [result]; rfl) ?_ grows
    rw [result]
    exact undelivered_move_kept before worker _ (.inl rfl)
  | settled worker _ _ _ result =>
    refine counted.kept (by rw [result]; rfl) ?_ grows
    rw [result]
    exact undelivered_move_kept before worker _ (.inl rfl)
  | delivering worker replay place result =>
    subst result
    exact counted.delivering numbered place
  | taken worker target now replays job _ claimed result =>
    subst result
    exact counted.taken claimed grows

/-- Nothing is on record at the start. -/
theorem initial_counted (clock : Instant) : Counted (initial clock) := by
  refine ⟨List.nodup_nil, ?_, ?_⟩
  · intro entry member
    cases member
  · intro worker replay waiting
    cases waiting

/-- How often a job was delivered. -/
def deliveries (queue : State) (id : ObjectId) : Nat :=
  (queue.sent.filter (fun entry => decide (entry.1 = id))).length

/-- A job was delivered at most as often as it was claimed. -/
theorem Counted.deliveries_le {queue : State} (counted : Counted queue) {id : ObjectId}
    {stored : ReplayDoc} (found : queue.replays.find id = some stored) :
    deliveries queue id ≤ stored.attempt := by
  have ofJob : ∀ entry ∈ queue.sent.filter (fun entry => decide (entry.1 = id)),
      entry.1 = id ∧ entry ∈ queue.sent := by
    intro entry member
    obtain ⟨old, same⟩ := List.mem_filter.mp member
    exact ⟨of_decide_eq_true same, old⟩
  have distinct : ((queue.sent.filter (fun entry => decide (entry.1 = id))).map Prod.snd).Nodup := by
    refine List.Nodup.map_on ?_ (counted.once.filter _)
    intro first firstMember second secondMember same
    exact Prod.ext ((ofJob first firstMember).1.trans (ofJob second secondMember).1.symm) same
  have inside : (queue.sent.filter (fun entry => decide (entry.1 = id))).map Prod.snd ⊆
      List.range' 1 stored.attempt := by
    intro number member
    obtain ⟨entry, listed, rfl⟩ := List.mem_map.mp member
    obtain ⟨sameJob, old⟩ := ofJob entry listed
    obtain ⟨other, otherFound, positive, bounded⟩ := counted.claimed entry old
    rw [sameJob, found] at otherFound
    obtain rfl := Option.some.inj otherFound
    rw [List.mem_range'_1]
    omega
  have counts := (distinct.subperm inside).length_le
  rwa [List.length_map, List.length_range'] at counts

/-! ## Ways back that stay within the budget -/

/-- This step does not make the job pending again once its attempts are used up. -/
def Affordable (id : ObjectId) (queue : State) : Label → Prop
  | .reclaim worker =>
      ∀ cutoff ∈ (queue.workers worker).cutoff, ∀ stored ∈ queue.replays.find id,
        expired cutoff stored = true → (stored.attempt : Int) < stored.maxAttempts
  | .write worker =>
      ∀ written ∈ (queue.workers worker).settlement, written.1.id = id →
        written.2.target = .pending →
          ∀ stored ∈ queue.replays.find id, (stored.attempt : Int) < stored.maxAttempts
  | _ => True

instance decidableAffordable (id : ObjectId) (queue : State) (label : Label) :
    Decidable (Affordable id queue label) :=
  match label with
  | .reclaim _ | .write _ => by
      dsimp only [Affordable]
      infer_instance
  | .tick _ | .enqueue _ _ _ _ | .begin _ | .take _ _ | .miss _ | .lookup _ _ | .deliver _
  | .reply _ _ | .stamp _ | .stop _ => isTrue trivial

/-- The budget of a document: its bound comes from the configuration, its
attempts are within it, and while it is pending one more is. -/
structure InBudget (config : ReplayConfig) (stored : ReplayDoc) : Prop where
  bound : stored.maxAttempts = config.maxRetries + 1
  spent : (stored.attempt : Int) ≤ stored.maxAttempts
  left : stored.state = .pending → (stored.attempt : Int) < stored.maxAttempts

/-- Affordable steps keep a job within its budget. -/
theorem step_inBudget {config : ReplayConfig} {before after : State} {label : Label}
    {id : ObjectId} (nonneg : 0 ≤ config.maxRetries)
    (budget : ∀ stored, before.replays.find id = some stored → InBudget config stored)
    (affordable : Affordable id before label) (taken : step config before label = some after) :
    ∀ stored, after.replays.find id = some stored → InBudget config stored := by
  intro stored found
  cases step_written taken id with
  | kept _ same => exact budget stored (same.symm.trans found)
  | inserted _ _ _ _ result =>
    obtain rfl := Option.some.inj (result.symm.trans found)
    refine ⟨rfl, ?_, fun _ => ?_⟩ <;> simp only [enqueued] <;> omega
  | reclaimed worker now cutoff replay place located old result =>
    obtain rfl := Option.some.inj (result.symm.trans found)
    obtain ⟨bound, spent, _⟩ := budget replay located
    have more := affordable cutoff (by rw [place]; rfl) replay located old
    exact ⟨bound, spent, fun _ => more⟩
  | claimed worker now replay located pending result =>
    obtain rfl := Option.some.inj (result.symm.trans found)
    obtain ⟨bound, _, left⟩ := budget replay located
    have more := left pending
    refine ⟨bound, ?_, ?_⟩
    · simp only [leased]
      omega
    · intro isPending
      cases isPending
  | settled worker held replay settlement place job located result =>
    obtain rfl := Option.some.inj (result.symm.trans found)
    obtain ⟨bound, spent, _⟩ := budget replay located
    refine ⟨by simpa using bound, by simpa using spent, ?_⟩
    intro pending
    have more := affordable (held, settlement) (by rw [place]; rfl) job
      (by simpa using pending) replay located
    simpa using more

/-- In a run of affordable steps no job exceeds its budget, in attempts or in
deliveries.

Proof: attempts are bounded step by step, and deliveries are bounded by them. -/
theorem budget_kept (config : ReplayConfig) (start : Instant) (id : ObjectId)
    (nonneg : 0 ≤ config.maxRetries) {labels : List Label} {reached : State} {doc : ReplayDoc}
    (ran : run (step config) (initial start) labels = some reached)
    (affordable : Along (step config) (Affordable id) (initial start) labels)
    (found : reached.replays.find id = some doc) :
    doc.maxAttempts = config.maxRetries + 1 ∧ (doc.attempt : Int) ≤ doc.maxAttempts ∧
      (deliveries reached id : Int) ≤ doc.maxAttempts := by
  have budgetPreserved : ∀ state label next,
      (∀ stored, state.replays.find id = some stored → InBudget config stored) →
      Affordable id state label → step config state label = some next →
      ∀ stored, next.replays.find id = some stored → InBudget config stored :=
    fun _ _ _ budget condition taken => step_inBudget nonneg budget condition taken
  have countPreserved : ∀ state label next, Numbered state ∧ Counted state →
      step config state label = some next → Numbered next ∧ Counted next :=
    fun _ _ _ holds taken => ⟨step_numbered holds.1 taken, step_counted holds.1 holds.2 taken⟩
  obtain ⟨bound, spent, _⟩ := run_invariant (step config) budgetPreserved affordable ran
    (fun _ absent => by cases absent) doc found
  have counted := (run_preserves (step config) countPreserved ran
    ⟨initial_numbered start, initial_counted start⟩).2
  have delivered := counted.deliveries_le found
  refine ⟨bound, spent, ?_⟩
  omega

/-- With one retry a failed delivery is repeated once. -/
def retried : State :=
  (run (step { maxRetries := 1 }) (initial 0) (enqueueLabels ++ startLabels 0 exampleId ++
    finishLabels 0 failedAttempt ++ [.tick 2000000] ++ startLabels 1 exampleId ++
    finishLabels 1 failedAttempt)).get (by decide)

/-- Both attempts of the job are within its budget of two. -/
theorem budget_kept_retried : (deliveries retried exampleId : Int) ≤ 2 :=
  (budget_kept { maxRetries := 1 } 0 exampleId (by decide) (Option.some_get _).symm (by decide)
    (Option.some_get (by decide : (retried.replays.find exampleId).isSome)).symm).2.2

/-- A worker stops in its only attempt, and the job is taken back and delivered
once more. -/
def overspent : State :=
  (run (step { maxRetries := 0 }) (initial 0) (enqueueLabels ++ startLabels 0 exampleId ++
    [.stop 0, .tick 61000000] ++ startLabels 0 exampleId)).get (by decide)

/-- Without the condition a job without retries is delivered twice. -/
theorem budget_exceeded :
    ¬ ∀ (config : ReplayConfig) (start : Instant) (id : ObjectId) (labels : List Label)
      (reached : State) (doc : ReplayDoc), 0 ≤ config.maxRetries →
      run (step config) (initial start) labels = some reached →
      reached.replays.find id = some doc →
      (doc.attempt : Int) ≤ doc.maxAttempts ∧ (deliveries reached id : Int) ≤ doc.maxAttempts := by
  intro claimed
  have bounded := claimed { maxRetries := 0 } 0 exampleId _ overspent
    ((overspent.replays.find exampleId).get (by decide)) (by decide)
    (Option.some_get _).symm (Option.some_get _).symm
  revert bounded
  decide

end WebhookInbox.Queue
