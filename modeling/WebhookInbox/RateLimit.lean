import WebhookInbox.Library.Dict
import WebhookInbox.Library.Text
import WebhookInbox.Library.TokenBucket

/-!
# The rate limiter

One token bucket for each key, in a dictionary from which idle buckets are dropped once
a minute. Times are rational seconds.

`Follows` relates the dictionary to a bucket of one key that is never dropped: either
the dictionary has it, or it had time to fill up. A call for the key keeps the relation
and decides as that bucket does; a call for another key keeps it as well. What
`retry_after` answers is the waiting time of that bucket, rounded up (`retryAfter_honest`).
-/

namespace WebhookInbox.RateLimit

open Library Library.TokenBucket

/-- `PRUNE_INTERVAL` -/
def pruneInterval : ℚ := 60

/-- A `RateLimiter` with its state. -/
structure RateLimiter where
  enabled : Bool
  capacity : ℚ
  rate : ℚ
  buckets : Dict Str (Bucket ℚ)
  prunedAt : ℚ

/-- `RateLimiter(per_minute, enabled)` -/
def RateLimiter.new (perMinute : Int) (enabled : Bool := true) : RateLimiter where
  enabled := enabled && decide (0 < perMinute)
  capacity := perMinute
  rate := perMinute / 60
  buckets := []
  prunedAt := 0

/-- `_prune(now)` -/
def RateLimiter.prune (limiter : RateLimiter) (now : ℚ) : RateLimiter :=
  if now - limiter.prunedAt < pruneInterval then limiter
  else
    let idleLimit := if limiter.rate ≠ 0 then limiter.capacity / limiter.rate else pruneInterval
    { limiter with
      prunedAt := now
      buckets := limiter.buckets.filter (fun item => decide (now - item.2.updated < idleLimit)) }

/-- `allow(key, now)`, with the limiter after it. -/
def RateLimiter.allow (limiter : RateLimiter) (key : Str) (now : ℚ) : Bool × RateLimiter :=
  if limiter.enabled = false then (true, limiter)
  else
    let pruned := limiter.prune now
    let bucket := (pruned.buckets.get key).getD (fresh pruned.capacity now)
    let (allowed, next) := offer pruned.capacity pruned.rate bucket now
    (allowed, { pruned with buckets := pruned.buckets.set key next })

/-- `int(value)` drops the fraction. -/
def truncate (value : ℚ) : Int := value.num.tdiv value.den

/-- `retry_after(key, now)`. The time does not matter. -/
def RateLimiter.retryAfter (limiter : RateLimiter) (key : Str) (_now : ℚ) : Int :=
  match limiter.buckets.get key with
  | none => 1
  | some bucket =>
      if limiter.enabled = false then 1
      else
        let missing := max 0 (1 - bucket.tokens)
        max 1 (truncate (missing / limiter.rate) + 1)

/-- The limiter after these calls. -/
def RateLimiter.after (limiter : RateLimiter) (calls : List (Str × ℚ)) : RateLimiter :=
  calls.foldl (fun limiter call => (limiter.allow call.1 call.2).2) limiter

/-- What `allow` returns on these calls, one after another. -/
def RateLimiter.decisions : RateLimiter → List (Str × ℚ) → List Bool
  | _, [] => []
  | limiter, (key, now) :: rest =>
      let (allowed, next) := limiter.allow key now
      allowed :: next.decisions rest

/-- A limiter without a rate does not limit. -/
theorem allow_disabled {limiter : RateLimiter} (disabled : limiter.enabled = false) (key : Str)
    (now : ℚ) : limiter.allow key now = (true, limiter) := by
  rw [RateLimiter.allow, if_pos disabled]

/-- Of the decisions on some calls, the times and decisions of those for a key. -/
def ofKey (key : Str) (calls : List (Str × ℚ)) (verdicts : List Bool) : List (ℚ × Bool) :=
  ((calls.zip verdicts).filter (fun call => decide (call.1.1 = key))).map
    (fun call => (call.1.2, call.2))

/-- The times of the calls for a key. -/
def timesOf (key : Str) (calls : List (Str × ℚ)) : List ℚ :=
  (calls.filter (fun call => decide (call.1 = key))).map Prod.snd

/-! ## One call -/

/-- The limiter works with this many calls a minute. -/
structure Sound (perMinute : Int) (limiter : RateLimiter) : Prop where
  enabled : limiter.enabled = true
  capacity : limiter.capacity = perMinute
  rate : limiter.rate = perMinute / 60
  distinct : (limiter.buckets.map Prod.fst).Nodup

/-- A bucket that is never dropped agrees with the dictionary: it is there, or it had
time to fill up. -/
structure Follows (perMinute : Int) (key : Str) (now : ℚ) (limiter : RateLimiter)
    (bucket : Option (Bucket ℚ)) : Prop where
  within : ∀ held ∈ bucket, held.Within (perMinute : ℚ)
  past : ∀ held ∈ bucket, held.updated ≤ now
  kept : limiter.buckets.get key = bucket ∨
    limiter.buckets.get key = none ∧ ∀ held ∈ bucket, 60 ≤ now - held.updated

section
variable {perMinute : Int} {limiter : RateLimiter} {key other : Str} {now later : ℚ}
  {bucket : Option (Bucket ℚ)}

/-- Pruning drops what was idle for a minute. -/
theorem prune_get (positive : 1 ≤ perMinute) (sound : Sound perMinute limiter) (now : ℚ)
    (key : Str) :
    (limiter.prune now).buckets.get key = limiter.buckets.get key ∨
      (limiter.prune now).buckets.get key = none ∧
        ∀ held ∈ limiter.buckets.get key, 60 ≤ now - held.updated := by
  have filled : (0 : ℚ) < perMinute := by exact_mod_cast positive
  have rate : (perMinute : ℚ) / 60 ≠ 0 := by positivity
  have idle : (perMinute : ℚ) / (perMinute / 60) = 60 := by field_simp
  unfold RateLimiter.prune
  split
  · exact .inl rfl
  · simp only [sound.rate, sound.capacity, ne_eq, rate, not_false_eq_true, ↓reduceIte, idle,
      Dict.get_filter sound.distinct]
    cases limiter.buckets.get key with
    | none => exact .inl rfl
    | some held =>
      by_cases recent : now - held.updated < 60
      · exact .inl (by simp [Option.filter_some, recent])
      · refine .inr ⟨by simp [Option.filter_some, recent], ?_⟩
        rintro _ ⟨⟩
        exact not_lt.mp recent

/-- Pruning keeps the limiter as it is set up. -/
theorem prune_sound (sound : Sound perMinute limiter) (now : ℚ) :
    Sound perMinute (limiter.prune now) := by
  unfold RateLimiter.prune
  split
  · exact sound
  · exact ⟨sound.enabled, sound.capacity, sound.rate,
      (List.filter_sublist.map Prod.fst).nodup sound.distinct⟩

/-- Pruning drops no bucket that had not time to fill up. -/
theorem prune_follows (positive : 1 ≤ perMinute) (sound : Sound perMinute limiter)
    (follows : Follows perMinute key now limiter bucket) (advanced : now ≤ later) :
    Follows perMinute key later (limiter.prune later) bucket := by
  refine ⟨follows.within, fun held given => (follows.past held given).trans advanced, ?_⟩
  cases follows.kept with
  | inl there =>
    cases prune_get positive sound later key with
    | inl same => exact .inl (same.trans there)
    | inr dropped => exact .inr (there ▸ dropped)
  | inr gone =>
    refine .inr ⟨?_, ?_⟩
    · cases prune_get positive sound later key with
      | inl same => exact same.trans gone.1
      | inr dropped => exact dropped.1
    · intro held given
      have idle := gone.2 held given
      linarith

/-- Whether it is in the dictionary or not, the next call finds the bucket as full. -/
theorem offer_follows (positive : 1 ≤ perMinute)
    (follows : Follows perMinute key now limiter bucket) :
    offer (perMinute : ℚ) (perMinute / 60)
        ((limiter.buckets.get key).getD (fresh (perMinute : ℚ) now)) now =
      offer (perMinute : ℚ) (perMinute / 60) (bucket.getD (fresh (perMinute : ℚ) now)) now := by
  cases follows.kept with
  | inl there => rw [there]
  | inr gone =>
    rw [gone.1]
    cases bucket with
    | none => rfl
    | some held =>
      have filled : (0 : ℚ) < perMinute := by exact_mod_cast positive
      have tokens := (follows.within held rfl).nonneg
      have idle := gone.2 held rfl
      have flowed : 60 * ((perMinute : ℚ) / 60) ≤ (now - held.updated) * (perMinute / 60) :=
        mul_le_mul_of_nonneg_right idle (by positivity)
      refine (offer_full ?_).symm
      rw [Option.getD_some]
      linarith

/-- A call prunes, then asks the bucket of its key. -/
theorem allow_eq (sound : Sound perMinute limiter) (key : Str) (now : ℚ) :
    limiter.allow key now =
      let asked := offer (perMinute : ℚ) (perMinute / 60)
        (((limiter.prune now).buckets.get key).getD (fresh (perMinute : ℚ) now)) now
      (asked.1, { limiter.prune now with
        buckets := (limiter.prune now).buckets.set key asked.2 }) := by
  have pruned := prune_sound sound now
  simp only [RateLimiter.allow, sound.enabled, Bool.true_eq_false, ↓reduceIte, pruned.capacity,
    pruned.rate]

/-- A call keeps the limiter as it is set up. -/
theorem allow_sound (sound : Sound perMinute limiter) (key : Str) (now : ℚ) :
    Sound perMinute (limiter.allow key now).2 := by
  have pruned := prune_sound sound now
  rw [allow_eq sound]
  exact ⟨pruned.enabled, pruned.capacity, pruned.rate, Dict.nodup_keys_set pruned.distinct _ _⟩

/-- A call for another key leaves the bucket alone. -/
theorem allow_other (positive : 1 ≤ perMinute) (sound : Sound perMinute limiter)
    (follows : Follows perMinute key now limiter bucket) (advanced : now ≤ later)
    (different : key ≠ other) :
    Follows perMinute key later (limiter.allow other later).2 bucket := by
  have pruned := prune_follows positive sound follows advanced
  rw [allow_eq sound]
  refine ⟨pruned.within, pruned.past, ?_⟩
  simp only [Dict.get_set, different, ↓reduceIte]
  exact pruned.kept

/-- A call for the key decides as the bucket does, and leaves what the bucket is left as. -/
theorem allow_same (positive : 1 ≤ perMinute) (sound : Sound perMinute limiter)
    (follows : Follows perMinute key now limiter bucket) (advanced : now ≤ later) :
    let asked := offer (perMinute : ℚ) (perMinute / 60)
      (bucket.getD (fresh (perMinute : ℚ) later)) later
    (limiter.allow key later).1 = asked.1 ∧
      Follows perMinute key later (limiter.allow key later).2 (some asked.2) := by
  have filled : (0 : ℚ) ≤ perMinute := by exact_mod_cast zero_le_one.trans positive
  have pruned := prune_follows positive sound follows advanced
  have asked := offer_follows positive pruned
  rw [allow_eq sound]
  refine ⟨congrArg Prod.fst asked, ?_, ?_, ?_⟩
  · rintro held ⟨⟩
    refine offer_within filled (by positivity) ?_ ?_
    · cases bucket with
      | none => exact fresh_within filled later
      | some held => exact follows.within held rfl
    · cases bucket with
      | none => exact le_refl later
      | some held => exact pruned.past held rfl
  · rintro held ⟨⟩
    rw [offer_updated]
  · left
    simp only [Dict.get_set, ↓reduceIte, asked]

end

/-! ## Runs -/

/-- A new limiter is set up, and every bucket is yet to be filled. -/
theorem new_sound {perMinute : Int} (positive : 1 ≤ perMinute) :
    Sound perMinute (RateLimiter.new perMinute) where
  enabled := by
    simp only [RateLimiter.new, Bool.true_and, decide_eq_true_eq]
    omega
  capacity := rfl
  rate := rfl
  distinct := List.nodup_nil

theorem new_follows (perMinute : Int) (key : Str) (now : ℚ) :
    Follows perMinute key now (RateLimiter.new perMinute) none where
  within _ given := by cases given
  past _ given := by cases given
  kept := .inl rfl

/-- From any state the decisions for a key are those of its bucket. -/
theorem decisions_follow {perMinute : Int} (positive : 1 ≤ perMinute) {key : Str} {now : ℚ}
    {limiter : RateLimiter} {bucket : Option (Bucket ℚ)} (sound : Sound perMinute limiter)
    (follows : Follows perMinute key now limiter bucket) {calls : List (Str × ℚ)}
    (ordered : (calls.map Prod.snd).Pairwise (· ≤ ·))
    (later : ∀ time ∈ calls.map Prod.snd, now ≤ time) :
    ofKey key calls (limiter.decisions calls) =
      (timesOf key calls).zip
        (TokenBucket.decisions (perMinute : ℚ) (perMinute / 60) bucket (timesOf key calls)) := by
  induction calls generalizing limiter now bucket with
  | nil => rfl
  | cons call rest inductionHypothesis =>
    obtain ⟨asked, time⟩ := call
    obtain ⟨earliest, orderedRest⟩ := List.pairwise_cons.mp ordered
    have advanced := later time List.mem_cons_self
    have kept := allow_sound sound asked time
    by_cases same : asked = key
    · subst same
      obtain ⟨decided, next⟩ := allow_same positive sound follows advanced
      have rested := inductionHypothesis kept next orderedRest earliest
      simp only [ofKey, timesOf, RateLimiter.decisions, TokenBucket.decisions, List.zip_cons_cons,
        decide_true, List.filter_cons_of_pos, List.map_cons] at rested ⊢
      rw [rested, decided]
    · have next := allow_other positive sound follows advanced (Ne.symm same)
      have rested := inductionHypothesis kept next orderedRest earliest
      simpa [ofKey, timesOf, RateLimiter.decisions, same] using rested

/-- Of calls in order none is before the first. -/
theorem first_earliest {call : Str × ℚ} {rest : List (Str × ℚ)}
    (ordered : ((call :: rest).map Prod.snd).Pairwise (· ≤ ·)) :
    ∀ time ∈ (call :: rest).map Prod.snd, call.2 ≤ time :=
  List.forall_mem_cons.mpr ⟨le_refl call.2, (List.pairwise_cons.mp ordered).1⟩

section
variable {perMinute : Int} (positive : 1 ≤ perMinute)

include positive

/-- From the start the decisions for a key are those of a bucket that is yet to be filled. -/
theorem new_decisions (calls : List (Str × ℚ)) (ordered : (calls.map Prod.snd).Pairwise (· ≤ ·))
    (key : Str) :
    ofKey key calls ((RateLimiter.new perMinute).decisions calls) =
      (timesOf key calls).zip
        (TokenBucket.decisions (perMinute : ℚ) (perMinute / 60) none (timesOf key calls)) := by
  cases calls with
  | nil => rfl
  | cons call rest =>
    exact decisions_follow positive (new_sound positive) (new_follows perMinute key call.2)
      ordered (first_earliest ordered)

/-- The decisions for a key are those of one bucket that is filled at the first call, is
never dropped and sees only the calls for the key. Other calls, and what is pruned at
them, do not matter. -/
theorem buckets_independent (calls : List (Str × ℚ))
    (ordered : (calls.map Prod.snd).Pairwise (· ≤ ·)) (key : Str) :
    ofKey key calls ((RateLimiter.new perMinute).decisions calls) =
        (timesOf key calls).zip
          (TokenBucket.decisions (perMinute : ℚ) (perMinute / 60) none (timesOf key calls)) ∧
      ∀ others : List (Str × ℚ), (others.map Prod.snd).Pairwise (· ≤ ·) →
        timesOf key others = timesOf key calls →
        ofKey key others ((RateLimiter.new perMinute).decisions others) =
          ofKey key calls ((RateLimiter.new perMinute).decisions calls) := by
  refine ⟨new_decisions positive calls ordered key, ?_⟩
  intro others otherOrdered same
  rw [new_decisions positive others otherOrdered, new_decisions positive calls ordered, same]

/-- Between two times at most the capacity and what flows in meanwhile is allowed for a
key. -/
theorem window_bounded (calls : List (Str × ℚ)) (ordered : (calls.map Prod.snd).Pairwise (· ≤ ·))
    (key : Str) {first last : ℚ} (window : first ≤ last) :
    (allowedBetween first last
        (ofKey key calls ((RateLimiter.new perMinute).decisions calls)) : ℚ) ≤
      perMinute + (last - first) * perMinute / 60 := by
  have filled : (0 : ℚ) ≤ perMinute := by exact_mod_cast zero_le_one.trans positive
  have own : (timesOf key calls).Pairwise (· ≤ ·) :=
    ordered.sublist (List.filter_sublist.map Prod.snd)
  have bounded := allowedBetween_le filled (by positivity : (0 : ℚ) ≤ perMinute / 60) window own
  rw [new_decisions positive calls ordered key]
  rwa [mul_div_assoc]

end

/-! ## How long to wait -/

/-- Calls for other keys, in order of time, between two times. -/
structure Quiet (key : Str) (now later : ℚ) (others : List (Str × ℚ)) : Prop where
  other : ∀ call ∈ others, call.1 ≠ key
  ordered : (others.map Prod.snd).Pairwise (· ≤ ·)
  between : ∀ time ∈ others.map Prod.snd, now ≤ time ∧ time ≤ later
  advanced : now ≤ later

theorem truncate_eq_floor {value : ℚ} (nonneg : 0 ≤ value) : truncate value = ⌊value⌋ := by
  rw [truncate, Int.tdiv_eq_ediv_of_nonneg (Rat.num_nonneg.mpr nonneg), Rat.floor_def']

section
variable {perMinute : Int} {key : Str} {now later : ℚ} {limiter : RateLimiter}
  {bucket : Option (Bucket ℚ)}

/-- What was idle stays idle. -/
theorem Follows.until (follows : Follows perMinute key now limiter bucket)
    (advanced : now ≤ later) : Follows perMinute key later limiter bucket := by
  refine ⟨follows.within, fun held given => (follows.past held given).trans advanced, ?_⟩
  cases follows.kept with
  | inl there => exact .inl there
  | inr gone =>
    refine .inr ⟨gone.1, ?_⟩
    intro held given
    have idle := gone.2 held given
    linarith

/-- Any calls leave a limiter that follows some bucket for the key. -/
theorem after_follows (positive : 1 ≤ perMinute) {calls : List (Str × ℚ)}
    (sound : Sound perMinute limiter) (follows : Follows perMinute key now limiter bucket)
    (ordered : (calls.map Prod.snd).Pairwise (· ≤ ·))
    (between : ∀ time ∈ calls.map Prod.snd, now ≤ time ∧ time ≤ later) (advanced : now ≤ later) :
    Sound perMinute (limiter.after calls) ∧
      ∃ left, Follows perMinute key later (limiter.after calls) left := by
  induction calls generalizing limiter now bucket with
  | nil => exact ⟨sound, bucket, follows.until advanced⟩
  | cons call rest inductionHypothesis =>
    obtain ⟨asked, time⟩ := call
    obtain ⟨earliest, orderedRest⟩ := List.pairwise_cons.mp ordered
    obtain ⟨sinceNow, untilLater⟩ := between time List.mem_cons_self
    have kept := allow_sound sound asked time
    have rest : ∀ next ∈ rest.map Prod.snd, time ≤ next ∧ next ≤ later := by
      intro next member
      exact ⟨earliest next member, (between next (List.mem_cons_of_mem _ member)).2⟩
    by_cases same : asked = key
    · subst same
      exact inductionHypothesis kept (allow_same positive sound follows sinceNow).2 orderedRest
        rest untilLater
    · exact inductionHypothesis kept
        (allow_other positive sound follows sinceNow (Ne.symm same)) orderedRest rest untilLater

/-- Calls for other keys leave a limiter that follows the same bucket. -/
theorem quiet_follows (positive : 1 ≤ perMinute) {others : List (Str × ℚ)}
    (sound : Sound perMinute limiter) (follows : Follows perMinute key now limiter bucket)
    (quiet : Quiet key now later others) :
    Sound perMinute (limiter.after others) ∧
      Follows perMinute key later (limiter.after others) bucket := by
  induction others generalizing limiter now with
  | nil => exact ⟨sound, follows.until quiet.advanced⟩
  | cons call rest inductionHypothesis =>
    obtain ⟨earliest, ordered⟩ := List.pairwise_cons.mp quiet.ordered
    obtain ⟨sinceNow, untilLater⟩ := quiet.between call.2 List.mem_cons_self
    have different := quiet.other call List.mem_cons_self
    refine inductionHypothesis (allow_sound sound call.1 call.2)
      (allow_other positive sound follows sinceNow (Ne.symm different)) ⟨?_, ordered, ?_, untilLater⟩
    · intro next member
      exact quiet.other next (List.mem_cons_of_mem _ member)
    · intro time member
      exact ⟨earliest time member, (quiet.between time (List.mem_cons_of_mem _ member)).2⟩

/-- After any calls a new limiter follows some bucket for each key. -/
theorem new_after_follows {earlier : List (Str × ℚ)} (positive : 1 ≤ perMinute)
    (ordered : (earlier.map Prod.snd).Pairwise (· ≤ ·))
    (before : ∀ time ∈ earlier.map Prod.snd, time ≤ now) :
    Sound perMinute ((RateLimiter.new perMinute).after earlier) ∧
      ∃ bucket, Follows perMinute key now ((RateLimiter.new perMinute).after earlier) bucket := by
  cases earlier with
  | nil => exact ⟨new_sound positive, none, new_follows perMinute key now⟩
  | cons call rest =>
    refine after_follows positive (new_sound positive) (new_follows perMinute key call.2)
      ordered ?_ (before call.2 List.mem_cons_self)
    intro time member
    exact ⟨first_earliest ordered time member, before time member⟩

end

section
variable {perMinute : Int} {key : Str} {now : ℚ} {limiter : RateLimiter} {held : Bucket ℚ}

/-- With a bucket that was just brought up to date, the answer is the waiting time, rounded
up to the next second. -/
theorem retryAfter_eq (positive : 1 ≤ perMinute) (sound : Sound perMinute limiter)
    (follows : Follows perMinute key now limiter (some held)) (current : held.updated = now) :
    limiter.retryAfter key now = ⌊waiting ((perMinute : ℚ) / 60) held⌋ + 1 := by
  have filled : (0 : ℚ) < perMinute := by exact_mod_cast positive
  have there : limiter.buckets.get key = some held := by
    refine follows.kept.resolve_right ?_
    rintro ⟨-, idle⟩
    have long := idle held rfl
    rw [current, sub_self] at long
    norm_num at long
  have nonneg : 0 ≤ waiting ((perMinute : ℚ) / 60) held := by
    unfold waiting
    positivity
  have rounded : 0 ≤ ⌊waiting ((perMinute : ℚ) / 60) held⌋ := Int.floor_nonneg.mpr nonneg
  simp only [RateLimiter.retryAfter, there, sound.enabled, Bool.true_eq_false, ↓reduceIte,
    sound.rate]
  rw [← waiting, truncate_eq_floor nonneg]
  exact max_eq_right (by omega)

end

/-- The seconds to retry after are enough, whatever is asked for other keys meanwhile, and
they exceed the time after which a call is allowed again by at most one. -/
theorem retryAfter_honest {perMinute : Int} (positive : 1 ≤ perMinute)
    (earlier : List (Str × ℚ)) (key : Str) (now : ℚ)
    (ordered : ((earlier ++ [(key, now)]).map Prod.snd).Pairwise (· ≤ ·)) :
    let asked := ((RateLimiter.new perMinute).after earlier).allow key now
    let retry := asked.2.retryAfter key now
    asked.1 = false →
      (∀ others later, Quiet key now later others → now + retry ≤ later →
        ((asked.2.after others).allow key later).1 = true) ∧
      ∃ wait : ℚ,
        (∀ others later, Quiet key now later others →
          (((asked.2.after others).allow key later).1 = true ↔ now + wait ≤ later)) ∧
        retry ≤ wait + 1 := by
  intro asked retry refused
  have room : (1 : ℚ) ≤ perMinute := by exact_mod_cast positive
  have flows : (0 : ℚ) < perMinute / 60 := by linarith
  obtain ⟨orderedEarlier, -, before⟩ := List.pairwise_append.mp (List.map_append ▸ ordered)
  obtain ⟨sound, bucket, follows⟩ := new_after_follows positive orderedEarlier
    (fun time member => before time member now List.mem_cons_self)
  obtain ⟨decided, next⟩ := allow_same positive sound follows (le_refl now)
  have soundNext : Sound perMinute asked.2 := allow_sound sound key now
  have short := offer_refused (decided.symm.trans refused)
  set held := (offer (perMinute : ℚ) (perMinute / 60)
    (bucket.getD (fresh (perMinute : ℚ) now)) now).2 with heldEq
  have current : held.updated = now := offer_updated
  have retryEq : retry = ⌊waiting ((perMinute : ℚ) / 60) held⌋ + 1 :=
    retryAfter_eq positive soundNext next current
  have exact : ∀ others later, Quiet key now later others →
      (((asked.2.after others).allow key later).1 = true ↔
        now + waiting ((perMinute : ℚ) / 60) held ≤ later) := by
    intro others later quiet
    obtain ⟨soundLater, followsLater⟩ := quiet_follows positive soundNext next quiet
    rw [(allow_same positive soundLater followsLater (le_refl later)).1, Option.getD_some,
      offer_allowed_iff room flows short, current]
  refine ⟨?_, waiting ((perMinute : ℚ) / 60) held, exact, ?_⟩
  · intro others later quiet waited
    have enough := (Int.lt_floor_add_one (waiting ((perMinute : ℚ) / 60) held)).le
    rw [retryEq] at waited
    push_cast at waited
    exact (exact others later quiet).mpr (by linarith)
  · have rounded := Int.floor_le (waiting ((perMinute : ℚ) / 60) held)
    rw [retryEq]
    push_cast
    linarith

/-- Half a token is missing at one a minute: a call is refused at 30, allowed from 60 on,
and told to come back at 61. -/
theorem retryAfter_honest_half :
    let asked := ((RateLimiter.new 1).after [(lit "a", 0)]).allow (lit "a") 30
    asked.1 = false ∧ asked.2.retryAfter (lit "a") 30 = 31 ∧
      ∀ others later, Quiet (lit "a") 30 later others → 61 ≤ later →
        ((asked.2.after others).allow (lit "a") later).1 = true := by
  have refused : (((RateLimiter.new 1).after [(lit "a", 0)]).allow (lit "a") 30).1 = false := by
    decide +kernel
  have told : (((RateLimiter.new 1).after [(lit "a", 0)]).allow (lit "a") 30).2.retryAfter
      (lit "a") 30 = 31 := by
    decide +kernel
  have enough := (retryAfter_honest (by decide : (1 : Int) ≤ 1) [(lit "a", 0)] (lit "a") 30
    (by decide +kernel) refused).1
  refine ⟨refused, told, ?_⟩
  intro others later quiet waited
  refine enough others later quiet ?_
  rw [told]
  norm_num
  exact waited

/-- Calls for two keys. -/
def exampleCalls : List (Str × ℚ) :=
  [(lit "a", 0), (lit "b", 1), (lit "a", 2), (lit "b", 61), (lit "a", 62)]

/-- The bucket of the first key is dropped at the fourth call, which does not show. -/
theorem buckets_independent_pruned :
    ofKey (lit "a") exampleCalls ((RateLimiter.new 1).decisions exampleCalls) =
      [(0, true), (2, false), (62, true)] := by
  have followed := (buckets_independent (by decide : (1 : Int) ≤ 1) exampleCalls
    (by decide +kernel) (lit "a")).1
  rw [followed]
  decide +kernel

/-- Both calls for the second key fall into this minute. -/
theorem window_bounded_minute :
    (allowedBetween 1 61
        (ofKey (lit "b") exampleCalls ((RateLimiter.new 1).decisions exampleCalls)) : ℚ) ≤ 2 := by
  have bounded := window_bounded (by decide : (1 : Int) ≤ 1) exampleCalls (by decide +kernel)
    (lit "b") (by norm_num : (1 : ℚ) ≤ 61)
  norm_num at bounded ⊢
  exact bounded

/-! ## Memory -/

/-- The keys that were called for after a time. -/
def activeKeys (since : ℚ) (calls : List (Str × ℚ)) : List Str :=
  ((calls.filter (fun call => decide (since < call.2))).map Prod.fst).dedup

/-- Every bucket was brought up to date by a call, and less than a minute before idle
buckets were last looked for. -/
structure Trimmed (calls : List (Str × ℚ)) (now : ℚ) (limiter : RateLimiter) : Prop where
  past : limiter.prunedAt ≤ now
  used : ∀ item ∈ limiter.buckets,
    (item.1, item.2.updated) ∈ calls ∧ limiter.prunedAt - item.2.updated < 60

section
variable {perMinute : Int} {limiter : RateLimiter} {calls : List (Str × ℚ)} {now later : ℚ}

/-- Looking for idle buckets keeps this, and was done less than a minute ago then. -/
theorem prune_trimmed (positive : 1 ≤ perMinute) (sound : Sound perMinute limiter)
    (trimmed : Trimmed calls now limiter) (advanced : now ≤ later) :
    Trimmed calls later (limiter.prune later) ∧ later - (limiter.prune later).prunedAt < 60 := by
  have filled : (0 : ℚ) < perMinute := by exact_mod_cast positive
  have rate : (perMinute : ℚ) / 60 ≠ 0 := by positivity
  have idle : (perMinute : ℚ) / (perMinute / 60) = 60 := by field_simp
  unfold RateLimiter.prune
  split
  · rename_i recent
    exact ⟨⟨trimmed.past.trans advanced, trimmed.used⟩, recent⟩
  · simp only [sound.rate, sound.capacity, ne_eq, rate, not_false_eq_true, ↓reduceIte, idle]
    refine ⟨⟨le_refl later, fun item member => ?_⟩, by simp⟩
    obtain ⟨old, kept⟩ := List.mem_filter.mp member
    exact ⟨(trimmed.used item old).1, of_decide_eq_true kept⟩

/-- So does a call, and what it brings up to date is its own bucket. -/
theorem allow_trimmed (positive : 1 ≤ perMinute) (sound : Sound perMinute limiter)
    (trimmed : Trimmed calls now limiter) (advanced : now ≤ later) (key : Str) :
    Trimmed (calls ++ [(key, later)]) later (limiter.allow key later).2 ∧
      later - (limiter.allow key later).2.prunedAt < 60 := by
  obtain ⟨pruned, recent⟩ := prune_trimmed positive sound trimmed advanced
  rw [allow_eq sound]
  refine ⟨⟨pruned.past, fun item member => ?_⟩, recent⟩
  rcases Dict.mem_set member with rfl | old
  · rw [offer_updated]
    have past := pruned.past
    exact ⟨List.mem_append_right _ List.mem_cons_self, by dsimp only; linarith⟩
  · obtain ⟨called, idle⟩ := pruned.used item old
    exact ⟨List.mem_append_left _ called, idle⟩

/-- Calls in order keep this. -/
theorem after_trimmed (positive : 1 ≤ perMinute) {more : List (Str × ℚ)}
    (sound : Sound perMinute limiter) (trimmed : Trimmed calls now limiter)
    (ordered : (more.map Prod.snd).Pairwise (· ≤ ·))
    (advanced : ∀ time ∈ more.map Prod.snd, now ≤ time ∧ time ≤ later) (reached : now ≤ later) :
    Sound perMinute (limiter.after more) ∧ Trimmed (calls ++ more) later (limiter.after more) := by
  induction more generalizing limiter calls now with
  | nil =>
    rw [List.append_nil]
    exact ⟨sound, trimmed.past.trans reached, trimmed.used⟩
  | cons call rest inductionHypothesis =>
    obtain ⟨key, time⟩ := call
    obtain ⟨earliest, orderedRest⟩ := List.pairwise_cons.mp ordered
    obtain ⟨since, untilLater⟩ := advanced time List.mem_cons_self
    have next := (allow_trimmed positive sound trimmed since key).1
    have rested := inductionHypothesis (allow_sound sound key time) next orderedRest
      (fun other member => ⟨earliest other member,
        (advanced other (List.mem_cons_of_mem _ member)).2⟩) untilLater
    rw [List.append_assoc] at rested
    exact rested

end

/-- What the limiter holds is bounded by recent traffic: after a call every bucket was used
less than two minutes ago, so there are no more buckets than keys that were called for in
that time, however many there were before.

Proof: idle buckets were looked for less than a minute ago, and those that were left then
had been used less than a minute before. -/
theorem buckets_recent {perMinute : Int} (positive : 1 ≤ perMinute)
    (earlier : List (Str × ℚ)) (key : Str) (now : ℚ)
    (ordered : ((earlier ++ [(key, now)]).map Prod.snd).Pairwise (· ≤ ·))
    (nonneg : ∀ time ∈ (earlier ++ [(key, now)]).map Prod.snd, 0 ≤ time) :
    (∀ item ∈ ((RateLimiter.new perMinute).after (earlier ++ [(key, now)])).buckets,
      (item.1, item.2.updated) ∈ earlier ++ [(key, now)] ∧ now - item.2.updated < 120) ∧
    ((RateLimiter.new perMinute).after (earlier ++ [(key, now)])).buckets.length ≤
      (activeKeys (now - 120) (earlier ++ [(key, now)])).length := by
  obtain ⟨orderedEarlier, -, before⟩ := List.pairwise_append.mp (List.map_append ▸ ordered)
  have start : Trimmed [] 0 (RateLimiter.new perMinute) :=
    ⟨le_refl 0, fun _ member => absurd member List.not_mem_nil⟩
  have arrived : 0 ≤ now := nonneg now (by simp)
  obtain ⟨sound, trimmed⟩ := after_trimmed positive (new_sound positive) start orderedEarlier
    (fun time member => ⟨nonneg time (by rw [List.map_append]; exact List.mem_append_left _ member),
      before time member now List.mem_cons_self⟩) arrived
  have split : (RateLimiter.new perMinute).after (earlier ++ [(key, now)]) =
      (((RateLimiter.new perMinute).after earlier).allow key now).2 := by
    simp [RateLimiter.after]
  obtain ⟨left, recent⟩ := allow_trimmed positive sound trimmed (le_refl now) key
  have held := allow_sound sound key now
  rw [← split] at left recent held
  have young : ∀ item ∈ ((RateLimiter.new perMinute).after (earlier ++ [(key, now)])).buckets,
      (item.1, item.2.updated) ∈ earlier ++ [(key, now)] ∧ now - item.2.updated < 120 := by
    intro item member
    obtain ⟨called, idle⟩ := left.used item member
    exact ⟨called, by linarith⟩
  refine ⟨young, ?_⟩
  have inside : ((RateLimiter.new perMinute).after (earlier ++ [(key, now)])).buckets.map Prod.fst ⊆
      activeKeys (now - 120) (earlier ++ [(key, now)]) := by
    intro name member
    obtain ⟨item, there, rfl⟩ := List.mem_map.mp member
    obtain ⟨called, used⟩ := young item there
    refine List.mem_dedup.mpr (List.mem_map.mpr ⟨_, List.mem_filter.mpr ⟨called, ?_⟩, rfl⟩)
    exact decide_eq_true (by dsimp only; linarith)
  have few := (List.subperm_of_subset held.distinct inside).length_le
  rwa [List.length_map] at few

/-- Of the calls for two keys, those of the last two minutes bound the buckets. -/
theorem buckets_recent_two :
    ((RateLimiter.new 1).after (exampleCalls ++ [(lit "a", 250)])).buckets.length ≤ 1 := by
  have few := (buckets_recent (by decide : (1 : Int) ≤ 1) exampleCalls (lit "a") 250
    (by decide +kernel) (by decide +kernel)).2
  have active : (activeKeys (250 - 120) (exampleCalls ++ [(lit "a", 250)])).length = 1 := by
    decide +kernel
  exact active ▸ few

end WebhookInbox.RateLimit
