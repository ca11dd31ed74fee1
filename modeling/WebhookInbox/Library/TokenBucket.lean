import Mathlib.Algebra.Order.Field.Basic
import Mathlib.Tactic.Linarith
import Mathlib.Tactic.Positivity

/-!
# Token buckets

A bucket holds tokens up to a capacity, refills at a constant rate, and gives one
token to each call it allows. Its level is brought up to date when it is called.

Two facts are what users rely on. A bucket that had time to fill up decides like a
fresh one. And whatever the calls are, a window of time admits no more than the
capacity and what flows in during the window: a call that is allowed takes one token
from a level that only time raises.
-/

namespace Library.TokenBucket

variable {K : Type*} [Field K] [LinearOrder K]

/-- The level of a bucket when it was last called. -/
structure Bucket (K : Type*) where
  tokens : K
  updated : K

/-- A full bucket. -/
def fresh (capacity now : K) : Bucket K := ⟨capacity, now⟩

/-- The level of the bucket at a later time. -/
def level (capacity rate : K) (bucket : Bucket K) (now : K) : K :=
  min capacity (bucket.tokens + (now - bucket.updated) * rate)

/-- A call: whether it is allowed, and the bucket after it. -/
def offer (capacity rate : K) (bucket : Bucket K) (now : K) : Bool × Bucket K :=
  if level capacity rate bucket now < 1 then (false, ⟨level capacity rate bucket now, now⟩)
  else (true, ⟨level capacity rate bucket now - 1, now⟩)

/-- The decisions on calls at these times. The bucket is filled at the first call. -/
def decisions (capacity rate : K) : Option (Bucket K) → List K → List Bool
  | _, [] => []
  | bucket, now :: rest =>
      let (allowed, next) := offer capacity rate (bucket.getD (fresh capacity now)) now
      allowed :: decisions capacity rate (some next) rest

/-- The level is between nothing and the capacity. -/
structure Bucket.Within (capacity : K) (bucket : Bucket K) : Prop where
  nonneg : 0 ≤ bucket.tokens
  bounded : bucket.tokens ≤ capacity

section
variable {capacity rate : K} {bucket : Bucket K} {now : K}

/-- A fresh bucket is within its capacity. -/
theorem fresh_within (nonneg : 0 ≤ capacity) (now : K) : (fresh capacity now).Within capacity :=
  ⟨nonneg, le_refl capacity⟩

/-- A call brings the bucket up to date. -/
@[simp] theorem offer_updated : (offer capacity rate bucket now).2.updated = now := by
  unfold offer
  split <;> rfl

variable (capacity rate bucket now) in
/-- What is left after a call, with the token it was given, is the level before it. -/
theorem offer_spent :
    (if (offer capacity rate bucket now).1 then (1 : K) else 0) +
        (offer capacity rate bucket now).2.tokens =
      level capacity rate bucket now := by
  unfold offer
  split
  · simp
  · simp

/-- A bucket that had time to fill up decides like a fresh one, and is left like it. -/
theorem offer_full (full : capacity ≤ bucket.tokens + (now - bucket.updated) * rate) :
    offer capacity rate bucket now = offer capacity rate (fresh capacity now) now := by
  have same : level capacity rate bucket now = level capacity rate (fresh capacity now) now := by
    simp only [level, fresh, sub_self, zero_mul, add_zero, min_self]
    exact min_eq_left full
  simp only [offer, same]

/-- A refused call leaves less than a token. -/
theorem offer_refused (refused : (offer capacity rate bucket now).1 = false) :
    (offer capacity rate bucket now).2.tokens < 1 := by
  unfold offer at refused ⊢
  split at refused
  · next short => rwa [if_pos short]
  · cases refused

variable [IsStrictOrderedRing K]

/-- Time does not lower the level below nothing. -/
theorem level_nonneg (nonneg : 0 ≤ capacity) (flows : 0 ≤ rate) (within : bucket.Within capacity)
    (later : bucket.updated ≤ now) : 0 ≤ level capacity rate bucket now := by
  have elapsed : 0 ≤ now - bucket.updated := sub_nonneg.mpr later
  exact le_min nonneg (add_nonneg within.nonneg (mul_nonneg elapsed flows))

/-- A call leaves the bucket within its capacity. -/
theorem offer_within (nonneg : 0 ≤ capacity) (flows : 0 ≤ rate) (within : bucket.Within capacity)
    (later : bucket.updated ≤ now) : (offer capacity rate bucket now).2.Within capacity := by
  have bounded : level capacity rate bucket now ≤ capacity := min_le_left _ _
  unfold offer
  split
  · exact ⟨level_nonneg nonneg flows within later, bounded⟩
  · rename_i enough
    constructor
    · exact sub_nonneg.mpr (not_lt.mp enough)
    · exact (sub_le_self _ zero_le_one).trans bounded

/-- How long a bucket takes until it holds a token. -/
def waiting (rate : K) (bucket : Bucket K) : K := max 0 (1 - bucket.tokens) / rate

/-- A bucket with less than a token allows a call from the end of its waiting time on. -/
theorem offer_allowed_iff (room : 1 ≤ capacity) (flows : 0 < rate) (short : bucket.tokens < 1) :
    (offer capacity rate bucket now).1 = true ↔ bucket.updated + waiting rate bucket ≤ now := by
  have decided : (offer capacity rate bucket now).1 = true ↔
      1 ≤ bucket.tokens + (now - bucket.updated) * rate := by
    rw [offer, level]
    split
    · next low =>
      have below : bucket.tokens + (now - bucket.updated) * rate < 1 :=
        (min_lt_iff.mp low).resolve_left (not_lt.mpr room)
      simpa using below
    · next enough =>
      simpa using (le_min_iff.mp (not_lt.mp enough)).2
  rw [decided, waiting, max_eq_right (by linarith), ← le_sub_iff_add_le', div_le_iff₀ flows,
    sub_le_iff_le_add']

end

/-! ## Windows -/

/-- Calls that are made at given times are made at these times. -/
theorem zip_fst_mem {α β : Type*} {times : List α} {verdicts : List β} {call : α × β}
    (member : call ∈ times.zip verdicts) : call.1 ∈ times :=
  (List.of_mem_zip member).1

/-- How many of the calls between two times were allowed. -/
def allowedBetween {K : Type*} [LinearOrder K] (first last : K) (calls : List (K × Bool)) : Nat :=
  calls.countP (fun call => decide (first ≤ call.1 ∧ call.1 ≤ last) && call.2)

/-- Calls after a window are not counted. -/
theorem allowedBetween_late {K : Type*} [LinearOrder K] {first last : K} {calls : List (K × Bool)}
    (late : ∀ call ∈ calls, last < call.1) : allowedBetween first last calls = 0 := by
  refine List.countP_eq_zero.mpr ?_
  intro call member counted
  simp only [Bool.and_eq_true, decide_eq_true_eq] at counted
  exact absurd counted.1.2 (not_le.mpr (late call member))

/-- If the first of some ordered calls comes after a window, none is counted. -/
theorem allowedBetween_ordered_late {K : Type*} [LinearOrder K] {first last : K} {times : List K}
    {now : K} {verdicts : List Bool} (late : last < now) (earliest : ∀ other ∈ times, now ≤ other) :
    allowedBetween first last ((now :: times).zip verdicts) = 0 := by
  apply allowedBetween_late
  intro call member
  cases List.mem_cons.mp (zip_fst_mem member) with
  | inl same => exact same ▸ late
  | inr after => exact late.trans_le (earliest _ after)

section
variable [IsStrictOrderedRing K] {first last : K}

/-- A call is counted at most once, and only if it is allowed. -/
theorem allowedBetween_cons_le (first last now : K) (allowed : Bool) (calls : List (K × Bool)) :
    (allowedBetween first last ((now, allowed) :: calls) : K) ≤
      (if allowed then 1 else 0) + allowedBetween first last calls := by
  unfold allowedBetween
  rw [List.countP_cons, Nat.cast_add, add_comm]
  refine add_le_add ?_ (le_refl _)
  cases allowed with
  | false => simp
  | true => split <;> simp

variable {capacity rate : K} (nonneg : 0 ≤ capacity) (flows : 0 ≤ rate)

include nonneg flows

/-- Up to the end of a window no more calls are allowed than the bucket holds and what
flows in.

Induction on the calls: an allowed one takes its token from the level, which is at most
what was held before and what flowed in since. -/
theorem allowedBetween_le_flow (first : K) {last : K} {bucket : Bucket K}
    (within : bucket.Within capacity) (begun : bucket.updated ≤ last) {times : List K} (ordered : times.Pairwise (· ≤ ·))
    (later : ∀ now ∈ times, bucket.updated ≤ now) :
    (allowedBetween first last (times.zip (decisions capacity rate (some bucket) times)) : K) ≤
      bucket.tokens + (last - bucket.updated) * rate := by
  induction times generalizing bucket with
  | nil =>
    have flow : 0 ≤ (last - bucket.updated) * rate := mul_nonneg (sub_nonneg.mpr begun) flows
    simpa [allowedBetween, decisions] using add_nonneg within.nonneg flow
  | cons now rest inductionHypothesis =>
    obtain ⟨earliest, orderedRest⟩ := List.pairwise_cons.mp ordered
    have next := later now List.mem_cons_self
    by_cases inside : now ≤ last
    · have rested := inductionHypothesis (offer_within nonneg flows within next)
        (by rwa [offer_updated]) orderedRest (by rwa [offer_updated])
      have spent := offer_spent capacity rate bucket now
      have raised : level capacity rate bucket now ≤
          bucket.tokens + (now - bucket.updated) * rate := min_le_right _ _
      have counted := allowedBetween_cons_le first last now
        (offer capacity rate bucket now).1
        (rest.zip (decisions capacity rate (some (offer capacity rate bucket now).2) rest))
      rw [offer_updated] at rested
      refine counted.trans ?_
      linarith
    · have flow : 0 ≤ (last - bucket.updated) * rate := mul_nonneg (sub_nonneg.mpr begun) flows
      rw [allowedBetween_ordered_late (not_le.mp inside) earliest, Nat.cast_zero]
      exact add_nonneg within.nonneg flow

/-- A window of time admits no more calls than the capacity and what flows in during the
window.

Induction on the calls up to the first one in the window. At that one the level is at
most the capacity. -/
theorem allowedBetween_le_window {bucket : Bucket K} (within : bucket.Within capacity)
    (window : first ≤ last) {times : List K} (ordered : times.Pairwise (· ≤ ·))
    (later : ∀ now ∈ times, bucket.updated ≤ now) :
    (allowedBetween first last (times.zip (decisions capacity rate (some bucket) times)) : K) ≤
      capacity + (last - first) * rate := by
  have flow : 0 ≤ (last - first) * rate := mul_nonneg (sub_nonneg.mpr window) flows
  induction times generalizing bucket with
  | nil => simpa [allowedBetween, decisions] using add_nonneg nonneg flow
  | cons now rest inductionHypothesis =>
    obtain ⟨earliest, orderedRest⟩ := List.pairwise_cons.mp ordered
    have next := later now List.mem_cons_self
    have kept := offer_within nonneg flows within next
    by_cases early : now < first
    · have rested := inductionHypothesis kept orderedRest (by rwa [offer_updated])
      have skipped : ¬ (first ≤ now ∧ now ≤ last) := fun inside => absurd early (not_lt.mpr inside.1)
      simpa [decisions, allowedBetween, skipped] using rested
    · by_cases inside : now ≤ last
      · have begun : (offer capacity rate bucket now).2.updated ≤ last := by
          rw [offer_updated]
          exact inside
        have rested := allowedBetween_le_flow nonneg flows first kept begun orderedRest
          (by rwa [offer_updated])
        have spent := offer_spent capacity rate bucket now
        have bounded : level capacity rate bucket now ≤ capacity := min_le_left _ _
        have counted := allowedBetween_cons_le first last now
          (offer capacity rate bucket now).1
          (rest.zip (decisions capacity rate (some (offer capacity rate bucket now).2) rest))
        have shorter : (last - now) * rate ≤ (last - first) * rate :=
          mul_le_mul_of_nonneg_right (sub_le_sub_left (not_lt.mp early) last) flows
        rw [offer_updated] at rested
        refine counted.trans ?_
        linarith
      · rw [allowedBetween_ordered_late (not_le.mp inside) earliest, Nat.cast_zero]
        exact add_nonneg nonneg flow

/-- This holds from the first call on, at which the bucket is filled. -/
theorem allowedBetween_le (window : first ≤ last) {times : List K}
    (ordered : times.Pairwise (· ≤ ·)) :
    (allowedBetween first last (times.zip (decisions capacity rate none times)) : K) ≤
      capacity + (last - first) * rate := by
  cases times with
  | nil =>
    have flow : 0 ≤ (last - first) * rate := mul_nonneg (sub_nonneg.mpr window) flows
    simpa [allowedBetween, decisions] using add_nonneg nonneg flow
  | cons now rest =>
    refine allowedBetween_le_window nonneg flows (fresh_within nonneg now) window ordered ?_
    intro other member
    cases List.mem_cons.mp member with
    | inl same => exact le_of_eq same.symm
    | inr after => exact (List.pairwise_cons.mp ordered).1 other after

end

end Library.TokenBucket
