import Mathlib.Data.Int.Basic
import Mathlib.Tactic.Linarith
import Mathlib.Tactic.Ring

/-!
# Instants and the range of `datetime`

An instant counts microseconds from 1970-01-01T00:00:00 UTC. A `datetime` lies
between the years 1 and 9999; arithmetic that leaves this range raises
`OverflowError`, which is the missing result here. A stored date keeps whole
milliseconds, rounded down.
-/

namespace Library.Calendar

/-- Microseconds since the start of 1970, UTC. -/
abbrev Instant := Int

/-- Milliseconds since the start of 1970, UTC, as the database stores a date. -/
abbrev Millis := Int

/-- 0001-01-01T00:00:00 -/
def minInstant : Instant := -62135596800000000

/-- 9999-12-31T23:59:59.999999 -/
def maxInstant : Instant := 253402300799999999

/-- `instant + timedelta(seconds=seconds)`, missing when it raises. -/
def addSeconds (instant : Instant) (seconds : Int) : Option Instant :=
  let moved := instant + seconds * 1000000
  if minInstant ≤ moved ∧ moved ≤ maxInstant then some moved else none

/-- The stored form of an instant drops the fraction of a millisecond. -/
def toMillis (instant : Instant) : Millis := instant / 1000

/-- `$dateAdd` of days to a stored date, missing when the result is no date: a date holds
its milliseconds in 64 bits. -/
def dateAddDays (date : Millis) (days : Int) : Option Millis :=
  let moved := date + days * 86400000
  if -2 ^ 63 ≤ moved ∧ moved < 2 ^ 63 then some moved else none

/-- Days that can be added to a date are added as milliseconds. -/
theorem dateAddDays_eq {date moved : Millis} {days : Int}
    (added : dateAddDays date days = some moved) : moved = date + days * 86400000 := by
  simp only [dateAddDays] at added
  split at added
  · exact (Option.some.inj added).symm
  · cases added

/-- Addition that stays in range is plain addition. -/
theorem addSeconds_eq {instant moved : Instant} {seconds : Int}
    (added : addSeconds instant seconds = some moved) : moved = instant + seconds * 1000000 := by
  simp only [addSeconds] at added
  split at added
  · exact (Option.some.inj added).symm
  · cases added

/-- Addition is defined exactly inside the range. -/
theorem addSeconds_isSome (instant : Instant) (seconds : Int) :
    (addSeconds instant seconds).isSome = true ↔
      minInstant ≤ instant + seconds * 1000000 ∧
        instant + seconds * 1000000 ≤ maxInstant := by
  simp only [addSeconds]
  split <;> simp_all

/-- Whole days that stay in the range of `datetime` are added alike to an instant and to
the date it is stored as. -/
theorem dateAddDays_toMillis {instant moved : Instant} {days : Int}
    (added : addSeconds instant (days * 86400) = some moved) :
    dateAddDays (toMillis instant) days = some (toMillis moved) := by
  have sum := addSeconds_eq added
  have inRange := (addSeconds_isSome instant (days * 86400)).mp (by rw [added]; rfl)
  have shifted : toMillis moved = toMillis instant + days * 86400000 := by
    have whole : instant + days * 86400 * 1000000 = instant + days * 86400000 * 1000 := by ring
    unfold toMillis
    rw [sum, whole, Int.add_mul_ediv_right _ _ (by decide)]
  have small : ∀ value : Int, -62135596800000000 ≤ value → value ≤ 253402300799999999 →
      -2 ^ 63 ≤ value / 1000 ∧ value / 1000 < 2 ^ 63 := by
    intro value least most
    omega
  have bounded : -2 ^ 63 ≤ toMillis moved ∧ toMillis moved < 2 ^ 63 := by
    rw [← sum] at inRange
    exact small moved inRange.1 inRange.2
  rw [shifted] at bounded
  rw [dateAddDays, if_pos bounded, shifted]

/-- What is stored before the milliseconds of an instant lies before the instant. -/
theorem lt_of_lt_toMillis {stored instant : Int} (earlier : stored < toMillis instant) :
    stored * 1000 < instant := by
  have quotient : stored < instant / 1000 := earlier
  omega

/-- What is stored of an instant in the range is in the range. -/
theorem toMillis_range {instant : Int} (least : minInstant ≤ instant)
    (most : instant ≤ maxInstant) :
    minInstant ≤ toMillis instant * 1000 ∧ toMillis instant * 1000 ≤ maxInstant := by
  have rounded : ∀ value : Int, -62135596800000000 ≤ value → value ≤ 253402300799999999 →
      -62135596800000000 ≤ value / 1000 * 1000 ∧ value / 1000 * 1000 ≤ 253402300799999999 := by
    intro value low high
    omega
  exact rounded instant least most

/-- Microseconds of a day. -/
def day : Int := 86400000000

/-- The whole days from an instant to the end of the range of `datetime`. -/
def daysAfter (now : Instant) : Int := (maxInstant - now) / day

/-- The whole days from the start of the range to an instant. -/
def daysBefore (now : Instant) : Int := (now - minInstant) / day

/-- An instant in the range has no negative distance to its ends. -/
theorem days_nonneg {now : Instant} (least : minInstant ≤ now) (most : now ≤ maxInstant) :
    0 ≤ daysBefore now ∧ 0 ≤ daysAfter now :=
  ⟨Int.ediv_nonneg (sub_nonneg.mpr least) (by decide),
    Int.ediv_nonneg (sub_nonneg.mpr most) (by decide)⟩

/-- Days can be added as long as they lie between the ends of the range. -/
theorem addDays_isSome (now : Instant) (days : Int) :
    (addSeconds now (days * 86400)).isSome = true ↔
      -daysBefore now ≤ days ∧ days ≤ daysAfter now := by
  have after : days ≤ daysAfter now ↔ days * day ≤ maxInstant - now :=
    Int.le_ediv_iff_mul_le (by decide)
  have before : -daysBefore now ≤ days ↔ -days * day ≤ now - minInstant := by
    rw [neg_le]
    exact Int.le_ediv_iff_mul_le (by decide)
  have sum : now + days * 86400 * 1000000 = now + days * day := by
    unfold day
    ring
  rw [addSeconds_isSome, sum, after, before, neg_mul]
  constructor
  · rintro ⟨least, most⟩
    constructor <;> linarith
  · rintro ⟨least, most⟩
    constructor <;> linarith

end Library.Calendar
