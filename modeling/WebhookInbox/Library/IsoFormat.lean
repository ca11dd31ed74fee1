import WebhookInbox.Library.Calendar
import WebhookInbox.Library.Text

/-!
# Dates as text

`isoformat` of a time in UTC, and a reader that takes such texts back. The interpreter's
reader takes many more forms; `IsoReader` asks of it only that it reads what `isoformat`
writes.

Days are counted from the first of January of year one, as `date.toordinal` does.
-/

namespace Library.IsoFormat

open Calendar

/-- A time that a `datetime` can hold, in whole milliseconds, as the driver hands it out. -/
structure Stamp where
  millis : Millis
  least : minInstant ≤ millis * 1000
  most : millis * 1000 ≤ maxInstant
deriving DecidableEq

/-- What a text says: the time on the clock, and how far the clock is ahead of UTC if the
text tells, both in microseconds. -/
structure Reading where
  wall : Instant
  offset : Option Int
deriving DecidableEq

/-! ## Days -/

/-- `_is_leap(year)` -/
def isLeap (year : Nat) : Bool := decide (year % 4 = 0 ∧ (year % 100 ≠ 0 ∨ year % 400 = 0))

/-- `_DAYS_BEFORE_MONTH`, and a day more after February of a leap year. -/
def daysBeforeMonth (leap : Bool) (month : Nat) : Nat :=
  [0, 0, 31, 59, 90, 120, 151, 181, 212, 243, 273, 304, 334].getD month 0 +
    if 2 < month ∧ leap then 1 else 0

/-- `_DAYS_IN_MONTH`, and a day more in February of a leap year. -/
def daysInMonth (leap : Bool) (month : Nat) : Nat :=
  [0, 31, 28, 31, 30, 31, 30, 31, 31, 30, 31, 30, 31].getD month 0 +
    if month = 2 ∧ leap then 1 else 0

/-- `_days_before_year(year)`, for the number of years before it. -/
def daysBeforeYear (years : Nat) : Nat := years * 365 + years / 4 - years / 100 + years / 400

/-- A year, a month and a day. -/
structure Date where
  year : Nat
  month : Nat
  day : Nat

/-- `_ymd2ord(year, month, day)` -/
def Date.toOrdinal (date : Date) : Nat :=
  daysBeforeYear (date.year - 1) + daysBeforeMonth (isLeap date.year) date.month + date.day

/-- The month and the day of a day within a year, counted from zero. -/
def monthAndDay (leap : Bool) (day : Nat) : Nat × Nat :=
  let month := (day + 50) / 32
  if daysBeforeMonth leap month ≤ day then (month, day - daysBeforeMonth leap month + 1)
  else
    (month - 1,
      day - (daysBeforeMonth leap month - daysInMonth leap (month - 1)) + 1)

/-- `_ord2ymd(n)` -/
def ofOrdinal (ordinal : Nat) : Date :=
  let n := ordinal - 1
  let n400 := n / 146097
  let n100 := n % 146097 / 36524
  let n4 := n % 146097 % 36524 / 1461
  let n1 := n % 146097 % 36524 % 1461 / 365
  let day := n % 146097 % 36524 % 1461 % 365
  let year := n400 * 400 + n100 * 100 + n4 * 4 + n1 + 1
  if n1 = 4 ∨ n100 = 4 then ⟨year - 1, 12, 31⟩
  else
    let found := monthAndDay (decide (n1 = 3 ∧ (n4 ≠ 24 ∨ n100 = 3))) day
    ⟨year, found.1, found.2⟩

/-- The month and the day make up the day within the year. -/
theorem monthAndDay_sum (leap : Bool) {day : Nat} (within : day < 365) :
    daysBeforeMonth leap (monthAndDay leap day).1 + (monthAndDay leap day).2 = day + 1 := by
  have table : ∀ leap : Bool, ∀ day : Fin 365,
      daysBeforeMonth leap (monthAndDay leap day).1 + (monthAndDay leap day).2 = day + 1 := by
    decide +kernel
  exact table leap ⟨day, within⟩

/-- Months have two digits, and so have days. -/
theorem monthAndDay_lt (leap : Bool) {day : Nat} (within : day < 365) :
    (monthAndDay leap day).1 < 100 ∧ (monthAndDay leap day).2 < 100 := by
  have table : ∀ leap : Bool, ∀ day : Fin 365,
      (monthAndDay leap day).1 < 100 ∧ (monthAndDay leap day).2 < 100 := by
    decide +kernel
  exact table leap ⟨day, within⟩

/-- The years before one in the cycles of 400, 100 and 4 years. -/
theorem daysBeforeYear_cycles (n400 : Nat) {n100 n4 n1 : Nat} (small100 : n100 ≤ 3) (small4 : n4 ≤ 24)
    (small1 : n1 ≤ 3) :
    daysBeforeYear (n400 * 400 + n100 * 100 + n4 * 4 + n1) =
      n400 * 146097 + n100 * 36524 + n4 * 1461 + n1 * 365 := by
  unfold daysBeforeYear
  omega

/-- Which of those years are leap years. -/
theorem isLeap_cycles (n400 : Nat) {n100 n4 n1 : Nat} (small100 : n100 ≤ 3) (small4 : n4 ≤ 24)
    (small1 : n1 ≤ 3) :
    isLeap (n400 * 400 + n100 * 100 + n4 * 4 + n1 + 1) =
      decide (n1 = 3 ∧ (n4 ≠ 24 ∨ n100 = 3)) := by
  unfold isLeap
  rw [decide_eq_decide]
  omega

/-- A day that is not the last one of the longest cycles. -/
theorem toOrdinal_cycles (n400 : Nat) {n100 n4 n1 day : Nat} {leap : Bool} (small100 : n100 ≤ 3)
    (small4 : n4 ≤ 24) (small1 : n1 ≤ 3)
    (long : leap = decide (n1 = 3 ∧ (n4 ≠ 24 ∨ n100 = 3))) (within : day < 365) :
    Date.toOrdinal ⟨n400 * 400 + n100 * 100 + n4 * 4 + n1 + 1, (monthAndDay leap day).1,
        (monthAndDay leap day).2⟩ =
      n400 * 146097 + n100 * 36524 + n4 * 1461 + n1 * 365 + day + 1 := by
  have sum := monthAndDay_sum leap within
  have years := daysBeforeYear_cycles n400 small100 small4 small1
  have year : isLeap (n400 * 400 + n100 * 100 + n4 * 4 + n1 + 1) = leap := by
    rw [isLeap_cycles n400 small100 small4 small1, long]
  simp only [Date.toOrdinal, year, Nat.add_sub_cancel, years]
  omega

/-- The last day of the fourth year of a cycle that has a leap day. -/
theorem toOrdinal_last (n400 : Nat) {n100 n4 : Nat} (small100 : n100 ≤ 3) (small4 : n4 ≤ 24)
    (leap : n4 ≠ 24 ∨ n100 = 3) :
    Date.toOrdinal ⟨n400 * 400 + n100 * 100 + n4 * 4 + 3 + 1, 12, 31⟩ =
      n400 * 146097 + n100 * 36524 + n4 * 1461 + 1461 := by
  have years := daysBeforeYear_cycles n400 small100 small4 (Nat.le_refl 3)
  have year : isLeap (n400 * 400 + n100 * 100 + n4 * 4 + 3 + 1) = true := by
    rw [isLeap_cycles n400 small100 small4 (Nat.le_refl 3)]
    simpa using leap
  have before : daysBeforeMonth true 12 = 335 := by decide
  simp only [Date.toOrdinal, year, Nat.add_sub_cancel, years, before]

/-- The date of a day has that day as its number.

Proof: by the cycles of years, apart from the last day of a leap year, which ends the
longest of them. -/
theorem toOrdinal_ofOrdinal {ordinal : Nat} (positive : 1 ≤ ordinal) :
    (ofOrdinal ordinal).toOrdinal = ordinal := by
  obtain ⟨n, rfl⟩ : ∃ n, ordinal = n + 1 := ⟨ordinal - 1, by omega⟩
  simp only [ofOrdinal, Nat.add_sub_cancel]
  by_cases century : n % 146097 / 36524 = 4
  · have rest : n % 146097 % 36524 / 1461 = 0 ∧ n % 146097 % 36524 % 1461 / 365 = 0 := by omega
    rw [if_pos (.inr century), century, rest.1, rest.2]
    have total : n / 146097 * 146097 + 3 * 36524 + 24 * 1461 + 1461 = n + 1 := by omega
    have same : n / 146097 * 400 + 4 * 100 + 0 * 4 + 0 =
        n / 146097 * 400 + 3 * 100 + 24 * 4 + 3 + 1 := by ring
    have final := toOrdinal_last (n / 146097) (Nat.le_refl 3) (Nat.le_refl 24) (.inr rfl)
    rw [same, final, total]
  · have small100 : n % 146097 / 36524 ≤ 3 := by omega
    by_cases fourth : n % 146097 % 36524 % 1461 / 365 = 4
    · have earlier : n % 146097 % 36524 / 1461 ≤ 23 := by omega
      rw [if_pos (.inl fourth), fourth]
      have total : n / 146097 * 146097 + n % 146097 / 36524 * 36524 +
          n % 146097 % 36524 / 1461 * 1461 + 1461 = n + 1 := by omega
      have same : n / 146097 * 400 + n % 146097 / 36524 * 100 +
          n % 146097 % 36524 / 1461 * 4 + 4 =
          n / 146097 * 400 + n % 146097 / 36524 * 100 + n % 146097 % 36524 / 1461 * 4 + 3 + 1 := by
        rfl
      have final := toOrdinal_last (n / 146097) small100 (Nat.le_succ_of_le earlier)
        (.inl (Nat.ne_of_lt (Nat.lt_succ_of_le earlier)))
      rw [same, final, total]
    · have usual : ¬ (n % 146097 % 36524 % 1461 / 365 = 4 ∨ n % 146097 / 36524 = 4) := by omega
      have small4 : n % 146097 % 36524 / 1461 ≤ 24 := by omega
      have small1 : n % 146097 % 36524 % 1461 / 365 ≤ 3 := by omega
      rw [if_neg usual]
      have within : n % 146097 % 36524 % 1461 % 365 < 365 := Nat.mod_lt _ (by decide)
      rw [toOrdinal_cycles (n / 146097) small100 small4 small1 rfl within]
      omega

/-- Up to the last day of the year 9999 the year has four digits, and month and day have
two. -/
theorem ofOrdinal_lt {ordinal : Nat} (positive : 1 ≤ ordinal) (most : ordinal ≤ 3652059) :
    (ofOrdinal ordinal).year < 10000 ∧ (ofOrdinal ordinal).month < 100 ∧
      (ofOrdinal ordinal).day < 100 := by
  obtain ⟨n, rfl⟩ : ∃ n, ordinal = n + 1 := ⟨ordinal - 1, by omega⟩
  have within : n % 146097 % 36524 % 1461 % 365 < 365 := Nat.mod_lt _ (by decide)
  simp only [ofOrdinal, Nat.add_sub_cancel]
  by_cases final : n % 146097 % 36524 % 1461 / 365 = 4 ∨ n % 146097 / 36524 = 4
  · rw [if_pos final]
    refine ⟨?_, (by decide : 12 < 100), (by decide : 31 < 100)⟩
    change n / 146097 * 400 + n % 146097 / 36524 * 100 + n % 146097 % 36524 / 1461 * 4 +
      n % 146097 % 36524 % 1461 / 365 < 10000
    omega
  · rw [if_neg final]
    refine ⟨?_, monthAndDay_lt _ within⟩
    change n / 146097 * 400 + n % 146097 / 36524 * 100 + n % 146097 % 36524 / 1461 * 4 +
      n % 146097 % 36524 % 1461 / 365 + 1 < 10000
    omega

/-! ## Digits -/

/-- A number with leading zeros. -/
def digits : Nat → Nat → Str
  | 0, _ => []
  | width + 1, value => digits width (value / 10) ++ [Fin.ofNat 0x110000 (0x30 + value % 10)]

/-- Read a number of this many digits, and go on after it. -/
def number (width : Nat) (text : Str) : Option (Nat × Str) :=
  if (text.take width).length = width ∧ (text.take width).all Text.isAsciiDigit then
    some ((Text.digitsValue (text.take width)).toNat, text.drop width)
  else none

/-- Go on after a text that has to stand here. -/
def expect (wanted text : Str) : Option Str :=
  if Text.startsWith text wanted then some (text.drop wanted.length) else none

theorem digits_length (width value : Nat) : (digits width value).length = width := by
  induction width generalizing value with
  | zero => rfl
  | succ width inductionHypothesis => simp [digits, inductionHypothesis]

/-- The last digit of a number. -/
theorem digit_val (value : Nat) : (Fin.ofNat 0x110000 (0x30 + value % 10)).val =
    0x30 + value % 10 := by
  have small : 0x30 + value % 10 < 0x110000 := by omega
  exact Nat.mod_eq_of_lt small

theorem digits_ascii (width value : Nat) : (digits width value).all Text.isAsciiDigit = true := by
  induction width generalizing value with
  | zero => rfl
  | succ width inductionHypothesis =>
    have last : Text.isAsciiDigit (Fin.ofNat 0x110000 (0x30 + value % 10)) = true := by
      rw [Text.isAsciiDigit, digit_val, decide_eq_true_eq]
      omega
    rw [digits, List.all_append, inductionHypothesis, List.all_cons, last]
    rfl

theorem digits_value (width value : Nat) (small : value < 10 ^ width) :
    Text.digitsValue (digits width value) = value := by
  induction width generalizing value with
  | zero =>
    have zero : value = 0 := by simpa using small
    simp [digits, Text.digitsValue, zero]
  | succ width inductionHypothesis =>
    have front : Text.digitsValue (digits width (value / 10)) = (value / 10 : Nat) :=
      inductionHypothesis (value / 10) (by
        rw [Nat.pow_succ] at small
        omega)
    rw [Text.digitsValue] at front
    rw [digits, Text.digitsValue, List.foldl_append, front, List.foldl_cons, List.foldl_nil,
      digit_val]
    omega

/-- A written number is read back. -/
theorem number_digits {width value : Nat} (small : value < 10 ^ width) (rest : Str) :
    number width (digits width value ++ rest) = some (value, rest) := by
  have front : (digits width value ++ rest).take width = digits width value := by
    rw [List.take_append_of_le_length (by rw [digits_length]), List.take_of_length_le]
    rw [digits_length]
  have later : (digits width value ++ rest).drop width = rest := by
    rw [List.drop_append_of_le_length (by rw [digits_length]), List.drop_of_length_le,
      List.nil_append]
    rw [digits_length]
  rw [number, front, later, if_pos ⟨digits_length width value, digits_ascii width value⟩,
    digits_value width value small, Int.toNat_natCast]

/-- A text that stands there is found. -/
theorem expect_append (wanted rest : Str) : expect wanted (wanted ++ rest) = some rest := by
  have starts : Text.startsWith (wanted ++ rest) wanted = true := by simp
  rw [expect, if_pos starts, List.drop_left]

/-! ## Times -/

/-- The number of the day that a time falls on. The first of January 1970 is day 719163. -/
def ordinalOf (stamp : Stamp) : Nat := (stamp.millis / 86400000 + 719163).toNat

/-- The milliseconds since that day began. -/
def timeOf (stamp : Stamp) : Nat := (stamp.millis % 86400000).toNat

/-- `stamp.isoformat()` of a time in UTC. Microseconds are written unless they are zero. -/
def isoformat (stamp : Stamp) : Str :=
  let date := ofOrdinal (ordinalOf stamp)
  let time := timeOf stamp
  digits 4 date.year ++ lit "-" ++ digits 2 date.month ++ lit "-" ++ digits 2 date.day ++
    lit "T" ++ digits 2 (time / 3600000) ++ lit ":" ++ digits 2 (time / 60000 % 60) ++ lit ":" ++
    digits 2 (time / 1000 % 60) ++
    (if time % 1000 = 0 then [] else lit "." ++ digits 6 (time % 1000 * 1000)) ++ lit "+00:00"

example : isoformat ⟨951782400123, by decide, by decide⟩ =
    lit "2000-02-29T00:00:00.123000+00:00" := by decide +kernel

/-- The microseconds of a text, which may leave them out. -/
def fraction (text : Str) : Option (Nat × Str) :=
  match expect (lit ".") text with
  | none => some (0, text)
  | some rest => number 6 rest

/-- The milliseconds that the parts of a text make up. -/
def readFields (text : Str) : Option Millis :=
  (number 4 text).bind fun (year, text) => (expect (lit "-") text).bind fun text =>
  (number 2 text).bind fun (month, text) => (expect (lit "-") text).bind fun text =>
  (number 2 text).bind fun (day, text) => (expect (lit "T") text).bind fun text =>
  (number 2 text).bind fun (hour, text) => (expect (lit ":") text).bind fun text =>
  (number 2 text).bind fun (minute, text) => (expect (lit ":") text).bind fun text =>
  (number 2 text).bind fun (second, text) => (fraction text).map fun (micro, _) =>
    ((Date.toOrdinal ⟨year, month, day⟩ : Int) - 719163) * 86400000 + hour * 3600000 +
      minute * 60000 + second * 1000 + (micro / 1000 : Nat)

/-- A time in milliseconds, if a `datetime` can hold it. -/
def stampOf (millis : Millis) : Option Stamp :=
  if inRange : minInstant ≤ millis * 1000 ∧ millis * 1000 ≤ maxInstant then
    some ⟨millis, inRange.1, inRange.2⟩
  else none

/-- Read exactly the texts that `isoformat` writes. -/
def readStrict (text : Str) : Option Reading :=
  (readFields text).bind fun millis => (stampOf millis).bind fun stamp =>
    if isoformat stamp = text then some ⟨stamp.millis * 1000, some 0⟩ else none

/-- `datetime.fromisoformat(text)`, missing when it raises. -/
structure IsoReader where
  read : Str → Option Reading
  read_isoformat : ∀ stamp : Stamp, read (isoformat stamp) = some ⟨stamp.millis * 1000, some 0⟩

/-- The days of a time that a `datetime` can hold. -/
theorem ordinalOf_bounds (stamp : Stamp) : 1 ≤ ordinalOf stamp ∧ ordinalOf stamp ≤ 3652059 ∧
    ((ordinalOf stamp : Int) - 719163) * 86400000 + (timeOf stamp : Int) = stamp.millis := by
  have bounds : ∀ millis : Int, -62135596800000000 ≤ millis * 1000 →
      millis * 1000 ≤ 253402300799999999 →
      1 ≤ (millis / 86400000 + 719163).toNat ∧ (millis / 86400000 + 719163).toNat ≤ 3652059 ∧
        (((millis / 86400000 + 719163).toNat : Int) - 719163) * 86400000 +
          ((millis % 86400000).toNat : Int) = millis := by
    intro millis least most
    omega
  exact bounds stamp.millis stamp.least stamp.most

/-- The fraction is read as it is written. -/
theorem fraction_written (time : Nat) {rest : Str} (other : expect (lit ".") rest = none) :
    (fraction ((if time % 1000 = 0 then [] else lit "." ++ digits 6 (time % 1000 * 1000)) ++
      rest)).map (fun found => found.1 / 1000) = some (time % 1000) := by
  by_cases whole : time % 1000 = 0
  · rw [if_pos whole, List.nil_append, fraction, other, whole]
    simp
  · have small : time % 1000 * 1000 < 10 ^ 6 := by omega
    rw [if_neg whole, List.append_assoc, fraction, expect_append]
    change (number 6 (digits 6 (time % 1000 * 1000) ++ rest)).map _ = _
    rw [number_digits small]
    change some (time % 1000 * 1000 / 1000) = _
    rw [Nat.mul_div_cancel _ (by decide)]

/-- The parts that are written make up the time. -/
theorem readFields_isoformat (stamp : Stamp) : readFields (isoformat stamp) = some stamp.millis := by
  obtain ⟨positive, most, sum⟩ := ordinalOf_bounds stamp
  have small := ofOrdinal_lt positive most
  have year : (ofOrdinal (ordinalOf stamp)).year < 10 ^ 4 := small.1
  have month : (ofOrdinal (ordinalOf stamp)).month < 10 ^ 2 := small.2.1
  have day : (ofOrdinal (ordinalOf stamp)).day < 10 ^ 2 := small.2.2
  have within : timeOf stamp < 86400000 := by
    have bounded : ∀ millis : Int, (millis % 86400000).toNat < 86400000 := by
      intro millis
      omega
    exact bounded stamp.millis
  have hour : timeOf stamp / 3600000 < 10 ^ 2 := by omega
  have minute : timeOf stamp / 60000 % 60 < 10 ^ 2 := by omega
  have second : timeOf stamp / 1000 % 60 < 10 ^ 2 := by omega
  have date := toOrdinal_ofOrdinal positive
  have written := fraction_written (timeOf stamp) (by decide : expect (lit ".") (lit "+00:00") = none)
  obtain ⟨⟨micro, rest⟩, read, same⟩ := Option.map_eq_some_iff.mp written
  simp only [isoformat, List.append_assoc] at read ⊢
  simp only [readFields, number_digits year, number_digits month, number_digits day,
    number_digits hour, number_digits minute, number_digits second, expect_append,
    Option.bind_some]
  rw [read, Option.map_some, same]
  change some (((ofOrdinal (ordinalOf stamp)).toOrdinal - 719163 : Int) * 86400000 +
    ((timeOf stamp / 3600000 : Nat) : Int) * 3600000 +
    ((timeOf stamp / 60000 % 60 : Nat) : Int) * 60000 +
    ((timeOf stamp / 1000 % 60 : Nat) : Int) * 1000 + ((timeOf stamp % 1000 : Nat) : Int)) = _
  rw [date]
  have parts : ∀ days time millis : Int, ∀ clock : Nat, clock < 86400000 → time = clock →
      days + time = millis →
      days + ((clock / 3600000 : Nat) : Int) * 3600000 +
        ((clock / 60000 % 60 : Nat) : Int) * 60000 + ((clock / 1000 % 60 : Nat) : Int) * 1000 +
        ((clock % 1000 : Nat) : Int) = millis := by
    intro days time millis clock
    omega
  exact congrArg some (parts _ _ _ (timeOf stamp) within rfl sum)

/-- What `isoformat` writes is read back. -/
theorem readStrict_isoformat (stamp : Stamp) :
    readStrict (isoformat stamp) = some ⟨stamp.millis * 1000, some 0⟩ := by
  have held : stampOf stamp.millis = some stamp := by
    rw [stampOf, dif_pos ⟨stamp.least, stamp.most⟩]
  rw [readStrict, readFields_isoformat, Option.bind_some, held, Option.bind_some, if_pos rfl]

/-- The strict reader is one admissible reader. -/
def IsoReader.strict : IsoReader := ⟨readStrict, readStrict_isoformat⟩

/-- A date is written with digits and these signs. -/
theorem not_mem_isoformat {point : CodePoint} (letter : Text.isAsciiDigit point = false)
    (other : point ∉ lit "-T:.+") (stamp : Stamp) : point ∉ isoformat stamp := by
  have number : ∀ width value, point ∉ digits width value := by
    intro width value member
    rw [List.all_eq_true.mp (digits_ascii width value) point member] at letter
    cases letter
  have sign : ∀ part : Str, part ⊆ lit "-T:.+" → point ∉ part :=
    fun part inside member => other (inside member)
  have zone : point ∉ lit "+00:00" := by
    intro member
    have ofTwo : ∀ sign ∈ lit "+00:00",
        (Text.isAsciiDigit sign || decide (sign ∈ lit "-T:.+")) = true :=
      List.all_eq_true.mp (by decide)
    simpa [letter, other] using ofTwo point member
  have dash := sign (lit "-") (by decide)
  have colon := sign (lit ":") (by decide)
  have period := sign (lit ".") (by decide)
  have mark := sign (lit "T") (by decide)
  simp only [isoformat, List.mem_append, number, dash, colon, mark, zone, or_false, false_or, or_self]
  split
  · exact List.not_mem_nil
  · simp only [List.mem_append, number, period, or_self, not_false_eq_true]

/-- It is written without lone surrogates. -/
theorem isoformat_scalar (stamp : Stamp) : Text.Scalar (isoformat stamp) := by
  intro point member
  by_contra surrogate
  rw [Bool.not_eq_false] at surrogate
  refine not_mem_isoformat ?_ ?_ stamp member
  · have range := of_decide_eq_true surrogate
    simp only [Text.isAsciiDigit, decide_eq_false_iff_not]
    omega
  · intro sign
    rw [Text.scalar_lit _ point sign] at surrogate
    cases surrogate

/-- A date is not written as nothing. -/
theorem isoformat_ne_nil (stamp : Stamp) : isoformat stamp ≠ [] := by
  simp [isoformat, lit]

end Library.IsoFormat
