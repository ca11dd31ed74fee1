import WebhookInbox.Search.Query

/-!
# The dates of a filter

A listing, its count and the exports take their filter from the fields of a form. The upper
bound on the time is a day after the date that was given, and adding the day raises on the
last day of the calendar.

`Search/Query` has the filter as it reaches the database. Here it is as `to_query` builds it,
with dates that were not converted yet.
-/

namespace WebhookInbox.Search

open Library Calendar IsoFormat

/-! ## The fields of a form -/

/-- `value or None` -/
def orNone (value : Str) : Option Str := if value = [] then none else some value

/-- `EventQuery` -/
structure EventQuery where
  q : Str
  filters : Filters
  params : Dict Str Str

/-- `event_query(q, endpoint, event_status, method, event_type, date_from, date_to)` -/
def eventQuery (q endpoint eventStatus method eventType dateFrom dateTo : Str) : EventQuery where
  q := q
  filters := {
    endpoint := orNone endpoint
    status := orNone eventStatus
    method := orNone method
    eventType := orNone eventType
    dateFrom := orNone dateFrom
    dateTo := orNone dateTo }
  params := [
    (lit "q", q), (lit "endpoint", endpoint), (lit "status", eventStatus), (lit "method", method),
    (lit "type", eventType), (lit "from", dateFrom), (lit "to", dateTo)].filter
      (fun param => decide (param.2 ≠ []))

/-! ## The filter before it is sent -/

/-- The document that `to_query` returns, by its fields. Its dates have a time zone. -/
structure FilterDoc where
  endpointId : Option ObjectId
  status : Option Str
  method : Option Str
  eventType : Option Str
  receivedSince : Option Reading
  receivedBefore : Option Reading

/-- The point in time that a reading names. It may lie outside the range of `datetime`. -/
def instantOf (reading : Reading) : Instant := reading.wall - reading.offset.getD 0

/-- `parsed if parsed.tzinfo else parsed.replace(tzinfo=UTC)` -/
def aware (reading : Reading) : Reading := ⟨reading.wall, some (reading.offset.getD 0)⟩

/-- `end + timedelta(days=1)`, missing when it raises. The zone stays. -/
def dayLater (reading : Reading) : Option Reading :=
  (addSeconds reading.wall 86400).map (fun wall => ⟨wall, reading.offset⟩)

/-- `to_query(self)`, missing when it raises. -/
def Filters.toDoc (runtime : Runtime) (filters : Filters) : Option FilterDoc :=
  let document : FilterDoc := {
    endpointId := (given filters.endpoint).bind runtime.readId
    status := given filters.status
    method := (given filters.method).map runtime.casing.upper
    eventType := given filters.eventType
    receivedSince := (parseDate runtime filters.dateFrom).map aware
    receivedBefore := none }
  match (parseDate runtime filters.dateTo).map aware with
  | none => some document
  | some ending =>
      (dayLater ending).map (fun later => { document with receivedBefore := some later })

/-- The times that the bounds of a filter admit. -/
def FilterDoc.admits (document : FilterDoc) (received : Instant) : Prop :=
  (∀ start ∈ document.receivedSince, instantOf start ≤ received) ∧
    ∀ ending ∈ document.receivedBefore, received < instantOf ending

/-- A date as the driver sends it, missing when the conversion to UTC raises. -/
def sentDate : Option Reading → Option (Option Millis)
  | none => some none
  | some reading => (utc reading).map (fun instant => some (toMillis instant))

/-- The filter as it reaches the database. -/
def FilterDoc.sent (document : FilterDoc) : Option Query :=
  (sentDate document.receivedSince).bind (fun since =>
    (sentDate document.receivedBefore).map (fun before =>
      ⟨document.endpointId, document.status, document.method, document.eventType, since, before⟩))

/-! ## Dates -/

@[simp] theorem wall_aware (reading : Reading) : (aware reading).wall = reading.wall := rfl

@[simp] theorem instantOf_aware (reading : Reading) :
    instantOf (aware reading) = instantOf reading := rfl

@[simp] theorem utc_aware (reading : Reading) : utc (aware reading) = utc reading := rfl

/-- The day after is a day later. -/
theorem instantOf_dayLater {reading later : Reading} (added : dayLater reading = some later) :
    instantOf later = instantOf reading + day := by
  obtain ⟨wall, moved, rfl⟩ := Option.map_eq_some_iff.mp added
  have sum := addSeconds_eq moved
  simp only [instantOf, sum, day]
  ring

/-- There is a day after exactly within the range of `datetime`, on the clock of the zone. -/
theorem dayLater_isSome (reading : Reading) :
    (dayLater reading).isSome = true ↔
      minInstant ≤ reading.wall + day ∧ reading.wall + day ≤ maxInstant := by
  rw [dayLater, Option.isSome_map, addSeconds_isSome]
  exact Iff.rfl

/-- What reaches the database is what `to_query` returns, once it is sent. -/
theorem toQuery_eq (runtime : Runtime) (filters : Filters) :
    filters.toQuery runtime = (filters.toDoc runtime).bind FilterDoc.sent := by
  have since : sinceDate runtime filters.dateFrom =
      sentDate ((parseDate runtime filters.dateFrom).map aware) := by
    cases start : parseDate runtime filters.dateFrom <;> simp [sinceDate, sentDate, start]
  cases ending : parseDate runtime filters.dateTo with
  | none => simp [Filters.toQuery, Filters.toDoc, FilterDoc.sent, since, beforeDate, ending, sentDate]
  | some reading =>
    cases moved : addSeconds reading.wall 86400 with
    | none =>
      simp [Filters.toQuery, Filters.toDoc, beforeDate, ending, dayLater, aware, moved]
    | some later =>
      have same : utc ⟨later, some (reading.offset.getD 0)⟩ = utc ⟨later, reading.offset⟩ := rfl
      simp [Filters.toQuery, Filters.toDoc, FilterDoc.sent, since, beforeDate, ending, dayLater,
        aware, moved, sentDate, same]

/-! ## When a filter is returned -/

section
variable {runtime : Runtime} {filters : Filters}

/-- A filter raises exactly if there is no day after its upper date. -/
theorem toDoc_isSome :
    (filters.toDoc runtime).isSome = true ↔
      ∀ ending ∈ parseDate runtime filters.dateTo,
        minInstant ≤ ending.wall + day ∧ ending.wall + day ≤ maxInstant := by
  cases parsed : parseDate runtime filters.dateTo with
  | none => simp [Filters.toDoc, parsed]
  | some ending =>
    simp [Filters.toDoc, parsed, dayLater_isSome]

/-- The bounds of a filter that is returned are the dates that could be read. -/
theorem toDoc_admits {document : FilterDoc} (returned : filters.toDoc runtime = some document)
    (received : Instant) :
    document.admits received ↔
      (∀ start ∈ parseDate runtime filters.dateFrom, instantOf start ≤ received) ∧
        ∀ ending ∈ parseDate runtime filters.dateTo, received < instantOf ending + day := by
  unfold Filters.toDoc at returned
  cases parsed : parseDate runtime filters.dateTo with
  | none =>
    simp only [parsed, Option.map_none, Option.some.injEq] at returned
    subst returned
    simp [FilterDoc.admits]
  | some ending =>
    simp only [parsed, Option.map_some] at returned
    obtain ⟨later, added, rfl⟩ := Option.map_eq_some_iff.mp returned
    have moved := instantOf_dayLater added
    rw [instantOf_aware] at moved
    simp [FilterDoc.admits, moved]

/-- Where a filter raises there is no page and no export. -/
theorem pages_of_raises (raised : filters.toDoc runtime = none) (database : Database)
    (events : List Event) (query : Str) (count : Nat) (cursor : Option (Cursor Reading)) :
    findEvents runtime database events query filters count cursor = none ∧
      streamListed runtime events filters = none ∧
      streamRanked runtime database events query filters = none := by
  have lost : filters.toQuery runtime = none := by rw [toQuery_eq, raised, Option.bind_none]
  refine ⟨?_, ?_, ?_⟩
  · unfold findEvents
    split
    · simp [searchEvents, buildPipeline, lost]
    · simp [listEvents, lost]
  · simp [streamListed, lost]
  · simp [streamRanked, searchEvents, buildPipeline, lost]

end

/-- A date is read if it is there and can be read. -/
theorem mem_parseDate_orNone {runtime : Runtime} {date : Str} {reading : Reading} :
    reading ∈ parseDate runtime (orNone date) ↔
      date ≠ [] ∧ runtime.dates.read date = some reading := by
  by_cases blank : date = []
  · simp [parseDate, given, orNone, blank]
  · simp [parseDate, given, orNone, blank, Option.filter]

/-- The filter of a form is returned, with bounds at the instants of the dates that can be
read, exactly if the upper date has a day after it. -/
theorem eventQuery_returns_iff (runtime : Runtime)
    (q endpoint eventStatus method eventType dateFrom dateTo : Str) :
    (∃ document,
        (eventQuery q endpoint eventStatus method eventType dateFrom dateTo).filters.toDoc
          runtime = some document ∧
        ∀ received, document.admits received ↔
          (∀ start, dateFrom ≠ [] → runtime.dates.read dateFrom = some start →
            instantOf start ≤ received) ∧
          ∀ ending, dateTo ≠ [] → runtime.dates.read dateTo = some ending →
            received < instantOf ending + day) ↔
      ∀ ending, dateTo ≠ [] → runtime.dates.read dateTo = some ending →
        minInstant ≤ ending.wall + day ∧ ending.wall + day ≤ maxInstant := by
  have room := @toDoc_isSome runtime
    (eventQuery q endpoint eventStatus method eventType dateFrom dateTo).filters
  simp only [eventQuery, mem_parseDate_orNone, and_imp] at room ⊢
  rw [← room, Option.isSome_iff_exists]
  refine exists_congr fun document => and_iff_left_of_imp ?_
  intro returned received
  have bounds := toDoc_admits returned received
  simpa only [mem_parseDate_orNone, and_imp] using bounds

/-- The start of the last day of the calendar. -/
def lastDay : Stamp := ⟨253402214400000, by decide, by decide⟩

/-- Up to the last day of the calendar no filter is returned. -/
theorem lastDay_raises :
    ¬ ∀ (runtime : Runtime) (q endpoint eventStatus method eventType dateFrom dateTo : Str),
      ∃ document, (eventQuery q endpoint eventStatus method eventType dateFrom dateTo).filters.toDoc
        runtime = some document := by
  intro claimed
  obtain ⟨document, returned⟩ := claimed asciiRuntime [] [] [] [] [] [] (isoformat lastDay)
  have room := toDoc_isSome.mp (Option.isSome_iff_exists.mpr ⟨document, returned⟩)
  have reading := mem_parseDate_orNone.mpr
    ⟨isoformat_ne_nil lastDay, asciiRuntime.dates.read_isoformat lastDay⟩
  exact absurd (room _ reading).2 (by decide)

end WebhookInbox.Search
