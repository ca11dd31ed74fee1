import WebhookInbox.Search.Pages

/-!
# Pages and the bounds of their filter

The cursor of a listing takes the place of the upper bound of the filter, so a cursor that
is not from a page of that filter may lead past it. A ranked page tests the cursor after
the filter and stays within it.
-/

namespace WebhookInbox.Search

open Library Calendar IsoFormat Documents Aggregation KeysetPaging WebhookInbox.Tokenize

/-- A listing whose cursor is later than the upper bound of the filter, and later than the
lower one. -/
def Overrides (runtime : Runtime) (query : Str) (filters : Filters)
    (cursor : Option (Cursor Reading)) : Prop :=
  Text.strip query = [] ∧ ∃ constraints before position instant,
    filters.toQuery runtime = some constraints ∧ constraints.receivedBefore = some before ∧
      cursor = some position ∧ utc position.receivedAt = some instant ∧
      before < toMillis instant ∧
      ∀ since, constraints.receivedSince = some since → since < toMillis instant

/-! ## What is returned -/

/-- The events of a ranked page are events that its filter selects. -/
theorem aggregate_selects {database : Database} {pipeline : Pipeline} {events : List Event}
    {rows : List Row} (ran : aggregate database pipeline events = some rows) {row : Row}
    (member : row ∈ rows) : pipeline.filter.selects row.event.toBson = true := by
  obtain ⟨_, accepted⟩ := Option.ite_none_right_eq_some.mp ran
  obtain ⟨scored, computed, rfl⟩ := Option.map_eq_some_iff.mp accepted
  have kept := (listing_perm Row.key _).mem_iff.mp (mem_of_mem_cut member)
  have own : row.event ∈ scored.map Row.event := List.mem_map_of_mem (List.mem_filter.mp kept).1
  rw [events_of_rows computed] at own
  exact (List.mem_filter.mp own).2

/-- The events of a listed page meet its query. -/
theorem limited_found {query : Query} {events : List Event} {count : Nat} {event : Event}
    (member : event ∈ limited count (found query events)) : query.meets event = true := by
  have listed : event ∈ found query events := by
    unfold limited at member
    split at member
    · exact member
    · exact List.mem_of_mem_take member
  exact (List.mem_filter.mp ((listing_perm Event.time _).mem_iff.mp listed)).2

/-! ## Bounds on the time -/

/-- A lower bound on the time holds if the time is not below it. -/
theorem since_holds (event : Event) (bound : Millis) :
    Clause.holds ⟨[lit "received_at"], .since bound⟩ event.toBson =
      decide (bound ≤ event.time) := by
  simp [Clause.holds, Condition.holds, reached_time, alternatives]

/-- A query without its bounds on the time. -/
def Query.timeless (query : Query) : Query :=
  { query with receivedSince := none, receivedBefore := none }

/-- The bounds come after the other conditions. -/
theorem clauses_timeless (query : Query) :
    query.clauses = query.timeless.clauses ++
      ((query.receivedSince.map (fun date => ⟨[lit "received_at"], .since date⟩)).toList ++
        (query.receivedBefore.map (fun date => ⟨[lit "received_at"], .before date⟩)).toList) := by
  simp only [Query.clauses, Query.timeless, Option.map_none, Option.toList_none, List.append_nil,
    List.append_assoc]

/-- An event meets a query if it meets the rest of it and lies between the bounds. -/
theorem meets_iff (query : Query) (event : Event) :
    query.meets event = true ↔ query.timeless.meets event = true ∧
      (∀ since, query.receivedSince = some since → since ≤ event.time) ∧
      ∀ before, query.receivedBefore = some before → event.time < before := by
  rw [Query.meets, clauses_timeless, List.all_append, List.all_append, Bool.and_eq_true,
    Bool.and_eq_true, Query.meets]
  refine and_congr_right' (and_congr ?_ ?_)
  · cases query.receivedSince with
    | none => simp
    | some since => simp [since_holds]
  · cases query.receivedBefore with
    | none => simp
    | some before => simp [before_holds]

/-! ## An event for any query -/

/-- The fields that a query without bounds looks at. -/
def wantedFields (query : Query) : List (Str × Bson) := [
  (lit "endpoint", .doc [(lit "id", .objectId (query.endpointId.getD ⟨0⟩))]),
  (lit "processing", .doc [(lit "status", .str (query.status.getD []))]),
  (lit "request", .doc [(lit "method", .str (query.method.getD []))]),
  (lit "event_type", .str (query.eventType.getD []))]

/-- An event of this time that has what the query asks for. -/
def matching (query : Query) (stamp : Stamp) : Event where
  id := ⟨1⟩
  receivedAt := stamp
  search := none
  rest := wantedFields query
  others := by
    intro field member
    have name : field.1 ∈ [lit "endpoint", lit "processing", lit "request", lit "event_type"] :=
      List.mem_map_of_mem member
    revert name
    generalize field.1 = name
    revert name
    decide

theorem matching_meets (query : Query) (stamp : Stamp) :
    query.timeless.meets (matching query stamp) = true := by
  have endpoint : reached [lit "endpoint", lit "id"] (matching query stamp).toBson =
      [.objectId (query.endpointId.getD ⟨0⟩)] := rfl
  have status : reached [lit "processing", lit "status"] (matching query stamp).toBson =
      [.str (query.status.getD [])] := rfl
  have method : reached [lit "request", lit "method"] (matching query stamp).toBson =
      [.str (query.method.getD [])] := rfl
  have type : reached [lit "event_type"] (matching query stamp).toBson =
      [.str (query.eventType.getD [])] := rfl
  simp only [Query.meets, Query.clauses, Query.timeless, List.all_append, Bool.and_eq_true,
    Option.map_none, Option.toList_none, List.all_nil, and_true]
  refine ⟨⟨⟨?_, ?_⟩, ?_⟩, ?_⟩
  · cases given : query.endpointId with
    | none => rfl
    | some id => simp [Clause.holds, Condition.holds, endpoint, given, alternatives]
  · cases given : query.status with
    | none => rfl
    | some text => simp [Clause.holds, Condition.holds, status, given, alternatives, isText]
  · cases given : query.method with
    | none => rfl
    | some text => simp [Clause.holds, Condition.holds, method, given, alternatives, isText]
  · cases given : query.eventType with
    | none => rfl
    | some text => simp [Clause.holds, Condition.holds, type, given, alternatives, isText]

/-! ## Bounds in the range of dates -/

/-- A time in UTC is in the range of `datetime`. -/
theorem utc_range {reading : Reading} {instant : Instant} (moved : utc reading = some instant) :
    minInstant ≤ instant ∧ instant ≤ maxInstant := by
  simp only [utc] at moved
  obtain ⟨inRange, same⟩ := Option.ite_none_right_eq_some.mp moved
  exact Option.some.inj same ▸ inRange

/-- The upper bound of a filter is in the range of dates. -/
theorem before_least {runtime : Runtime} {filters : Filters} {constraints : Query}
    {before : Millis} (asked : filters.toQuery runtime = some constraints)
    (bounded : constraints.receivedBefore = some before) : minInstant ≤ before * 1000 := by
  obtain ⟨since, _, rest⟩ := Option.bind_eq_some_iff.mp asked
  obtain ⟨bound, computed, rfl⟩ := Option.map_eq_some_iff.mp rest
  obtain rfl : bound = some before := bounded
  unfold beforeDate at computed
  split at computed
  · cases computed
  · obtain ⟨later, _, moved⟩ := Option.bind_eq_some_iff.mp computed
    obtain ⟨instant, read, same⟩ := Option.map_eq_some_iff.mp moved
    obtain rfl := Option.some.inj same
    obtain ⟨least, most⟩ := utc_range read
    exact (toMillis_range least most).1

/-! ## Pages within their filter -/

section
variable {runtime : Runtime} {filters : Filters} {constraints : Query} {query : Str}
  {cursor : Option (Cursor Reading)}

/-- An event between the bounds of a query from a cursor on meets the filter, unless the
cursor overrides it. -/
theorem meets_of_cursor {narrowed : Query} {event : Event} (blank : Text.strip query = [])
    (asked : filters.toQuery runtime = some constraints)
    (within : ¬ Overrides runtime query filters cursor)
    (moved : fromCursor constraints cursor = some narrowed)
    (meets : narrowed.meets event = true) : constraints.meets event = true := by
  cases cursor with
  | none =>
    obtain rfl := Option.some.inj moved
    exact meets
  | some position =>
    obtain ⟨instant, read, rfl⟩ := Option.map_eq_some_iff.mp moved
    obtain ⟨rest, since, earlier⟩ := (meets_iff _ _).mp meets
    have early : event.time < toMillis instant := earlier _ rfl
    refine (meets_iff _ _).mpr ⟨rest, since, ?_⟩
    intro before bounded
    by_contra late
    refine within ⟨blank, constraints, before, position, instant, asked, bounded, rfl, read,
      (not_lt.mp late).trans_lt early, ?_⟩
    intro least given
    exact (since least given).trans_lt early

/-- A cursor that overrides the upper bound lists an event that the filter does not admit. -/
theorem escapes_of_overrides (overrides : Overrides runtime query filters cursor)
    (database : Database) (count : Nat) :
    ∃ constraints events event, filters.toQuery runtime = some constraints ∧
      findEvents runtime database events query filters count cursor = some ([event], false) ∧
      constraints.meets event = false := by
  obtain ⟨blank, constraints, before, position, instant, asked, bounded, rfl, read, later,
    since⟩ := overrides
  obtain ⟨least, most⟩ := utc_range read
  obtain ⟨time, late, notBefore, early⟩ : ∃ time, before ≤ time ∧
      (∀ bound, constraints.receivedSince = some bound → bound ≤ time) ∧
      time < toMillis instant := by
    -- The later one of the two bounds is before the cursor.
    refine ⟨max before (constraints.receivedSince.getD before), le_max_left _ _, ?_, ?_⟩
    · intro bound given
      rw [given]
      exact le_max_right before bound
    · refine max_lt later ?_
      cases given : constraints.receivedSince with
      | none => exact later
      | some bound => exact since bound given
  have lowest : minInstant ≤ time * 1000 :=
    (before_least asked bounded).trans (mul_le_mul_of_nonneg_right late (by decide))
  have highest : time * 1000 ≤ maxInstant :=
    (mul_le_mul_of_nonneg_right early.le (by decide)).trans (toMillis_range least most).2
  let event := matching constraints ⟨time, lowest, highest⟩
  have listed : ({ constraints with receivedBefore := some (toMillis instant) } : Query).meets
      event = true := by
    refine (meets_iff _ _).mpr ⟨matching_meets constraints _, notBefore, ?_⟩
    rintro _ ⟨⟩
    exact early
  have alone : found { constraints with receivedBefore := some (toMillis instant) } [event] =
      [event] := by
    rw [found, List.filter_cons_of_pos listed]
    rfl
  refine ⟨constraints, [event], event, asked, ?_, ?_⟩
  · have page : limited count [event] = [event] := by
      cases count with
      | zero => rfl
      | succ more => simp [limited]
    rw [findEvents, if_neg (not_not.mpr blank), listEvents, asked, Option.bind_some, fromCursor,
      read, Option.map_some, Option.map_some, alone, page, Option.map_some]
  · rw [← Bool.not_eq_true]
    intro meets
    exact absurd late (not_le.mpr (((meets_iff _ _).mp meets).2.2 before bounded))

end

/-- The events of a page meet the filter that was asked for, unless the query is blank and
the cursor lies past the upper bound on the time, and past the lower one. -/
theorem find_within_iff (runtime : Runtime) (database : Database) (query : Str)
    (filters : Filters) (count : Nat) (link : Option Str) :
    (∀ constraints events page ranked, filters.toQuery runtime = some constraints →
        findEvents runtime database events query filters count (Cursor.decode runtime link) =
          some (page, ranked) →
        ∀ event ∈ page, constraints.meets event = true) ↔
      ¬ Overrides runtime query filters (Cursor.decode runtime link) := by
  constructor
  · intro within overrides
    obtain ⟨constraints, events, event, asked, found, outside⟩ :=
      escapes_of_overrides overrides database count
    have meets := within constraints events [event] false asked found event
      (List.mem_singleton_self event)
    rw [outside] at meets
    cases meets
  · intro within constraints events page ranked asked found event member
    unfold findEvents at found
    split at found
    · obtain ⟨rows, searched, same⟩ := Option.map_eq_some_iff.mp found
      obtain ⟨rfl, rfl⟩ := Prod.mk.inj same
      obtain ⟨row, inRows, rfl⟩ := List.mem_map.mp member
      obtain ⟨pipeline, built, ran⟩ := Option.bind_eq_some_iff.mp searched
      exact ((selects_iff row.event built asked).mp (aggregate_selects ran inRows)).1
    · next blank =>
      obtain ⟨listed, listing, same⟩ := Option.map_eq_some_iff.mp found
      obtain ⟨rfl, rfl⟩ := Prod.mk.inj same
      obtain ⟨other, asked', rest⟩ := Option.bind_eq_some_iff.mp listing
      obtain rfl := Option.some.inj (asked.symm.trans asked')
      obtain ⟨narrowed, moved, rfl⟩ := Option.map_eq_some_iff.mp rest
      exact meets_of_cursor (not_not.mp blank) asked within moved (limited_found member)

/-- The first day of 2024. -/
def firstDay : Stamp := ⟨1704067200000, by decide, by decide⟩

/-- An event of the year after. -/
def yearLater : Event := bareEvent ⟨7⟩ ⟨1735689600000, by decide, by decide⟩ [] []

/-- The filter up to this day has the end of it for an upper bound. -/
theorem firstDay_toQuery :
    Filters.toQuery asciiRuntime { dateTo := some (isoformat firstDay) } =
      some ⟨none, none, none, none, none, some 1704153600000⟩ := by
  have filled : given (some (isoformat firstDay)) = some (isoformat firstDay) :=
    Option.filter_some_pos (decide_eq_true (isoformat_ne_nil firstDay))
  have read := asciiRuntime.dates.read_isoformat firstDay
  have before : beforeDate asciiRuntime (some (isoformat firstDay)) =
      some (some 1704153600000) := by
    rw [beforeDate, parseDate, filled, Option.bind_some, read]
    rfl
  rw [Filters.toQuery, before]
  rfl

/-- A cursor of the year after leads past it. -/
theorem find_escapes :
    ¬ ∀ (runtime : Runtime) (database : Database) (query : Str) (filters : Filters) (count : Nat)
      (link : Option Str) (constraints : Query) (events page : List Event) (ranked : Bool),
      filters.toQuery runtime = some constraints →
      findEvents runtime database events query filters count (Cursor.decode runtime link) =
        some (page, ranked) →
      ∀ event ∈ page, constraints.meets event = true := by
  intro claimed
  have overrides : Overrides asciiRuntime [] { dateTo := some (isoformat firstDay) }
      (Cursor.decode asciiRuntime (some (listedLink asciiRuntime yearLater))) := by
    refine ⟨rfl, _, 1704153600000, _, _, firstDay_toQuery, rfl, decode_listed _ _,
      utc_readBack _, by decide, ?_⟩
    rintro _ ⟨⟩
  obtain ⟨constraints, events, event, asked, found, outside⟩ :=
    escapes_of_overrides overrides (exactly systemVariables) 1
  have meets := claimed asciiRuntime (exactly systemVariables) [] _ 1 _ constraints events
    [event] false asked found event (List.mem_singleton_self event)
  rw [outside] at meets
  cases meets

end WebhookInbox.Search
