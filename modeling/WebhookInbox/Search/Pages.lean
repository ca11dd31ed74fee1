import WebhookInbox.Search.Scoring

/-!
# Reading a result page by page

A page that is full has a link to the next one, with a cursor made of the last row. The
cursor of a ranked search holds the whole sort key, and the pages together are the result:
`rankedPages_exact`. The cursor of a listing holds the time only. Events that share a time
are lost when a page ends among them, and `listedPages_complete_iff` says that this is all
that can be lost.
-/

namespace WebhookInbox.Search

open Library Calendar IsoFormat Documents Aggregation KeysetPaging WebhookInbox.Tokenize

/-! ## Links -/

/-- `Cursor.after(document, scored)` without a score. -/
def Cursor.afterListed (event : Event) : Cursor Stamp := ⟨event.receivedAt, none⟩

/-- `Cursor.after(document, scored)` with a score. -/
def Cursor.afterRanked (row : Row) : Cursor Stamp :=
  ⟨row.event.receivedAt, some (row.score, row.event.id)⟩

/-- The page of a listing that a link leads to. -/
def listedPage (runtime : Runtime) (events : List Event) (filters : Filters) (count : Nat)
    (link : Option Str) : Option (List Event) :=
  listEvents runtime events filters count (Cursor.decode runtime link)

/-- The link after an event. -/
def listedLink (runtime : Runtime) (event : Event) : Str :=
  (Cursor.afterListed event).encode runtime

/-- The pages of a listing, from the first one on. -/
def listedPages (runtime : Runtime) (events : List Event) (filters : Filters) (count fuel : Nat) :
    Option (List Event) :=
  follow (listedPage runtime events filters count) (listedLink runtime) count fuel none

/-- The page of a ranked search that a link leads to. -/
def rankedPage (runtime : Runtime) (database : Database) (events : List Event) (query : Str)
    (filters : Filters) (count : Nat) (link : Option Str) : Option (List Row) :=
  searchEvents runtime database events query filters (some count) (Cursor.decode runtime link)

/-- The link after a row. -/
def rankedLink (runtime : Runtime) (row : Row) : Str := (Cursor.afterRanked row).encode runtime

/-- The pages of a ranked search. -/
def rankedPages (runtime : Runtime) (database : Database) (events : List Event) (query : Str)
    (filters : Filters) (count fuel : Nat) : Option (List Row) :=
  follow (rankedPage runtime database events query filters count) (rankedLink runtime) count fuel
    none

/-- The interpreter reads back the text that it writes for a score. -/
def Runtime.ReadsScore (runtime : Runtime) (score : ℚ) : Prop :=
  runtime.readScore (runtime.scoreText score) = some score ∧ separator ∉ runtime.scoreText score

section
variable (runtime : Runtime)

/-- A time of the database as it is read back. -/
def readBack (stamp : Stamp) : Reading := ⟨stamp.millis * 1000, some 0⟩

/-- It is the same time. -/
theorem utc_readBack (stamp : Stamp) : utc (readBack stamp) = some (stamp.millis * 1000) := by
  rw [utc, readBack, Option.getD_some, sub_zero, if_pos ⟨stamp.least, stamp.most⟩]

theorem toMillis_readBack (stamp : Stamp) : toMillis (stamp.millis * 1000) = stamp.millis :=
  Int.mul_ediv_cancel stamp.millis (by decide)

/-- The separator is not in the text of a time. -/
theorem separator_isoformat (stamp : Stamp) : separator ∉ isoformat stamp :=
  not_mem_isoformat (by decide) (by decide) stamp

/-- A text without the separator is one part. -/
theorem splitOn_separator {text : Str} (free : separator ∉ text) :
    text.splitOn separator = [text] := by
  rw [List.splitOn_eq_splitOnP]
  refine List.splitOnP_eq_singleton ?_
  intro point member
  exact beq_eq_false_iff_ne.mpr (fun same => free (same ▸ member))

/-- The first part ends at the separator. -/
theorem splitOn_cons {text : Str} (free : separator ∉ text) (rest : Str) :
    (text ++ separator :: rest).splitOn separator = text :: rest.splitOn separator := by
  rw [List.splitOn_eq_splitOnP, List.splitOn_eq_splitOnP]
  refine List.splitOnP_append_cons_of_forall_mem ?_ separator (by simp) rest
  intro point member
  exact beq_eq_false_iff_ne.mpr (fun same => free (same ▸ member))

/-- The cursor of a listing is read back. -/
theorem decode_listed (event : Event) :
    Cursor.decode runtime (some (listedLink runtime event)) =
      some ⟨readBack event.receivedAt, none⟩ := by
  have filled : given (some (isoformat event.receivedAt)) = some (isoformat event.receivedAt) := by
    simp [given, Option.filter, isoformat_ne_nil]
  rw [Cursor.decode, listedLink, Cursor.encode, Cursor.afterListed, filled, Option.bind_some,
    splitOn_separator (separator_isoformat _)]
  simp only [runtime.dates.read_isoformat, Option.map_some, readBack]

/-- The cursor of a ranked search is read back if its score is. -/
theorem decode_ranked {row : Row} (reads : runtime.ReadsScore row.score) :
    Cursor.decode runtime (some (rankedLink runtime row)) =
      some ⟨readBack row.event.receivedAt, some (row.score, row.event.id)⟩ := by
  have hex : separator ∉ row.event.id.text := by
    intro member
    have letter := row.event.id.text_hex separator member
    have bar : separator.val = 0x7C := rfl
    omega
  have written : rankedLink runtime row =
      runtime.scoreText row.score ++ separator ::
        (isoformat row.event.receivedAt ++ separator :: row.event.id.text) := by
    simp [rankedLink, Cursor.encode, Cursor.afterRanked]
  have filled : given (some (rankedLink runtime row)) = some (rankedLink runtime row) := by
    simp [given, Option.filter, written]
  rw [Cursor.decode, filled, Option.bind_some, written, splitOn_cons reads.2,
    splitOn_cons (separator_isoformat _), splitOn_separator hex]
  simp only [runtime.dates.read_isoformat, reads.1, runtime.readId_text, Option.bind_some,
    Option.map_some, readBack]

end

/-! ## Ranked pages -/

/-- The place of a position in the order of a ranked search. -/
def Position.key (position : Position) : ℚ ×ₗ Millis ×ₗ Nat :=
  toLex (position.score, toLex (position.receivedAt, position.id.bits.toNat))

/-- The three alternatives of the cursor say that a row comes later in the order. -/
theorem precedes_iff (position : Position) (row : Row) :
    position.precedes row = true ↔ row.key < position.key := by
  simp only [Position.precedes, Row.key, Position.key, Prod.Lex.toLex_lt_toLex, Bool.or_eq_true,
    Bool.and_eq_true, decide_eq_true_eq]
  tauto

/-- Rows with one key are rows of one event. -/
theorem id_of_key {first second : Row} (same : first.key = second.key) :
    first.event.id = second.event.id := by
  simp only [Row.key, toLex_inj, Prod.mk.injEq] at same
  have bits := BitVec.eq_of_toNat_eq same.2.2
  cases one : first.event.id
  cases two : second.event.id
  simp_all

section
variable {runtime : Runtime} {database : Database} {events : List Event} {query : Str}
  {filters : Filters}

/-- The events of scored rows are the events that were scored. -/
theorem events_of_rows {pipeline : Pipeline} {selected : List Event} {rows : List Row}
    (scored : selected.mapM (pipeline.row database) = some rows) :
    rows.map Row.event = selected := by
  induction selected generalizing rows with
  | nil =>
    obtain rfl := Option.some.inj scored
    rfl
  | cons event rest inductionHypothesis =>
    rw [List.mapM_cons] at scored
    simp only [Option.bind_eq_bind, Option.bind_eq_some_iff, Option.pure_def,
      Option.some.injEq] at scored
    obtain ⟨row, own, others, later, rfl⟩ := scored
    obtain ⟨score, _, rfl⟩ := Option.map_eq_some_iff.mp own
    rw [List.map_cons, inductionHypothesis later]

/-- A page from a position on has the rows of the unlimited search that come after it.

Proof: the stages before the cursor are the same, and what is selected from rows in order is
in order. -/
theorem search_page {count : Nat} {cursor : Option (Cursor Reading)} {position : Option Position}
    (positive : 1 ≤ count) (placed : positionOf cursor = some position) :
    searchEvents runtime database events query filters (some count) cursor =
      (streamRanked runtime database events query filters).map (fun all =>
        (all.filter (fun row => position.all (fun position => position.precedes row))).take
          count) := by
  have limited : some count ≠ some 0 := by
    rw [ne_eq, Option.some.injEq]
    omega
  rw [streamRanked, searchEvents, searchEvents, buildPipeline, buildPipeline]
  cases filters.toQuery runtime with
  | none => rfl
  | some constraints =>
    rw [placed]
    simp only [Option.bind_some, Option.map_some, positionOf, aggregate]
    by_cases valid : (scoreExpression (exactText runtime query) (queryTerms runtime query)
        (queryGrams runtime query)).valid database.server = true
    · rw [if_pos ⟨valid, limited⟩, if_pos ⟨valid, (Option.some_ne_none 0).symm⟩, Option.map_map]
      refine congrArg (fun page => Option.map page _) (funext ?_)
      intro rows
      change (listing Row.key (rows.filter _)).take count =
        ((listing Row.key (rows.filter _)).filter _).take count
      rw [filter_listing, List.filter_filter]
      congr 2
      refine List.filter_congr ?_
      intro row _
      simp only [Pipeline.keeps, Option.all_none, Bool.and_true]
      rw [Bool.and_comm]
    · rw [if_neg (fun both => valid both.1), if_neg (fun both => valid both.1)]
      rfl

/-- The first page. -/
theorem search_first {count : Nat} (positive : 1 ≤ count) :
    rankedPage runtime database events query filters count none =
      (streamRanked runtime database events query filters).map (fun all => all.take count) := by
  have first : positionOf (Cursor.decode runtime none) = some none := rfl
  rw [rankedPage]
  simpa using search_page positive first

/-- The page after a row. -/
theorem search_after {count : Nat} {last : Row} (positive : 1 ≤ count)
    (reads : runtime.ReadsScore last.score) :
    rankedPage runtime database events query filters count (some (rankedLink runtime last)) =
      (streamRanked runtime database events query filters).map (fun all =>
        (after Row.key last.key all).take count) := by
  have placed : positionOf (Cursor.decode runtime (some (rankedLink runtime last))) =
      some (some ⟨last.score, last.event.time, last.event.id⟩) := by
    rw [decode_ranked runtime reads, positionOf, utc_readBack, Option.map_some, toMillis_readBack]
    rfl
  rw [rankedPage, search_page positive placed]
  refine congrArg (fun page => Option.map page _) (funext ?_)
  intro all
  rw [after]
  congr 2
  funext row
  rw [Option.all_some, Bool.eq_iff_iff, precedes_iff, decide_eq_true_eq]
  rfl

/-- A result comes in strictly descending order if the events have different identifiers. -/
theorem stream_descending {all : List Row} (distinct : (events.map Event.id).Nodup)
    (whole : streamRanked runtime database events query filters = some all) :
    all.length ≤ events.length ∧
      all.Pairwise (fun first second => second.key < first.key) := by
  obtain ⟨pipeline, built, ran⟩ := Option.bind_eq_some_iff.mp whole
  obtain ⟨_, _, uncut⟩ := stages_unbounded built
  obtain ⟨_, accepted⟩ := Option.ite_none_right_eq_some.mp ran
  obtain ⟨rows, scored, rfl⟩ := Option.map_eq_some_iff.mp accepted
  rw [uncut]
  have own := events_of_rows scored
  have permuted := listing_perm Row.key (rows.filter pipeline.keeps)
  constructor
  · have scoredLength := congrArg List.length own
    rw [List.length_map] at scoredLength
    rw [permuted.length_eq]
    exact (List.length_filter_le _ _).trans (scoredLength ▸ List.length_filter_le _ _)
  · have ids : (rows.map (fun row => row.event.id)).Nodup := by
      have mapped := congrArg (List.map Event.id) own
      rw [List.map_map] at mapped
      rw [← Function.comp_def, mapped]
      exact distinct.sublist (List.filter_sublist.map _)
    have different : rows.Pairwise (fun first second => first.key ≠ second.key) :=
      (List.pairwise_map.mp ids).imp (fun other same => other (id_of_key same))
    have listed := listing_listed Row.key (rows.filter pipeline.keeps)
    have apart : (listing Row.key (rows.filter pipeline.keeps)).Pairwise
        (fun first second => first.key ≠ second.key) :=
      (permuted.pairwise_iff (fun other => other.symm)).mpr
        (different.sublist List.filter_sublist)
    exact (listed.and apart).imp (fun both => lt_of_le_of_ne both.1 both.2.symm)

/-- If identifiers differ and the scores of the result are read back as they were written,
the pages of a ranked search together are the unlimited result, in its order. If this fails
so does the first page.

Proof: keys differ, so each page has the rows that come after the key of the last one. -/
theorem rankedPages_exact {count fuel : Nat} (positive : 1 ≤ count)
    (distinct : (events.map Event.id).Nodup)
    (reads : ∀ all, streamRanked runtime database events query filters = some all →
      ∀ row ∈ all, runtime.ReadsScore row.score)
    (enough : events.length < fuel) :
    rankedPages runtime database events query filters count fuel =
      streamRanked runtime database events query filters := by
  cases whole : streamRanked runtime database events query filters with
  | some all =>
    obtain ⟨fewer, descending⟩ := stream_descending distinct whole
    refine follow_distinct Row.key positive descending ?_ ?_ (lt_of_le_of_lt fewer enough)
    · rw [search_first positive, whole, Option.map_some]
    · intro row member
      rw [search_after positive (reads all whole row member), whole, Option.map_some]
  | none =>
    refine follow_failed ?_ fuel
    rw [search_first positive, whole, Option.map_none]

end

/-- Events for a payment: two at one time, and a later one. -/
def payments : List Event := [
  bareEvent ⟨1⟩ ⟨1000, by decide, by decide⟩ [lit "pay"] [],
  bareEvent ⟨2⟩ ⟨1000, by decide, by decide⟩ [lit "pay"] [],
  bareEvent ⟨3⟩ ⟨2000, by decide, by decide⟩ [lit "payment"] []]

/-- Pages of two for a search that finds them all. -/
theorem rankedPages_exact_payments :
    rankedPages asciiRuntime (exactly systemVariables) payments (lit "pay") {} 2 4 =
      streamRanked asciiRuntime (exactly systemVariables) payments (lit "pay") {} := by
  refine rankedPages_exact (by decide) (by decide) ?_ (by decide)
  intro all whole row member
  have scores : (streamRanked asciiRuntime (exactly systemVariables) payments (lit "pay") {}).map
      (List.map Row.score) = some [100, 100, 60] := by decide +kernel
  rw [whole, Option.map_some, Option.some.injEq] at scores
  have score : row.score ∈ ([100, 100, 60] : List ℚ) := scores ▸ List.mem_map_of_mem member
  have tiers : ∀ score ∈ ([100, 100, 60] : List ℚ),
      asciiRuntime.readScore (asciiRuntime.scoreText score) = some score ∧
        separator ∉ asciiRuntime.scoreText score := by decide +kernel
  exact tiers row.score score

/-! ## Pages of a listing -/

section
variable {runtime : Runtime} {events : List Event} {filters : Filters} {query : Query}

/-- A bound on the time holds if the time is below it. -/
theorem before_holds (event : Event) (bound : Millis) :
    Clause.holds ⟨[lit "received_at"], .before bound⟩ event.toBson =
      decide (event.time < bound) := by
  simp [Clause.holds, Condition.holds, reached_time, alternatives]

/-- The bound on the time is one of the conditions. -/
theorem meets_split (query : Query) (event : Event) :
    query.meets event = (({ query with receivedBefore := none } : Query).meets event &&
      query.receivedBefore.all (fun bound => decide (event.time < bound))) := by
  rw [Query.meets, Query.meets, Query.clauses, Query.clauses, List.all_append]
  cases query.receivedBefore with
  | none => simp
  | some bound => simp [before_holds]

/-- From an event on that meets a query, the bound of the cursor takes the place of that of
the query. -/
theorem meets_before {last : Event} (meets : query.meets last = true) (event : Event) :
    ({ query with receivedBefore := some last.time } : Query).meets event =
      (decide (event.time < last.time) && query.meets event) := by
  rw [meets_split] at meets
  rw [meets_split, meets_split query event, Bool.eq_iff_iff]
  have bounded := (Bool.and_eq_true_iff.mp meets).2
  simp only [Bool.and_eq_true, Option.all_some, decide_eq_true_eq]
  constructor
  · rintro ⟨others, earlier⟩
    refine ⟨earlier, others, ?_⟩
    rw [Option.all_eq_true] at bounded ⊢
    intro bound stands
    exact decide_eq_true (earlier.trans (of_decide_eq_true (bounded bound stands)))
  · rintro ⟨earlier, others, _⟩
    exact ⟨others, earlier⟩

/-- A first page of a listing. -/
theorem list_first {count : Nat} (positive : 1 ≤ count)
    (asked : filters.toQuery runtime = some query) :
    listedPage runtime events filters count none =
      some ((found query events).take count) := by
  have limits : count ≠ 0 := by omega
  rw [listedPage, listEvents, asked]
  exact congrArg some (if_neg limits)

/-- The page after an event. -/
theorem list_after {count : Nat} {last : Event} (positive : 1 ≤ count)
    (asked : filters.toQuery runtime = some query) (meets : query.meets last = true) :
    listedPage runtime events filters count (some (listedLink runtime last)) =
      some ((after Event.time last.time (found query events)).take count) := by
  have limits : count ≠ 0 := by omega
  rw [listedPage, listEvents, asked, Option.bind_some, decode_listed, fromCursor, utc_readBack,
    Option.map_some, Option.map_some, toMillis_readBack, limited, if_neg limits, found, found,
    after, filter_listing, List.filter_filter]
  congr 3
  exact List.filter_congr (fun event _ => meets_before meets event)

/-- Together the pages of a listing are the events that the export streams, exactly if no
page ends between two of them that share a time: no multiple of the page size lies strictly
between the number of matching events after a time and the number from that time on.

Proof: the next page has what comes after the time of the last event. -/
theorem listedPages_complete_iff {count fuel : Nat} (positive : 1 ≤ count)
    (asked : filters.toQuery runtime = some query) (enough : events.length < fuel) :
    ∃ rows all : List Event,
      listedPages runtime events filters count fuel = some rows ∧
      streamListed runtime events filters = some all ∧
      (rows.Perm all ↔ ∀ event ∈ events, query.meets event = true → ∀ page,
        ¬ (above Event.time (events.filter query.meets) event.time < page * count ∧
          page * count < upTo Event.time (events.filter query.meets) event.time)) := by
  have permuted : (found query events).Perm (events.filter query.meets) := listing_perm _ _
  have listed : Listed Event.time (found query events) := listing_listed _ _
  have few : (found query events).length < fuel := by
    have fewer := List.length_filter_le query.meets events
    rw [permuted.length_eq]
    omega
  have linked : ∀ event ∈ found query events,
      listedPage runtime events filters count (some (listedLink runtime event)) =
        some ((after Event.time event.time (found query events)).take count) := by
    intro event member
    exact list_after positive asked (List.mem_filter.mp (permuted.mem_iff.mp member)).2
  obtain ⟨rows, followed, _, exact⟩ := follow_perm_iff Event.time positive listed
    (list_first positive asked) linked few
  refine ⟨rows, found query events, followed, by rw [streamListed, asked]; rfl, ?_⟩
  rw [exact, uncut_iff Event.time positive listed]
  have counts : ∀ bound, above Event.time (found query events) bound =
      above Event.time (events.filter query.meets) bound ∧
      upTo Event.time (found query events) bound =
        upTo Event.time (events.filter query.meets) bound :=
    fun bound => ⟨permuted.countP_eq _, permuted.countP_eq _⟩
  constructor
  · intro clear event member meets page
    rw [← (counts _).1, ← (counts _).2]
    exact clear event (permuted.mem_iff.mpr (List.mem_filter.mpr ⟨member, meets⟩)) page
  · intro clear event member page
    obtain ⟨stored, meets⟩ := List.mem_filter.mp (permuted.mem_iff.mp member)
    rw [(counts _).1, (counts _).2]
    exact clear event stored meets page

end

/-- Pages of one for the payments. -/
theorem listedPages_complete_iff_payments :
    ∃ rows all : List Event,
      listedPages asciiRuntime payments {} 1 4 = some rows ∧
      streamListed asciiRuntime payments {} = some all ∧
      (rows.Perm all ↔ ∀ event ∈ payments,
        Query.meets ⟨none, none, none, none, none, none⟩ event = true → ∀ page,
        ¬ (above Event.time (payments.filter (Query.meets ⟨none, none, none, none, none, none⟩))
            event.time < page * 1 ∧
          page * 1 < upTo Event.time
            (payments.filter (Query.meets ⟨none, none, none, none, none, none⟩)) event.time)) :=
  listedPages_complete_iff (by decide) rfl (by decide)

/-- Pages of two lose the second of the payments that share a time. -/
theorem listedPages_lose :
    ¬ ∃ rows all : List Event,
      listedPages asciiRuntime payments {} 2 4 = some rows ∧
      streamListed asciiRuntime payments {} = some all ∧ rows.Perm all := by
  rintro ⟨rows, all, followed, streamed, permuted⟩
  have two : (listedPages asciiRuntime payments {} 2 4).map List.length = some 2 := by
    decide +kernel
  have three : (streamListed asciiRuntime payments {}).map List.length = some 3 := by
    decide +kernel
  rw [followed, Option.map_some, Option.some.injEq] at two
  rw [streamed, Option.map_some, Option.some.injEq] at three
  have same := permuted.length_eq
  omega

end WebhookInbox.Search
