import WebhookInbox.Library.QueryString
import WebhookInbox.Search.Dates
import WebhookInbox.Search.Pages

/-!
# The event list of the dashboard

The page reads its search from the query string of its own address, and links to the next
page with an address that it writes: the parameters of the search, and a cursor. Whoever
follows these links reads each address back. The export has another address, with the same
parameters.

`browse_follows` says that the walk along the addresses is the walk along the cursors, and
`browse_exports` that it shows what the export holds.
-/

namespace WebhookInbox.Search

open Library IsoFormat KeysetPaging

/-! ## Addresses -/

/-- A parameter that is read as text. -/
def param (given : Dict Str Str) (name : String) : Str := (given.get (lit name)).getD []

/-- The parameters of `event_query`. -/
def readQuery (given : Dict Str Str) : EventQuery :=
  eventQuery (param given "q") (param given "endpoint") (param given "status")
    (param given "method") (param given "type") (param given "from") (param given "to")

/-- `request.query_params` -/
def queryParams (queryString : Str) : Dict Str Str := Dict.ofPairs (Forms.parseQsl queryString)

/-- The query string of an address. -/
def queryPart (url : Str) : Str := (url.dropWhile (· ≠ 0x3F)).drop 1

/-! ## The page -/

/-- The rows of a page, ranked or not. -/
inductive Rows where
  | ranked (rows : List Row)
  | listed (rows : List Event)

/-- The events of the rows. -/
def Rows.events : Rows → List Event
  | .ranked rows => rows.map Row.event
  | .listed rows => rows

/-- The rows have scores. -/
def Rows.scored : Rows → Bool
  | .ranked _ => true
  | .listed _ => false

/-- `Cursor.after(rows[-1], scored)` -/
def Rows.cursor : Rows → Option (Cursor Stamp)
  | .ranked rows => rows.getLast?.map Cursor.afterRanked
  | .listed rows => rows.getLast?.map Cursor.afterListed

section
variable (runtime : Runtime) (database : Database) (events : List Event)

/-- `find_events(db, query, filters, limit, cursor)` with the scores of its rows. -/
def findRows (query : Str) (filters : Filters) (count : Nat) (cursor : Option (Cursor Reading)) :
    Option Rows :=
  if Text.strip query ≠ [] then
    (searchEvents runtime database events query filters (some count) cursor).map .ranked
  else (listEvents runtime events filters count cursor).map .listed

/-- The address of the next page, if this one is full. Writing it may raise. -/
def nextUrl (query : EventQuery) (count : Nat) (rows : Rows) : Option (Option Str) :=
  if rows.events.length = count then
    rows.cursor.bind (fun cursor =>
      (Forms.urlencode (query.params.set (lit "cursor") (cursor.encode runtime))).map
        (fun forward => some (lit "/events?" ++ forward)))
  else some none

/-- `events_page(...)`: the rows and the address of the next page. -/
def eventsPage (count : Nat) (queryString : Str) : Option (Rows × Option Str) :=
  let given := queryParams queryString
  let query := readQuery given
  (findRows runtime database events query.q query.filters count
    (Cursor.decode runtime (given.get (lit "cursor")))).bind (fun rows =>
      (nextUrl runtime query count rows).map (fun next => (rows, next)))

/-- The events of the pages from an address on, each by the link of the one before. -/
def browse (count : Nat) : Nat → Str → Option (List Event)
  | 0, _ => none
  | fuel + 1, queryString =>
      (eventsPage runtime database events count queryString).bind (fun page =>
        match page.2 with
        | none => some page.1.events
        | some url =>
            (browse count fuel (queryPart url)).map (fun later => page.1.events ++ later))

/-- The events that `export_events` streams. -/
def exportRows (queryString : Str) : Option (List Event) :=
  let query := readQuery (queryParams queryString)
  if Text.strip query.q ≠ [] then
    (streamRanked runtime database events query.q query.filters).map (List.map Row.event)
  else streamListed runtime events query.filters

end

/-- The query string of the export link: the format, and the parameters if there are any. -/
def exportLink (format : Str) (query : EventQuery) : Option Str :=
  (Forms.urlencode query.params).map (fun text =>
    lit "format=" ++ format ++ if text = [] then [] else 0x26 :: text)

section
variable {runtime : Runtime} {database : Database} {events : List Event}

/-- The page shows what `find_events` returns. -/
theorem findRows_events (query : Str) (filters : Filters) (count : Nat)
    (cursor : Option (Cursor Reading)) :
    (findRows runtime database events query filters count cursor).map
        (fun rows => (rows.events, rows.scored)) =
      findEvents runtime database events query filters count cursor := by
  unfold findRows findEvents
  split
  · rw [Option.map_map]
    rfl
  · rw [Option.map_map]
    rfl

/-! ## Reading addresses back -/

/-- A parameter that is left out if it is empty is read back. -/
theorem param_filter {items : Dict Str Str} (distinct : (items.map Prod.fst).Nodup)
    {name : String} {value : Str} (held : items.get (lit name) = some value) :
    param (items.filter (fun item => decide (item.2 ≠ []))) name = value := by
  rw [param, Dict.get_filter distinct, held]
  cases value with
  | nil => rfl
  | cons point rest => simp [Option.filter]

/-- The parameters of a query say what it asks for. -/
theorem readQuery_params (q endpoint eventStatus method eventType dateFrom dateTo : Str) :
    readQuery (eventQuery q endpoint eventStatus method eventType dateFrom dateTo).params =
      eventQuery q endpoint eventStatus method eventType dateFrom dateTo := by
  let items : Dict Str Str := [(lit "q", q), (lit "endpoint", endpoint),
    (lit "status", eventStatus), (lit "method", method), (lit "type", eventType),
    (lit "from", dateFrom), (lit "to", dateTo)]
  have distinct : (items.map Prod.fst).Nodup := (by decide : ([lit "q", lit "endpoint",
    lit "status", lit "method", lit "type", lit "from", lit "to"] : List Str).Nodup)
  unfold readQuery
  congr 1
  all_goals exact param_filter distinct rfl

/-- What else is in an address does not matter. -/
theorem readQuery_congr {given other : Dict Str Str}
    (same : ∀ name ∈ ["q", "endpoint", "status", "method", "type", "from", "to"],
      given.get (lit name) = other.get (lit name)) : readQuery given = readQuery other := by
  have agree : ∀ name ∈ ["q", "endpoint", "status", "method", "type", "from", "to"],
      param given name = param other name := by
    intro name member
    rw [param, param, same name member]
  unfold readQuery
  rw [agree "q" (by simp), agree "endpoint" (by simp), agree "status" (by simp),
    agree "method" (by simp), agree "type" (by simp), agree "from" (by simp), agree "to" (by simp)]

/-- Reading the parameters of a query that was read gives the query. -/
theorem readQuery_readQuery (given : Dict Str Str) :
    readQuery (readQuery given).params = readQuery given :=
  readQuery_params _ _ _ _ _ _ _

/-- The parameters of a query have different names. -/
theorem params_distinct (given : Dict Str Str) :
    ((readQuery given).params.map Prod.fst).Nodup := by
  have distinct : ([lit "q", lit "endpoint", lit "status", lit "method", lit "type", lit "from",
    lit "to"] : List Str).Nodup := by decide
  exact (List.filter_sublist.map Prod.fst).nodup distinct

/-- No other name is among them. -/
theorem params_names (given : Dict Str Str) : (readQuery given).params.map Prod.fst ⊆
    [lit "q", lit "endpoint", lit "status", lit "method", lit "type", lit "from", lit "to"] :=
  (List.filter_sublist.map Prod.fst).subset

/-- Values that were read from an address have no lone surrogates, if it has none. -/
def ScalarValues (given : Dict Str Str) : Prop := ∀ item ∈ given, Text.Scalar item.2

/-- An address is ASCII, so its values have no lone surrogates. -/
theorem queryParams_scalar {queryString : Str} (ascii : Text.Ascii queryString) :
    ScalarValues (queryParams queryString) :=
  fun _ member => (Forms.parseQsl_scalar ascii.scalar (Dict.mem_ofPairs member)).2

/-- Neither has a parameter. -/
theorem param_scalar {given : Dict Str Str} (scalar : ScalarValues given) (name : String) :
    Text.Scalar (param given name) := by
  unfold param
  cases found : given.get (lit name) with
  | none => exact fun point member => nomatch member
  | some value => exact scalar _ (Dict.get_mem found)

/-- The parameters of a query that was read can be written. -/
theorem params_scalar {given : Dict Str Str} (scalar : ScalarValues given) :
    ∀ item ∈ (readQuery given).params, Text.Scalar item.1 ∧ Text.Scalar item.2 := by
  intro item member
  have listed := List.mem_of_mem_filter member
  simp only [List.mem_cons, List.not_mem_nil, or_false] at listed
  rcases listed with rfl | rfl | rfl | rfl | rfl | rfl | rfl
  all_goals exact ⟨Text.scalar_lit _, param_scalar scalar _⟩

/-- The parameters and the cursor of a link are read back from its address. -/
theorem read_next {given : Dict Str Str} {text forward : Str}
    (written : Forms.urlencode ((readQuery given).params.set (lit "cursor") text) = some forward) :
    queryParams (queryPart (lit "/events?" ++ forward)) =
        (readQuery given).params.set (lit "cursor") text ∧
      Text.Ascii forward := by
  obtain ⟨read, ascii⟩ := Forms.parseQsl_urlencode written
  have distinct := Dict.nodup_keys_set (params_distinct given) (lit "cursor") text
  have part : queryPart (lit "/events?" ++ forward) = forward := rfl
  exact ⟨by rw [part, queryParams, read, Dict.ofPairs_of_nodup distinct], ascii⟩

/-- The next address asks for the same, from the cursor on. -/
theorem readQuery_next (given : Dict Str Str) (text : Str) :
    readQuery ((readQuery given).params.set (lit "cursor") text) = readQuery given := by
  refine (readQuery_congr ?_).trans (readQuery_readQuery given)
  have other : ∀ name ∈ ["q", "endpoint", "status", "method", "type", "from", "to"],
      lit name ≠ lit "cursor" := by decide
  intro name member
  rw [Dict.get_set, if_neg (other name member)]

section
variable {α : Type} {wrap : List α → Rows} {form : α → Event} {link : α → Str} {count : Nat}
  {query : EventQuery} {queryString : Str} {rows : List α}

/-- A page that is not full has no link. -/
theorem eventsPage_short (asked : readQuery (queryParams queryString) = query)
    (fetched : findRows runtime database events query.q query.filters count
      (Cursor.decode runtime ((queryParams queryString).get (lit "cursor"))) = some (wrap rows))
    (shown : (wrap rows).events = rows.map form) (short : rows.length ≠ count) :
    eventsPage runtime database events count queryString = some (wrap rows, none) := by
  rw [← List.length_map form, ← shown] at short
  rw [eventsPage, asked, fetched, Option.bind_some, nextUrl, if_neg short, Option.map_some]

/-- The link of a full page leads to the same search, from the last row on. -/
theorem eventsPage_full (ascii : Text.Ascii queryString)
    (asked : readQuery (queryParams queryString) = query)
    (fetched : findRows runtime database events query.q query.filters count
      (Cursor.decode runtime ((queryParams queryString).get (lit "cursor"))) = some (wrap rows))
    (shown : (wrap rows).events = rows.map form)
    (linked : (wrap rows).cursor.map (Cursor.encode runtime) = rows.getLast?.map link)
    (plain : ∀ row, Text.Scalar (link row)) (full : rows.length = count) {last : α}
    (ended : rows.getLast? = some last) :
    ∃ url, eventsPage runtime database events count queryString = some (wrap rows, some url) ∧
      Text.Ascii (queryPart url) ∧ readQuery (queryParams (queryPart url)) = query ∧
      (queryParams (queryPart url)).get (lit "cursor") = some (link last) := by
  rw [ended, Option.map_some] at linked
  obtain ⟨cursor, made, text⟩ := Option.map_eq_some_iff.mp linked
  obtain ⟨forward, written⟩ : ∃ forward, Forms.urlencode
      ((readQuery (queryParams queryString)).params.set (lit "cursor") (link last)) =
        some forward := by
    refine Forms.urlencode_some ?_
    intro item member
    rcases Dict.mem_set member with rfl | old
    · exact ⟨Text.scalar_lit _, plain _⟩
    · exact params_scalar (queryParams_scalar ascii) item old
  obtain ⟨read, asciiForward⟩ := read_next written
  refine ⟨lit "/events?" ++ forward, ?_, asciiForward, ?_, ?_⟩
  · have filled : (wrap rows).events.length = count := by rw [shown, List.length_map, full]
    rw [asked] at written
    rw [eventsPage, asked, fetched, Option.bind_some, nextUrl, if_pos filled, made,
      Option.bind_some, text, written, Option.map_some, Option.map_some]
  · rw [read, readQuery_next, asked]
  · rw [read, Dict.get_set, if_pos rfl]

/-- The walk along the addresses is the walk along the cursors: if the rows of a page are
those that some link fetches, and the link of its last row is the cursor that is written.

Induction on the fuel: each address is read back as the same search, from the cursor on. -/
theorem browse_follow {fetch : Option Str → Option (List α)} (positive : 1 ≤ count)
    (fetched : ∀ cursor, findRows runtime database events query.q query.filters count
      (Cursor.decode runtime cursor) = (fetch cursor).map wrap)
    (shown : ∀ rows, (wrap rows).events = rows.map form)
    (linked : ∀ rows, (wrap rows).cursor.map (Cursor.encode runtime) = rows.getLast?.map link)
    (plain : ∀ row, Text.Scalar (link row)) (fuel : Nat) (ascii : Text.Ascii queryString)
    (asked : readQuery (queryParams queryString) = query) :
    browse runtime database events count fuel queryString =
      (follow fetch link count fuel ((queryParams queryString).get (lit "cursor"))).map
        (List.map form) := by
  induction fuel generalizing queryString with
  | zero => rfl
  | succ fuel inductionHypothesis =>
    have here := fetched ((queryParams queryString).get (lit "cursor"))
    rw [browse]
    cases page : fetch ((queryParams queryString).get (lit "cursor")) with
    | none =>
      rw [page, Option.map_none, ← asked] at here
      rw [eventsPage, here, follow, page]
      rfl
    | some rows =>
      rw [page, Option.map_some] at here
      by_cases full : rows.length = count
      · have filled : rows ≠ [] := by
          rintro rfl
          simp at full
          omega
        have ended := List.getLast?_eq_some_getLast filled
        obtain ⟨url, paged, asciiUrl, same, cursor⟩ :=
          eventsPage_full ascii asked here (shown rows) (linked rows) plain full ended
        rw [paged, follow_full page full ended, Option.bind_some]
        simp only [inductionHypothesis asciiUrl same, cursor, shown]
        cases follow fetch link count fuel (some (link (rows.getLast filled))) with
        | none => rfl
        | some later => simp
      · rw [eventsPage_short asked here (shown rows) full, follow_short page full,
          Option.bind_some]
        simp [shown]

end

/-- The link of a ranked row can be written. -/
theorem rankedLink_scalar (plain : ∀ score, Text.Ascii (runtime.scoreText score)) (row : Row) :
    Text.Scalar (rankedLink runtime row) := by
  have bar : Text.Scalar [separator] := by decide
  simp only [rankedLink, Cursor.afterRanked, Cursor.encode]
  exact ((((plain _).scalar.append bar).append (isoformat_scalar _)).append bar).append
    row.event.id.text_scalar

/-- The pages of a ranked search along their addresses. -/
theorem browse_ranked {count : Nat} (positive : 1 ≤ count)
    (plain : ∀ score, Text.Ascii (runtime.scoreText score)) (fuel : Nat) {queryString : Str}
    (ascii : Text.Ascii queryString)
    (first : (queryParams queryString).get (lit "cursor") = none)
    (searched : Text.strip (readQuery (queryParams queryString)).q ≠ []) :
    browse runtime database events count fuel queryString =
      (rankedPages runtime database events (readQuery (queryParams queryString)).q
        (readQuery (queryParams queryString)).filters count fuel).map (List.map Row.event) := by
  have walked := @browse_follow runtime database events Row .ranked Row.event
    (rankedLink runtime) count _ queryString
    (rankedPage runtime database events (readQuery (queryParams queryString)).q
      (readQuery (queryParams queryString)).filters count) positive
    (fun cursor => by rw [findRows, if_pos searched, rankedPage]) (fun _ => rfl)
    (fun rows => by rw [Rows.cursor, Option.map_map]; rfl) (rankedLink_scalar plain) fuel
    ascii rfl
  rwa [first] at walked

/-- Those of a listing. -/
theorem browse_listed {count : Nat} (positive : 1 ≤ count) (fuel : Nat) {queryString : Str}
    (ascii : Text.Ascii queryString)
    (first : (queryParams queryString).get (lit "cursor") = none)
    (blank : Text.strip (readQuery (queryParams queryString)).q = []) :
    browse runtime database events count fuel queryString =
      listedPages runtime events (readQuery (queryParams queryString)).filters count fuel := by
  have walked := @browse_follow runtime database events Event .listed id (listedLink runtime)
    count _ queryString
    (listedPage runtime events (readQuery (queryParams queryString)).filters count) positive
    (fun cursor => by rw [findRows, if_neg (not_not.mpr blank), listedPage])
    (fun rows => (List.map_id rows).symm)
    (fun rows => by rw [Rows.cursor, Option.map_map]; rfl)
    (fun event => isoformat_scalar event.receivedAt) fuel ascii rfl
  rw [first] at walked
  simpa [listedPages] using walked

/-- `FORMATS` -/
def formats : List Str := [lit "json", lit "jsonl", lit "csv"]

/-- The address of the export asks for the same as the page. -/
theorem readQuery_export {given : Dict Str Str} {format link : Str} (known : format ∈ formats)
    (written : exportLink format (readQuery given) = some link) :
    readQuery (queryParams link) = readQuery given := by
  obtain ⟨text, encoded, rfl⟩ := Option.map_eq_some_iff.mp written
  have read := (Forms.parseQsl_urlencode encoded).1
  have pairs : Forms.parseQsl (lit "format=" ++ format ++ if text = [] then [] else 0x26 :: text) =
      (lit "format", format) :: (readQuery given).params := by
    have own : ∀ format ∈ formats, Forms.parseQsl (lit "format=" ++ format) =
        [(lit "format", format)] := by decide
    split
    · rename_i empty
      subst empty
      rw [List.append_nil, own format known, ← read]
      rfl
    · rw [Forms.parseQsl, Forms.split_append_cons, List.filterMap_append]
      exact congrArg₂ (· ++ ·) (own format known) read
  have distinct : (((lit "format", format) :: (readQuery given).params).map Prod.fst).Nodup := by
    refine List.nodup_cons.mpr ⟨?_, params_distinct given⟩
    have other : lit "format" ∉ ([lit "q", lit "endpoint", lit "status", lit "method", lit "type",
      lit "from", lit "to"] : List Str) := by decide
    exact fun member => other (params_names given member)
  rw [queryParams, pairs, Dict.ofPairs_of_nodup distinct]
  refine (readQuery_congr ?_).trans (readQuery_readQuery given)
  have other : ∀ name ∈ ["q", "endpoint", "status", "method", "type", "from", "to"],
      lit "format" ≠ lit name := by decide
  intro name member
  simp [Dict.get, other name member]

/-- The walk along the addresses of the dashboard shows what the walk along the cursors
finds, from an address without a cursor on: each page is the one that the cursor of the last
row before it leads to, under the same search. -/
theorem browse_follows {count fuel : Nat} (positive : 1 ≤ count)
    (plain : ∀ score, Text.Ascii (runtime.scoreText score)) {queryString : Str}
    (ascii : Text.Ascii queryString)
    (first : (queryParams queryString).get (lit "cursor") = none) :
    browse runtime database events count fuel queryString =
      if Text.strip (readQuery (queryParams queryString)).q ≠ [] then
        (rankedPages runtime database events (readQuery (queryParams queryString)).q
          (readQuery (queryParams queryString)).filters count fuel).map (List.map Row.event)
      else listedPages runtime events (readQuery (queryParams queryString)).filters count fuel := by
  split
  · rename_i searched
    exact browse_ranked positive plain fuel ascii first searched
  · rename_i blank
    exact browse_listed positive fuel ascii first (not_not.mp blank)

/-- Whoever follows the links of a search from its first page on sees the events that the
export link of that page gives, in the order of the export, if identifiers differ and scores
are read back as they were written.

Proof: along the cursors each page has the rows after the last one, and the address of the
export is read back as the same search. -/
theorem browse_exports {count fuel : Nat} (positive : 1 ≤ count)
    (distinct : (events.map Event.id).Nodup)
    (plain : ∀ score, Text.Ascii (runtime.scoreText score)) {queryString format : Str}
    (ascii : Text.Ascii queryString)
    (first : (queryParams queryString).get (lit "cursor") = none)
    (searched : Text.strip (readQuery (queryParams queryString)).q ≠ [])
    (reads : ∀ all, streamRanked runtime database events (readQuery (queryParams queryString)).q
      (readQuery (queryParams queryString)).filters = some all →
        ∀ row ∈ all, runtime.ReadsScore row.score)
    (enough : events.length < fuel) (known : format ∈ formats) :
    ∃ link, exportLink format (readQuery (queryParams queryString)) = some link ∧
      browse runtime database events count fuel queryString =
        exportRows runtime database events link := by
  obtain ⟨text, encoded⟩ := Forms.urlencode_some (params_scalar (queryParams_scalar ascii))
  have written : exportLink format (readQuery (queryParams queryString)) =
      some (lit "format=" ++ format ++ if text = [] then [] else 0x26 :: text) := by
    rw [exportLink, encoded, Option.map_some]
  refine ⟨_, written, ?_⟩
  rw [browse_ranked positive plain fuel ascii first searched, exportRows,
    readQuery_export known written, if_pos searched]
  refine congrArg (Option.map (List.map Row.event)) ?_
  cases whole : streamRanked runtime database events (readQuery (queryParams queryString)).q
    (readQuery (queryParams queryString)).filters with
  | none =>
    refine follow_failed ?_ fuel
    rw [search_first positive, whole, Option.map_none]
  | some all =>
    obtain ⟨fewer, descending⟩ := stream_descending distinct whole
    refine follow_distinct Row.key positive descending ?_ ?_ (lt_of_le_of_lt fewer enough)
    · rw [search_first positive, whole, Option.map_some]
    · intro row member
      rw [search_after positive (reads all whole row member), whole, Option.map_some]

end

/-- Scores are written in ASCII. -/
theorem asciiRuntime_plain (score : ℚ) : Text.Ascii (asciiRuntime.scoreText score) := by
  change Text.Ascii (if score = 100 then lit "100.0" else if score = 60 then lit "60.0"
    else if score = 40 then lit "40.0" else [])
  split_ifs
  all_goals decide

/-- The payments of a type, in pages of two. -/
theorem browse_follows_payments :
    browse asciiRuntime (exactly systemVariables) payments 2 4 (lit "method=POST&q=") =
      if Text.strip (readQuery (queryParams (lit "method=POST&q="))).q ≠ [] then
        (rankedPages asciiRuntime (exactly systemVariables) payments
          (readQuery (queryParams (lit "method=POST&q="))).q
          (readQuery (queryParams (lit "method=POST&q="))).filters 2 4).map (List.map Row.event)
      else listedPages asciiRuntime payments
        (readQuery (queryParams (lit "method=POST&q="))).filters 2 4 :=
  browse_follows (by decide) asciiRuntime_plain (by decide) (by decide)

/-- The payments that a search finds, in pages of two, and their export. -/
theorem browse_exports_payments :
    ∃ link, exportLink (lit "csv") (readQuery (queryParams (lit "q=pay&status="))) = some link ∧
      browse asciiRuntime (exactly systemVariables) payments 2 4 (lit "q=pay&status=") =
        exportRows asciiRuntime (exactly systemVariables) payments link := by
  have asked : (readQuery (queryParams (lit "q=pay&status="))).q = lit "pay" ∧
      (readQuery (queryParams (lit "q=pay&status="))).filters = {} :=
    ⟨by decide +kernel, rfl⟩
  refine browse_exports (by decide) (by decide) asciiRuntime_plain (by decide) (by decide)
    (by decide +kernel) ?_ (by decide) (by decide)
  rw [asked.1, asked.2]
  intro all whole row member
  have scores : (streamRanked asciiRuntime (exactly systemVariables) payments (lit "pay") {}).map
      (List.map Row.score) = some [100, 100, 60] := by decide +kernel
  rw [whole, Option.map_some, Option.some.injEq] at scores
  have score : row.score ∈ ([100, 100, 60] : List ℚ) := scores ▸ List.mem_map_of_mem member
  have tiers : ∀ score ∈ ([100, 100, 60] : List ℚ),
      asciiRuntime.readScore (asciiRuntime.scoreText score) = some score ∧
        separator ∉ asciiRuntime.scoreText score := by decide +kernel
  exact tiers row.score score

end WebhookInbox.Search
