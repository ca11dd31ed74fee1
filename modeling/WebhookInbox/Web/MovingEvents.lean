import WebhookInbox.Library.MovingPages
import WebhookInbox.Web.EventsPage

/-!
# Browsing while events come and go

Between two pages of the event list webhooks are stored, events expire, and search terms are
derived anew. Each page is then one of another collection. Whoever follows the links still
meets no event twice and misses none that stays, as far as the order of the events allows:
an event whose rank changes in between can be met again, and in a listing one that shares
its time with another can be missed.
-/

namespace WebhookInbox.Search

open Library IsoFormat KeysetPaging

/-- The pages from an address on, each of the collection as it is when the page is asked for
by the link of the one before. -/
def browseThrough (runtime : Runtime) (database : Database) (count : Nat) :
    List (List Event) → Str → Option (List (List Event))
  | [], _ => some []
  | events :: later, queryString =>
      (eventsPage runtime database events count queryString).bind (fun page =>
        match page.2 with
        | none => some [page.1.events]
        | some url =>
            (browseThrough runtime database count later (queryPart url)).map
              (fun pages => page.1.events :: pages))

section
variable {runtime : Runtime} {database : Database} {count : Nat} {queryString : Str}
  {query : EventQuery} {snapshots : List (List Event)}

/-- The walk along the addresses is the walk along the cursors.

Induction on the collections: each address is read back as the same search. -/
theorem browseThrough_wander {α : Type} {wrap : List α → Rows} {form : α → Event}
    {link : α → Str} {fetch : List Event → Option Str → Option (List α)} (positive : 1 ≤ count)
    (fetched : ∀ events cursor, findRows runtime database events query.q query.filters count
      (Cursor.decode runtime cursor) = (fetch events cursor).map wrap)
    (shown : ∀ rows, (wrap rows).events = rows.map form)
    (linked : ∀ rows, (wrap rows).cursor.map (Cursor.encode runtime) = rows.getLast?.map link)
    (plain : ∀ row, Text.Scalar (link row)) (snapshots : List (List Event))
    (ascii : Text.Ascii queryString) (asked : readQuery (queryParams queryString) = query) :
    browseThrough runtime database count snapshots queryString =
      (wander fetch link count snapshots ((queryParams queryString).get (lit "cursor"))).map
        (List.map (List.map form)) := by
  induction snapshots generalizing queryString with
  | nil => rfl
  | cons events later inductionHypothesis =>
    have here := fetched events ((queryParams queryString).get (lit "cursor"))
    rw [browseThrough, wander]
    cases page : fetch events ((queryParams queryString).get (lit "cursor")) with
    | none =>
      rw [page, Option.map_none, ← asked] at here
      rw [eventsPage, here]
      rfl
    | some rows =>
      rw [page, Option.map_some] at here
      rw [Option.bind_some]
      by_cases full : rows.length = count
      · have filled : rows ≠ [] := by
          rintro rfl
          simp at full
          omega
        have ended := List.getLast?_eq_some_getLast filled
        obtain ⟨url, paged, asciiUrl, same, cursor⟩ :=
          eventsPage_full ascii asked here (shown rows) (linked rows) plain full ended
        rw [paged, if_pos full, ended, Option.bind_some]
        simp only [inductionHypothesis asciiUrl same, cursor, shown]
        cases wander fetch link count later (some (link (rows.getLast filled))) with
        | none => rfl
        | some pages => simp
      · rw [eventsPage_short asked here (shown rows) full, if_neg full, Option.bind_some]
        simp [shown]

/-- The rows of a result are of different events. -/
theorem stream_ids {events : List Event} {text : Str} {filters : Filters} {all : List Row}
    (distinct : (events.map Event.id).Nodup)
    (whole : streamRanked runtime database events text filters = some all) :
    (all.map (fun row => row.event.id)).Nodup := by
  obtain ⟨pipeline, built, ran⟩ := Option.bind_eq_some_iff.mp whole
  obtain ⟨_, _, uncut⟩ := stages_unbounded built
  obtain ⟨_, accepted⟩ := Option.ite_none_right_eq_some.mp ran
  obtain ⟨rows, scored, rfl⟩ := Option.map_eq_some_iff.mp accepted
  rw [uncut]
  have permuted := (listing_perm Row.key (rows.filter pipeline.keeps)).map
    (fun row => row.event.id)
  refine permuted.nodup_iff.mpr ((List.filter_sublist.map _).nodup ?_)
  have own := congrArg (List.map Event.id) (events_of_rows scored)
  rw [List.map_map] at own
  rw [← Function.comp_def, own]
  exact (List.filter_sublist.map _).nodup distinct

/-- Following the links of a ranked search while the collection changes, the rows shown
descend in rank; each page is part of the result that stood when it was fetched; no event is
shown twice unless its rank changed in between; whoever reaches the last page has seen every
event that was found with one rank all the way; and the last page is reached, however much
changes, if all results together have fewer rows than the pages would hold.

Proof: a link bounds the rank from above in whatever collection it is used. -/
theorem browseThrough_ranked (positive : 1 ≤ count)
    (plain : ∀ score, Text.Ascii (runtime.scoreText score)) (ascii : Text.Ascii queryString)
    (first : (queryParams queryString).get (lit "cursor") = none)
    (asked : readQuery (queryParams queryString) = query) (searched : Text.strip query.q ≠ [])
    (distinct : ∀ events ∈ snapshots, (events.map Event.id).Nodup)
    {result : List Event → List Row}
    (whole : ∀ events ∈ snapshots,
      streamRanked runtime database events query.q query.filters = some (result events))
    (reads : ∀ events ∈ snapshots, ∀ row ∈ result events, runtime.ReadsScore row.score) :
    ∃ pages, browseThrough runtime database count snapshots queryString =
        some (pages.map (List.map Row.event)) ∧
      pages.flatten.Pairwise (fun first second => second.key < first.key) ∧
      List.Forall₂ (fun page events => page.Sublist (result events)) pages
        (snapshots.take pages.length) ∧
      (∀ id, (∀ events ∈ snapshots, ∀ others ∈ snapshots, ∀ row ∈ result events,
          ∀ twin ∈ result others, row.event.id = id → twin.event.id = id → row.key = twin.key) →
        (pages.flatten.map (fun row => row.event.id)).count id ≤ 1) ∧
      (Ended count pages → ∀ row : Row, (∀ events ∈ snapshots.take pages.length,
          ∃ same ∈ result events, same.key = row.key) →
        ∃ same ∈ pages.flatten, same.key = row.key) ∧
      ∀ pool : List Row, (∀ events ∈ snapshots, result events ⊆ pool) →
        pool.length < snapshots.length * count → Ended count pages := by
  have descending : ∀ events ∈ snapshots,
      (result events).Pairwise (fun first second => second.key < first.key) :=
    fun events visited => (stream_descending (distinct events visited) (whole events visited)).2
  have apart : ∀ events ∈ snapshots, ((result events).map (fun row => row.event.id)).Nodup :=
    fun events visited => stream_ids (distinct events visited) (whole events visited)
  obtain ⟨pages, walked, wandered⟩ := @wander_pages _ _ _ _ _ Row.key
    (fun row => row.event.id) result count _
    (fun events => rankedPage runtime database events query.q query.filters count)
    (rankedLink runtime) positive snapshots
    (fun events visited => (descending events visited).imp (fun less => le_of_lt less))
    (by
      intro events visited
      rw [search_first positive, whole events visited, Option.map_some])
    (by
      intro events visited others next row member
      rw [search_after positive (reads others next row member), whole events visited,
        Option.map_some])
  refine ⟨pages, ?_, wandered.ordered (fun less => less) descending, wandered.shown,
    fun _ => wandered.label_once _ apart, ?_, ?_⟩
  · rw [@browseThrough_wander runtime database count queryString query Row .ranked Row.event
        (rankedLink runtime)
        (fun events => rankedPage runtime database events query.q query.filters count) positive
        (fun events cursor => by rw [findRows, if_pos searched, rankedPage]) (fun _ => rfl)
        (fun rows => by rw [Rows.cursor, Option.map_map]; rfl) (rankedLink_scalar plain)
        snapshots ascii asked, first, walked, Option.map_some]
  · intro ended row stays
    obtain ⟨same, shown, equal, _⟩ := wandered.complete ended row.key row.event.id
      (fun events visited => ⟨stays events visited, fun _ _ equal => id_of_key equal⟩) (by simp)
    exact ⟨same, shown, equal⟩
  · intro pool inside enough
    refine wandered.ends ?_ inside enough
    intro events visited
    exact (apart events visited).of_map _

/-- The same for a listing by time, where an event is shown at most once if its own time stays,
and an event that stays is seen for certain if no other one that is listed shares its time.

Proof: a link bounds the time from above in whatever collection it is used. -/
theorem browseThrough_listed (positive : 1 ≤ count) (ascii : Text.Ascii queryString)
    (first : (queryParams queryString).get (lit "cursor") = none)
    (asked : readQuery (queryParams queryString) = query) (blank : Text.strip query.q = [])
    (distinct : ∀ events ∈ snapshots, (events.map Event.id).Nodup) {bounds : Query}
    (bounded : query.filters.toQuery runtime = some bounds) :
    ∃ pages, browseThrough runtime database count snapshots queryString = some pages ∧
      pages.flatten.Pairwise (fun first second => second.time ≤ first.time) ∧
      List.Forall₂ (fun page events => page.Sublist (found bounds events)) pages
        (snapshots.take pages.length) ∧
      (∀ id, (∀ events ∈ snapshots, ∀ others ∈ snapshots, ∀ event ∈ found bounds events,
          ∀ twin ∈ found bounds others, event.id = id → twin.id = id → event.time = twin.time) →
        (pages.flatten.map Event.id).count id ≤ 1) ∧
      (Ended count pages → ∀ event : Event, (∀ events ∈ snapshots.take pages.length,
          (∃ same ∈ found bounds events, same.time = event.time) ∧
            ∀ other ∈ found bounds events, other.time = event.time → other.id = event.id) →
        ∃ same ∈ pages.flatten, same.time = event.time ∧ same.id = event.id) ∧
      ∀ pool : List Event, (∀ events ∈ snapshots, found bounds events ⊆ pool) →
        pool.length < snapshots.length * count → Ended count pages := by
  have apart : ∀ events ∈ snapshots, ((found bounds events).map Event.id).Nodup := by
    intro events visited
    have permuted := (listing_perm Event.time (events.filter bounds.meets)).map Event.id
    exact permuted.nodup_iff.mpr ((List.filter_sublist.map _).nodup (distinct events visited))
  have listed : ∀ events ∈ snapshots, Listed Event.time (found bounds events) :=
    fun events _ => listing_listed _ _
  obtain ⟨pages, walked, wandered⟩ := @wander_pages _ _ _ _ _ Event.time Event.id
    (found bounds) count _
    (fun events => listedPage runtime events query.filters count) (listedLink runtime) positive
    snapshots listed (fun _ _ => list_first positive bounded)
    (by
      intro events _ others _ event member
      have inFound := (listing_perm Event.time _).mem_iff.mp member
      exact list_after positive bounded (List.mem_filter.mp inFound).2)
  refine ⟨pages, ?_, wandered.ordered le_of_lt listed, wandered.shown,
    fun _ => wandered.label_once _ apart, ?_, ?_⟩
  · rw [@browseThrough_wander runtime database count queryString query Event .listed id
        (listedLink runtime) (fun events => listedPage runtime events query.filters count) positive
        (fun events cursor => by rw [findRows, if_neg (not_not.mpr blank), listedPage])
        (fun rows => (List.map_id rows).symm)
        (fun rows => by rw [Rows.cursor, Option.map_map]; rfl)
        (fun event => isoformat_scalar event.receivedAt) snapshots ascii asked, first, walked]
    simp
  · exact fun ended event stays =>
      wandered.complete ended event.time event.id stays (by simp)
  · intro pool inside enough
    exact wandered.ends (fun events visited => (apart events visited).of_map _) inside enough

end

/-- The payments, and then one more that is the latest. -/
def growing : List (List Event) :=
  [payments, bareEvent ⟨4⟩ ⟨3000, by decide, by decide⟩ [lit "pay"] [] :: payments]

/-- What a search for payments finds. -/
def paid (events : List Event) : List Row :=
  (streamRanked asciiRuntime (exactly systemVariables) events (lit "pay") {}).getD []

/-- Two pages of a search, and a payment in between. -/
theorem browseThrough_ranked_growing :
    ∃ pages, browseThrough asciiRuntime (exactly systemVariables) 2 growing
        (lit "q=pay&status=") = some (pages.map (List.map Row.event)) ∧
      pages.flatten.Pairwise (fun first second => second.key < first.key) ∧
      List.Forall₂ (fun page events => page.Sublist (paid events)) pages
        (growing.take pages.length) ∧
      (∀ id, (∀ events ∈ growing, ∀ others ∈ growing, ∀ row ∈ paid events,
          ∀ twin ∈ paid others, row.event.id = id → twin.event.id = id → row.key = twin.key) →
        (pages.flatten.map (fun row => row.event.id)).count id ≤ 1) ∧
      (Ended 2 pages → ∀ row : Row, (∀ events ∈ growing.take pages.length,
          ∃ same ∈ paid events, same.key = row.key) →
        ∃ same ∈ pages.flatten, same.key = row.key) ∧
      ∀ pool : List Row, (∀ events ∈ growing, paid events ⊆ pool) →
        pool.length < growing.length * 2 → Ended 2 pages := by
  have found : ∀ events ∈ growing,
      (streamRanked asciiRuntime (exactly systemVariables) events (lit "pay") {}).isSome := by
    decide +kernel
  have scores : ∀ events ∈ growing, ∀ score ∈ (paid events).map Row.score,
      asciiRuntime.readScore (asciiRuntime.scoreText score) = some score ∧
        separator ∉ asciiRuntime.scoreText score := by decide +kernel
  refine browseThrough_ranked (by decide) asciiRuntime_plain (by decide) (by decide) rfl
    (by decide +kernel) (by decide) ?_ ?_
  · intro events visited
    obtain ⟨rows, whole⟩ := Option.isSome_iff_exists.mp (found events visited)
    rw [paid, whole]
    exact whole
  · intro events visited row member
    exact scores events visited row.score (List.mem_map_of_mem member)

/-- No bounds. -/
def unbounded : Query := ⟨none, none, none, none, none, none⟩

/-- Two pages of the list, and a payment in between. -/
theorem browseThrough_listed_growing :
    ∃ pages, browseThrough asciiRuntime (exactly systemVariables) 2 growing
        (lit "status=") = some pages ∧
      pages.flatten.Pairwise (fun first second => second.time ≤ first.time) ∧
      List.Forall₂ (fun page events => page.Sublist (found unbounded events)) pages
        (growing.take pages.length) ∧
      (∀ id, (∀ events ∈ growing, ∀ others ∈ growing, ∀ event ∈ found unbounded events,
          ∀ twin ∈ found unbounded others, event.id = id → twin.id = id → event.time = twin.time) →
        (pages.flatten.map Event.id).count id ≤ 1) ∧
      (Ended 2 pages → ∀ event : Event, (∀ events ∈ growing.take pages.length,
          (∃ same ∈ found unbounded events, same.time = event.time) ∧
            ∀ other ∈ found unbounded events, other.time = event.time → other.id = event.id) →
        ∃ same ∈ pages.flatten, same.time = event.time ∧ same.id = event.id) ∧
      ∀ pool : List Event, (∀ events ∈ growing, found unbounded events ⊆ pool) →
        pool.length < growing.length * 2 → Ended 2 pages :=
  browseThrough_listed (by decide) (by decide) (by decide) rfl (by decide) (by decide) rfl

end WebhookInbox.Search
