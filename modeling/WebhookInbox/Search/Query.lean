import WebhookInbox.Library.Aggregation
import WebhookInbox.Library.IsoFormat
import WebhookInbox.Library.KeysetPaging
import WebhookInbox.Search.Tokenize
import Mathlib.Data.Prod.Lex

/-!
# Listing and searching events

Events are listed by time, or searched for and ranked by a score that the database
computes. Both are read a page at a time; a cursor in the link to the next page says where
it begins. `Search/Ranking`, `Search/Inert` and `Search/Pages` prove what a search returns.

The collection is a list in the order in which the database returns events that a sort
does not tell apart. A result is missing where an exception is raised, by the program or by
the database.
-/

namespace WebhookInbox.Search

open Library Calendar IsoFormat Documents Aggregation KeysetPaging WebhookInbox.Tokenize

/-- The interpreter's and the libraries' part: case conversion, dates, identifiers and
numbers as text. -/
structure Runtime where
  casing : Casing
  dates : IsoReader
  readId : Str → Option ObjectId
  readId_text : ∀ id : ObjectId, readId id.text = some id
  scoreText : ℚ → Str
  readScore : Str → Option ℚ

/-- The interpreter on ASCII text, and on the scores of whole tiers. -/
def asciiRuntime : Runtime where
  casing := Casing.ascii
  dates := IsoReader.strict
  readId := ObjectId.ofText
  readId_text := ObjectId.ofText_text
  scoreText score :=
    if score = 100 then lit "100.0" else if score = 60 then lit "60.0"
    else if score = 40 then lit "40.0" else []
  readScore text :=
    if text = lit "100.0" then some 100 else if text = lit "60.0" then some 60
    else if text = lit "40.0" then some 40 else none

/-! ## Events -/

/-- The part of an event that a search looks at. Arrays may be missing, and other fields
may be there. -/
structure SearchPart where
  tokens : Option (List Str)
  trigrams : Option (List Str)
  rest : List (Str × Bson)
  others : ∀ field ∈ rest, field.1 ≠ lit "tokens" ∧ field.1 ≠ lit "trigrams"

/-- A stored event, with any other fields. -/
structure Event where
  id : ObjectId
  receivedAt : Stamp
  search : Option SearchPart
  rest : List (Str × Bson)
  others : ∀ field ∈ rest,
    field.1 ≠ lit "_id" ∧ field.1 ≠ lit "received_at" ∧ field.1 ≠ lit "search"

/-- An array that may be missing. -/
def arrayField (name : Str) (texts : Option (List Str)) : List (Str × Bson) :=
  (texts.map (fun texts => (name, Bson.strings texts))).toList

/-- The stored form of the search part. -/
def SearchPart.toBson (part : SearchPart) : Bson :=
  .doc (arrayField (lit "tokens") part.tokens ++ arrayField (lit "trigrams") part.trigrams ++
    part.rest)

/-- The stored form of an event. -/
def Event.toBson (event : Event) : Bson :=
  .doc ([(lit "_id", .objectId event.id), (lit "received_at", .date event.receivedAt.millis)] ++
    (event.search.map (fun part => (lit "search", part.toBson))).toList ++ event.rest)

/-- The tokens under which an event is found. -/
def Event.tokens (event : Event) : Option (List Str) := event.search.bind SearchPart.tokens

/-- The trigrams under which it is found. -/
def Event.trigrams (event : Event) : Option (List Str) := event.search.bind SearchPart.trigrams

/-- An event with nothing but its terms. -/
def bareEvent (id : ObjectId) (receivedAt : Stamp) (tokens trigrams : List Str) : Event where
  id := id
  receivedAt := receivedAt
  search := some ⟨some tokens, some trigrams, [], fun _ member => absurd member List.not_mem_nil⟩
  rest := []
  others := fun _ member => absurd member List.not_mem_nil

/-! ## Filters -/

/-- `Filters` -/
structure Filters where
  endpoint : Option Str := none
  status : Option Str := none
  method : Option Str := none
  eventType : Option Str := none
  dateFrom : Option Str := none
  dateTo : Option Str := none

/-- The filter that reaches the database, by its fields. -/
structure Query where
  endpointId : Option ObjectId
  status : Option Str
  method : Option Str
  eventType : Option Str
  receivedSince : Option Millis
  receivedBefore : Option Millis

/-- An argument that is there and not empty. -/
def given (value : Option Str) : Option Str := value.filter (· ≠ [])

/-- A time in UTC, missing when the difference leaves the range of `datetime`. Without a
time zone it is taken as UTC. -/
def utc (reading : Reading) : Option Instant :=
  let moved := reading.wall - reading.offset.getD 0
  if minInstant ≤ moved ∧ moved ≤ maxInstant then some moved else none

/-- `_parse_date(value)` -/
def parseDate (runtime : Runtime) (value : Option Str) : Option Reading :=
  (given value).bind runtime.dates.read

/-- The lower bound, as the database receives it. -/
def sinceDate (runtime : Runtime) (value : Option Str) : Option (Option Millis) :=
  match parseDate runtime value with
  | none => some none
  | some start => (utc start).map (fun instant => some (toMillis instant))

/-- The upper bound: a day after the date, as the database receives it. -/
def beforeDate (runtime : Runtime) (value : Option Str) : Option (Option Millis) :=
  match parseDate runtime value with
  | none => some none
  | some ending =>
      (addSeconds ending.wall 86400).bind (fun later =>
        (utc ⟨later, ending.offset⟩).map (fun instant => some (toMillis instant)))

/-- `to_query(self)`. Adding a day and converting the dates may raise. -/
def Filters.toQuery (runtime : Runtime) (filters : Filters) : Option Query :=
  (sinceDate runtime filters.dateFrom).bind (fun since =>
    (beforeDate runtime filters.dateTo).map (fun before =>
      { endpointId := (given filters.endpoint).bind runtime.readId
        status := given filters.status
        method := (given filters.method).map runtime.casing.upper
        eventType := given filters.eventType
        receivedSince := since
        receivedBefore := before }))

/-- The conditions of a query, under the paths that it names. -/
def Query.clauses (query : Query) : List Clause :=
  (query.endpointId.map (fun id => ⟨[lit "endpoint", lit "id"], .id id⟩)).toList ++
  (query.status.map (fun status => ⟨[lit "processing", lit "status"], .text status⟩)).toList ++
  (query.method.map (fun method => ⟨[lit "request", lit "method"], .text method⟩)).toList ++
  (query.eventType.map (fun type => ⟨[lit "event_type"], .text type⟩)).toList ++
  (query.receivedSince.map (fun date => ⟨[lit "received_at"], .since date⟩)).toList ++
  (query.receivedBefore.map (fun date => ⟨[lit "received_at"], .before date⟩)).toList

/-- The event meets the query. -/
def Query.meets (query : Query) (event : Event) : Bool :=
  query.clauses.all (fun clause => clause.holds event.toBson)

/-! ## Cursors -/

/-- `Cursor`: a time, and for a ranked search the score and the identifier as well. The
time is one from the database in a cursor that is made, and one from a text in a cursor
that is read. -/
structure Cursor (τ : Type) where
  receivedAt : τ
  ranked : Option (ℚ × ObjectId)

def separator : CodePoint := 0x7C

/-- `encode(self)` -/
def Cursor.encode (runtime : Runtime) (cursor : Cursor Stamp) : Str :=
  match cursor.ranked with
  | none => isoformat cursor.receivedAt
  | some (score, id) =>
      runtime.scoreText score ++ [separator] ++ isoformat cursor.receivedAt ++ [separator] ++
        id.text

/-- `Cursor.decode(value)` -/
def Cursor.decode (runtime : Runtime) (value : Option Str) : Option (Cursor Reading) :=
  (given value).bind (fun text =>
    match text.splitOn separator with
    | [received] => (runtime.dates.read received).map (fun date => ⟨date, none⟩)
    | [score, received, id] =>
        (runtime.dates.read received).bind (fun date =>
          (runtime.readScore score).bind (fun score =>
            (runtime.readId id).map (fun id => ⟨date, some (score, id)⟩)))
    | _ => none)

/-! ## Listing -/

/-- The time by which events are listed. -/
def Event.time (event : Event) : Millis := event.receivedAt.millis

/-- `find(query).sort("received_at", -1)` -/
def found (query : Query) (events : List Event) : List Event :=
  listing Event.time (events.filter query.meets)

/-- `limit(count)` on a `find`. Zero means no limit. -/
def limited {α : Type} (count : Nat) (rows : List α) : List α :=
  if count = 0 then rows else rows.take count

/-- The query from a cursor on: the bound of the cursor takes the place of the other one. -/
def fromCursor (query : Query) : Option (Cursor Reading) → Option Query
  | none => some query
  | some cursor => (utc cursor.receivedAt).map (fun instant =>
      { query with receivedBefore := some (toMillis instant) })

/-- `list_events(db, filters, limit, cursor)` -/
def listEvents (runtime : Runtime) (events : List Event) (filters : Filters) (count : Nat)
    (cursor : Option (Cursor Reading)) : Option (List Event) :=
  (filters.toQuery runtime).bind (fun query =>
    (fromCursor query cursor).map (fun query => limited count (found query events)))

/-- `stream_events(db, query, filters)` with a blank query. -/
def streamListed (runtime : Runtime) (events : List Event) (filters : Filters) :
    Option (List Event) :=
  (filters.toQuery runtime).map (fun query => found query events)

/-! ## Searching -/

/-- An event with its score. -/
structure Row where
  event : Event
  score : ℚ

/-- The order of a ranked search: score, time, identifier. -/
def Row.key (row : Row) : ℚ ×ₗ Millis ×ₗ Nat :=
  toLex (row.score, toLex (row.event.time, row.event.id.bits.toNat))

def exactScore : ℚ := 100

def prefixScore : ℚ := 60

def tokenScore : ℚ := 40

def fuzzyScore : ℚ := 30

def fuzzyMinRatio : ℚ := 2 / 5

def minScore : ℚ := fuzzyScore * fuzzyMinRatio

/-- `TOKENS` -/
def tokensExpr : ArrayExpr := .orEmpty (lit "$search.tokens")

/-- `TRIGRAMS` -/
def trigramsExpr : ArrayExpr := .orEmpty (lit "$search.trigrams")

/-- `_candidate_clause(exact, terms, grams)` -/
def candidateClause (exact : Str) (terms grams : List Str) : List Clause :=
  [⟨[lit "search", lit "tokens"], .text exact⟩,
    ⟨[lit "search", lit "tokens"], .pattern (caret :: escape exact)⟩] ++
  (if terms ≠ [] then [⟨[lit "search", lit "tokens"], .all terms⟩] else []) ++
  (if grams ≠ [] then [⟨[lit "search", lit "trigrams"], .oneOf grams⟩] else [])

/-- The condition that some token begins with the text. -/
def prefixExpr (exact : Str) : BoolExpr :=
  .anyElementTrue tokensExpr (lit "token")
    (.eq (.substrCP (.operand (lit "$$token")) 0 exact.length) (.operand exact))

/-- The share of the trigrams that the event has. -/
def ratioExpr (grams : List Str) : NumberExpr :=
  if grams ≠ [] then
    .divide (.size (.setIntersection trigramsExpr (.texts grams))) (.constant grams.length)
  else .constant 0

/-- `_score_expression(exact, terms, grams)` -/
def scoreExpression (exact : Str) (terms grams : List Str) : SwitchExpr where
  branches := [
    (.isIn (.operand exact) tokensExpr, exactScore),
    (prefixExpr exact, prefixScore),
    (.setIsSubset (.texts terms) tokensExpr, tokenScore)]
  default := .multiply (.constant fuzzyScore) (ratioExpr grams)

/-- Where a ranked page begins. -/
structure Position where
  score : ℚ
  receivedAt : Millis
  id : ObjectId

/-- `_cursor_clause(cursor)` on one row. -/
def Position.precedes (position : Position) (row : Row) : Bool :=
  decide (row.score < position.score) ||
    (decide (row.score = position.score) && decide (row.event.time < position.receivedAt)) ||
    (decide (row.score = position.score) && decide (row.event.time = position.receivedAt) &&
      decide (row.event.id.bits.toNat < position.id.bits.toNat))

/-- An aggregation by its stages: the filter, the score that is added, the least score, the
position after which rows come, and the limit. The sort stands before the limit. -/
structure Pipeline where
  filter : Filter
  score : SwitchExpr
  least : ℚ
  position : Option Position
  limit : Option Nat

/-- `normalize(query)` -/
def exactText (runtime : Runtime) (query : Str) : Str := normalize runtime.casing query

/-- `list(dict.fromkeys(split_terms(exact)))` -/
def queryTerms (runtime : Runtime) (query : Str) : List Str :=
  (splitTerms runtime.casing (exactText runtime query)).eraseDups

/-- `list(dict.fromkeys(chain.from_iterable(trigrams(t) for t in terms)))` -/
def queryGrams (runtime : Runtime) (query : Str) : List Str :=
  ((queryTerms runtime query).flatMap Tokenize.trigrams).eraseDups

/-- The position of a cursor that has a score, as the database receives it. -/
def positionOf : Option (Cursor Reading) → Option (Option Position)
  | some ⟨receivedAt, some (score, id)⟩ =>
      (utc receivedAt).map (fun instant => some ⟨score, toMillis instant, id⟩)
  | _ => some none

/-- `build_pipeline(query, filters, limit, cursor)` -/
def buildPipeline (runtime : Runtime) (query : Str) (filters : Filters) (limit : Option Nat)
    (cursor : Option (Cursor Reading)) : Option Pipeline :=
  let exact := exactText runtime query
  let terms := queryTerms runtime query
  let grams := queryGrams runtime query
  (filters.toQuery runtime).bind (fun constraints =>
    (positionOf cursor).map (fun position =>
      { filter := ⟨constraints.clauses, some (candidateClause exact terms grams)⟩
        score := scoreExpression exact terms grams
        least := minScore
        position := position
        limit := limit }))

/-- What the database brings to an aggregation: its variables, and its rounding, for which
zero is exact. -/
structure Database where
  server : Server
  round : ℚ → ℚ
  round_zero : round 0 = 0

/-- The database with exact arithmetic. -/
def exactly (server : Server) : Database := ⟨server, id, rfl⟩

/-- Some of the server's variables. -/
def systemVariables : Server where
  names := [lit "ROOT", lit "CURRENT", lit "REMOVE"]
  value name document := if name = lit "REMOVE" then none else some document

/-- The row of an event with the score that is added to it. -/
def Pipeline.row (database : Database) (pipeline : Pipeline) (event : Event) : Option Row :=
  (pipeline.score.eval database.round ⟨database.server, event.toBson, []⟩).map
    (fun score => ⟨event, score⟩)

/-- The stages after the score was added, up to the sort. -/
def Pipeline.keeps (pipeline : Pipeline) (row : Row) : Bool :=
  decide (pipeline.least ≤ row.score) && pipeline.position.all (fun position =>
    position.precedes row)

/-- The stage that limits the rows, if there is one. -/
def Pipeline.cut (pipeline : Pipeline) (rows : List Row) : List Row :=
  match pipeline.limit with
  | none => rows
  | some count => rows.take count

/-- `db.events.aggregate(pipeline)`. Expressions are read before any event is looked at, and
a limit of zero is refused. -/
def aggregate (database : Database) (pipeline : Pipeline) (events : List Event) :
    Option (List Row) :=
  if pipeline.score.valid database.server ∧ pipeline.limit ≠ some 0 then
    ((events.filter (fun event => pipeline.filter.selects event.toBson)).mapM
      (pipeline.row database)).map (fun rows =>
        pipeline.cut (listing Row.key (rows.filter pipeline.keeps)))
  else none

/-- `backend.search(db, query, filters, limit, cursor)` -/
def searchEvents (runtime : Runtime) (database : Database) (events : List Event) (query : Str)
    (filters : Filters) (limit : Option Nat) (cursor : Option (Cursor Reading)) :
    Option (List Row) :=
  (buildPipeline runtime query filters limit cursor).bind (fun pipeline =>
    aggregate database pipeline events)

/-- `stream_events(db, query, filters)` with another query. -/
def streamRanked (runtime : Runtime) (database : Database) (events : List Event) (query : Str)
    (filters : Filters) : Option (List Row) :=
  searchEvents runtime database events query filters none none

/-- `find_events(db, query, filters, limit, cursor)`: the page, and whether it is ranked. -/
def findEvents (runtime : Runtime) (database : Database) (events : List Event) (query : Str)
    (filters : Filters) (count : Nat) (cursor : Option (Cursor Reading)) :
    Option (List Event × Bool) :=
  if Text.strip query ≠ [] then
    (searchEvents runtime database events query filters (some count) cursor).map (fun rows =>
      (rows.map Row.event, true))
  else
    (listEvents runtime events filters count cursor).map (fun listed => (listed, false))

end WebhookInbox.Search
