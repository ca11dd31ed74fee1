import WebhookInbox.Ingest.Escaping

/-!
# Terms of stored events

The search terms of an event are derived when it arrives, and again from what is stored:
for events that have none, or for all of them.

`rebuild_unchanged` says that deriving them again changes nothing, for events whose keys
come back from the database as they were.
-/

namespace WebhookInbox.Backfill

open Library Calendar WebhookInbox.Parser WebhookInbox.Tokenize WebhookInbox.Receiver

/-- A stored event: its identifier, and its other fields. -/
structure Stored where
  id : ObjectId
  fields : Dict Str Bson

/-- The fields of a document. -/
def fieldsOf : Bson → Dict Str Bson
  | .doc fields => fields
  | _ => []

/-- An event as it is stored under an identifier. -/
def stored (id : ObjectId) (doc : EventDoc) : Stored := ⟨id, fieldsOf doc.toBson⟩

/-! ## Reading an event -/

section
variable (runtime : Tokenize.Runtime)

mutual

/-- `_collect(value, out)` on a value that was read from the database. -/
def collectStored : Bson → List Str
  | .doc fields => collectFields fields
  | .arr items => collectStoredItems items
  | .str value => [value]
  | .bool _ => []
  | .int value => [Text.ofInt value]
  | .double value => [runtime.floatText value]
  | .null => []
  | .date _ => []
  | .objectId _ => []

def collectStoredItems : List Bson → List Str
  | [] => []
  | item :: rest => collectStored item ++ collectStoredItems rest

def collectFields : List (Str × Bson) → List Str
  | [] => []
  | (key, value) :: rest =>
      if isSensitive runtime.casing key then collectFields rest
      else key :: collectStored value ++ collectFields rest

end

/-- `document.get(name, {})` where its own fields are read next. On a value that has none
this raises. -/
def mapping : Option Bson → Option (Dict Str Bson)
  | none => some []
  | some (.doc fields) => some fields
  | some _ => none

/-- A value among the source strings. One that is no text raises when it is split. -/
def sourceText : Bson → Option Str
  | .str text => some text
  | _ => none

/-- The keys and values of read pairs, without the sensitive ones. -/
def pairTexts (fields : Dict Str Bson) : List (Option Str) :=
  fields.flatMap (fun field =>
    if isSensitive runtime.casing field.1 then [] else [some field.1, sourceText field.2])

/-- The terms of source strings. They are split one after the other, until there are
enough tokens. -/
def buildSources (sources : List (Option Str)) : Option Terms :=
  let texts := (sources.takeWhile Option.isSome).reduceOption
  let tokens := capped tokenLimit (texts.flatMap (tokenize runtime.casing))
  if texts.length = sources.length ∨ tokenLimit ≤ tokens.length then
    some ⟨tokens, capped trigramLimit (tokens.flatMap trigrams)⟩
  else none

/-- `build_from_event(document)`, missing when it raises. -/
def buildFromEvent (fields : Dict Str Bson) : Option Terms := do
  let request ← mapping (fields.get (lit "request"))
  let endpoint ← mapping (fields.get (lit "endpoint"))
  let headers ← mapping (request.get (lit "headers"))
  let query ← mapping (request.get (lit "query"))
  buildSources runtime (
    [sourceText ((endpoint.get (lit "name")).getD (.str []))] ++
    (((fields.get (lit "event_type")).filter Bson.truthy).map sourceText).toList ++
    pairTexts runtime headers ++ pairTexts runtime query ++
    (collectStored runtime (unescapeKeys ((request.get (lit "body")).getD .null))).map some)

/-! ## Writing the terms -/

/-- The `search` part of an event as the driver writes it. -/
def termsBson (terms : Terms) : Bson :=
  .doc [(lit "tokens", .strings terms.tokens), (lit "trigrams", .strings terms.trigrams)]

/-- `{"$set": {"search": terms}}` -/
def Stored.setSearch (terms : Terms) (event : Stored) : Stored :=
  { event with fields := event.fields.set (lit "search") (termsBson terms) }

@[simp] theorem Stored.setSearch_id (terms : Terms) (event : Stored) :
    (event.setSearch terms).id = event.id := rfl

/-- The `events` collection. -/
abbrev Events := Collection Stored.id

/-- `bulk_write(operations)` -/
def bulkWrite (events : Events) (operations : List (ObjectId × Terms)) : Events :=
  operations.foldl (fun events operation =>
    events.updateOne operation.1 (Stored.setSearch operation.2)
      (Stored.setSearch_id operation.2)) events

/-- `BATCH_SIZE` -/
def batchSize : Nat := 500

/-- The loop of `backfill` over the events that were found, with the operations not yet
written and the number of those that were. That number is missing when an event raises,
and then the operations are lost. -/
def backfillFrom (events : Events) (operations : List (ObjectId × Terms)) (updated : Nat) :
    List Stored → Events × Option Nat
  | [] =>
      if operations = [] then (events, some updated)
      else (bulkWrite events operations, some (updated + operations.length))
  | document :: rest =>
      match buildFromEvent runtime document.fields with
      | none => (events, none)
      | some terms =>
          let pending := operations ++ [(document.id, terms)]
          if batchSize ≤ pending.length then
            backfillFrom (bulkWrite events pending) [] (updated + pending.length) rest
          else backfillFrom events pending updated rest

/-- `backfill(db, rebuild)` -/
def backfill (rebuild : Bool) (events : Events) : Events × Option Nat :=
  backfillFrom runtime events [] 0
    (events.docs.filter (fun event => rebuild || (event.fields.get (lit "search")).isNone))

end

/-! ## What is read of a stored event -/

section
variable {runtime : Tokenize.Runtime}

/-- A parsed value has the same source strings when it was stored and read back. -/
theorem collectStored_ofJson (value : Json) :
    collectStored runtime (ofJson value) = collect runtime value := by
  induction value using Json.inductionOn with
  | null => rfl
  | bool value => rfl
  | int value => rfl
  | float value => rfl
  | str value => rfl
  | arr items inductionHypothesis =>
    rw [ofJson, collectStored, collect]
    induction items with
    | nil => rfl
    | cons item rest restHypothesis =>
      rw [ofItems, collectStoredItems, collectItems, inductionHypothesis item List.mem_cons_self,
        restHypothesis (fun other member => inductionHypothesis other
          (List.mem_cons_of_mem _ member))]
  | obj members inductionHypothesis =>
    rw [ofJson, collectStored, collect]
    induction members with
    | nil => rfl
    | cons member rest restHypothesis =>
      obtain ⟨key, value⟩ := member
      have here := inductionHypothesis (key, value) List.mem_cons_self
      have later := restHypothesis (fun other member => inductionHypothesis other
        (List.mem_cons_of_mem _ member))
      simp only [ofMembers, collectFields, collectMembers, here, later]

/-- So have texts that were stored under names. -/
theorem pairTexts_ofPairs (pairs : Dict Str Str) :
    pairTexts runtime (fieldsOf (ofPairs pairs)) = (pairStrings runtime pairs).map some := by
  simp only [pairTexts, pairStrings, fieldsOf, ofPairs, List.flatMap_map, List.map_flatMap]
  congr 1
  funext pair
  split <;> rfl

/-- Texts have terms. -/
theorem buildSources_some (texts : List Str) :
    buildSources runtime (texts.map some) =
      some ⟨capped tokenLimit (texts.flatMap (tokenize runtime.casing)),
        capped trigramLimit ((capped tokenLimit
          (texts.flatMap (tokenize runtime.casing))).flatMap trigrams)⟩ := by
  have whole : (texts.map some).takeWhile Option.isSome = texts.map some := by
    rw [List.takeWhile_eq_self_iff]
    intro text member
    obtain ⟨text, _, rfl⟩ := List.mem_map.mp member
    rfl
  have all : (texts.map some).reduceOption = texts := by
    simp [List.reduceOption, List.filterMap_map]
  simp only [buildSources, whole, all, List.length_map, true_or, ↓reduceIte]

/-- The request of a stored event. -/
def requestFields (doc : EventDoc) : Dict Str Bson :=
  [(lit "method", .str doc.method),
    (lit "headers", ofPairs doc.headers),
    (lit "query", ofPairs doc.query),
    (lit "body", ofJson doc.body),
    (lit "raw_body", .str doc.rawBody),
    (lit "raw_encoding", .str (encodingName doc.rawEncoding)),
    (lit "content_type", .str doc.contentType),
    (lit "body_size", .int doc.bodySize)]

/-- What is read of a stored event. -/
theorem stored_fields (id : ObjectId) (doc : EventDoc) :
    (stored id doc).fields.get (lit "request") = some (.doc (requestFields doc)) ∧
      (stored id doc).fields.get (lit "endpoint") = some (.doc [
        (lit "id", .objectId doc.endpointId), (lit "name", .str doc.endpointName)]) ∧
      (stored id doc).fields.get (lit "event_type") = some (.ofOption .str doc.eventType) ∧
      (stored id doc).fields.get (lit "search") = some (termsBson doc.search) :=
  ⟨rfl, rfl, rfl, rfl⟩

/-- What is read of its request. -/
theorem requestFields_get (doc : EventDoc) :
    (requestFields doc).get (lit "headers") = some (ofPairs doc.headers) ∧
      (requestFields doc).get (lit "query") = some (ofPairs doc.query) ∧
      (requestFields doc).get (lit "body") = some (ofJson doc.body) :=
  ⟨rfl, rfl, rfl⟩

/-- The terms of a stored event are derived from what its request brought, if the keys of
its body come back. -/
theorem buildFromEvent_stored (id : ObjectId) (doc : EventDoc) {body : Json}
    (read : unescapeKeys (ofJson doc.body) = ofJson body) :
    buildFromEvent runtime (stored id doc).fields =
      some (build runtime doc.endpointName doc.eventType doc.headers doc.query body) := by
  obtain ⟨request, endpoint, eventType, _⟩ := stored_fields id doc
  obtain ⟨headers, query, body'⟩ := requestFields_get doc
  have readRequest : mapping ((stored id doc).fields.get (lit "request")) =
      some (requestFields doc) := by rw [request]; rfl
  have readEndpoint : mapping ((stored id doc).fields.get (lit "endpoint")) =
      some [(lit "id", .objectId doc.endpointId), (lit "name", .str doc.endpointName)] := by
    rw [endpoint]; rfl
  have readHeaders : mapping ((requestFields doc).get (lit "headers")) =
      some (fieldsOf (ofPairs doc.headers)) := by rw [headers]; rfl
  have readQuery : mapping ((requestFields doc).get (lit "query")) =
      some (fieldsOf (ofPairs doc.query)) := by rw [query]; rfl
  have name : Dict.get [(lit "id", Bson.objectId doc.endpointId),
      (lit "name", .str doc.endpointName)] (lit "name") = some (.str doc.endpointName) := rfl
  have type : (((some (Bson.ofOption .str doc.eventType)).filter Bson.truthy).map
      sourceText).toList = ((doc.eventType.filter (· ≠ [])).toList).map some := by
    cases doc.eventType with
    | none => rfl
    | some type =>
      by_cases blank : type = []
      · simp [Bson.ofOption, Option.filter, Bson.truthy, blank]
      · simp [Bson.ofOption, Option.filter, Bson.truthy, blank, sourceText]
  have sources : [some doc.endpointName] ++
      ((doc.eventType.filter (· ≠ [])).toList).map some ++
      (pairStrings runtime doc.headers).map some ++ (pairStrings runtime doc.query).map some ++
      (collect runtime body).map some =
      (sourceStrings runtime doc.endpointName doc.eventType doc.headers doc.query body).map
        some := by
    simp [sourceStrings]
  simp only [buildFromEvent, readRequest, readEndpoint, readHeaders, readQuery, eventType, body',
    name, type, Option.bind_eq_bind, Option.bind_some, Option.getD_some, read,
    collectStored_ofJson, pairTexts_ofPairs, sourceText]
  rw [sources, buildSources_some]
  rfl

/-! ## Rebuilding -/

/-- The event has the terms that deriving them again gives. -/
def Settled (runtime : Tokenize.Runtime) (event : Stored) : Prop :=
  ∃ terms, buildFromEvent runtime event.fields = some terms ∧ event.setSearch terms = event

/-- Writing terms for other events, or those that a settled event has, leaves it. -/
theorem find_bulkWrite {event : Stored} {operations : List (ObjectId × Terms)} {events : Events}
    (present : events.find event.id = some event)
    (own : ∀ operation ∈ operations, operation.1 = event.id →
      event.setSearch operation.2 = event) :
    (bulkWrite events operations).find event.id = some event := by
  induction operations generalizing events with
  | nil => exact present
  | cons operation rest inductionHypothesis =>
    apply inductionHypothesis
    · change (events.updateOne operation.1 (Stored.setSearch operation.2)
        (Stored.setSearch_id operation.2)).find event.id = some event
      rw [Collection.find_updateOne]
      by_cases same : event.id = operation.1
      · rw [if_pos same, present, Option.map_some, own operation List.mem_cons_self same.symm]
      · rw [if_neg same]
        exact present
    · exact fun later member => own later (List.mem_cons_of_mem _ member)

/-- A rebuilding leaves a settled event as it is, whatever the other events are. -/
theorem find_backfillFrom {event : Stored} (settled : Settled runtime event) {events : Events}
    {operations : List (ObjectId × Terms)} {updated : Nat} {found : List Stored}
    (present : events.find event.id = some event)
    (own : ∀ operation ∈ operations, operation.1 = event.id →
      event.setSearch operation.2 = event)
    (read : ∀ document ∈ found, document.id = event.id → document = event) :
    (backfillFrom runtime events operations updated found).1.find event.id = some event := by
  induction found generalizing events operations updated with
  | nil =>
    rw [backfillFrom]
    split
    · exact present
    · exact find_bulkWrite present own
  | cons document rest inductionHypothesis =>
    have readRest : ∀ other ∈ rest, other.id = event.id → other = event :=
      fun other member => read other (List.mem_cons_of_mem _ member)
    rw [backfillFrom]
    split
    · exact present
    · rename_i terms derived
      have ownPending : ∀ operation ∈ operations ++ [(document.id, terms)],
          operation.1 = event.id → event.setSearch operation.2 = event := by
        intro operation member same
        cases List.mem_append.mp member with
        | inl old => exact own operation old same
        | inr last =>
          rw [List.mem_singleton] at last
          subst last
          obtain rfl := read document List.mem_cons_self same
          obtain ⟨again, derivedAgain, kept⟩ := settled
          rw [derived] at derivedAgain
          exact Option.some.inj derivedAgain ▸ kept
      dsimp only
      split
      · exact inductionHypothesis (find_bulkWrite present ownPending)
          (fun _ member => absurd member List.not_mem_nil) readRest
      · exact inductionHypothesis present ownPending readRest

/-- Rebuilding the terms of a stored event changes nothing: for a request that is accepted,
whose body has no lookalike of a full stop in a key and none of a dollar sign at the start
of one, the terms of the stored event are those that were derived when it arrived, and a
rebuilding of a collection that holds the event leaves it as it is. -/
theorem rebuild_unchanged {world : Environment} {settings : Settings}
    {endpoints : Endpoint.Endpoints} {request : Request} {now : Instant} {doc : EventDoc}
    (accepted : receive world settings endpoints request now = .inserted doc)
    (plain : ∀ body, parsedBody world settings request = .ok body → Unmarked body)
    (id : ObjectId) :
    buildFromEvent world.search (stored id doc).fields = some doc.search ∧
      ∀ events : Events, events.find id = some (stored id doc) →
        (backfill world.search true events).1.find id = some (stored id doc) := by
  obtain ⟨endpoint, methods, _, _, _, handed⟩ := receive_inserted accepted
  obtain ⟨body, name, expiry, parsed, _, made⟩ := store_inserted handed
  have read : unescapeKeys (ofJson doc.body) = ofJson body := by
    rw [made]
    exact unescape_stored (parseBody_distinct parsed) (plain body parsed)
  have terms : buildFromEvent world.search (stored id doc).fields = some doc.search := by
    rw [buildFromEvent_stored id doc read, made]
  refine ⟨terms, fun events present => ?_⟩
  have settled : Settled world.search (stored id doc) := by
    refine ⟨doc.search, terms, ?_⟩
    have same := Dict.set_get (stored_fields id doc).2.2.2
    simp only [Stored.setSearch, same]
  apply find_backfillFrom settled present (fun _ member => absurd member List.not_mem_nil)
  intro document member same
  have found := Collection.find_of_mem (List.mem_of_mem_filter member)
  rw [same] at found
  exact Option.some.inj (found.symm.trans present)

end

/-- A delivery with keys that are escaped. -/
def dotted : Request :=
  delivery (asciiBytes "\x7b\"$id\":\x7b\"a.b\":\"checkout.completed\"\x7d\x7d") (by decide +kernel)

/-- The document that is stored for it. -/
def dottedDoc : EventDoc := (delivered dotted).doc.get (by decide +kernel)

/-- The collection with this event alone. -/
def dottedEvents : Events := ⟨[stored ⟨7⟩ dottedDoc], List.nodup_singleton _⟩

/-- The terms of the delivery are derived again from its stored event, which a rebuilding
leaves as it is. -/
theorem rebuild_unchanged_dotted :
    buildFromEvent plainWorld.search (stored ⟨7⟩ dottedDoc).fields = some dottedDoc.search ∧
      (backfill plainWorld.search true dottedEvents).1.find ⟨7⟩ = some (stored ⟨7⟩ dottedDoc) := by
  have accepted : delivered dotted = .inserted dottedDoc :=
    Outcome.inserted_of_doc (Option.some_get _).symm
  have plain : ((parsedBody plainWorld {} dotted).toOption.map
      (fun body => decide (Unmarked body))) = some true := by decide +kernel
  obtain ⟨terms, kept⟩ := rebuild_unchanged accepted (by
    intro body parsed
    rw [parsed] at plain
    simpa [Except.toOption] using plain) ⟨7⟩
  exact ⟨terms, kept dottedEvents rfl⟩

end WebhookInbox.Backfill
