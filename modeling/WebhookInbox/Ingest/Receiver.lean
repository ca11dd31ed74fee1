import WebhookInbox.Config
import WebhookInbox.Ingest.Dispatch
import WebhookInbox.Ingest.Parser
import WebhookInbox.Ingest.Signature
import WebhookInbox.Search.Tokenize

/-!
# Receiving a webhook

The checks on a request, in the order of the source, and the event document that an
accepted one is stored as. A check that fails rejects; an exception that nothing
catches loses the request.

What the server guarantees of a request is part of its type: headers are Latin-1,
the query is ASCII, the peer address is a text that can be written, and no body is
longer than the interpreter can measure.
-/

namespace WebhookInbox.Receiver

open Library Calendar WebhookInbox.Endpoint WebhookInbox.Parser WebhookInbox.Tokenize

/-- Every character is one byte of Latin-1. -/
def Latin1 (text : Str) : Prop := ∀ point ∈ text, point.val < 256

instance latin1Decidable (text : Str) : Decidable (Latin1 text) :=
  List.decidableBAll (fun point : CodePoint => point.val < 256) text

/-- A request as the server passes it. Header names are in lower case. The query of
`request.url` is that of the address put together from host, path and query string. -/
structure Request where
  path : Str
  method : Str
  headers : List (Str × Str)
  queryString : Str
  urlQuery : Str
  chunks : List Bytes
  peer : Option Str
  headersLatin1 : ∀ header ∈ headers, Latin1 header.1 ∧ Latin1 header.2
  queryAscii : Text.Ascii queryString
  peerScalar : ∀ host ∈ peer, Text.Scalar host
  measurable : chunks.flatten.length < 2 ^ 63

/-- The interpreter's and the server's part: conversions of text, the JSON reader, the
hash, and the limiter, which tells a refused bucket after how many seconds to retry. -/
structure Environment where
  runtime : Parser.Runtime
  numerals : Numerals
  floatText : PyFloat → Str
  floatText_ascii : ∀ value, Text.Ascii (floatText value)
  hexDigest : Bytes → Bytes → Str
  limiter : Str → Option Int

/-- The part that tokenisation needs. -/
def Environment.search (world : Environment) : Tokenize.Runtime :=
  ⟨world.runtime.casing, world.floatText, world.floatText_ascii⟩

/-! ## The event document -/

/-- An event as it is handed to the database. -/
structure EventDoc where
  endpointId : ObjectId
  endpointName : Str
  receivedAt : Instant
  eventType : Option Str
  method : Str
  headers : Dict Str Str
  query : Dict Str Str
  body : Json
  rawBody : Str
  rawEncoding : RawEncoding
  contentType : Str
  bodySize : Nat
  search : Terms
  sourceIp : Option Str
  userAgent : Option Str
  expiresAt : Option Instant

mutual

/-- A parsed value as the driver writes it. -/
def ofJson : Json → Bson
  | .null => .null
  | .bool value => .bool value
  | .int value => .int value
  | .float value => .double value
  | .str value => .str value
  | .arr items => .arr (ofItems items)
  | .obj members => .doc (ofMembers members)

def ofItems : List Json → List Bson
  | [] => []
  | item :: rest => ofJson item :: ofItems rest

def ofMembers : List (Str × Json) → List (Str × Bson)
  | [] => []
  | (key, value) :: rest => (key, ofJson value) :: ofMembers rest

end

/-- A map of texts. -/
def ofPairs (pairs : Dict Str Str) : Bson := .doc (pairs.map (fun pair => (pair.1, .str pair.2)))

/-- The name of an encoding. -/
def encodingName : RawEncoding → Str
  | .utf8 => lit "utf-8"
  | .base64 => lit "base64"

/-- The document with its field names. -/
def EventDoc.toBson (doc : EventDoc) : Bson :=
  .doc ([
    (lit "endpoint", .doc [
      (lit "id", .objectId doc.endpointId), (lit "name", .str doc.endpointName)]),
    (lit "received_at", .date (toMillis doc.receivedAt)),
    (lit "event_type", .ofOption .str doc.eventType),
    (lit "request", .doc [
      (lit "method", .str doc.method),
      (lit "headers", ofPairs doc.headers),
      (lit "query", ofPairs doc.query),
      (lit "body", ofJson doc.body),
      (lit "raw_body", .str doc.rawBody),
      (lit "raw_encoding", .str (encodingName doc.rawEncoding)),
      (lit "content_type", .str doc.contentType),
      (lit "body_size", .int doc.bodySize)]),
    (lit "search", .doc [
      (lit "tokens", .strings doc.search.tokens),
      (lit "trigrams", .strings doc.search.trigrams)]),
    (lit "processing", .doc [
      (lit "status", .str (lit "received")), (lit "response_status", .int 202)]),
    (lit "metadata", .doc [
      (lit "source_ip", .ofOption .str doc.sourceIp),
      (lit "user_agent", .ofOption .str doc.userAgent)])] ++
    (doc.expiresAt.map (fun expiry => (lit "expires_at", Bson.date (toMillis expiry)))).toList)

/-! ## The checks -/

/-- What a request comes to. -/
inductive Outcome where
  | rejected (status : Nat) (reason : Str) (headers : Dict Str Str)
  | failed
  | inserted (doc : EventDoc)

/-- The document that is handed to the database, if any. -/
def Outcome.doc : Outcome → Option EventDoc
  | .inserted doc => some doc
  | _ => none

/-- An outcome with a document inserts it. -/
theorem Outcome.inserted_of_doc {outcome : Outcome} {doc : EventDoc}
    (handed : outcome.doc = some doc) : outcome = .inserted doc := by
  cases outcome with
  | rejected status reason headers => cases handed
  | failed => cases handed
  | inserted other => exact congrArg Outcome.inserted (Option.some.inj handed)

/-- `_reject(status, reason, path)` -/
def reject (status : Nat) (reason : String) : Outcome := .rejected status (lit reason) []

/-- `headers.get(name)`: the first header of the name. -/
def Request.header (request : Request) (name : Str) : Option Str := Dict.get request.headers name

/-- `dict(request.headers)`: each name with its first value. -/
def Request.headerDict (request : Request) : Dict Str Str :=
  Dict.ofPairs (request.headers.map (fun header =>
    (header.1, (request.header header.1).getD [])))

/-- `dict(request.query_params)`: each name with its last value. -/
def Request.queryDict (request : Request) : Dict Str Str :=
  Dict.ofPairs (Forms.parseQsl request.queryString)

/-- `_header_bytes(headers)` -/
def headerBytes (headers : List (Str × Str)) : Nat :=
  (headers.map (fun header => header.1.length + header.2.length + 4)).sum

/-- `client_key(request, config)` -/
def clientKey (request : Request) (config : RateLimitConfig) : Str :=
  let forwarded := if config.trustForwardedFor then
    (request.header (lit "x-forwarded-for")).getD [] else []
  if forwarded ≠ [] then Text.strip ((Forms.split 0x2C forwarded).getLastD [])
  else request.peer.getD (lit "unknown")

/-- Why a body is not read. -/
inductive ReadError where
  | payloadTooLarge
  | valueError

/-- The loop of `read_limited` over the chunks, with what was read before. -/
def readChunks (limit : Int) : Bytes → List Bytes → Except ReadError Bytes
  | read, [] => .ok read
  | read, chunk :: rest =>
      if limit < (read ++ chunk).length then .error .payloadTooLarge
      else readChunks limit (read ++ chunk) rest

/-- `read_limited(request, limit)`. A declared length that looks like digits may still
not be a number. -/
def readLimited (numerals : Numerals) (request : Request) (limit : Int) :
    Except ReadError Bytes :=
  let declared := (request.header (lit "content-length")).getD []
  if declared ≠ [] ∧ numerals.isDigit declared then
    match numerals.toInt declared with
    | none => .error .valueError
    | some length =>
        if limit < length then .error .payloadTooLarge else readChunks limit [] request.chunks
  else readChunks limit [] request.chunks

/-- `retention_days(endpoint, config)` -/
def retentionDays (endpoint : EndpointDoc) (config : RetentionConfig) : Option Int :=
  if config.enabled then some ((endpoint.retentionDays.filter (· ≠ 0)).getD config.defaultDays)
  else none

/-- `expires_at(endpoint, config, received_at)`. The outer result is missing when the
addition raises. -/
def expiresAt (endpoint : EndpointDoc) (config : RetentionConfig) (receivedAt : Instant) :
    Option (Option Instant) :=
  match (retentionDays endpoint config).filter (· ≠ 0) with
  | none => some none
  | some days => (addSeconds receivedAt (days * 86400)).map some

section
variable (world : Environment) (settings : Settings)

/-- The end of `receive`: from the body that was read to the document. -/
def store (endpoint : EndpointDoc) (request : Request) (raw : Bytes) (now : Instant) : Outcome :=
  let headers := request.headerDict
  let contentType := (headers.get (lit "content-type")).getD []
  match parseBody world.runtime raw contentType settings.limits.maxJsonDepth with
  | .error _ => .failed
  | .ok body =>
      let eventType := extractEventType headers body
      let query := request.queryDict
      match endpoint.name, expiresAt endpoint settings.retention now with
      | some name, some expiry =>
          .inserted {
            endpointId := endpoint.id
            endpointName := name
            receivedAt := now
            eventType := eventType
            method := request.method
            headers := headers
            query := query
            body := escapeKeys body
            rawBody := (decodeRaw raw).1
            rawEncoding := (decodeRaw raw).2
            contentType := contentType
            bodySize := raw.length
            search := build world.search name eventType headers query body
            sourceIp := request.peer
            userAgent := headers.get (lit "user-agent")
            expiresAt := expiry }
      -- A null name raises in the tokeniser.
      | _, _ => .failed

/-- `receive(path, request, ...)` -/
def receive (endpoints : Endpoints) (request : Request) (now : Instant) : Outcome :=
  let path := normalizePath request.path
  let limits := settings.limits
  if limits.maxHeaderCount < request.headers.length then reject 431 "Too many headers"
  else if limits.maxHeaderBytes < headerBytes request.headers then reject 431 "Headers too large"
  else if limits.maxQueryLength < request.urlQuery.length then reject 414 "Query string too long"
  else
    match world.limiter (path ++ lit ":" ++ clientKey request settings.rateLimit) with
    | some retry =>
        .rejected 429 (lit "Rate limit exceeded") [(lit "Retry-After", Text.ofInt retry)]
    | none =>
        match endpoints.findPath path with
        | none => reject 404 "Unknown endpoint"
        | some endpoint =>
            if endpoint.enabled ≠ some true then reject 403 "Endpoint is disabled"
            else
              match endpoint.allowedMethods with
              | none => .failed
              | some methods =>
                  if request.method ∉ methods then
                    reject 405 "Method not allowed for this endpoint"
                  else
                    let limit := (endpoint.maxPayloadSize.filter (· ≠ 0)).getD
                      limits.maxPayloadSize
                    match readLimited world.numerals request limit with
                    | .error .payloadTooLarge => reject 413 "Payload too large"
                    | .error .valueError => .failed
                    | .ok raw =>
                        match Signature.verify world.runtime.casing world.hexDigest endpoint
                            request.headerDict raw with
                        | none => .failed
                        | some false => reject 401 "Invalid signature"
                        | some true => store world settings endpoint request raw now

end

/-! ## What was accepted -/

/-- What is read is all chunks in order. -/
theorem readChunks_ok {limit : Int} {read raw : Bytes} {chunks : List Bytes}
    (complete : readChunks limit read chunks = .ok raw) : raw = read ++ chunks.flatten := by
  induction chunks generalizing read with
  | nil => simpa [readChunks] using (Except.ok.inj complete).symm
  | cons chunk rest inductionHypothesis =>
    simp only [readChunks] at complete
    split at complete
    · cases complete
    · rw [inductionHypothesis complete, List.flatten_cons, List.append_assoc]

/-- A body that is read is the whole body. -/
theorem readLimited_ok {numerals : Numerals} {request : Request} {limit : Int} {raw : Bytes}
    (complete : readLimited numerals request limit = .ok raw) : raw = request.chunks.flatten := by
  unfold readLimited at complete
  dsimp only at complete
  split at complete
  · split at complete
    · cases complete
    · split at complete
      · cases complete
      · exact readChunks_ok complete
  · exact readChunks_ok complete

section
variable {world : Environment} {settings : Settings} {endpoints : Endpoints} {request : Request}
  {now : Instant} {doc : EventDoc}

/-- A request that is stored found its endpoint, came by one of its methods, was read
whole, and was verified. -/
theorem receive_verified (accepted : receive world settings endpoints request now = .inserted doc) :
    ∃ endpoint methods, endpoints.findPath (normalizePath request.path) = some endpoint ∧
      endpoint.allowedMethods = some methods ∧ request.method ∈ methods ∧
      Signature.verify world.runtime.casing world.hexDigest endpoint request.headerDict
        request.chunks.flatten = some true ∧
      store world settings endpoint request request.chunks.flatten now = .inserted doc := by
  unfold receive reject at accepted
  dsimp only at accepted
  split at accepted
  · cases accepted
  · split at accepted
    · cases accepted
    · split at accepted
      · cases accepted
      · split at accepted
        · cases accepted
        · split at accepted
          · cases accepted
          · rename_i endpoint found
            split at accepted
            · cases accepted
            · split at accepted
              · cases accepted
              · rename_i methods admitted
                split at accepted
                · cases accepted
                · rename_i allowed
                  split at accepted
                  · cases accepted
                  · cases accepted
                  · rename_i raw complete
                    obtain rfl := readLimited_ok complete
                    split at accepted
                    · cases accepted
                    · cases accepted
                    · rename_i verified
                      exact ⟨endpoint, methods, found, admitted, not_not.mp allowed, verified,
                        accepted⟩

/-- The same without the verification. -/
theorem receive_inserted (accepted : receive world settings endpoints request now = .inserted doc) :
    ∃ endpoint methods, endpoints.findPath (normalizePath request.path) = some endpoint ∧
      endpoint.allowedMethods = some methods ∧ request.method ∈ methods ∧
      store world settings endpoint request request.chunks.flatten now = .inserted doc := by
  obtain ⟨endpoint, methods, found, admitted, allowed, _, stored⟩ := receive_verified accepted
  exact ⟨endpoint, methods, found, admitted, allowed, stored⟩

/-- A stored document was put together from a parsed body. -/
theorem store_inserted {endpoint : EndpointDoc} {raw : Bytes}
    (stored : store world settings endpoint request raw now = .inserted doc) :
    ∃ body name expiry,
      parseBody world.runtime raw ((request.headerDict.get (lit "content-type")).getD [])
        settings.limits.maxJsonDepth = .ok body ∧
      endpoint.name = some name ∧
      doc = {
        endpointId := endpoint.id
        endpointName := name
        receivedAt := now
        eventType := extractEventType request.headerDict body
        method := request.method
        headers := request.headerDict
        query := request.queryDict
        body := escapeKeys body
        rawBody := (decodeRaw raw).1
        rawEncoding := (decodeRaw raw).2
        contentType := (request.headerDict.get (lit "content-type")).getD []
        bodySize := raw.length
        search := build world.search name (extractEventType request.headerDict body)
          request.headerDict request.queryDict body
        sourceIp := request.peer
        userAgent := request.headerDict.get (lit "user-agent")
        expiresAt := expiry } := by
  unfold store at stored
  dsimp only at stored
  split at stored
  · cases stored
  · rename_i body parsed
    split at stored
    · rename_i name expiry named added
      exact ⟨body, name, expiry, parsed, named, (Outcome.inserted.inj stored).symm⟩
    · cases stored

end

end WebhookInbox.Receiver
