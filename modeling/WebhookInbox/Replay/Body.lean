import WebhookInbox.Ingest.Receiver
import WebhookInbox.Library.Utf8
import WebhookInbox.Replay.Worker

/-!
# The body of a replay

`event_body` reads the bytes of a request back from the document that was stored for
it. Text that was decoded strictly encodes to its bytes, and base64 decodes to its
bytes, so a replay sends what arrived.
-/

namespace WebhookInbox.Store

open Library WebhookInbox.Parser WebhookInbox.Receiver WebhookInbox.Worker Runner

/-- `value or ""`, where a value that is no text and not empty cannot be read on. -/
def textOrEmpty (value : Option Bson) : Option Str :=
  match value with
  | some (.str text) => some text
  | some other => if other.truthy then none else some []
  | none => some []

/-- `event_body(event)`, missing where it raises. -/
def eventBody (event : Bson) : Option Bytes :=
  match (event.field (lit "request")).getD (.doc []) with
  | .doc request =>
      match textOrEmpty (Dict.get request (lit "raw_body")), Dict.get request (lit "raw_encoding") with
      | some raw, some (.str encoding) =>
          if encoding = lit "base64" then Base64.decode raw else Encoding.encodeUtf8 raw
      | some raw, _ => Encoding.encodeUtf8 raw
      | none, _ => none
  | _ => none

/-- The parts of an event document that a replay reads. -/
def storedParts (doc : EventDoc) : StoredEvent := ⟨doc.headers, doc.rawBody, doc.rawEncoding⟩

/-- On a stored document the fields are there, and the encoding decides. -/
theorem eventBody_toBson (doc : EventDoc) :
    eventBody doc.toBson = Worker.eventBody (storedParts doc) := by
  have request : doc.toBson.field (lit "request") = some (.doc [
      (lit "method", .str doc.method),
      (lit "headers", ofPairs doc.headers),
      (lit "query", ofPairs doc.query),
      (lit "body", ofJson doc.body),
      (lit "raw_body", .str doc.rawBody),
      (lit "raw_encoding", .str (encodingName doc.rawEncoding)),
      (lit "content_type", .str doc.contentType),
      (lit "body_size", .int doc.bodySize)]) := rfl
  rw [eventBody, request]
  cases encoding : doc.rawEncoding with
  | utf8 =>
    have fields : Worker.eventBody (storedParts doc) = Encoding.encodeUtf8 doc.rawBody := by
      simp only [Worker.eventBody, storedParts, encoding]
    rw [fields]
    rfl
  | base64 =>
    have fields : Worker.eventBody (storedParts doc) = Base64.decode doc.rawBody := by
      simp only [Worker.eventBody, storedParts, encoding]
    rw [fields]
    rfl

/-- A request of an attempt carries the whole body, or none if it is empty. -/
theorem send_content {world : World} {method : Str} {headers : Dict Str Str} {body : Bytes}
    {config : ReplayConfig} {url : Str} {issued : Runner.Request}
    (sent : issued ∈ (send world method headers body config url).1) :
    issued.content = if body = [] then none else some body := by
  obtain ⟨hop, located⟩ := List.mem_iff_getElem?.mp sent
  obtain ⟨_, target, _, _, rfl⟩ := send_issued located
  rfl

/-- A replay sends the bytes that arrived: whatever they are, `event_body` returns them
from a document that keeps what `decode_raw` made of them, and every request of an
attempt to deliver that event carries them.

Proof: the document's fields are read back by `eventBody_toBson`, and the two encodings
are undone by `eventBody_stored`. -/
theorem replay_faithful (raw : Bytes) (doc : EventDoc) (world : World) (casing : Casing)
    (config : ReplayConfig) (job : ReplayDoc) (elapsed : Int) :
    let event := { doc with rawBody := (decodeRaw raw).1, rawEncoding := (decodeRaw raw).2 }
    eventBody event.toBson = some raw ∧
      (deliver world casing config job (storedParts event) elapsed =
        match execute world job.method (mergeHeaders casing event.headers job.headers) raw config
            elapsed job.destination with
        | .error error => .error (.raised error)
        | .ok attempt => .ok attempt) ∧
      ∀ issued ∈ (send world job.method (mergeHeaders casing event.headers job.headers) raw config
          job.destination).1, issued.content.getD [] = raw := by
  intro event
  have readable : Worker.eventBody (storedParts event) = some raw :=
    eventBody_stored doc.headers raw
  refine ⟨?_, ?_, ?_⟩
  · rw [eventBody_toBson]
    exact readable
  · unfold deliver
    rw [readable]
    rfl
  · intro issued sent
    rw [send_content sent]
    by_cases empty : raw = []
    · simp [empty]
    · simp [empty]

/-- Of an accepted request, `event_body` returns the whole body that was received. -/
theorem receive_faithful {world : Environment} {settings : Settings}
    {endpoints : Endpoint.Endpoints} {request : Receiver.Request} {now : Calendar.Instant}
    {doc : EventDoc}
    (accepted : receive world settings endpoints request now = .inserted doc) :
    eventBody doc.toBson = some request.chunks.flatten := by
  obtain ⟨endpoint, methods, _, _, _, stored⟩ := receive_inserted accepted
  obtain ⟨body, name, expiry, _, _, rfl⟩ := store_inserted stored
  rw [eventBody_toBson]
  exact eventBody_stored request.headerDict request.chunks.flatten

end WebhookInbox.Store
