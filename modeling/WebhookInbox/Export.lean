import WebhookInbox.Library.IsoFormat
import WebhookInbox.Library.JsonRoundTrip
import WebhookInbox.Search.Backfill

/-!
# JSON exports

Events are exported in a public form, as one JSON array or as one JSON object a line. The
encoder writes numbers that are not finite as words that are no JSON, and a body may hold such
numbers, since the reader takes the words, and `1e999` as well.

`exports_agree_iff` says that this is the only way in which an export goes wrong.
-/

namespace WebhookInbox.Export

open Library Calendar IsoFormat Json JsonText JsonWriter WebhookInbox.Parser WebhookInbox.Receiver
  WebhookInbox.Backfill

/-! ## The public form -/

/-- `public(document)`, for a request that is a document. It raises without a time, and where
a value has no fields to read. -/
def publicOf (document : Stored) : Option Bson := do
  let request ← mapping (document.fields.get (lit "request"))
  let body := unescapeKeys ((request.get (lit "body")).getD .null)
  let receivedAt ← document.fields.get (lit "received_at")
  let endpoint ← mapping (document.fields.get (lit "endpoint"))
  pure (.doc [
    (lit "id", .str document.id.text),
    (lit "received_at", receivedAt),
    (lit "endpoint", (endpoint.get (lit "name")).getD .null),
    (lit "event_type", (document.fields.get (lit "event_type")).getD .null),
    (lit "request", .doc (request.set (lit "body") body)),
    (lit "processing", (document.fields.get (lit "processing")).getD (.doc [])),
    (lit "metadata", (document.fields.get (lit "metadata")).getD (.doc []))])

mutual

/-- The value that `json.dumps(value, default=_encode)` writes: `_encode` makes texts of dates
and of identifiers. A time that no `datetime` can hold is never read. -/
def encoded : Bson → Option Json
  | .null => some .null
  | .bool value => some (.bool value)
  | .int value => some (.int value)
  | .double value => some (.float value)
  | .str value => some (.str value)
  | .date value => (stampOf value).map (fun stamp => .str (isoformat stamp))
  | .objectId value => some (.str value.text)
  | .arr items => (encodedItems items).map .arr
  | .doc fields => (encodedFields fields).map .obj

def encodedItems : List Bson → Option (List Json)
  | [] => some []
  | item :: rest => do
      let item ← encoded item
      let rest ← encodedItems rest
      pure (item :: rest)

def encodedFields : List (Str × Bson) → Option (List (Str × Json))
  | [] => some []
  | (key, value) :: rest => do
      let value ← encoded value
      let rest ← encodedFields rest
      pure ((key, value) :: rest)

end

/-- The public form as it is exported. -/
def exported (document : Stored) : Option Json := (publicOf document).bind encoded

/-! ## The streams -/

section
variable (floatText : PyFloat → Str)

/-- `json.dumps(public(document), default=_encode)` -/
def line (document : Stored) : Option Str := (exported document).map (dumps floatText)

/-- The chunks of `stream_jsonl(rows)`, if it ends. -/
def streamJsonl (rows : List Stored) : Option (List Str) :=
  rows.mapM (fun document => (line floatText document).map (· ++ lit "\n"))

/-- The loop of `stream_json(rows)`. -/
def jsonChunks (first : Bool) : List Stored → Option (List Str)
  | [] => some []
  | document :: rest => do
      let text ← line floatText document
      let later ← jsonChunks false rest
      pure (((if first then [] else lit ",\n") ++ text) :: later)

/-- The chunks of `stream_json(rows)`, if it ends. -/
def streamJson (rows : List Stored) : Option (List Str) :=
  (jsonChunks floatText true rows).map (fun chunks => [lit "[\n"] ++ chunks ++ [lit "\n]\n"])

end

/-- Both exports of the rows are standard JSON and are read as the public forms: the array as
elements of these texts, and the objects as these lines. -/
structure Agree (reader : Reader) (floatText : PyFloat → Str) (rows : List Stored)
    (values : List Json) (chunks elements lines : List Str) : Prop where
  forms : rows.mapM exported = some values
  array : streamJson floatText rows = some chunks
  valid : IsArray elements chunks.flatten
  length : elements.length = rows.length
  whole : Json.parse reader chunks.flatten = .ok (.arr values)
  decoded : elements.map (Json.parse reader) = values.map .ok
  objects : streamJsonl floatText rows = some (lines.map (· ++ lit "\n"))
  validLines : ∀ text ∈ lines, 0x0A ∉ text ∧ ∃ members, IsObject members text
  decodedLines : lines.map (Json.parse reader) = values.map .ok

/-! ## Stored events -/

/-- A parsed value is written as it is. -/
theorem encoded_ofJson (value : Json) : encoded (ofJson value) = some value := by
  induction value using Json.inductionOn with
  | null => rfl
  | bool value => rfl
  | int value => rfl
  | float value => rfl
  | str value => rfl
  | arr items inductionHypothesis =>
    have each : encodedItems (ofItems items) = some items := by
      induction items with
      | nil => rfl
      | cons item rest restHypothesis =>
        have later := restHypothesis (fun other member =>
          inductionHypothesis other (List.mem_cons_of_mem _ member))
        rw [ofItems, encodedItems, inductionHypothesis item List.mem_cons_self, later]
        rfl
    rw [ofJson, encoded, each]
    rfl
  | obj members inductionHypothesis =>
    have each : encodedFields (ofMembers members) = some members := by
      induction members with
      | nil => rfl
      | cons member rest restHypothesis =>
        obtain ⟨key, value⟩ := member
        have later := restHypothesis (fun other inside =>
          inductionHypothesis other (List.mem_cons_of_mem _ inside))
        rw [ofMembers, encodedFields, inductionHypothesis (key, value) List.mem_cons_self, later]
        rfl
    rw [ofJson, encoded, each]
    rfl

/-- A map of texts, and a text that may be missing. -/
def pairsForm (pairs : Dict Str Str) : Json := .obj (pairs.map (fun pair => (pair.1, .str pair.2)))

def optionForm (text : Option Str) : Json := (text.map .str).getD .null

theorem ofPairs_eq (pairs : Dict Str Str) : ofPairs pairs = ofJson (pairsForm pairs) := by
  rw [ofPairs, pairsForm, ofJson, ofMembers_eq_map, List.map_map]
  rfl

theorem ofOption_eq (text : Option Str) : Bson.ofOption .str text = ofJson (optionForm text) := by
  cases text <;> rfl

/-- The public form of the request of a stored event. -/
def requestForm (doc : EventDoc) : Json :=
  .obj [(lit "method", .str doc.method),
    (lit "headers", pairsForm doc.headers),
    (lit "query", pairsForm doc.query),
    (lit "body", unescaped doc.body),
    (lit "raw_body", .str doc.rawBody),
    (lit "raw_encoding", .str (encodingName doc.rawEncoding)),
    (lit "content_type", .str doc.contentType),
    (lit "body_size", .int doc.bodySize)]

/-- The public form of a stored event. -/
def publicForm (id : ObjectId) (doc : EventDoc) (receivedAt : Stamp) : Json :=
  .obj [(lit "id", .str id.text),
    (lit "received_at", .str (isoformat receivedAt)),
    (lit "endpoint", .str doc.endpointName),
    (lit "event_type", optionForm doc.eventType),
    (lit "request", requestForm doc),
    (lit "processing", .obj [
      (lit "status", .str (lit "received")), (lit "response_status", .int 202)]),
    (lit "metadata", .obj [
      (lit "source_ip", optionForm doc.sourceIp), (lit "user_agent", optionForm doc.userAgent)])]

/-- What is exported of a stored event, if its keys come back. -/
theorem exported_stored (id : ObjectId) {doc : EventDoc} {receivedAt : Stamp}
    (held : stampOf (toMillis doc.receivedAt) = some receivedAt)
    (read : unescapeKeys (ofJson doc.body) = ofJson (unescaped doc.body)) :
    exported (stored id doc) = some (publicForm id doc receivedAt) := by
  obtain ⟨request, endpoint, eventType, _⟩ := stored_fields id doc
  have receivedField : (stored id doc).fields.get (lit "received_at") =
      some (.date (toMillis doc.receivedAt)) := rfl
  have processing : (stored id doc).fields.get (lit "processing") = some (ofJson (.obj [
      (lit "status", .str (lit "received")), (lit "response_status", .int 202)])) := rfl
  have metadata : (stored id doc).fields.get (lit "metadata") = some (.doc [
      (lit "source_ip", .ofOption .str doc.sourceIp),
      (lit "user_agent", .ofOption .str doc.userAgent)]) := rfl
  have body : (requestFields doc).get (lit "body") = some (ofJson doc.body) := rfl
  have sameId : (stored id doc).id = id := rfl
  have name : Dict.get [(lit "id", Bson.objectId doc.endpointId),
      (lit "name", .str doc.endpointName)] (lit "name") = some (.str doc.endpointName) := rfl
  have replaced : Bson.doc ((requestFields doc).set (lit "body") (ofJson (unescaped doc.body))) =
      ofJson (requestForm doc) := by
    have set : (requestFields doc).set (lit "body") (ofJson (unescaped doc.body)) =
        [(lit "method", .str doc.method), (lit "headers", ofPairs doc.headers),
          (lit "query", ofPairs doc.query), (lit "body", ofJson (unescaped doc.body)),
          (lit "raw_body", .str doc.rawBody),
          (lit "raw_encoding", .str (encodingName doc.rawEncoding)),
          (lit "content_type", .str doc.contentType), (lit "body_size", .int doc.bodySize)] := rfl
    rw [set, ofPairs_eq, ofPairs_eq, requestForm]
    simp only [ofJson, ofMembers]
  have form : publicOf (stored id doc) = some (.doc [
      (lit "id", .str id.text), (lit "received_at", .date (toMillis doc.receivedAt)),
      (lit "endpoint", .str doc.endpointName), (lit "event_type", ofJson (optionForm doc.eventType)),
      (lit "request", ofJson (requestForm doc)),
      (lit "processing", ofJson (.obj [
        (lit "status", .str (lit "received")), (lit "response_status", .int 202)])),
      (lit "metadata", .doc [
        (lit "source_ip", ofJson (optionForm doc.sourceIp)),
        (lit "user_agent", ofJson (optionForm doc.userAgent))])]) := by
    simp only [publicOf, sameId, request, endpoint, mapping, receivedField, eventType, processing, metadata,
      body, name, Option.bind_eq_bind, Option.bind_some, Option.getD_some, read, replaced,
      ofOption_eq, Option.pure_def]
  rw [exported, form, Option.bind_some]
  simp only [encoded, encodedFields, encoded_ofJson, held, Option.map_some, Option.bind_eq_bind,
    Option.bind_some, Option.pure_def, publicForm]

/-! ## What the public form holds -/

/-- Unescaping keys leaves the numbers. -/
theorem finite_unescaped (value : Json) : Finite (unescaped value) ↔ Finite value := by
  induction value using Json.inductionOn with
  | null => exact Iff.rfl
  | bool value => exact Iff.rfl
  | int value => exact Iff.rfl
  | float value => exact Iff.rfl
  | str value => exact Iff.rfl
  | arr items inductionHypothesis =>
    rw [unescaped, unescapedItems_eq_map, finite_arr, finite_arr, List.forall_mem_map]
    exact forall₂_congr inductionHypothesis
  | obj members inductionHypothesis =>
    rw [unescaped, unescapedMembers_eq_map, finite_obj, finite_obj, List.forall_mem_map]
    exact forall₂_congr inductionHypothesis

/-- Unescaping keys leaves the nesting. -/
theorem depth_unescaped (value : Json) : depth (unescaped value) = depth value := by
  induction value using Json.inductionOn with
  | null => rfl
  | bool value => rfl
  | int value => rfl
  | float value => rfl
  | str value => rfl
  | arr items inductionHypothesis =>
    rw [unescaped, depth, depth]
    congr 1
    induction items with
    | nil => rfl
    | cons item rest restHypothesis =>
      rw [unescapedItems, depthItems, depthItems, inductionHypothesis item List.mem_cons_self,
        restHypothesis (fun other member => inductionHypothesis other
          (List.mem_cons_of_mem _ member))]
  | obj members inductionHypothesis =>
    rw [unescaped, depth, depth]
    congr 1
    induction members with
    | nil => rfl
    | cons member rest restHypothesis =>
      obtain ⟨key, value⟩ := member
      rw [unescapedMembers, depthMembers, depthMembers,
        inductionHypothesis (key, value) List.mem_cons_self,
        restHypothesis (fun other inside => inductionHypothesis other
          (List.mem_cons_of_mem _ inside))]

/-- An integer of 64 bits is not too long to be read. -/
theorem short_of_fits {value : Int} (fits : Bson.fitsInt64 value = true) :
    (Text.ofInt value.natAbs).length ≤ maxStrDigits := by
  have range := of_decide_eq_true fits
  have small : value.natAbs < 10 ^ 19 := by omega
  have few : (Text.ofInt value.natAbs).length ≤ 19 := Text.ofInt_length_le (by decide) small
  exact few.trans (by decide)

/-- A stored value is read from its text. -/
theorem faithful_unescaped {value : Json} (sound : Admissible value)
    (distinct : (unescaped value).distinct = true) : Faithful (unescaped value) := by
  induction value using Json.inductionOn with
  | null => rfl
  | bool value => rfl
  | int value => exact decide_eq_true (short_of_fits sound)
  | float value => rfl
  | str value => exact decide_eq_true ((Bson.storable_str value).mp sound)
  | arr items inductionHypothesis =>
    rw [admissible_arr] at sound
    rw [unescaped, unescapedItems_eq_map] at distinct ⊢
    rw [Json.distinct, Json.everywhere_arr, List.forall_mem_map] at distinct
    rw [faithful_arr, List.forall_mem_map]
    exact fun item stored => inductionHypothesis item stored (sound item stored)
      (distinct item stored)
  | obj members inductionHypothesis =>
    rw [admissible_obj] at sound
    rw [unescaped, unescapedMembers_eq_map] at distinct ⊢
    rw [Json.distinct, Json.everywhere_obj, decide_eq_true_eq, List.forall_mem_map] at distinct
    rw [faithful_obj, List.forall_mem_map]
    refine ⟨distinct.1, fun member stored => ⟨?_, inductionHypothesis member stored
      (sound member stored).2 (distinct.2 member stored)⟩⟩
    exact unescapeKey_scalar (fun point inKey =>
      ((Bson.nameable_iff _).mp (sound member stored).1 point inKey).1)

section
variable (id : ObjectId) (doc : EventDoc) (receivedAt : Stamp)

theorem finite_pairsForm (pairs : Dict Str Str) : Finite (pairsForm pairs) := by
  rw [pairsForm, finite_obj, List.forall_mem_map]
  exact fun pair _ => rfl

theorem finite_optionForm (text : Option Str) : Finite (optionForm text) := by
  cases text <;> rfl

/-- The numbers of the public form are finite if those of the body are. -/
theorem finite_publicForm : Finite (publicForm id doc receivedAt) ↔ Finite doc.body := by
  have text : ∀ value : Str, Finite (.str value) := fun value => rfl
  have number : ∀ value : Int, Finite (.int value) := fun value => rfl
  simp only [publicForm, requestForm, finite_obj, List.forall_mem_cons, List.not_mem_nil,
    false_imp_iff, implies_true, and_true, true_and, text, number, finite_pairsForm,
    finite_optionForm, finite_unescaped]

theorem depth_pairsForm (pairs : Dict Str Str) : depth (pairsForm pairs) ≤ 1 := by
  have flat : depthMembers (pairs.map (fun pair => (pair.1, Json.str pair.2))) = 0 := by
    induction pairs with
    | nil => rfl
    | cons pair rest inductionHypothesis =>
      rw [List.map_cons, depthMembers, inductionHypothesis]
      rfl
  rw [pairsForm, depth, flat]

theorem depth_optionForm (text : Option Str) : depth (optionForm text) = 0 := by
  cases text <;> rfl

/-- The public form has three more containers around the body at most. -/
theorem depth_publicForm : depth (publicForm id doc receivedAt) ≤ depth doc.body + 3 := by
  have headers := depth_pairsForm doc.headers
  have query := depth_pairsForm doc.query
  simp only [publicForm, requestForm, depth, depthMembers, depth_unescaped, depth_optionForm]
  omega

theorem faithful_pairsForm {pairs : Dict Str Str} (distinct : (pairs.map Prod.fst).Nodup)
    (storable : (ofPairs pairs).storable = true) : Faithful (pairsForm pairs) := by
  rw [ofPairs_storable] at storable
  rw [pairsForm, faithful_obj, List.map_map, List.forall_mem_map]
  refine ⟨distinct, fun pair stored => ⟨?_, decide_eq_true (storable pair stored).2⟩⟩
  exact fun point inKey => ((Bson.nameable_iff _).mp (storable pair stored).1 point inKey).1

theorem faithful_optionForm {text : Option Str} (scalar : ∀ value ∈ text, Text.Scalar value) :
    Faithful (optionForm text) := by
  cases text with
  | none => rfl
  | some text => exact decide_eq_true (scalar text rfl)

/-- The request of an event that is stored is read from its text. -/
theorem faithful_requestForm (storable : doc.toBson.storable = true)
    (headers : (doc.headers.map Prod.fst).Nodup) (query : (doc.query.map Prod.fst).Nodup)
    (body : (unescaped doc.body).distinct = true) : Faithful (requestForm doc) := by
  obtain ⟨⟨_, method, raw, content, _, _, size⟩, ⟨headersHeld, queryHeld⟩, sound, _, _⟩ :=
    (toBson_storable doc).mp storable
  have keys : [lit "method", lit "headers", lit "query", lit "body", lit "raw_body",
      lit "raw_encoding", lit "content_type", lit "body_size"].Nodup := by decide +kernel
  rw [requestForm, faithful_obj]
  refine ⟨keys, ?_⟩
  simp only [List.forall_mem_cons, List.not_mem_nil, false_imp_iff, implies_true, and_true,
    Text.scalar_lit, true_and, faithful_str, faithful_int]
  exact ⟨method, faithful_pairsForm headers headersHeld, faithful_pairsForm query queryHeld,
    faithful_unescaped sound body, raw, encodingName_scalar _, content, short_of_fits size⟩

/-- So is its public form. -/
theorem faithful_publicForm (storable : doc.toBson.storable = true)
    (headers : (doc.headers.map Prod.fst).Nodup) (query : (doc.query.map Prod.fst).Nodup)
    (body : (unescaped doc.body).distinct = true) : Faithful (publicForm id doc receivedAt) := by
  obtain ⟨⟨name, _, _, _, peer, agent, _⟩, _, _, type, _⟩ := (toBson_storable doc).mp storable
  have statusForm : Faithful (.obj [
      (lit "status", .str (lit "received")), (lit "response_status", .int 202)]) := by
    decide +kernel
  have metadata : Faithful (.obj [
      (lit "source_ip", optionForm doc.sourceIp), (lit "user_agent", optionForm doc.userAgent)]) := by
    have keys : [lit "source_ip", lit "user_agent"].Nodup := by decide +kernel
    rw [faithful_obj]
    refine ⟨keys, ?_⟩
    simp only [List.forall_mem_cons, List.not_mem_nil, false_imp_iff, implies_true, and_true,
      Text.scalar_lit, true_and]
    exact ⟨faithful_optionForm peer, faithful_optionForm agent⟩
  have keys : [lit "id", lit "received_at", lit "endpoint", lit "event_type", lit "request",
      lit "processing", lit "metadata"].Nodup := by decide +kernel
  rw [publicForm, faithful_obj]
  refine ⟨keys, ?_⟩
  simp only [List.forall_mem_cons, List.not_mem_nil, false_imp_iff, implies_true, and_true,
    Text.scalar_lit, true_and, faithful_str]
  exact ⟨id.text_scalar, isoformat_scalar receivedAt, name, faithful_optionForm type,
    faithful_requestForm doc storable headers query body, statusForm, metadata⟩

end

/-! ## The streams of rows -/

/-- A loop that ends has a result for each item. -/
theorem mapM_iff {α β : Type} (form : α → Option β) {items : List α} {results : List β} :
    items.mapM form = some results ↔
      List.Forall₂ (fun item result => form item = some result) items results := by
  induction items generalizing results with
  | nil =>
    constructor
    · intro done
      obtain rfl : [] = results := Option.some.inj done
      exact .nil
    · rintro ⟨⟩
      rfl
  | cons item rest inductionHypothesis =>
    rw [List.mapM_cons, Option.bind_eq_bind, Option.bind_eq_some_iff]
    constructor
    · rintro ⟨result, first, others⟩
      rw [Option.bind_eq_bind, Option.bind_eq_some_iff] at others
      obtain ⟨later, tail, same⟩ := others
      obtain rfl : result :: later = results := Option.some.inj same
      exact .cons first (inductionHypothesis.mp tail)
    · rintro (_ | ⟨first, others⟩)
      exact ⟨_, first, by rw [inductionHypothesis.mpr others]; rfl⟩

section
variable (floatText : PyFloat → Str) {rows : List Stored} {values : List Json}

/-- Rows that have public forms are written one a line. -/
theorem streamJsonl_some (forms : rows.mapM exported = some values) :
    streamJsonl floatText rows = some ((values.map (dumps floatText)).map (· ++ lit "\n")) := by
  rw [streamJsonl, mapM_iff, List.map_map, List.forall₂_map_right_iff]
  refine ((mapM_iff _).mp forms).imp (fun row value form => ?_)
  rw [line, form]
  rfl

/-- They are joined by commas in the array. -/
theorem jsonChunks_some (forms : rows.mapM exported = some values) (first : Bool) :
    ∃ chunks, jsonChunks floatText first rows = some chunks ∧
      chunks.flatten = (if first ∨ values = [] then [] else lit ",\n") ++
        List.intercalate (lit ",\n") (values.map (dumps floatText)) := by
  induction (mapM_iff _).mp forms generalizing first with
  | nil => exact ⟨[], rfl, by simp⟩
  | @cons row value rest later form others inductionHypothesis =>
    obtain ⟨chunks, tail, flat⟩ := inductionHypothesis ((mapM_iff _).mpr others) false
    refine ⟨((if first then [] else lit ",\n") ++ dumps floatText value) :: chunks, ?_, ?_⟩
    · rw [jsonChunks, line, form, tail]
      rfl
    · rw [List.flatten_cons, flat]
      cases later with
      | nil => cases first <;> simp
      | cons next others => cases first <;> simp [List.intercalate_cons_cons]

/-- The array as a whole. -/
theorem streamJson_some (forms : rows.mapM exported = some values) :
    ∃ chunks, streamJson floatText rows = some chunks ∧
      chunks.flatten = ([0x5B] ++ ([0x0A] ++ List.intercalate [0x2C, 0x0A]
        (values.map (dumps floatText)) ++ [0x0A]) ++ [0x5D]) ++ [0x0A] := by
  obtain ⟨chunks, written, flat⟩ := jsonChunks_some floatText forms true
  have opening : lit "[\n" = [0x5B, 0x0A] := by decide +kernel
  have closing : lit "\n]\n" = [0x0A, 0x5D, 0x0A] := by decide +kernel
  have comma : lit ",\n" = [0x2C, 0x0A] := by decide +kernel
  refine ⟨_, by rw [streamJson, written]; rfl, ?_⟩
  simp [flat, opening, closing, comma]

end

/-! ## Exports -/

section
variable {floatText : PyFloat → Str} {reader : Reader} {rows : List Stored} {values : List Json}
  (repr : Repr floatText)

include repr

/-- Rows with finite and faithful public forms are exported as standard JSON, and are read as
these forms. -/
theorem agree_of_finite (rereads : Rereads reader floatText)
    (forms : rows.mapM exported = some values)
    (objects : ∀ value ∈ values, ∃ members, value = .obj members)
    (finite : ∀ value ∈ values, Finite value) (faithful : ∀ value ∈ values, Faithful value)
    (shallow : ∀ value ∈ values, depth value < reader.recursionLimit)
    (admitted : 0 < reader.recursionLimit) :
    ∃ chunks elements lines, Agree reader floatText rows values chunks elements lines := by
  obtain ⟨chunks, array, flat⟩ := streamJson_some floatText forms
  have feed : Blank [0x0A] := by decide
  have none : Blank [] := List.forall_mem_nil _
  have valid : ∀ text ∈ values.map (dumps floatText), Valid .value text :=
    List.forall_mem_map.mpr (fun value member => valid_dumps repr (finite value member))
  have reads : ∀ value ∈ values, Json.parse reader (dumps floatText value) = .ok value :=
    fun value member => parse_dumps repr rereads (finite value member) (faithful value member)
      (shallow value member).le
  have decoded : (values.map (dumps floatText)).map (Json.parse reader) = values.map .ok := by
    rw [List.map_map]
    exact List.map_congr_left reads
  refine ⟨chunks, values.map (dumps floatText), values.map (dumps floatText), ?_⟩
  constructor
  · exact forms
  · exact array
  · refine ⟨[], _, [0x0A], none, feed, by rw [flat, List.nil_append], ?_⟩
    by_cases empty : values = []
    · left
      rw [empty, List.map_nil]
      exact ⟨rfl, by decide⟩
    · right
      exact elements_joined feed feed feed valid (by simpa using empty)
  · rw [List.length_map]
    exact ((mapM_iff _).mp forms).length_eq.symm
  · obtain ⟨limit, same⟩ : ∃ limit, reader.recursionLimit = limit + 1 :=
      ⟨reader.recursionLimit - 1, by omega⟩
    have each : List.Forall₂ (Reads reader limit) (values.map (dumps floatText)) values := by
      rw [List.forall₂_map_left_iff, List.forall₂_same]
      intro value member
      have inner := shallow value member
      exact reads_dumps repr rereads (finite value member) (faithful value member) (by omega)
    have items := reads_array feed feed feed each
    rw [← same] at items
    rw [flat]
    exact items.parse feed
  · exact decoded
  · exact streamJsonl_some floatText forms
  · rw [List.forall_mem_map]
    intro value member
    obtain ⟨members, rfl⟩ := objects value member
    refine ⟨fun feed => ?_, (valid _ (List.mem_map_of_mem member)).isObject rfl⟩
    exact absurd (dumps_line repr _ _ feed) (by decide)
  · exact decoded

/-- Rows that are exported as standard JSON have finite public forms. -/
theorem finite_of_agree {chunks elements lines : List Str}
    (agree : Agree reader floatText rows values chunks elements lines) :
    ∀ value ∈ values, Finite value := by
  have same : values.map (dumps floatText) = lines := by
    have written := agree.objects
    rw [streamJsonl_some floatText agree.forms, Option.some.injEq] at written
    exact List.map_injective_iff.mpr (List.append_left_injective _) written
  intro value member
  obtain ⟨_, members, object⟩ := agree.validLines (dumps floatText value)
    (same ▸ List.mem_map_of_mem member)
  by_contra infinite
  exact ((dumps_closed repr value).2 infinite).not_sober object.sober

end

/-! ## Events that were received -/

/-- The event can have been stored by `receive`. -/
def Kept (world : Environment) (doc : EventDoc) : Prop :=
  Storable doc ∧ ∃ settings endpoints request now, minInstant ≤ now ∧ now ≤ maxInstant ∧
    receive world settings endpoints request now = .inserted doc

/-- A `datetime` is read as one when its fraction of a millisecond is gone. -/
theorem stampOf_toMillis {now : Instant} (least : minInstant ≤ now) (most : now ≤ maxInstant) :
    ∃ receivedAt, stampOf (toMillis now) = some receivedAt := by
  have rounded : ∀ value : Int, -62135596800000000 ≤ value → value ≤ 253402300799999999 →
      -62135596800000000 ≤ value / 1000 * 1000 ∧ value / 1000 * 1000 ≤ 253402300799999999 := by
    intro value least most
    omega
  have inRange : minInstant ≤ toMillis now * 1000 ∧ toMillis now * 1000 ≤ maxInstant :=
    rounded now least most
  exact ⟨⟨toMillis now, inRange.1, inRange.2⟩, dif_pos inRange⟩

/-- An event that was stored has a public form, which is read from its text. -/
theorem exported_kept {world : Environment} {doc : EventDoc} (id : ObjectId)
    (kept : Kept world doc) :
    ∃ receivedAt, exported (stored id doc) = some (publicForm id doc receivedAt) ∧
      Faithful (publicForm id doc receivedAt) := by
  obtain ⟨⟨storable, _, _, plain⟩, settings, endpoints, request, now, least, most, accepted⟩ := kept
  obtain ⟨endpoint, _, _, _, _, inserted⟩ := receive_inserted accepted
  obtain ⟨body, name, expiry, _, _, same⟩ := store_inserted inserted
  have headers : doc.headers = request.headerDict := by rw [same]
  have query : doc.query = request.queryDict := by rw [same]
  have escaped : doc.body = escapeKeys body := by rw [same]
  have time : doc.receivedAt = now := by rw [same]
  obtain ⟨receivedAt, held⟩ := stampOf_toMillis least most
  have distinct : doc.body.distinct = true := escaped ▸ escapeKeys_distinct body
  obtain ⟨read, unescapedDistinct⟩ := unescapeKeys_ofJson distinct plain
  refine ⟨receivedAt, exported_stored id (time ▸ held) read, ?_⟩
  refine faithful_publicForm id doc receivedAt storable ?_ ?_ unescapedDistinct
  · rw [headers]
    exact Dict.nodup_keys_ofPairs _
  · rw [query]
    exact Dict.nodup_keys_ofPairs _

/-- The rows of a collection of events. -/
def rowsOf (events : List (ObjectId × EventDoc)) : List Stored :=
  events.map (fun event => stored event.1 event.2)

/-- Events that were stored have public forms, one each. -/
theorem forms_kept {world : Environment} {events : List (ObjectId × EventDoc)}
    (kept : ∀ event ∈ events, Kept world event.2) :
    ∃ values, (rowsOf events).mapM exported = some values ∧
      List.Forall₂ (fun event value => ∃ receivedAt, value = publicForm event.1 event.2 receivedAt ∧
        Faithful value) events values := by
  induction events with
  | nil => exact ⟨[], rfl, .nil⟩
  | cons event rest inductionHypothesis =>
    obtain ⟨values, forms, each⟩ := inductionHypothesis
      (fun other member => kept other (List.mem_cons_of_mem _ member))
    obtain ⟨receivedAt, form, faithful⟩ := exported_kept event.1 (kept event List.mem_cons_self)
    refine ⟨publicForm event.1 event.2 receivedAt :: values, ?_, .cons ⟨_, rfl, faithful⟩ each⟩
    rw [rowsOf] at forms
    rw [rowsOf, List.map_cons, List.mapM_cons, form, forms]
    rfl

/-- What holds of each item carries over to the results. -/
theorem forall_carried {α β : Type} {relation : α → β → Prop} {items : List α} {results : List β}
    (each : List.Forall₂ relation items results) {before : α → Prop} {after : β → Prop}
    (carry : ∀ item result, relation item result → before item → after result)
    (holds : ∀ item ∈ items, before item) : ∀ result ∈ results, after result := by
  induction each with
  | nil => exact List.forall_mem_nil _
  | cons related _ inductionHypothesis =>
    rw [List.forall_mem_cons] at holds ⊢
    exact ⟨carry _ _ related holds.1, inductionHypothesis holds.2⟩

/-- Events whose exports are standard JSON have bodies with finite numbers. -/
theorem bodies_finite {world : Environment} {reader : Reader} (repr : Repr world.floatText)
    {events : List (ObjectId × EventDoc)} (kept : ∀ event ∈ events, Kept world event.2)
    {values : List Json} {chunks elements lines : List Str}
    (agree : Agree reader world.floatText (rowsOf events) values chunks elements lines) :
    ∀ event ∈ events, Finite event.2.body := by
  obtain ⟨known, forms, each⟩ := forms_kept kept
  obtain rfl : known = values := Option.some.inj (forms.symm.trans agree.forms)
  refine forall_carried each.flip ?_ (finite_of_agree repr agree)
  rintro value event ⟨receivedAt, rfl, _⟩ finite
  exact (finite_publicForm event.1 event.2 receivedAt).mp finite

/-- The exports of stored events are standard JSON, and agree, exactly if the numbers of the
bodies are finite. The reader has room for the nesting. -/
theorem exports_agree_iff {world : Environment} {reader : Reader} (repr : Repr world.floatText)
    (rereads : Rereads reader world.floatText) {events : List (ObjectId × EventDoc)}
    (kept : ∀ event ∈ events, Kept world event.2) (admitted : 0 < reader.recursionLimit)
    (roomy : ∀ event ∈ events, depth event.2.body + 4 ≤ reader.recursionLimit) :
    (∃ values chunks elements lines,
      Agree reader world.floatText (rowsOf events) values chunks elements lines) ↔
      ∀ event ∈ events, Finite event.2.body := by
  constructor
  · rintro ⟨values, chunks, elements, lines, agree⟩
    exact bodies_finite repr kept agree
  · intro finite
    obtain ⟨values, forms, each⟩ := forms_kept kept
    refine ⟨values, agree_of_finite repr rereads forms ?_ ?_ ?_ ?_ admitted⟩
    · refine forall_carried each ?_ kept
      rintro event value ⟨receivedAt, rfl, _⟩ _
      exact ⟨_, rfl⟩
    · refine forall_carried each ?_ finite
      rintro event value ⟨receivedAt, rfl, _⟩ ofBody
      exact (finite_publicForm event.1 event.2 receivedAt).mpr ofBody
    · refine forall_carried each ?_ kept
      rintro event value ⟨receivedAt, rfl, faithful⟩ _
      exact faithful
    · refine forall_carried each ?_ roomy
      rintro event value ⟨receivedAt, rfl, _⟩ room
      have nested := depth_publicForm event.1 event.2 receivedAt
      omega

/-- `0.5` -/
def half : PyFloat := ⟨0x3FE0000000000000⟩

/-- Texts of numbers that are right for `0.5` and different for all numbers. -/
def sampleText (value : PyFloat) : Str :=
  if value = half then lit "0.5" else Text.ofInt value.bits.toNat ++ lit ".0"

/-- The reader of these texts. -/
def sampleReader : Reader where
  floatOfText text :=
    if text = lit "0.5" then half
    else ⟨BitVec.ofInt 64 (Text.digitsValue (text.takeWhile Text.isAsciiDigit))⟩
  recursionLimit := 1000

theorem repr_sampleText : Repr sampleText := by
  intro value _
  have point : lit ".0" = 0x2E :: [0x30] := by decide +kernel
  have digit : ∀ only : CodePoint, isDigit only = true → Digits [only] :=
    fun only isDigit => ⟨List.cons_ne_nil _ _, by rw [List.all_cons, isDigit]; rfl⟩
  by_cases same : value = half
  · refine ⟨⟨false, [0x30], [0x2E, 0x35], []⟩, ⟨.inl rfl, .inr ⟨[0x35], digit 0x35 (by decide), rfl⟩, .inl rfl⟩,
      .inl (List.cons_ne_nil _ _), ?_⟩
    rw [sampleText, if_pos same]
    decide +kernel
  · refine ⟨{ numberOf value.bits.toNat with fraction := [0x2E, 0x30] },
      ⟨(written_numberOf _).whole, .inr ⟨[0x30], digit 0x30 (by decide), rfl⟩, .inl rfl⟩,
      .inl (List.cons_ne_nil _ _), ?_⟩
    rw [sampleText, if_neg same, point, ofInt_text]
    simp [Number.text, numberOf]

theorem rereads_sampleText : Rereads sampleReader sampleText := by
  intro value _
  by_cases same : value = half
  · rw [sampleText, if_pos same, same]
    rfl
  · have other : Text.ofInt value.bits.toNat ++ lit ".0" ≠ lit "0.5" := by
      intro equal
      have ends := congrArg List.getLast? equal
      rw [List.getLast?_append_of_ne_nil _ (by decide +kernel)] at ends
      revert ends
      decide +kernel
    have digits : ∀ digit ∈ Text.ofInt value.bits.toNat, Text.isAsciiDigit digit = true :=
      List.all_eq_true.mp (Text.ofInt_digits _)
    have whole : (Text.ofInt value.bits.toNat ++ lit ".0").takeWhile Text.isAsciiDigit =
        Text.ofInt value.bits.toNat := by
      have stop : (lit ".0").takeWhile Text.isAsciiDigit = [] := by decide +kernel
      rw [List.takeWhile_append_of_pos digits, stop, List.append_nil]
    rw [sampleText, if_neg same, sampleReader]
    simp only [if_neg other, whole, Text.digitsValue_ofInt, BitVec.ofInt_natCast, BitVec.ofNat_toNat,
      BitVec.setWidth_eq]

theorem sampleText_ascii (value : PyFloat) : Text.Ascii (sampleText value) := by
  rw [sampleText]
  split
  · decide +kernel
  · have fraction : Text.Ascii (lit ".0") := by decide +kernel
    intro point member
    rcases List.mem_append.mp member with whole | inFraction
    · have digit := of_decide_eq_true (List.all_eq_true.mp (Text.ofInt_digits _) point whole)
      omega
    · exact fraction point inFraction

/-- An environment with these numbers and no limits on the rate. -/
def sampleWorld : Environment where
  runtime := ⟨Casing.ascii, sampleReader⟩
  numerals := Numerals.ascii
  floatText := sampleText
  floatText_ascii := sampleText_ascii
  hexDigest _ _ := []
  limiter _ := none

/-- A delivery of a number with a fraction, and of a key with a full stop. -/
def ratio : Request := delivery (asciiBytes "\x7b\"a.b\":[0.5]\x7d") (by decide +kernel)

/-- A delivery of the word `NaN`. -/
def notANumber : Request := delivery (asciiBytes "[NaN]") (by decide +kernel)

/-- What a delivery comes to there. -/
def sampled (request : Request) : Outcome := receive sampleWorld {} githubEndpoints request 0

def ratioDoc : EventDoc := (sampled ratio).doc.get (by decide +kernel)

def notANumberDoc : EventDoc := (sampled notANumber).doc.get (by decide +kernel)

/-- What is stored there is an event. -/
theorem kept_sampled {request : Request} {doc : EventDoc} (held : (sampled request).doc = some doc)
    (storable : Storable doc) : Kept sampleWorld doc :=
  ⟨storable, {}, githubEndpoints, request, 0, by decide, by decide, Outcome.inserted_of_doc held⟩

/-- The number with a fraction is exported, twice in one array. -/
theorem exports_agree_ratio :
    ∃ values chunks elements lines, Agree sampleReader sampleText
      (rowsOf [(⟨1⟩, ratioDoc), (⟨2⟩, ratioDoc)]) values chunks elements lines := by
  have one : Kept sampleWorld ratioDoc :=
    kept_sampled (Option.some_get _).symm (by decide +kernel)
  have finite : Finite ratioDoc.body := by decide +kernel
  have nested : depth ratioDoc.body + 4 ≤ sampleReader.recursionLimit := by decide +kernel
  have kept : ∀ event ∈ [((⟨1⟩ : ObjectId), ratioDoc), (⟨2⟩, ratioDoc)],
      Kept sampleWorld event.2 := by
    simpa using one
  have roomy : ∀ event ∈ [((⟨1⟩ : ObjectId), ratioDoc), (⟨2⟩, ratioDoc)],
      depth event.2.body + 4 ≤ sampleReader.recursionLimit := by
    simpa using nested
  have exact : Repr sampleWorld.floatText := repr_sampleText
  refine (exports_agree_iff exact rereads_sampleText kept (by decide) roomy).mpr ?_
  simpa using finite

/-- The word is stored, and its export is no standard JSON. -/
theorem exports_disagree :
    ¬ ∀ (world : Environment) (reader : Reader), Repr world.floatText →
      Rereads reader world.floatText → ∀ events : List (ObjectId × EventDoc),
      (∀ event ∈ events, Kept world event.2) → 0 < reader.recursionLimit →
      (∀ event ∈ events, depth event.2.body + 4 ≤ reader.recursionLimit) →
      ∃ values chunks elements lines,
        Agree reader world.floatText (rowsOf events) values chunks elements lines := by
  intro claimed
  have kept : ∀ event ∈ [((⟨1⟩ : ObjectId), notANumberDoc)], Kept sampleWorld event.2 := by
    have one : Kept sampleWorld notANumberDoc :=
      kept_sampled (Option.some_get _).symm (by decide +kernel)
    simpa using one
  have nested : depth notANumberDoc.body + 4 ≤ sampleReader.recursionLimit := by decide +kernel
  obtain ⟨values, chunks, elements, lines, agree⟩ := claimed sampleWorld sampleReader
    repr_sampleText rereads_sampleText _ kept (by decide) (by simpa using nested)
  have finite := bodies_finite repr_sampleText kept agree _ List.mem_cons_self
  revert finite
  decide +kernel

end WebhookInbox.Export
