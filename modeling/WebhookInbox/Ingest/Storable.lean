import WebhookInbox.Ingest.Receiver

/-!
# What can be stored

An event document can be stored if the driver can write it and no field name that the
request brought contains a NUL or a full stop or starts with a dollar sign.

`storable_iff` reads this off the parts of the document; `receive_storable` says for
which requests it holds. Keys of the body are escaped; those of the headers and of the
query are not. Escaping may give two keys of an object one name, and then the value of
the first is not stored, although it was searched for terms.
-/

namespace WebhookInbox.Receiver

open Library Calendar WebhookInbox.Endpoint WebhookInbox.Parser WebhookInbox.Tokenize

/-- A name without NUL and full stop that does not start with a dollar sign. -/
def plain (name : Str) : Bool :=
  name.all (fun point => decide (point.val ≠ 0 ∧ point.val ≠ 0x2E)) &&
    decide (name.head? ≠ some 0x24)

mutual

/-- Every field name at every depth is plain. -/
def plainNames : Bson → Bool
  | .arr items => plainItems items
  | .doc fields => plainFields fields
  | .null => true
  | .bool _ => true
  | .int _ => true
  | .double _ => true
  | .str _ => true
  | .date _ => true
  | .objectId _ => true

def plainItems : List Bson → Bool
  | [] => true
  | item :: rest => plainNames item && plainItems rest

def plainFields : List (Str × Bson) → Bool
  | [] => true
  | (key, value) :: rest => plain key && plainNames value && plainFields rest

end

/-- The driver can write the document, and the names from the request are plain. -/
def Storable (doc : EventDoc) : Prop :=
  doc.toBson.storable = true ∧ plainNames (ofPairs doc.headers) = true ∧
    plainNames (ofPairs doc.query) = true ∧ plainNames (ofJson doc.body) = true

instance storableDecidable (doc : EventDoc) : Decidable (Storable doc) :=
  inferInstanceAs (Decidable (_ ∧ _ ∧ _ ∧ _))

/-- The driver can write a parsed value: its integers have 64 bits, and its texts and
keys have no lone surrogate, nor its keys a NUL. -/
def Admissible (value : Json) : Prop := (ofJson value).storable = true

instance admissibleDecidable (value : Json) : Decidable (Admissible value) :=
  inferInstanceAs (Decidable (_ = true))

mutual

/-- Escaping gives no two keys of an object one name. -/
def separate : Json → Bool
  | .obj members => decide ((members.map (fun member => escapeKey member.1)).Nodup) &&
      separateMembers members
  | .arr items => separateItems items
  | .null => true
  | .bool _ => true
  | .int _ => true
  | .float _ => true
  | .str _ => true

def separateItems : List Json → Bool
  | [] => true
  | item :: rest => separate item && separateItems rest

def separateMembers : List (Str × Json) → Bool
  | [] => true
  | (_, value) :: rest => separate value && separateMembers rest

end

/-! ## Documents from values -/

/-- The items of an array. -/
theorem ofItems_eq_map (items : List Json) : ofItems items = items.map ofJson := by
  induction items with
  | nil => rfl
  | cons item rest inductionHypothesis => simp [ofItems, inductionHypothesis]

/-- The members of an object. -/
theorem ofMembers_eq_map (members : List (Str × Json)) :
    ofMembers members = members.map (fun member => (member.1, ofJson member.2)) := by
  induction members with
  | nil => rfl
  | cons member rest inductionHypothesis => simp [ofMembers, inductionHypothesis]

/-- Names of an array are plain if those of each item are. -/
theorem plainItems_iff (items : List Bson) :
    plainItems items = true ↔ ∀ item ∈ items, plainNames item = true := by
  induction items with
  | nil => simp [plainItems]
  | cons item rest inductionHypothesis => simp [plainItems, inductionHypothesis]

/-- Names of a document are plain if each field's is and those of its value are. -/
theorem plainFields_iff (fields : List (Str × Bson)) :
    plainFields fields = true ↔
      ∀ field ∈ fields, plain field.1 = true ∧ plainNames field.2 = true := by
  induction fields with
  | nil => simp [plainFields]
  | cons field rest inductionHypothesis => simp [plainFields, inductionHypothesis, and_assoc]

/-- An array is admissible if each item is. -/
theorem admissible_arr (items : List Json) :
    Admissible (.arr items) ↔ ∀ item ∈ items, Admissible item := by
  simp [Admissible, ofJson, Bson.storable, Bson.storableItems_iff, ofItems_eq_map]

/-- An object is admissible if each key can be a name and each value is admissible. -/
theorem admissible_obj (members : List (Str × Json)) :
    Admissible (.obj members) ↔
      ∀ member ∈ members, Bson.nameable member.1 = true ∧ Admissible member.2 := by
  simp only [Admissible, ofJson, Bson.storable, Bson.storableFields_iff, ofMembers_eq_map,
    List.forall_mem_map]

/-! ## Escaping -/

/-- Escaping the members escapes each key and each value. -/
theorem escapeMembers_eq_map (members : List (Str × Json)) :
    escapeMembers members =
      members.map (fun member => (escapeKey member.1, escapeKeys member.2)) := by
  induction members with
  | nil => rfl
  | cons member rest inductionHypothesis => simp [escapeMembers, inductionHypothesis]

/-- Escaping the items escapes each item. -/
theorem escapeItems_eq_map (items : List Json) : escapeItems items = items.map escapeKeys := by
  induction items with
  | nil => rfl
  | cons item rest inductionHypothesis => simp [escapeItems, inductionHypothesis]

/-- A lookalike can stand in a name wherever the character it replaces can. -/
theorem lookalike_allowed (point : CodePoint) :
    ((if point = 0x2E then dot else point).isSurrogate = false ∧
        (if point = 0x2E then dot else point).val ≠ 0) ↔
      point.isSurrogate = false ∧ point.val ≠ 0 := by
  by_cases isDot : point = 0x2E
  · subst isDot
    decide
  · rw [if_neg isDot]

/-- Whether a key can be a name does not depend on escaping it. -/
theorem escapeKey_nameable (key : Str) :
    Bson.nameable (escapeKey key) = true ↔ Bson.nameable key = true := by
  have replaced : Bson.nameable (Text.replaceChar 0x2E dot key) = true ↔
      Bson.nameable key = true := by
    simp only [Bson.nameable_iff, Text.replaceChar, List.forall_mem_map, lookalike_allowed]
  rw [← replaced, escapeKey]
  cases Text.replaceChar 0x2E dot key with
  | nil => exact Iff.rfl
  | cons first rest =>
    by_cases isDollar : first = 0x24
    · subst isDollar
      have allowed : (dollar.isSurrogate = false ∧ dollar.val ≠ 0) ∧
          (0x24 : CodePoint).isSurrogate = false ∧ (0x24 : CodePoint).val ≠ 0 := by decide
      simp only [↓reduceIte, Bson.nameable_iff, List.forall_mem_cons]
      exact ⟨fun both => ⟨allowed.2, both.2⟩, fun both => ⟨allowed.1, both.2⟩⟩
    · simp only [isDollar, ↓reduceIte]

/-- An escaped key that can be a name is plain. -/
theorem escapeKey_plain {key : Str} (named : Bson.nameable (escapeKey key) = true) :
    plain (escapeKey key) = true := by
  have noNul : ∀ point ∈ escapeKey key, point.val ≠ 0 := by
    simp only [Bson.nameable, Bool.and_eq_true, List.all_eq_true, decide_eq_true_eq] at named
    exact named.2
  have noDot : ∀ point ∈ Text.replaceChar 0x2E dot key, point.val ≠ 0x2E := by
    intro point member
    obtain ⟨source, _, rfl⟩ := List.mem_map.mp member
    by_cases isDot : source = 0x2E
    · rw [if_pos isDot]
      decide
    · rw [if_neg isDot]
      exact fun same => isDot (Fin.ext same)
  simp only [plain, Bool.and_eq_true, List.all_eq_true, decide_eq_true_eq]
  unfold escapeKey at noNul ⊢
  cases replaced : Text.replaceChar 0x2E dot key with
  | nil => simp
  | cons first rest =>
    rw [replaced] at noNul noDot
    by_cases isDollar : first = 0x24
    · simp only [isDollar, ↓reduceIte] at noNul ⊢
      have different : dollar ≠ 0x24 := by decide
      refine ⟨fun point member => ⟨noNul point member, ?_⟩, by simpa using different⟩
      rcases List.mem_cons.mp member with rfl | later
      · decide
      · exact noDot point (List.mem_cons_of_mem _ later)
    · simp only [isDollar, ↓reduceIte] at noNul ⊢
      exact ⟨fun point member => ⟨noNul point member, noDot point member⟩, by simpa using isDollar⟩

/-- An escaped key without lookalikes is the key. -/
theorem escapeKey_unchanged {key : Str} (noDot : dot ∉ escapeKey key)
    (noDollar : (escapeKey key).head? ≠ some dollar) : escapeKey key = key := by
  have noChange : escapeKey key = Text.replaceChar 0x2E dot key := by
    unfold escapeKey at noDollar ⊢
    cases replaced : Text.replaceChar 0x2E dot key with
    | nil => rfl
    | cons first rest =>
      have other : first ≠ 0x24 := by
        rintro rfl
        simp [replaced] at noDollar
      exact if_neg other
  rw [noChange] at noDot ⊢
  exact Text.replaceChar_unchanged noDot

/-- Escaping gives the name of a field with the event type to that field only. -/
theorem escapeKey_eventTypeField {key field : Str} (member : field ∈ eventTypeFields) :
    escapeKey key = field ↔ key = field := by
  have plainFields : ∀ field ∈ eventTypeFields,
      escapeKey field = field ∧ dot ∉ field ∧ field.head? ≠ some dollar := by decide
  obtain ⟨same, noDot, noDollar⟩ := plainFields field member
  constructor
  · rintro rfl
    exact (escapeKey_unchanged noDot noDollar).symm
  · rintro rfl
    exact same

/-- An admissible value stays admissible when it is escaped. -/
theorem admissible_escape {value : Json} (sound : Admissible value) :
    Admissible (escapeKeys value) := by
  induction value using Json.inductionOn with
  | null => exact sound
  | bool value => exact sound
  | int value => exact sound
  | float value => exact sound
  | str value => exact sound
  | arr items inductionHypothesis =>
    rw [admissible_arr] at sound
    rw [escapeKeys, escapeItems_eq_map, admissible_arr, List.forall_mem_map]
    intro item stored
    exact inductionHypothesis item stored (sound item stored)
  | obj members inductionHypothesis =>
    rw [admissible_obj] at sound
    rw [escapeKeys, admissible_obj]
    intro member inDict
    have inMembers := Dict.mem_ofPairs inDict
    rw [escapeMembers_eq_map] at inMembers
    obtain ⟨source, stored, rfl⟩ := List.mem_map.mp inMembers
    obtain ⟨named, held⟩ := sound source stored
    exact ⟨(escapeKey_nameable source.1).mpr named, inductionHypothesis source stored held⟩

/-- Items of an array are separate one by one. -/
theorem separateItems_iff (items : List Json) :
    separateItems items = true ↔ ∀ item ∈ items, separate item = true := by
  induction items with
  | nil => simp [separateItems]
  | cons item rest inductionHypothesis => simp [separateItems, inductionHypothesis]

/-- Values of an object are separate one by one. -/
theorem separateMembers_iff (members : List (Str × Json)) :
    separateMembers members = true ↔ ∀ member ∈ members, separate member.2 = true := by
  induction members with
  | nil => simp [separateMembers]
  | cons member rest inductionHypothesis => simp [separateMembers, inductionHypothesis]

/-- Where escaping keeps keys apart, an escaped value is admissible only if the value
is. -/
theorem admissible_of_escape {value : Json} (apart : separate value = true)
    (sound : Admissible (escapeKeys value)) : Admissible value := by
  induction value using Json.inductionOn with
  | null => exact sound
  | bool value => exact sound
  | int value => exact sound
  | float value => exact sound
  | str value => exact sound
  | arr items inductionHypothesis =>
    rw [separate, separateItems_iff] at apart
    rw [escapeKeys, escapeItems_eq_map, admissible_arr, List.forall_mem_map] at sound
    rw [admissible_arr]
    intro item stored
    exact inductionHypothesis item stored (apart item stored) (sound item stored)
  | obj members inductionHypothesis =>
    rw [separate, Bool.and_eq_true, decide_eq_true_eq, separateMembers_iff] at apart
    have distinct : ((escapeMembers members).map Prod.fst).Nodup := by
      rw [escapeMembers_eq_map, List.map_map]
      exact apart.1
    rw [escapeKeys, Dict.ofPairs_of_nodup distinct, admissible_obj, escapeMembers_eq_map,
      List.forall_mem_map] at sound
    rw [admissible_obj]
    intro member stored
    obtain ⟨named, held⟩ := sound member stored
    exact ⟨(escapeKey_nameable member.1).mp named,
      inductionHypothesis member stored (apart.2 member stored) held⟩

/-- The names of an admissible escaped value are plain. -/
theorem plainNames_escape {value : Json} (sound : Admissible (escapeKeys value)) :
    plainNames (ofJson (escapeKeys value)) = true := by
  induction value using Json.inductionOn with
  | null => rfl
  | bool value => rfl
  | int value => rfl
  | float value => rfl
  | str value => rfl
  | arr items inductionHypothesis =>
    rw [escapeKeys, escapeItems_eq_map, admissible_arr, List.forall_mem_map] at sound
    rw [escapeKeys, escapeItems_eq_map, ofJson, plainNames, plainItems_iff, ofItems_eq_map,
      List.map_map, List.forall_mem_map]
    intro item stored
    exact inductionHypothesis item stored (sound item stored)
  | obj members inductionHypothesis =>
    rw [escapeKeys, admissible_obj] at sound
    rw [escapeKeys, ofJson, plainNames, plainFields_iff, ofMembers_eq_map, List.forall_mem_map]
    intro member inDict
    obtain ⟨named, held⟩ := sound member inDict
    have inMembers := Dict.mem_ofPairs inDict
    rw [escapeMembers_eq_map] at inMembers
    obtain ⟨source, stored, rfl⟩ := List.mem_map.mp inMembers
    exact ⟨escapeKey_plain named, inductionHypothesis source stored held⟩

/-! ## The parts of a document -/

/-- A map of texts can be written if each name and each text can. -/
theorem ofPairs_storable (pairs : Dict Str Str) :
    (ofPairs pairs).storable = true ↔
      ∀ pair ∈ pairs, Bson.nameable pair.1 = true ∧ Text.Scalar pair.2 := by
  simp only [ofPairs, Bson.storable, Bson.storableFields_iff, List.forall_mem_map,
    Bson.writable, decide_eq_true_eq]

/-- The names of a map of texts are its keys. -/
theorem ofPairs_plain (pairs : Dict Str Str) :
    plainNames (ofPairs pairs) = true ↔ ∀ key ∈ pairs.map Prod.fst, plain key = true := by
  simp only [ofPairs, plainNames, plainFields_iff, List.forall_mem_map, and_true]

/-- The names of encodings have no lone surrogates. -/
theorem encodingName_scalar (encoding : RawEncoding) : Text.Scalar (encodingName encoding) := by
  cases encoding <;> decide

/-- A document can be written exactly if each part that varies can. -/
theorem toBson_storable (doc : EventDoc) :
    doc.toBson.storable = true ↔
      (Text.Scalar doc.endpointName ∧ Text.Scalar doc.method ∧ Text.Scalar doc.rawBody ∧
        Text.Scalar doc.contentType ∧ (∀ host ∈ doc.sourceIp, Text.Scalar host) ∧
        (∀ agent ∈ doc.userAgent, Text.Scalar agent) ∧
        Bson.fitsInt64 doc.bodySize = true) ∧
      ((ofPairs doc.headers).storable = true ∧ (ofPairs doc.query).storable = true) ∧
      Admissible doc.body ∧ (∀ type ∈ doc.eventType, Text.Scalar type) ∧ doc.search.Scalar := by
  have expiry : Bson.storableFields
      (doc.expiresAt.map (fun expiry => (lit "expires_at", Bson.date (toMillis expiry)))).toList =
        true := by
    cases doc.expiresAt with
    | none => rfl
    | some expiry =>
      have named : Bson.nameable (lit "expires_at") = true := by decide
      simp [Bson.storableFields, Bson.storable, named]
  have encoding := encodingName_scalar doc.rawEncoding
  have status : Text.Scalar (lit "received") ∧ Bson.fitsInt64 202 = true := by decide
  simp (disch := decide) only [EventDoc.toBson, Bson.storable, Bson.storableFields_append, expiry,
    Bson.storableFields_cons, Bson.storableFields_nil, Bson.storable_ofOption,
    Bson.storable_strings, Bson.writable, encoding, status, Admissible, Terms.Scalar,
    decide_eq_true_eq, and_true, true_and]
  constructor
  · rintro ⟨name, type, ⟨method, headers, query, body, raw, content, size⟩, terms, peer, agent⟩
    exact ⟨⟨name, method, raw, content, peer, agent, size⟩, ⟨headers, query⟩, body, type, terms⟩
  · rintro ⟨⟨name, method, raw, content, peer, agent, size⟩, ⟨headers, query⟩, body, type, terms⟩
    exact ⟨name, type, ⟨method, headers, query, body, raw, content, size⟩, terms, peer, agent⟩

/-! ## The request -/

/-- The names that a request brings outside its body are plain. -/
def PlainNames (request : Request) : Prop :=
  (∀ header ∈ request.headers, plain header.1 = true) ∧
    ∀ item ∈ Forms.parseQsl request.queryString, plain item.1 = true

instance plainNamesDecidable (request : Request) : Decidable (PlainNames request) :=
  inferInstanceAs (Decidable (_ ∧ _))

/-- Latin-1 text has no lone surrogate. -/
theorem Latin1.scalar {text : Str} (latin : Latin1 text) : Text.Scalar text :=
  Text.scalar_of_lt (fun point member => Nat.lt_trans (latin point member) (by decide))

/-- A plain name without lone surrogates can be written. -/
theorem nameable_of_plain {name : Str} (isPlain : plain name = true) (scalar : Text.Scalar name) :
    Bson.nameable name = true := by
  simp only [plain, Bool.and_eq_true, List.all_eq_true, decide_eq_true_eq] at isPlain
  rw [Bson.nameable_iff]
  exact fun point member => ⟨scalar point member, (isPlain.1 point member).1⟩

section
variable (request : Request)

/-- The header map holds Latin-1 texts. -/
theorem headerDict_latin1 : ∀ pair ∈ request.headerDict, Latin1 pair.1 ∧ Latin1 pair.2 := by
  intro pair inDict
  obtain ⟨header, stored, rfl⟩ := List.mem_map.mp (Dict.mem_ofPairs inDict)
  refine ⟨(request.headersLatin1 header stored).1, ?_⟩
  cases found : request.header header.1 with
  | none => exact fun _ member => nomatch member
  | some value => exact (request.headersLatin1 _ (Dict.get_mem found)).2

/-- A header that is read from the map is Latin-1. -/
theorem headerDict_get_latin1 {name value : Str} (found : request.headerDict.get name = some value) :
    Latin1 value :=
  (headerDict_latin1 request _ (Dict.get_mem found)).2

/-- The query map holds no lone surrogate. -/
theorem queryDict_scalar :
    ∀ pair ∈ request.queryDict, Text.Scalar pair.1 ∧ Text.Scalar pair.2 := by
  intro pair inDict
  exact Forms.parseQsl_scalar request.queryAscii.scalar (Dict.mem_ofPairs inDict)

/-- The names of both maps are those of the request. -/
theorem maps_plain :
    (plainNames (ofPairs request.headerDict) = true ∧
        plainNames (ofPairs request.queryDict) = true) ↔ PlainNames request := by
  simp only [ofPairs_plain, Request.headerDict, Request.queryDict, Dict.mem_keys_ofPairs,
    List.map_map, Function.comp_def, List.forall_mem_map, PlainNames]

/-- Both maps can be written if their names are plain. -/
theorem maps_storable (named : PlainNames request) :
    (ofPairs request.headerDict).storable = true ∧
      (ofPairs request.queryDict).storable = true := by
  obtain ⟨headers, query⟩ := (maps_plain request).mpr named
  rw [ofPairs_plain] at headers query
  simp only [ofPairs_storable]
  constructor
  · intro pair inDict
    obtain ⟨key, value⟩ := headerDict_latin1 request pair inDict
    exact ⟨nameable_of_plain (headers _ (List.mem_map_of_mem inDict)) key.scalar, value.scalar⟩
  · intro pair inDict
    obtain ⟨key, value⟩ := queryDict_scalar request pair inDict
    exact ⟨nameable_of_plain (query _ (List.mem_map_of_mem inDict)) key, value⟩

end

/-- The bytes of a body are kept as scalar text. -/
theorem decodeRaw_scalar (raw : Bytes) : Text.Scalar (decodeRaw raw).1 := by
  unfold decodeRaw
  cases decoded : Encoding.decodeUtf8 false raw with
  | none => exact Text.Ascii.scalar (Base64.encode_ascii raw)
  | some text => exact Encoding.decodeUtf8_scalar decoded

/-- The texts of a stored endpoint can be written. -/
theorem endpoint_scalar {endpoints : Endpoints} {endpoint : EndpointDoc} {path : Str}
    (found : endpoints.findPath path = some endpoint) :
    (∀ name ∈ endpoint.name, Text.Scalar name) ∧
      ∀ methods ∈ endpoint.allowedMethods, ∀ method ∈ methods, Text.Scalar method := by
  have written := endpoints.written endpoint (Endpoints.findPath_eq_some_iff.mp found).1
  rw [EndpointDoc.toBson, Bson.storable, Bson.storableFields_iff] at written
  have name := (written (lit "name", .ofOption .str endpoint.name) (by simp)).2
  have methods :=
    (written (lit "allowed_methods", .ofOption .strings endpoint.allowedMethods) (by simp)).2
  refine ⟨(Bson.storable_ofOption _).mp name, ?_⟩
  intro admitted given
  rw [Option.mem_def.mp given] at methods
  exact (Bson.storable_strings admitted).mp methods

section
variable {world : Environment} {settings : Settings} {endpoints : Endpoints} {request : Request}
  {now : Instant} {doc : EventDoc}

/-- The parts of a document that every accepted request gives can be written. -/
theorem fixed_storable (accepted : receive world settings endpoints request now = .inserted doc) :
    Text.Scalar doc.endpointName ∧ Text.Scalar doc.method ∧ Text.Scalar doc.rawBody ∧
      Text.Scalar doc.contentType ∧ (∀ host ∈ doc.sourceIp, Text.Scalar host) ∧
      (∀ agent ∈ doc.userAgent, Text.Scalar agent) ∧ Bson.fitsInt64 doc.bodySize = true := by
  obtain ⟨endpoint, methods, found, admitted, allowed, stored⟩ := receive_inserted accepted
  obtain ⟨body, name, expiry, parsed, named, rfl⟩ := store_inserted stored
  obtain ⟨names, texts⟩ := endpoint_scalar found
  refine ⟨names name named, texts methods admitted _ allowed, decodeRaw_scalar _, ?_,
    request.peerScalar, ?_, ?_⟩
  · cases given : request.headerDict.get (lit "content-type") with
    | none => exact fun _ member => nomatch member
    | some value => exact (headerDict_get_latin1 request given).scalar
  · intro agent given
    exact (headerDict_get_latin1 request given).scalar
  · have bounded := request.measurable
    simp only [Bson.fitsInt64, decide_eq_true_eq]
    omega

/-- An accepted document can be stored exactly if the names of the request are plain,
the escaped body is admissible, and the event type and the search terms have no lone
surrogate. -/
theorem storable_iff (accepted : receive world settings endpoints request now = .inserted doc) :
    Storable doc ↔ PlainNames request ∧ Admissible doc.body ∧
      (∀ type ∈ doc.eventType, Text.Scalar type) ∧ doc.search.Scalar := by
  have fixed := fixed_storable accepted
  obtain ⟨endpoint, methods, found, admitted, allowed, stored⟩ := receive_inserted accepted
  obtain ⟨body, name, expiry, parsed, named, rfl⟩ := store_inserted stored
  rw [Storable, toBson_storable]
  constructor
  · rintro ⟨⟨_, _, sound, type, terms⟩, headers, query, _⟩
    exact ⟨(maps_plain request).mp ⟨headers, query⟩, sound, type, terms⟩
  · rintro ⟨isPlain, sound, type, terms⟩
    obtain ⟨headers, query⟩ := (maps_plain request).mpr isPlain
    exact ⟨⟨fixed, maps_storable request isPlain, sound, type, terms⟩, headers, query,
      plainNames_escape sound⟩

end

/-- The texts that are collected from an admissible value have no lone surrogate. -/
theorem collect_scalar {runtime : Tokenize.Runtime} {value : Json} (sound : Admissible value) :
    ∀ text ∈ collect runtime value, Text.Scalar text := by
  induction value using Json.inductionOn with
  | null => exact fun _ member => nomatch member
  | bool value => exact fun _ member => nomatch member
  | int value =>
    intro text member
    rw [List.mem_singleton.mp member]
    exact Text.scalar_lit _
  | float value =>
    intro text member
    rw [List.mem_singleton.mp member]
    exact (runtime.floatText_ascii value).scalar
  | str value =>
    intro text member
    rw [List.mem_singleton.mp member]
    exact (Bson.storable_str value).mp sound
  | arr items inductionHypothesis =>
    rw [admissible_arr] at sound
    intro text member
    obtain ⟨item, stored, collected⟩ := mem_collectItems member
    exact inductionHypothesis item stored (sound item stored) text collected
  | obj members inductionHypothesis =>
    rw [admissible_obj] at sound
    intro text member
    obtain ⟨pair, stored, key | collected⟩ := mem_collectMembers member
    · rw [key]
      exact fun point inKey => ((Bson.nameable_iff _).mp (sound pair stored).1 point inKey).1
    · exact inductionHypothesis pair stored (sound pair stored).2 text collected

/-- The texts of pairs without lone surrogates have none. -/
theorem pairStrings_scalar {runtime : Tokenize.Runtime} {pairs : Dict Str Str}
    (scalar : ∀ pair ∈ pairs, Text.Scalar pair.1 ∧ Text.Scalar pair.2) :
    ∀ text ∈ pairStrings runtime pairs, Text.Scalar text := by
  intro text member
  obtain ⟨pair, stored, taken⟩ := List.mem_flatMap.mp member
  split at taken
  · cases taken
  · obtain ⟨key, value⟩ := scalar pair stored
    rcases List.mem_cons.mp taken with rfl | last
    · exact key
    · rw [List.mem_singleton.mp last]
      exact value

/-- A text that is found under one of the names was looked up. -/
theorem firstText_some {lookup : Str → Option Str} {names : List Str} {text : Str}
    (found : firstText lookup names = some text) :
    ∃ name ∈ names, lookup name = some text := by
  obtain ⟨name, member, looked⟩ := List.exists_of_findSome?_eq_some found
  exact ⟨name, member, (Option.filter_eq_some_iff.mp looked).1⟩

/-- The event type has no lone surrogate if what is stored of the body is admissible.

Proof: a field of the body that has the type keeps its key, and no other gets it. -/
theorem extractEventType_scalar (request : Request) {body : Json}
    (distinct : body.distinct = true) (sound : Admissible (escapeKeys body)) :
    ∀ type ∈ extractEventType request.headerDict body, Text.Scalar type := by
  intro type given
  unfold extractEventType at given
  split at given
  · rename_i found inHeaders
    obtain ⟨name, _, read⟩ := firstText_some inHeaders
    rw [← Option.some.inj given]
    exact (headerDict_get_latin1 request read).scalar
  · split at given
    · rename_i members
      obtain ⟨name, field, read⟩ := firstText_some given
      rw [Json.distinct, Json.everywhere_obj, decide_eq_true_eq] at distinct
      unfold textField at read
      split at read
      · rename_i text stored
        obtain rfl := Option.some.inj read
        have inMembers := Dict.get_mem stored
        have own : escapeKey name = name := (escapeKey_eventTypeField field).mpr rfl
        have escaped : (name, Json.str text) ∈ escapeMembers members := by
          rw [escapeMembers_eq_map]
          exact List.mem_map.mpr ⟨(name, .str text), inMembers, by rw [own, escapeKeys]⟩
        have kept : (name, Json.str text) ∈ Dict.ofPairs (escapeMembers members) := by
          refine Dict.mem_ofPairs_of_unique escaped ?_
          intro other inEscaped sameKey
          rw [escapeMembers_eq_map] at inEscaped
          obtain ⟨source, inSource, rfl⟩ := List.mem_map.mp inEscaped
          have key : source.1 = name := (escapeKey_eventTypeField field).mp sameKey
          obtain rfl : source = (name, .str text) :=
            List.inj_on_of_nodup_map distinct.1 inSource inMembers key
          rw [own, escapeKeys]
        rw [escapeKeys, admissible_obj] at sound
        have admitted := (sound (name, .str text) kept).2
        exact (Bson.storable_str text).mp admitted
      · cases read
    · cases given

section
variable (world : Environment) (settings : Settings) (endpoints : Endpoints) (request : Request)

/-- The value that the body of the request is parsed as. -/
def parsedBody : Except Json.LoadsError Json :=
  parseBody world.runtime request.chunks.flatten
    ((request.headerDict.get (lit "content-type")).getD []) settings.limits.maxJsonDepth

/-- The search terms of the request with this body. -/
def searchTerms (body : Json) : Terms :=
  build world.search (((endpoints.findPath (normalizePath request.path)).bind
    EndpointDoc.name).getD []) (extractEventType request.headerDict body) request.headerDict
    request.queryDict body

/-- The names of the request are plain and its body is admissible. Where escaping gives
two keys of one object the same name, it is enough that what is left of the body is
admissible and that the terms, which what is dropped is searched for as well as long as
their number allows it, have no lone surrogate. -/
def Clean : Prop :=
  PlainNames request ∧ ∀ body, parsedBody world settings request = .ok body →
    Admissible body ∨ separate body = false ∧ Admissible (escapeKeys body) ∧
      (searchTerms world endpoints request body).Scalar

end

section
variable {world : Environment} {settings : Settings} {endpoints : Endpoints} {request : Request}
  {now : Instant} {doc : EventDoc}

/-- The name of a stored endpoint has no lone surrogate. -/
theorem endpointName_scalar (path : Str) :
    Text.Scalar (((endpoints.findPath path).bind EndpointDoc.name).getD []) := by
  cases found : endpoints.findPath path with
  | none => exact fun _ member => nomatch member
  | some endpoint =>
    rw [Option.bind_some]
    cases named : endpoint.name with
    | none => exact fun _ member => nomatch member
    | some name => exact (endpoint_scalar found).1 name named

/-- The search terms of an admissible body have no lone surrogate. -/
theorem searchTerms_scalar {body : Json} (distinct : body.distinct = true)
    (sound : Admissible body) :
    (searchTerms world endpoints request body).Scalar := by
  have headers : ∀ pair ∈ request.headerDict, Text.Scalar pair.1 ∧ Text.Scalar pair.2 := by
    intro pair inDict
    obtain ⟨key, value⟩ := headerDict_latin1 request pair inDict
    exact ⟨key.scalar, value.scalar⟩
  apply build_scalar
  intro source member
  simp only [sourceStrings, List.mem_append, List.mem_singleton, Option.mem_toList] at member
  rcases member with (((rfl | type) | inHeaders) | inQuery) | inBody
  · exact endpointName_scalar _
  · exact extractEventType_scalar request distinct (admissible_escape sound) source
      (Option.filter_eq_some_iff.mp type).1
  · exact pairStrings_scalar headers source inHeaders
  · exact pairStrings_scalar (queryDict_scalar request) source inQuery
  · exact collect_scalar sound source inBody

/-- What `receive` hands to the database can be stored exactly if the request is clean.

Proof: all parts of the document but the names, the body, the event type and the search
terms can always be written. An admissible body makes the last three so, and is needed
unless escaping merges two of its keys; the event type is never dropped. -/
theorem receive_storable
    (accepted : receive world settings endpoints request now = .inserted doc) :
    Storable doc ↔ Clean world settings endpoints request := by
  rw [storable_iff accepted, Clean]
  obtain ⟨endpoint, methods, found, admitted, allowed, stored⟩ := receive_inserted accepted
  obtain ⟨body, name, expiry, parsed, named, rfl⟩ := store_inserted stored
  have terms : build world.search name (extractEventType request.headerDict body)
      request.headerDict request.queryDict body = searchTerms world endpoints request body := by
    rw [searchTerms, found, Option.bind_some, named, Option.getD_some]
  have only : ∀ other, parsedBody world settings request = .ok other ↔ other = body := by
    intro other
    rw [parsedBody, parsed, Except.ok.injEq]
    exact eq_comm
  simp only [only, forall_eq, terms]
  refine and_congr_right (fun _ => ?_)
  constructor
  · rintro ⟨sound, _, scalar⟩
    cases apart : separate body with
    | true => exact .inl (admissible_of_escape apart sound)
    | false => exact .inr ⟨rfl, sound, scalar⟩
  · have distinct := parseBody_distinct parsed
    have type := fun sound => @extractEventType_scalar request body distinct sound
    rintro (sound | ⟨_, sound, scalar⟩)
    · have stored := admissible_escape sound
      exact ⟨stored, type stored, searchTerms_scalar distinct sound⟩
    · exact ⟨sound, type sound, scalar⟩

end

/-- An environment with ASCII conversions and no limits on the rate. -/
def plainWorld : Environment where
  runtime := ⟨Casing.ascii, ⟨fun _ => .nan, 1000⟩⟩
  numerals := Numerals.ascii
  floatText _ := lit "nan"
  floatText_ascii _ := by decide
  hexDigest _ _ := []
  limiter _ := none

/-- The collection with one endpoint under the path `github`. -/
def githubEndpoints : Endpoints :=
  let payload : EndpointCreate := {
    name := ⟨lit "GitHub", by decide⟩
    path := ⟨lit "github", by decide⟩
    enabled := true
    authentication := {}
    secret := none
    allowedMethods := ⟨[lit "POST"], by decide⟩
    maxPayloadSize := none
    retentionDays := none }
  match Endpoints.empty.insertOne (payload.toDocument ⟨1⟩ 0) with
  | .ok endpoints => endpoints
  | .error _ => .empty

/-- A delivery of a JSON body to that endpoint. -/
def delivery (body : Bytes) (measurable : [body].flatten.length < 2 ^ 63) : Request where
  path := lit "github"
  method := lit "POST"
  headers := [(lit "content-type", lit "application/json")]
  queryString := lit "ref=main"
  urlQuery := lit "ref=main"
  chunks := [body]
  peer := none
  headersLatin1 := by decide
  queryAscii := by decide
  peerScalar := nofun
  measurable := measurable

/-- The bytes of an ASCII literal. -/
def asciiBytes (literal : String) : Bytes := literal.toList.map (fun char => UInt8.ofNat char.toNat)

/-- A delivery of an object with one small number. -/
def small : Request := delivery (asciiBytes "\x7b\"number\":7\x7d") (by decide +kernel)

/-- A delivery of the least number that does not fit in 64 bits. -/
def large : Request := delivery (asciiBytes "[9223372036854775808]") (by decide +kernel)

/-- What a delivery comes to. -/
def delivered (request : Request) : Outcome := receive plainWorld {} githubEndpoints request 0

/-- The document with the small number. -/
def smallDoc : EventDoc := (delivered small).doc.get (by decide +kernel)

/-- The document with the large number. -/
def largeDoc : EventDoc := (delivered large).doc.get (by decide +kernel)

/-- The small number is stored, and the request is clean. -/
theorem receive_storable_small :
    delivered small = .inserted smallDoc ∧ Storable smallDoc ∧
      Clean plainWorld {} githubEndpoints small := by
  have accepted : delivered small = .inserted smallDoc :=
    Outcome.inserted_of_doc (Option.some_get _).symm
  have storable : Storable smallDoc := by decide +kernel
  exact ⟨accepted, storable, (receive_storable accepted).mp storable⟩

/-- The large number is accepted, and cannot be stored. -/
theorem receive_unstorable :
    ¬ ∀ (world : Environment) (settings : Settings) (endpoints : Endpoints) (request : Request)
      (now : Instant) (doc : EventDoc),
      receive world settings endpoints request now = .inserted doc → Storable doc := by
  intro claimed
  have accepted : delivered large = .inserted largeDoc :=
    Outcome.inserted_of_doc (Option.some_get _).symm
  have storable := (claimed plainWorld {} githubEndpoints large 0 largeDoc accepted).1
  have refused : largeDoc.toBson.storable = false := by decide +kernel
  rw [refused] at storable
  cases storable

end WebhookInbox.Receiver
