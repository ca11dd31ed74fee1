import WebhookInbox.Db
import WebhookInbox.Library.Forms
import WebhookInbox.Library.Run

/-!
# Requests on endpoints

The routes of the API and of the dashboard that read and write endpoints. A request
answers and leaves a collection; one that is refused, or that fails with an
exception, leaves the collection as it was.

`step_wellFormed` says which requests keep every document well formed: all but the
updates that name a null for a field that a document has to have.
-/

namespace WebhookInbox.Endpoint

open Library Library.Run Calendar

/-- What a request is answered with. A failure is an exception that nothing catches. -/
inductive Reply where
  | shown (endpoint : EndpointOut)
  | listed (endpoints : List EndpointOut)
  | invalid (errors : List FieldError)
  | detail (status : Nat) (reason : Str)
  | noContent
  | refresh (url : Str)
  | page (endpoints : List EndpointOut) (error : Fault)
  | detailPage (endpoint : EndpointOut) (error : Fault)
  | failure

/-- The fields of the endpoint forms. -/
structure EndpointForm where
  name : Str
  path : Str
  authType : Str := lit "none"
  secret : Str := []
  allowedMethods : Str := lit "POST"
  maxPayloadSize : Str := []
  retentionDays : Str := []
  enabled : Bool := true

/-- Why a form cannot be read. -/
inductive FormError where
  | validationError (fault : Fault)
  | valueError

/-- A number of a form. What is not made of digits counts as none. -/
def parseNumber (numerals : Numerals) (text : Str) : Except FormError (Option Int) :=
  if numerals.isDigit (Text.strip text) then
    match numerals.toInt text with
    | some number => .ok (some number)
    | none => .error .valueError
  else .ok none

/-- `_parse_endpoint_form(...)` -/
def parseEndpointForm (numerals : Numerals) (form : EndpointForm) : Except FormError CreateInput :=
  match AuthType.ofValue form.authType with
  | none => .error (.validationError .unknownMember)
  | some type => do
      let size ← parseNumber numerals form.maxPayloadSize
      let days ← parseNumber numerals form.retentionDays
      pure {
        name := Text.strip form.name
        path := Text.strip form.path
        enabled := form.enabled
        authentication := { type := type }
        secret := if form.secret = [] then none else some form.secret
        allowedMethods := ((Forms.split 0x2C form.allowedMethods).map Text.strip).filter (· ≠ [])
        maxPayloadSize := size
        retentionDays := days }

/-- A value that is null or given. -/
def Given.ofOption {α : Type} : Option α → Given α
  | none => .null
  | some given => .value given

/-- `EndpointUpdate(**fields)`: every field of the form is set, except a blank secret. -/
def CreateInput.toUpdate (fields : CreateInput) : UpdateInput where
  name := .value fields.name
  path := .value fields.path
  enabled := .value fields.enabled
  authentication := .value fields.authentication
  secret := match fields.secret with
    | none => .absent
    | some secret => .value secret
  allowedMethods := .value fields.allowedMethods
  maxPayloadSize := .ofOption fields.maxPayloadSize
  retentionDays := .ofOption fields.retentionDays

section
variable (casing : Casing)

/-- `find().sort("name", 1)`. Nulls come first. -/
def byName (first second : EndpointDoc) : Bool :=
  match first.name, second.name with
  | none, _ => true
  | some _, none => false
  | some left, some right => decide (left ≤ right)

/-- `_endpoint_list(db)`, missing when reading a document back raises. -/
def endpointList (endpoints : Endpoints) : Option (List EndpointOut) :=
  (endpoints.stored.docs.mergeSort byName).mapM (EndpointOut.fromDocument casing)

/-- The endpoint needs a secret and has none. A null authentication raises. -/
def lacksSecret (merged : EndpointDoc) : Option Bool :=
  merged.authentication.map (fun auth =>
    decide (auth.type ≠ lit "none") && decide (merged.secret.filter (· ≠ []) = none))

/-- The requests. A creation names the identifier that its document gets. -/
inductive Request where
  | list
  | create (id : ObjectId) (given : CreateInput) (now : Instant)
  | patch (id : ObjectId) (given : UpdateInput) (now : Instant)
  | delete (id : ObjectId)
  | dashboardCreate (id : ObjectId) (form : EndpointForm) (now : Instant)
  | dashboardSave (id : ObjectId) (form : EndpointForm) (now : Instant)
  | dashboardDelete (id : ObjectId)

/-- `EndpointOut.from_document(document)` as the answer. -/
def answer (doc : EndpointDoc) : Reply :=
  match EndpointOut.fromDocument casing doc with
  | some shown => .shown shown
  | none => .failure

/-- The list page with an error. -/
def listPage (endpoints : Endpoints) (error : Fault) : Reply :=
  match endpointList casing endpoints with
  | some listed => .page listed error
  | none => .failure

/-- `fail(message)` of the dashboard. -/
def fail (doc : EndpointDoc) (error : Fault) : Reply :=
  match EndpointOut.fromDocument casing doc with
  | some shown => .detailPage shown error
  | none => .failure

/-- `create_endpoint(payload)` -/
def createEndpoint (endpoints : Endpoints) (id : ObjectId) (given : CreateInput) (now : Instant) :
    Endpoints × Reply :=
  match EndpointCreate.validate casing given with
  | .error errors => (endpoints, .invalid errors)
  | .ok payload =>
      let document := payload.toDocument id now
      match endpoints.insertOne document with
      | .error .duplicateKey =>
          (endpoints, .detail 409 (lit "Path '" ++ payload.path.val ++ lit "' is already in use"))
      | .error .refused => (endpoints, .failure)
      | .ok changed => (changed, answer casing document)

/-- `update_endpoint(endpoint_id, payload)` -/
def updateEndpoint (endpoints : Endpoints) (id : ObjectId) (given : UpdateInput) (now : Instant) :
    Endpoints × Reply :=
  match EndpointUpdate.validate casing given with
  | .error errors => (endpoints, .invalid errors)
  | .ok payload =>
      match endpoints.findId id with
      | none => (endpoints, .detail 404 (lit "Endpoint not found"))
      | some document =>
          let changes := payload.toChanges now
          match lacksSecret (changes.apply document) with
          | none => (endpoints, .failure)
          | some true =>
              (endpoints, .detail 422 (lit "Authenticated endpoints require a secret"))
          | some false =>
              match endpoints.updateOne document.id changes with
              | .error .duplicateKey => (endpoints, .detail 409 (lit "Path is already in use"))
              | .error .refused => (endpoints, .failure)
              | .ok changed => (changed, answer casing (changes.apply document))

/-- `delete_endpoint(endpoint_id)` -/
def deleteEndpoint (endpoints : Endpoints) (id : ObjectId) : Endpoints × Reply :=
  match endpoints.findId id with
  | none => (endpoints, .detail 404 (lit "Endpoint not found"))
  | some document => (endpoints.deleteOne document.id, .noContent)

/-- `endpoint_create(...)` of the dashboard. The form has no numbers. -/
def endpointCreate (numerals : Numerals) (endpoints : Endpoints) (id : ObjectId)
    (form : EndpointForm) (now : Instant) : Endpoints × Reply :=
  match parseEndpointForm numerals
      { form with maxPayloadSize := [], retentionDays := [], enabled := true } with
  | .error (.validationError fault) => (endpoints, listPage casing endpoints fault)
  | .error .valueError => (endpoints, .failure)
  | .ok fields =>
      match EndpointCreate.validate casing fields with
      | .error errors => (endpoints, listPage casing endpoints (firstFault errors))
      | .ok payload =>
          match endpoints.insertOne (payload.toDocument id now) with
          | .error .duplicateKey =>
              (endpoints, listPage casing endpoints
                (.valueError (lit "Path '" ++ payload.path.val ++ lit "' is already in use")))
          | .error .refused => (endpoints, .failure)
          | .ok changed => (changed, .refresh (lit "/endpoints"))
where
  /-- `exc.errors()[0]` -/
  firstFault (errors : List FieldError) : Fault :=
    (errors.head?.map FieldError.fault).getD (.valueError [])

/-- `endpoint_save(...)` of the dashboard. The form is read outside the `try`. -/
def endpointSave (numerals : Numerals) (endpoints : Endpoints) (id : ObjectId)
    (form : EndpointForm) (now : Instant) : Endpoints × Reply :=
  match endpoints.findId id with
  | none => (endpoints, .detail 404 (lit "Endpoint not found"))
  | some document =>
      match parseEndpointForm numerals form with
      | .error _ => (endpoints, .failure)
      | .ok fields =>
          match EndpointUpdate.validate casing fields.toUpdate with
          | .error errors => (endpoints, fail casing document (endpointCreate.firstFault errors))
          | .ok payload =>
              let changes := payload.toChanges now
              match lacksSecret (changes.apply document) with
              | none => (endpoints, .failure)
              | some true =>
                  (endpoints, fail casing document
                    (.valueError (lit "This authentication type requires a secret")))
              | some false =>
                  match endpoints.updateOne document.id changes with
                  | .error .duplicateKey =>
                      (endpoints, fail casing document
                        (.valueError (lit "That path is already in use")))
                  | .error .refused => (endpoints, .failure)
                  | .ok changed => (changed, .refresh (lit "/endpoints/" ++ document.id.text))

/-- One request. -/
def respond (numerals : Numerals) (endpoints : Endpoints) : Request → Endpoints × Reply
  | .list =>
      (endpoints, match endpointList casing endpoints with
        | some listed => .listed listed
        | none => .failure)
  | .create id given now => createEndpoint casing endpoints id given now
  | .patch id given now => updateEndpoint casing endpoints id given now
  | .delete id => deleteEndpoint endpoints id
  | .dashboardCreate id form now => endpointCreate casing numerals endpoints id form now
  | .dashboardSave id form now => endpointSave casing numerals endpoints id form now
  | .dashboardDelete id => (endpoints.deleteOne id, .refresh (lit "/endpoints"))

/-- One request as a step of a run. Every request is answered. -/
def step (numerals : Numerals) (endpoints : Endpoints) (request : Request) : Option Endpoints :=
  some (respond casing numerals endpoints request).1

/-! ## What a request changes -/

/-- The request writes a null into a field that every document has to have: it is an
update whose fields are accepted, that finds its document, passes the check on the
secret, and is written. -/
def Request.blanks (endpoints : Endpoints) : Request → Bool
  | .patch id given now =>
      match EndpointUpdate.validate casing given with
      | .error _ => false
      | .ok payload =>
          decide payload.Blanks &&
            match endpoints.findId id with
            | none => false
            | some document =>
                decide (lacksSecret ((payload.toChanges now).apply document) = some false) &&
                  (endpoints.updateOne document.id (payload.toChanges now)).isOk
  | _ => false

/-- What a request can do to the collection. -/
inductive Effect (before after : Endpoints) (request : Request) : Prop where
  | kept (result : after = before) (filled : request.blanks casing before = false)
  | inserted (payload : EndpointCreate) (id : ObjectId) (now : Instant)
      (written : before.insertOne (payload.toDocument id now) = .ok after)
      (filled : request.blanks casing before = false)
  | updated (document : EndpointDoc) (payload : EndpointUpdate) (now : Instant)
      (found : before.findId document.id = some document)
      (authenticated : ¬ payload.authentication.IsNull)
      (written : before.updateOne document.id (payload.toChanges now) = .ok after)
      (filled : request.blanks casing before = decide payload.Blanks)
  | removed (id : ObjectId) (result : after = before.deleteOne id)
      (filled : request.blanks casing before = false)

section
variable {casing} {endpoints : Endpoints}

/-- A found document is found under its own identifier. -/
theorem findId_self {id : ObjectId} {document : EndpointDoc}
    (found : endpoints.findId id = some document) :
    document.id = id ∧ endpoints.findId document.id = some document := by
  have same : document.id = id := (Collection.find_some found).2
  exact ⟨same, by rw [same]; exact found⟩

/-- The check on the secret reads the authentication, which a null there prevents. -/
theorem lacksSecret_some {payload : EndpointUpdate} {now : Instant} {document : EndpointDoc}
    {lacks : Bool}
    (read : lacksSecret ((payload.toChanges now).apply document) = some lacks) :
    ¬ payload.authentication.IsNull := by
  intro blank
  cases given : payload.authentication with
  | null =>
    simp [lacksSecret, Changes.apply, EndpointUpdate.toChanges, given, Given.map, Given.apply]
      at read
  | absent => simp [given, Given.IsNull] at blank
  | value auth => simp [given, Given.IsNull] at blank

/-- What an accepted field is, given what was passed. -/
theorem Given.validate_isNull {α β : Type} {check : α → Except Fault β} {given : Given α}
    {field : Given β} (accepted : given.validate check = .ok field) :
    field.IsNull ↔ given.IsNull := by
  cases given with
  | absent => exact (Except.ok.inj accepted) ▸ Iff.rfl
  | null => exact (Except.ok.inj accepted) ▸ Iff.rfl
  | value value =>
    simp only [Given.validate] at accepted
    cases checked : check value with
    | error fault =>
      rw [checked] at accepted
      cases accepted
    | ok result =>
      rw [checked] at accepted
      obtain rfl := Except.ok.inj accepted
      exact Iff.rfl

/-- The form of the dashboard gives every field that a document has to have. -/
theorem toUpdate_filled {fields : CreateInput} {payload : EndpointUpdate}
    (accepted : EndpointUpdate.validate casing fields.toUpdate = .ok payload) :
    ¬ payload.Blanks := by
  unfold EndpointUpdate.validate at accepted
  split at accepted
  · rename_i name path methods size days named located admitted _ _
    obtain rfl := Except.ok.inj accepted
    rintro (blank | blank | blank | blank)
    · exact (Given.validate_isNull named).mp blank
    · exact (Given.validate_isNull located).mp blank
    · exact blank
    · exact (Given.validate_isNull admitted).mp blank
  · cases accepted

end

/-- Every request has one of the effects. -/
theorem respond_effect (numerals : Numerals) (before : Endpoints) (request : Request) :
    Effect casing before (respond casing numerals before request).1 request := by
  cases request with
  | list => exact .kept rfl rfl
  | create id given now =>
    simp only [respond, createEndpoint]
    split
    · exact .kept rfl rfl
    · rename_i payload accepted
      split
      · exact .kept rfl rfl
      · exact .kept rfl rfl
      · rename_i changed written
        exact .inserted payload id now written rfl
  | patch id given now =>
    simp only [respond, updateEndpoint]
    split
    · rename_i errors refused
      exact .kept rfl (by simp [Request.blanks, refused])
    · rename_i payload accepted
      split
      · rename_i missing
        exact .kept rfl (by simp [Request.blanks, accepted, missing])
      · rename_i document found
        split
        · rename_i unread
          exact .kept rfl (by simp [Request.blanks, accepted, found, unread])
        · rename_i lacking
          exact .kept rfl (by simp [Request.blanks, accepted, found, lacking])
        · rename_i checked
          split
          · rename_i taken
            exact .kept rfl (by simp [Request.blanks, accepted, found, taken, Except.isOk,
              Except.toBool])
          · rename_i unwritable
            exact .kept rfl (by simp [Request.blanks, accepted, found, unwritable, Except.isOk,
              Except.toBool])
          · rename_i changed written
            refine .updated document payload now (findId_self found).2 (lacksSecret_some checked)
              written ?_
            simp [Request.blanks, accepted, found, checked, written, Except.isOk, Except.toBool]
  | delete id =>
    simp only [respond, deleteEndpoint]
    split
    · exact .kept rfl rfl
    · rename_i document found
      exact .removed document.id rfl rfl
  | dashboardCreate id form now =>
    simp only [respond, endpointCreate]
    split
    · exact .kept rfl rfl
    · exact .kept rfl rfl
    · rename_i fields _
      split
      · exact .kept rfl rfl
      · rename_i payload accepted
        split
        · exact .kept rfl rfl
        · exact .kept rfl rfl
        · rename_i changed written
          exact .inserted payload id now written rfl
  | dashboardSave id form now =>
    simp only [respond, endpointSave]
    split
    · exact .kept rfl rfl
    · rename_i document found
      split
      · exact .kept rfl rfl
      · rename_i fields _
        split
        · exact .kept rfl rfl
        · rename_i payload accepted
          split
          · exact .kept rfl rfl
          · exact .kept rfl rfl
          · rename_i checked
            split
            · exact .kept rfl rfl
            · exact .kept rfl rfl
            · rename_i changed written
              refine .updated document payload now (findId_self found).2
                (lacksSecret_some checked) written ?_
              simp [Request.blanks, toUpdate_filled accepted]
  | dashboardDelete id => exact .removed id rfl rfl

/-- Every stored document is well formed. -/
def Sound (endpoints : Endpoints) : Prop := ∀ doc ∈ endpoints.stored.docs, WellFormed doc

/-- Every stored document is well formed and can be read back, and so can the list. -/
def Readable (endpoints : Endpoints) : Prop :=
  (∀ doc ∈ endpoints.stored.docs,
    WellFormed doc ∧ ∃ shown, EndpointOut.fromDocument casing doc = some shown) ∧
    ∃ listed, endpointList casing endpoints = some listed

/-- A list whose items can all be read back can be read back. -/
theorem mapM_fromDocument {docs : List EndpointDoc}
    (readable : ∀ doc ∈ docs, ∃ shown, EndpointOut.fromDocument casing doc = some shown) :
    ∃ listed, docs.mapM (EndpointOut.fromDocument casing) = some listed := by
  induction docs with
  | nil => exact ⟨[], rfl⟩
  | cons doc rest inductionHypothesis =>
    obtain ⟨shown, read⟩ := readable doc List.mem_cons_self
    obtain ⟨listed, later⟩ := inductionHypothesis
      (fun other member => readable other (List.mem_cons_of_mem _ member))
    exact ⟨shown :: listed, by simp [read, later]⟩

/-- Well-formed documents can be read back, alone and as a list. -/
theorem readable_iff_sound (endpoints : Endpoints) :
    Readable casing endpoints ↔ Sound endpoints := by
  constructor
  · intro readable doc member
    exact (readable.1 doc member).1
  · intro sound
    refine ⟨fun doc member => ⟨sound doc member, ?_⟩, ?_⟩
    · exact fromDocument_wellFormed casing (sound doc member)
    · apply mapM_fromDocument
      intro doc member
      exact fromDocument_wellFormed casing (sound doc (List.mem_mergeSort.mp member))

/-- A request keeps every document well formed exactly if it writes no null into a
field that a document has to have. -/
theorem respond_sound (numerals : Numerals) {before : Endpoints} (sound : Sound before)
    (request : Request) :
    Sound (respond casing numerals before request).1 ↔ request.blanks casing before = false := by
  have effect := respond_effect casing numerals before request
  generalize (respond casing numerals before request).1 = after at effect
  cases effect with
  | kept result filled =>
    subst result
    exact ⟨fun _ => filled, fun _ => sound⟩
  | inserted payload id now written filled =>
    refine ⟨fun _ => filled, fun _ doc member => ?_⟩
    rcases (Endpoints.mem_insertOne written doc).mp member with old | rfl
    · exact sound doc old
    · exact toDocument_wellFormed payload id now
  | updated document payload now found authenticated written filled =>
    rw [filled, decide_eq_false_iff_not]
    obtain ⟨stored, _⟩ := Collection.find_some found
    constructor
    · intro kept blanked
      have changed := (Endpoints.mem_updateOne written _).mpr ⟨document, stored, rfl⟩
      rw [if_pos rfl] at changed
      exact apply_blanks blanked (kept _ changed)
    · intro filled doc member
      obtain ⟨old, oldMember, rfl⟩ := (Endpoints.mem_updateOne written doc).mp member
      by_cases same : old.id = document.id
      · rw [if_pos same]
        exact apply_wellFormed (sound old oldMember) filled authenticated
      · rw [if_neg same]
        exact sound old oldMember
  | removed id result filled =>
    subst result
    exact ⟨fun _ => filled, fun _ doc member => sound doc (Endpoints.mem_deleteOne member)⟩

/-- Along every sequence of requests, from documents that creation wrote: every stored
document stays well formed and can be read back, and the list can be shown, exactly if
no request writes a null into a field that a document has to have.

Proof: by induction on the sequence, since one request keeps a sound collection sound
exactly if it writes no such null. -/
theorem endpoints_stay_readable (numerals : Numerals) {start : Endpoints}
    (created : ∀ doc ∈ start.stored.docs, ∃ (payload : EndpointCreate) (id : ObjectId)
      (now : Instant), doc = payload.toDocument id now) (requests : List Request) :
    Along (step casing numerals)
        (fun endpoints request =>
          Readable casing (respond casing numerals endpoints request).1) start requests ↔
      Along (step casing numerals)
        (fun endpoints request => request.blanks casing endpoints = false) start requests := by
  apply along_congr (step casing numerals) Sound
  · intro endpoints request sound
    rw [readable_iff_sound]
    exact respond_sound casing numerals sound request
  · intro endpoints request next _ readable taken
    obtain rfl := Option.some.inj taken
    exact (readable_iff_sound casing _).mp readable
  · intro doc member
    obtain ⟨payload, id, now, rfl⟩ := created doc member
    exact toDocument_wellFormed payload id now

end

/-- The identifier of an endpoint. -/
def githubId : ObjectId := ⟨1⟩

/-- The creation of an endpoint. -/
def createGithub : Request :=
  .create githubId { name := lit "GitHub", path := lit "/webhooks/github" } 0

/-- An endpoint that is created, disabled and saved again can be shown throughout. -/
theorem endpoints_stay_readable_saved :
    (∀ doc ∈ Endpoints.empty.stored.docs, ∃ (payload : EndpointCreate) (id : ObjectId)
        (now : Instant), doc = payload.toDocument id now) ∧
      Along (step Casing.ascii Numerals.ascii)
        (fun endpoints request =>
          Readable Casing.ascii (respond Casing.ascii Numerals.ascii endpoints request).1)
        Endpoints.empty
        [createGithub, .patch githubId { enabled := .value false, retentionDays := .null } 1000,
          .dashboardSave githubId { name := lit "hub", path := lit "hub" } 2000] := by
  have created : ∀ doc ∈ Endpoints.empty.stored.docs, ∃ (payload : EndpointCreate)
      (id : ObjectId) (now : Instant), doc = payload.toDocument id now := by
    intro doc member
    cases member
  exact ⟨created, (endpoints_stay_readable Casing.ascii Numerals.ascii created _).mpr (by decide +kernel)⟩

/-- What remains when the name of the endpoint is then replaced by a null. -/
def namelessEndpoints : Endpoints :=
  (respond Casing.ascii Numerals.ascii
    (respond Casing.ascii Numerals.ascii Endpoints.empty createGithub).1
    (.patch githubId { name := .null } 1000)).1

/-- An update that names a null for the name is stored, and then the endpoint cannot be
read back. -/
theorem endpoints_unreadable :
    ¬ ∀ (casing : Casing) (numerals : Numerals) (start : Endpoints),
      (∀ doc ∈ start.stored.docs, ∃ (payload : EndpointCreate) (id : ObjectId) (now : Instant),
        doc = payload.toDocument id now) →
      ∀ requests, Along (step casing numerals)
        (fun endpoints request =>
          Readable casing (respond casing numerals endpoints request).1) start requests := by
  intro claimed
  have along := claimed Casing.ascii Numerals.ascii Endpoints.empty (fun _ member => nomatch member)
    [createGithub, .patch githubId { name := .null } 1000]
  have readable : Readable Casing.ascii namelessEndpoints := (along.2 _ rfl).1
  have present : (namelessEndpoints.findId githubId).isSome := by decide +kernel
  have stored : namelessEndpoints.findId githubId = some _ := (Option.some_get present).symm
  obtain ⟨shown, read⟩ := (readable.1 _ (Collection.find_some stored).1).2
  have unread : ((namelessEndpoints.findId githubId).bind
      (EndpointOut.fromDocument Casing.ascii)).isNone := by decide +kernel
  rw [stored, Option.bind_some, read] at unread
  cases unread

end WebhookInbox.Endpoint
