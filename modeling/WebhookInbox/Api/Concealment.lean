import WebhookInbox.Api.Endpoints

/-!
# Stored secrets in answers

An answer tells whether an endpoint has a secret and not which. The routes read a stored
secret only to see whether it is there, so what they answer, and what they leave of all
else, is decided by the collection with a mark in place of every secret.

`secrets_unobservable` compares two collections that differ in their secrets only: no
sequence of requests tells them apart.
-/

namespace WebhookInbox.Endpoint

open Library Calendar

/-- The endpoint with a mark in place of its secret, if it has one. -/
def conceal (doc : EndpointDoc) : EndpointDoc :=
  { doc with secret := (doc.secret.filter (· ≠ [])).map (fun _ => lit "*") }

/-- The documents differ in what their secrets are only. -/
def AlikeDocs (first second : EndpointDoc) : Prop := conceal first = conceal second

/-- So do the collections. -/
def Alike (first second : Endpoints) : Prop :=
  first.stored.docs.map conceal = second.stored.docs.map conceal

/-- The requests that write, and those that show endpoints. -/
inductive Visit where
  | request (request : Request)
  | getEndpoint (id : ObjectId)
  | endpointsPage
  | endpointDetail (id : ObjectId)

section
variable (casing : Casing)

/-- `get_endpoint(endpoint_id)` and `endpoint_detail(endpoint_id)`, which show the endpoint
in the same way. -/
def getEndpoint (endpoints : Endpoints) (id : ObjectId) : Reply :=
  match endpoints.findId id with
  | none => .detail 404 (lit "Endpoint not found")
  | some document => answer casing document

/-- `endpoints_page()` -/
def endpointsPage (endpoints : Endpoints) : Reply :=
  match endpointList casing endpoints with
  | some listed => .listed listed
  | none => .failure

/-- One of them. -/
def visit (numerals : Numerals) (endpoints : Endpoints) : Visit → Endpoints × Reply
  | .request request => respond casing numerals endpoints request
  | .getEndpoint id | .endpointDetail id => (endpoints, getEndpoint casing endpoints id)
  | .endpointsPage => (endpoints, endpointsPage casing endpoints)

/-- What is answered to a sequence of them. -/
def visits (numerals : Numerals) : Endpoints → List Visit → List Reply
  | _, [] => []
  | endpoints, first :: rest =>
      (visit casing numerals endpoints first).2 ::
        visits numerals (visit casing numerals endpoints first).1 rest

end

/-! ## One document -/

/-- The mark counts as a secret. -/
theorem secret_conceal (doc : EndpointDoc) :
    (conceal doc).secret.filter (· ≠ []) =
      (doc.secret.filter (· ≠ [])).map (fun _ => lit "*") := by
  have marked : decide (lit "*" ≠ []) = true := by decide
  rw [conceal]
  generalize doc.secret.filter (fun secret => decide (secret ≠ [])) = held
  cases held with
  | none => rfl
  | some secret => exact Option.filter_some_pos marked

/-- A document is shown as with its secret concealed. -/
theorem fromDocument_conceal (casing : Casing) (doc : EndpointDoc) :
    EndpointOut.fromDocument casing (conceal doc) = EndpointOut.fromDocument casing doc := by
  simp only [EndpointOut.fromDocument, secret_conceal, Option.isSome_map]
  rfl

/-- Whether a secret is needed and missing does not depend on which it is. -/
theorem lacksSecret_conceal (doc : EndpointDoc) : lacksSecret (conceal doc) = lacksSecret doc := by
  simp only [lacksSecret, secret_conceal, Option.map_eq_none_iff]
  rfl

/-- Concealing it twice is concealing it once. -/
theorem conceal_conceal (doc : EndpointDoc) : conceal (conceal doc) = conceal doc := by
  have marked := secret_conceal doc
  simp only [conceal] at marked ⊢
  rw [marked, Option.map_map]
  rfl

/-- What an update leaves of a concealed document is what it leaves of the document. -/
theorem conceal_apply (changes : Changes) (doc : EndpointDoc) :
    conceal (changes.apply (conceal doc)) = conceal (changes.apply doc) := by
  cases given : changes.secret with
  | absent =>
    have twice := congrArg EndpointDoc.secret (conceal_conceal doc)
    simp only [conceal, Changes.apply, given, Given.apply] at twice ⊢
    rw [twice]
  | null => simp only [conceal, Changes.apply, given, Given.apply]
  | value secret => simp only [conceal, Changes.apply, given, Given.apply]

section
variable {casing : Casing} {first second : EndpointDoc}

/-- Documents that are alike are shown alike. -/
theorem AlikeDocs.shown (alike : AlikeDocs first second) :
    EndpointOut.fromDocument casing first = EndpointOut.fromDocument casing second := by
  rw [← fromDocument_conceal, alike, fromDocument_conceal]

/-- They are checked alike. -/
theorem AlikeDocs.checked (alike : AlikeDocs first second) :
    lacksSecret first = lacksSecret second := by
  rw [← lacksSecret_conceal, alike, lacksSecret_conceal]

/-- They stay alike under an update. -/
theorem AlikeDocs.apply (alike : AlikeDocs first second) (changes : Changes) :
    AlikeDocs (changes.apply first) (changes.apply second) := by
  rw [AlikeDocs, ← conceal_apply, alike, conceal_apply]

/-- They have one identifier. -/
theorem AlikeDocs.sameId (alike : AlikeDocs first second) : first.id = second.id := by
  have same : (conceal first).id = (conceal second).id := congrArg EndpointDoc.id alike
  exact same

end

/-! ## The collection -/

/-- Both writes fail for the same reason, or both succeed and leave collections alike. -/
inductive AlikeWrites : Except Endpoints.WriteError Endpoints →
    Except Endpoints.WriteError Endpoints → Prop
  | failed (error : Endpoints.WriteError) : AlikeWrites (.error error) (.error error)
  | made {first second : Endpoints} (alike : Alike first second) :
      AlikeWrites (.ok first) (.ok second)

/-- What is not concealed is the same in collections alike. -/
theorem map_alike {α : Type} {first second : List EndpointDoc}
    (alike : first.map conceal = second.map conceal) {part : EndpointDoc → α}
    (shown : ∀ doc, part (conceal doc) = part doc) : first.map part = second.map part := by
  have through := congrArg (List.map part) alike
  simpa only [List.map_map, Function.comp_def, shown] using through

/-- The index on the path treats them alike. -/
theorem indexed_alike {first second : Collection EndpointDoc.id}
    (alike : first.docs.map conceal = second.docs.map conceal)
    (writtenFirst : ∀ doc ∈ first.docs, doc.toBson.storable = true)
    (writtenSecond : ∀ doc ∈ second.docs, doc.toBson.storable = true) :
    AlikeWrites (Endpoints.indexed first writtenFirst)
      (Endpoints.indexed second writtenSecond) := by
  have paths : first.docs.map EndpointDoc.path = second.docs.map EndpointDoc.path :=
    map_alike alike (fun _ => rfl)
  unfold Endpoints.indexed
  by_cases unique : (first.docs.map EndpointDoc.path).Nodup
  · rw [dif_pos unique, dif_pos (paths ▸ unique)]
    exact .made alike
  · rw [dif_neg unique, dif_neg (paths ▸ unique)]
    exact .failed _

section
variable {first second : Endpoints} (alike : Alike first second)

include alike

/-- Documents that are found are alike. -/
theorem findId_alike (id : ObjectId) :
    (first.findId id = none ∧ second.findId id = none) ∨
      ∃ left right, first.findId id = some left ∧ second.findId id = some right ∧
        AlikeDocs left right := by
  have concealed : ∀ endpoints : Endpoints, (endpoints.findId id).map conceal =
      (endpoints.stored.docs.map conceal).find? (fun doc => decide (doc.id = id)) := by
    intro endpoints
    rw [List.find?_map]
    rfl
  have same : (first.findId id).map conceal = (second.findId id).map conceal := by
    rw [concealed, concealed, alike]
  cases left : first.findId id with
  | none =>
    rw [left] at same
    exact .inl ⟨rfl, Option.map_eq_none_iff.mp same.symm⟩
  | some doc =>
    rw [left] at same
    obtain ⟨other, right, concealedSame⟩ := Option.map_eq_some_iff.mp same.symm
    exact .inr ⟨doc, other, rfl, right, concealedSame.symm⟩

/-- An insertion goes alike. -/
theorem insertOne_alike (doc : EndpointDoc) :
    AlikeWrites (first.insertOne doc) (second.insertOne doc) := by
  have ids : first.stored.docs.map EndpointDoc.id = second.stored.docs.map EndpointDoc.id :=
    map_alike alike (fun _ => rfl)
  by_cases writable : doc.toBson.storable = true
  · by_cases taken : doc.id ∈ first.stored.docs.map EndpointDoc.id
    · have refused : ∀ endpoints : Endpoints, doc.id ∈ endpoints.stored.docs.map EndpointDoc.id →
          endpoints.insertOne doc = .error .duplicateKey := by
        intro endpoints held
        unfold Endpoints.insertOne
        rw [dif_pos writable]
        split
        · rfl
        · rename_i changed added
          rw [Collection.insert, dif_pos held] at added
          cases added
      rw [refused first taken, refused second (ids ▸ taken)]
      exact .failed _
    · unfold Endpoints.insertOne
      rw [dif_pos writable, dif_pos writable]
      split
      · rename_i refused
        rw [Collection.insert, dif_neg taken] at refused
        cases refused
      · rename_i grown added
        split
        · rename_i refused
          rw [Collection.insert, dif_neg (ids ▸ taken)] at refused
          cases refused
        · rename_i other otherAdded
          refine indexed_alike ?_ _ _
          rw [Collection.insert_docs added, Collection.insert_docs otherAdded, List.map_append,
            List.map_append, alike]
  · rw [Endpoints.insertOne, Endpoints.insertOne, dif_neg writable, dif_neg writable]
    exact .failed _

/-- So does an update. -/
theorem updateOne_alike (id : ObjectId) (changes : Changes) :
    AlikeWrites (first.updateOne id changes) (second.updateOne id changes) := by
  unfold Endpoints.updateOne
  split
  · refine indexed_alike ?_ _ _
    simp only [Collection.updateOne, Collection.updateMany, List.map_map]
    refine map_alike alike ?_
    intro doc
    have held : (conceal doc).id = doc.id := rfl
    simp only [Function.comp_apply, decide_eq_true_eq, held]
    split
    · exact conceal_apply changes doc
    · exact conceal_conceal doc
  · exact .failed _

/-- So does a deletion. -/
theorem deleteOne_alike (id : ObjectId) : Alike (first.deleteOne id) (second.deleteOne id) := by
  have through := congrArg (List.filter (fun doc => decide (doc.id ≠ id))) alike
  rw [List.filter_map, List.filter_map] at through
  exact through

/-- The lists are shown alike. -/
theorem endpointList_alike (casing : Casing) :
    endpointList casing first = endpointList casing second := by
  have concealed : ∀ endpoints : Endpoints, endpointList casing endpoints =
      ((endpoints.stored.docs.map conceal).mergeSort byName).mapM
        (EndpointOut.fromDocument casing) := by
    intro endpoints
    have shown : EndpointOut.fromDocument casing ∘ conceal = EndpointOut.fromDocument casing :=
      funext (fromDocument_conceal casing)
    rw [← @List.map_mergeSort _ _ byName byName conceal endpoints.stored.docs
      (fun _ _ _ _ => rfl), List.mapM_map, shown]
    rfl
  rw [concealed, concealed, alike]

end

/-! ## The routes -/

section
variable {casing : Casing} {numerals : Numerals} {first second : Endpoints}

/-- Two requests are answered alike, and leave collections alike. -/
structure AlikeAfter (left right : Endpoints × Reply) : Prop where
  reply : left.2 = right.2
  alike : Alike left.1 right.1

/-- A document that is found in either is shown alike. -/
theorem AlikeDocs.answer {left right : EndpointDoc} (alike : AlikeDocs left right) :
    answer casing left = answer casing right := by
  rw [Endpoint.answer, Endpoint.answer, alike.shown]

/-- So is it with an error. -/
theorem AlikeDocs.fail {left right : EndpointDoc} (alike : AlikeDocs left right) (error : Fault) :
    fail casing left error = fail casing right error := by
  rw [Endpoint.fail, Endpoint.fail, alike.shown]

/-- The list page is shown alike. -/
theorem listPage_alike (alike : Alike first second) (error : Fault) :
    listPage casing first error = listPage casing second error := by
  rw [listPage, listPage, endpointList_alike alike]

/-- Creating goes alike. -/
theorem createEndpoint_alike (alike : Alike first second) (id : ObjectId) (given : CreateInput)
    (now : Instant) :
    AlikeAfter (createEndpoint casing first id given now)
      (createEndpoint casing second id given now) := by
  unfold createEndpoint
  split
  · exact ⟨rfl, alike⟩
  · rename_i payload _
    have wrote := insertOne_alike alike (payload.toDocument id now)
    dsimp only
    generalize first.insertOne (payload.toDocument id now) = left at wrote ⊢
    generalize second.insertOne (payload.toDocument id now) = right at wrote ⊢
    cases wrote with
    | failed error =>
      cases error with
      | duplicateKey => exact ⟨rfl, alike⟩
      | refused => exact ⟨rfl, alike⟩
    | made after => exact ⟨rfl, after⟩

/-- So does it on the dashboard. -/
theorem endpointCreate_alike (alike : Alike first second) (id : ObjectId) (form : EndpointForm)
    (now : Instant) :
    AlikeAfter (endpointCreate casing numerals first id form now)
      (endpointCreate casing numerals second id form now) := by
  unfold endpointCreate
  split
  · exact ⟨listPage_alike alike _, alike⟩
  · exact ⟨rfl, alike⟩
  · split
    · exact ⟨listPage_alike alike _, alike⟩
    · rename_i payload _
      have wrote := insertOne_alike alike (payload.toDocument id now)
      generalize first.insertOne (payload.toDocument id now) = left at wrote ⊢
      generalize second.insertOne (payload.toDocument id now) = right at wrote ⊢
      cases wrote with
      | failed error =>
        cases error with
        | duplicateKey => exact ⟨listPage_alike alike _, alike⟩
        | refused => exact ⟨rfl, alike⟩
      | made after => exact ⟨rfl, after⟩

/-- Updating goes alike. -/
theorem updateEndpoint_alike (alike : Alike first second) (id : ObjectId) (given : UpdateInput)
    (now : Instant) :
    AlikeAfter (updateEndpoint casing first id given now)
      (updateEndpoint casing second id given now) := by
  unfold updateEndpoint
  split
  · exact ⟨rfl, alike⟩
  · rename_i payload _
    rcases findId_alike alike id with ⟨left, right⟩ | ⟨left, right, foundLeft, foundRight, docs⟩
    · rw [left, right]
      exact ⟨rfl, alike⟩
    · have applied := docs.apply (payload.toChanges now)
      have wrote := updateOne_alike alike right.id (payload.toChanges now)
      simp only [foundLeft, foundRight, docs.sameId, applied.checked]
      split
      · exact ⟨rfl, alike⟩
      · exact ⟨rfl, alike⟩
      · generalize first.updateOne right.id (payload.toChanges now) = leftWrite at wrote ⊢
        generalize second.updateOne right.id (payload.toChanges now) = rightWrite at wrote ⊢
        cases wrote with
        | failed error =>
          cases error with
          | duplicateKey => exact ⟨rfl, alike⟩
          | refused => exact ⟨rfl, alike⟩
        | made after => exact ⟨applied.answer, after⟩

/-- So does saving on the dashboard. -/
theorem endpointSave_alike (alike : Alike first second) (id : ObjectId) (form : EndpointForm)
    (now : Instant) :
    AlikeAfter (endpointSave casing numerals first id form now)
      (endpointSave casing numerals second id form now) := by
  unfold endpointSave
  rcases findId_alike alike id with ⟨left, right⟩ | ⟨left, right, foundLeft, foundRight, docs⟩
  · rw [left, right]
    exact ⟨rfl, alike⟩
  · simp only [foundLeft, foundRight]
    split
    · exact ⟨rfl, alike⟩
    · split
      · exact ⟨docs.fail _, alike⟩
      · rename_i payload _
        have applied := docs.apply (payload.toChanges now)
        have wrote := updateOne_alike alike right.id (payload.toChanges now)
        simp only [docs.sameId, applied.checked]
        split
        · exact ⟨rfl, alike⟩
        · exact ⟨docs.fail _, alike⟩
        · generalize first.updateOne right.id (payload.toChanges now) = leftWrite at wrote ⊢
          generalize second.updateOne right.id (payload.toChanges now) = rightWrite at wrote ⊢
          cases wrote with
          | failed error =>
            cases error with
            | duplicateKey => exact ⟨docs.fail _, alike⟩
            | refused => exact ⟨rfl, alike⟩
          | made after => exact ⟨rfl, after⟩

/-- Deleting goes alike. -/
theorem deleteEndpoint_alike (alike : Alike first second) (id : ObjectId) :
    AlikeAfter (deleteEndpoint first id) (deleteEndpoint second id) := by
  unfold deleteEndpoint
  rcases findId_alike alike id with ⟨left, right⟩ | ⟨left, right, foundLeft, foundRight, docs⟩
  · rw [left, right]
    exact ⟨rfl, alike⟩
  · simp only [foundLeft, foundRight, docs.sameId]
    exact ⟨rfl, deleteOne_alike alike right.id⟩

/-- Every request goes alike. -/
theorem respond_alike (alike : Alike first second) (request : Request) :
    AlikeAfter (respond casing numerals first request)
      (respond casing numerals second request) := by
  cases request with
  | list => exact ⟨by simp only [respond, endpointList_alike alike], alike⟩
  | create id given now => exact createEndpoint_alike alike id given now
  | patch id given now => exact updateEndpoint_alike alike id given now
  | delete id => exact deleteEndpoint_alike alike id
  | dashboardCreate id form now => exact endpointCreate_alike alike id form now
  | dashboardSave id form now => exact endpointSave_alike alike id form now
  | dashboardDelete id => exact ⟨rfl, deleteOne_alike alike id⟩

/-- An endpoint is shown alike. -/
theorem getEndpoint_alike (alike : Alike first second) (id : ObjectId) :
    getEndpoint casing first id = getEndpoint casing second id := by
  unfold getEndpoint
  rcases findId_alike alike id with ⟨left, right⟩ | ⟨left, right, foundLeft, foundRight, docs⟩
  · rw [left, right]
  · simp only [foundLeft, foundRight]
    exact docs.answer

/-- Every visit goes alike. -/
theorem visit_alike (alike : Alike first second) (next : Visit) :
    AlikeAfter (visit casing numerals first next) (visit casing numerals second next) := by
  cases next with
  | request request => exact respond_alike alike request
  | getEndpoint id => exact ⟨getEndpoint_alike alike id, alike⟩
  | endpointsPage => exact ⟨by simp only [visit, endpointsPage, endpointList_alike alike], alike⟩
  | endpointDetail id => exact ⟨getEndpoint_alike alike id, alike⟩

end

/-- No sequence of requests on the endpoints tells what a stored secret is: with other
secrets in place of those that are there, every request is answered as before.

Proof: by induction on the sequence. A request is answered alike by collections that differ
in their secrets only, and leaves such collections. -/
theorem secrets_unobservable (casing : Casing) (numerals : Numerals) {first second : Endpoints}
    (alike : Alike first second) (sequence : List Visit) :
    visits casing numerals first sequence = visits casing numerals second sequence := by
  induction sequence generalizing first second with
  | nil => rfl
  | cons next rest inductionHypothesis =>
    have after : AlikeAfter (visit casing numerals first next)
        (visit casing numerals second next) := visit_alike alike next
    rw [visits, visits, after.reply, inductionHypothesis after.alike]

/-- An endpoint with a signature and this secret. -/
def signedWith (secret : Str) : Endpoints :=
  (respond Casing.ascii Numerals.ascii Endpoints.empty (.create githubId {
    name := lit "GitHub"
    path := lit "github"
    authentication := { type := .hmacSha256 }
    secret := some secret } 0)).1

/-- It is shown, disabled without a secret being given, saved with a blank one, and given
another. -/
def secretVisits : List Visit :=
  [.endpointsPage, .request (.patch githubId { enabled := .value false } 1000),
    .request (.dashboardSave githubId
      { name := lit "hub", path := lit "hub", authType := lit "hmac_sha256" } 2000),
    .request (.patch githubId { secret := .value (lit "third") } 3000), .getEndpoint githubId]

/-- Two secrets are not told apart. -/
theorem secrets_unobservable_signed :
    (signedWith (lit "first")).stored.docs ≠ (signedWith (lit "second")).stored.docs ∧
      visits Casing.ascii Numerals.ascii (signedWith (lit "first")) secretVisits =
        visits Casing.ascii Numerals.ascii (signedWith (lit "second")) secretVisits := by
  have alike : (signedWith (lit "first")).stored.docs.map conceal =
      (signedWith (lit "second")).stored.docs.map conceal := by
    decide +kernel
  exact ⟨by decide +kernel, secrets_unobservable Casing.ascii Numerals.ascii alike secretVisits⟩

end WebhookInbox.Endpoint
