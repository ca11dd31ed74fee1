import WebhookInbox.Library.Bson
import WebhookInbox.Models.Endpoint

/-!
# The endpoints collection

Identifiers and paths are unique: the second through an index that is checked
with every write, for which a null path counts as a value. A write that the driver
refuses or that breaks an index changes nothing.
-/

namespace WebhookInbox.Endpoint

open Library

/-- The authentication part as a document. -/
def AuthDoc.toBson (auth : AuthDoc) : Bson :=
  .doc ([(lit "type", .str auth.type), (lit "header", .ofOption .str auth.header)] ++
    (auth.signaturePrefix.map (fun text => (lit "signature_prefix", Bson.str text))).toList)

/-- The fields of an endpoint as the driver writes them. -/
def EndpointDoc.toBson (doc : EndpointDoc) : Bson :=
  .doc [
    (lit "name", .ofOption .str doc.name),
    (lit "path", .ofOption .str doc.path),
    (lit "enabled", .ofOption .bool doc.enabled),
    (lit "authentication", .ofOption AuthDoc.toBson doc.authentication),
    (lit "secret", .ofOption .str doc.secret),
    (lit "allowed_methods", .ofOption .strings doc.allowedMethods),
    (lit "max_payload_size", .ofOption .int doc.maxPayloadSize),
    (lit "retention_days", .ofOption .int doc.retentionDays),
    (lit "created_at", .date doc.createdAt),
    (lit "updated_at", .date doc.updatedAt),
    (lit "_id", .objectId doc.id)]

/-- A field of `$set`, if it is set. -/
def Given.toFields {α : Type} (name : Str) (encode : α → Bson) : Given α → List (Str × Bson)
  | .absent => []
  | .null => [(name, .null)]
  | .value given => [(name, encode given)]

/-- The fields of `$set` as the driver writes them. -/
def Changes.toBson (changes : Changes) : Bson :=
  .doc (changes.name.toFields (lit "name") .str ++ changes.path.toFields (lit "path") .str ++
    changes.enabled.toFields (lit "enabled") .bool ++
    changes.authentication.toFields (lit "authentication") AuthDoc.toBson ++
    changes.secret.toFields (lit "secret") .str ++
    changes.allowedMethods.toFields (lit "allowed_methods") .strings ++
    changes.maxPayloadSize.toFields (lit "max_payload_size") .int ++
    changes.retentionDays.toFields (lit "retention_days") .int ++
    [(lit "updated_at", .date changes.updatedAt)])

/-- A field that is set to what can be written, or left, can be written. -/
theorem Given.apply_storable {α : Type} (name : Str) {encode : α → Bson} {given : Given α}
    {stored : Option α}
    (set : ∀ field ∈ given.toFields name encode, field.2.storable = true)
    (held : (Bson.ofOption encode stored).storable = true) :
    (Bson.ofOption encode (given.apply stored)).storable = true := by
  cases given with
  | absent => exact held
  | null => rfl
  | value given => exact set _ List.mem_cons_self

/-- An update that can be written leaves a document that can be written. -/
theorem Changes.apply_storable {changes : Changes} {doc : EndpointDoc}
    (set : changes.toBson.storable = true) (held : doc.toBson.storable = true) :
    (changes.apply doc).toBson.storable = true := by
  simp only [Changes.toBson, Bson.storable, Bson.storableFields_iff] at set
  simp only [EndpointDoc.toBson, Bson.storable, Bson.storableFields, Bool.and_eq_true] at held ⊢
  obtain ⟨⟨keptName, name⟩, ⟨keptPath, path⟩, ⟨keptEnabled, enabled⟩, ⟨keptAuth, auth⟩,
    ⟨keptSecret, secret⟩, ⟨keptMethods, methods⟩, ⟨keptSize, size⟩, ⟨keptDays, days⟩, rest⟩ := held
  refine ⟨⟨keptName, Given.apply_storable (lit "name") ?_ name⟩,
    ⟨keptPath, Given.apply_storable (lit "path") ?_ path⟩,
    ⟨keptEnabled, Given.apply_storable (lit "enabled") ?_ enabled⟩,
    ⟨keptAuth, Given.apply_storable (lit "authentication") ?_ auth⟩,
    ⟨keptSecret, Given.apply_storable (lit "secret") ?_ secret⟩,
    ⟨keptMethods, Given.apply_storable (lit "allowed_methods") ?_ methods⟩,
    ⟨keptSize, Given.apply_storable (lit "max_payload_size") ?_ size⟩,
    ⟨keptDays, Given.apply_storable (lit "retention_days") ?_ days⟩, rest⟩
  all_goals
    intro field member
    exact (set field (by simp [member])).2

/-- The `endpoints` collection with its index on the path. What is stored was written
by the driver. -/
structure Endpoints where
  stored : Collection EndpointDoc.id
  uniquePaths : (stored.docs.map EndpointDoc.path).Nodup
  written : ∀ doc ∈ stored.docs, doc.toBson.storable = true

namespace Endpoints

/-- The collection without endpoints. -/
def empty : Endpoints := ⟨.empty, List.nodup_nil, fun _ member => nomatch member⟩

/-- Why a write fails. -/
inductive WriteError where
  | duplicateKey
  | refused
deriving DecidableEq

/-- The changed collection, if the index on the path allows it. -/
def indexed (changed : Collection EndpointDoc.id)
    (written : ∀ doc ∈ changed.docs, doc.toBson.storable = true) : Except WriteError Endpoints :=
  if unique : (changed.docs.map EndpointDoc.path).Nodup then .ok ⟨changed, unique, written⟩
  else .error .duplicateKey

/-- `endpoints.insert_one(document)` -/
def insertOne (endpoints : Endpoints) (doc : EndpointDoc) : Except WriteError Endpoints :=
  if writable : doc.toBson.storable = true then
    match added : endpoints.stored.insert doc with
    | none => .error .duplicateKey
    | some changed =>
        indexed changed (by
          intro other member
          rcases (Collection.mem_insert added other).mp member with old | rfl
          · exact endpoints.written other old
          · exact writable)
  else .error .refused

/-- `endpoints.update_one({"_id": id}, {"$set": changes})` -/
def updateOne (endpoints : Endpoints) (id : ObjectId) (changes : Changes) :
    Except WriteError Endpoints :=
  if writable : changes.toBson.storable = true then
    indexed (endpoints.stored.updateOne id changes.apply changes.apply_id) (by
      intro other member
      obtain ⟨doc, stored, rfl⟩ := (Collection.mem_updateOne _ _ _ _ other).mp member
      split
      · exact Changes.apply_storable writable (endpoints.written doc stored)
      · exact endpoints.written doc stored)
  else .error .refused

/-- `endpoints.delete_one({"_id": id})` -/
def deleteOne (endpoints : Endpoints) (id : ObjectId) : Endpoints :=
  ⟨endpoints.stored.deleteOne id,
    (List.filter_sublist.map EndpointDoc.path).nodup endpoints.uniquePaths,
    fun doc member => endpoints.written doc (Collection.mem_deleteOne member)⟩

/-- `endpoints.find_one({"_id": id})` -/
def findId (endpoints : Endpoints) (id : ObjectId) : Option EndpointDoc :=
  endpoints.stored.find id

/-- `endpoints.find_one({"path": path})` -/
def findPath (endpoints : Endpoints) (path : Str) : Option EndpointDoc :=
  endpoints.stored.docs.find? (fun doc => decide (doc.path = some path))

/-- A change that the index allows is made. -/
theorem indexed_ok {changed : Collection EndpointDoc.id}
    {written : ∀ doc ∈ changed.docs, doc.toBson.storable = true} {made : Endpoints}
    (allowed : indexed changed written = .ok made) : made.stored = changed := by
  unfold indexed at allowed
  split at allowed
  · exact (Except.ok.inj allowed) ▸ rfl
  · cases allowed

/-- An insertion adds its document and no other. -/
theorem mem_insertOne {endpoints made : Endpoints} {doc : EndpointDoc}
    (inserted : endpoints.insertOne doc = .ok made) (stored : EndpointDoc) :
    stored ∈ made.stored.docs ↔ stored ∈ endpoints.stored.docs ∨ stored = doc := by
  unfold insertOne at inserted
  split at inserted
  · split at inserted
    · cases inserted
    · rename_i changed added
      rw [indexed_ok inserted]
      exact Collection.mem_insert added stored
  · cases inserted

/-- An update changes the documents of its identifier and no other. -/
theorem mem_updateOne {endpoints made : Endpoints} {id : ObjectId} {changes : Changes}
    (updated : endpoints.updateOne id changes = .ok made) (stored : EndpointDoc) :
    stored ∈ made.stored.docs ↔
      ∃ doc ∈ endpoints.stored.docs,
        stored = if doc.id = id then changes.apply doc else doc := by
  unfold updateOne at updated
  split at updated
  · rw [indexed_ok updated]
    exact Collection.mem_updateOne _ _ _ _ stored
  · cases updated

/-- An update changes the document under its identifier and no other. -/
theorem findId_updateOne {endpoints made : Endpoints} {id : ObjectId} {changes : Changes}
    (updated : endpoints.updateOne id changes = .ok made) (wanted : ObjectId) :
    made.findId wanted =
      if wanted = id then (endpoints.findId wanted).map changes.apply
      else endpoints.findId wanted := by
  unfold updateOne at updated
  split at updated
  · rw [findId, indexed_ok updated]
    exact Collection.find_updateOne _ _ _ _ _
  · cases updated

/-- An update that can be written succeeds exactly if no other endpoint has its path. -/
theorem updateOne_ok_iff {endpoints : Endpoints} {doc : EndpointDoc} {changes : Changes}
    (found : endpoints.findId doc.id = some doc) (writable : changes.toBson.storable = true) :
    (∃ made, endpoints.updateOne doc.id changes = .ok made) ↔
      ∀ other ∈ endpoints.stored.docs, other.id ≠ doc.id →
        other.path ≠ (changes.apply doc).path := by
  have member := (Collection.find_some found).1
  have distinct : endpoints.stored.docs.Nodup := endpoints.stored.unique.of_map
  have onlyOne : ∀ other ∈ endpoints.stored.docs, other.id = doc.id → other = doc :=
    fun other otherMember same =>
      List.inj_on_of_nodup_map endpoints.stored.unique otherMember member same
  have indexFree : (∃ made, endpoints.updateOne doc.id changes = .ok made) ↔
      (((endpoints.stored.updateOne doc.id changes.apply changes.apply_id).docs).map
        EndpointDoc.path).Nodup := by
    simp only [updateOne, writable, ↓reduceDIte, indexed]
    split
    · rename_i unique
      exact ⟨fun _ => unique, fun _ => ⟨_, rfl⟩⟩
    · rename_i repeated
      constructor
      · rintro ⟨made, allowed⟩
        cases allowed
      · exact fun unique => absurd unique repeated
  rw [indexFree, Collection.updateOne, Collection.updateMany, List.map_map,
    List.nodup_map_iff_inj_on distinct]
  simp only [Function.comp_apply, decide_eq_true_eq]
  constructor
  · intro injective other otherMember differs same
    apply differs
    refine congrArg EndpointDoc.id (injective other otherMember doc member ?_)
    rw [if_neg differs, if_pos rfl, same]
  · intro free first firstMember second secondMember same
    by_cases firstHere : first.id = doc.id
    · obtain rfl := onlyOne first firstMember firstHere
      by_cases secondHere : second.id = first.id
      · exact (onlyOne second secondMember secondHere).symm
      · rw [if_pos rfl, if_neg secondHere] at same
        exact absurd same.symm (free second secondMember secondHere)
    · by_cases secondHere : second.id = doc.id
      · obtain rfl := onlyOne second secondMember secondHere
        rw [if_neg firstHere, if_pos rfl] at same
        exact absurd same (free first firstMember firstHere)
      · rw [if_neg firstHere, if_neg secondHere] at same
        exact List.inj_on_of_nodup_map endpoints.uniquePaths firstMember secondMember same

/-- The endpoint of a path is the one of its identifier. -/
theorem findId_of_findPath {endpoints : Endpoints} {path : Str} {doc : EndpointDoc}
    (found : endpoints.findPath path = some doc) : endpoints.findId doc.id = some doc :=
  Collection.find_of_mem (List.mem_of_find?_eq_some found)

/-- A deletion adds no document. -/
theorem mem_deleteOne {endpoints : Endpoints} {id : ObjectId} {stored : EndpointDoc}
    (member : stored ∈ (endpoints.deleteOne id).stored.docs) : stored ∈ endpoints.stored.docs :=
  Collection.mem_deleteOne member

/-- A lookup by path answers exactly with the endpoint of that path. -/
theorem findPath_eq_some_iff {endpoints : Endpoints} {path : Str} {doc : EndpointDoc} :
    endpoints.findPath path = some doc ↔
      doc ∈ endpoints.stored.docs ∧ doc.path = some path := by
  constructor
  · intro found
    exact ⟨List.mem_of_find?_eq_some found, by simpa using List.find?_some found⟩
  · rintro ⟨member, located⟩
    cases found : endpoints.findPath path with
    | none =>
      have absent := List.find?_eq_none.mp found doc member
      simp [located] at absent
    | some other =>
      have same : other.path = some path := by simpa using List.find?_some found
      rw [List.inj_on_of_nodup_map endpoints.uniquePaths (List.mem_of_find?_eq_some found) member
        (same.trans located.symm)]

end Endpoints

end WebhookInbox.Endpoint
