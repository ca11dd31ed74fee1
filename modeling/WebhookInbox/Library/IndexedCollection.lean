import WebhookInbox.Library.Collection

/-!
# A collection with a unique index

Besides its key, every document has an indexed value that no other document has. An
insertion that would break the index is refused like one under a taken key. Changes
that keep the key and the indexed value, and deletions, keep the index.
-/

namespace Library

universe u v w

/-- Documents with unique keys and unique indexed values. -/
structure IndexedCollection {δ : Type u} {κ : Type v} {ι : Type w} (key : δ → κ)
    (index : δ → ι) where
  stored : Collection key
  unique : (stored.docs.map index).Nodup

namespace IndexedCollection

variable {δ : Type u} {κ : Type v} {ι : Type w} {key : δ → κ} {index : δ → ι}

/-- The documents in natural order. -/
def docs (collection : IndexedCollection key index) : List δ := collection.stored.docs

/-- The collection without documents. -/
def empty : IndexedCollection key index := ⟨.empty, List.nodup_nil⟩

/-- The number of documents. -/
def count (collection : IndexedCollection key index) : Nat := collection.docs.length

/-- Remove every document that the filter selects. -/
def deleteMany (collection : IndexedCollection key index) (selects : δ → Bool) :
    IndexedCollection key index :=
  ⟨⟨collection.docs.filter (fun doc => !selects doc),
    (List.filter_sublist.map key).nodup collection.stored.unique⟩,
    (List.filter_sublist.map index).nodup collection.unique⟩

/-- A deletion leaves the documents that are not selected. -/
theorem mem_deleteMany {collection : IndexedCollection key index} {selects : δ → Bool} {doc : δ} :
    doc ∈ (collection.deleteMany selects).docs ↔ doc ∈ collection.docs ∧ selects doc = false := by
  simp [deleteMany, docs]

section
variable [DecidableEq κ]

/-- The document under a key. -/
def find (collection : IndexedCollection key index) (wanted : κ) : Option δ :=
  collection.stored.find wanted

/-- Change the document under one key, if it is there. -/
def updateOne (collection : IndexedCollection key index) (wanted : κ) (change : δ → δ)
    (keepsKey : ∀ doc, key (change doc) = key doc)
    (keepsIndex : ∀ doc, index (change doc) = index doc) : IndexedCollection key index :=
  ⟨collection.stored.updateOne wanted change keepsKey, by
    have same : (collection.stored.updateOne wanted change keepsKey).docs.map index =
        collection.docs.map index := by
      rw [Collection.updateOne, Collection.updateMany, List.map_map, docs]
      apply List.map_congr_left
      intro doc _
      by_cases selected : key doc = wanted <;> simp [selected, keepsIndex]
    rw [same]
    exact collection.unique⟩

/-- Remove the document under one key, if it is there. -/
def deleteOne (collection : IndexedCollection key index) (wanted : κ) :
    IndexedCollection key index :=
  collection.deleteMany (fun doc => decide (key doc = wanted))

/-- A found key is stored. -/
theorem find_isSome {collection : IndexedCollection key index} {wanted : κ} :
    (collection.find wanted).isSome = true ↔ ∃ doc ∈ collection.docs, key doc = wanted := by
  simp [find, Collection.find, docs]

/-- An update leaves as many documents as there were. -/
theorem count_updateOne (collection : IndexedCollection key index) (wanted : κ) (change : δ → δ)
    (keepsKey : ∀ doc, key (change doc) = key doc)
    (keepsIndex : ∀ doc, index (change doc) = index doc) :
    (collection.updateOne wanted change keepsKey keepsIndex).count = collection.count := by
  simp [updateOne, Collection.updateOne, Collection.updateMany, count, docs]

/-- At most one document has the key. -/
theorem countP_key (collection : IndexedCollection key index) (wanted : κ) :
    collection.docs.countP (fun doc => decide (key doc = wanted)) =
      if (collection.find wanted).isSome then 1 else 0 := by
  have once : (collection.stored.docs.map key).count wanted =
      if wanted ∈ collection.stored.docs.map key then 1 else 0 := collection.stored.unique.count
  have same : (collection.stored.docs.map key).count wanted =
      collection.docs.countP (fun doc => decide (key doc = wanted)) := by
    rw [List.count, List.countP_map]
    rfl
  rw [← same, once]
  simp only [find_isSome, List.mem_map, docs]

/-- A deletion by key removes at most one document, which it finds there. -/
theorem count_deleteOne (collection : IndexedCollection key index) (wanted : κ) :
    (collection.deleteOne wanted).count + (if (collection.find wanted).isSome then 1 else 0) =
      collection.count := by
  have parts : collection.docs.length =
      collection.docs.countP (fun doc => decide (key doc = wanted)) +
        collection.docs.countP (fun doc => !decide (key doc = wanted)) := by
    rw [List.length_eq_countP_add_countP (fun doc => decide (key doc = wanted))]
    simp
  have left : (collection.deleteOne wanted).count =
      collection.docs.countP (fun doc => !decide (key doc = wanted)) :=
    List.countP_eq_length_filter.symm
  rw [← countP_key, left, count, parts, Nat.add_comm]

end

section
variable [DecidableEq ι]

/-- The document with an indexed value. -/
def lookup (collection : IndexedCollection key index) (wanted : ι) : Option δ :=
  collection.docs.find? (fun doc => decide (index doc = wanted))

/-- A document that is found by the index is stored, and has the value. -/
theorem lookup_some {collection : IndexedCollection key index} {wanted : ι} {doc : δ}
    (found : collection.lookup wanted = some doc) : doc ∈ collection.docs ∧ index doc = wanted :=
  ⟨List.mem_of_find?_eq_some found, by simpa using List.find?_some found⟩

variable [DecidableEq κ]

/-- Insertion refuses a key or an indexed value that is taken. -/
def insert (collection : IndexedCollection key index) (doc : δ) :
    Option (IndexedCollection key index) :=
  match collection.stored.insert doc with
  | none => none
  | some grown =>
      if unique : (grown.docs.map index).Nodup then some ⟨grown, unique⟩ else none

/-- An insertion adds its document and no other. -/
theorem mem_insert {collection grown : IndexedCollection key index} {doc : δ}
    (inserted : collection.insert doc = some grown) (other : δ) :
    other ∈ grown.docs ↔ other ∈ collection.docs ∨ other = doc := by
  unfold insert at inserted
  split at inserted
  · cases inserted
  · rename_i changed added
    split at inserted
    · obtain rfl := Option.some.inj inserted
      exact Collection.mem_insert added other
    · cases inserted

end

end IndexedCollection

end Library
