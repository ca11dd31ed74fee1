import WebhookInbox.Library.Calendar
import WebhookInbox.Library.Dict
import WebhookInbox.Library.Json
import WebhookInbox.Library.ObjectId

/-!
# Documents and what the driver can write

A document is a tree of named fields. The driver refuses to write one that holds
an integer outside 64 bits, a text with a lone surrogate, or a field name with a
lone surrogate or a NUL. `storable` is that test.
-/

namespace Library

open Calendar

inductive Bson where
  | null
  | bool (value : Bool)
  | int (value : Int)
  | double (value : PyFloat)
  | str (value : Str)
  | date (value : Millis)
  | objectId (value : ObjectId)
  | arr (items : List Bson)
  | doc (fields : List (Str × Bson))

namespace Bson

/-- A signed integer of 64 bits. -/
def fitsInt64 (value : Int) : Bool := decide (-2 ^ 63 ≤ value ∧ value < 2 ^ 63)

/-- A text that can be written as UTF-8. -/
def writable (text : Str) : Bool := decide (Text.Scalar text)

/-- A field name ends at its first NUL, so it can hold none. -/
def nameable (key : Str) : Bool := writable key && key.all (fun point => decide (point.val ≠ 0))

mutual

/-- The driver can write the value. -/
def storable : Bson → Bool
  | .int value => fitsInt64 value
  | .str value => writable value
  | .arr items => storableItems items
  | .doc fields => storableFields fields
  | .null => true
  | .bool _ => true
  | .double _ => true
  | .date _ => true
  | .objectId _ => true

def storableItems : List Bson → Bool
  | [] => true
  | item :: rest => storable item && storableItems rest

def storableFields : List (Str × Bson) → Bool
  | [] => true
  | (key, value) :: rest => nameable key && storable value && storableFields rest

end

/-- The value of a field of a document. -/
def field (name : Str) : Bson → Option Bson
  | .doc fields => Dict.get fields name
  | _ => none

/-- `bool(value)` for a value that was read. -/
def truthy : Bson → Bool
  | .null => false
  | .bool value => value
  | .int value => decide (value ≠ 0)
  | .double value => decide (value.bits ≠ 0 ∧ value.bits ≠ 0x8000000000000000)
  | .str value => decide (value ≠ [])
  | .date _ => true
  | .objectId _ => true
  | .arr items => !items.isEmpty
  | .doc fields => !fields.isEmpty

/-- A value that may be missing. -/
def ofOption {α : Type} (encode : α → Bson) (value : Option α) : Bson :=
  (value.map encode).getD .null

/-- A list of texts. -/
def strings (texts : List Str) : Bson := .arr (texts.map .str)

/-- A name has no lone surrogate and no NUL. -/
theorem nameable_iff (key : Str) :
    nameable key = true ↔ ∀ point ∈ key, point.isSurrogate = false ∧ point.val ≠ 0 := by
  simp only [nameable, writable, Bool.and_eq_true, decide_eq_true_eq, List.all_eq_true]
  constructor
  · rintro ⟨scalar, noNul⟩ point member
    exact ⟨scalar point member, noNul point member⟩
  · intro both
    exact ⟨fun point member => (both point member).1, fun point member => (both point member).2⟩

/-- The driver can write a list exactly if it can write each item. -/
theorem storableItems_iff (items : List Bson) :
    storableItems items = true ↔ ∀ item ∈ items, storable item = true := by
  induction items with
  | nil => simp [storableItems]
  | cons item rest inductionHypothesis => simp [storableItems, inductionHypothesis]

/-- The driver can write fields exactly if it can write each name and value. -/
theorem storableFields_iff (fields : List (Str × Bson)) :
    storableFields fields = true ↔
      ∀ field ∈ fields, nameable field.1 = true ∧ storable field.2 = true := by
  induction fields with
  | nil => simp [storableFields]
  | cons field rest inductionHypothesis =>
    simp [storableFields, inductionHypothesis, and_assoc]

/-- Fields can be written exactly if both parts of them can. -/
theorem storableFields_append (first second : List (Str × Bson)) :
    storableFields (first ++ second) = true ↔
      storableFields first = true ∧ storableFields second = true := by
  simp only [storableFields_iff, List.forall_mem_append]

theorem storableFields_nil : storableFields [] = true := rfl

/-- A field whose name is fixed can be written if its value can. -/
theorem storableFields_cons {name : Str} (named : nameable name = true) (value : Bson)
    (rest : List (Str × Bson)) :
    storableFields ((name, value) :: rest) = true ↔
      storable value = true ∧ storableFields rest = true := by
  simp [storableFields, named]

/-- A text can be written exactly if it has no lone surrogate. -/
theorem storable_str (text : Str) : storable (.str text) = true ↔ Text.Scalar text := by
  simp [storable, writable]

/-- So can each of several texts. -/
theorem storable_strings (texts : List Str) :
    storable (strings texts) = true ↔ ∀ text ∈ texts, Text.Scalar text := by
  simp only [strings, storable, storableItems_iff, List.forall_mem_map, writable,
    decide_eq_true_eq]

/-- So can a text that may be missing. -/
theorem storable_ofOption (text : Option Str) :
    storable (ofOption .str text) = true ↔ ∀ value ∈ text, Text.Scalar value := by
  cases text with
  | none => simp [ofOption, storable]
  | some text => simp [ofOption, storable_str]

end Bson

end Library
