import WebhookInbox.Library.Bson

/-!
# Selecting documents

A filter lists conditions on the values that dotted paths lead to. A path looks into the
elements of an array on its way, and a condition on an array also holds if it holds of an
element.

Of the patterns for texts only those are read that fix the start of the text. This is what
escaping a text for use in a pattern relies on: `startOf_escape` says that the escaped text
is such a start.
-/

namespace Library.Documents

open Calendar

/-! ## Patterns -/

def backslash : CodePoint := 0x5C

def caret : CodePoint := 0x5E

/-- The characters that `re.escape` puts a backslash before. -/
def specials : Str := lit "()[]\x7b\x7d?*+-|^$\\.&~# \t\n\r\x0b\x0c"

/-- The characters that mean something in a pattern. -/
def metacharacters : Str := lit "()[\x7b?*+|^$\\."

/-- A letter or digit of ASCII, which a backslash turns into something else. -/
def isAlphanumeric (point : CodePoint) : Bool :=
  decide ((0x30 ≤ point.val ∧ point.val ≤ 0x39) ∨ (0x41 ≤ point.val ∧ point.val ≤ 0x5A) ∨
    (0x61 ≤ point.val ∧ point.val ≤ 0x7A))

/-- `re.escape(text)` -/
def escape (text : Str) : Str :=
  text.flatMap (fun point => if point ∈ specials then [backslash, point] else [point])

/-- The text that a pattern without operators matches. A backslash takes the meaning from
the character after it. -/
def literalOf : Str → Option Str
  | [] => some []
  | [point] => if point = backslash ∨ point ∈ metacharacters then none else some [point]
  | first :: second :: rest =>
      if first = backslash then
        if isAlphanumeric second then none
        else (literalOf rest).map (fun later => second :: later)
      else if first ∈ metacharacters then none
      else (literalOf (second :: rest)).map (fun later => first :: later)

/-- The start that a pattern fixes, missing for other patterns. -/
def startOf : Str → Option Str
  | [] => none
  | first :: rest => if first = caret then literalOf rest else none

/-- A character without a meaning stands for itself. -/
theorem literalOf_cons {point : CodePoint} (plain : point ≠ backslash)
    (meaningless : point ∉ metacharacters) (rest : Str) :
    literalOf (point :: rest) = (literalOf rest).map (fun later => point :: later) := by
  cases rest with
  | nil => simp [literalOf, plain, meaningless]
  | cons next later => simp [literalOf, plain, meaningless]

/-- An escaped text is a pattern for that text alone. -/
theorem literalOf_escape (text : Str) : literalOf (escape text) = some text := by
  have escaped : ∀ point ∈ specials, (!isAlphanumeric point) = true :=
    List.all_eq_true.mp (by decide)
  have covered : ∀ point ∈ metacharacters, decide (point ∈ specials) = true :=
    List.all_eq_true.mp (by decide)
  have special : backslash ∈ specials := by decide
  induction text with
  | nil => rfl
  | cons point rest inductionHypothesis =>
    have later : literalOf (List.flatMap (fun point =>
        if point ∈ specials then [backslash, point] else [point]) rest) = some rest :=
      inductionHypothesis
    rw [escape, List.flatMap_cons]
    by_cases meaning : point ∈ specials
    · rw [if_pos meaning, List.cons_append, List.cons_append, List.nil_append, literalOf,
        if_pos rfl, if_neg (by simpa using escaped point meaning), later]
      rfl
    · have plain : point ≠ backslash := by
        rintro rfl
        exact meaning special
      rw [if_neg meaning, List.singleton_append,
        literalOf_cons plain (fun operator => meaning (of_decide_eq_true (covered point operator))),
        later]
      rfl

/-- Escaped behind a caret it is the start that the pattern fixes. -/
theorem startOf_escape (text : Str) : startOf (caret :: escape text) = some text := by
  rw [startOf, if_pos rfl, literalOf_escape]

/-! ## Paths -/

/-- The values of a field of a document, or of the documents in an array. -/
def step (name : Str) : Bson → List Bson
  | .doc fields => (Dict.get fields name).toList
  | .arr items => items.flatMap (fun item => (item.field name).toList)
  | _ => []

/-- The values that a path leads to. -/
def reached : List Str → Bson → List Bson
  | [], value => [value]
  | name :: rest, value => (step name value).flatMap (reached rest)

/-- A value and, if it is an array, its elements. -/
def alternatives : Bson → List Bson
  | .arr items => .arr items :: items
  | value => [value]

/-! ## Conditions -/

/-- The value is this text. -/
def isText (text : Str) : Bson → Bool
  | .str value => decide (value = text)
  | _ => false

/-- A condition of a filter: equality with a text or an identifier, `$gte` and `$lt` with
dates, `$regex`, `$all` and `$in` with texts. -/
inductive Condition where
  | text (value : Str)
  | id (value : ObjectId)
  | since (least : Millis)
  | before (bound : Millis)
  | pattern (written : Str)
  | all (texts : List Str)
  | oneOf (texts : List Str)

/-- The condition holds of the values that were reached. -/
def Condition.holds (values : List Bson) : Condition → Bool
  | .text value => values.any (isText value)
  | .id wanted => values.any (fun | .objectId value => decide (value = wanted) | _ => false)
  | .since least => values.any (fun | .date value => decide (least ≤ value) | _ => false)
  | .before bound => values.any (fun | .date value => decide (value < bound) | _ => false)
  | .pattern written =>
      match startOf written with
      | none => false
      | some start => values.any (fun | .str value => Text.startsWith value start | _ => false)
  | .all texts => !texts.isEmpty && texts.all (fun text => values.any (isText text))
  | .oneOf texts => texts.any (fun text => values.any (isText text))

/-- A condition on what a path leads to. -/
structure Clause where
  path : List Str
  condition : Condition

/-- The clause holds of a document. -/
def Clause.holds (clause : Clause) (document : Bson) : Bool :=
  clause.condition.holds ((reached clause.path document).flatMap alternatives)

/-- A filter: its clauses hold, and with an `$or` one of these does. -/
structure Filter where
  clauses : List Clause
  either : Option (List Clause)

/-- `{"$match": filter}` or `find(filter)` on one document. -/
def Filter.selects (filter : Filter) (document : Bson) : Bool :=
  filter.clauses.all (fun clause => clause.holds document) &&
    filter.either.all (fun clauses => clauses.any (fun clause => clause.holds document))

/-! ## Arrays of texts -/

section
variable {path : List Str} {document : Bson} {texts : Option (List Str)}

/-- Where a path leads to an array of texts or nowhere, a condition is tested on the texts. -/
theorem any_isText (leads : reached path document = (texts.map Bson.strings).toList)
    (text : Str) :
    ((reached path document).flatMap alternatives).any (isText text) = true ↔
      text ∈ texts.getD [] := by
  rw [leads]
  cases texts with
  | none => simp
  | some texts => simp [alternatives, Bson.strings, isText]

/-- Equality holds if the text is there. -/
theorem holds_text (leads : reached path document = (texts.map Bson.strings).toList) (text : Str) :
    Clause.holds ⟨path, .text text⟩ document = true ↔ text ∈ texts.getD [] :=
  any_isText leads text

/-- `$all` holds if all texts are there, and there are some. -/
theorem holds_all (leads : reached path document = (texts.map Bson.strings).toList)
    (wanted : List Str) :
    Clause.holds ⟨path, .all wanted⟩ document = true ↔
      wanted ≠ [] ∧ ∀ text ∈ wanted, text ∈ texts.getD [] := by
  simp only [Clause.holds, Condition.holds, Bool.and_eq_true, Bool.not_eq_true',
    List.isEmpty_eq_false_iff, List.all_eq_true, any_isText leads, ne_eq]

/-- `$in` holds if one of the texts is there. -/
theorem holds_oneOf (leads : reached path document = (texts.map Bson.strings).toList)
    (wanted : List Str) :
    Clause.holds ⟨path, .oneOf wanted⟩ document = true ↔
      ∃ text ∈ wanted, text ∈ texts.getD [] := by
  simp only [Clause.holds, Condition.holds, List.any_eq_true, any_isText leads]

/-- An escaped text behind a caret holds if a text starts with it. -/
theorem holds_escape (leads : reached path document = (texts.map Bson.strings).toList)
    (start : Str) :
    Clause.holds ⟨path, .pattern (caret :: escape start)⟩ document = true ↔
      ∃ text ∈ texts.getD [], start <+: text := by
  simp only [Clause.holds, Condition.holds, startOf_escape, leads]
  cases texts with
  | none => simp
  | some texts => simp [alternatives, Bson.strings]

end

end Library.Documents
