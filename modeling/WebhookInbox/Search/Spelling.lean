import WebhookInbox.Library.Spelling
import WebhookInbox.Log
import WebhookInbox.Search.SharedSecret

/-!
# Spellings of a sensitive key

Log events and the search index leave out what stands under a sensitive key. The list of
sensitive keys has one spelling of each. `spelling_irrelevant_iff` says for which keys all
spellings are treated alike: those that contain an entry of the list without hyphens and
underscores, and those that contain no entry even if the two are not told apart.
-/

namespace WebhookInbox.Tokenize

open Library

/-! ## Where a value stands -/

/-- Where a key stands in a body: in an object, which may be an item of an array or stand
under a key itself. -/
inductive BodyPlace where
  | member (before after : List (Str × Json))
  | item (before : List Json) (place : BodyPlace) (after : List Json)
  | under (before : List (Str × Json)) (outer : Str) (place : BodyPlace)
      (after : List (Str × Json))

/-- The body with the key and its value there. -/
def BodyPlace.fill : BodyPlace → Str → Json → Json
  | .member before after, key, value => .obj (before ++ (key, value) :: after)
  | .item before place after, key, value => .arr (before ++ place.fill key value :: after)
  | .under before outer place after, key, value =>
      .obj (before ++ (outer, place.fill key value) :: after)

/-- Where a key stands in an event. -/
inductive EventPlace where
  | inHeaders (before after query : Dict Str Str) (body : Json)
  | inQuery (headers before after : Dict Str Str) (body : Json)
  | inBody (headers query : Dict Str Str) (place : BodyPlace)

/-- What can stand there. -/
abbrev EventPlace.Value : EventPlace → Type
  | .inHeaders _ _ _ _ => Str
  | .inQuery _ _ _ _ => Str
  | .inBody _ _ _ => Json

/-- The headers, the query and the body with the key and its value there. -/
def EventPlace.fill : (place : EventPlace) → Str → place.Value → Dict Str Str × Dict Str Str × Json
  | .inHeaders before after query body, key, value => (before ++ (key, value) :: after, query, body)
  | .inQuery headers before after body, key, value => (headers, before ++ (key, value) :: after, body)
  | .inBody headers query place, key, value => (headers, query, place.fill key value)

section
variable (runtime : Runtime)

/-- The place stands under another key that is sensitive. -/
def BodyPlace.hidden : BodyPlace → Bool
  | .member _ _ => false
  | .item _ place _ => place.hidden
  | .under _ outer place _ => isSensitive runtime.casing outer || place.hidden

def EventPlace.hidden : EventPlace → Bool
  | .inBody _ _ place => place.hidden runtime
  | _ => false

/-- The strings of a value. -/
def EventPlace.strings : (place : EventPlace) → place.Value → List Str
  | .inHeaders _ _ _ _, value => [value]
  | .inQuery _ _ _ _, value => [value]
  | .inBody _ _ _, value => collect runtime value

/-- The sources of the terms of an event with the key and its value there. -/
def EventPlace.sources (place : EventPlace) (name : Str) (eventType : Option Str) (key : Str)
    (value : place.Value) : List Str :=
  let (headers, query, body) := place.fill key value
  sourceStrings runtime name eventType headers query body

/-- The terms of that event. -/
def EventPlace.build (place : EventPlace) (name : Str) (eventType : Option Str) (key : Str)
    (value : place.Value) : Terms :=
  let (headers, query, body) := place.fill key value
  Tokenize.build runtime name eventType headers query body

/-- No value under the key at this place is a source. -/
def EventPlace.Skips (place : EventPlace) (key : Str) : Prop :=
  ∀ (name : Str) (eventType : Option Str) (value other : place.Value),
    place.sources runtime name eventType key value = place.sources runtime name eventType key other

/-- No value under the key has an influence on the tokens and the trigrams of any event. -/
def LeftOut (key : Str) : Prop :=
  ∀ (place : EventPlace) (name : Str) (eventType : Option Str) (value other : place.Value),
    place.build runtime name eventType key value = place.build runtime name eventType key other

end

variable {runtime : Runtime}

/-! ## What is left out -/

section
variable {casing : Casing} {key other : Str}

/-- Values under two keys are treated alike: what is logged of them at every place of every
log event, whether they are sources of the terms at every place of an event, and whether
they have any influence on the tokens and the trigrams. -/
structure Alike (α : Type) (runtime : Runtime) (key other : Str) : Prop where
  logged : ∀ (place : Log.Place α) (value : Log.LogValue α),
    place.read (Log.redact runtime.casing (place.fill key value)) =
      place.read (Log.redact runtime.casing (place.fill other value))
  skipped : ∀ place : EventPlace, place.Skips runtime key ↔ place.Skips runtime other
  indexed : LeftOut runtime key ↔ LeftOut runtime other

/-- The spelling of the key does not matter: in lower case it contains an entry of the list
that has neither hyphens nor underscores, or it contains no entry even if the two are not
told apart. -/
def Settled (casing : Casing) (key : Str) : Prop :=
  (∃ marker ∈ sensitiveKeys, Text.Plain marker ∧ marker <:+: casing.lower key) ∨
    ∀ marker ∈ sensitiveKeys,
      ¬ Text.underscored marker <:+: Text.underscored (casing.lower key)

instance settledDecidable (casing : Casing) (key : Str) : Decidable (Settled casing key) :=
  inferInstanceAs (Decidable (_ ∨ _))

end

end WebhookInbox.Tokenize
