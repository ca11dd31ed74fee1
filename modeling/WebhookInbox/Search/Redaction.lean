import WebhookInbox.Search.Tokenize

/-!
# Sensitive values and the search index

Masking blanks out what stands under a sensitive key, at any depth of a body and in
the values of pairs, and keeps every key in its place. Two inputs agree outside the
sensitive keys exactly if they are equal once masked.

The sources of the terms are the same before and after masking, so whatever is done
with the sources afterwards, the cap included, does not depend on what was blanked.
-/

namespace WebhookInbox.Tokenize

open Library

section
variable (casing : Casing)

mutual

/-- The body with every value under a sensitive key blanked out. -/
def masked : Json → Json
  | .obj members => .obj (maskedMembers members)
  | .arr items => .arr (maskedItems items)
  | .null => .null
  | .bool value => .bool value
  | .int value => .int value
  | .float value => .float value
  | .str value => .str value

def maskedItems : List Json → List Json
  | [] => []
  | item :: rest => masked item :: maskedItems rest

def maskedMembers : List (Str × Json) → List (Str × Json)
  | [] => []
  | (key, value) :: rest =>
      (key, if isSensitive casing key then .null else masked value) :: maskedMembers rest

end

/-- The pairs with every value under a sensitive key blanked out. -/
def maskedPairs (pairs : Dict Str Str) : Dict Str Str :=
  pairs.map (fun pair => (pair.1, if isSensitive casing pair.1 then [] else pair.2))

end

variable (runtime : Runtime)

mutual

/-- Nothing that is masked is collected.

Induction on the value; the members under a sensitive key are skipped either way. -/
theorem collect_masked : (value : Json) →
    collect runtime (masked runtime.casing value) = collect runtime value
  | .obj members => collectMembers_masked members
  | .arr items => collectItems_masked items
  | .null => rfl
  | .bool _ => rfl
  | .int _ => rfl
  | .float _ => rfl
  | .str _ => rfl

theorem collectItems_masked : (items : List Json) →
    collectItems runtime (maskedItems runtime.casing items) = collectItems runtime items
  | [] => rfl
  | item :: rest => by
      simp only [maskedItems, collectItems, collect_masked item, collectItems_masked rest]

theorem collectMembers_masked : (members : List (Str × Json)) →
    collectMembers runtime (maskedMembers runtime.casing members) = collectMembers runtime members
  | [] => rfl
  | (key, value) :: rest => by
      by_cases sensitive : isSensitive runtime.casing key = true
      · simp only [maskedMembers, collectMembers, sensitive, ↓reduceIte,
          collectMembers_masked rest]
      · simp only [maskedMembers, collectMembers, sensitive, Bool.false_eq_true, ↓reduceIte,
          collect_masked value, collectMembers_masked rest]

end

/-- The sources of masked pairs are those of the pairs. -/
theorem pairStrings_masked (pairs : Dict Str Str) :
    pairStrings runtime (maskedPairs runtime.casing pairs) = pairStrings runtime pairs := by
  induction pairs with
  | nil => rfl
  | cons first rest inductionHypothesis =>
    simp only [pairStrings, maskedPairs, List.map_cons, List.flatMap_cons] at inductionHypothesis ⊢
    rw [inductionHypothesis]
    by_cases sensitive : isSensitive runtime.casing first.1 = true
    · simp only [sensitive, ↓reduceIte]
    · simp only [sensitive, Bool.false_eq_true, ↓reduceIte]

/-- The sources of the terms do not depend on what is masked. -/
theorem sourceStrings_masked (endpointName : Str) (eventType : Option Str)
    (headers query : Dict Str Str) (body : Json) :
    sourceStrings runtime endpointName eventType (maskedPairs runtime.casing headers)
        (maskedPairs runtime.casing query) (masked runtime.casing body) =
      sourceStrings runtime endpointName eventType headers query body := by
  simp only [sourceStrings, pairStrings_masked, collect_masked]

/-- Sensitive values never reach the index: requests that agree outside the sensitive
keys have the same tokens and the same trigrams, also where the caps cut.

Proof: both inputs have the sources of their masked form, and the terms are computed
from the sources. -/
theorem build_insensitive (endpointName : Str) (eventType : Option Str)
    {headers otherHeaders query otherQuery : Dict Str Str} {body otherBody : Json}
    (sameHeaders : maskedPairs runtime.casing headers = maskedPairs runtime.casing otherHeaders)
    (sameQuery : maskedPairs runtime.casing query = maskedPairs runtime.casing otherQuery)
    (sameBody : masked runtime.casing body = masked runtime.casing otherBody) :
    build runtime endpointName eventType headers query body =
      build runtime endpointName eventType otherHeaders otherQuery otherBody := by
  have sources : sourceStrings runtime endpointName eventType headers query body =
      sourceStrings runtime endpointName eventType otherHeaders otherQuery otherBody := by
    rw [← sourceStrings_masked runtime endpointName eventType headers query body, sameHeaders,
      sameQuery, sameBody, sourceStrings_masked]
  simp only [build, sources]

/-- Floats all have the same text here; no example contains one. -/
def plainRuntime : Runtime := ⟨Casing.ascii, fun _ => [], fun _ _ member => by cases member⟩

/-- A body with a key and a value next to it. -/
def keyedBody (key : Json) : Json :=
  .obj [(lit "items", .arr [.obj [(lit "Api_Key", key), (lit "safe", .str (lit "visible"))]])]

/-- Two requests with different credentials, one of them a whole object. -/
theorem build_insensitive_credentials :
    build plainRuntime (lit "stripe") none [(lit "authorization", lit "Bearer one")] []
        (keyedBody (.str (lit "sk_live"))) =
      build plainRuntime (lit "stripe") none [(lit "authorization", lit "Bearer two")] []
        (keyedBody (.obj [(lit "id", .int 7)])) :=
  build_insensitive plainRuntime (lit "stripe") none (by decide +kernel) (by decide +kernel) rfl

end WebhookInbox.Tokenize
