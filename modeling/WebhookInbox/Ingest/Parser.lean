import WebhookInbox.Library.Base64
import WebhookInbox.Library.Forms
import WebhookInbox.Library.JsonGrammar

/-!
# Parsing a payload

The structured representation of a body, the text that its bytes are kept as,
and the substitution of keys that the database restricts. Values are `Json`;
Python's `None` is `null`, both as a JSON value and as the absence of one.
-/

namespace WebhookInbox.Parser

open Library

/-- The interpreter's part: case conversion, and the JSON reader. -/
structure Runtime where
  casing : Casing
  reader : Json.Reader

/-- `DOT`, a lookalike of the full stop. -/
def dot : CodePoint := 0xFF0E

/-- `DOLLAR`, a lookalike of the dollar sign. -/
def dollar : CodePoint := 0xFF04

def eventTypeHeaders : List Str :=
  [lit "x-webhook-event", lit "x-github-event", lit "x-event-name", lit "x-event-type"]

def eventTypeFields : List Str := [lit "event", lit "type", lit "event_type", lit "eventType"]

/-- Replace every full stop, and a dollar sign at the start. -/
def escapeKey (key : Str) : Str :=
  match Text.replaceChar 0x2E dot key with
  | [] => []
  | first :: rest => if first = 0x24 then dollar :: rest else first :: rest

mutual

/-- `escape_keys(value)`. Keys that become equal are assigned in order. -/
def escapeKeys : Json → Json
  | .obj members => .obj (Dict.ofPairs (escapeMembers members))
  | .arr items => .arr (escapeItems items)
  | .null => .null
  | .bool value => .bool value
  | .int value => .int value
  | .float value => .float value
  | .str value => .str value

def escapeItems : List Json → List Json
  | [] => []
  | item :: rest => escapeKeys item :: escapeItems rest

def escapeMembers : List (Str × Json) → List (Str × Json)
  | [] => []
  | (key, value) :: rest => (escapeKey key, escapeKeys value) :: escapeMembers rest

end

/-- How the bytes of a body are kept: as their text, or in base64. -/
inductive RawEncoding where
  | utf8
  | base64
deriving DecidableEq

/-- `decode_raw(raw)` -/
def decodeRaw (raw : Bytes) : Str × RawEncoding :=
  match Encoding.decodeUtf8 false raw with
  | some text => (text, .utf8)
  | none => (Base64.encode raw, .base64)

/-! ## The depth guard -/

/-- The variables of the scan in `nesting_depth`. -/
structure Scan where
  depth : Int
  maximum : Int
  inString : Bool
  escaped : Bool
deriving DecidableEq

def Scan.start : Scan := ⟨0, 0, false, false⟩

/-- The body of the loop. -/
def Scan.feed (scan : Scan) (unit : Nat) : Scan :=
  if scan.inString then
    if scan.escaped then { scan with escaped := false }
    else if unit = 0x5C then { scan with escaped := true }
    else if unit = 0x22 then { scan with inString := false }
    else scan
  else if unit = 0x22 then { scan with inString := true }
  else if unit = 0x7B ∨ unit = 0x5B then
    { scan with depth := scan.depth + 1, maximum := max scan.maximum (scan.depth + 1) }
  else if unit = 0x7D ∨ unit = 0x5D then { scan with depth := scan.depth - 1 }
  else scan

/-- `nesting_depth(raw)` -/
def nestingDepth (raw : Bytes) : Int :=
  (raw.foldl (fun scan byte => scan.feed byte.toNat) Scan.start).maximum

/-! ## The body -/

section
variable (runtime : Runtime)

/-- The media type of a content type: what precedes its parameters. -/
def mediaType (contentType : Str) : Str :=
  runtime.casing.lower (Text.strip (Text.beforeChar 0x3B contentType))

/-- The media types that are parsed as JSON. -/
def isJson (media : Str) : Bool :=
  decide (media = lit "application/json") || Text.endsWith media (lit "+json")

/-- The value of a form: a name with one value has that value, others a list. -/
def formBody (fields : Dict Str (List Str)) : Json :=
  .obj (fields.map (fun field =>
    (field.1, match field.2 with
      | [single] => .str single
      | several => .arr (several.map .str))))

/-- `parse_body(raw, content_type, max_depth)`. An error is one that is not
caught: the digit limit of integers. -/
def parseBody (raw : Bytes) (contentType : Str) (maxDepth : Int) : Except Json.LoadsError Json :=
  let media := mediaType runtime contentType
  if raw = [] then .ok .null
  else if isJson media then
    if maxDepth < nestingDepth raw then .ok .null
    else
      match Json.loads runtime.reader raw with
      | .ok value => .ok value
      | .error .jsonDecodeError | .error .unicodeDecodeError | .error .recursionError => .ok .null
      | .error error => .error error
  else if media = lit "application/x-www-form-urlencoded" then
    match Encoding.decodeUtf8 false raw with
    | none => .ok .null
    | some text => .ok (formBody (Forms.parseQs text))
  else if Text.startsWith media (lit "text/") then
    match Encoding.decodeUtf8 false raw with
    | none => .ok .null
    | some text => .ok (.str text)
  else .ok .null

end

/-- A parsed body is nothing, the value of a JSON text that passed the guard, a form or a
text. -/
theorem parseBody_ok {runtime : Runtime} {raw : Bytes} {contentType : Str} {maxDepth : Int}
    {body : Json} (parsed : parseBody runtime raw contentType maxDepth = .ok body) :
    body = .null ∨
      (isJson (mediaType runtime contentType) = true ∧ nestingDepth raw ≤ maxDepth ∧
        Json.loads runtime.reader raw = .ok body) ∨
      (isJson (mediaType runtime contentType) = false ∧
        ((∃ text, body = formBody (Forms.parseQs text)) ∨ ∃ text, body = .str text)) := by
  have nothing : ∀ {result : Except Json.LoadsError Json}, result = .ok .null → result = .ok body →
      body = .null := by
    intro result null same
    exact Except.ok.inj (same.symm.trans null)
  unfold parseBody at parsed
  dsimp only at parsed
  split at parsed
  · exact .inl (nothing rfl parsed)
  · split at parsed
    · rename_i json
      split at parsed
      · exact .inl (nothing rfl parsed)
      · rename_i passed
        cases loaded : Json.loads runtime.reader raw with
        | ok value =>
          rw [loaded] at parsed
          exact .inr (.inl ⟨json, not_lt.mp passed, parsed⟩)
        | error error =>
          rw [loaded] at parsed
          cases error with
          | jsonDecodeError => exact .inl (nothing rfl parsed)
          | unicodeDecodeError => exact .inl (nothing rfl parsed)
          | recursionError => exact .inl (nothing rfl parsed)
          | valueError => cases parsed
          | exhausted => cases parsed
    · rename_i json
      rw [Bool.not_eq_true] at json
      split at parsed
      · split at parsed
        · exact .inl (nothing rfl parsed)
        · exact .inr (.inr ⟨json, .inl ⟨_, (Except.ok.inj parsed).symm⟩⟩)
      · split at parsed
        · split at parsed
          · exact .inl (nothing rfl parsed)
          · exact .inr (.inr ⟨json, .inr ⟨_, (Except.ok.inj parsed).symm⟩⟩)
        · exact .inl (nothing rfl parsed)

/-- The first nonempty text under these names. -/
def firstText (lookup : Str → Option Str) (names : List Str) : Option Str :=
  names.findSome? (fun name => (lookup name).filter (· ≠ []))

/-- Only the texts under the names matter. -/
theorem firstText_congr {lookup other : Str → Option Str} {names : List Str}
    (same : ∀ name ∈ names, lookup name = other name) :
    firstText lookup names = firstText other names := by
  induction names with
  | nil => rfl
  | cons first rest inductionHypothesis =>
    have later := inductionHypothesis (fun name member => same name (List.mem_cons_of_mem _ member))
    simp only [firstText] at later ⊢
    rw [List.findSome?_cons, List.findSome?_cons, same first List.mem_cons_self, later]

/-- A text under a name of an object. -/
def textField (members : List (Str × Json)) (name : Str) : Option Str :=
  match Dict.get members name with
  | some (.str text) => some text
  | _ => none

/-- `extract_event_type(headers, body)` -/
def extractEventType (headers : Dict Str Str) (body : Json) : Option Str :=
  match firstText (Dict.get headers) eventTypeHeaders with
  | some found => some found
  | none =>
      match body with
      | .obj members => firstText (textField members) eventTypeFields
      | _ => none

/-- The value of a form has no key twice. -/
theorem formBody_distinct {fields : Dict Str (List Str)}
    (distinct : (fields.map Prod.fst).Nodup) : (formBody fields).distinct = true := by
  rw [formBody, Json.distinct, Json.everywhere_obj, decide_eq_true_eq, List.map_map]
  refine ⟨distinct, List.forall_mem_map.mpr fun field _ => ?_⟩
  simp only
  split
  · rfl
  · rw [Json.everywhere_arr, List.forall_mem_map]
    exact fun text _ => rfl

/-- No parsed body has a key twice. -/
theorem parseBody_distinct {runtime : Runtime} {raw : Bytes} {contentType : Str} {maxDepth : Int}
    {body : Json} (parsed : parseBody runtime raw contentType maxDepth = .ok body) :
    body.distinct = true := by
  rcases parseBody_ok parsed with rfl | ⟨_, _, loaded⟩ | ⟨_, ⟨text, rfl⟩ | ⟨text, rfl⟩⟩
  · rfl
  · exact Json.loads_distinct loaded
  · exact formBody_distinct (Forms.parseQs_nodup text)
  · rfl

end WebhookInbox.Parser
