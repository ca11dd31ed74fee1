import WebhookInbox.Library.Calendar
import WebhookInbox.Library.Collection
import WebhookInbox.Library.ObjectId

/-!
# The endpoint model

What an endpoint document holds, what the models for creating and updating one
accept, and how a document is read back.

A validated value carries its check: a `Name`, a `Path`, a list of `Methods` and
a `Positive` number cannot be built otherwise. Documents do not carry them, since
an update may store a null in any field; `WellFormed` states what a document has
to satisfy to be read back.

Values arrive here with their types already checked. A validator that refuses one
names the field.
-/

namespace WebhookInbox.Endpoint

open Library Calendar

inductive AuthType where
  | none
  | staticSecret
  | hmacSha256
deriving DecidableEq

/-- The text that an authentication type is stored as. -/
def AuthType.value : AuthType → Str
  | .none => lit "none"
  | .staticSecret => lit "static_secret"
  | .hmacSha256 => lit "hmac_sha256"

/-- `AuthType(value)`, missing when it raises. -/
def AuthType.ofValue (value : Str) : Option AuthType :=
  if value = lit "none" then some .none
  else if value = lit "static_secret" then some .staticSecret
  else if value = lit "hmac_sha256" then some .hmacSha256
  else Option.none

/-- `DEFAULT_AUTH_HEADER.get(type)` -/
def defaultAuthHeader : AuthType → Option Str
  | .none => Option.none
  | .staticSecret => some (lit "x-webhook-secret")
  | .hmacSha256 => some (lit "x-hub-signature-256")

/-- `ALLOWED_METHODS` -/
def allowedMethods : List Str := [lit "GET", lit "POST", lit "PUT", lit "PATCH", lit "DELETE"]

/-- The separator of a path. -/
def slash : CodePoint := 0x2F

/-- The line feed. -/
def newline : CodePoint := 0x0A

/-- A letter, a digit, or one of the marks `.`, `_`, `~`, `/` and `-`. -/
def isPathCharacter (point : CodePoint) : Bool :=
  decide ((0x41 ≤ point.val ∧ point.val ≤ 0x5A) ∨ (0x61 ≤ point.val ∧ point.val ≤ 0x7A) ∨
    (0x30 ≤ point.val ∧ point.val ≤ 0x39) ∨ point.val = 0x2E ∨ point.val = 0x5F ∨
    point.val = 0x7E ∨ point.val = 0x2F ∨ point.val = 0x2D)

/-- `PATH_PATTERN.match(path)`. The `$` of the pattern also matches before a newline
that ends the text. -/
def matchesPathPattern (path : Str) : Bool :=
  let body := if Text.endsWith path [newline] then path.dropLast else path
  decide (body ≠ []) && body.all isPathCharacter

/-- What `_validate_path` lets pass. -/
def PathChecked (path : Str) : Prop :=
  path ≠ [] ∧ matchesPathPattern path = true ∧ Text.contains path (lit "..") = false

instance pathCheckedDecidable (path : Str) : Decidable (PathChecked path) :=
  inferInstanceAs (Decidable (_ ∧ _ ∧ _))

/-- What the bounds on a name let pass. -/
def NameChecked (name : Str) : Prop := 1 ≤ name.length ∧ name.length ≤ 64

instance nameCheckedDecidable (name : Str) : Decidable (NameChecked name) :=
  inferInstanceAs (Decidable (_ ∧ _))

/-- What `_validate_methods` lets pass. -/
def MethodsChecked (methods : List Str) : Prop :=
  methods ≠ [] ∧ ∀ method ∈ methods, method ∈ allowedMethods

instance methodsCheckedDecidable (methods : List Str) : Decidable (MethodsChecked methods) :=
  inferInstanceAs (Decidable (_ ∧ _))

/-- A name of 1 to 64 characters. -/
abbrev Name := { name : Str // NameChecked name }

/-- A path that passed its check. -/
abbrev Path := { path : Str // PathChecked path }

/-- A nonempty list of allowed methods. -/
abbrev Methods := { methods : List Str // MethodsChecked methods }

/-- A positive number. -/
abbrev Positive := { number : Int // 0 < number }

/-! ## Validators -/

/-- Why a value is refused. -/
inductive Fault where
  | tooShort
  | tooLong
  | notPositive
  | unknownMember
  | valueError (message : Str)
deriving DecidableEq

/-- A refused value with the field that it was given for. The model as a whole has
no field. -/
structure FieldError where
  field : Option Str
  fault : Fault
deriving DecidableEq

/-- `normalize_path(path)` -/
def normalizePath (path : Str) : Str :=
  let cleaned := Text.stripChar slash (Text.strip path)
  if Text.startsWith cleaned (lit "webhooks/") then Text.removePrefix cleaned (lit "webhooks/")
  else cleaned

def pathMessage : Str := lit "path must be a non-empty slug such as 'github' or 'team/github'"

/-- `_validate_path(value)` -/
def validatePath (value : Str) : Except Fault Path :=
  if checked : PathChecked (normalizePath value) then .ok ⟨normalizePath value, checked⟩
  else .error (.valueError pathMessage)

/-- `sorted(set(methods) - set(ALLOWED_METHODS))` -/
def unknownMethods (methods : List Str) : List Str :=
  ((methods.filter (fun method => decide (method ∉ allowedMethods))).dedup).mergeSort
    (fun first second => decide (first ≤ second))

/-- `_validate_methods(value)` -/
def validateMethods (casing : Casing) (value : List Str) : Except Fault Methods :=
  let methods := value.map casing.upper
  if methods = [] then .error (.valueError (lit "at least one HTTP method is required"))
  else if checked : MethodsChecked methods then .ok ⟨methods, checked⟩
  else
    .error (.valueError
      (lit "unsupported methods: " ++ (lit ", ").intercalate (unknownMethods methods)))

/-- `Field(min_length=1, max_length=64)` -/
def validateName (name : Str) : Except Fault Name :=
  if checked : NameChecked name then .ok ⟨name, checked⟩
  else if name.length < 1 then .error .tooShort
  else .error .tooLong

/-- `Field(gt=0)` -/
def validatePositive (number : Int) : Except Fault Positive :=
  if positive : 0 < number then .ok ⟨number, positive⟩ else .error .notPositive

/-- The errors of one field. -/
def errorsOf {α : Type} (field : Str) : Except Fault α → List FieldError
  | .ok _ => []
  | .error fault => [⟨some field, fault⟩]

/-- A validator on a value that may be null. -/
def validateNullable {α β : Type} (check : α → Except Fault β) :
    Option α → Except Fault (Option β)
  | none => .ok none
  | some value => (check value).map some

/-! ## Authentication -/

/-- An `AuthConfig`. The prefix is missing where it is unset, and then has the default
of its field. -/
structure AuthConfig where
  type : AuthType := .none
  header : Option Str := none
  signaturePrefix : Option Str := none
deriving DecidableEq

/-- The default of `signature_prefix`. -/
def defaultSignaturePrefix : Str := lit "sha256="

/-- `apply_default_header(self)`. An empty header counts as none. -/
def AuthConfig.applyDefaultHeader (casing : Casing) (auth : AuthConfig) : AuthConfig :=
  { auth with
    header := match auth.header.filter (· ≠ []) with
      | some header => some (casing.lower header)
      | none => defaultAuthHeader auth.type }

/-- The authentication part of a document. -/
structure AuthDoc where
  type : Str
  header : Option Str
  signaturePrefix : Option Str
deriving DecidableEq

/-- `model_dump()` with the type as its text. Every field is written. -/
def AuthConfig.dump (auth : AuthConfig) : AuthDoc :=
  ⟨auth.type.value, auth.header, some (auth.signaturePrefix.getD defaultSignaturePrefix)⟩

/-- `model_dump(exclude_unset=True)` with the type as its text. The header was
assigned by the validator and counts as set. -/
def AuthConfig.dumpSet (auth : AuthConfig) : AuthDoc :=
  ⟨auth.type.value, auth.header, auth.signaturePrefix⟩

/-- `AuthConfig(**document)` -/
def AuthDoc.load (casing : Casing) (auth : AuthDoc) : Option AuthConfig :=
  (AuthType.ofValue auth.type).map (fun type =>
    AuthConfig.applyDefaultHeader casing ⟨type, auth.header, auth.signaturePrefix⟩)

/-! ## Documents -/

/-- A document of the `endpoints` collection. A missing value is a stored null. -/
structure EndpointDoc where
  id : ObjectId
  name : Option Str
  path : Option Str
  enabled : Option Bool
  authentication : Option AuthDoc
  secret : Option Str
  allowedMethods : Option (List Str)
  maxPayloadSize : Option Int
  retentionDays : Option Int
  createdAt : Millis
  updatedAt : Millis
deriving DecidableEq

/-- What the requests are to keep of every document. -/
structure WellFormed (doc : EndpointDoc) : Prop where
  name : ∃ name : Name, doc.name = some name.val
  path : ∃ path : Path, doc.path = some path.val
  enabled : ∃ enabled, doc.enabled = some enabled
  authentication : ∃ auth type, doc.authentication = some auth ∧
    AuthType.ofValue auth.type = some type
  allowedMethods : ∃ methods : Methods, doc.allowedMethods = some methods.val
  maxPayloadSize : ∀ size, doc.maxPayloadSize = some size → 0 < size
  retentionDays : ∀ days, doc.retentionDays = some days → 0 < days

/-! ## Creating -/

/-- The fields of `EndpointCreate` as they are given, with their defaults. -/
structure CreateInput where
  name : Str
  path : Str
  enabled : Bool := true
  authentication : AuthConfig := {}
  secret : Option Str := none
  allowedMethods : List Str := [lit "POST"]
  maxPayloadSize : Option Int := none
  retentionDays : Option Int := none

/-- The default methods pass their check. -/
theorem methods_post : MethodsChecked [lit "POST"] := by decide

/-- A validated `EndpointCreate`. -/
structure EndpointCreate where
  name : Name
  path : Path
  enabled : Bool
  authentication : AuthConfig
  secret : Option Str
  allowedMethods : Methods
  maxPayloadSize : Option Positive
  retentionDays : Option Positive

/-- `require_secret_when_authenticated(self)` -/
def requireSecret (type : AuthType) (secret : Option Str) : List FieldError :=
  if type ≠ .none ∧ secret.filter (· ≠ []) = none then
    [⟨none, .valueError (type.value ++ lit " requires a secret")⟩]
  else []

/-- Validate all fields, then the model as a whole. -/
def EndpointCreate.validate (casing : Casing) (given : CreateInput) :
    Except (List FieldError) EndpointCreate :=
  match validateName given.name, validatePath given.path,
      validateMethods casing given.allowedMethods,
      validateNullable validatePositive given.maxPayloadSize,
      validateNullable validatePositive given.retentionDays with
  | .ok name, .ok path, .ok methods, .ok size, .ok days =>
      match requireSecret given.authentication.type given.secret with
      | [] => .ok ⟨name, path, given.enabled, given.authentication.applyDefaultHeader casing,
          given.secret, methods, size, days⟩
      | errors => .error errors
  | name, path, methods, size, days =>
      .error (errorsOf (lit "name") name ++ errorsOf (lit "path") path ++
        errorsOf (lit "allowed_methods") methods ++ errorsOf (lit "max_payload_size") size ++
        errorsOf (lit "retention_days") days)

/-- `to_document(self)`, with the identifier that the insertion gives it. -/
def EndpointCreate.toDocument (payload : EndpointCreate) (id : ObjectId) (now : Instant) :
    EndpointDoc where
  id := id
  name := some payload.name.val
  path := some payload.path.val
  enabled := some payload.enabled
  authentication := some payload.authentication.dump
  secret := payload.secret
  allowedMethods := some payload.allowedMethods.val
  maxPayloadSize := payload.maxPayloadSize.map Subtype.val
  retentionDays := payload.retentionDays.map Subtype.val
  createdAt := toMillis now
  updatedAt := toMillis now

/-! ## Updating -/

/-- A field of an update: left out, null, or given. -/
inductive Given (α : Type) where
  | absent
  | null
  | value (given : α)

namespace Given
variable {α β : Type}

/-- Change a given value. -/
def map (change : α → β) : Given α → Given β
  | .absent => .absent
  | .null => .null
  | .value given => .value (change given)

/-- Check a given value. Null passes. -/
def validate (check : α → Except Fault β) : Given α → Except Fault (Given β)
  | .absent => .ok .absent
  | .null => .ok .null
  | .value given => (check given).map .value

/-- What `$set` leaves in a field. -/
def apply (field : Given α) (stored : Option α) : Option α :=
  match field with
  | .absent => stored
  | .null => none
  | .value given => some given

end Given

/-- The fields of `EndpointUpdate` as they are given. -/
structure UpdateInput where
  name : Given Str := .absent
  path : Given Str := .absent
  enabled : Given Bool := .absent
  authentication : Given AuthConfig := .absent
  secret : Given Str := .absent
  allowedMethods : Given (List Str) := .absent
  maxPayloadSize : Given Int := .absent
  retentionDays : Given Int := .absent

/-- A validated `EndpointUpdate`. -/
structure EndpointUpdate where
  name : Given Name
  path : Given Path
  enabled : Given Bool
  authentication : Given AuthConfig
  secret : Given Str
  allowedMethods : Given Methods
  maxPayloadSize : Given Positive
  retentionDays : Given Positive

/-- Validate all fields. -/
def EndpointUpdate.validate (casing : Casing) (given : UpdateInput) :
    Except (List FieldError) EndpointUpdate :=
  match given.name.validate validateName, given.path.validate validatePath,
      given.allowedMethods.validate (validateMethods casing),
      given.maxPayloadSize.validate validatePositive,
      given.retentionDays.validate validatePositive with
  | .ok name, .ok path, .ok methods, .ok size, .ok days =>
      .ok ⟨name, path, given.enabled,
        given.authentication.map (AuthConfig.applyDefaultHeader casing), given.secret, methods,
        size, days⟩
  | name, path, methods, size, days =>
      .error (errorsOf (lit "name") name ++ errorsOf (lit "path") path ++
        errorsOf (lit "allowed_methods") methods ++ errorsOf (lit "max_payload_size") size ++
        errorsOf (lit "retention_days") days)

/-- The argument of `$set`. -/
structure Changes where
  name : Given Str
  path : Given Str
  enabled : Given Bool
  authentication : Given AuthDoc
  secret : Given Str
  allowedMethods : Given (List Str)
  maxPayloadSize : Given Int
  retentionDays : Given Int
  updatedAt : Millis

/-- `to_changes(self)` -/
def EndpointUpdate.toChanges (payload : EndpointUpdate) (now : Instant) : Changes where
  name := payload.name.map Subtype.val
  path := payload.path.map Subtype.val
  enabled := payload.enabled
  authentication := payload.authentication.map AuthConfig.dumpSet
  secret := payload.secret
  allowedMethods := payload.allowedMethods.map Subtype.val
  maxPayloadSize := payload.maxPayloadSize.map Subtype.val
  retentionDays := payload.retentionDays.map Subtype.val
  updatedAt := toMillis now

/-- The document after `$set`, which is also the merge `{**document, **changes}`. -/
def Changes.apply (changes : Changes) (doc : EndpointDoc) : EndpointDoc where
  id := doc.id
  name := changes.name.apply doc.name
  path := changes.path.apply doc.path
  enabled := changes.enabled.apply doc.enabled
  authentication := changes.authentication.apply doc.authentication
  secret := changes.secret.apply doc.secret
  allowedMethods := changes.allowedMethods.apply doc.allowedMethods
  maxPayloadSize := changes.maxPayloadSize.apply doc.maxPayloadSize
  retentionDays := changes.retentionDays.apply doc.retentionDays
  createdAt := doc.createdAt
  updatedAt := changes.updatedAt

@[simp] theorem Changes.apply_id (changes : Changes) (doc : EndpointDoc) :
    (changes.apply doc).id = doc.id := rfl

/-! ## Reading back -/

/-- An endpoint as it is shown. -/
structure EndpointOut where
  id : Str
  name : Str
  path : Str
  url : Str
  enabled : Bool
  authentication : AuthConfig
  hasSecret : Bool
  allowedMethods : List Str
  maxPayloadSize : Option Int
  retentionDays : Option Int
  createdAt : Millis
  updatedAt : Millis

/-- `EndpointOut.from_document(document)`, missing when validation raises. -/
def EndpointOut.fromDocument (casing : Casing) (doc : EndpointDoc) : Option EndpointOut :=
  match doc.name, doc.path, doc.enabled, doc.authentication.bind (AuthDoc.load casing),
      doc.allowedMethods with
  | some name, some path, some enabled, some authentication, some methods =>
      some {
        id := doc.id.text
        name := name
        path := path
        url := lit "/webhooks/" ++ path
        enabled := enabled
        authentication := authentication
        hasSecret := (doc.secret.filter (· ≠ [])).isSome
        allowedMethods := methods
        maxPayloadSize := doc.maxPayloadSize
        retentionDays := doc.retentionDays
        createdAt := doc.createdAt
        updatedAt := doc.updatedAt }
  | _, _, _, _, _ => none

/-! ## What the models guarantee -/

/-- The text of a type is read as that type. -/
@[simp] theorem ofValue_value (type : AuthType) : AuthType.ofValue type.value = some type := by
  cases type <;> decide

/-- A type is read from its text alone. -/
theorem value_of_ofValue {value : Str} {type : AuthType}
    (known : AuthType.ofValue value = some type) : value = type.value := by
  unfold AuthType.ofValue at known
  split at known
  · rename_i same
    exact Option.some.inj known ▸ same
  · split at known
    · rename_i same
      exact Option.some.inj known ▸ same
    · split at known
      · rename_i same
        exact Option.some.inj known ▸ same
      · cases known

/-- An accepted path is the normal form of what was given. -/
theorem validatePath_ok {value : Str} {path : Path} (accepted : validatePath value = .ok path) :
    path.val = normalizePath value := by
  unfold validatePath at accepted
  split at accepted
  · exact (Except.ok.inj accepted) ▸ rfl
  · cases accepted

/-- Creating accepts a path exactly as the validator does. -/
theorem create_validates_path {casing : Casing} {given : CreateInput} {payload : EndpointCreate}
    (accepted : EndpointCreate.validate casing given = .ok payload) :
    validatePath given.path = .ok payload.path := by
  unfold EndpointCreate.validate at accepted
  split at accepted
  · rename_i name path methods size days _ validated _ _ _
    split at accepted
    · exact (Except.ok.inj accepted) ▸ validated
    · cases accepted
  · cases accepted

/-- So does updating, where a path is given. -/
theorem update_validates_path {casing : Casing} {given : UpdateInput} {payload : EndpointUpdate}
    (accepted : EndpointUpdate.validate casing given = .ok payload) :
    given.path.validate validatePath = .ok payload.path := by
  unfold EndpointUpdate.validate at accepted
  split at accepted
  · rename_i name path methods size days _ validated _ _ _
    exact (Except.ok.inj accepted) ▸ validated
  · cases accepted

/-- A created document is well formed. -/
theorem toDocument_wellFormed (payload : EndpointCreate) (id : ObjectId) (now : Instant) :
    WellFormed (payload.toDocument id now) where
  name := ⟨payload.name, rfl⟩
  path := ⟨payload.path, rfl⟩
  enabled := ⟨payload.enabled, rfl⟩
  authentication := ⟨_, payload.authentication.type, rfl, by simp [AuthConfig.dump]⟩
  allowedMethods := ⟨payload.allowedMethods, rfl⟩
  maxPayloadSize size stored := by
    obtain ⟨given, _, rfl⟩ := Option.map_eq_some_iff.mp stored
    exact given.property
  retentionDays days stored := by
    obtain ⟨given, _, rfl⟩ := Option.map_eq_some_iff.mp stored
    exact given.property

/-- A well-formed document can be read back. -/
theorem fromDocument_wellFormed (casing : Casing) {doc : EndpointDoc} (sound : WellFormed doc) :
    ∃ shown, EndpointOut.fromDocument casing doc = some shown := by
  obtain ⟨name, named⟩ := sound.name
  obtain ⟨path, located⟩ := sound.path
  obtain ⟨enabled, switched⟩ := sound.enabled
  obtain ⟨auth, type, authenticated, known⟩ := sound.authentication
  obtain ⟨methods, admitted⟩ := sound.allowedMethods
  simp [EndpointOut.fromDocument, named, located, switched, authenticated, admitted,
    AuthDoc.load, known]

/-- The advertised URL ends in the stored path. -/
theorem fromDocument_url {casing : Casing} {doc : EndpointDoc} {shown : EndpointOut}
    (read : EndpointOut.fromDocument casing doc = some shown) {path : Str}
    (located : doc.path = some path) : shown.url = lit "/webhooks/" ++ path := by
  unfold EndpointOut.fromDocument at read
  split at read
  · rename_i stored _ _ _ _ same _ _ _
    obtain rfl := Option.some.inj (located.symm.trans same)
    exact (Option.some.inj read) ▸ rfl
  · cases read

/-- A field is given by a null. -/
def Given.IsNull {α : Type} : Given α → Prop
  | .null => True
  | _ => False

instance givenIsNullDecidable {α : Type} (field : Given α) : Decidable field.IsNull :=
  match field with
  | .null => isTrue trivial
  | .absent => isFalse id
  | .value _ => isFalse id

/-- The update names a null for a field that every document has to have. -/
def EndpointUpdate.Blanks (payload : EndpointUpdate) : Prop :=
  payload.name.IsNull ∨ payload.path.IsNull ∨ payload.enabled.IsNull ∨
    payload.allowedMethods.IsNull

instance blanksDecidable (payload : EndpointUpdate) : Decidable payload.Blanks :=
  inferInstanceAs (Decidable (_ ∨ _ ∨ _ ∨ _))

section
variable {α β : Type}

/-- A field that is not blanked keeps a property of what is stored there, if what is
given has it. -/
theorem Given.apply_some {field : Given α} {encode : α → β} {stored : Option β}
    (given : ¬ field.IsNull) (held : ∃ value : α, stored = some (encode value)) :
    ∃ value : α, (field.map encode).apply stored = some (encode value) := by
  cases field with
  | absent => exact held
  | null => exact absurd trivial given
  | value value => exact ⟨value, rfl⟩

/-- A blanked field is null afterwards. -/
theorem Given.apply_null {field : Given α} {encode : α → β} {stored : Option β}
    (blank : field.IsNull) : (field.map encode).apply stored = none := by
  cases field with
  | absent => exact blank.elim
  | null => rfl
  | value value => exact blank.elim

/-- A number that is null or positive stays so. -/
theorem Given.apply_positive {field : Given Positive} {stored : Option Int}
    (held : ∀ number, stored = some number → 0 < number) :
    ∀ number, (field.map Subtype.val).apply stored = some number → 0 < number := by
  intro number found
  cases field with
  | absent => exact held number found
  | null => cases found
  | value given => exact Option.some.inj found ▸ given.property

end

/-- An update that blanks no field keeps a document well formed.

Proof: each field keeps its own condition, whether it is left out or given. -/
theorem apply_wellFormed {payload : EndpointUpdate} {now : Instant} {doc : EndpointDoc}
    (sound : WellFormed doc) (filled : ¬ payload.Blanks)
    (authenticated : ¬ payload.authentication.IsNull) :
    WellFormed ((payload.toChanges now).apply doc) where
  name := Given.apply_some (fun blank => filled (.inl blank)) sound.name
  path := Given.apply_some (fun blank => filled (.inr (.inl blank))) sound.path
  enabled := by
    have kept : ¬ payload.enabled.IsNull := fun blank => filled (.inr (.inr (.inl blank)))
    cases given : payload.enabled with
    | absent => simpa [Changes.apply, EndpointUpdate.toChanges, given, Given.apply] using
        sound.enabled
    | null => exact absurd (by simp [given, Given.IsNull]) kept
    | value enabled => exact ⟨enabled, by
        simp [Changes.apply, EndpointUpdate.toChanges, given, Given.apply]⟩
  authentication := by
    cases given : payload.authentication with
    | absent => simpa [Changes.apply, EndpointUpdate.toChanges, given, Given.apply,
        Given.map] using sound.authentication
    | null => exact absurd (by simp [given, Given.IsNull]) authenticated
    | value auth => exact ⟨auth.dumpSet, auth.type, by
        simp [Changes.apply, EndpointUpdate.toChanges, given, Given.apply, Given.map],
        by simp [AuthConfig.dumpSet]⟩
  allowedMethods :=
    Given.apply_some (fun blank => filled (.inr (.inr (.inr blank)))) sound.allowedMethods
  maxPayloadSize := Given.apply_positive sound.maxPayloadSize
  retentionDays := Given.apply_positive sound.retentionDays

/-- An update that blanks a field leaves a document that is not well formed. -/
theorem apply_blanks {payload : EndpointUpdate} {now : Instant} {doc : EndpointDoc}
    (blanked : payload.Blanks) : ¬ WellFormed ((payload.toChanges now).apply doc) := by
  intro sound
  rcases blanked with blank | blank | blank | blank
  · obtain ⟨name, stored⟩ := sound.name
    exact absurd ((Given.apply_null blank).symm.trans stored) nofun
  · obtain ⟨path, stored⟩ := sound.path
    exact absurd ((Given.apply_null blank).symm.trans stored) nofun
  · obtain ⟨enabled, stored⟩ := sound.enabled
    cases given : payload.enabled with
    | absent => simp [given, Given.IsNull] at blank
    | null => simp [Changes.apply, EndpointUpdate.toChanges, given, Given.apply] at stored
    | value value => simp [given, Given.IsNull] at blank
  · obtain ⟨methods, stored⟩ := sound.allowedMethods
    exact absurd ((Given.apply_null blank).symm.trans stored) nofun

end WebhookInbox.Endpoint
