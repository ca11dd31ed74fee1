import WebhookInbox.Api.Endpoints
import WebhookInbox.Ingest.Dispatch
import WebhookInbox.Ingest.Signature
import WebhookInbox.Library.Decimal

/-!
# The edit form of an endpoint

The form shows what an endpoint is set to, and is sent back whole when it is saved. What
it does not show is lost: the header and the prefix of a signature are written as those
of a new endpoint. A path is normalised once more, which changes it if its normal form
was uncovered by the removal of a prefix.

`untouched_save_exact` says when sending the form back as it is shown leaves the
endpoint as it was.
-/

namespace WebhookInbox.Endpoint

open Library Calendar

/-- `{{ number or '' }}` -/
def shownNumber (number : Option Int) : Str :=
  match number.filter (· ≠ 0) with
  | none => []
  | some number => Text.ofInt number

/-- The values of the form in `endpoint_detail.html`. The secret is not shown. -/
def EndpointOut.form (shown : EndpointOut) : EndpointForm where
  name := shown.name
  path := shown.path
  authType := shown.authentication.type.value
  secret := []
  allowedMethods := (lit ", ").intercalate shown.allowedMethods
  maxPayloadSize := shownNumber shown.maxPayloadSize
  retentionDays := shownNumber shown.retentionDays
  enabled := shown.enabled

/-- What a new endpoint of this type has for authentication, without a prefix. -/
def bareAuth (type : AuthType) : AuthDoc := ⟨type.value, defaultAuthHeader type, none⟩

/-! ## Reading the form -/

/-- A positive number is read as it is shown. -/
theorem parseNumber_shown (numerals : Numerals) {number : Option Int}
    (positive : ∀ value, number = some value → 0 < value)
    (fits : ∀ value, number = some value → value < 2 ^ 63) :
    parseNumber numerals (shownNumber number) = .ok number := by
  cases number with
  | none =>
    have blank : numerals.isDigit [] = false := by
      rw [numerals.isDigit_ascii [] (by decide)]
      rfl
    change (if numerals.isDigit [] = true then _ else _) = _
    rw [if_neg (by simp [blank])]
  | some value =>
    obtain ⟨natural, rfl⟩ := Int.eq_ofNat_of_zero_le (Int.le_of_lt (positive value rfl))
    have nonzero : (natural : Int) ≠ 0 := ne_of_gt (positive natural rfl)
    have digits := Text.ofInt_digits natural
    have short : (Text.ofInt natural).length ≤ 4300 := by
      have small : natural < 10 ^ 19 := by
        have bounded := fits natural rfl
        norm_num at bounded ⊢
        omega
      exact (Text.ofInt_length_le (by decide) small).trans (by decide)
    have shown : shownNumber (some (natural : Int)) = Text.ofInt natural := by
      have filled : natural ≠ 0 := by exact_mod_cast nonzero
      simp [shownNumber, Option.filter_some, filled]
    have isDigit : numerals.isDigit (Text.strip (Text.ofInt natural)) = true := by
      rw [Text.strip_digits digits, numerals.isDigit_ascii _ (Text.ascii_of_digits digits), digits]
      simp [Text.ofInt_ne_nil]
    rw [shown, parseNumber, if_pos isDigit,
      numerals.toInt_ascii _ (Text.ofInt_ne_nil natural) digits short, Text.digitsValue_ofInt]

/-- Normalising trims first. -/
theorem normalizePath_strip (path : Str) : normalizePath (Text.strip path) = normalizePath path := by
  simp only [normalizePath, Text.strip_strip]

/-- An allowed method has no separator, is not empty, and is in upper case. -/
theorem allowedMethod_plain {method : Str} (allowed : method ∈ allowedMethods) :
    (0x2C : CodePoint) ∉ method ∧ method ≠ [] ∧ Text.Ascii method ∧
      method.map Text.asciiUpper = method ∧ Text.strip method = method ∧
      Text.strip (lit " " ++ method) = method := by
  have all : ∀ method ∈ allowedMethods, (0x2C : CodePoint) ∉ method ∧ method ≠ [] ∧
      Text.Ascii method ∧ method.map Text.asciiUpper = method ∧ Text.strip method = method ∧
      Text.strip (lit " " ++ method) = method := by decide +kernel
  exact all method allowed

/-- Methods are read as they are shown. -/
theorem parseMethods_shown {methods : List Str} (checked : MethodsChecked methods) :
    ((Forms.split 0x2C ((lit ", ").intercalate methods)).map Text.strip).filter
      (fun method => decide (method ≠ [])) = methods := by
  cases methods with
  | nil => exact absurd rfl checked.1
  | cons first others =>
    have plain := fun method member => allowedMethod_plain (checked.2 method member)
    have cut : Forms.split 0x2C ((lit ", ").intercalate (first :: others)) =
        first :: others.map (lit " " ++ ·) :=
      Forms.split_intercalate (by decide) (plain first List.mem_cons_self).1
        (fun method member => (plain method (List.mem_cons_of_mem _ member)).1)
    have trimmed : (first :: others.map (lit " " ++ ·)).map Text.strip = first :: others := by
      rw [List.map_cons, (plain first List.mem_cons_self).2.2.2.2.1, List.map_map]
      congr 1
      conv_rhs => rw [← List.map_id others]
      apply List.map_congr_left
      intro method member
      exact (plain method (List.mem_cons_of_mem _ member)).2.2.2.2.2
    rw [cut, trimmed, List.filter_eq_self]
    intro method member
    exact decide_eq_true (plain method member).2.1

/-- Allowed methods are accepted as they are. -/
theorem validateMethods_checked (casing : Casing) {methods : List Str}
    (checked : MethodsChecked methods) :
    validateMethods casing methods = .ok ⟨methods, checked⟩ := by
  have upper : methods.map casing.upper = methods := by
    conv_rhs => rw [← List.map_id methods]
    apply List.map_congr_left
    intro method member
    obtain ⟨_, _, ascii, same, _⟩ := allowedMethod_plain (checked.2 method member)
    rw [casing.upper_ascii method ascii, same, id_eq]
  simp only [validateMethods, upper, checked.1, ↓reduceIte, checked, ↓reduceDIte]

/-! ## Sending the form back -/

/-- The document that the form leaves. -/
def resent (doc : EndpointDoc) (path : Str) (type : AuthType) (now : Instant) : EndpointDoc :=
  { doc with
    path := some (normalizePath path)
    authentication := some (bareAuth type)
    updatedAt := toMillis now }

/-- What the form writes with `$set`. -/
def resentChanges (doc : EndpointDoc) (path : Str) (type : AuthType) (now : Instant) : Changes where
  name := .ofOption doc.name
  path := .value (normalizePath path)
  enabled := .ofOption doc.enabled
  authentication := .value (bareAuth type)
  secret := .absent
  allowedMethods := .ofOption doc.allowedMethods
  maxPayloadSize := .ofOption doc.maxPayloadSize
  retentionDays := .ofOption doc.retentionDays
  updatedAt := toMillis now

/-- The form is refused: the endpoint needs a secret and has none, the normal form of its
path is no path, or another endpoint has that path. -/
def SaveRefused (endpoints : Endpoints) (doc : EndpointDoc) : Prop :=
  lacksSecret doc = some true ∨
    ∀ path, doc.path = some path → ¬ PathChecked (normalizePath path) ∨
      ∃ other ∈ endpoints.stored.docs, other.id ≠ doc.id ∧
        other.path = some (normalizePath path)

/-- The endpoint has what the form writes: a path in normal form, and the authentication
of a new endpoint, without a prefix. -/
def FormShaped (doc : EndpointDoc) : Prop :=
  (∀ path, doc.path = some path → normalizePath path = path) ∧
    ∃ type, doc.authentication = some (bareAuth type)

/-- The endpoint is as it was, but for the time of its last update, and accepts the same
requests. -/
def Untouched (casing : Casing) (doc : EndpointDoc) (after : Endpoints) : Prop :=
  ∃ saved, after.findId doc.id = some saved ∧ saved = { doc with updatedAt := saved.updatedAt } ∧
    ∀ hexDigest headers rawBody, Signature.verify casing hexDigest saved headers rawBody =
      Signature.verify casing hexDigest doc headers rawBody

/-- The form as it is read when it is sent back. -/
theorem parseEndpointForm_shown (casing : Casing) (numerals : Numerals) {doc : EndpointDoc}
    {shown : EndpointOut} (sound : WellFormed doc) (written : doc.toBson.storable = true)
    (read : EndpointOut.fromDocument casing doc = some shown) :
    ∃ name path enabled auth methods type, doc.name = some name ∧ doc.path = some path ∧
      doc.enabled = some enabled ∧ doc.authentication = some auth ∧
      doc.allowedMethods = some methods ∧ AuthType.ofValue auth.type = some type ∧
      parseEndpointForm numerals shown.form = .ok {
        name := Text.strip name
        path := Text.strip path
        enabled := enabled
        authentication := { type := type }
        secret := none
        allowedMethods := methods
        maxPayloadSize := doc.maxPayloadSize
        retentionDays := doc.retentionDays } := by
  obtain ⟨name, named⟩ := sound.name
  obtain ⟨path, located⟩ := sound.path
  obtain ⟨enabled, switched⟩ := sound.enabled
  obtain ⟨auth, type, authenticated, known⟩ := sound.authentication
  obtain ⟨methods, admitted⟩ := sound.allowedMethods
  simp only [EndpointDoc.toBson, Bson.storable, Bson.storableFields, Bool.and_eq_true] at written
  obtain ⟨_, _, _, _, _, _, ⟨_, size⟩, ⟨_, days⟩, _⟩ := written
  have fits : ∀ number : Option Int, (Bson.ofOption .int number).storable = true →
      ∀ value, number = some value → value < 2 ^ 63 := by
    rintro number storable value rfl
    exact (of_decide_eq_true storable).2
  refine ⟨name.val, path.val, enabled, auth, methods.val, type, named, located, switched,
    authenticated, admitted, known, ?_⟩
  simp only [EndpointOut.fromDocument, named, located, switched, authenticated, admitted,
    AuthDoc.load, known, Option.bind_some, Option.map_some, Option.some.injEq] at read
  subst read
  have typeRead : AuthType.ofValue type.value = some type := ofValue_value type
  simp only [parseEndpointForm, EndpointOut.form, AuthConfig.applyDefaultHeader, typeRead,
    parseNumber_shown numerals sound.maxPayloadSize (fits _ size),
    parseNumber_shown numerals sound.retentionDays (fits _ days), ↓reduceIte,
    parseMethods_shown methods.property]
  rfl

/-- The characters of a path are ASCII. -/
theorem pathChecked_scalar {path : Str} (checked : PathChecked path) : Text.Scalar path := by
  have plain : ∀ body : Str, body.all isPathCharacter = true → Text.Scalar body := by
    intro body characters
    apply Text.scalar_of_lt
    intro point member
    have allowed := of_decide_eq_true (List.all_eq_true.mp characters point member)
    omega
  have matched := checked.2.1
  simp only [matchesPathPattern, Bool.and_eq_true] at matched
  split at matched
  · rename_i ending
    obtain ⟨before, whole⟩ := (Text.endsWith_iff _ _).mp ending
    subst whole
    rw [List.dropLast_concat] at matched
    exact (plain before matched.2).append (Text.scalar_lit "\n")
  · exact plain path matched.2

/-- A number that is null or positive passes its check. -/
theorem validatePositive_ofOption {number : Option Int}
    (positive : ∀ value, number = some value → 0 < value) :
    ∃ checked : Given Positive,
      (Given.ofOption number).validate validatePositive = .ok checked ∧
        checked.map Subtype.val = Given.ofOption number := by
  cases number with
  | none => exact ⟨.null, rfl, rfl⟩
  | some value =>
    refine ⟨.value ⟨value, positive value rfl⟩, ?_, rfl⟩
    simp only [Given.ofOption, Given.validate, validatePositive, positive value rfl, ↓reduceDIte]
    rfl

/-- What is written into a field that was read from it is what was there. -/
theorem ofOption_apply {α : Type} (stored : Option α) :
    (Given.ofOption stored).apply stored = stored := by
  cases stored <;> rfl

/-- So does writing it leave the document that the form leaves. -/
theorem resentChanges_apply (doc : EndpointDoc) (path : Str) (type : AuthType) (now : Instant) :
    (resentChanges doc path type now).apply doc = resent doc path type now := by
  simp only [Changes.apply, resentChanges, ofOption_apply, resent]
  rfl

/-- A field that could be written can be written again. -/
theorem ofOption_storable {α : Type} {name : Str} {encode : α → Bson} {stored : Option α}
    (named : Bson.nameable name = true) (held : (Bson.ofOption encode stored).storable = true) :
    Bson.storableFields ((Given.ofOption stored).toFields name encode) = true := by
  cases stored with
  | none => simp [Given.ofOption, Given.toFields, Bson.storableFields, named, Bson.storable]
  | some value =>
    change (encode value).storable = true at held
    simp [Given.ofOption, Given.toFields, Bson.storableFields, named, held]

/-- What the form writes can be written. -/
theorem resentChanges_storable {doc : EndpointDoc} {path : Str} (type : AuthType) (now : Instant)
    (written : doc.toBson.storable = true) (checked : PathChecked (normalizePath path)) :
    (resentChanges doc path type now).toBson.storable = true := by
  simp only [EndpointDoc.toBson, Bson.storable, Bson.storableFields, Bool.and_eq_true] at written
  obtain ⟨⟨_, name⟩, _, ⟨_, enabled⟩, _, _, ⟨_, methods⟩, ⟨_, size⟩, ⟨_, days⟩, _⟩ := written
  have bare : (bareAuth type).toBson.storable = true := by cases type <;> decide +kernel
  have path := (Bson.storable_str _).mpr (pathChecked_scalar checked)
  simp only [Changes.toBson, resentChanges, Bson.storable, Bson.storableFields_append]
  refine ⟨⟨⟨⟨⟨⟨⟨⟨ofOption_storable (by decide +kernel) name, ?_⟩,
    ofOption_storable (by decide +kernel) enabled⟩, ?_⟩, rfl⟩,
    ofOption_storable (by decide +kernel) methods⟩, ofOption_storable (by decide +kernel) size⟩,
    ofOption_storable (by decide +kernel) days⟩,
    (Bson.storableFields_cons (by decide +kernel) _ _).mpr ⟨rfl, rfl⟩⟩
  · exact (Bson.storableFields_cons (by decide +kernel) _ _).mpr ⟨path, rfl⟩
  · exact (Bson.storableFields_cons (by decide +kernel) _ _).mpr ⟨bare, rfl⟩

/-- What is read from the form passes its checks if the normal form of the path does. -/
theorem validate_shown (casing : Casing) {doc : EndpointDoc} {name : Name} {path : Str}
    {enabled : Bool} {methods : Methods} (type : AuthType) (sound : WellFormed doc)
    (named : doc.name = some name.val) (switched : doc.enabled = some enabled)
    (admitted : doc.allowedMethods = some methods.val) {fields : CreateInput}
    (parsed : fields = {
      name := name.val
      path := Text.strip path
      enabled := enabled
      authentication := { type := type }
      secret := none
      allowedMethods := methods.val
      maxPayloadSize := doc.maxPayloadSize
      retentionDays := doc.retentionDays }) :
    (¬ PathChecked (normalizePath path) →
      ∃ errors, EndpointUpdate.validate casing fields.toUpdate = .error errors) ∧
    (PathChecked (normalizePath path) →
      ∃ payload, EndpointUpdate.validate casing fields.toUpdate = .ok payload ∧
        ∀ now, payload.toChanges now = resentChanges doc path type now) := by
  subst parsed
  obtain ⟨size, sizeChecked, sizeKept⟩ := validatePositive_ofOption sound.maxPayloadSize
  obtain ⟨days, daysChecked, daysKept⟩ := validatePositive_ofOption sound.retentionDays
  have nameChecked : (Given.value name.val).validate validateName = .ok (.value name) := by
    simp only [Given.validate, validateName, name.property, ↓reduceDIte]
    rfl
  have methodsChecked : (Given.value methods.val).validate (validateMethods casing) =
      .ok (.value methods) := by
    simp only [Given.validate, validateMethods_checked casing methods.property]
    rfl
  constructor
  · intro unchecked
    have pathRefused : (Given.value (Text.strip path)).validate validatePath =
        .error (.valueError pathMessage) := by
      simp only [Given.validate, validatePath, normalizePath_strip, unchecked, ↓reduceDIte]
      rfl
    refine ⟨[⟨some (lit "path"), .valueError pathMessage⟩], ?_⟩
    simp only [EndpointUpdate.validate, CreateInput.toUpdate, nameChecked, pathRefused,
      methodsChecked, sizeChecked, daysChecked]
    rfl
  · intro checked
    have pathChecked : (Given.value (Text.strip path)).validate validatePath =
        .ok (.value ⟨normalizePath path, checked⟩) := by
      simp only [Given.validate, validatePath, normalizePath_strip, checked, ↓reduceDIte]
      rfl
    refine ⟨⟨.value name, .value ⟨normalizePath path, checked⟩, .value enabled,
      .value (AuthConfig.applyDefaultHeader casing { type := type }), .absent, .value methods, size,
      days⟩, ?_, ?_⟩
    · simp only [EndpointUpdate.validate, CreateInput.toUpdate, nameChecked, pathChecked,
        methodsChecked, sizeChecked, daysChecked]
      rfl
    · intro now
      simp only [EndpointUpdate.toChanges, resentChanges, named, switched, admitted, sizeKept,
        daysKept]
      rfl

/-- What is sent back needs a secret if the endpoint does. -/
theorem lacksSecret_resent {doc : EndpointDoc} (path : Str) {auth : AuthDoc} {type : AuthType}
    (now : Instant) (authenticated : doc.authentication = some auth)
    (known : AuthType.ofValue auth.type = some type) :
    lacksSecret (resent doc path type now) = lacksSecret doc := by
  obtain ⟨typeText, header, start⟩ := auth
  have typed : typeText = type.value := value_of_ofValue known
  subst typed
  simp only [lacksSecret, resent, authenticated, bareAuth, Option.map_some]
  rfl

/-- When the form is not refused. -/
theorem not_saveRefused (endpoints : Endpoints) {doc : EndpointDoc} {path : Str}
    (located : doc.path = some path) :
    ¬ SaveRefused endpoints doc ↔ lacksSecret doc ≠ some true ∧
      PathChecked (normalizePath path) ∧ ∀ other ∈ endpoints.stored.docs, other.id ≠ doc.id →
        other.path ≠ some (normalizePath path) := by
  simp [SaveRefused, located]

/-- What is sent back is written as far as the path, the secret and the paths of the other
endpoints allow. -/
theorem endpointSave_shown (casing : Casing) (numerals : Numerals) {endpoints : Endpoints}
    {doc : EndpointDoc} {shown : EndpointOut} (found : endpoints.findId doc.id = some doc)
    (sound : WellFormed doc) (trimmed : ∀ name, doc.name = some name → Text.strip name = name)
    (read : EndpointOut.fromDocument casing doc = some shown) (now : Instant) :
    ∃ path auth type, doc.path = some path ∧ doc.authentication = some auth ∧
      AuthType.ofValue auth.type = some type ∧
      (SaveRefused endpoints doc →
        (endpointSave casing numerals endpoints doc.id shown.form now).1 = endpoints) ∧
      (¬ SaveRefused endpoints doc →
        (endpointSave casing numerals endpoints doc.id shown.form now).1.findId doc.id =
          some (resent doc path type now)) := by
  have writable := endpoints.written doc (Collection.find_some found).1
  obtain ⟨name, path, enabled, auth, methods, type, named, located, switched, authenticated,
    admitted, known, parsed⟩ := parseEndpointForm_shown casing numerals sound writable read
  refine ⟨path, auth, type, located, authenticated, known, ?_⟩
  obtain ⟨checkedName, same⟩ := sound.name
  obtain rfl : checkedName.val = name := Option.some.inj (same.symm.trans named)
  obtain ⟨checkedMethods, sameMethods⟩ := sound.allowedMethods
  obtain rfl : checkedMethods.val = methods := Option.some.inj (sameMethods.symm.trans admitted)
  obtain ⟨refused, accepted⟩ := validate_shown casing type sound named switched admitted
    (congrArg (fun name => ({
      name := name
      path := Text.strip path
      enabled := enabled
      authentication := { type := type }
      secret := none
      allowedMethods := checkedMethods.val
      maxPayloadSize := doc.maxPayloadSize
      retentionDays := doc.retentionDays } : CreateInput)) (trimmed _ named))
  have needs := lacksSecret_resent path now authenticated known
  have unblocked := not_saveRefused endpoints located
  have unlocated : lacksSecret doc ≠ none := by simp [lacksSecret, authenticated]
  by_cases checked : PathChecked (normalizePath path)
  · obtain ⟨payload, validated, changes⟩ := accepted checked
    have storable := resentChanges_storable type now writable checked
    have free := Endpoints.updateOne_ok_iff found storable
    rw [resentChanges_apply] at free
    simp only [endpointSave, found, parsed, validated, changes, resentChanges_apply, needs]
    cases lacks : lacksSecret doc with
    | none => exact absurd lacks unlocated
    | some lacking =>
      cases lacking with
      | true => exact ⟨fun _ => rfl, fun passes => absurd lacks (unblocked.mp passes).1⟩
      | false =>
        cases updated : endpoints.updateOne doc.id (resentChanges doc path type now) with
        | ok changed =>
          have others := free.mp ⟨changed, updated⟩
          have passes := unblocked.mpr ⟨by simp [lacks], checked, others⟩
          refine ⟨fun blocked => absurd blocked passes, fun _ => ?_⟩
          simp [Endpoints.findId_updateOne updated, found, resentChanges_apply]
        | error error =>
          have blocked : SaveRefused endpoints doc := by
            by_contra passes
            obtain ⟨made, written⟩ := free.mpr (unblocked.mp passes).2.2
            rw [updated] at written
            cases written
          cases error <;> exact ⟨fun _ => rfl, fun passes => absurd blocked passes⟩
  · obtain ⟨errors, invalid⟩ := refused checked
    simp only [endpointSave, found, parsed, invalid]
    exact ⟨fun _ => trivial, fun passes => absurd (unblocked.mp passes).2.1 checked⟩

/-- Sending the form back as it is shown leaves the endpoint as it was, but for the time of
its last update, exactly if it is refused, or the endpoint has a path in normal form and
the authentication of a new endpoint, without a prefix. -/
theorem untouched_save_exact (casing : Casing) (numerals : Numerals) {endpoints : Endpoints}
    {doc : EndpointDoc} {shown : EndpointOut} (found : endpoints.findId doc.id = some doc)
    (sound : WellFormed doc) (trimmed : ∀ name, doc.name = some name → Text.strip name = name)
    (read : EndpointOut.fromDocument casing doc = some shown) (now : Instant) :
    Untouched casing doc (endpointSave casing numerals endpoints doc.id shown.form now).1 ↔
      SaveRefused endpoints doc ∨ FormShaped doc := by
  obtain ⟨path, auth, type, located, authenticated, known, refused, accepted⟩ :=
    endpointSave_shown casing numerals found sound trimmed read now
  by_cases blocked : SaveRefused endpoints doc
  · rw [refused blocked]
    exact ⟨fun _ => .inl blocked, fun _ => ⟨doc, found, rfl, fun _ _ _ => rfl⟩⟩
  · rw [or_iff_right blocked]
    have left := accepted blocked
    constructor
    · rintro ⟨saved, stored, kept, _⟩
      obtain rfl := Option.some.inj (left.symm.trans stored)
      have samePath := congrArg EndpointDoc.path kept
      have sameAuth := congrArg EndpointDoc.authentication kept
      simp only [resent, located, Option.some.injEq] at samePath sameAuth
      refine ⟨?_, type, sameAuth.symm⟩
      intro other same
      rw [located, Option.some.injEq] at same
      rw [← same, samePath]
    · rintro ⟨normal, type', bare⟩
      have same : type' = type := by
        obtain rfl := Option.some.inj (authenticated.symm.trans bare)
        simpa [bareAuth] using known
      subst same
      have whole : resent doc path type' now = { doc with updatedAt := toMillis now } := by
        simp [resent, normal path located, ← located, ← bare]
      rw [whole] at left
      exact ⟨_, left, rfl, fun _ _ _ => rfl⟩

/-- An endpoint with a secret, as the API creates it with the defaults of its type and the
dashboard saves it. -/
def hub (type : AuthType) (start : Option Str) : EndpointDoc where
  id := githubId
  name := some (lit "GitHub")
  path := some (lit "github")
  enabled := some true
  authentication := some ⟨type.value, defaultAuthHeader type, start⟩
  secret := some (lit "s3cret")
  allowedMethods := some [lit "POST"]
  maxPayloadSize := none
  retentionDays := some 30
  createdAt := 0
  updatedAt := 0

/-- The endpoint is well formed. -/
theorem hub_wellFormed (type : AuthType) (start : Option Str) : WellFormed (hub type start) where
  name := ⟨⟨lit "GitHub", by decide +kernel⟩, rfl⟩
  path := ⟨⟨lit "github", by decide +kernel⟩, rfl⟩
  enabled := ⟨true, rfl⟩
  authentication := ⟨_, type, rfl, ofValue_value type⟩
  allowedMethods := ⟨⟨[lit "POST"], by decide +kernel⟩, rfl⟩
  maxPayloadSize size stored := nomatch stored
  retentionDays days stored := by
    obtain rfl := Option.some.inj stored
    decide

/-- The collection of one endpoint. -/
def only (doc : EndpointDoc) (written : doc.toBson.storable = true) : Endpoints where
  stored := ⟨[doc], List.nodup_singleton _⟩
  uniquePaths := List.nodup_singleton _
  written := List.forall_mem_singleton.mpr written

/-- An endpoint with signed requests, as it was created. -/
def signedHub : Endpoints := only (hub .hmacSha256 (some (lit "sha256="))) (by decide +kernel)

/-- The same endpoint after a save, which left it without a prefix. -/
def savedHub : Endpoints := only (hub .hmacSha256 none) (by decide +kernel)

/-- Saving an endpoint a second time changes nothing. -/
theorem untouched_save_exact_saved :
    ∃ shown, EndpointOut.fromDocument Casing.ascii (hub .hmacSha256 none) = some shown ∧
      Untouched Casing.ascii (hub .hmacSha256 none)
        (endpointSave Casing.ascii Numerals.ascii savedHub githubId shown.form 1000).1 := by
  have sound := hub_wellFormed .hmacSha256 none
  obtain ⟨shown, read⟩ := fromDocument_wellFormed Casing.ascii sound
  have found : savedHub.findId githubId = some (hub .hmacSha256 none) := by decide +kernel
  have trimmed : ∀ name, (hub .hmacSha256 none).name = some name → Text.strip name = name := by
    intro name named
    obtain rfl := Option.some.inj named
    decide +kernel
  refine ⟨shown, read, (untouched_save_exact Casing.ascii Numerals.ascii found sound trimmed read
    1000).mpr (.inr ⟨?_, .hmacSha256, rfl⟩)⟩
  intro path located
  obtain rfl := Option.some.inj located
  decide +kernel

/-- An endpoint as it was created loses the prefix of its signatures when its form is sent
back. -/
theorem untouched_save_loses_prefix :
    ¬ ∀ (casing : Casing) (numerals : Numerals) (endpoints : Endpoints) (doc : EndpointDoc)
      (shown : EndpointOut) (now : Instant), endpoints.findId doc.id = some doc → WellFormed doc →
      (∀ name, doc.name = some name → Text.strip name = name) →
      EndpointOut.fromDocument casing doc = some shown →
      Untouched casing doc (endpointSave casing numerals endpoints doc.id shown.form now).1 := by
  intro claimed
  have sound := hub_wellFormed .hmacSha256 (some (lit "sha256="))
  obtain ⟨shown, read⟩ := fromDocument_wellFormed Casing.ascii sound
  have found : signedHub.findId githubId = some (hub .hmacSha256 (some (lit "sha256="))) := by
    decide +kernel
  obtain ⟨saved, stored, kept, _⟩ := claimed Casing.ascii Numerals.ascii signedHub
    (hub .hmacSha256 (some (lit "sha256="))) shown 1000 found sound
    (by
      intro name named
      obtain rfl := Option.some.inj named
      decide +kernel) read
  have lost : (EndpointOut.fromDocument Casing.ascii
      (hub .hmacSha256 (some (lit "sha256=")))).map (fun shown =>
        ((endpointSave Casing.ascii Numerals.ascii signedHub githubId shown.form 1000).1.findId
          githubId).map EndpointDoc.authentication) =
      some (some (some (bareAuth .hmacSha256))) := by decide +kernel
  have same : saved.authentication = some (bareAuth .hmacSha256) := by
    rw [read, Option.map_some, Option.some.injEq] at lost
    change Endpoints.findId (endpointSave Casing.ascii Numerals.ascii signedHub githubId
      shown.form 1000).1 githubId = _ at stored
    rw [stored] at lost
    exact Option.some.inj lost
  have held : saved.authentication = (hub .hmacSha256 (some (lit "sha256="))).authentication := by
    rw [kept]
  exact absurd (held.symm.trans same) (by decide +kernel)

end WebhookInbox.Endpoint
