import WebhookInbox.Ingest.Receiver

/-!
# Who is let in

What an endpoint asks of a request, and when `verify` answers as asked. Comparing texts
raises on characters outside ASCII, so a header with one of them, or a secret with one
of them that is compared as it is, loses the request instead of rejecting it.
-/

namespace WebhookInbox.Signature

open Library WebhookInbox.Endpoint WebhookInbox.Receiver

/-- The authentication type of an endpoint, missing when it is unknown. -/
def typeOf (endpoint : EndpointDoc) : Option AuthType :=
  match endpoint.authentication with
  | none => some .none
  | some auth => AuthType.ofValue auth.type

/-- The value of the configured header, unless it is missing or empty. -/
def presented (auth : AuthDoc) (type : AuthType) (headers : Dict Str Str) : Option Str :=
  (headers.get (orElse auth.header ((defaultAuthHeader type).getD []))).filter (· ≠ [])

/-- The signature in a header value: without the prefix, trimmed. -/
def signaturePart (auth : AuthDoc) (provided : Str) : Str :=
  Text.strip (Text.removePrefix provided (orElse auth.signaturePrefix []))

/-- The request presents what the endpoint asks for: nothing, the secret, or the HMAC of
the body under the secret. -/
inductive Genuine (casing : Casing) (hexDigest : Bytes → Bytes → Str) (endpoint : EndpointDoc)
    (headers : Dict Str Str) (rawBody : Bytes) : Prop
  | unasked (type : typeOf endpoint = some .none)
  | shared (auth : AuthDoc) (secret : Str) (configured : endpoint.authentication = some auth)
      (type : AuthType.ofValue auth.type = some .staticSecret)
      (stored : endpoint.secret = some secret) (filled : secret ≠ [])
      (given : presented auth .staticSecret headers = some secret)
  | signed (auth : AuthDoc) (secret provided : Str) (key : Bytes)
      (configured : endpoint.authentication = some auth)
      (type : AuthType.ofValue auth.type = some .hmacSha256)
      (stored : endpoint.secret = some secret) (filled : secret ≠ [])
      (encoded : Encoding.encodeUtf8 secret = some key)
      (given : presented auth .hmacSha256 headers = some provided)
      (matching : casing.lower (signaturePart auth provided) = hexDigest key rawBody)

/-- What is compared for this type is ASCII, and the key of an HMAC can be encoded. -/
def Compares (auth : AuthDoc) (secret provided : Str) : AuthType → Prop
  | .none => True
  | .staticSecret => Text.Ascii provided ∧ Text.Ascii secret
  | .hmacSha256 => Text.Scalar secret ∧ Text.Ascii (signaturePart auth provided)

instance comparesDecidable (auth : AuthDoc) (secret provided : Str) (type : AuthType) :
    Decidable (Compares auth secret provided type) :=
  match type with
  | .none => isTrue trivial
  | .staticSecret => inferInstanceAs (Decidable (_ ∧ _))
  | .hmacSha256 => inferInstanceAs (Decidable (_ ∧ _))

/-- Where a secret is stored and the header is there, what is compared can be compared. -/
def Comparable (endpoint : EndpointDoc) (headers : Dict Str Str) : Prop :=
  ∀ auth ∈ endpoint.authentication, ∀ type ∈ AuthType.ofValue auth.type,
    ∀ secret ∈ endpoint.secret.filter (· ≠ []), ∀ provided ∈ presented auth type headers,
      Compares auth secret provided type

instance comparableDecidable (endpoint : EndpointDoc) (headers : Dict Str Str) :
    Decidable (Comparable endpoint headers) :=
  inferInstanceAs (Decidable (∀ auth ∈ endpoint.authentication, _))

/-! ## Comparing -/

/-- ASCII texts are compared. -/
theorem compareDigest_ascii {first second : Str} (left : Text.Ascii first)
    (right : Text.Ascii second) : compareDigest first second = some (decide (first = second)) := by
  have ascii : (first ++ second).all (fun point => decide (point.val < 128)) = true := by
    simp only [List.all_eq_true, decide_eq_true_eq, List.mem_append]
    rintro point (inFirst | inSecond)
    · exact left point inFirst
    · exact right point inSecond
  rw [compareDigest, if_pos ascii, beq_eq_decide]

/-- Texts that can be compared are ASCII. -/
theorem ascii_of_compareDigest {first second : Str} {verdict : Bool}
    (compared : compareDigest first second = some verdict) :
    Text.Ascii first ∧ Text.Ascii second := by
  unfold compareDigest at compared
  split at compared
  · rename_i ascii
    simp only [List.all_eq_true, decide_eq_true_eq, List.mem_append] at ascii
    exact ⟨fun point member => ascii point (.inl member),
      fun point member => ascii point (.inr member)⟩
  · cases compared

/-- Trimming and removing a prefix take a part of a header value. -/
theorem signaturePart_subset (auth : AuthDoc) (provided : Str) :
    signaturePart auth provided ⊆ provided := by
  refine List.Subset.trans (Text.stripBy_sublist _ _).subset ?_
  unfold Text.removePrefix
  split
  · exact List.drop_subset _ _
  · exact List.Subset.refl _

/-- The keys of an HMAC are the secrets without lone surrogates. -/
theorem encodeUtf8_isSome {text : Str} :
    (Encoding.encodeUtf8 text).isSome = true ↔ Text.Scalar text := by
  unfold Encoding.encodeUtf8
  split
  · rename_i scalar
    simpa [Text.Scalar] using scalar
  · rename_i lone
    simpa [Text.Scalar] using lone

/-! ## Verifying -/

section
variable {casing : Casing} {hexDigest : Bytes → Bytes → Str} {endpoint : EndpointDoc}
  {headers : Dict Str Str} {rawBody : Bytes} {auth : AuthDoc} {type : AuthType}

/-- Without a secret, or without the header, the request is rejected. -/
theorem verify_lacking (configured : endpoint.authentication = some auth)
    (known : AuthType.ofValue auth.type = some type) (asks : type ≠ .none)
    (lacking : endpoint.secret.filter (· ≠ []) = none ∨ presented auth type headers = none) :
    verify casing hexDigest endpoint headers rawBody = some false := by
  cases type with
  | none => exact absurd rfl asks
  | staticSecret =>
    cases lacking with
    | inl unset => simp only [verify, configured, known, unset]
    | inr absent =>
      unfold presented at absent
      cases secret : endpoint.secret.filter (· ≠ []) with
      | none => simp only [verify, configured, known, secret]
      | some secret' => simp only [verify, configured, known, secret, absent]
  | hmacSha256 =>
    cases lacking with
    | inl unset => simp only [verify, configured, known, unset]
    | inr absent =>
      unfold presented at absent
      cases secret : endpoint.secret.filter (· ≠ []) with
      | none => simp only [verify, configured, known, secret]
      | some secret' => simp only [verify, configured, known, secret, absent]

variable {secret provided : Str}

/-- A shared secret is compared with the header. -/
theorem verify_shared (configured : endpoint.authentication = some auth)
    (known : AuthType.ofValue auth.type = some .staticSecret)
    (stored : endpoint.secret.filter (· ≠ []) = some secret)
    (given : presented auth .staticSecret headers = some provided) :
    verify casing hexDigest endpoint headers rawBody = compareDigest provided secret := by
  unfold presented at given
  simp only [verify, configured, known, stored, given]

/-- The signature in the header is compared with the HMAC of the body. -/
theorem verify_signed (configured : endpoint.authentication = some auth)
    (known : AuthType.ofValue auth.type = some .hmacSha256)
    (stored : endpoint.secret.filter (· ≠ []) = some secret)
    (given : presented auth .hmacSha256 headers = some provided) :
    verify casing hexDigest endpoint headers rawBody =
      (Encoding.encodeUtf8 secret).bind (fun key =>
        compareDigest (casing.lower (signaturePart auth provided)) (hexDigest key rawBody)) := by
  unfold presented at given
  simp only [verify, configured, known, stored, given, signaturePart]
  cases Encoding.encodeUtf8 secret <;> rfl

/-- Nothing is genuine where the type is unknown. -/
theorem not_genuine_unknown (configured : endpoint.authentication = some auth)
    (unknown : AuthType.ofValue auth.type = none) :
    ¬ Genuine casing hexDigest endpoint headers rawBody := by
  intro genuine
  cases genuine with
  | unasked open' => simp [typeOf, configured, unknown] at open'
  | shared other secret found shared =>
    obtain rfl := Option.some.inj (configured.symm.trans found)
    cases unknown.symm.trans shared
  | signed other secret provided key found signed =>
    obtain rfl := Option.some.inj (configured.symm.trans found)
    cases unknown.symm.trans signed

/-- Nothing is genuine where the secret or the header is missing. -/
theorem not_genuine_lacking (configured : endpoint.authentication = some auth)
    (known : AuthType.ofValue auth.type = some type) (asks : type ≠ .none)
    (lacking : endpoint.secret.filter (· ≠ []) = none ∨ presented auth type headers = none) :
    ¬ Genuine casing hexDigest endpoint headers rawBody := by
  intro genuine
  cases genuine with
  | unasked open' =>
    simp only [typeOf, configured, known, Option.some.injEq] at open'
    exact asks open'
  | shared other secret found shared stored filled given =>
    obtain rfl := Option.some.inj (configured.symm.trans found)
    obtain rfl := Option.some.inj (known.symm.trans shared)
    simp [stored, filled, given, Option.filter_some] at lacking
  | signed other secret provided key found signed stored filled encoded given matching =>
    obtain rfl := Option.some.inj (configured.symm.trans found)
    obtain rfl := Option.some.inj (known.symm.trans signed)
    simp [stored, filled, given, Option.filter_some] at lacking

/-- A header is genuine if it is the shared secret. -/
theorem genuine_shared_iff (configured : endpoint.authentication = some auth)
    (known : AuthType.ofValue auth.type = some .staticSecret)
    (stored : endpoint.secret.filter (· ≠ []) = some secret)
    (given : presented auth .staticSecret headers = some provided) :
    Genuine casing hexDigest endpoint headers rawBody ↔ provided = secret := by
  obtain ⟨present, filled⟩ := Option.filter_eq_some_iff.mp stored
  constructor
  · intro genuine
    cases genuine with
    | unasked open' => simp [typeOf, configured, known] at open'
    | shared other second found shared again _ givenAgain =>
      obtain rfl := Option.some.inj (configured.symm.trans found)
      obtain rfl := Option.some.inj (present.symm.trans again)
      exact Option.some.inj (given.symm.trans givenAgain)
    | signed other second third key found signed =>
      obtain rfl := Option.some.inj (configured.symm.trans found)
      cases known.symm.trans signed
  · rintro rfl
    exact .shared auth provided configured known present (of_decide_eq_true filled) given

/-- A header is genuine if its signature is the HMAC of the body under the secret. -/
theorem genuine_signed_iff (configured : endpoint.authentication = some auth)
    (known : AuthType.ofValue auth.type = some .hmacSha256)
    (stored : endpoint.secret.filter (· ≠ []) = some secret)
    (given : presented auth .hmacSha256 headers = some provided) :
    Genuine casing hexDigest endpoint headers rawBody ↔
      ∃ key ∈ Encoding.encodeUtf8 secret,
        casing.lower (signaturePart auth provided) = hexDigest key rawBody := by
  obtain ⟨present, filled⟩ := Option.filter_eq_some_iff.mp stored
  constructor
  · intro genuine
    cases genuine with
    | unasked open' => simp [typeOf, configured, known] at open'
    | shared other second found shared =>
      obtain rfl := Option.some.inj (configured.symm.trans found)
      cases known.symm.trans shared
    | signed other second third key found signed again _ encoded givenAgain matching =>
      obtain rfl := Option.some.inj (configured.symm.trans found)
      obtain rfl := Option.some.inj (present.symm.trans again)
      obtain rfl := Option.some.inj (given.symm.trans givenAgain)
      exact ⟨key, encoded, matching⟩
  · rintro ⟨key, encoded, matching⟩
    exact .signed auth secret provided key configured known present (of_decide_eq_true filled)
      encoded given matching

/-! ## Answering as asked -/

/-- Where there is authentication its own texts decide what can be compared. -/
theorem comparable_of_auth (configured : endpoint.authentication = some auth)
    (idle : ∀ type ∈ AuthType.ofValue auth.type,
      ∀ secret ∈ endpoint.secret.filter (· ≠ []), ∀ provided ∈ presented auth type headers,
        type = .none) : Comparable endpoint headers := by
  intro other found type known secret stored provided given
  obtain rfl := Option.some.inj (configured.symm.trans found)
  rw [idle type known secret stored provided given]
  trivial

/-- Where a secret is stored and the header is there, these are what is compared. -/
theorem comparable_given {type : AuthType} (configured : endpoint.authentication = some auth)
    (known : AuthType.ofValue auth.type = some type)
    (stored : endpoint.secret.filter (· ≠ []) = some secret)
    (given : presented auth type headers = some provided) :
    Comparable endpoint headers ↔ Compares auth secret provided type := by
  constructor
  · intro comparable
    exact comparable auth configured type known secret stored provided given
  · intro compares other found second same third again fourth givenAgain
    obtain rfl := Option.some.inj (configured.symm.trans found)
    obtain rfl := Option.some.inj (known.symm.trans same)
    obtain rfl := Option.some.inj (stored.symm.trans again)
    obtain rfl := Option.some.inj (given.symm.trans givenAgain)
    exact compares

/-- What a Latin-1 header presents is Latin-1. -/
theorem presented_latin1 {type : AuthType} {provided : Str}
    (latin : ∀ header ∈ headers, Latin1 header.1 ∧ Latin1 header.2)
    (given : presented auth type headers = some provided) : Latin1 provided :=
  (latin _ (Dict.get_mem (Option.filter_eq_some_iff.mp given).1)).2

/-- A comparison answers whether the texts are equal exactly if both are ASCII. -/
theorem compareDigest_exact (first second : Str) :
    (∃ verdict, compareDigest first second = some verdict ∧ (verdict = true ↔ first = second)) ↔
      Text.Ascii first ∧ Text.Ascii second := by
  constructor
  · rintro ⟨verdict, compared, _⟩
    exact ascii_of_compareDigest compared
  · rintro ⟨left, right⟩
    exact ⟨_, compareDigest_ascii left right, decide_eq_true_iff⟩

section
variable (folds : ∀ text, Latin1 text → Text.Ascii (casing.lower text) → Text.Ascii text)
  (hexadecimal : ∀ key message, Text.Ascii (hexDigest key message))

include folds

/-- Changing the case of a Latin-1 text brings no character into ASCII or out of it. -/
theorem lower_ascii_iff {text : Str} (latin : Latin1 text) :
    Text.Ascii (casing.lower text) ↔ Text.Ascii text := by
  constructor
  · exact folds text latin
  · intro ascii
    rw [casing.lower_ascii text ascii]
    intro point member
    obtain ⟨source, inText, rfl⟩ := List.mem_map.mp member
    have small := ascii source inText
    unfold Text.asciiLower
    split
    · simp only
      omega
    · exact small

include hexadecimal

/-- A signature is checked as asked exactly if the key can be encoded and the signature is
ASCII. -/
theorem signed_exact {auth : AuthDoc} {secret provided : Str} (latin : Latin1 provided) :
    (∃ verdict, ((Encoding.encodeUtf8 secret).bind (fun key =>
        compareDigest (casing.lower (signaturePart auth provided)) (hexDigest key rawBody))) =
          some verdict ∧
        (verdict = true ↔ ∃ key ∈ Encoding.encodeUtf8 secret,
          casing.lower (signaturePart auth provided) = hexDigest key rawBody)) ↔
      Text.Scalar secret ∧ Text.Ascii (signaturePart auth provided) := by
  have part : Latin1 (signaturePart auth provided) :=
    fun point member => latin point (signaturePart_subset auth provided member)
  rw [← encodeUtf8_isSome, ← lower_ascii_iff folds part]
  cases encoded : Encoding.encodeUtf8 secret with
  | none => simp
  | some key =>
    have compared := compareDigest_exact (casing.lower (signaturePart auth provided))
      (hexDigest key rawBody)
    simpa [hexadecimal key rawBody] using compared

/-- `verify` answers, and lets exactly the genuine requests in, if and only if the texts it
compares are ASCII and the key of an HMAC can be encoded.

Proof: by cases on the configuration, the secret and the header. Where a text is compared,
the comparison answers only for ASCII. -/
theorem verify_exact (endpoint : EndpointDoc) (headers : Dict Str Str) (rawBody : Bytes)
    (latin : ∀ header ∈ headers, Latin1 header.1 ∧ Latin1 header.2) :
    (∃ verdict, verify casing hexDigest endpoint headers rawBody = some verdict ∧
        (verdict = true ↔ Genuine casing hexDigest endpoint headers rawBody)) ↔
      Comparable endpoint headers := by
  cases configured : endpoint.authentication with
  | none =>
    have verified : verify casing hexDigest endpoint headers rawBody = some true := by
      simp only [verify, configured]
    refine iff_of_true ⟨true, verified, iff_of_true rfl (.unasked ?_)⟩ ?_
    · simp only [typeOf, configured]
    · intro auth given
      rw [configured] at given
      cases given
  | some auth =>
    cases known : AuthType.ofValue auth.type with
    | none =>
      have verified : verify casing hexDigest endpoint headers rawBody = some false := by
        simp only [verify, configured, known]
      refine iff_of_true ⟨false, verified, iff_of_false Bool.false_ne_true
        (not_genuine_unknown configured known)⟩ ?_
      exact comparable_of_auth configured (by simp [known])
    | some type =>
      by_cases asks : type = .none
      · subst asks
        have verified : verify casing hexDigest endpoint headers rawBody = some true := by
          simp only [verify, configured, known]
        refine iff_of_true ⟨true, verified, iff_of_true rfl (.unasked ?_)⟩ ?_
        · simp only [typeOf, configured, known]
        · exact comparable_of_auth configured (by simp [known])
      · cases stored : endpoint.secret.filter (· ≠ []) with
        | none =>
          refine iff_of_true ⟨false, verify_lacking configured known asks (.inl stored),
            iff_of_false Bool.false_ne_true
              (not_genuine_lacking configured known asks (.inl stored))⟩ ?_
          refine comparable_of_auth configured ?_
          rw [stored]
          intro _ _ _ absent
          cases absent
        | some secret =>
          cases given : presented auth type headers with
          | none =>
            refine iff_of_true ⟨false, verify_lacking configured known asks (.inr given),
              iff_of_false Bool.false_ne_true
                (not_genuine_lacking configured known asks (.inr given))⟩ ?_
            exact comparable_of_auth configured (by simp [known, given])
          | some provided =>
            cases type with
            | none => exact absurd rfl asks
            | staticSecret =>
              rw [verify_shared configured known stored given,
                genuine_shared_iff configured known stored given,
                comparable_given configured known stored given]
              exact compareDigest_exact provided secret
            | hmacSha256 =>
              rw [verify_signed configured known stored given,
                genuine_signed_iff configured known stored given,
                comparable_given configured known stored given]
              exact signed_exact folds hexadecimal (presented_latin1 latin given)

end

end

/-- The creation of an endpoint with a shared secret. -/
def sharedInput : CreateInput where
  name := lit "hub"
  path := lit "hub"
  authentication := { type := .staticSecret }
  secret := some (lit "s3cret")

def sharedPayload : EndpointCreate where
  name := ⟨lit "hub", by decide⟩
  path := ⟨lit "hub", by decide⟩
  enabled := true
  authentication := { type := .staticSecret, header := some (lit "x-webhook-secret") }
  secret := some (lit "s3cret")
  allowedMethods := ⟨[lit "POST"], methods_post⟩
  maxPayloadSize := none
  retentionDays := none

/-- The endpoint that it creates. -/
def sharedEndpoint : EndpointDoc := sharedPayload.toDocument ⟨1⟩ 0

/-- The tables of ASCII fold no other Latin-1 character into it. -/
theorem ascii_folds (text : Str) (_ : Latin1 text) (ascii : Text.Ascii (Casing.ascii.lower text)) :
    Text.Ascii text := by
  intro point member
  have small := ascii _ (List.mem_map_of_mem member)
  unfold Text.asciiLower at small
  split at small
  · omega
  · exact small

/-- A wrong secret is rejected. -/
theorem verify_exact_wrong :
    ∃ verdict, verify Casing.ascii (fun _ _ => lit "00") sharedEndpoint
        [(lit "x-webhook-secret", lit "wrong")] [] = some verdict ∧
      (verdict = true ↔ Genuine Casing.ascii (fun _ _ => lit "00") sharedEndpoint
        [(lit "x-webhook-secret", lit "wrong")] []) :=
  (verify_exact ascii_folds (fun _ _ => by decide) sharedEndpoint
    [(lit "x-webhook-secret", lit "wrong")] [] (by decide)).mpr (by decide +kernel)

/-- A header with a character outside ASCII is neither accepted nor rejected. -/
theorem verify_raises :
    ¬ ∀ (casing : Casing) (hexDigest : Bytes → Bytes → Str) (given : CreateInput)
      (payload : EndpointCreate) (id : ObjectId) (now : Calendar.Instant) (headers : Dict Str Str)
      (rawBody : Bytes),
      (∀ text, Latin1 text → Text.Ascii (casing.lower text) → Text.Ascii text) →
      (∀ key message, Text.Ascii (hexDigest key message)) →
      EndpointCreate.validate casing given = .ok payload →
      (∀ header ∈ headers, Latin1 header.1 ∧ Latin1 header.2) →
      ∃ verdict, verify casing hexDigest (payload.toDocument id now) headers rawBody =
          some verdict ∧
        (verdict = true ↔ Genuine casing hexDigest (payload.toDocument id now) headers rawBody) := by
  intro claimed
  have raised : verify Casing.ascii (fun _ _ => lit "00") sharedEndpoint
      [(lit "x-webhook-secret", [0xE9])] [] = none := by decide +kernel
  obtain ⟨verdict, answered, _⟩ := claimed Casing.ascii (fun _ _ => lit "00") sharedInput
    sharedPayload ⟨1⟩ 0 [(lit "x-webhook-secret", [0xE9])] [] ascii_folds (fun _ _ => by decide)
    (by rfl) (by decide)
  exact Option.some_ne_none _ (answered.symm.trans raised)

end WebhookInbox.Signature
