import WebhookInbox.Db
import WebhookInbox.Library.Dict

/-!
# Verifying a request

A request to an endpoint with authentication has to present the shared secret, or
the HMAC of its body under the secret. Comparing texts raises on characters outside
ASCII, and so does encoding a secret with a lone surrogate.
-/

namespace WebhookInbox.Signature

open Library WebhookInbox.Endpoint

/-- `hmac.compare_digest(first, second)` on texts, missing when it raises. -/
def compareDigest (first second : Str) : Option Bool :=
  if (first ++ second).all (fun point => decide (point.val < 128)) then some (first == second)
  else none

/-- The first of two texts unless it is missing or empty. -/
def orElse (text : Option Str) (other : Str) : Str := (text.filter (· ≠ [])).getD other

section
variable (casing : Casing) (hexDigest : Bytes → Bytes → Str)

/-- `verify(endpoint, headers, raw_body)`, missing when it raises. `hexDigest` is the
HMAC-SHA256 of a message under a key, in hexadecimal. -/
def verify (endpoint : EndpointDoc) (headers : Dict Str Str) (rawBody : Bytes) : Option Bool :=
  match endpoint.authentication with
  | none => some true
  | some auth =>
      match AuthType.ofValue auth.type with
      | none => some false
      | some .none => some true
      | some type =>
          match endpoint.secret.filter (· ≠ []) with
          | none => some false
          | some secret =>
              let headerName := orElse auth.header ((defaultAuthHeader type).getD [])
              match (headers.get headerName).filter (· ≠ []) with
              | none => some false
              | some provided =>
                  match type with
                  | .staticSecret => compareDigest provided secret
                  | _ =>
                      match Encoding.encodeUtf8 secret with
                      | none => none
                      | some key =>
                          let start := orElse auth.signaturePrefix []
                          let candidate := Text.removePrefix provided start
                          compareDigest (casing.lower (Text.strip candidate))
                            (hexDigest key rawBody)

end

end WebhookInbox.Signature
