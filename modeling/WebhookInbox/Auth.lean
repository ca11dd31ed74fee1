import WebhookInbox.Ingest.Signature
import WebhookInbox.Library.IndexedCollection

/-!
# Users and sessions

The dashboard signs a user in by a name and a password, and keeps a session under the
hash of a token. Requests to all paths but the public ones need a session, and those that
change something also its CSRF token.

Hashing and checking passwords, and the hash of a token, are parameters. A check or a hash
is missing when it raises, as it does on text that cannot be encoded.
-/

namespace WebhookInbox.Auth

open Library Calendar

/-- A document of the `users` collection. -/
structure User where
  id : ObjectId
  username : Str
  passwordHash : Str
  createdAt : Millis
  updatedAt : Option Millis
deriving DecidableEq

/-- A document of the `sessions` collection. The last field is not stored: it counts the
changes of the user's password before the login that made the session read its hash. -/
structure Session where
  id : ObjectId
  tokenHash : Str
  userId : ObjectId
  csrfToken : Str
  createdAt : Millis
  expiresAt : Millis
  verified : Nat
deriving DecidableEq

/-- The `users` collection with its index on the name. -/
abbrev Users := IndexedCollection User.id User.username

/-- The `sessions` collection with its index on the hash of the token. -/
abbrev Sessions := IndexedCollection Session.id Session.tokenHash

/-- `PasswordHasher` with its salt, the hash of a token, and `DUMMY_HASH`. -/
structure Hasher where
  hash : Str → Str → Option Str
  verify : Str → Str → Option Bool
  digest : Str → Str
  dummyHash : Str

/-- `SESSION_TTL` in microseconds. -/
def sessionTtl : Int := 7 * 86400 * 1000000

/-- What a request draws while it runs: an identifier, the random texts and the time. -/
structure Draw where
  id : ObjectId
  token : Str
  csrfToken : Str
  salt : Str
  now : Instant

/-- The document that `create_session` inserts. -/
def Hasher.session (hasher : Hasher) (userId : ObjectId) (verified : Nat) (draw : Draw) :
    Session where
  id := draw.id
  tokenHash := hasher.digest draw.token
  userId := userId
  csrfToken := draw.csrfToken
  createdAt := toMillis draw.now
  expiresAt := toMillis (draw.now + sessionTtl)
  verified := verified

/-- `session["expires_at"] <= datetime.now(UTC)` -/
def Session.expired (session : Session) (now : Instant) : Bool :=
  decide (session.expiresAt * 1000 ≤ now)

/-- `destroy_user_sessions(db, user_id)` -/
def destroyUserSessions (sessions : Sessions) (userId : ObjectId) : Sessions :=
  sessions.deleteMany (fun session => decide (session.userId = userId))

/-- `destroy_session(db, token)` for a token that is given. -/
def destroySession (sessions : Sessions) (tokenHash : Str) : Sessions :=
  sessions.deleteMany (fun session => decide (session.tokenHash = tokenHash))

/-- `_csrf_ok(request)`, missing when it raises. -/
def csrfOk (expected : Str) (provided : Option Str) : Option Bool :=
  match provided with
  | none => some false
  | some text =>
      if expected = [] ∨ text = [] then some false else Signature.compareDigest text expected

/-! ## Users -/

/-- Why the settings page shows an error. -/
inductive Notice where
  | text (message : Str)
  | patternMismatch
  | tooShort
  | tooLong
deriving DecidableEq

/-- A letter, a digit, or one of the marks `.`, `_` and `-`. -/
def isUsernameCharacter (point : CodePoint) : Bool :=
  decide ((0x41 ≤ point.val ∧ point.val ≤ 0x5A) ∨ (0x61 ≤ point.val ∧ point.val ≤ 0x7A) ∨
    (0x30 ≤ point.val ∧ point.val ≤ 0x39) ∨ point.val = 0x2E ∨ point.val = 0x5F ∨
    point.val = 0x2D)

/-- `MIN_PASSWORD_LENGTH` -/
def minPasswordLength : Nat := 8

/-- `UserCreate(username=username, password=password)`: the first of its errors. -/
def userCreateError (username password : Str) : Option Notice :=
  if ¬ (3 ≤ username.length ∧ username.length ≤ 32 ∧ username.all isUsernameCharacter) then
    some .patternMismatch
  else if password.length < minPasswordLength then some .tooShort
  else if 256 < password.length then some .tooLong
  else none

/-- The update of a password. -/
def User.setPassword (hash : Str) (now : Instant) (user : User) : User :=
  { user with passwordHash := hash, updatedAt := some (toMillis now) }

end WebhookInbox.Auth
