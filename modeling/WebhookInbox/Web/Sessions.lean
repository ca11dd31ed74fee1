import WebhookInbox.Auth
import WebhookInbox.Library.Run

/-!
# Sessions under concurrent requests

Logins, logouts, password changes, and the creation and deletion of users run side by side.
Every call on the database is a step of its own. A request that needs a session first
looks up its session and then its user, and goes on from what it read. What the settings
page lists is not read here.

Besides the collections, a state counts the changes of each user's password: those that
were written, and those whose requests went on to remove the user's sessions. Neither
count is stored, and no step depends on them.
-/

namespace WebhookInbox.Auth

open Library Library.Run Calendar

/-- What a request asks for. Logins and logouts come by the API or by the dashboard, and a
login says whether the limiter lets it pass. A user to delete has no identifier if the text
of the path is none. Other requests only read, or are safe ones. -/
inductive Action where
  | login (api : Bool) (username password : Str) (allowed : Bool)
  | logout (api : Bool)
  | changePassword (currentPassword newPassword : Str)
  | createUser (username password : Str)
  | deleteUser (userId : Option ObjectId)
  | other (safe api : Bool)

/-- A request with its cookie and its CSRF header. -/
structure Request where
  action : Action
  cookie : Option Str
  csrf : Option Str

/-- What a request is answered with. A failure is an exception that nothing catches, and a
request may be passed on to another route. -/
inductive Reply where
  | detail (status : Nat) (reason : Str)
  | redirect (url : Str)
  | loginPage (status : Nat) (error : Str)
  | page (error : Notice)
  | refresh (url : Str)
  | noContent
  | csrfToken (text : Str)
  | passed (user : User)
  | failure

/-- Where a request stands: before a call on the database, or at its answer. -/
inductive Task where
  | expiring (session : ObjectId) (request : Request)
  | resolving (session : Session) (request : Request)
  | authenticating (api : Bool) (username password : Str)
  | granting (api : Bool) (userId : ObjectId) (verified : Nat)
  | signingOut (api : Bool) (tokenHash : Str)
  | changing (userId : ObjectId) (newPassword : Str)
  | revoking (userId : ObjectId) (written : Nat)
  | creating (username password : Str)
  | counting (userId : ObjectId)
  | deleting (userId : ObjectId)
  | purging (userId : ObjectId)
  | answered (reply : Reply)

/-- The collections, the requests in the order of their arrival, and for each user how
often the password was changed, and the last change that was completed. -/
structure State where
  users : Users
  sessions : Sessions
  tasks : List Task
  written : ObjectId → Nat
  completed : ObjectId → Nat

/-- A request arrives, makes its next call on the database, or sessions expire. -/
inductive Label where
  | arrive (request : Request) (now : Instant)
  | call (task : Nat) (draw : Draw)
  | sweep (now : Millis)

/-- Move one request. -/
def State.move (system : State) (task : Nat) (place : Task) : State :=
  { system with tasks := system.tasks.set task place }

/-- `request.method in SAFE_METHODS` -/
def Action.safe : Action → Bool
  | .other safe _ => safe
  | _ => false

/-- The path starts with `/api/`. -/
def Action.api : Action → Bool
  | .login api _ _ _ => api
  | .logout api => api
  | .other _ api => api
  | _ => false

/-- `_unauthorized(request)` -/
def unauthorized (action : Action) : Reply :=
  if action.api then .detail 401 (lit "Not authenticated") else .redirect (lit "/login")

/-- The answer to a login that the limiter does not let pass. -/
def throttled (api : Bool) : Reply :=
  if api then .detail 429 (lit "Too many sign-in attempts")
  else .loginPage 429 (lit "Too many sign-in attempts. Try again shortly.")

/-- The answer to a login with an unknown name or a wrong password. -/
def invalidLogin (api : Bool) : Reply :=
  if api then .detail 401 (lit "Invalid credentials")
  else .loginPage 200 (lit "Invalid username or password")

/-- The answer to a login that has stored its session. -/
def signedIn (api : Bool) (draw : Draw) : Reply :=
  if api then .csrfToken draw.csrfToken else .redirect (lit "/")

/-- The answer to a logout. -/
def signedOut (api : Bool) : Reply :=
  if api then .noContent else .redirect (lit "/login")

section
variable (hasher : Hasher)

/-- The route of an admitted request up to its first write, or its count. -/
def handle (user : User) (request : Request) : Task :=
  match request.action with
  | .login _ _ _ _ => .answered (.passed user)
  | .logout api =>
      match request.cookie.filter (· ≠ []) with
      | none => .answered (signedOut api)
      | some token => .signingOut api (hasher.digest token)
  | .changePassword currentPassword newPassword =>
      match hasher.verify currentPassword user.passwordHash with
      | none => .answered .failure
      | some false => .answered (.page (.text (lit "Current password is wrong")))
      | some true =>
          if newPassword.length < 8 then
            .answered (.page (.text (lit "New password is too short (min 8)")))
          else .changing user.id newPassword
  | .createUser username password =>
      match userCreateError (Text.strip username) password with
      | some notice => .answered (.page notice)
      | none => .creating (Text.strip username) password
  | .deleteUser none => .answered (.detail 404 (lit "Not found"))
  | .deleteUser (some userId) =>
      if userId = user.id then
        .answered (.detail 400 (lit "You cannot delete your own account"))
      else .counting userId
  | .other _ _ => .answered (.passed user)

/-- The middleware after `resolve_session`. The login is public. -/
def dispatch (request : Request) (resolved : Option (Session × User)) : Task :=
  match request.action, resolved with
  | .login api username password allowed, _ =>
      if allowed then .authenticating api username password else .answered (throttled api)
  | action, none => .answered (unauthorized action)
  | action, some (session, user) =>
      if action.safe then handle hasher user request
      else
        match csrfOk session.csrfToken request.csrf with
        | none => .answered .failure
        | some false => .answered (.detail 403 (lit "Invalid CSRF token"))
        | some true => handle hasher user request

/-- `resolve_session(db, token)` up to its second call. -/
def findSession (sessions : Sessions) (request : Request) (now : Instant) : Task :=
  match request.cookie.filter (· ≠ []) with
  | none => dispatch hasher request none
  | some token =>
      match sessions.lookup (hasher.digest token) with
      | none => dispatch hasher request none
      | some session =>
          if session.expired now then .expiring session.id request else .resolving session request

/-- `authenticate(db, username, password)` after its call. The password for a name that is
unknown is verified as well, against the dummy hash, and what comes out is dropped. -/
def authenticated (system : State) (api : Bool) (username password : Str) : Task :=
  match system.users.lookup username with
  | none =>
      match hasher.verify password hasher.dummyHash with
      | none => .answered .failure
      | some _ => .answered (invalidLogin api)
  | some user =>
      match hasher.verify password user.passwordHash with
      | none => .answered .failure
      | some false => .answered (invalidLogin api)
      | some true => .granting api user.id (system.written user.id)

/-- A login is answered, or its password was verified against the user of the name. -/
theorem authenticated_cases (system : State) (api : Bool) (username password : Str) :
    (∃ reply, authenticated hasher system api username password = .answered reply) ∨
      ∃ user, system.users.lookup username = some user ∧
        hasher.verify password user.passwordHash = some true ∧
        authenticated hasher system api username password =
          .granting api user.id (system.written user.id) := by
  unfold authenticated
  cases found : system.users.lookup username with
  | none =>
    cases dummy : hasher.verify password hasher.dummyHash with
    | none => exact .inl ⟨_, rfl⟩
    | some _ => exact .inl ⟨_, rfl⟩
  | some user =>
    cases verified : hasher.verify password user.passwordHash with
    | none => exact .inl ⟨.failure, by simp only [verified]⟩
    | some valid =>
      cases valid with
      | false => exact .inl ⟨invalidLogin api, by simp only [verified]⟩
      | true => exact .inr ⟨user, rfl, verified, by simp only [verified]⟩

/-- The first write of a password change, which counts if it finds the user. -/
def State.changePassword (system : State) (userId : ObjectId) (hash : Str) (now : Instant) :
    State :=
  { system with
    users := system.users.updateOne userId (User.setPassword hash now) (fun _ => rfl)
      (fun _ => rfl)
    written := if (system.users.find userId).isSome then
        Function.update system.written userId (system.written userId + 1)
      else system.written }

/-- One call on the database. -/
def call (system : State) (task : Nat) (draw : Draw) : Option State :=
  match system.tasks[task]? with
  | none => none
  | some (.answered _) => none
  | some (.expiring session request) =>
      some { system.move task (dispatch hasher request none) with
        sessions := system.sessions.deleteOne session }
  | some (.resolving session request) =>
      some (system.move task
        (dispatch hasher request ((system.users.find session.userId).map (session, ·))))
  | some (.authenticating api username password) =>
      some (system.move task (authenticated hasher system api username password))
  | some (.granting api userId verified) =>
      match system.sessions.insert (hasher.session userId verified draw) with
      | none => some (system.move task (.answered .failure))
      | some granted =>
          some { system.move task (.answered (signedIn api draw)) with sessions := granted }
  | some (.signingOut api tokenHash) =>
      some { system.move task (.answered (signedOut api)) with
        sessions := destroySession system.sessions tokenHash }
  | some (.changing userId newPassword) =>
      match hasher.hash draw.salt newPassword with
      | none => some (system.move task (.answered .failure))
      | some hash =>
          let changed := system.changePassword userId hash draw.now
          some (changed.move task (.revoking userId (changed.written userId)))
  | some (.revoking userId written) =>
      some { system.move task (.answered (.refresh (lit "/login"))) with
        sessions := destroyUserSessions system.sessions userId
        completed := Function.update system.completed userId
          (max (system.completed userId) written) }
  | some (.creating username password) =>
      match hasher.hash draw.salt password with
      | none => some (system.move task (.answered .failure))
      | some hash =>
          match system.users.insert ⟨draw.id, username, hash, toMillis draw.now, none⟩ with
          | none =>
              some (system.move task
                (.answered (.page (.text (lit "That username is already taken")))))
          | some grown =>
              some { system.move task (.answered (.refresh (lit "/settings"))) with users := grown }
  | some (.counting userId) =>
      if system.users.count ≤ 1 then
        some (system.move task (.answered (.detail 400 (lit "Cannot delete the last user"))))
      else some (system.move task (.deleting userId))
  | some (.deleting userId) =>
      some { system.move task (.purging userId) with users := system.users.deleteOne userId }
  | some (.purging userId) =>
      some { system.move task (.answered (.refresh (lit "/settings"))) with
        sessions := destroyUserSessions system.sessions userId }

/-- One step. -/
def step (system : State) : Label → Option State
  | .arrive request now =>
      some { system with tasks := system.tasks ++ [findSession hasher system.sessions request now] }
  | .call task draw => call hasher system task draw
  | .sweep now =>
      some { system with
        sessions := system.sessions.deleteMany (fun session => decide (session.expiresAt < now)) }

end

/-- The session with which `resolve_session` admits a request in this step. -/
def State.admitted (system : State) : Label → Option Session
  | .call task _ =>
      match system.tasks[task]? with
      | some (.resolving session _) => (system.users.find session.userId).map (fun _ => session)
      | _ => none
  | _ => none

/-! ## Users for examples -/

/-- A hash is the password itself, and so is the hash of a token. -/
def plainHasher : Hasher where
  hash _ password := some password
  verify password hash := some (password == hash)
  digest token := token
  dummyHash := lit "dummy"

/-- A user whose password is the name. -/
def named (id : Nat) (username : Str) : User := ⟨⟨id⟩, username, username, 0, none⟩

/-- Two users, and no session. -/
def twoUsers : State where
  users := ⟨⟨[named 1 (lit "alice"), named 2 (lit "bob")], by decide +kernel⟩, by decide +kernel⟩
  sessions := .empty
  tasks := []
  written _ := 0
  completed _ := 0

/-- What a request draws, all named alike. -/
def drawn (id : Nat) (token : Str) : Draw := ⟨⟨id⟩, token, token, [], 0⟩

/-- A request with the cookie and the CSRF token of a session. -/
def signed (token : Str) (action : Action) : Request := ⟨action, some token, some token⟩

/-- A login that makes a session. -/
def loginSteps (task id : Nat) (username password token : Str) : List Label :=
  [.arrive ⟨.login true username password true, none, none⟩ 0, .call task (drawn id token),
    .call task (drawn id token)]

end WebhookInbox.Auth
