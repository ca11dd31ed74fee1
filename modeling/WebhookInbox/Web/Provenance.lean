import WebhookInbox.Web.Sessions

/-!
# What admissions and changes rest on

Along a run an auditor notes the arrival of each request, each password that was verified,
each session that was stored, and each request that the middleware admitted. A note may
rest on earlier ones: an admission on the session that was stored for a login, that session
on a password that was verified, and the password on a login that the limiter let pass.

`Based` says what a request on its way owes to the notes so far. From it follows what a
change of the users, and the removal of a session, rest on.
-/

namespace WebhookInbox.Auth

open Library Library.Run Calendar

/-- What the auditor notes. -/
inductive Event where
  | arrived (task : Nat) (request : Request) (now : Instant)
  | verified (task : Nat) (user : User) (password : Str)
  | granted (task : Nat) (session : Session) (token : Str) (now : Instant)
  | admitted (task : Nat) (session : Session) (user : User) (request : Request)

/-- The request is a login, which is public. -/
def Action.isLogin : Action → Bool
  | .login _ _ _ _ => true
  | _ => false

/-- The request is safe, or carries the CSRF token of its session. -/
def passes (session : Session) (request : Request) : Bool :=
  request.action.safe || csrfOk session.csrfToken request.csrf == some true

section
variable (hasher : Hasher)

/-- What the auditor notes at a step. -/
def noted (system : State) : Label → List Event
  | .arrive request now => [.arrived system.tasks.length request now]
  | .sweep _ => []
  | .call task draw =>
      match system.tasks[task]? with
      | some (.authenticating _ username password) =>
          match system.users.lookup username with
          | none => []
          | some user =>
              if hasher.verify password user.passwordHash = some true then
                [.verified task user password]
              else []
      | some (.granting _ userId verified) =>
          let session := hasher.session userId verified draw
          if (system.sessions.insert session).isSome then
            [.granted task session draw.token draw.now]
          else []
      | some (.resolving session request) =>
          match system.users.find session.userId with
          | none => []
          | some user =>
              if request.action.isLogin = false ∧ passes session request = true then
                [.admitted task session user request]
              else []
      | _ => []

/-- The notes along a run. -/
def trail (start : State) (labels : List Label) : List Event :=
  observed (step hasher) (noted hasher) start labels

end

/-! ## One call -/

/-- What a call on the database did. A call after which a request is only answered changed
nothing else. -/
inductive CallEffect (hasher : Hasher) (before after : State) (task : Nat) (draw : Draw) : Prop
  | expired (session : ObjectId) (request : Request)
      (standing : before.tasks[task]? = some (.expiring session request))
      (result : after = { before.move task (dispatch hasher request none) with
        sessions := before.sessions.deleteOne session })
  | resolved (session : Session) (request : Request)
      (standing : before.tasks[task]? = some (.resolving session request))
      (result : after = before.move task
        (dispatch hasher request ((before.users.find session.userId).map (session, ·))))
  | authenticated (api : Bool) (username password : Str)
      (standing : before.tasks[task]? = some (.authenticating api username password))
      (result : after = before.move task (authenticated hasher before api username password))
  | refused (reply : Reply) (result : after = before.move task (.answered reply))
      (silent : noted hasher before (.call task draw) = [])
  | granted (api : Bool) (userId : ObjectId) (verified : Nat) (grown : Sessions)
      (standing : before.tasks[task]? = some (.granting api userId verified))
      (inserted : before.sessions.insert (hasher.session userId verified draw) = some grown)
      (result : after = { before.move task (.answered (signedIn api draw)) with
        sessions := grown })
  | signedOut (api : Bool) (tokenHash : Str)
      (standing : before.tasks[task]? = some (.signingOut api tokenHash))
      (result : after = { before.move task (.answered (Auth.signedOut api)) with
        sessions := destroySession before.sessions tokenHash })
  | changed (userId : ObjectId) (newPassword hash : Str)
      (standing : before.tasks[task]? = some (.changing userId newPassword))
      (hashed : hasher.hash draw.salt newPassword = some hash)
      (result : after = (before.changePassword userId hash draw.now).move task
        (.revoking userId ((before.changePassword userId hash draw.now).written userId)))
  | revoked (userId : ObjectId) (written : Nat)
      (standing : before.tasks[task]? = some (.revoking userId written))
      (result : after = { before.move task (.answered (.refresh (lit "/login"))) with
        sessions := destroyUserSessions before.sessions userId
        completed := Function.update before.completed userId
          (max (before.completed userId) written) })
  | created (username password hash : Str) (grown : Users)
      (standing : before.tasks[task]? = some (.creating username password))
      (hashed : hasher.hash draw.salt password = some hash)
      (inserted : before.users.insert ⟨draw.id, username, hash, toMillis draw.now, none⟩ =
        some grown)
      (result : after = { before.move task (.answered (.refresh (lit "/settings"))) with
        users := grown })
  | counted (userId : ObjectId) (standing : before.tasks[task]? = some (.counting userId))
      (result : after = before.move task (.deleting userId))
  | deleted (userId : ObjectId) (standing : before.tasks[task]? = some (.deleting userId))
      (result : after = { before.move task (.purging userId) with
        users := before.users.deleteOne userId })
  | purged (userId : ObjectId) (standing : before.tasks[task]? = some (.purging userId))
      (result : after = { before.move task (.answered (.refresh (lit "/settings"))) with
        sessions := destroyUserSessions before.sessions userId })

/-- Every call did one of these. -/
theorem call_effect {hasher : Hasher} {before after : State} {task : Nat} {draw : Draw}
    (taken : call hasher before task draw = some after) :
    CallEffect hasher before after task draw := by
  cases standing : before.tasks[task]? with
  | none => simp [call, standing] at taken
  | some place =>
    simp only [call, standing] at taken
    cases place with
    | answered reply => cases taken
    | expiring session request =>
      exact .expired session request standing (Option.some.inj taken).symm
    | resolving session request =>
      exact .resolved session request standing (Option.some.inj taken).symm
    | authenticating api username password =>
      exact .authenticated api username password standing (Option.some.inj taken).symm
    | granting api userId verified =>
      simp only at taken
      split at taken
      · rename_i refused
        exact .refused _ (Option.some.inj taken).symm (by simp [noted, standing, refused])
      · rename_i grown inserted
        exact .granted api userId verified grown standing inserted (Option.some.inj taken).symm
    | signingOut api tokenHash => exact .signedOut api tokenHash standing (Option.some.inj taken).symm
    | changing userId newPassword =>
      simp only at taken
      split at taken
      · exact .refused _ (Option.some.inj taken).symm (by simp [noted, standing])
      · rename_i hash hashed
        exact .changed userId newPassword hash standing hashed (Option.some.inj taken).symm
    | revoking userId written => exact .revoked userId written standing (Option.some.inj taken).symm
    | creating username password =>
      simp only at taken
      split at taken
      · exact .refused _ (Option.some.inj taken).symm (by simp [noted, standing])
      · rename_i hash hashed
        split at taken
        · exact .refused _ (Option.some.inj taken).symm (by simp [noted, standing])
        · rename_i grown inserted
          exact .created username password hash grown standing hashed inserted
            (Option.some.inj taken).symm
    | counting userId =>
      simp only at taken
      split at taken
      · exact .refused _ (Option.some.inj taken).symm (by simp [noted, standing])
      · exact .counted userId standing (Option.some.inj taken).symm
    | deleting userId => exact .deleted userId standing (Option.some.inj taken).symm
    | purging userId => exact .purged userId standing (Option.some.inj taken).symm

section
variable (hasher : Hasher)

/-! ## What a note rests on -/

/-- A request with this cookie finds the session of this token hash. -/
def Request.Presents (request : Request) (tokenHash : Str) : Prop :=
  ∃ cookie, request.cookie = some cookie ∧ hasher.digest cookie = tokenHash

/-- What has to be on record before a note. A login that the limiter let pass names the
user whose password was verified. A session is stored for that user. A request is admitted
that presents the token of a stored session less than seven days after it was stored, and,
if it is unsafe, the CSRF token that was handed out with it. -/
def Justified (past : List Event) : Event → Prop
  | .arrived _ _ _ => True
  | .verified task user password =>
      hasher.verify password user.passwordHash = some true ∧
        ∃ api request now, .arrived task request now ∈ past ∧
          request.action = .login api user.username password true
  | .granted task session token now =>
      session.tokenHash = hasher.digest token ∧ session.expiresAt * 1000 ≤ now + sessionTtl ∧
        ∃ user password, .verified task user password ∈ past ∧ user.id = session.userId
  | .admitted task session user request =>
      user.id = session.userId ∧ request.Presents hasher session.tokenHash ∧
        (request.action.safe = false → request.csrf = some session.csrfToken) ∧
        ∃ login token since now, .granted login session token since ∈ past ∧
          .arrived task request now ∈ past ∧ now < since + sessionTtl

/-- More notes take no justification away. -/
theorem Justified.append {past : List Event} {event : Event}
    (justified : Justified hasher past event) (more : List Event) :
    Justified hasher (past ++ more) event := by
  cases event with
  | arrived task request now => trivial
  | verified task user password =>
    obtain ⟨valid, api, request, now, arrived, asked⟩ := justified
    exact ⟨valid, api, request, now, List.mem_append_left _ arrived, asked⟩
  | granted task session token now =>
    obtain ⟨hash, until_, user, password, verified, owner⟩ := justified
    exact ⟨hash, until_, user, password, List.mem_append_left _ verified, owner⟩
  | admitted task session user request =>
    obtain ⟨owner, presents, token, login, text, since, now, granted, arrived, fresh⟩ := justified
    exact ⟨owner, presents, token, login, text, since, now, List.mem_append_left _ granted,
      List.mem_append_left _ arrived, fresh⟩

/-- An unsafe request that passes has the CSRF token of its session. -/
theorem passes_token {session : Session} {request : Request} (passed : passes session request = true)
    (unsafe_ : request.action.safe = false) : request.csrf = some session.csrfToken := by
  simp only [passes, unsafe_, Bool.false_or, beq_iff_eq, csrfOk] at passed
  split at passed
  · cases passed
  · rename_i text given
    split at passed
    · cases passed
    · unfold Signature.compareDigest at passed
      split at passed
      · rw [given, eq_of_beq (Option.some.inj passed)]
      · cases passed

/-! ## What a request on its way rests on -/

/-- What a request on its way owes to the notes so far. -/
def Task.Based (past : List Event) (task : Nat) : Task → Prop
  | .expiring sessionId request =>
      ∃ (session : Session) (now : Instant), session.id = sessionId ∧ session.expired now = true ∧
        .arrived task request now ∈ past ∧ request.Presents hasher session.tokenHash
  | .resolving session request =>
      request.Presents hasher session.tokenHash ∧
        ∃ login token since now, .granted login session token since ∈ past ∧
          .arrived task request now ∈ past ∧ now < since + sessionTtl
  | .authenticating api username password =>
      ∃ request now, .arrived task request now ∈ past ∧
        request.action = .login api username password true
  | .granting _ userId _ => ∃ user password, .verified task user password ∈ past ∧ user.id = userId
  | .signingOut api tokenHash =>
      ∃ session user request, .admitted task session user request ∈ past ∧
        request.action = .logout api ∧ request.Presents hasher tokenHash
  | .changing userId newPassword =>
      ∃ session user request current, .admitted task session user request ∈ past ∧
        request.action = .changePassword current newPassword ∧ user.id = userId ∧
        hasher.verify current user.passwordHash = some true
  | .revoking userId _ =>
      ∃ session user request current newPassword, .admitted task session user request ∈ past ∧
        request.action = .changePassword current newPassword ∧ user.id = userId ∧
        hasher.verify current user.passwordHash = some true
  | .creating username password =>
      ∃ session user request given, .admitted task session user request ∈ past ∧
        request.action = .createUser given password ∧ username = Text.strip given ∧
        userCreateError username password = none
  | .counting userId | .deleting userId | .purging userId =>
      ∃ session user request, .admitted task session user request ∈ past ∧
        request.action = .deleteUser (some userId) ∧ userId ≠ user.id
  | .answered _ => True

/-- Sessions were stored for logins, and requests rest on what was noted. -/
structure Based (past : List Event) (system : State) : Prop where
  sessions : ∀ session ∈ system.sessions.docs, ∃ login token since,
    .granted login session token since ∈ past ∧ session.expiresAt * 1000 ≤ since + sessionTtl
  tasks : ∀ task (place : Task), system.tasks[task]? = some place → place.Based hasher past task

end

section
variable {hasher : Hasher} {past : List Event} {task : Nat} {request : Request}

/-- More notes leave what a request rests on. -/
theorem Task.Based.append {place : Task} (based : place.Based hasher past task)
    (more : List Event) : place.Based hasher (past ++ more) task := by
  cases place with
  | expiring sessionId request =>
    obtain ⟨session, now, same, old, arrived, presents⟩ := based
    exact ⟨session, now, same, old, List.mem_append_left _ arrived, presents⟩
  | resolving session request =>
    obtain ⟨presents, login, token, since, now, granted, arrived, fresh⟩ := based
    exact ⟨presents, login, token, since, now, List.mem_append_left _ granted,
      List.mem_append_left _ arrived, fresh⟩
  | authenticating api username password =>
    obtain ⟨request, now, arrived, asked⟩ := based
    exact ⟨request, now, List.mem_append_left _ arrived, asked⟩
  | granting api userId verified =>
    obtain ⟨user, password, verified, owner⟩ := based
    exact ⟨user, password, List.mem_append_left _ verified, owner⟩
  | signingOut api tokenHash =>
    obtain ⟨session, user, request, admitted, asked⟩ := based
    exact ⟨session, user, request, List.mem_append_left _ admitted, asked⟩
  | changing userId newPassword =>
    obtain ⟨session, user, request, current, admitted, asked⟩ := based
    exact ⟨session, user, request, current, List.mem_append_left _ admitted, asked⟩
  | revoking userId change =>
    obtain ⟨session, user, request, current, newPassword, admitted, asked⟩ := based
    exact ⟨session, user, request, current, newPassword, List.mem_append_left _ admitted, asked⟩
  | creating username password =>
    obtain ⟨session, user, request, given, admitted, asked⟩ := based
    exact ⟨session, user, request, given, List.mem_append_left _ admitted, asked⟩
  | counting userId =>
    obtain ⟨session, user, request, admitted, asked⟩ := based
    exact ⟨session, user, request, List.mem_append_left _ admitted, asked⟩
  | deleting userId =>
    obtain ⟨session, user, request, admitted, asked⟩ := based
    exact ⟨session, user, request, List.mem_append_left _ admitted, asked⟩
  | purging userId =>
    obtain ⟨session, user, request, admitted, asked⟩ := based
    exact ⟨session, user, request, List.mem_append_left _ admitted, asked⟩
  | answered reply => trivial

/-- The route of an admitted request. -/
theorem handle_based {session : Session} {user : User}
    (admitted : .admitted task session user request ∈ past) :
    (handle hasher user request).Based hasher past task := by
  unfold handle
  split
  · trivial
  · rename_i asked
    split
    · trivial
    · rename_i token given
      obtain ⟨cookie, _⟩ := Option.filter_eq_some_iff.mp given
      exact ⟨session, user, request, admitted, asked, token, cookie, rfl⟩
  · rename_i current newPassword asked
    split
    · trivial
    · trivial
    · rename_i valid
      split
      · trivial
      · exact ⟨session, user, request, current, admitted, asked, rfl, valid⟩
  · rename_i given password asked
    split
    · trivial
    · rename_i accepted
      exact ⟨session, user, request, given, admitted, asked, rfl, accepted⟩
  · trivial
  · rename_i userId asked
    split
    · trivial
    · rename_i other
      exact ⟨session, user, request, admitted, asked, other⟩
  · trivial

/-- The middleware, once it knows what the cookie resolves to. -/
theorem dispatch_based {resolved : Option (Session × User)} {now : Instant}
    (arrived : .arrived task request now ∈ past)
    (admitted : ∀ session user, resolved = some (session, user) →
      request.action.isLogin = false → passes session request = true →
      .admitted task session user request ∈ past) :
    (dispatch hasher request resolved).Based hasher past task := by
  unfold dispatch
  split
  · rename_i api username password allowed asked
    split
    · rename_i passed
      exact ⟨request, now, arrived, passed ▸ asked⟩
    · trivial
  · trivial
  · rename_i session user asked
    have private_ : request.action.isLogin = false := by
      cases action : request.action with
      | login api username password allowed =>
        exact absurd action (asked api username password allowed)
      | logout api => rfl
      | changePassword current newPassword => rfl
      | createUser username password => rfl
      | deleteUser userId => rfl
      | other safe api => rfl
    split
    · rename_i safe
      exact handle_based (admitted session user rfl private_ (by simp [passes, safe]))
    · split
      · trivial
      · trivial
      · rename_i token
        exact handle_based (admitted session user rfl private_ (by simp [passes, token]))

/-- The look up of the session when a request arrives. -/
theorem findSession_based {system : State} (based : Based hasher past system) {now : Instant}
    (arrived : .arrived task request now ∈ past) :
    (findSession hasher system.sessions request now).Based hasher past task := by
  have anonymous : (dispatch hasher request none).Based hasher past task :=
    dispatch_based arrived nofun
  unfold findSession
  split
  · exact anonymous
  · rename_i token given
    obtain ⟨cookie, _⟩ := Option.filter_eq_some_iff.mp given
    split
    · exact anonymous
    · rename_i session found
      obtain ⟨stored, hash⟩ := IndexedCollection.lookup_some found
      have presents : request.Presents hasher session.tokenHash := ⟨token, cookie, hash.symm⟩
      split
      · rename_i old
        exact ⟨session, now, rfl, old, arrived, presents⟩
      · rename_i valid
        obtain ⟨login, token, since, granted, until_⟩ := based.sessions session stored
        refine ⟨presents, login, token, since, now, granted, arrived, ?_⟩
        have before : now < session.expiresAt * 1000 := by
          simpa [Session.expired] using valid
        exact lt_of_lt_of_le before until_

/-! ## Steps -/

/-- Moving a request keeps the others, if it rests on the notes where it stands now and the
sessions that were added are on record. -/
theorem Based.moved {before after : State} {place : Task} (based : Based hasher past before)
    (events : List Event) (tasks : after.tasks = before.tasks.set task place)
    (placed : place.Based hasher (past ++ events) task)
    (sessions : ∀ session ∈ after.sessions.docs, session ∈ before.sessions.docs ∨
      ∃ login token since, .granted login session token since ∈ past ++ events ∧
        session.expiresAt * 1000 ≤ since + sessionTtl) : Based hasher (past ++ events) after where
  sessions session stored := by
    cases sessions session stored with
    | inl old =>
      obtain ⟨login, token, since, granted, until_⟩ := based.sessions session old
      exact ⟨login, token, since, List.mem_append_left _ granted, until_⟩
    | inr fresh => exact fresh
  tasks other there standing := by
    rw [tasks, List.getElem?_set] at standing
    split at standing
    · rename_i same
      split at standing
      · obtain rfl := Option.some.inj standing
        exact same ▸ placed
      · cases standing
    · exact (based.tasks other there standing).append events

/-- A stored session expires at most seven days after it was stored. -/
theorem session_until (userId : ObjectId) (verified : Nat) (draw : Draw) :
    (hasher.session userId verified draw).expiresAt * 1000 ≤ draw.now + sessionTtl :=
  Int.ediv_mul_le _ (by decide)

/-- A verified password is noted. -/
theorem authenticated_based {before : State} {api : Bool} {username password : Str} {draw : Draw}
    (standing : before.tasks[task]? = some (.authenticating api username password)) :
    (authenticated hasher before api username password).Based hasher
      (past ++ noted hasher before (.call task draw)) task := by
  rcases authenticated_cases hasher before api username password with
    ⟨reply, same⟩ | ⟨user, found, valid, same⟩
  · rw [same]
    trivial
  · rw [same]
    exact ⟨user, password, by simp [noted, standing, found, valid], rfl⟩

/-- A call keeps what the requests and the sessions rest on. -/
theorem call_based {before after : State} {draw : Draw} (based : Based hasher past before)
    (taken : call hasher before task draw = some after) :
    Based hasher (past ++ noted hasher before (.call task draw)) after := by
  have kept : ∀ session ∈ before.sessions.docs, session ∈ before.sessions.docs ∨
      ∃ login token since,
        .granted login session token since ∈ past ++ noted hasher before (.call task draw) ∧
        session.expiresAt * 1000 ≤ since + sessionTtl := fun _ stored => .inl stored
  have fewer : ∀ selects, ∀ session ∈ (before.sessions.deleteMany selects).docs,
      session ∈ before.sessions.docs ∨ ∃ login token since,
        .granted login session token since ∈ past ++ noted hasher before (.call task draw) ∧
        session.expiresAt * 1000 ≤ since + sessionTtl :=
    fun _ _ stored => .inl (IndexedCollection.mem_deleteMany.mp stored).1
  have held : ∀ {place : Task}, before.tasks[task]? = some place →
      place.Based hasher (past ++ noted hasher before (.call task draw)) task :=
    fun standing => (based.tasks task _ standing).append _
  cases call_effect taken with
  | expired session request standing result =>
    obtain ⟨_, now, _, _, arrived, _⟩ := based.tasks task _ standing
    subst result
    exact based.moved _ rfl (dispatch_based (List.mem_append_left _ arrived) nofun) (fewer _)
  | resolved session request standing result =>
    obtain ⟨_, _, _, _, now, _, arrived, _⟩ := based.tasks task _ standing
    subst result
    refine based.moved _ rfl (dispatch_based (List.mem_append_left _ arrived) ?_) kept
    intro session user resolved private_ passed
    obtain ⟨found, there, same⟩ := Option.map_eq_some_iff.mp resolved
    cases same
    simp [noted, standing, there, private_, passed]
  | authenticated api username password standing result =>
    subst result
    exact based.moved _ rfl (authenticated_based standing) kept
  | refused reply result silent =>
    subst result
    exact based.moved _ rfl trivial kept
  | granted api userId verified grown standing inserted result =>
    subst result
    refine based.moved _ rfl trivial ?_
    intro session stored
    cases (IndexedCollection.mem_insert inserted session).mp stored with
    | inl old => exact .inl old
    | inr fresh =>
      subst fresh
      exact .inr ⟨task, draw.token, draw.now, by simp [noted, standing, inserted],
        session_until userId verified draw⟩
  | signedOut api tokenHash standing result =>
    subst result
    exact based.moved _ rfl trivial (fewer _)
  | changed userId newPassword hash standing hashed result =>
    obtain ⟨session, user, request, current, admitted, asked, owner, valid⟩ := held standing
    subst result
    exact based.moved _ rfl
      ⟨session, user, request, current, newPassword, admitted, asked, owner, valid⟩ kept
  | revoked userId written standing result =>
    subst result
    exact based.moved _ rfl trivial (fewer _)
  | created username password hash grown standing hashed inserted result =>
    subst result
    exact based.moved _ rfl trivial kept
  | counted userId standing result =>
    obtain ⟨session, user, request, admitted⟩ := held standing
    subst result
    exact based.moved _ rfl ⟨session, user, request, admitted⟩ kept
  | deleted userId standing result =>
    obtain ⟨session, user, request, admitted⟩ := held standing
    subst result
    exact based.moved _ rfl ⟨session, user, request, admitted⟩ kept
  | purged userId standing result =>
    subst result
    exact based.moved _ rfl trivial (fewer _)

/-- A step keeps what the requests and the sessions rest on. -/
theorem step_based {before after : State} {label : Label} (based : Based hasher past before)
    (taken : step hasher before label = some after) :
    Based hasher (past ++ noted hasher before label) after := by
  cases label with
  | call task draw => exact call_based based taken
  | arrive request now =>
    obtain rfl := Option.some.inj taken
    have extended : Based hasher (past ++ noted hasher before (.arrive request now)) before := {
      sessions session stored := by
        obtain ⟨login, token, since, granted, until_⟩ := based.sessions session stored
        exact ⟨login, token, since, List.mem_append_left _ granted, until_⟩
      tasks task place standing := (based.tasks task place standing).append _ }
    refine ⟨extended.sessions, ?_⟩
    intro task place standing
    rw [List.getElem?_append] at standing
    split at standing
    · exact extended.tasks task place standing
    · rename_i beyond
      obtain ⟨position, rfl⟩ := List.getElem?_eq_some_iff.mp standing
      have last : task = before.tasks.length := by
        simp only [List.length_singleton] at position
        omega
      simp only [last, Nat.sub_self, List.getElem_cons_zero]
      exact findSession_based extended (by simp [noted])
  | sweep now =>
    obtain rfl := Option.some.inj taken
    simp only [noted, List.append_nil]
    exact ⟨fun session stored =>
      based.sessions session (IndexedCollection.mem_deleteMany.mp stored).1, based.tasks⟩

/-- What is noted at a step is justified by the notes before it. -/
theorem noted_justified {before after : State} {label : Label} (based : Based hasher past before)
    (taken : step hasher before label = some after) {event : Event}
    (member : event ∈ noted hasher before label) : Justified hasher past event := by
  cases label with
  | arrive request now =>
    obtain rfl := List.mem_singleton.mp member
    trivial
  | sweep now => cases member
  | call task draw =>
    simp only [noted] at member
    split at member
    · rename_i api username password standing
      split at member
      · cases member
      · rename_i user found
        obtain ⟨valid, same⟩ := List.mem_ite_nil_right.mp member
        obtain rfl := List.mem_singleton.mp same
        obtain ⟨request, now, arrived, asked⟩ := based.tasks task _ standing
        obtain ⟨_, name⟩ := IndexedCollection.lookup_some found
        exact ⟨valid, api, request, now, arrived, name ▸ asked⟩
    · rename_i api userId verified standing
      obtain ⟨_, same⟩ := List.mem_ite_nil_right.mp member
      obtain rfl := List.mem_singleton.mp same
      exact ⟨rfl, session_until userId verified draw, based.tasks task _ standing⟩
    · rename_i session request standing
      split at member
      · cases member
      · rename_i user found
        obtain ⟨⟨_, passed⟩, same⟩ := List.mem_ite_nil_right.mp member
        obtain rfl := List.mem_singleton.mp same
        obtain ⟨presents, rests⟩ := based.tasks task _ standing
        exact ⟨(Collection.find_some found).2, presents, passes_token passed, rests⟩
    · cases member

/-- At most one thing is noted at a step. -/
theorem noted_once (system : State) (label : Label) :
    (noted hasher system label).length ≤ 1 := by
  cases label with
  | arrive request now => exact Nat.le_refl 1
  | sweep now => exact Nat.zero_le 1
  | call task draw =>
    simp only [noted]
    repeat' split
    all_goals simp

end

/-! ## Runs -/

section
variable {hasher : Hasher} {start before after : State} {labels : List Label}

/-- After a run from a state without sessions and requests everything rests on the trail. -/
theorem run_based (idle : start.tasks = []) (none : start.sessions.docs = [])
    (ran : run (step hasher) start labels = some after) :
    Based hasher (trail hasher start labels) after ∧
      Grounded (Justified hasher) (trail hasher start labels) := by
  have initial : Based hasher [] start := by
    refine ⟨fun session stored => ?_, fun task place standing => ?_⟩
    · rw [none] at stored
      cases stored
    · rw [idle] at standing
      cases standing
  exact run_grounded (step hasher) (noted hasher)
    (fun _ past _ _ (based : Based hasher past _) taken => step_based based taken)
    (fun _ _ _ _ based taken _ member => noted_justified based taken member) noted_once ran initial

/-- Whoever was admitted has the CSRF token of the session, and is its user. -/
theorem admitted_justified {past : List Event} (grounded : Grounded (Justified hasher) past)
    {task : Nat} {session : Session} {user : User} {request : Request}
    (admitted : .admitted task session user request ∈ past) :
    Justified hasher past (.admitted task session user request) :=
  grounded.mem (fun _ more justified => justified.append hasher more) admitted

end

/-- Along every run of concurrent requests, from a state without sessions and requests in
progress: whoever is admitted presents the token of a session that was stored before, less
than seven days before the request arrived, and for an unsafe request its CSRF token; that
session was stored for a user whose password was verified before; and the password was
verified for a login under the name of that user that the limiter let pass.

Proof: by induction on the run, since every session and every request on its way rests on
what was noted. -/
theorem admissions_rest_on_logins (hasher : Hasher) {start reached : State}
    (idle : start.tasks = []) (none : start.sessions.docs = []) (labels : List Label)
    (ran : run (step hasher) start labels = some reached) :
    Grounded (Justified hasher) (trail hasher start labels) :=
  (run_based idle none ran).2

/-- One user signs in and asks for another password. The last call is still to come. -/
def passwordSteps : List Label :=
  loginSteps 0 10 (lit "alice") (lit "alice") (lit "s0") ++
    [.arrive (signed (lit "s0") (.changePassword (lit "alice") (lit "new-password"))) 0,
      .call 1 (drawn 0 [])]

/-- The state after these steps. -/
def asking : State := (run (step plainHasher) twoUsers passwordSteps).get (by decide +kernel)

theorem asking_reached : run (step plainHasher) twoUsers passwordSteps = some asking :=
  (Option.some_get _).symm

/-- Two arrivals, a password, a session and an admission are noted. -/
theorem admissions_rest_on_logins_asking :
    (trail plainHasher twoUsers passwordSteps).length = 5 ∧
      Grounded (Justified plainHasher) (trail plainHasher twoUsers passwordSteps) :=
  ⟨by decide +kernel, admissions_rest_on_logins plainHasher rfl rfl passwordSteps asking_reached⟩

/-- What an admitted request asks to be done to the users, and what was done. -/
inductive UsersAsked (hasher : Hasher) (draw : Draw) (user : User) (before after : Users) :
    Action → Prop
  | password (current newPassword hash : Str)
      (valid : hasher.verify current user.passwordHash = some true)
      (hashed : hasher.hash draw.salt newPassword = some hash)
      (result : after = before.updateOne user.id (User.setPassword hash draw.now) (fun _ => rfl)
        (fun _ => rfl)) :
      UsersAsked hasher draw user before after (.changePassword current newPassword)
  | created (username password hash : Str)
      (accepted : userCreateError (Text.strip username) password = none)
      (hashed : hasher.hash draw.salt password = some hash)
      (result : before.insert ⟨draw.id, Text.strip username, hash, toMillis draw.now, none⟩ =
        some after) :
      UsersAsked hasher draw user before after (.createUser username password)
  | deleted (userId : ObjectId) (other : userId ≠ user.id)
      (result : after = before.deleteOne userId) :
      UsersAsked hasher draw user before after (.deleteUser (some userId))

/-- In every run of concurrent requests, from a state without sessions and requests in
progress: a step that changes the users belongs to a request that was admitted with the
CSRF token of its session, and does what that request asks for: it changes the password of
the session's own user, whose current password was given, or creates a user, or deletes
another one. -/
theorem users_change_asked (hasher : Hasher) {start before after : State}
    (idle : start.tasks = []) (none : start.sessions.docs = []) {labels : List Label}
    (ran : run (step hasher) start labels = some before) {label : Label}
    (taken : step hasher before label = some after) (changed : after.users ≠ before.users) :
    ∃ task draw session user request, label = .call task draw ∧
      .admitted task session user request ∈ trail hasher start labels ∧
      user.id = session.userId ∧ request.csrf = some session.csrfToken ∧
      UsersAsked hasher draw user before.users after.users request.action := by
  obtain ⟨based, grounded⟩ := run_based idle none ran
  cases label with
  | arrive request now =>
    obtain rfl := Option.some.inj taken
    exact absurd rfl changed
  | sweep now =>
    obtain rfl := Option.some.inj taken
    exact absurd rfl changed
  | call task draw =>
    have asked : ∀ session user request, .admitted task session user request ∈
        trail hasher start labels → request.action.safe = false →
        UsersAsked hasher draw user before.users after.users request.action →
        ∃ task' draw' session user request, Label.call task draw = .call task' draw' ∧
          .admitted task' session user request ∈ trail hasher start labels ∧
          user.id = session.userId ∧ request.csrf = some session.csrfToken ∧
          UsersAsked hasher draw' user before.users after.users request.action := by
      intro session user request admitted unsafe_ done
      obtain ⟨owner, _, token, _⟩ := admitted_justified grounded admitted
      exact ⟨task, draw, session, user, request, rfl, admitted, owner, token unsafe_, done⟩
    cases call_effect taken with
    | changed userId newPassword hash standing hashed result =>
      obtain ⟨session, user, request, current, admitted, action, owner, valid⟩ :=
        based.tasks task _ standing
      refine asked session user request admitted (by rw [action]; rfl) ?_
      rw [action, result]
      exact .password current newPassword hash valid hashed (by rw [owner]; rfl)
    | created username password hash grown standing hashed inserted result =>
      obtain ⟨session, user, request, given, admitted, action, rfl, accepted⟩ :=
        based.tasks task _ standing
      refine asked session user request admitted (by rw [action]; rfl) ?_
      rw [action, result]
      exact .created given password hash accepted hashed inserted
    | deleted userId standing result =>
      obtain ⟨session, user, request, admitted, action, other⟩ := based.tasks task _ standing
      refine asked session user request admitted (by rw [action]; rfl) ?_
      rw [action, result]
      exact .deleted userId other rfl
    | expired session request standing result => exact absurd (by rw [result]; rfl) changed
    | resolved session request standing result => exact absurd (by rw [result]; rfl) changed
    | authenticated api username password standing result =>
      exact absurd (by rw [result]; rfl) changed
    | refused reply result silent => exact absurd (by rw [result]; rfl) changed
    | granted api userId verified grown standing inserted result =>
      exact absurd (by rw [result]; rfl) changed
    | signedOut api tokenHash standing result => exact absurd (by rw [result]; rfl) changed
    | revoked userId written standing result => exact absurd (by rw [result]; rfl) changed
    | counted userId standing result => exact absurd (by rw [result]; rfl) changed
    | purged userId standing result => exact absurd (by rw [result]; rfl) changed

/-- The next call of the request. -/
def changing : Label := .call 1 (drawn 0 [])

/-- The state after it. -/
def changedPassword : State := (step plainHasher asking changing).get (by decide +kernel)

theorem changedPassword_reached : step plainHasher asking changing = some changedPassword :=
  (Option.some_get _).symm

/-- The password is changed by the request of its user. -/
theorem users_change_asked_password :
    ∃ task draw session user request, changing = .call task draw ∧
      .admitted task session user request ∈ trail plainHasher twoUsers passwordSteps ∧
      user.id = session.userId ∧ request.csrf = some session.csrfToken ∧
      UsersAsked plainHasher draw user asking.users changedPassword.users request.action :=
  users_change_asked plainHasher rfl rfl asking_reached changedPassword_reached
    (fun same => absurd (congrArg IndexedCollection.docs same) (by decide +kernel))

/-- What an admitted request asks for when it ends a session. -/
inductive EndAsked (hasher : Hasher) (user : User) (request : Request) (session : Session) : Prop
  | logout (api : Bool) (action : request.action = .logout api)
      (own : request.Presents hasher session.tokenHash)
  | password (current newPassword : Str)
      (action : request.action = .changePassword current newPassword)
      (valid : hasher.verify current user.passwordHash = some true)
      (own : session.userId = user.id)
  | deleted (action : request.action = .deleteUser (some session.userId))
      (other : session.userId ≠ user.id)

/-- Why a step ends a session. Either it has expired, or a request whose token hash finds a
session finds one with its identifier expired, or an admitted request asks for it. -/
inductive SessionEnd (hasher : Hasher) (past : List Event) (session : Session) : Label → Prop
  | swept (now : Millis) (expired : session.expiresAt < now) :
      SessionEnd hasher past session (.sweep now)
  | lapsed (task : Nat) (draw : Draw) (old : Session) (request : Request) (now : Instant)
      (arrived : .arrived task request now ∈ past) (same : old.id = session.id)
      (presents : request.Presents hasher old.tokenHash) (expired : old.expired now = true) :
      SessionEnd hasher past session (.call task draw)
  | asked (task : Nat) (draw : Draw) (holder : Session) (user : User) (request : Request)
      (admitted : .admitted task holder user request ∈ past) (owner : user.id = holder.userId)
      (token : request.csrf = some holder.csrfToken)
      (ends : EndAsked hasher user request session) :
      SessionEnd hasher past session (.call task draw)

/-- In every run of concurrent requests, from a state without sessions and requests in
progress: a session that a step removes has expired, or it is ended by a request that was
admitted with the CSRF token of its own session: by the logout of its holder, by a password
change of its user, who gave the current password, or by the deletion of its user. -/
theorem sessions_end_asked (hasher : Hasher) {start before after : State}
    (idle : start.tasks = []) (none : start.sessions.docs = []) {labels : List Label}
    (ran : run (step hasher) start labels = some before) {label : Label}
    (taken : step hasher before label = some after) {session : Session}
    (stored : session ∈ before.sessions.docs) (removed : session ∉ after.sessions.docs) :
    SessionEnd hasher (trail hasher start labels) session label := by
  obtain ⟨based, grounded⟩ := run_based idle none ran
  have selected : ∀ selects, session ∉ (before.sessions.deleteMany selects).docs →
      selects session = true := by
    intro selects missing
    by_contra spared
    exact missing (IndexedCollection.mem_deleteMany.mpr ⟨stored, by simpa using spared⟩)
  cases label with
  | arrive request now =>
    obtain rfl := Option.some.inj taken
    exact absurd stored removed
  | sweep now =>
    obtain rfl := Option.some.inj taken
    exact .swept now (of_decide_eq_true (selected _ removed))
  | call task draw =>
    have asked : ∀ holder user request, .admitted task holder user request ∈
        trail hasher start labels → request.action.safe = false →
        EndAsked hasher user request session →
        SessionEnd hasher (trail hasher start labels) session (.call task draw) := by
      intro holder user request admitted unsafe_ ends
      obtain ⟨owner, _, token, _⟩ := admitted_justified grounded admitted
      exact .asked task draw holder user request admitted owner (token unsafe_) ends
    cases call_effect taken with
    | expired sessionId request standing result =>
      obtain ⟨old, now, same, lapsed, arrived, presents⟩ := based.tasks task _ standing
      rw [result] at removed
      have found : session.id = sessionId := of_decide_eq_true (selected _ removed)
      exact .lapsed task draw old request now arrived (same.trans found.symm) presents lapsed
    | signedOut api tokenHash standing result =>
      obtain ⟨holder, user, request, admitted, action, presents⟩ := based.tasks task _ standing
      rw [result] at removed
      have found : session.tokenHash = tokenHash := of_decide_eq_true (selected _ removed)
      exact asked holder user request admitted (by rw [action]; rfl)
        (.logout api action (found ▸ presents))
    | revoked userId written standing result =>
      obtain ⟨holder, user, request, current, newPassword, admitted, action, owner, valid⟩ :=
        based.tasks task _ standing
      rw [result] at removed
      have found : session.userId = userId := of_decide_eq_true (selected _ removed)
      exact asked holder user request admitted (by rw [action]; rfl)
        (.password current newPassword action valid (found.trans owner.symm))
    | purged userId standing result =>
      obtain ⟨holder, user, request, admitted, action, other⟩ := based.tasks task _ standing
      rw [result] at removed
      have found : session.userId = userId := of_decide_eq_true (selected _ removed)
      subst found
      exact asked holder user request admitted (by rw [action]; rfl) (.deleted action other)
    | granted api userId verified grown standing inserted result =>
      rw [result] at removed
      exact absurd ((IndexedCollection.mem_insert inserted session).mpr (.inl stored)) removed
    | resolved session request standing result => exact absurd stored (by rwa [result] at removed)
    | authenticated api username password standing result =>
      exact absurd stored (by rwa [result] at removed)
    | refused reply result silent => exact absurd stored (by rwa [result] at removed)
    | changed userId newPassword hash standing hashed result =>
      exact absurd stored (by rwa [result] at removed)
    | created username password hash grown standing hashed inserted result =>
      exact absurd stored (by rwa [result] at removed)
    | counted userId standing result => exact absurd stored (by rwa [result] at removed)
    | deleted userId standing result => exact absurd stored (by rwa [result] at removed)

/-- The session of the login ends when the request for another password goes on. -/
theorem sessions_end_asked_password :
    SessionEnd plainHasher (trail plainHasher twoUsers (passwordSteps ++ [changing]))
      (plainHasher.session ⟨1⟩ 0 (drawn 10 (lit "s0"))) changing := by
  have ran : run (step plainHasher) twoUsers (passwordSteps ++ [changing]) =
      some changedPassword := by
    rw [run_append, asking_reached]
    simp [run, changedPassword_reached]
  exact sessions_end_asked plainHasher rfl rfl ran
    (Option.some_get (by decide +kernel :
      (step plainHasher changedPassword changing).isSome = true)).symm
    (by decide +kernel) (by decide +kernel)

end WebhookInbox.Auth
