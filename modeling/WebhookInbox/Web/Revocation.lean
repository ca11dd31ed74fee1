import WebhookInbox.Web.Sessions

/-!
# Sessions after a password change

A password change writes the new hash and then removes the user's sessions. The invariant
is that every session, stored or read by a request, and every login about to store one,
verified a hash that no completed change has replaced. Each step keeps it but the removal
of sessions while a request that read an earlier hash, or a session made with one, is on
its way.
-/

namespace WebhookInbox.Auth

open Library Library.Run Calendar

/-- The request is about to store, or to be admitted with, a session made with a hash that
this change of the user's password has replaced. -/
def Task.outdatedBy (userId : ObjectId) (change : Nat) : Task → Bool
  | .granting _ owner verified => decide (owner = userId ∧ verified < change)
  | .resolving session _ => decide (session.userId = userId ∧ session.verified < change)
  | _ => false

/-- The step completes a password change while such a request is on its way. -/
def overtakes (system : State) : Label → Bool
  | .call task _ =>
      match system.tasks[task]? with
      | some (.revoking userId change) =>
          system.tasks.any (fun other => other.outdatedBy userId change)
      | _ => false
  | _ => false

/-! ## The invariant -/

/-- What a request works from has not been replaced by a completed change. -/
def Task.Current (written completed : ObjectId → Nat) : Task → Prop
  | .resolving session _ => completed session.userId ≤ session.verified
  | .granting _ userId verified => completed userId ≤ verified
  | .revoking userId change => change ≤ written userId
  | _ => True

/-- No session and no request is out of date. -/
structure Current (system : State) : Prop where
  sessions : ∀ session ∈ system.sessions.docs, system.completed session.userId ≤ session.verified
  tasks : ∀ task ∈ system.tasks, task.Current system.written system.completed
  counts : ∀ userId, system.completed userId ≤ system.written userId

/-- More changes being written keeps a request up to date. -/
theorem Task.Current.mono {written later completed : ObjectId → Nat} {task : Task}
    (current : task.Current written completed) (grown : ∀ userId, written userId ≤ later userId) :
    task.Current later completed := by
  cases task with
  | revoking userId change => exact Nat.le_trans current (grown userId)
  | resolving session request => exact current
  | granting api userId verified => exact current
  | expiring session request => trivial
  | authenticating api username password => trivial
  | signingOut api tokenHash => trivial
  | changing userId newPassword => trivial
  | creating username password => trivial
  | counting userId => trivial
  | deleting userId => trivial
  | purging userId => trivial
  | answered reply => trivial

/-- A step that completes no change keeps the invariant if what it stores and where it
moves a request are up to date. -/
theorem Current.moved {before after : State} {task : Nat} {place : Task} (current : Current before)
    (sessions : ∀ session ∈ after.sessions.docs, session ∈ before.sessions.docs ∨
      before.completed session.userId ≤ session.verified)
    (tasks : after.tasks = before.tasks.set task place)
    (placed : place.Current after.written before.completed)
    (written : ∀ userId, before.written userId ≤ after.written userId)
    (completed : after.completed = before.completed) : Current after where
  sessions session member := by
    rw [completed]
    cases sessions session member with
    | inl old => exact current.sessions session old
    | inr fresh => exact fresh
  tasks other member := by
    rw [completed]
    rw [tasks] at member
    cases List.mem_or_eq_of_mem_set member with
    | inl old => exact (current.tasks other old).mono written
    | inr same => exact same ▸ placed
  counts userId := by
    rw [completed]
    exact Nat.le_trans (current.counts userId) (written userId)

section
variable {hasher : Hasher} {written completed : ObjectId → Nat}

/-- The routes neither store nor admit a session in their first steps. -/
theorem handle_current (user : User) (request : Request) :
    (handle hasher user request).Current written completed := by
  unfold handle
  repeat' split
  all_goals trivial

/-- Neither does the middleware after it resolved a session. -/
theorem dispatch_current (request : Request) (resolved : Option (Session × User)) :
    (dispatch hasher request resolved).Current written completed := by
  unfold dispatch
  split
  · split <;> trivial
  · trivial
  · split
    · exact handle_current _ _
    · split
      · trivial
      · trivial
      · exact handle_current _ _

/-- A session that is found is up to date. -/
theorem findSession_current {system : State} (current : Current system) (request : Request)
    (now : Instant) :
    (findSession hasher system.sessions request now).Current system.written system.completed := by
  unfold findSession
  split
  · exact dispatch_current _ _
  · split
    · exact dispatch_current _ _
    · rename_i session found
      split
      · trivial
      · exact current.sessions session (IndexedCollection.lookup_some found).1

/-- A login has verified the present hash. -/
theorem authenticated_current {system : State} (current : Current system)
    (api : Bool) (username password : Str) :
    (authenticated hasher system api username password).Current system.written
      system.completed := by
  rcases authenticated_cases hasher system api username password with
    ⟨reply, same⟩ | ⟨user, _, _, same⟩
  · rw [same]
    trivial
  · rw [same]
    exact current.counts user.id

/-- A written change counts for its user alone. -/
theorem changePassword_written (system : State) (userId : ObjectId) (hash : Str) (now : Instant)
    (other : ObjectId) :
    system.written other ≤ (system.changePassword userId hash now).written other := by
  unfold State.changePassword
  by_cases found : (system.users.find userId).isSome = true
  · by_cases same : other = userId
    · simp [found, same]
    · simp [found, same]
  · simp [found]

/-- The last completed change of a user is no later than a number that neither the one
before nor the new one exceeds. -/
theorem completed_le {userId owner : ObjectId} {change bound : Nat} (held : completed owner ≤ bound)
    (spared : owner = userId → change ≤ bound) :
    Function.update completed userId (max (completed userId) change) owner ≤ bound := by
  by_cases same : owner = userId
  · rw [same, Function.update_self]
    exact max_le (same ▸ held) (spared same)
  · rw [Function.update_of_ne same]
    exact held

/-- Completing a change keeps the invariant unless it overtakes a request: the user has no
session left, and every request on its way is up to date with the change. -/
theorem Current.revoked {system : State} {task : Nat} {userId : ObjectId} {change : Nat}
    (current : Current system) (standing : system.tasks[task]? = some (.revoking userId change))
    (alone : system.tasks.any (fun other => other.outdatedBy userId change) = false) (reply : Reply) :
    Current { system.move task (.answered reply) with
      sessions := destroyUserSessions system.sessions userId
      completed := Function.update system.completed userId
        (max (system.completed userId) change) } where
  sessions session member := by
    obtain ⟨stored, other⟩ := IndexedCollection.mem_deleteMany.mp member
    have different : session.userId ≠ userId := of_decide_eq_false other
    simp only [Function.update_of_ne different]
    exact current.sessions session stored
  tasks other member := by
    cases List.mem_or_eq_of_mem_set member with
    | inr same =>
      subst same
      trivial
    | inl old =>
      have held := current.tasks other old
      have spared := List.any_eq_false.mp alone other old
      cases other with
      | resolving session request =>
        simp only [Task.outdatedBy, decide_eq_true_eq, not_and, not_lt] at spared
        exact completed_le held spared
      | granting api owner verified =>
        simp only [Task.outdatedBy, decide_eq_true_eq, not_and, not_lt] at spared
        exact completed_le held spared
      | revoking owner other => exact held
      | expiring session request => trivial
      | authenticating api username password => trivial
      | signingOut api tokenHash => trivial
      | changing owner newPassword => trivial
      | creating username password => trivial
      | counting owner => trivial
      | deleting owner => trivial
      | purging owner => trivial
      | answered reply => trivial
  counts other := by
    have made := current.tasks _ (List.mem_of_getElem? standing)
    exact completed_le (current.counts other) (fun same => same ▸ made)

/-- Every call keeps the invariant unless it overtakes a request. -/
theorem call_current {before after : State} {task : Nat} {draw : Draw} (current : Current before)
    (alone : overtakes before (.call task draw) = false)
    (taken : call hasher before task draw = some after) : Current after := by
  have kept : ∀ session ∈ before.sessions.docs, session ∈ before.sessions.docs ∨
      before.completed session.userId ≤ session.verified := fun _ member => .inl member
  have fewer : ∀ selects, ∀ session ∈ (before.sessions.deleteMany selects).docs,
      session ∈ before.sessions.docs ∨ before.completed session.userId ≤ session.verified :=
    fun _ _ member => .inl (IndexedCollection.mem_deleteMany.mp member).1
  have same : ∀ userId, before.written userId ≤ before.written userId := fun _ => le_rfl
  cases standing : before.tasks[task]? with
  | none => simp [call, standing] at taken
  | some place =>
    simp only [call, standing] at taken
    cases place with
    | answered reply => cases taken
    | expiring session request =>
      obtain rfl := Option.some.inj taken
      exact current.moved (fewer _) rfl (dispatch_current _ _) same rfl
    | resolving session request =>
      obtain rfl := Option.some.inj taken
      exact current.moved kept rfl (dispatch_current _ _) same rfl
    | authenticating api username password =>
      obtain rfl := Option.some.inj taken
      exact current.moved kept rfl (authenticated_current current _ _ _) same rfl
    | granting api userId verified =>
      simp only at taken
      split at taken
      · obtain rfl := Option.some.inj taken
        exact current.moved kept rfl trivial same rfl
      · rename_i granted inserted
        obtain rfl := Option.some.inj taken
        refine current.moved (fun session member => ?_) rfl trivial same rfl
        cases (IndexedCollection.mem_insert inserted session).mp member with
        | inl old => exact .inl old
        | inr fresh =>
          subst fresh
          exact .inr (current.tasks _ (List.mem_of_getElem? standing))
    | signingOut api tokenHash =>
      obtain rfl := Option.some.inj taken
      exact current.moved (fewer _) rfl trivial same rfl
    | changing userId newPassword =>
      simp only at taken
      split at taken
      · obtain rfl := Option.some.inj taken
        exact current.moved kept rfl trivial same rfl
      · rename_i hash hashed
        obtain rfl := Option.some.inj taken
        exact current.moved kept rfl (le_refl _)
          (changePassword_written before userId hash draw.now) rfl
    | revoking userId change =>
      obtain rfl := Option.some.inj taken
      refine current.revoked standing ?_ _
      simpa [overtakes, standing] using alone
    | creating username password =>
      simp only at taken
      split at taken
      · obtain rfl := Option.some.inj taken
        exact current.moved kept rfl trivial same rfl
      · split at taken
        · obtain rfl := Option.some.inj taken
          exact current.moved kept rfl trivial same rfl
        · obtain rfl := Option.some.inj taken
          exact current.moved kept rfl trivial same rfl
    | counting userId =>
      simp only at taken
      split at taken
      · obtain rfl := Option.some.inj taken
        exact current.moved kept rfl trivial same rfl
      · obtain rfl := Option.some.inj taken
        exact current.moved kept rfl trivial same rfl
    | deleting userId =>
      obtain rfl := Option.some.inj taken
      exact current.moved kept rfl trivial same rfl
    | purging userId =>
      obtain rfl := Option.some.inj taken
      exact current.moved (fewer _) rfl trivial same rfl

/-- Every step keeps the invariant unless it overtakes a request. -/
theorem step_current {before after : State} {label : Label} (current : Current before)
    (alone : overtakes before label = false) (taken : step hasher before label = some after) :
    Current after := by
  cases label with
  | call task draw => exact call_current current alone taken
  | arrive request now =>
    obtain rfl := Option.some.inj taken
    refine ⟨current.sessions, fun other member => ?_, current.counts⟩
    cases List.mem_append.mp member with
    | inl old => exact current.tasks other old
    | inr fresh =>
      rw [List.mem_singleton.mp fresh]
      exact findSession_current current request now
  | sweep now =>
    obtain rfl := Option.some.inj taken
    exact ⟨fun session member =>
      current.sessions session (IndexedCollection.mem_deleteMany.mp member).1, current.tasks,
      current.counts⟩

end

/-- A request is admitted with a session that no completed change has replaced. -/
theorem admitted_current {system : State} (current : Current system) {label : Label}
    {session : Session} (admitted : session ∈ system.admitted label) :
    system.completed session.userId ≤ session.verified := by
  unfold State.admitted at admitted
  split at admitted
  · split at admitted
    · rename_i read request standing
      obtain ⟨user, _, rfl⟩ := Option.map_eq_some_iff.mp admitted
      exact current.tasks _ (List.mem_of_getElem? standing)
    · cases admitted
  · cases admitted

/-- Along every run of concurrent requests, from a state without requests in progress in
which no change has been completed: no request is admitted with a session whose login
verified a hash that a completed change of the user's password has replaced, if no change
is completed while a login that verified an earlier hash is about to store its session, or
a request with a session of such a login is about to look up its user.

Proof: by induction on the run, since each step keeps every session, and every request on
its way, up to date with the completed changes. -/
theorem old_logins_cut_off (hasher : Hasher) {start : State} (idle : start.tasks = [])
    (unchanged : ∀ userId, start.completed userId = 0) (labels : List Label)
    (alone : Along (step hasher) (fun system label => overtakes system label = false) start labels) :
    Along (step hasher)
      (fun system label => ∀ session ∈ system.admitted label,
        system.completed session.userId ≤ session.verified) start labels := by
  have initial : Current start := by
    refine ⟨fun session _ => ?_, fun task member => ?_, fun userId => ?_⟩
    · rw [unchanged]
      exact Nat.zero_le _
    · rw [idle] at member
      cases member
    · rw [unchanged]
      exact Nat.zero_le _
  refine along_mono (step hasher) (fun system label current session admitted =>
    admitted_current current admitted) ?_
  exact along_invariant (step hasher)
    (fun _ _ _ current condition taken => step_current current condition taken) alone initial

/-- The steps of a password change, with the session of its user. -/
def changeSteps (task : Nat) (token current new : Str) : List Label :=
  [.arrive (signed token (.changePassword current new)) 0, .call task (drawn 0 []),
    .call task (drawn 0 []), .call task (drawn 0 [])]

/-- A request that only reads, with a session. -/
def visitSteps (task : Nat) (token : Str) : List Label :=
  [.arrive (signed token (.other true false)) 0, .call task (drawn 0 [])]

/-- Two logins, a password change with the first of the sessions, then a request with the
other one, which is not admitted, and a login with the new password and a request with its
session. -/
theorem old_logins_cut_off_inTurn :
    Along (step plainHasher)
      (fun system label => ∀ session ∈ system.admitted label,
        system.completed session.userId ≤ session.verified) twoUsers
      (loginSteps 0 10 (lit "alice") (lit "alice") (lit "s0") ++
        loginSteps 1 11 (lit "alice") (lit "alice") (lit "s1") ++
        changeSteps 2 (lit "s0") (lit "alice") (lit "new-password") ++
        [.arrive (signed (lit "s1") (.other true false)) 0] ++
        loginSteps 4 12 (lit "alice") (lit "new-password") (lit "s2") ++
        visitSteps 5 (lit "s2")) :=
  old_logins_cut_off plainHasher rfl (fun _ => rfl) _ (by decide +kernel)

/-- A login that verified the old password before the change and stores its session after
it stays signed in. -/
theorem old_login_survives :
    ¬ ∀ (hasher : Hasher) (start : State) (labels : List Label), start.tasks = [] →
      (∀ userId, start.completed userId = 0) →
      Along (step hasher)
        (fun system label => ∀ session ∈ system.admitted label,
          system.completed session.userId ≤ session.verified) start labels := by
  intro claimed
  have along := claimed plainHasher twoUsers
    (loginSteps 0 10 (lit "alice") (lit "alice") (lit "s0") ++
      (loginSteps 1 11 (lit "alice") (lit "alice") (lit "s1")).dropLast ++
      changeSteps 2 (lit "s0") (lit "alice") (lit "new-password") ++
      [.call 1 (drawn 11 (lit "s1"))] ++ visitSteps 3 (lit "s1")) rfl (fun _ => rfl)
  exact absurd along (by decide +kernel)

end WebhookInbox.Auth
