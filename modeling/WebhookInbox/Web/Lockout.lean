import WebhookInbox.Web.Provenance

/-!
# Who is locked out

A request is admitted if it finds a session under its token hash, and afterwards the user
of that session. A deletion takes away the second at once, for every request on its way. A
logout takes away the first, for the requests that arrive from then on: those that have
read the session already go on.
-/

namespace WebhookInbox.Auth

open Library Library.Run Calendar

section
variable (hasher : Hasher)

/-- The session that a step stores. -/
def stores (system : State) : Label → Option Session
  | .call task draw =>
      match system.tasks[task]? with
      | some (.granting _ userId verified) => some (hasher.session userId verified draw)
      | _ => none
  | _ => none

/-- The identifier of the user that a step creates. -/
def creates (system : State) : Label → Option ObjectId
  | .call task draw =>
      match system.tasks[task]? with
      | some (.creating _ _) => some draw.id
      | _ => none
  | _ => none

end

section
variable {hasher : Hasher}

/-- A route does not look up a session again. -/
theorem handle_resolved (user : User) (request other : Request) (session : Session) :
    handle hasher user request ≠ .resolving session other := by
  unfold handle
  repeat' split
  all_goals nofun

/-- Nor does the middleware after it resolved one. -/
theorem dispatch_resolved (request other : Request) (resolved : Option (Session × User))
    (session : Session) : dispatch hasher request resolved ≠ .resolving session other := by
  unfold dispatch
  split
  · split <;> nofun
  · nofun
  · split
    · exact handle_resolved _ _ _ _
    · split
      · nofun
      · nofun
      · exact handle_resolved _ _ _ _

/-- Nor does a login. -/
theorem authenticated_resolved (system : State) (api : Bool) (username password : Str)
    (session : Session) (other : Request) :
    authenticated hasher system api username password ≠ .resolving session other := by
  rcases authenticated_cases hasher system api username password with
    ⟨reply, same⟩ | ⟨user, _, _, same⟩
  · rw [same]
    nofun
  · rw [same]
    nofun

/-- A call moves one request, which has then resolved its session, and stores at most one
session. -/
theorem call_moves {before after : State} {task : Nat} {draw : Draw}
    (taken : call hasher before task draw = some after) :
    (∃ place, after.tasks = before.tasks.set task place ∧
        ∀ session request, place ≠ .resolving session request) ∧
      ∀ session ∈ after.sessions.docs, session ∈ before.sessions.docs ∨
        stores hasher before (.call task draw) = some session := by
  have kept : ∀ session ∈ before.sessions.docs, session ∈ before.sessions.docs ∨
      stores hasher before (.call task draw) = some session := fun _ stored => .inl stored
  have fewer : ∀ selects, ∀ session ∈ (before.sessions.deleteMany selects).docs,
      session ∈ before.sessions.docs ∨ stores hasher before (.call task draw) = some session :=
    fun _ _ stored => .inl (IndexedCollection.mem_deleteMany.mp stored).1
  cases call_effect taken with
  | expired session request standing result =>
    exact result ▸ ⟨⟨_, rfl, fun _ _ => dispatch_resolved _ _ _ _⟩, fewer _⟩
  | resolved session request standing result =>
    exact result ▸ ⟨⟨_, rfl, fun _ _ => dispatch_resolved _ _ _ _⟩, kept⟩
  | authenticated api username password standing result =>
    exact result ▸ ⟨⟨_, rfl, fun _ _ => authenticated_resolved _ _ _ _ _ _⟩, kept⟩
  | refused reply result silent => exact result ▸ ⟨⟨_, rfl, nofun⟩, kept⟩
  | granted api userId verified grown standing inserted result =>
    refine result ▸ ⟨⟨_, rfl, nofun⟩, fun session stored => ?_⟩
    cases (IndexedCollection.mem_insert inserted session).mp stored with
    | inl old => exact .inl old
    | inr fresh => exact .inr (by simp [stores, standing, fresh])
  | signedOut api tokenHash standing result => exact result ▸ ⟨⟨_, rfl, nofun⟩, fewer _⟩
  | changed userId newPassword hash standing hashed result =>
    exact result ▸ ⟨⟨_, rfl, nofun⟩, kept⟩
  | revoked userId written standing result => exact result ▸ ⟨⟨_, rfl, nofun⟩, fewer _⟩
  | created username password hash grown standing hashed inserted result =>
    exact result ▸ ⟨⟨_, rfl, nofun⟩, kept⟩
  | counted userId standing result => exact result ▸ ⟨⟨_, rfl, nofun⟩, kept⟩
  | deleted userId standing result => exact result ▸ ⟨⟨_, rfl, nofun⟩, kept⟩
  | purged userId standing result => exact result ▸ ⟨⟨_, rfl, nofun⟩, fewer _⟩

/-! ## Ended sessions -/

/-- No session of this kind is stored, and none was read by a request that arrived after
so many others. -/
structure Barred (kind : Session → Prop) (arrived : Nat) (system : State) : Prop where
  sessions : ∀ session ∈ system.sessions.docs, ¬ kind session
  tasks : ∀ task session request, arrived ≤ task →
    system.tasks[task]? = some (.resolving session request) → ¬ kind session
  later : arrived ≤ system.tasks.length

/-- What is ended stays ended, unless such a session is stored again. -/
theorem step_barred {kind : Session → Prop} {arrived : Nat} {before after : State} {label : Label}
    (barred : Barred kind arrived before)
    (fresh : ∀ session ∈ stores hasher before label, ¬ kind session)
    (taken : step hasher before label = some after) : Barred kind arrived after := by
  cases label with
  | call task draw =>
    obtain ⟨⟨place, moved, resolved⟩, stored⟩ := call_moves taken
    refine ⟨fun session member => ?_, fun other session request late standing => ?_, ?_⟩
    · cases stored session member with
      | inl old => exact barred.sessions session old
      | inr new => exact fresh session new
    · rw [moved, List.getElem?_set] at standing
      split at standing
      · split at standing
        · exact absurd (Option.some.inj standing) (resolved session request)
        · cases standing
      · exact barred.tasks other session request late standing
    · rw [moved, List.length_set]
      exact barred.later
  | arrive request now =>
    obtain rfl := Option.some.inj taken
    refine ⟨barred.sessions, fun task session other late standing => ?_, ?_⟩
    · rw [List.getElem?_append] at standing
      split at standing
      · exact barred.tasks task session other late standing
      · have found := List.mem_singleton.mp (List.mem_of_getElem? standing)
        unfold findSession at found
        split at found
        · exact absurd found.symm (dispatch_resolved _ _ _ _)
        · split at found
          · exact absurd found.symm (dispatch_resolved _ _ _ _)
          · rename_i token _ _ read looked
            split at found
            · cases found
            · cases found
              exact barred.sessions session (IndexedCollection.lookup_some looked).1
    · exact barred.later.trans (by simp)
  | sweep now =>
    obtain rfl := Option.some.inj taken
    exact ⟨fun session member =>
      barred.sessions session (IndexedCollection.mem_deleteMany.mp member).1, barred.tasks,
      barred.later⟩

/-- With a session of this kind no request is admitted that arrived later. -/
theorem admitted_barred {kind : Session → Prop} {arrived : Nat} {system : State}
    (barred : Barred kind arrived system) {task : Nat} (late : arrived ≤ task) {draw : Draw}
    {session : Session} (admitted : session ∈ system.admitted (.call task draw)) :
    ¬ kind session := by
  simp only [State.admitted] at admitted
  split at admitted
  · rename_i read request standing
    obtain ⟨user, _, rfl⟩ := Option.map_eq_some_iff.mp admitted
    exact barred.tasks task read request late standing
  · cases admitted

end

/-- Along every run of concurrent requests that goes on after a logout: no request that
arrives later is admitted with the session that was ended, unless a login happens to draw
a token with the same hash. The state may be any, and requests on their way may have read
the session.

Proof: by induction on the run, since no session with that hash is stored, and none was
read by a request that arrived later. -/
theorem logged_out_for_good (hasher : Hasher) {before after : State} {task : Nat} {draw : Draw}
    {api : Bool} {tokenHash : Str}
    (standing : before.tasks[task]? = some (.signingOut api tokenHash))
    (taken : step hasher before (.call task draw) = some after) (labels : List Label)
    (fresh : Along (step hasher) (fun system label => ∀ session ∈ stores hasher system label,
      session.tokenHash ≠ tokenHash) after labels) :
    Along (step hasher) (fun system label => ∀ later draw, label = .call later draw →
      before.tasks.length ≤ later → ∀ session ∈ system.admitted label,
        session.tokenHash ≠ tokenHash) after labels := by
  have barred :
      Barred (fun session => session.tokenHash = tokenHash) before.tasks.length after := by
    simp only [step, call, standing] at taken
    obtain rfl := Option.some.inj taken
    refine ⟨fun session member => ?_, fun later session request late there => ?_, ?_⟩
    · exact of_decide_eq_false (IndexedCollection.mem_deleteMany.mp member).2
    · have short := (List.getElem?_eq_some_iff.mp there).1
      simp only [State.move, List.length_set] at short
      omega
    · simp [State.move]
  refine along_mono (step hasher) (fun system label held later draw same late session admitted =>
    ?_) (along_invariant (step hasher)
      (fun _ _ _ held condition taken => step_barred held condition taken) fresh barred)
  subst same
  exact admitted_barred held late admitted

/-- A login and a logout with its session, whose removal is still to come. -/
def logoutSteps : List Label :=
  loginSteps 0 10 (lit "alice") (lit "alice") (lit "s0") ++
    [.arrive (signed (lit "s0") (.logout true)) 0, .call 1 (drawn 0 [])]

/-- The state after these steps. -/
def leaving : State := (run (step plainHasher) twoUsers logoutSteps).get (by decide +kernel)

/-- The state after the logout. -/
def left : State := (step plainHasher leaving (.call 1 (drawn 0 []))).get (by decide +kernel)

/-- The old session, then a new one with another token. -/
def returning : List Label :=
  [.arrive (signed (lit "s0") (.other true false)) 0] ++
    loginSteps 3 11 (lit "alice") (lit "alice") (lit "s1") ++
    [.arrive (signed (lit "s1") (.other true false)) 0, .call 4 (drawn 0 [])]

theorem logged_out_for_good_returning :
    Along (step plainHasher) (fun system label => ∀ later draw, label = .call later draw →
      leaving.tasks.length ≤ later → ∀ session ∈ system.admitted label,
        session.tokenHash ≠ lit "s0") left returning :=
  logged_out_for_good plainHasher (rfl : leaving.tasks[1]? = some (.signingOut true (lit "s0")))
    (Option.some_get _).symm returning (by decide +kernel)

/-! ## Deleted users -/

section
variable {hasher : Hasher}

/-- A deleted user stays deleted, unless the identifier is given out again. -/
theorem step_absent {userId : ObjectId} {before after : State} {label : Label}
    (absent : ∀ user ∈ before.users.docs, user.id ≠ userId)
    (fresh : userId ∉ creates before label) (taken : step hasher before label = some after) :
    ∀ user ∈ after.users.docs, user.id ≠ userId := by
  cases label with
  | arrive request now =>
    obtain rfl := Option.some.inj taken
    exact absent
  | sweep now =>
    obtain rfl := Option.some.inj taken
    exact absent
  | call task draw =>
    cases call_effect taken with
    | changed owner newPassword hash standing hashed result =>
      subst result
      intro user member
      obtain ⟨old, stored, rfl⟩ :=
        (Collection.mem_updateOne before.users.stored owner (User.setPassword hash draw.now)
          (fun _ => rfl) user).mp member
      split
      · exact absent old stored
      · exact absent old stored
    | created username password hash grown standing hashed inserted result =>
      subst result
      intro user member
      cases (IndexedCollection.mem_insert inserted user).mp member with
      | inl old => exact absent user old
      | inr new =>
        rintro rfl
        exact fresh (by simp [creates, standing, new])
    | deleted owner standing result =>
      subst result
      intro user member
      exact absent user (IndexedCollection.mem_deleteMany.mp member).1
    | expired session request standing result => exact result ▸ absent
    | resolved session request standing result => exact result ▸ absent
    | authenticated api username password standing result => exact result ▸ absent
    | refused reply result silent => exact result ▸ absent
    | granted api owner verified grown standing inserted result => exact result ▸ absent
    | signedOut api tokenHash standing result => exact result ▸ absent
    | revoked owner written standing result => exact result ▸ absent
    | counted owner standing result => exact result ▸ absent
    | purged owner standing result => exact result ▸ absent

/-- Nobody is admitted as a user who is not there. -/
theorem admitted_absent {userId : ObjectId} {system : State} {label : Label} {session : Session}
    (absent : ∀ user ∈ system.users.docs, user.id ≠ userId)
    (admitted : session ∈ system.admitted label) : session.userId ≠ userId := by
  unfold State.admitted at admitted
  split at admitted
  · split at admitted
    · rename_i read request standing
      obtain ⟨user, found, rfl⟩ := Option.map_eq_some_iff.mp admitted
      obtain ⟨stored, same⟩ := Collection.find_some found
      exact same ▸ absent user stored
    · cases admitted
  · cases admitted

end

/-- Along every run of concurrent requests that goes on after the deletion of a user: no
request is admitted with a session of that user, whenever it arrived and whatever it has
read, unless the identifier is given out again. The sessions may still be stored, and
logins on their way may store more.

Proof: by induction on the run, since the user is never found again. -/
theorem deleted_locked_out (hasher : Hasher) {before after : State} {task : Nat} {draw : Draw}
    {userId : ObjectId} (standing : before.tasks[task]? = some (.deleting userId))
    (taken : step hasher before (.call task draw) = some after) (labels : List Label)
    (fresh : Along (step hasher) (fun system label => userId ∉ creates system label)
      after labels) :
    Along (step hasher) (fun system label => ∀ session ∈ system.admitted label,
      session.userId ≠ userId) after labels := by
  have absent : ∀ user ∈ after.users.docs, user.id ≠ userId := by
    simp only [step, call, standing] at taken
    obtain rfl := Option.some.inj taken
    intro user member
    exact of_decide_eq_false (IndexedCollection.mem_deleteMany.mp member).2
  refine along_mono (step hasher) (fun system label held session admitted =>
    admitted_absent held admitted) ?_
  exact along_invariant (step hasher)
    (fun _ _ _ held condition taken => step_absent held condition taken) fresh absent

/-- Two users sign in, one deletes the other, who has read the own session by then. -/
def deletionSteps : List Label :=
  loginSteps 0 10 (lit "alice") (lit "alice") (lit "s0") ++
    loginSteps 1 11 (lit "bob") (lit "bob") (lit "s1") ++
    [.arrive (signed (lit "s0") (.deleteUser (some ⟨2⟩))) 0, .call 2 (drawn 0 []),
      .arrive (signed (lit "s1") (.other true false)) 0, .call 2 (drawn 0 [])]

/-- The state after these steps. -/
def guarded : State := (run (step plainHasher) twoUsers deletionSteps).get (by decide +kernel)

/-- The state after the deletion. -/
def alone : State := (step plainHasher guarded (.call 2 (drawn 0 []))).get (by decide +kernel)

/-- The request of the deleted user goes on, and the user's session is found once more. -/
theorem deleted_locked_out_midway :
    Along (step plainHasher) (fun system label => ∀ session ∈ system.admitted label,
      session.userId ≠ ⟨2⟩) alone
      [.call 3 (drawn 0 []), .arrive (signed (lit "s1") (.other true false)) 0,
        .call 4 (drawn 0 [])] :=
  deleted_locked_out plainHasher (rfl : guarded.tasks[2]? = some (.deleting ⟨2⟩))
    (Option.some_get _).symm _ (by decide +kernel)

end WebhookInbox.Auth
