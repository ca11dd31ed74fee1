import WebhookInbox.Throttle
import WebhookInbox.Web.Provenance

/-!
# How often a password can be tried

A login asks its limiter under the address of the client before the password is checked.
Between its arrival and that moment the middleware may look up a session, so logins ask in
an order of their own, and the check is a later call still.

Here the limiter is part of the state. A login that enters its route goes on as the limiter
says, and `guesses_bounded` counts the passwords that are checked, whatever else goes on.
-/

namespace WebhookInbox.Auth

open Library Library.Run Calendar RateLimit

/-- The dashboard and the limiter of its logins. -/
structure Guarded where
  system : State
  limiter : RateLimiter

/-- The flag of a login. -/
def Action.allowed : Action → Option Bool
  | .login _ _ _ allowed => some allowed
  | _ => none

section
variable (hasher : Hasher)

/-- The login that enters its route in this step, and whether it is let pass. One that
arrives does so unless a session is looked up or removed first. -/
def entered (system : State) : Label → Option (Nat × Bool)
  | .arrive request now =>
      match findSession hasher system.sessions request now with
      | .expiring _ _ | .resolving _ _ => none
      | _ => request.action.allowed.map (system.tasks.length, ·)
  | .call task _ =>
      match system.tasks[task]? with
      | some (.expiring _ request) | some (.resolving _ request) =>
          request.action.allowed.map (task, ·)
      | _ => none
  | .sweep _ => none

/-- The login whose password is checked in this step. -/
def guesses (system : State) : Label → Option Nat
  | .call task _ =>
      match system.tasks[task]? with
      | some (.authenticating _ _ _) => some task
      | _ => none
  | _ => none

/-- The limiter in front of the logins, with the address of each request's client. -/
def logins (client : Nat → Str) : Route Nat Bool where
  key task := some (lit "login:" ++ client task)
  reply _ refused := refused.isNone

/-- One step at a time of the limiter's clock. A login that enters its route is let pass
exactly if the limiter says so. -/
def limitedStep (client : Nat → Str) (before : Guarded) (label : Label × ℚ) : Option Guarded :=
  match entered hasher before.system label.1 with
  | none =>
      (step hasher before.system label.1).map (fun system => ⟨system, before.limiter⟩)
  | some (task, allowed) =>
      let served := (logins client).serve before.limiter task label.2
      if served.1 = allowed then
        (step hasher before.system label.1).map (fun system => ⟨system, served.2⟩)
      else none

/-- A login asks the limiter, or its password is checked. -/
inductive Attempt where
  | asked (task : Nat) (time : ℚ) (allowed : Bool)
  | guessed (task : Nat)

/-- What is noted of them at a step. -/
def attempts (before : Guarded) (label : Label × ℚ) : List Attempt :=
  ((entered hasher before.system label.1).map (fun login =>
    Attempt.asked login.1 label.2 login.2)).toList ++
    ((guesses before.system label.1).map Attempt.guessed).toList

/-- The notes along a run. -/
def attemptsOf (client : Nat → Str) (start : Guarded) (labels : List (Label × ℚ)) :
    List Attempt :=
  observed (limitedStep hasher client) (attempts hasher) start labels

end

/-- The login that asked, with the time and what the limiter said. -/
def Attempt.ask : Attempt → Option ((Nat × ℚ) × Bool)
  | .asked task time allowed => some ((task, time), allowed)
  | .guessed _ => none

/-- The login whose password was checked. -/
def Attempt.guess : Attempt → Option Nat
  | .asked _ _ _ => none
  | .guessed task => some task

/-- The limiter let the login pass between two times. -/
def passedBetween (first last : ℚ) (past : List Attempt) (task : Nat) : Bool :=
  (past.filterMap Attempt.ask).any (fun login =>
    decide (login.1.1 = task) && (decide (first ≤ login.1.2 ∧ login.1.2 ≤ last) && login.2))

/-! ## Where a request can stand -/

section
variable {hasher : Hasher}

/-- A request that is about to have its password checked, or not yet at its route. -/
inductive Waiting : Task → Prop
  | expiring (session : ObjectId) (request : Request) : Waiting (.expiring session request)
  | resolving (session : Session) (request : Request) : Waiting (.resolving session request)
  | authenticating (api : Bool) (username password : Str) :
      Waiting (.authenticating api username password)

/-- No route but the login waits for a check. -/
theorem handle_waiting (user : User) (request : Request) :
    ¬ Waiting (handle hasher user request) := by
  unfold handle
  repeat' split
  all_goals nofun

/-- A login whose password was checked waits no more. -/
theorem authenticated_waiting {system : State} {api : Bool} {username password : Str} :
    ¬ Waiting (authenticated hasher system api username password) := by
  rcases authenticated_cases hasher system api username password with
    ⟨reply, same⟩ | ⟨user, _, _, same⟩
  · rw [same]
    nofun
  · rw [same]
    nofun

/-- After the middleware only a login that is let pass does. -/
theorem dispatch_waiting {request : Request} {resolved : Option (Session × User)}
    (waiting : Waiting (dispatch hasher request resolved)) :
    request.action.allowed = some true ∧ ∃ api username password,
      dispatch hasher request resolved = .authenticating api username password := by
  unfold dispatch at waiting ⊢
  split at waiting
  · rename_i api username password allowed action
    split at waiting
    · rename_i passed
      refine ⟨?_, api, username, password, ?_⟩
      · rw [action, passed]
        rfl
      · simp [passed]
    · nomatch waiting
  · nomatch waiting
  · split at waiting
    · exact absurd waiting (handle_waiting _ _)
    · split at waiting
      · nomatch waiting
      · nomatch waiting
      · exact absurd waiting (handle_waiting _ _)

/-- A call moves its request to a place that waits for a check only if the login enters its
route and is let pass. -/
theorem call_placed {before after : State} {task : Nat} {draw : Draw}
    (taken : call hasher before task draw = some after) :
    ∃ place, after.tasks = before.tasks.set task place ∧
      (Waiting place → entered hasher before (.call task draw) = some (task, true) ∧
        ∃ api username password, place = .authenticating api username password) := by
  cases call_effect taken with
  | expired session request standing result =>
    subst result
    refine ⟨_, rfl, fun waiting => ?_⟩
    obtain ⟨allowed, check⟩ := dispatch_waiting waiting
    exact ⟨by simp [entered, standing, allowed], check⟩
  | resolved session request standing result =>
    subst result
    refine ⟨_, rfl, fun waiting => ?_⟩
    obtain ⟨allowed, check⟩ := dispatch_waiting waiting
    exact ⟨by simp [entered, standing, allowed], check⟩
  | authenticated api username password standing result =>
    subst result
    exact ⟨_, rfl, fun waiting => absurd waiting authenticated_waiting⟩
  | refused reply result silent =>
    subst result
    exact ⟨_, rfl, nofun⟩
  | granted api userId verified grown standing inserted result =>
    subst result
    exact ⟨_, rfl, nofun⟩
  | signedOut api tokenHash standing result =>
    subst result
    exact ⟨_, rfl, nofun⟩
  | changed userId newPassword hash standing hashed result =>
    subst result
    exact ⟨_, rfl, nofun⟩
  | revoked userId written standing result =>
    subst result
    exact ⟨_, rfl, nofun⟩
  | created username password hash grown standing hashed inserted result =>
    subst result
    exact ⟨_, rfl, nofun⟩
  | counted userId standing result =>
    subst result
    exact ⟨_, rfl, nofun⟩
  | deleted userId standing result =>
    subst result
    exact ⟨_, rfl, nofun⟩
  | purged userId standing result =>
    subst result
    exact ⟨_, rfl, nofun⟩

/-- A request that arrives waits for a check only if it is a login that enters its route at
once and is let pass. -/
theorem arrive_placed {system : State} {request : Request} {now : Instant}
    {api : Bool} {username password : Str}
    (waiting : findSession hasher system.sessions request now =
      .authenticating api username password) :
    entered hasher system (.arrive request now) = some (system.tasks.length, true) := by
  have direct : dispatch hasher request none = .authenticating api username password →
      request.action.allowed = some true := by
    intro check
    exact (dispatch_waiting (check ▸ Waiting.authenticating api username password)).1
  have allowed : request.action.allowed = some true := by
    have found := waiting
    unfold findSession at found
    split at found
    · exact direct found
    · split at found
      · exact direct found
      · split at found
        · nomatch found
        · nomatch found
  simp [entered, waiting, allowed]

end

/-! ## What holds along a run -/

/-- What the notes say of a login on its way: one that is not yet at its route has not asked,
and one that is about to be checked was let pass and has not been checked. -/
def Task.Metered (past : List Attempt) (task : Nat) : Task → Prop
  | .expiring _ _ | .resolving _ _ => ∀ time allowed, .asked task time allowed ∉ past
  | .authenticating _ _ _ => (∃ time, .asked task time true ∈ past) ∧ .guessed task ∉ past
  | _ => True

/-- The logins on their way agree with the notes, a password that was checked is that of a
login that was let pass, and is checked once. -/
structure Metered (past : List Attempt) (system : State) : Prop where
  tasks : ∀ task (place : Task), system.tasks[task]? = some place → place.Metered past task
  known : ∀ task time allowed, .asked task time allowed ∈ past → task < system.tasks.length
  passed : ∀ task, .guessed task ∈ past → ∃ time, .asked task time true ∈ past
  once : (past.filterMap Attempt.guess).Nodup

/-- The notes are what the limiter said to the logins, and it is as they left it. -/
structure Served (client : Nat → Str) (initial : RateLimiter) (past : List Attempt)
    (limiter : RateLimiter) : Prop where
  replies : (past.filterMap Attempt.ask).map Prod.snd =
    (logins client).replies initial ((past.filterMap Attempt.ask).map Prod.fst)
  after : limiter = (logins client).after initial ((past.filterMap Attempt.ask).map Prod.fst)

section
variable {hasher : Hasher} {past : List Attempt} {before after : State}

/-- Notes on other logins change nothing for one. -/
theorem Task.Metered.append {place : Task} {task : Nat} (metered : place.Metered past task)
    {more : List Attempt} (silent : ∀ time allowed, .asked task time allowed ∉ more)
    (unchecked : .guessed task ∉ more) : place.Metered (past ++ more) task := by
  have unasked : (∀ time allowed, .asked task time allowed ∉ past) →
      ∀ time allowed, .asked task time allowed ∉ past ++ more := by
    intro none time allowed asked
    exact (List.mem_append.mp asked).elim (none time allowed) (silent time allowed)
  cases place with
  | expiring session request => exact unasked metered
  | resolving session request => exact unasked metered
  | authenticating api username password =>
    obtain ⟨⟨time, asked⟩, first⟩ := metered
    refine ⟨⟨time, List.mem_append_left _ asked⟩, fun checked => ?_⟩
    exact (List.mem_append.mp checked).elim first unchecked
  | granting api userId verified => trivial
  | signingOut api tokenHash => trivial
  | changing userId newPassword => trivial
  | revoking userId written => trivial
  | creating username password => trivial
  | counting userId => trivial
  | deleting userId => trivial
  | purging userId => trivial
  | answered reply => trivial

/-- A request that does not wait for a check owes nothing to the notes. -/
theorem Task.metered_of_not_waiting {place : Task} {task : Nat} (done : ¬ Waiting place) :
    place.Metered past task := by
  cases place with
  | expiring session request => exact absurd (.expiring session request) done
  | resolving session request => exact absurd (.resolving session request) done
  | authenticating api username password =>
    exact absurd (.authenticating api username password) done
  | granting api userId verified => trivial
  | signingOut api tokenHash => trivial
  | changing userId newPassword => trivial
  | revoking userId written => trivial
  | creating username password => trivial
  | counting userId => trivial
  | deleting userId => trivial
  | purging userId => trivial
  | answered reply => trivial

/-- A login is noted to ask when it enters its route. -/
theorem mem_attempts_asked {before : Guarded} {label : Label × ℚ} {task : Nat} {time : ℚ}
    {allowed : Bool} : .asked task time allowed ∈ attempts hasher before label ↔
      entered hasher before.system label.1 = some (task, allowed) ∧ label.2 = time := by
  simp only [attempts, List.mem_append, Option.mem_toList, Option.map_eq_some_iff]
  constructor
  · rintro (⟨⟨_, _⟩, here, same⟩ | ⟨_, _, same⟩)
    · cases same
      exact ⟨here, rfl⟩
    · nomatch same
  · rintro ⟨here, rfl⟩
    exact .inl ⟨_, here, rfl⟩

/-- A password is noted when it is checked. -/
theorem mem_attempts_guessed {before : Guarded} {label : Label × ℚ} {task : Nat} :
    .guessed task ∈ attempts hasher before label ↔
      guesses before.system label.1 = some task := by
  simp only [attempts, List.mem_append, Option.mem_toList, Option.map_eq_some_iff]
  constructor
  · rintro (⟨_, _, same⟩ | ⟨_, here, same⟩)
    · nomatch same
    · cases same
      exact here
  · intro here
    exact .inr ⟨_, here, rfl⟩

/-- The notes on asking, and on checking. -/
theorem attempts_split (before : Guarded) (label : Label × ℚ) :
    (attempts hasher before label).filterMap Attempt.ask =
        ((entered hasher before.system label.1).map
          (fun login => ((login.1, label.2), login.2))).toList ∧
      (attempts hasher before label).filterMap Attempt.guess =
        (guesses before.system label.1).toList := by
  unfold attempts
  cases entered hasher before.system label.1 <;> cases guesses before.system label.1 <;>
    exact ⟨rfl, rfl⟩

/-- The request that is called stands somewhere. -/
theorem guesses_standing {label : Label} {task : Nat} (checked : guesses before label = some task) :
    ∃ draw api username password, label = .call task draw ∧
      before.tasks[task]? = some (.authenticating api username password) := by
  cases label with
  | arrive request now => nomatch checked
  | sweep now => nomatch checked
  | call other draw =>
    simp only [guesses] at checked
    split at checked
    · rename_i api username password standing
      obtain rfl := Option.some.inj checked
      exact ⟨draw, api, username, password, rfl, standing⟩
    · nomatch checked

/-- Only the request that is called, or arrives, enters its route. -/
theorem entered_task {label : Label} {task : Nat} {allowed : Bool}
    (enters : entered hasher before label = some (task, allowed)) :
    match label with
    | .arrive _ _ => task = before.tasks.length
    | .call other _ => task = other
    | .sweep _ => False := by
  cases label with
  | arrive request now =>
    simp only [entered] at enters
    split at enters
    · nomatch enters
    · nomatch enters
    · obtain ⟨_, _, same⟩ := Option.map_eq_some_iff.mp enters
      exact (congrArg Prod.fst same).symm
  | call other draw =>
    simp only [entered] at enters
    split at enters
    · obtain ⟨_, _, same⟩ := Option.map_eq_some_iff.mp enters
      exact (congrArg Prod.fst same).symm
    · obtain ⟨_, _, same⟩ := Option.map_eq_some_iff.mp enters
      exact (congrArg Prod.fst same).symm
    · nomatch enters
  | sweep now => nomatch enters

/-- A login that enters its route has not asked before. -/
theorem Metered.entered_unasked (metered : Metered past before) {label : Label} {task : Nat}
    {allowed : Bool} (enters : entered hasher before label = some (task, allowed)) (time : ℚ)
    (said : Bool) : .asked task time said ∉ past := by
  have whose := entered_task enters
  cases label with
  | arrive request now =>
    intro asked
    exact absurd (metered.known task time said asked) (whose ▸ lt_irrefl _)
  | call other draw =>
    obtain rfl : task = other := whose
    simp only [entered] at enters
    split at enters
    · rename_i session request standing
      exact metered.tasks task _ standing time said
    · rename_i session request standing
      exact metered.tasks task _ standing time said
    · nomatch enters
  | sweep now => exact absurd whose not_false

/-- A login whose password is checked was let pass, and is checked for the first time. -/
theorem Metered.guesses_passed (metered : Metered past before) {label : Label} {task : Nat}
    (checked : guesses before label = some task) :
    (∃ time, .asked task time true ∈ past) ∧ .guessed task ∉ past := by
  obtain ⟨_, _, username, password, _, standing⟩ := guesses_standing checked
  exact metered.tasks task _ standing

/-- A step that leaves the other logins where they are keeps what holds of them, if it does
for the request that it moves. -/
theorem Metered.moved {start : Guarded} {label : Label × ℚ} {moved : Nat}
    (metered : Metered past start.system)
    (longer : start.system.tasks.length ≤ after.tasks.length)
    (within : moved < after.tasks.length)
    (enters : ∀ task allowed, entered hasher start.system label.1 = some (task, allowed) →
      task = moved)
    (checks : ∀ task, guesses start.system label.1 = some task → task = moved)
    (others : ∀ task (place : Task), after.tasks[task]? = some place → task ≠ moved →
      start.system.tasks[task]? = some place)
    (placed : ∀ place : Task, after.tasks[moved]? = some place →
      place.Metered (past ++ attempts hasher start label) moved) :
    Metered (past ++ attempts hasher start label) after where
  tasks task place standing := by
    by_cases same : task = moved
    · subst same
      exact placed place standing
    · refine (metered.tasks task place (others task place standing same)).append ?_ ?_
      · intro time allowed asked
        exact same (enters task allowed (mem_attempts_asked.mp asked).1)
      · intro checked
        exact same (checks task (mem_attempts_guessed.mp checked))
  known task time allowed asked := by
    rcases List.mem_append.mp asked with old | new
    · exact lt_of_lt_of_le (metered.known task time allowed old) longer
    · exact enters task allowed (mem_attempts_asked.mp new).1 ▸ within
  passed task checked := by
    have let_pass : ∃ time, .asked task time true ∈ past := by
      rcases List.mem_append.mp checked with old | new
      · exact metered.passed task old
      · exact (metered.guesses_passed (mem_attempts_guessed.mp new)).1
    obtain ⟨time, asked⟩ := let_pass
    exact ⟨time, List.mem_append_left _ asked⟩
  once := by
    rw [List.filterMap_append, (attempts_split start label).2]
    cases checked : guesses start.system label.1 with
    | none => simpa using metered.once
    | some task =>
      have first := (metered.guesses_passed checked).2
      have unseen : task ∉ past.filterMap Attempt.guess := by
        intro seen
        obtain ⟨attempt, noted, same⟩ := List.mem_filterMap.mp seen
        cases attempt with
        | asked other time allowed => nomatch same
        | guessed other =>
          obtain rfl : other = task := Option.some.inj same
          exact first noted
      exact List.nodup_append.mpr ⟨metered.once, List.nodup_singleton task, fun other seen _ last =>
        List.mem_singleton.mp last ▸ fun same => unseen (same ▸ seen)⟩

/-- A request that arrives. -/
theorem arrive_metered {start : Guarded} {request : Request} {now : Instant} {time : ℚ}
    (metered : Metered past start.system)
    (taken : step hasher start.system (.arrive request now) = some after) :
    Metered (past ++ attempts hasher start (.arrive request now, time)) after := by
  obtain rfl := Option.some.inj taken
  have latest : ∀ task allowed,
      entered hasher start.system (.arrive request now) = some (task, allowed) →
      task = start.system.tasks.length := fun task allowed enters => entered_task enters
  have absent : ∀ (since : ℚ) allowed, .asked start.system.tasks.length since allowed ∉ past :=
    fun since allowed asked => lt_irrefl _ (metered.known _ since allowed asked)
  have unasked : entered hasher start.system (.arrive request now) = none →
      ∀ since allowed, .asked start.system.tasks.length since allowed ∉
        past ++ attempts hasher start (.arrive request now, time) := by
    intro outside since allowed asked
    rcases List.mem_append.mp asked with old | new
    · exact absent since allowed old
    · rw [mem_attempts_asked, outside] at new
      nomatch new.1
  refine metered.moved (by simp) (by simp) latest nofun ?_ ?_
  · intro task place standing other
    rw [List.getElem?_append] at standing
    split at standing
    · exact standing
    · rename_i beyond
      have last := (List.getElem?_eq_some_iff.mp standing).1
      simp only [List.length_singleton] at last
      omega
  · intro place standing
    rw [List.getElem?_concat_length] at standing
    obtain rfl := Option.some.inj standing
    cases found : findSession hasher start.system.sessions request now with
    | expiring session request => exact unasked (by simp [entered, found])
    | resolving session request => exact unasked (by simp [entered, found])
    | authenticating api username password =>
      refine ⟨⟨time, List.mem_append_right _ (mem_attempts_asked.mpr
        ⟨arrive_placed found, rfl⟩)⟩, fun checked => ?_⟩
      rcases List.mem_append.mp checked with old | new
      · obtain ⟨since, asked⟩ := metered.passed _ old
        exact absent since true asked
      · nomatch mem_attempts_guessed.mp new
    | _ => trivial

/-- A request that makes a call. -/
theorem call_metered {start : Guarded} {task : Nat} {draw : Draw} {time : ℚ}
    (metered : Metered past start.system)
    (taken : step hasher start.system (.call task draw) = some after) :
    Metered (past ++ attempts hasher start (.call task draw, time)) after := by
  obtain ⟨place, tasks, waits⟩ := call_placed taken
  have length : after.tasks.length = start.system.tasks.length := by rw [tasks, List.length_set]
  have within : task < start.system.tasks.length := by
    by_contra beyond
    have nowhere : start.system.tasks[task]? = none := List.getElem?_eq_none (not_lt.mp beyond)
    simp [step, call, nowhere] at taken
  refine metered.moved length.ge (length ▸ within) (fun other allowed enters => entered_task enters)
    ?_ ?_ ?_
  · intro other checked
    obtain ⟨_, _, _, _, same, _⟩ := guesses_standing checked
    injection same with same
    exact same.symm
  · intro other there standing different
    rwa [tasks, List.getElem?_set_ne different.symm] at standing
  · intro there standing
    rw [tasks, List.getElem?_set_self within] at standing
    obtain rfl := Option.some.inj standing
    by_cases waiting : Waiting place
    · obtain ⟨enters, api, username, password, rfl⟩ := waits waiting
      refine ⟨⟨time, List.mem_append_right _ (mem_attempts_asked.mpr ⟨enters, rfl⟩)⟩,
        fun checked => ?_⟩
      have asked : ∃ since, .asked task since true ∈ past := by
        rcases List.mem_append.mp checked with old | new
        · exact metered.passed task old
        · exact (metered.guesses_passed (mem_attempts_guessed.mp new)).1
      obtain ⟨since, asked⟩ := asked
      exact metered.entered_unasked enters since true asked
    · exact Task.metered_of_not_waiting waiting

/-- A step of the dashboard keeps what holds of the logins. -/
theorem step_metered {start : Guarded} {label : Label × ℚ} (metered : Metered past start.system)
    (taken : step hasher start.system label.1 = some after) :
    Metered (past ++ attempts hasher start label) after := by
  obtain ⟨label, time⟩ := label
  cases label with
  | arrive request now => exact arrive_metered metered taken
  | call task draw => exact call_metered metered taken
  | sweep now =>
    obtain rfl := Option.some.inj taken
    have silent : attempts hasher start (.sweep now, time) = [] := rfl
    rw [silent, List.append_nil]
    exact ⟨metered.tasks, metered.known, metered.passed, metered.once⟩

/-- A step is one of the dashboard. If a login enters its route, the limiter said so. -/
theorem limitedStep_cases {client : Nat → Str} {start next : Guarded} {label : Label × ℚ}
    (taken : limitedStep hasher client start label = some next) :
    step hasher start.system label.1 = some next.system ∧
      ((entered hasher start.system label.1 = none ∧ next.limiter = start.limiter) ∨
        ∃ task allowed, entered hasher start.system label.1 = some (task, allowed) ∧
          (logins client).serve start.limiter task label.2 = (allowed, next.limiter)) := by
  unfold limitedStep at taken
  split at taken
  · rename_i outside
    obtain ⟨system, stepped, rfl⟩ := Option.map_eq_some_iff.mp taken
    exact ⟨stepped, .inl ⟨outside, rfl⟩⟩
  · rename_i task allowed enters
    simp only at taken
    split at taken
    · rename_i said
      obtain ⟨system, stepped, rfl⟩ := Option.map_eq_some_iff.mp taken
      exact ⟨stepped, .inr ⟨task, allowed, enters, Prod.ext said rfl⟩⟩
    · nomatch taken

/-- A step keeps the limiter with the notes. -/
theorem limitedStep_served {client : Nat → Str} {initial : RateLimiter} {start next : Guarded}
    {label : Label × ℚ} (served : Served client initial past start.limiter)
    (taken : limitedStep hasher client start label = some next) :
    Served client initial (past ++ attempts hasher start label) next.limiter := by
  have asks := (@attempts_split hasher start label).1
  obtain ⟨_, ⟨outside, same⟩ | ⟨task, allowed, enters, said⟩⟩ := limitedStep_cases taken
  · have silent : (past ++ attempts hasher start label).filterMap Attempt.ask =
        past.filterMap Attempt.ask := by
      rw [List.filterMap_append, asks, outside]
      exact List.append_nil _
    exact ⟨silent ▸ served.replies, silent ▸ same ▸ served.after⟩
  · have one : (past ++ attempts hasher start label).filterMap Attempt.ask =
        past.filterMap Attempt.ask ++ [((task, label.2), allowed)] := by
      rw [List.filterMap_append, asks, enters]
      rfl
    obtain ⟨replies, after⟩ := @replies_snoc _ _ (logins client) initial
      ((past.filterMap Attempt.ask).map Prod.fst) task label.2
    rw [← served.after, said] at replies after
    refine ⟨?_, ?_⟩
    · rw [one, List.map_append, List.map_append, served.replies]
      exact replies.symm
    · rw [one, List.map_append]
      exact after.symm

/-- The times at which logins ask are among those of the steps. -/
theorem asked_times (client : Nat → Str) (start : Guarded) (labels : List (Label × ℚ)) :
    (((attemptsOf hasher client start labels).filterMap Attempt.ask).map
      (fun login => login.1.2)).Sublist (labels.map Prod.snd) := by
  induction labels generalizing start with
  | nil => exact List.Sublist.slnil
  | cons label rest inductionHypothesis =>
    have here : (((attempts hasher start label).filterMap Attempt.ask).map
        (fun login => login.1.2)).Sublist [label.2] := by
      rw [(attempts_split start label).1]
      cases entered hasher start.system label.1 with
      | none => exact List.nil_sublist _
      | some login => exact List.Sublist.refl _
    have later : (((((limitedStep hasher client start label).map (fun next =>
        attemptsOf hasher client next rest)).getD []).filterMap Attempt.ask).map
        (fun login => login.1.2)).Sublist (rest.map Prod.snd) := by
      cases limitedStep hasher client start label with
      | none => exact List.nil_sublist _
      | some next => exact inductionHypothesis next
    have both := here.append later
    rwa [← List.map_append, ← List.filterMap_append] at both

end

section
variable {hasher : Hasher} {client : Nat → Str} {perMinute : Int} {start : State}
  {labels : List (Label × ℚ)} {final : Guarded}

/-- What holds of the logins and of their limiter holds at the end of every run. -/
theorem run_metered (fresh : start.tasks = [])
    (ran : run (limitedStep hasher client) ⟨start, .new perMinute⟩ labels = some final) :
    let past := attemptsOf hasher client ⟨start, .new perMinute⟩ labels
    Metered past final.system ∧ Served client (.new perMinute) past final.limiter := by
  have initial : Metered [] start ∧ Served client (.new perMinute) [] (.new perMinute) := by
    refine ⟨⟨?_, nofun, nofun, List.nodup_nil⟩, rfl, rfl⟩
    intro task place standing
    rw [fresh] at standing
    nomatch standing
  have preserved : ∀ (current : Guarded) past label next,
      Metered past current.system ∧ Served client (.new perMinute) past current.limiter → True →
      limitedStep hasher client current label = some next →
      Metered (past ++ attempts hasher current label) next.system ∧
        Served client (.new perMinute) (past ++ attempts hasher current label) next.limiter := by
    rintro current past label next ⟨metered, served⟩ _ taken
    exact ⟨step_metered metered (limitedStep_cases taken).1, limitedStep_served served taken⟩
  have held := run_history (limitedStep hasher client) (attempts hasher) preserved
    (along_trivial _ _ labels) ran initial
  rwa [List.nil_append] at held

/-- The logins of a client that asked, with what the limiter said, are those that its bucket
answers. -/
theorem Served.answered {past : List Attempt} {initial limiter : RateLimiter}
    (served : Served client initial past limiter) (key : Str) :
    (logins client).answered initial ((past.filterMap Attempt.ask).map Prod.fst) key =
      (past.filterMap Attempt.ask).filter (fun login => (logins client).asks key login.1) := by
  rw [Route.answered, ← served.replies]
  congr 1
  exact (List.zip_of_prod rfl rfl).symm

end

/-- However logins interleave with each other and with everything else, every password that
is checked is that of a login that the limiter let pass before, each login has its password
checked at most once, and of the logins that a client makes in a window of time no more have
their passwords checked than the bucket of the client holds and what flows in. -/
theorem guesses_bounded (hasher : Hasher) (client : Nat → Str) {perMinute : Int}
    (positive : 1 ≤ perMinute) {start : State} (fresh : start.tasks = [])
    {labels : List (Label × ℚ)} {final : Guarded}
    (ran : run (limitedStep hasher client) ⟨start, .new perMinute⟩ labels = some final)
    (ordered : (labels.map Prod.snd).Pairwise (· ≤ ·)) {first last : ℚ} (window : first ≤ last)
    (address : Str) :
    let past := attemptsOf hasher client ⟨start, .new perMinute⟩ labels
    let checked := past.filterMap Attempt.guess
    (∀ task ∈ checked, ∃ time, .asked task time true ∈ past) ∧ checked.Nodup ∧
      (checked.countP (fun task =>
        decide (client task = address) && passedBetween first last past task) : ℚ) ≤
          perMinute + (last - first) * perMinute / 60 := by
  intro past checked
  obtain ⟨metered, served⟩ := run_metered fresh ran
  have passed : ∀ task ∈ checked, ∃ time, .asked task time true ∈ past := by
    intro task member
    obtain ⟨attempt, noted, same⟩ := List.mem_filterMap.mp member
    cases attempt with
    | asked other time allowed => nomatch same
    | guessed other =>
      obtain rfl : other = task := Option.some.inj same
      exact metered.passed other noted
  refine ⟨passed, metered.once, ?_⟩
  have times : ((((past.filterMap Attempt.ask).map Prod.fst)).map Prod.snd).Pairwise (· ≤ ·) := by
    rw [List.map_map]
    exact ordered.sublist (asked_times client _ labels)
  have bounded := @answered_bounded _ _ (logins client) _ _ positive times
    (lit "login:" ++ address) _ _ window id (fun _ _ => rfl)
  rw [served.answered] at bounded
  refine le_trans ?_ bounded
  have fewer : checked.filter (fun task =>
      decide (client task = address) && passedBetween first last past task) ⊆
      (((past.filterMap Attempt.ask).filter (fun login =>
        (logins client).asks (lit "login:" ++ address) login.1)).filter (fun login =>
          decide (first ≤ login.1.2 ∧ login.1.2 ≤ last) && id login.2)).map
        (fun login => login.1.1) := by
    intro task member
    obtain ⟨_, counted⟩ := List.mem_filter.mp member
    obtain ⟨own, between⟩ := Bool.and_eq_true_iff.mp counted
    obtain ⟨login, asked, found⟩ := List.any_eq_true.mp between
    obtain ⟨same, inside⟩ := Bool.and_eq_true_iff.mp found
    have its : login.1.1 = task := of_decide_eq_true same
    have asks : (logins client).asks (lit "login:" ++ address) login.1 = true := by
      simp [Route.asks, logins, its, of_decide_eq_true own]
    exact List.mem_map.mpr ⟨login, List.mem_filter.mpr
      ⟨List.mem_filter.mpr ⟨asked, asks⟩, inside⟩, its⟩
  have counted := (List.subperm_of_subset (metered.once.filter _) fewer).length_le
  rw [List.length_map, ← List.countP_eq_length_filter, ← List.countP_eq_length_filter] at counted
  exact_mod_cast counted

/-- Two logins from one address where the limiter lets one a minute pass. The password of
the first is checked. -/
def twoGuesses : List (Label × ℚ) :=
  [(.arrive ⟨.login true (lit "alice") (lit "guess") true, none, none⟩ 0, 0),
    (.arrive ⟨.login true (lit "alice") (lit "alice") false, none, none⟩ 0, 1),
    (.call 0 (drawn 7 (lit "token")), 2)]

/-- Of the two one password is checked. -/
theorem guesses_bounded_once :
    let past := attemptsOf plainHasher (fun _ => lit "10.0.0.1") ⟨twoUsers, .new 1⟩ twoGuesses
    past.filterMap Attempt.guess = [0] ∧
      ((past.filterMap Attempt.guess).countP (fun task =>
        decide ((fun _ => lit "10.0.0.1") task = lit "10.0.0.1") &&
          passedBetween 0 30 past task) : ℚ) ≤ (1 : Int) + (30 - 0) * (1 : Int) / 60 :=
  ⟨by decide +kernel, (guesses_bounded plainHasher (fun _ => lit "10.0.0.1") (by decide) rfl
    (Option.some_get (by decide +kernel : (run (limitedStep plainHasher (fun _ => lit "10.0.0.1"))
      ⟨twoUsers, .new 1⟩ twoGuesses).isSome = true)).symm (by decide +kernel) (by norm_num)
    (lit "10.0.0.1")).2.2⟩

end WebhookInbox.Auth
