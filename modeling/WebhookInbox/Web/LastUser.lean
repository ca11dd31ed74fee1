import WebhookInbox.Web.Sessions

/-!
# The last user

A user is deleted after the users were counted, and nobody deletes the own account. The
guard is not repeated by the deletion.

`users_remain` says which steps of concurrent requests leave no user: the deletions whose
guard would no longer pass.
-/

namespace WebhookInbox.Auth

open Library Library.Run Calendar

/-- The step deletes a user who is by now the only one. -/
def deletesLast (system : State) : Label → Bool
  | .call task _ =>
      match system.tasks[task]? with
      | some (.deleting userId) =>
          decide (system.users.count ≤ 1) && (system.users.find userId).isSome
      | _ => false
  | _ => false

/-- What a step does to the users. -/
inductive UsersEffect (before after : State) (label : Label) : Prop where
  | kept (count : after.users.count = before.users.count)
      (guarded : deletesLast before label = false)
  | inserted (user : User) (grown : before.users.insert user = some after.users)
      (guarded : deletesLast before label = false)
  | deleted (userId : ObjectId) (shrunk : after.users = before.users.deleteOne userId)
      (guarded : deletesLast before label =
        (decide (before.users.count ≤ 1) && (before.users.find userId).isSome))

section
variable {hasher : Hasher}

/-- A call other than a deletion deletes nobody. -/
theorem deletesLast_other {system : State} {task : Nat} (draw : Draw)
    (other : ∀ userId, system.tasks[task]? ≠ some (.deleting userId)) :
    deletesLast system (.call task draw) = false := by
  -- the equation of the last branch has `other` as its condition
  simp only [deletesLast]

/-- It leaves the number of users, or inserts one. -/
theorem call_users {before after : State} {task : Nat} {draw : Draw}
    (taken : call hasher before task draw = some after)
    (other : ∀ userId, before.tasks[task]? ≠ some (.deleting userId)) :
    after.users.count = before.users.count ∨
      ∃ user, before.users.insert user = some after.users := by
  cases standing : before.tasks[task]? with
  | none => simp [call, standing] at taken
  | some place =>
    simp only [call, standing] at taken
    cases place with
    | answered reply => cases taken
    | expiring session request =>
      obtain rfl := Option.some.inj taken
      exact .inl rfl
    | resolving session request =>
      obtain rfl := Option.some.inj taken
      exact .inl rfl
    | authenticating api username password =>
      obtain rfl := Option.some.inj taken
      exact .inl rfl
    | granting api userId verified =>
      simp only at taken
      split at taken
      · obtain rfl := Option.some.inj taken
        exact .inl rfl
      · obtain rfl := Option.some.inj taken
        exact .inl rfl
    | signingOut api tokenHash =>
      obtain rfl := Option.some.inj taken
      exact .inl rfl
    | changing userId newPassword =>
      simp only at taken
      split at taken
      · obtain rfl := Option.some.inj taken
        exact .inl rfl
      · rename_i hash hashed
        obtain rfl := Option.some.inj taken
        exact .inl (IndexedCollection.count_updateOne before.users userId
          (User.setPassword hash draw.now) (fun _ => rfl) (fun _ => rfl))
    | revoking userId written =>
      obtain rfl := Option.some.inj taken
      exact .inl rfl
    | creating username password =>
      simp only at taken
      split at taken
      · obtain rfl := Option.some.inj taken
        exact .inl rfl
      · split at taken
        · obtain rfl := Option.some.inj taken
          exact .inl rfl
        · rename_i grown inserted
          obtain rfl := Option.some.inj taken
          exact .inr ⟨_, inserted⟩
    | counting userId =>
      simp only at taken
      split at taken
      · obtain rfl := Option.some.inj taken
        exact .inl rfl
      · obtain rfl := Option.some.inj taken
        exact .inl rfl
    | deleting userId => exact absurd standing (other userId)
    | purging userId =>
      obtain rfl := Option.some.inj taken
      exact .inl rfl

/-- Every step has one of these effects. -/
theorem users_effect {before after : State} {label : Label}
    (taken : step hasher before label = some after) : UsersEffect before after label := by
  cases label with
  | arrive request now =>
    obtain rfl := Option.some.inj taken
    exact .kept rfl rfl
  | sweep now =>
    obtain rfl := Option.some.inj taken
    exact .kept rfl rfl
  | call task draw =>
    by_cases deletion : ∃ userId, before.tasks[task]? = some (.deleting userId)
    · obtain ⟨userId, standing⟩ := deletion
      simp only [step, call, standing] at taken
      obtain rfl := Option.some.inj taken
      exact .deleted userId rfl (by simp only [deletesLast, standing])
    · have other := not_exists.mp deletion
      have guarded := deletesLast_other draw other
      rcases call_users taken other with count | ⟨user, grown⟩
      · exact .kept count guarded
      · exact .inserted user grown guarded

/-- A deletion is always taken. -/
theorem deletesLast_taken {system : State} {label : Label}
    (stuck : step hasher system label = none) : deletesLast system label = false := by
  cases label with
  | arrive request now => rfl
  | sweep now => rfl
  | call task draw =>
    simp only [deletesLast]
    split
    · rename_i userId standing
      simp only [step, call] at stuck
      rw [standing] at stuck
      cases stuck
    · rfl

/-- A deletion leaves a user exactly if it does not find its user alone. -/
theorem count_deleteOne {users : Users} (userId : ObjectId) (present : 0 < users.count) :
    0 < (users.deleteOne userId).count ↔
      (decide (users.count ≤ 1) && (users.find userId).isSome) = false := by
  have removed := IndexedCollection.count_deleteOne users userId
  cases found : (users.find userId).isSome with
  | false =>
    rw [found, if_neg (by decide)] at removed
    rw [Bool.and_false]
    exact ⟨fun _ => rfl, fun _ => by omega⟩
  | true =>
    rw [found, if_pos rfl] at removed
    rw [Bool.and_true, decide_eq_false_iff_not]
    omega

/-- A step leaves a user exactly if it does not delete the last one. -/
theorem step_users {before after : State} {label : Label} (present : 0 < before.users.count)
    (taken : step hasher before label = some after) :
    0 < after.users.count ↔ deletesLast before label = false := by
  cases users_effect taken with
  | kept count guarded =>
    rw [count]
    exact ⟨fun _ => guarded, fun _ => present⟩
  | inserted user grown guarded =>
    refine ⟨fun _ => guarded, fun _ => ?_⟩
    exact List.length_pos_of_mem ((IndexedCollection.mem_insert grown user).mpr (.inr rfl))
  | deleted userId shrunk guarded =>
    rw [shrunk, guarded]
    exact count_deleteOne userId present

end

/-- Along every run of concurrent requests, from a state with a user: there is a user in each
state that is reached, exactly if no step deletes a user who is by then the only one.

Proof: by induction on the run, since a step leaves a user exactly if it is no such
deletion. -/
theorem users_remain (hasher : Hasher) {start : State} (present : 0 < start.users.count)
    (labels : List Label) :
    Along (step hasher)
        (fun system label => ∀ next, step hasher system label = some next → 0 < next.users.count)
        start labels ↔
      Along (step hasher) (fun system label => deletesLast system label = false) start labels := by
  apply along_congr (step hasher) (fun system => 0 < system.users.count)
  · intro system label held
    constructor
    · intro safe
      cases taken : step hasher system label with
      | some next => exact (step_users held taken).mp (safe next taken)
      | none => exact deletesLast_taken taken
    · intro guarded next taken
      exact (step_users held taken).mpr guarded
  · intro system label next _ safe taken
    exact safe next taken
  · exact present

/-- Both users sign in. -/
def bothSignedIn : List Label :=
  loginSteps 0 10 (lit "alice") (lit "alice") (lit "s0") ++ loginSteps 1 11 (lit "bob") (lit "bob") (lit "s1")

/-- The deletion of a user with the session of another one. -/
def deletion (token : Str) (userId : ObjectId) : Label :=
  .arrive (signed token (.deleteUser (some userId))) 0

/-- The next call of a request that draws nothing. -/
def next (task : Nat) : Label := .call task (drawn 0 [])

/-- One user deletes the other, whose own request then finds no session. -/
theorem users_remain_inTurn :
    Along (step plainHasher)
      (fun system label => ∀ next, step plainHasher system label = some next → 0 < next.users.count)
      twoUsers
      (bothSignedIn ++ [deletion (lit "s0") ⟨2⟩, next 2, next 2, next 2, next 2,
        deletion (lit "s1") ⟨1⟩]) :=
  (users_remain plainHasher (by decide +kernel) _).mpr (by decide +kernel)

/-- Both requests count two users before either deletes one. -/
def eachOther : Option State :=
  run (step plainHasher) twoUsers (bothSignedIn ++
    [deletion (lit "s0") ⟨2⟩, deletion (lit "s1") ⟨1⟩, next 2, next 3, next 2, next 3, next 2,
      next 3])

/-- The state after two users deleted each other. -/
def emptied : State := eachOther.get (by decide +kernel)

/-- Two users who delete each other at the same time leave none. -/
theorem users_run_out :
    ¬ ∀ (hasher : Hasher) (start final : State) (labels : List Label), 0 < start.users.count →
      run (step hasher) start labels = some final → 0 < final.users.count := by
  intro claimed
  have ran : eachOther = some emptied := (Option.some_get _).symm
  exact absurd (claimed plainHasher twoUsers emptied _ (by decide +kernel) ran) (by decide +kernel)

end WebhookInbox.Auth
