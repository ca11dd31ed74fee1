import WebhookInbox.Api.Expiry

/-!
# The secret of an authenticated endpoint

An update is refused if it would leave an endpoint that needs a secret without one. The
check reads the endpoint, and the write that follows sets only the fields of the update.
What the check relied on may have changed in between.

`secrets_kept` says which writes of concurrent updates leave an authenticated endpoint
without a secret: those that leave a field to the stored document that no longer has what
the check read there.
-/

namespace WebhookInbox.Secrets

open Library Library.Run Calendar
open WebhookInbox.Endpoint hiding step
open WebhookInbox.Retention hiding stale

/-- The endpoint is stored with an authentication. -/
def needsSecret (doc : EndpointDoc) : Bool :=
  (doc.authentication.map (fun auth => decide (auth.type ≠ lit "none"))).getD false

/-- The endpoint is stored with a secret that is not empty. -/
def hasSecret (doc : EndpointDoc) : Bool := (doc.secret.filter (· ≠ [])).isSome

/-- No endpoint that needs a secret is without one. -/
def Authenticated (endpoints : Endpoints) : Prop :=
  ∀ doc ∈ endpoints.stored.docs, needsSecret doc = true → hasSecret doc = true

/-- What the check of an update relied on has changed since: the update sets an
authentication and leaves the secret, which is gone, or takes the secret and leaves the
authentication, which is set. -/
def outdated (changes : Changes) (read stored : EndpointDoc) : Bool :=
  match changes.authentication, changes.secret with
  | .value auth, .absent => decide (auth.type ≠ lit "none") && (hasSecret read && !hasSecret stored)
  | .absent, .null => !needsSecret read && needsSecret stored
  | .absent, .value secret => decide (secret = []) && (!needsSecret read && needsSecret stored)
  | _, _ => false

/-- The step writes an update whose check is out of date. -/
def stale (system : State) : Label → Bool
  | .write task =>
      match system.tasks task with
      | .updating document changes _ =>
          (system.endpoints.findId document.id).any (outdated changes document) &&
            (system.endpoints.updateOne document.id changes).isOk
      | _ => false
  | _ => false

/-! ## The check -/

/-- The check asks whether a secret is needed and missing. -/
theorem lacksSecret_eq {doc : EndpointDoc} {lacks : Bool} (read : lacksSecret doc = some lacks) :
    lacks = (needsSecret doc && !hasSecret doc) := by
  obtain ⟨auth, stored, rfl⟩ := Option.map_eq_some_iff.mp read
  simp only [needsSecret, hasSecret, stored, Option.map_some, Option.getD_some]
  cases doc.secret.filter (fun secret => decide (secret ≠ [])) <;> rfl

/-- An update sets the authentication or leaves it. -/
theorem needsSecret_apply (changes : Changes) (doc : EndpointDoc) :
    needsSecret (changes.apply doc) =
      match changes.authentication with
      | .absent => needsSecret doc
      | .null => false
      | .value auth => decide (auth.type ≠ lit "none") := by
  cases given : changes.authentication <;> simp [needsSecret, Changes.apply, given, Given.apply]

/-- So does it with the secret. -/
theorem hasSecret_apply (changes : Changes) (doc : EndpointDoc) :
    hasSecret (changes.apply doc) =
      match changes.secret with
      | .absent => hasSecret doc
      | .null => false
      | .value secret => decide (secret ≠ []) := by
  cases given : changes.secret with
  | absent => simp [hasSecret, Changes.apply, given, Given.apply]
  | null => simp [hasSecret, Changes.apply, given, Given.apply]
  | value secret =>
    by_cases blank : secret = [] <;>
      simp [hasSecret, Changes.apply, given, Given.apply, Option.filter, blank]

/-- After an update whose check passed, an endpoint that had what it needs is without it
exactly if the check was out of date. -/
theorem apply_sound {changes : Changes} {read stored : EndpointDoc}
    (checked : lacksSecret (changes.apply read) = some false)
    (sound : needsSecret stored = true → hasSecret stored = true) :
    (needsSecret (changes.apply stored) = true → hasSecret (changes.apply stored) = true) ↔
      outdated changes read stored = false := by
  have passed := lacksSecret_eq checked
  have given : changes.authentication ≠ .null := by
    intro null
    simp [lacksSecret, Changes.apply, null, Given.apply] at checked
  rw [needsSecret_apply, hasSecret_apply] at passed ⊢
  unfold outdated
  clear checked
  generalize needsSecret read = neededThen at passed ⊢
  generalize hasSecret read = heldThen at passed ⊢
  generalize needsSecret stored = needed at sound ⊢
  generalize hasSecret stored = held at sound ⊢
  cases authenticated : changes.authentication with
  | null => exact absurd authenticated given
  | absent =>
    rw [authenticated] at passed
    cases secret : changes.secret with
    | absent => simpa using sound
    | null =>
      rw [secret] at passed
      revert passed sound
      revert neededThen heldThen needed held
      decide
    | value given =>
      rw [secret] at passed
      by_cases blank : given = []
      · simp only [blank] at passed ⊢
        revert passed sound
        revert neededThen heldThen needed held
        decide
      · simp [blank]
  | value auth =>
    rw [authenticated] at passed
    cases secret : changes.secret with
    | absent =>
      rw [secret] at passed
      simp only at passed ⊢
      generalize decide (auth.type ≠ lit "none") = demands at passed ⊢
      revert passed sound
      revert demands neededThen heldThen needed held
      decide
    | null =>
      rw [secret] at passed
      simpa using passed
    | value given =>
      rw [secret] at passed
      simpa using passed

/-! ## The system -/

section
variable {world : Receiver.Environment} {settings : Settings} {casing : Casing} {numerals : Numerals}

/-- A request that is about to write has passed its check. -/
def Passed (task : Task) : Prop :=
  ∀ document changes saved, task = .updating document changes saved →
    lacksSecret (changes.apply document) = some false

/-- So have all requests. -/
def Checked (system : State) : Prop := ∀ task, Passed (system.tasks task)

/-- A request that is not about to write. -/
theorem passed_of_ne {task : Task}
    (other : ∀ document changes saved, task ≠ .updating document changes saved) : Passed task :=
  fun document changes saved same => absurd same (other document changes saved)

/-- An update goes on to write only if its check passes. -/
theorem checked_passed (document : EndpointDoc) (payload : EndpointUpdate) (now : Instant)
    (saved : Bool) : Passed (checked document payload now saved) := by
  rintro other changes flag same
  unfold checked at same
  split at same
  · rename_i passes
    injection same with sameDocument sameChanges _
    rw [← sameDocument, ← sameChanges]
    exact passes
  · cases same

/-- So does one of the API. -/
theorem patched_passed (endpoints : Endpoints) (id : ObjectId) (given : UpdateInput)
    (now : Instant) : Passed (patched casing endpoints id given now) := by
  unfold patched
  split
  · exact checked_passed _ _ now false
  · exact passed_of_ne (by simp)

/-- So does one of the dashboard. -/
theorem saved_passed (endpoints : Endpoints) (id : ObjectId) (form : EndpointForm)
    (now : Instant) : Passed (saved casing numerals endpoints id form now) := by
  unfold saved
  split
  · split
    · exact checked_passed _ _ now true
    · exact passed_of_ne (by simp)
  · exact passed_of_ne (by simp)

/-- What follows a write is no write. -/
theorem afterWrite_passed (document : EndpointDoc) (changes : Changes) (saved : Bool)
    (changed : Endpoints) : Passed (afterWrite document changes saved changed) := by
  unfold afterWrite
  split
  · exact passed_of_ne (by simp)
  · exact passed_of_ne (by simp)
  · exact passed_of_ne (by simp)

/-- Moving one request to a place that it may be in. -/
theorem Checked.move {system : State} (held : Checked system) (task : Nat) {place : Task}
    (passed : Passed place) : ∀ other, Passed (Function.update system.tasks task place other) :=
  (Function.forall_update_iff system.tasks (fun _ => Passed)).mpr
    ⟨passed, fun other _ => held other⟩

/-- Every step keeps the checks. -/
theorem step_checked {before after : State} {label : Label} (held : Checked before)
    (taken : step world settings casing numerals before label = some after) : Checked after := by
  cases label with
  | arrive task request =>
    simp only [step] at taken
    split at taken
    · obtain rfl := Option.some.inj taken
      exact held.move task (passed_of_ne (by simp))
    · cases taken
  | insert task fresh now =>
    simp only [step] at taken
    split at taken
    · obtain rfl := Option.some.inj taken
      exact held.move task (passed_of_ne (by simp))
    · cases taken
  | patch task target given now =>
    simp only [step] at taken
    split at taken
    · obtain rfl := Option.some.inj taken
      exact held.move task (patched_passed before.endpoints target given now)
    · cases taken
  | save task target form now =>
    simp only [step] at taken
    split at taken
    · obtain rfl := Option.some.inj taken
      exact held.move task (saved_passed before.endpoints target form now)
    · cases taken
  | write task =>
    simp only [step] at taken
    split at taken
    · rename_i document changes saved _
      split at taken
      · obtain rfl := Option.some.inj taken
        exact held.move task (passed_of_ne (by simp))
      · rename_i changed _
        obtain rfl := Option.some.inj taken
        exact held.move task (afterWrite_passed document changes saved changed)
    · cases taken
  | reapply task =>
    simp only [step] at taken
    split at taken
    · obtain rfl := Option.some.inj taken
      exact held.move task (passed_of_ne (by simp))
    · cases taken
  | sweep now =>
    obtain rfl := Option.some.inj taken
    exact held

/-- A write leaves every authenticated endpoint with a secret exactly if the check of the
endpoint that it changes is not out of date. -/
theorem updateOne_authenticated {before after : Endpoints} {document : EndpointDoc}
    {changes : Changes} (sound : Authenticated before)
    (checked : lacksSecret (changes.apply document) = some false)
    (written : before.updateOne document.id changes = .ok after) :
    Authenticated after ↔ (before.findId document.id).any (outdated changes document) = false := by
  have others : Authenticated after ↔ ∀ stored, before.findId document.id = some stored →
      needsSecret (changes.apply stored) = true → hasSecret (changes.apply stored) = true := by
    constructor
    · intro kept stored found
      have own := (Collection.find_some found).2
      refine kept _ ((Endpoints.mem_updateOne written _).mpr
        ⟨stored, (Collection.find_some found).1, ?_⟩)
      rw [if_pos own]
    · intro kept doc member
      obtain ⟨stored, storedMember, rfl⟩ := (Endpoints.mem_updateOne written doc).mp member
      by_cases own : stored.id = document.id
      · rw [if_pos own]
        exact kept stored (own ▸ Collection.find_of_mem storedMember)
      · rw [if_neg own]
        exact sound stored storedMember
  rw [others]
  cases found : before.findId document.id with
  | none => simp
  | some stored =>
    have held := apply_sound checked (sound stored (Collection.find_some found).1)
    simpa using held

/-- A step keeps every authenticated endpoint with a secret exactly if it is not the write
of an update whose check is out of date. -/
theorem step_authenticated {before after : State} {label : Label} (held : Checked before)
    (sound : Authenticated before.endpoints)
    (taken : step world settings casing numerals before label = some after) :
    Authenticated after.endpoints ↔ stale before label = false := by
  have unchanged : after.endpoints = before.endpoints → stale before label = false →
      (Authenticated after.endpoints ↔ stale before label = false) := by
    intro same fresh
    rw [same]
    exact ⟨fun _ => fresh, fun _ => sound⟩
  cases label with
  | write task =>
    simp only [step] at taken
    cases standing : before.tasks task with
    | updating document changes saved =>
      rw [standing] at taken
      simp only at taken
      cases written : before.endpoints.updateOne document.id changes with
      | error error =>
        rw [written] at taken
        obtain rfl := Option.some.inj taken
        exact unchanged rfl (by simp [stale, standing, written, Except.isOk, Except.toBool])
      | ok changed =>
        rw [written] at taken
        obtain rfl := Option.some.inj taken
        have passes := held task document changes saved standing
        simpa [stale, standing, written, Except.isOk, Except.toBool] using
          updateOne_authenticated sound passes written
    | idle => simp [standing] at taken
    | receiving request seen => simp [standing] at taken
    | reapplying endpoint => simp [standing] at taken
  | arrive task request =>
    cases step_effect taken with
    | moved _ _ _ _ _ result => exact unchanged (by rw [result]; rfl) rfl
  | insert task fresh now =>
    cases step_effect taken with
    | moved _ _ _ _ _ result => exact unchanged (by rw [result]; rfl) rfl
    | inserted _ _ _ _ _ _ result => exact unchanged (by rw [result]; rfl) rfl
  | patch task target given now =>
    cases step_effect taken with
    | moved _ _ _ _ _ result => exact unchanged (by rw [result]; rfl) rfl
  | save task target form now =>
    cases step_effect taken with
    | moved _ _ _ _ _ result => exact unchanged (by rw [result]; rfl) rfl
  | reapply task =>
    cases step_effect taken with
    | moved _ _ _ _ _ result => exact unchanged (by rw [result]; rfl) rfl
    | reapplied _ _ _ result => exact unchanged (by rw [result]; rfl) rfl
  | sweep now =>
    cases step_effect taken with
    | moved _ _ _ _ _ result => exact unchanged (by rw [result]; rfl) rfl
    | swept _ result => exact unchanged (by rw [result]) rfl

/-- A write whose check is out of date is taken. -/
theorem stale_taken {system : State} {label : Label} (outdated : stale system label = true) :
    ∃ next, step world settings casing numerals system label = some next := by
  cases label with
  | write task =>
    simp only [stale] at outdated
    split at outdated
    · rename_i document changes saved standing
      simp only [step, standing]
      split
      · exact ⟨_, rfl⟩
      · exact ⟨_, rfl⟩
    · cases outdated
  | arrive task request => cases outdated
  | insert task fresh now => cases outdated
  | patch task target given now => cases outdated
  | save task target form now => cases outdated
  | reapply task => cases outdated
  | sweep now => cases outdated

end

/-- Along every run of concurrent updates, from a state without requests in progress, every
authenticated endpoint has a secret in each state that is reached, exactly if no update is
written whose check is out of date.

Proof: by induction on the run, since a step keeps the endpoints so exactly if it is no
such write. -/
theorem secrets_kept (world : Receiver.Environment) (settings : Settings) (casing : Casing)
    (numerals : Numerals) {start : State} (idle : ∀ task, start.tasks task = .idle)
    (sound : Authenticated start.endpoints) (labels : List Label) :
    Along (step world settings casing numerals)
        (fun system label => ∀ next, step world settings casing numerals system label = some next →
          Authenticated next.endpoints) start labels ↔
      Along (step world settings casing numerals)
        (fun system label => stale system label = false) start labels := by
  apply along_congr (step world settings casing numerals)
    (fun system => Checked system ∧ Authenticated system.endpoints)
  · rintro system label ⟨held, kept⟩
    constructor
    · intro safe
      by_contra outdated
      have late := Bool.not_eq_false _ ▸ outdated
      obtain ⟨next, taken⟩ := stale_taken late
      exact outdated ((step_authenticated held kept taken).mp (safe next taken))
    · intro current next taken
      exact (step_authenticated held kept taken).mpr current
  · rintro system label next ⟨held, kept⟩ safe taken
    exact ⟨step_checked held taken, safe next taken⟩
  · refine ⟨fun task => ?_, sound⟩
    rw [idle task]
    exact passed_of_ne (by simp)

/-- An endpoint that has a secret and does not ask for it. -/
def openHub : State :=
  ⟨(createEndpoint Casing.ascii Endpoints.empty githubId
    { name := lit "GitHub", path := lit "github", secret := some (lit "s3cret") } 0).1, [],
    fun _ => .idle⟩

/-- Every endpoint of the start has a secret. -/
theorem openHub_authenticated : Authenticated openHub.endpoints := by
  have held : ∀ doc ∈ openHub.endpoints.stored.docs, hasSecret doc = true := by decide +kernel
  exact fun doc member _ => held doc member

/-- The update that asks for the secret. -/
def closing : Label := .patch 0 githubId { authentication := .value { type := .staticSecret } } 0

/-- The update that takes the secret away. -/
def clearing : Label := .patch 1 githubId { secret := .null } 0

/-- One after the other, the second update is refused. -/
theorem secrets_kept_inTurn :
    Along (step Receiver.plainWorld {} Casing.ascii Numerals.ascii)
      (fun system label => ∀ next, step Receiver.plainWorld {} Casing.ascii Numerals.ascii system
        label = some next → Authenticated next.endpoints)
      openHub [closing, .write 0, clearing, .write 1] :=
  (secrets_kept Receiver.plainWorld {} Casing.ascii Numerals.ascii (fun _ => rfl)
    openHub_authenticated _).mpr (by decide +kernel)

/-- Both updates read the endpoint before either is written. -/
def raced : Option State :=
  run (step Receiver.plainWorld {} Casing.ascii Numerals.ascii) openHub
    [closing, clearing, .write 0, .write 1]

/-- The state after both are written. -/
def racedHub : State := raced.get (by decide +kernel)

/-- Two updates that each pass the check together leave an authenticated endpoint without a
secret. -/
theorem secrets_lost :
    ¬ ∀ (world : Receiver.Environment) (settings : Settings) (casing : Casing)
      (numerals : Numerals) (start final : State) (labels : List Label),
      (∀ task, start.tasks task = .idle) → Authenticated start.endpoints →
      run (step world settings casing numerals) start labels = some final →
      Authenticated final.endpoints := by
  intro claimed
  have ran : raced = some racedHub := (Option.some_get _).symm
  have kept := claimed Receiver.plainWorld {} Casing.ascii Numerals.ascii openHub racedHub _
    (fun _ => rfl) openHub_authenticated ran
  have lost : ∃ doc ∈ racedHub.endpoints.stored.docs,
      needsSecret doc = true ∧ hasSecret doc = false := by decide +kernel
  obtain ⟨doc, member, needed, missing⟩ := lost
  exact absurd (kept doc member needed) (by simp [missing])

end WebhookInbox.Secrets
