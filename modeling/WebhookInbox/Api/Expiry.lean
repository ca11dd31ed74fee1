import WebhookInbox.Api.Endpoints
import WebhookInbox.Retention

/-!
# Expiries under concurrent requests

Deliveries and updates of endpoints run side by side. Every call on the database is a
step of its own: a delivery reads its endpoint and inserts its event later, an update
reads the endpoint, writes it, and rewrites the expiries of its events in a third call.

The invariant is that the expiries of an endpoint are right, or a rewriting with its
present retention is still to come. It is kept by every step that does not work from a
retention that has been replaced.
-/

namespace WebhookInbox.Retention

open Library Library.Run Calendar WebhookInbox.Endpoint WebhookInbox.Receiver

/-- Where a request stands. -/
inductive Task where
  | idle
  | receiving (request : Receiver.Request) (seen : Endpoints)
  | updating (document : EndpointDoc) (changes : Changes) (saved : Bool)
  | reapplying (endpoint : EndpointDoc)

/-- The collections, and the requests in progress. -/
structure State where
  endpoints : Endpoints
  events : List Event
  tasks : Nat → Task

/-- The database calls of the requests, and the sweep of the TTL index. -/
inductive Label where
  | arrive (task : Nat) (request : Receiver.Request)
  | insert (task : Nat) (id : ObjectId) (now : Instant)
  | patch (task : Nat) (id : ObjectId) (given : UpdateInput) (now : Instant)
  | save (task : Nat) (id : ObjectId) (form : EndpointForm) (now : Instant)
  | write (task : Nat)
  | reapply (task : Nat)
  | sweep (now : Millis)

/-- Move one request. -/
def State.move (system : State) (task : Nat) (place : Task) : State :=
  { system with tasks := Function.update system.tasks task place }

section
variable (world : Environment) (settings : Settings) (casing : Casing) (numerals : Numerals)

/-- An update after its checks: it goes on to write, or has been answered. -/
def checked (document : EndpointDoc) (payload : EndpointUpdate) (now : Instant) (saved : Bool) :
    Task :=
  match lacksSecret ((payload.toChanges now).apply document) with
  | some false => .updating document (payload.toChanges now) saved
  | _ => .idle

/-- `update_endpoint` up to its write. -/
def patched (endpoints : Endpoints) (id : ObjectId) (given : UpdateInput) (now : Instant) : Task :=
  match EndpointUpdate.validate casing given, endpoints.findId id with
  | .ok payload, some document => checked document payload now false
  | _, _ => .idle

/-- `endpoint_save` up to its write. -/
def saved (endpoints : Endpoints) (id : ObjectId) (form : EndpointForm) (now : Instant) : Task :=
  match endpoints.findId id, parseEndpointForm numerals form with
  | some document, .ok fields =>
      match EndpointUpdate.validate casing fields.toUpdate with
      | .ok payload => checked document payload now true
      | .error _ => .idle
  | _, _ => .idle

/-- What follows the write of an update. The API goes on with the document that the write
returned, the dashboard with the one that it read, merged with its changes. Neither
rewrites events unless the retention was among the changes. -/
def afterWrite (document : EndpointDoc) (changes : Changes) (saved : Bool)
    (changed : Endpoints) : Task :=
  match changes.retentionDays, if saved then some (changes.apply document)
      else changed.findId document.id with
  | .absent, _ => .idle
  | _, some endpoint => .reapplying endpoint
  | _, none => .idle

/-- The events after the insertion of a delivery, if it comes to one. -/
def received (system : State) (request : Receiver.Request) (seen : Endpoints) (id : ObjectId)
    (now : Instant) : List Event :=
  match receive world settings seen request now with
  | .inserted doc =>
      if Storable doc ∧ id ∉ system.events.map Event.id then system.events ++ [storedEvent id doc]
      else system.events
  | _ => system.events

/-- One step. -/
def step (system : State) : Label → Option State
  | .arrive task request =>
      match system.tasks task with
      | .idle => some (system.move task (.receiving request system.endpoints))
      | _ => none
  | .insert task id now =>
      match system.tasks task with
      | .receiving request seen =>
          some { system.move task .idle with
            events := received world settings system request seen id now }
      | _ => none
  | .patch task id given now =>
      match system.tasks task with
      | .idle => some (system.move task (patched casing system.endpoints id given now))
      | _ => none
  | .save task id form now =>
      match system.tasks task with
      | .idle => some (system.move task (saved casing numerals system.endpoints id form now))
      | _ => none
  | .write task =>
      match system.tasks task with
      | .updating document changes saved =>
          match system.endpoints.updateOne document.id changes with
          | .error _ => some (system.move task .idle)
          | .ok changed =>
              some { system.move task (afterWrite document changes saved changed) with
                endpoints := changed }
      | _ => none
  | .reapply task =>
      match system.tasks task with
      | .reapplying endpoint =>
          some { system.move task .idle with
            events := (Retention.reapply system.events endpoint settings.retention).1 }
      | _ => none
  | .sweep now =>
      some { system with
        events := system.events.filter (fun event =>
          event.expiresAt.all (fun expiry => decide (now ≤ expiry))) }

end

/-! ## The requests on their own -/

/-- The collection that the write of a request leaves. -/
def Task.written (endpoints : Endpoints) : Task → Endpoints
  | .updating document changes _ =>
      match endpoints.updateOne document.id changes with
      | .error _ => endpoints
      | .ok changed => changed
  | _ => endpoints

/-- Without interference an update of the API leaves what the route leaves. -/
theorem patched_written (casing : Casing) (endpoints : Endpoints) (id : ObjectId)
    (given : UpdateInput) (now : Instant) :
    (patched casing endpoints id given now).written endpoints =
      (updateEndpoint casing endpoints id given now).1 := by
  unfold patched updateEndpoint
  cases EndpointUpdate.validate casing given with
  | error errors => rfl
  | ok payload =>
    cases endpoints.findId id with
    | none => rfl
    | some document =>
      simp only [checked]
      cases lacksSecret ((payload.toChanges now).apply document) with
      | none => rfl
      | some lacks =>
        cases lacks with
        | true => rfl
        | false =>
          simp only [Task.written]
          cases endpoints.updateOne document.id (payload.toChanges now) with
          | ok changed => rfl
          | error error => cases error <;> rfl

/-- So does an update of the dashboard. -/
theorem saved_written (casing : Casing) (numerals : Numerals) (endpoints : Endpoints)
    (id : ObjectId) (form : EndpointForm) (now : Instant) :
    (saved casing numerals endpoints id form now).written endpoints =
      (endpointSave casing numerals endpoints id form now).1 := by
  unfold saved endpointSave
  cases endpoints.findId id with
  | none => rfl
  | some document =>
    cases parseEndpointForm numerals form with
    | error error => rfl
    | ok fields =>
      simp only
      cases EndpointUpdate.validate casing fields.toUpdate with
      | error errors => rfl
      | ok payload =>
        simp only [checked]
        cases lacksSecret ((payload.toChanges now).apply document) with
        | none => rfl
        | some lacks =>
          cases lacks with
          | true => rfl
          | false =>
            simp only [Task.written]
            cases endpoints.updateOne document.id (payload.toChanges now) with
            | ok changed => rfl
            | error error => cases error <;> rfl

/-! ## Right expiries -/

section
variable (settings : Settings)

/-- The days after which the events of an endpoint expire at present. -/
def daysFor (endpoints : Endpoints) (id : ObjectId) : Option Int :=
  (endpoints.findId id).bind (fun endpoint => retentionDays endpoint settings.retention)

/-- Every stored event of the endpoint expires that many days after its arrival. -/
def Right (id : ObjectId) (system : State) : Prop :=
  ∀ event ∈ system.events, event.endpointId = id → ∀ days ∈ daysFor settings system.endpoints id,
    event.expiresAt = some (event.receivedAt + days * 86400000)

/-- The request is about to rewrite the events of the endpoint with its present retention. -/
def Pending (id : ObjectId) (system : State) (task : Nat) : Prop :=
  ∃ endpoint, system.tasks task = .reapplying endpoint ∧ endpoint.id = id ∧
    retentionDays endpoint settings.retention = daysFor settings system.endpoints id

/-- The expiries are right, or will be set right by a request in progress. -/
def Converging (id : ObjectId) (system : State) : Prop :=
  Right settings id system ∨ ∃ task, Pending settings id system task

/-- The step inserts an event whose retention has been replaced since it was read, or
rewrites the events with one that has been replaced, or does not get to their end. -/
def stale (world : Environment) (id : ObjectId) (system : State) : Label → Bool
  | .insert task _ now =>
      match system.tasks task with
      | .receiving request seen =>
          match receive world settings seen request now with
          | .inserted doc =>
              decide (doc.endpointId = id) &&
                decide (daysFor settings seen id ≠ daysFor settings system.endpoints id)
          | _ => false
      | _ => false
  | .reapply task =>
      match system.tasks task with
      | .reapplying endpoint =>
          decide (endpoint.id = id) &&
            !(decide (retentionDays endpoint settings.retention =
                daysFor settings system.endpoints id) &&
              (Retention.reapply system.events endpoint settings.retention).2)
      | _ => false
  | _ => false

/-- The request that takes the step. -/
def Label.task : Label → Option Nat
  | .arrive task _ | .insert task _ _ | .patch task _ _ _ | .save task _ _ _ | .write task
  | .reapply task => some task
  | .sweep _ => none

/-- A stale step is followed by a rewriting with the present retention. -/
def Repaired (world : Environment) (id : ObjectId) (system : State) (label : Label) : Prop :=
  stale settings world id system label = true →
    ∃ other, some other ≠ label.task ∧ Pending settings id system other

end

/-! ## What a step does -/

/-- What a step does: a request that rewrites nothing moves on, or it inserts, writes or
rewrites, or the sweep removes events. -/
inductive StepEffect (world : Environment) (settings : Settings) (before after : State) :
    Label → Prop where
  | moved (label : Label) (task : Nat) (place : Task) (mover : label.task = some task)
      (standing : ∀ endpoint, before.tasks task ≠ .reapplying endpoint)
      (result : after = before.move task place) : StepEffect world settings before after label
  | inserted (task : Nat) (id : ObjectId) (now : Instant) (request : Receiver.Request)
      (seen : Endpoints) (standing : before.tasks task = .receiving request seen)
      (result : after = { before.move task .idle with
        events := received world settings before request seen id now }) :
      StepEffect world settings before after (.insert task id now)
  | written (task : Nat) (document : EndpointDoc) (changes : Changes) (saved : Bool)
      (changed : Endpoints) (standing : before.tasks task = .updating document changes saved)
      (written : before.endpoints.updateOne document.id changes = .ok changed)
      (result : after = { before.move task (afterWrite document changes saved changed) with
        endpoints := changed }) :
      StepEffect world settings before after (.write task)
  | reapplied (task : Nat) (endpoint : EndpointDoc)
      (standing : before.tasks task = .reapplying endpoint)
      (result : after = { before.move task .idle with
        events := (Retention.reapply before.events endpoint settings.retention).1 }) :
      StepEffect world settings before after (.reapply task)
  | swept (now : Millis)
      (result : after = { before with
        events := before.events.filter (fun event =>
          event.expiresAt.all (fun expiry => decide (now ≤ expiry))) }) :
      StepEffect world settings before after (.sweep now)

/-- Every step has one of these effects. -/
theorem step_effect {world : Environment} {settings : Settings} {casing : Casing}
    {numerals : Numerals} {before after : State} {label : Label}
    (taken : step world settings casing numerals before label = some after) :
    StepEffect world settings before after label := by
  have idle : ∀ task, before.tasks task = .idle →
      ∀ endpoint, before.tasks task ≠ .reapplying endpoint := by
    intro task standing endpoint
    rw [standing]
    exact nofun
  cases label with
  | arrive task request =>
    simp only [step] at taken
    split at taken
    · rename_i standing
      exact .moved _ task _ rfl (idle task standing) (Option.some.inj taken).symm
    · cases taken
  | insert task fresh now =>
    simp only [step] at taken
    split at taken
    · rename_i request seen standing
      exact .inserted task fresh now request seen standing (Option.some.inj taken).symm
    · cases taken
  | patch task target given now =>
    simp only [step] at taken
    split at taken
    · rename_i standing
      exact .moved _ task _ rfl (idle task standing) (Option.some.inj taken).symm
    · cases taken
  | save task target form now =>
    simp only [step] at taken
    split at taken
    · rename_i standing
      exact .moved _ task _ rfl (idle task standing) (Option.some.inj taken).symm
    · cases taken
  | write task =>
    simp only [step] at taken
    split at taken
    · rename_i document changes saved standing
      have updating : ∀ endpoint, before.tasks task ≠ .reapplying endpoint := by
        intro endpoint
        rw [standing]
        exact nofun
      split at taken
      · exact .moved _ task _ rfl updating (Option.some.inj taken).symm
      · rename_i changed written
        exact .written task document changes saved changed standing written
          (Option.some.inj taken).symm
    · cases taken
  | reapply task =>
    simp only [step] at taken
    split at taken
    · rename_i endpoint standing
      exact .reapplied task endpoint standing (Option.some.inj taken).symm
    · cases taken
  | sweep now => exact .swept now (Option.some.inj taken).symm

/-! ## What a rewriting leaves -/

/-- A rewriting touches only the events of its endpoint. -/
theorem mem_reapplyAll {endpointId : ObjectId} {days : Option Int} {events : List Event}
    {event : Event} (member : event ∈ (reapplyAll endpointId days events).1)
    (other : event.endpointId ≠ endpointId) : event ∈ events := by
  induction events with
  | nil => exact member
  | cons first rest inductionHypothesis =>
    unfold reapplyAll at member
    split at member
    · rename_i owner
      cases rewritten : reapplied days first with
      | none =>
        rw [rewritten] at member
        exact member
      | some changed =>
        rw [rewritten] at member
        cases List.mem_cons.mp member with
        | inl same =>
          have kept : changed.endpointId = first.endpointId := by
            cases days with
            | none =>
              obtain rfl := Option.some.inj rewritten
              rfl
            | some count =>
              obtain ⟨expiry, _, rfl⟩ := Option.map_eq_some_iff.mp rewritten
              rfl
          exact absurd (by rw [same, kept, owner]) other
        | inr later => exact List.mem_cons_of_mem _ (inductionHypothesis later)
    · cases List.mem_cons.mp member with
      | inl same => exact same ▸ List.mem_cons_self
      | inr later => exact List.mem_cons_of_mem _ (inductionHypothesis later)

/-- A rewriting that gets to the end leaves every event of its endpoint with the expiry
that it computes. -/
theorem reapplyAll_right {endpointId : ObjectId} {days : Int} {events : List Event}
    (completed : (reapplyAll endpointId (some days) events).2 = true) {event : Event}
    (member : event ∈ (reapplyAll endpointId (some days) events).1)
    (owner : event.endpointId = endpointId) :
    event.expiresAt = some (event.receivedAt + days * 86400000) := by
  induction events with
  | nil => cases member
  | cons first rest inductionHypothesis =>
    unfold reapplyAll at completed member
    split at member
    · rename_i mine
      rw [if_pos mine] at completed
      cases rewritten : reapplied (some days) first with
      | none =>
        rw [rewritten] at completed
        cases completed
      | some changed =>
        rw [rewritten] at completed member
        cases List.mem_cons.mp member with
        | inl same =>
          obtain ⟨expiry, added, rfl⟩ := Option.map_eq_some_iff.mp rewritten
          rw [same, dateAddDays_eq added]
        | inr later => exact inductionHypothesis completed later
    · rename_i foreign
      rw [if_neg foreign] at completed
      cases List.mem_cons.mp member with
      | inl same => exact absurd (same ▸ owner) foreign
      | inr later => exact inductionHypothesis completed later

/-! ## What an insertion adds -/

section
variable {world : Environment} {settings : Settings} {casing : Casing} {numerals : Numerals}

/-- With retention on and a default that is not zero, the number of days is not zero. -/
theorem retentionDays_some (enabled : settings.retention.enabled = true)
    (positive : 0 < settings.retention.defaultDays) (endpoint : EndpointDoc) :
    ∃ days, retentionDays endpoint settings.retention = some days ∧ days ≠ 0 := by
  cases computed : retentionDays endpoint settings.retention with
  | none => simp [retentionDays, enabled] at computed
  | some days =>
    refine ⟨days, rfl, ?_⟩
    rintro rfl
    have zero := ((retentionDays_zero endpoint settings.retention).mp computed).2.2
    omega

/-- An event that was accepted expires as its endpoint said when it was read. -/
theorem receive_right (enabled : settings.retention.enabled = true)
    (positive : 0 < settings.retention.defaultDays) {seen : Endpoints}
    {request : Receiver.Request} {now : Instant} {doc : EventDoc}
    (accepted : receive world settings seen request now = .inserted doc) (id : ObjectId) :
    ∃ days, daysFor settings seen doc.endpointId = some days ∧
      (storedEvent id doc).expiresAt =
        some ((storedEvent id doc).receivedAt + days * 86400000) := by
  obtain ⟨endpoint, methods, served, _⟩ := receive_inserted accepted
  obtain ⟨owner, received, computed⟩ := receive_expiry accepted served
  obtain ⟨days, effective, nonzero⟩ := retentionDays_some enabled positive endpoint
  have kept : (some days).filter (fun days => decide (days ≠ 0)) = some days := by
    simp [Option.filter, nonzero]
  rw [expiresAt, effective, kept] at computed
  obtain ⟨expiry, added, present⟩ := Option.map_eq_some_iff.mp computed
  refine ⟨days, ?_, ?_⟩
  · rw [daysFor, owner, Endpoints.findId_of_findPath served, Option.bind_some, effective]
  · have moved := dateAddDays_eq (dateAddDays_toMillis added)
    simp only [storedEvent, ← present, received, Option.map_some, moved]

/-! ## The invariant -/

/-- A request that is not about to rewrite may move without loss. -/
theorem Pending.kept {id : ObjectId} {before after : State} {task other : Nat}
    (pending : Pending settings id before other) (different : other ≠ task)
    (endpoints : daysFor settings after.endpoints id = daysFor settings before.endpoints id)
    (tasks : ∀ place, place ≠ task → after.tasks place = before.tasks place) :
    Pending settings id after other := by
  obtain ⟨endpoint, standing, owner, present⟩ := pending
  exact ⟨endpoint, by rw [tasks other different, standing], owner, by rw [present, endpoints]⟩

/-- A pending request is the one in its place. -/
theorem Pending.not_of_task {id : ObjectId} {system : State} {task other : Nat}
    (pending : Pending settings id system other)
    (standing : ∀ endpoint, system.tasks task ≠ .reapplying endpoint) : other ≠ task := by
  rintro rfl
  obtain ⟨endpoint, place, _⟩ := pending
  exact standing endpoint place

/-- A step that changes neither the retention nor an event, and moves a request that is
not about to rewrite, keeps the invariant. -/
theorem Converging.kept {id : ObjectId} {before after : State} {task : Nat}
    (converging : Converging settings id before)
    (events : ∀ event ∈ after.events, event ∈ before.events)
    (endpoints : daysFor settings after.endpoints id = daysFor settings before.endpoints id)
    (standing : ∀ endpoint, before.tasks task ≠ .reapplying endpoint)
    (tasks : ∀ place, place ≠ task → after.tasks place = before.tasks place) :
    Converging settings id after := by
  cases converging with
  | inl right =>
    refine .inl (fun event member owner days present => ?_)
    rw [endpoints] at present
    exact right event (events event member) owner days present
  | inr pending =>
    obtain ⟨other, pending⟩ := pending
    exact .inr ⟨other, pending.kept (pending.not_of_task standing) endpoints tasks⟩

/-- An update that leaves the retention alone does not change any number of days. -/
theorem daysFor_updateOne_absent {endpoints changed : Endpoints} {target : ObjectId}
    {changes : Changes} (written : endpoints.updateOne target changes = .ok changed)
    (absent : changes.retentionDays = .absent) (id : ObjectId) :
    daysFor settings changed id = daysFor settings endpoints id := by
  unfold daysFor
  rw [Endpoints.findId_updateOne written]
  split
  · cases endpoints.findId id with
    | none => rfl
    | some document => simp [retentionDays, Changes.apply, absent, Given.apply]
  · rfl

/-- An update of another endpoint does not change the number of days. -/
theorem daysFor_updateOne_other {endpoints changed : Endpoints} {target id : ObjectId}
    {changes : Changes} (written : endpoints.updateOne target changes = .ok changed)
    (different : id ≠ target) :
    daysFor settings changed id = daysFor settings endpoints id := by
  rw [daysFor, daysFor, Endpoints.findId_updateOne written, if_neg different]

/-- A retention that was given counts, whatever document the changes are merged into. -/
theorem retentionDays_apply (settings : Settings) {changes : Changes}
    (given : changes.retentionDays ≠ .absent) (first second : EndpointDoc) :
    retentionDays (changes.apply first) settings.retention =
      retentionDays (changes.apply second) settings.retention := by
  have same : (changes.apply first).retentionDays = (changes.apply second).retentionDays := by
    cases field : changes.retentionDays with
    | absent => exact absurd field given
    | null => simp [Changes.apply, field, Given.apply]
    | value days => simp [Changes.apply, field, Given.apply]
  rw [retentionDays, retentionDays, same]

/-- After a write that gives the retention, the request goes on to rewrite the events with
exactly that retention, unless the endpoint is gone. -/
theorem afterWrite_pending (settings : Settings) {endpoints changed : Endpoints} {document : EndpointDoc}
    {changes : Changes} (saved : Bool)
    (written : endpoints.updateOne document.id changes = .ok changed)
    (given : changes.retentionDays ≠ .absent) :
    daysFor settings changed document.id = none ∨
      ∃ endpoint, afterWrite document changes saved changed = .reapplying endpoint ∧
        endpoint.id = document.id ∧
        retentionDays endpoint settings.retention = daysFor settings changed document.id := by
  have stored := Endpoints.findId_updateOne written document.id
  rw [if_pos rfl] at stored
  cases found : endpoints.findId document.id with
  | none =>
    rw [found, Option.map_none] at stored
    exact .inl (by rw [daysFor, stored, Option.bind_none])
  | some current =>
    rw [found, Option.map_some] at stored
    have key : current.id = document.id := (Collection.find_some found).2
    refine .inr ⟨if saved then changes.apply document else changes.apply current, ?_, ?_, ?_⟩
    · unfold afterWrite
      rw [stored]
      cases saved with
      | true =>
        cases field : changes.retentionDays with
        | absent => exact absurd field given
        | null => rfl
        | value days => rfl
      | false =>
        cases field : changes.retentionDays with
        | absent => exact absurd field given
        | null => rfl
        | value days => rfl
    · cases saved with
      | true => rfl
      | false => exact key
    · rw [daysFor, stored, Option.bind_some]
      cases saved with
      | true => exact retentionDays_apply settings given document current
      | false => rfl

/-- A write keeps the invariant: what it makes out of date it also goes on to rewrite. -/
theorem write_converging {id : ObjectId} {before : State} {task : Nat} {document : EndpointDoc}
    {changes : Changes} {saved : Bool} {changed : Endpoints}
    (converging : Converging settings id before)
    (standing : before.tasks task = .updating document changes saved)
    (written : before.endpoints.updateOne document.id changes = .ok changed) :
    Converging settings id
      { before.move task (afterWrite document changes saved changed) with endpoints := changed } := by
  have writing : ∀ endpoint, before.tasks task ≠ .reapplying endpoint := by
    intro endpoint
    rw [standing]
    exact nofun
  have others : ∀ place, place ≠ task →
      Function.update before.tasks task (afterWrite document changes saved changed) place =
        before.tasks place := fun place different => Function.update_of_ne different _ _
  by_cases given : changes.retentionDays = .absent
  · exact converging.kept (fun event member => member)
      (daysFor_updateOne_absent written given id) writing others
  · by_cases same : id = document.id
    · subst same
      cases afterWrite_pending settings saved written given with
      | inl gone =>
        refine .inl (fun event _ _ days present => ?_)
        simp only [gone] at present
        cases present
      | inr goes =>
        obtain ⟨endpoint, place, owner, present⟩ := goes
        exact .inr ⟨task, endpoint, by simpa [State.move] using place, owner, present⟩
    · exact converging.kept (fun event member => member)
        (daysFor_updateOne_other written same) writing others

/-- An insertion keeps the invariant unless it is stale and nothing repairs it. -/
theorem insert_converging (enabled : settings.retention.enabled = true)
    (positive : 0 < settings.retention.defaultDays) {id fresh : ObjectId} {before : State}
    {task : Nat} {now : Instant} {request : Receiver.Request} {seen : Endpoints}
    (converging : Converging settings id before)
    (standing : before.tasks task = .receiving request seen)
    (repaired : Repaired settings world id before (.insert task fresh now)) :
    Converging settings id { before.move task .idle with
      events := received world settings before request seen fresh now } := by
  have inserting : ∀ endpoint, before.tasks task ≠ .reapplying endpoint := by
    intro endpoint
    rw [standing]
    exact nofun
  have others : ∀ place, place ≠ task →
      Function.update before.tasks task .idle place = before.tasks place :=
    fun place different => Function.update_of_ne different _ _
  have fixes : (∃ other, Pending settings id before other) → Converging settings id
      { before.move task .idle with
        events := received world settings before request seen fresh now } := by
    rintro ⟨other, pending⟩
    exact .inr ⟨other, pending.kept (pending.not_of_task inserting) rfl others⟩
  cases converging with
  | inr pending => exact fixes pending
  | inl right =>
    by_cases outdated : stale settings world id before (.insert task fresh now) = true
    · obtain ⟨other, _, pending⟩ := repaired outdated
      exact fixes ⟨other, pending⟩
    · refine .inl (fun event member owner days present => ?_)
      simp only [stale, standing] at outdated
      simp only [received] at member
      split at member
      · rename_i doc accepted
        rw [accepted] at outdated
        split at member
        · cases List.mem_append.mp member with
          | inl old => exact right event old owner days present
          | inr last =>
            obtain rfl := List.mem_singleton.mp last
            obtain ⟨seenDays, effective, expires⟩ := receive_right enabled positive accepted fresh
            have mine : doc.endpointId = id := owner
            rw [mine] at effective
            have same : daysFor settings seen id = daysFor settings before.endpoints id := by
              simpa [mine] using outdated
            have agree : some seenDays = some days := by
              rw [← effective, same]
              exact present
            rw [expires, Option.some.inj agree]
        · exact right event member owner days present
      · exact right event member owner days present

/-- A rewriting keeps the invariant unless it is stale and nothing repairs it. -/
theorem reapply_converging {id : ObjectId} {before : State} {task : Nat} {endpoint : EndpointDoc}
    (converging : Converging settings id before)
    (standing : before.tasks task = .reapplying endpoint)
    (repaired : Repaired settings world id before (.reapply task)) :
    Converging settings id { before.move task .idle with
      events := (reapply before.events endpoint settings.retention).1 } := by
  have others : ∀ place, place ≠ task →
      Function.update before.tasks task .idle place = before.tasks place :=
    fun place different => Function.update_of_ne different _ _
  have fixes : ∀ other, other ≠ task → Pending settings id before other →
      Converging settings id { before.move task .idle with
        events := (reapply before.events endpoint settings.retention).1 } :=
    fun other different pending => .inr ⟨other, pending.kept different rfl others⟩
  by_cases outdated : stale settings world id before (.reapply task) = true
  · obtain ⟨other, different, pending⟩ := repaired outdated
    exact fixes other (fun same => different (by rw [same]; rfl)) pending
  · simp only [stale, standing] at outdated
    by_cases owner : endpoint.id = id
    · have current : retentionDays endpoint settings.retention =
          daysFor settings before.endpoints id ∧
          (reapply before.events endpoint settings.retention).2 = true := by
        simpa [owner] using outdated
      refine .inl (fun event member mine days present => ?_)
      have effective : retentionDays endpoint settings.retention = some days :=
        current.1.trans present
      have completed := current.2
      simp only [reapply, effective] at completed member
      exact reapplyAll_right completed member (by rw [mine, owner])
    · cases converging with
      | inl right =>
        refine .inl (fun event member mine days present => ?_)
        exact right event (mem_reapplyAll member (by rw [mine]; exact Ne.symm owner)) mine days
          present
      | inr pending =>
        obtain ⟨other, pending⟩ := pending
        refine fixes other ?_ pending
        rintro rfl
        obtain ⟨found, place, mine, _⟩ := pending
        obtain rfl : endpoint = found := by simpa [standing] using place
        exact owner mine

/-- Every step keeps the invariant unless it is stale and nothing repairs it. -/
theorem step_converging (enabled : settings.retention.enabled = true)
    (positive : 0 < settings.retention.defaultDays) {id : ObjectId} {before after : State}
    {label : Label} (converging : Converging settings id before)
    (repaired : Repaired settings world id before label)
    (taken : step world settings casing numerals before label = some after) :
    Converging settings id after := by
  cases step_effect taken with
  | moved _ task place _ standing result =>
    rw [result]
    exact converging.kept (fun event member => member) rfl standing
      (fun other different => Function.update_of_ne different _ _)
  | inserted task fresh now request seen standing result =>
    rw [result]
    exact insert_converging enabled positive converging standing repaired
  | written task document changes saved changed standing written result =>
    rw [result]
    exact write_converging converging standing written
  | reapplied task endpoint standing result =>
    rw [result]
    exact reapply_converging converging standing repaired
  | swept now result =>
    rw [result]
    cases converging with
    | inl right =>
      exact .inl (fun event member => right event (List.mem_of_mem_filter member))
    | inr pending => exact .inr pending

end

/-- Once all requests are done, every event of an endpoint expires as its retention says,
if every stale step of the run was taken while a rewriting with the present retention was
still to come.

Proof: the invariant is kept by every step of such a run, and a state without requests in
progress has no rewriting to come. -/
theorem expiries_converge (world : Environment) (settings : Settings) (casing : Casing)
    (numerals : Numerals) (enabled : settings.retention.enabled = true)
    (positive : 0 < settings.retention.defaultDays) (id : ObjectId) {start final : State}
    {labels : List Label} (right : Right settings id start)
    (ran : run (step world settings casing numerals) start labels = some final)
    (repaired : Along (step world settings casing numerals) (Repaired settings world id) start
      labels)
    (done : ∀ task, final.tasks task = .idle) : Right settings id final := by
  have converging : Converging settings id final :=
    run_invariant (step world settings casing numerals)
      (fun _ _ _ holds condition taken =>
        step_converging enabled positive holds condition taken) repaired ran (.inl right)
  cases converging with
  | inl settled => exact settled
  | inr pending =>
    obtain ⟨task, endpoint, standing, _⟩ := pending
    rw [done task] at standing
    cases standing

/-! ## Runs from the start -/

/-- No request is in its place. -/
def Task.isIdle : Task → Bool
  | .idle => true
  | _ => false

theorem Task.isIdle_iff (task : Task) : task.isIdle = true ↔ task = .idle := by
  cases task <;> simp [Task.isIdle]

section
variable {world : Environment} {settings : Settings} {casing : Casing} {numerals : Numerals}

/-- A step moves at most the request that takes it. -/
theorem step_tasks {before after : State} {label : Label} {task : Nat}
    (taken : step world settings casing numerals before label = some after)
    (other : some task ≠ label.task) : after.tasks task = before.tasks task := by
  have moved : ∀ mover place, label.task = some mover →
      Function.update before.tasks mover place task = before.tasks task := by
    intro mover place same
    exact Function.update_of_ne (fun here => other (by rw [here, same])) _ _
  cases step_effect taken with
  | moved _ mover place own _ result =>
    rw [result]
    exact moved mover place own
  | inserted mover fresh now request seen _ result =>
    rw [result]
    exact moved mover _ rfl
  | written mover document changes saved changed _ _ result =>
    rw [result]
    exact moved mover _ rfl
  | reapplied mover endpoint _ result =>
    rw [result]
    exact moved mover _ rfl
  | swept now result => rw [result]

/-- A request that takes no step of a run is where it was. -/
theorem run_tasks {start final : State} {labels : List Label} {task : Nat}
    (ran : run (step world settings casing numerals) start labels = some final)
    (other : ∀ label ∈ labels, some task ≠ label.task) : final.tasks task = start.tasks task := by
  induction labels generalizing start with
  | nil => exact congrArg (fun system => system.tasks task) (Option.some.inj ran).symm
  | cons label rest inductionHypothesis =>
    obtain ⟨next, taken, continued⟩ := run_cons_some _ ran
    rw [inductionHypothesis continued (fun later member => other later
      (List.mem_cons_of_mem _ member)), step_tasks taken (other label List.mem_cons_self)]

end

/-- One endpoint, no events, and no requests. -/
def fresh : State := ⟨githubEndpoints, [], fun _ => .idle⟩

/-- There is no event to be wrong. -/
theorem fresh_right (settings : Settings) (id : ObjectId) : Right settings id fresh :=
  fun _ member => absurd member List.not_mem_nil

/-- The endpoint's retention becomes five days. -/
def fiveDays : UpdateInput := { retentionDays := .value 5 }

/-- A delivery, and an update after it. -/
def inTurn : List Label :=
  [.arrive 0 small, .insert 0 ⟨7⟩ 0, .patch 1 ⟨1⟩ fiveDays 0, .write 1, .reapply 1]

/-- The same steps, but the event is inserted when the update is done. -/
def overtaken : List Label :=
  [.arrive 0 small, .patch 1 ⟨1⟩ fiveDays 0, .write 1, .reapply 1, .insert 0 ⟨7⟩ 0]

/-- Where steps of the two requests lead. -/
def outcome (labels : List Label) : Option State :=
  run (step plainWorld {} Casing.ascii Numerals.ascii) fresh labels

/-- The two requests are done if they are where they started. -/
theorem outcome_idle {labels : List Label} {final : State} (ran : outcome labels = some final)
    (two : labels.all (fun label => decide (label.task = some 0 ∨ label.task = some 1)) = true)
    (done : (final.tasks 0).isIdle = true ∧ (final.tasks 1).isIdle = true) (task : Nat) :
    final.tasks task = .idle := by
  by_cases first : task = 0
  · exact first ▸ (Task.isIdle_iff _).mp done.1
  · by_cases second : task = 1
    · exact second ▸ (Task.isIdle_iff _).mp done.2
    · refine run_tasks ran (fun label member same => ?_)
      have named := of_decide_eq_true (List.all_eq_true.mp two label member)
      rw [← same] at named
      cases named with
      | inl zero => exact first (Option.some.inj zero)
      | inr one => exact second (Option.some.inj one)

/-- The state after the requests in turn. -/
def settledState : State := (outcome inTurn).get (by decide +kernel)

/-- The state after the overtaken delivery. -/
def staleState : State := (outcome overtaken).get (by decide +kernel)

/-- One after the other the requests leave the event with the new retention. -/
theorem expiries_converge_inTurn :
    settledState.events ≠ [] ∧ Right {} ⟨1⟩ settledState := by
  have ran : outcome inTurn = some settledState := (Option.some_get _).symm
  have current : Along (step plainWorld {} Casing.ascii Numerals.ascii)
      (fun system label => stale {} plainWorld ⟨1⟩ system label = false) fresh inTurn := by
    decide +kernel
  refine ⟨by decide +kernel, expiries_converge plainWorld {} Casing.ascii Numerals.ascii rfl
    (by decide) ⟨1⟩ (fresh_right _ _) ran (along_mono _ ?_ current)
    (outcome_idle ran (by decide) (by decide +kernel))⟩
  intro system label notStale outdated
  rw [notStale] at outdated
  cases outdated

/-- A delivery that read the old retention and is inserted after the update keeps it. -/
theorem expiries_diverge :
    ¬ ∀ (world : Environment) (settings : Settings) (casing : Casing) (numerals : Numerals)
      (id : ObjectId) (start final : State) (labels : List Label),
      settings.retention.enabled = true → 0 < settings.retention.defaultDays →
      Right settings id start →
      run (step world settings casing numerals) start labels = some final →
      (∀ task, final.tasks task = .idle) → Right settings id final := by
  intro claimed
  have ran : outcome overtaken = some staleState := (Option.some_get _).symm
  have right := claimed plainWorld {} Casing.ascii Numerals.ascii ⟨1⟩ fresh staleState overtaken
    rfl (by decide) (fresh_right _ _) ran (outcome_idle ran (by decide) (by decide +kernel))
  have events : staleState.events = [⟨⟨7⟩, ⟨1⟩, 0, some 2592000000⟩] := by decide +kernel
  have days : daysFor {} staleState.endpoints ⟨1⟩ = some 5 := by decide +kernel
  have wrong := right ⟨⟨7⟩, ⟨1⟩, 0, some 2592000000⟩ (by rw [events]; exact List.mem_cons_self) rfl
    5 days
  revert wrong
  decide

end WebhookInbox.Retention
