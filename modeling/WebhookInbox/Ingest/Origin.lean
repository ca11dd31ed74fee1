import WebhookInbox.EventStore
import WebhookInbox.Ingest.Authenticity
import WebhookInbox.Replay.Body

/-!
# Where stored events come from

Between the moment at which a webhook looks up its endpoint and the one at which its event
is inserted, the endpoint may be edited, disabled or deleted, and other webhooks arrive.
Afterwards updates of endpoints and backfills rewrite parts of the event.

An auditor notes both moments. `events_authentic` says that every stored event is one that a
webhook was stored as, which its endpoint let in as it stood when it was looked up, and that
the event still says what that webhook sent.
-/

namespace WebhookInbox.EventStore

open Library Library.Run Calendar WebhookInbox.Endpoint WebhookInbox.Receiver
  WebhookInbox.Backfill

/-- A webhook looks up its endpoint among those that are there, and its event is inserted. -/
inductive Note where
  | looked (task : Nat) (request : Receiver.Request) (endpoints : Endpoints)
  | inserted (task : Nat) (id : ObjectId) (doc : EventDoc)

/-- The webhook that a note is on. -/
def Note.task : Note → Nat
  | .looked task _ _ => task
  | .inserted task _ _ => task

section
variable (world : Environment) (settings : Settings)

/-- What is noted at a step. -/
def noted (system : State) : Label → List Note
  | .request (.arrive task request) => [.looked task request system.endpoints]
  | .request (.insert task id now) =>
      match system.tasks task with
      | .receiving request seen =>
          match receive world settings seen request now with
          | .inserted doc =>
              if Storable doc ∧ (system.events.insert (stored id doc)).isSome = true then
                [.inserted task id doc]
              else []
          | _ => []
      | _ => []
  | _ => []

/-- The notes along a run. -/
def trail (casing : Casing) (numerals : Numerals) (start : State) (labels : List Label) :
    List Note :=
  observed (step world settings casing numerals) (noted world settings) start labels

/-- The endpoint lets the webhook in. -/
structure Admits (endpoint : EndpointDoc) (request : Receiver.Request) : Prop where
  enabled : endpoint.enabled = some true
  method : ∃ methods, endpoint.allowedMethods = some methods ∧ request.method ∈ methods
  size : request.chunks.flatten ≠ [] → (request.chunks.flatten.length : Int) ≤
    (endpoint.maxPayloadSize.filter (· ≠ 0)).getD settings.limits.maxPayloadSize
  genuine : Signature.Genuine world.runtime.casing world.hexDigest endpoint request.headerDict
    request.chunks.flatten

/-- The document says what the webhook sent, and to which endpoint. -/
structure Records (endpoint : EndpointDoc) (request : Receiver.Request) (doc : EventDoc) :
    Prop where
  endpointId : doc.endpointId = endpoint.id
  endpointName : endpoint.name = some doc.endpointName
  method : doc.method = request.method
  headers : doc.headers = request.headerDict
  query : doc.query = request.queryDict
  body : Store.eventBody doc.toBson = some request.chunks.flatten

/-- The webhook has looked up its endpoint and has not been noted since. -/
def Pending (past : List Note) (task : Nat) (request : Receiver.Request) (seen : Endpoints) :
    Prop :=
  ∃ earlier later, past = earlier ++ .looked task request seen :: later ∧
    ∀ note ∈ later, note.task ≠ task

/-- What has to be on record before a note. An event is inserted under a new identifier, for
a webhook that looked up its endpoint and for which none was inserted since. The endpoint
that it found let it in, and the event says what it sent. -/
def Justified (past : List Note) : Note → Prop
  | .looked _ _ _ => True
  | .inserted task id doc =>
      (∀ other earlier, .inserted other id earlier ∉ past) ∧
        ∃ request seen endpoint, Pending past task request seen ∧
          seen.findPath (normalizePath request.path) = some endpoint ∧
          Admits world settings endpoint request ∧ Records endpoint request doc

end

/-- Requests on their way and stored events rest on what was noted. -/
structure Based (past : List Note) (system : State) : Prop where
  tasks : ∀ task request seen, system.tasks task = .receiving request seen →
    Pending past task request seen
  given : ∀ task id doc, .inserted task id doc ∈ past → id ∈ system.given
  events : ∀ event ∈ system.events.docs, ∃ task doc, .inserted task event.id doc ∈ past ∧
    core event = core (stored event.id doc)

/-! ## One webhook -/

section
variable {world : Environment} {settings : Settings} {casing : Casing} {numerals : Numerals}

/-- Texts that compare equal are equal. -/
theorem eq_of_compareDigest {first second : Str}
    (equal : Signature.compareDigest first second = some true) : first = second := by
  unfold Signature.compareDigest at equal
  split at equal
  · exact eq_of_beq (Option.some.inj equal)
  · cases equal

/-- A request that is verified is genuine. -/
theorem genuine_of_verify {casing : Casing} {hexDigest : Bytes → Bytes → Str}
    {endpoint : EndpointDoc} {headers : Dict Str Str} {rawBody : Bytes}
    (verified : Signature.verify casing hexDigest endpoint headers rawBody = some true) :
    Signature.Genuine casing hexDigest endpoint headers rawBody := by
  cases configured : endpoint.authentication with
  | none =>
    apply Signature.Genuine.unasked
    simp only [Signature.typeOf, configured]
  | some auth =>
    cases known : AuthType.ofValue auth.type with
    | none => simp [Signature.verify, configured, known] at verified
    | some type =>
      by_cases asks : type = .none
      · apply Signature.Genuine.unasked
        simp only [Signature.typeOf, configured, known, asks]
      · -- A type that asks for something is verified by its own comparison.
        have present : ¬ (endpoint.secret.filter (· ≠ []) = none ∨
            Signature.presented auth type headers = none) := by
          intro lacking
          rw [Signature.verify_lacking configured known asks lacking] at verified
          cases verified
        obtain ⟨secretThere, headerThere⟩ := not_or.mp present
        obtain ⟨secret, stored⟩ := Option.ne_none_iff_exists'.mp secretThere
        obtain ⟨provided, given⟩ := Option.ne_none_iff_exists'.mp headerThere
        cases type with
        | none => exact absurd rfl asks
        | staticSecret =>
          rw [Signature.verify_shared configured known stored given] at verified
          exact (Signature.genuine_shared_iff configured known stored given).mpr
            (eq_of_compareDigest verified)
        | hmacSha256 =>
          rw [Signature.verify_signed configured known stored given] at verified
          obtain ⟨key, encoded, equal⟩ := Option.bind_eq_some_iff.mp verified
          exact (Signature.genuine_signed_iff configured known stored given).mpr
            ⟨key, encoded, eq_of_compareDigest equal⟩

/-- A body that is read is no longer than the limit. -/
theorem readChunks_within {limit : Int} {read raw : Bytes} {chunks : List Bytes}
    (complete : readChunks limit read chunks = .ok raw) (more : raw ≠ read) :
    (raw.length : Int) ≤ limit := by
  induction chunks generalizing read with
  | nil => exact absurd (Except.ok.inj complete).symm more
  | cons chunk rest inductionHypothesis =>
    simp only [readChunks] at complete
    split at complete
    · cases complete
    · rename_i within
      by_cases last : raw = read ++ chunk
      · rw [last]
        exact not_lt.mp within
      · exact inductionHypothesis complete last

/-- So is one that `read_limited` returns. -/
theorem readLimited_within {numerals : Numerals} {request : Receiver.Request} {limit : Int}
    {raw : Bytes} (complete : readLimited numerals request limit = .ok raw) (more : raw ≠ []) :
    (raw.length : Int) ≤ limit := by
  unfold readLimited at complete
  dsimp only at complete
  split at complete
  · split at complete
    · cases complete
    · split at complete
      · cases complete
      · exact readChunks_within complete more
  · exact readChunks_within complete more

/-- A webhook that is stored was let in by its endpoint, and its document says what it sent. -/
theorem receive_admits {endpoints : Endpoints} {request : Receiver.Request} {now : Instant}
    {doc : EventDoc} (accepted : receive world settings endpoints request now = .inserted doc) :
    ∃ endpoint, endpoints.findPath (normalizePath request.path) = some endpoint ∧
      Admits world settings endpoint request ∧ Records endpoint request doc := by
  have body := Store.receive_faithful accepted
  obtain ⟨endpoint, methods, found, allowed, method, verified, handed⟩ := receive_verified accepted
  obtain ⟨parsed, name, expiry, _, named, rfl⟩ := store_inserted handed
  -- What `receive` checks besides.
  have checks : endpoint.enabled = some true ∧ ∃ raw, readLimited world.numerals request
      ((endpoint.maxPayloadSize.filter (· ≠ 0)).getD settings.limits.maxPayloadSize) = .ok raw := by
    unfold receive reject at accepted
    simp only [found, allowed] at accepted
    constructor
    · by_contra disabled
      simp only [disabled, ne_eq, not_false_eq_true, if_true] at accepted
      repeat' split at accepted
      all_goals cases accepted
    · cases read : readLimited world.numerals request
        ((endpoint.maxPayloadSize.filter (· ≠ 0)).getD settings.limits.maxPayloadSize) with
      | ok raw => exact ⟨raw, rfl⟩
      | error reason =>
        rw [read] at accepted
        cases reason <;> dsimp only at accepted <;> repeat' split at accepted
        all_goals cases accepted
  obtain ⟨enabled, raw, complete⟩ := checks
  refine ⟨endpoint, found, ?_, ?_⟩
  · refine ⟨enabled, ⟨methods, allowed, method⟩, ?_, genuine_of_verify verified⟩
    intro more
    rw [← readLimited_ok complete] at more ⊢
    exact readLimited_within complete more
  · exact ⟨rfl, named, rfl, rfl, rfl, body⟩

/-- What `event_body` reads is part of what an event is. -/
theorem eventBody_core {first second : Stored} (same : core first = core second) :
    Store.eventBody (.doc first.fields) = Store.eventBody (.doc second.fields) := by
  have request : first.fields.get (lit "request") = second.fields.get (lit "request") := by
    rw [← get_core first (by decide), same, get_core second (by decide)]
  simp only [Store.eventBody, Bson.field, request]

/-! ## One step -/

/-- A note is on the webhook that takes the step. -/
theorem noted_task {system : State} {label : Retention.Label} {note : Note}
    (member : note ∈ noted world settings system (.request label)) :
    label.task = some note.task := by
  cases label with
  | arrive task request =>
    obtain rfl := List.mem_singleton.mp member
    rfl
  | insert task id now =>
    simp only [noted] at member
    split at member
    · split at member
      · split at member
        · obtain rfl := List.mem_singleton.mp member
          rfl
        · cases member
      · cases member
    · cases member
  | patch task target given now => cases member
  | save task target form now => cases member
  | write task => cases member
  | reapply task => cases member
  | sweep now => cases member

/-- An update is never a webhook that waits for its insertion. -/
theorem checked_receiving {document : EndpointDoc} {payload : EndpointUpdate} {now : Instant}
    {saved : Bool} {request : Receiver.Request} {seen : Endpoints} :
    Retention.checked document payload now saved ≠ .receiving request seen := by
  unfold Retention.checked
  split <;> nofun

/-- A request that is moved stands where it is moved to. -/
theorem move_tasks (system : Retention.State) (task : Nat) (place : Retention.Task) :
    (system.move task place).tasks task = place :=
  Function.update_self _ _ _

/-- A webhook that waits for its insertion after a call has waited before, and the call was
not its own; or it has just looked up its endpoint. -/
theorem call_receiving {before after : Retention.State} {label : Retention.Label} {task : Nat}
    {request : Receiver.Request} {seen : Endpoints}
    (taken : Retention.step world settings casing numerals before label = some after)
    (standing : after.tasks task = .receiving request seen) :
    (before.tasks task = .receiving request seen ∧ label.task ≠ some task) ∨
      (label = .arrive task request ∧ seen = before.endpoints) := by
  by_cases own : label.task = some task
  · apply Or.inr
    cases label with
    | arrive mover arriving =>
      obtain rfl : mover = task := Option.some.inj own
      simp only [Retention.step] at taken
      split at taken
      · obtain rfl := Option.some.inj taken
        rw [move_tasks] at standing
        cases standing
        exact ⟨rfl, rfl⟩
      · cases taken
    | insert mover id now =>
      obtain rfl : mover = task := Option.some.inj own
      simp only [Retention.step] at taken
      split at taken
      · obtain rfl := Option.some.inj taken
        simp [Retention.State.move] at standing
      · cases taken
    | patch mover target given now =>
      obtain rfl : mover = task := Option.some.inj own
      simp only [Retention.step] at taken
      split at taken
      · obtain rfl := Option.some.inj taken
        rw [move_tasks, Retention.patched] at standing
        split at standing
        · exact absurd standing checked_receiving
        · cases standing
      · cases taken
    | save mover target form now =>
      obtain rfl : mover = task := Option.some.inj own
      simp only [Retention.step] at taken
      split at taken
      · obtain rfl := Option.some.inj taken
        rw [move_tasks, Retention.saved] at standing
        split at standing
        · split at standing
          · exact absurd standing checked_receiving
          · cases standing
        · cases standing
      · cases taken
    | write mover =>
      obtain rfl : mover = task := Option.some.inj own
      simp only [Retention.step] at taken
      split at taken
      · split at taken
        · obtain rfl := Option.some.inj taken
          simp [Retention.State.move] at standing
        · obtain rfl := Option.some.inj taken
          simp only [Retention.State.move, Function.update_self, Retention.afterWrite] at standing
          split at standing <;> cases standing
      · cases taken
    | reapply mover =>
      obtain rfl : mover = task := Option.some.inj own
      simp only [Retention.step] at taken
      split at taken
      · obtain rfl := Option.some.inj taken
        simp [Retention.State.move] at standing
      · cases taken
    | sweep now => cases own
  · have unmoved : after.tasks task = before.tasks task :=
      Retention.step_tasks taken (fun same => own same.symm)
    exact .inl ⟨unmoved ▸ standing, own⟩

/-- An event that an insertion leaves was there, or it is the one that is noted. -/
theorem insert_noted {system : State} {task : Nat} {id : ObjectId} {now : Instant}
    {event : Stored}
    (member : event ∈ (eventsAfter world settings system (.insert task id now)).docs) :
    event ∈ system.events.docs ∨ ∃ doc, event = stored id doc ∧
      .inserted task id doc ∈ noted world settings system (.request (.insert task id now)) := by
  simp only [eventsAfter] at member
  split at member
  · rename_i request seen standing
    split at member
    · rename_i doc accepted
      split at member
      · rename_i storable
        cases inserted : system.events.insert (stored id doc) with
        | none =>
          rw [inserted] at member
          exact .inl member
        | some grown =>
          rw [inserted] at member
          rcases (Collection.mem_insert inserted event).mp member with old | rfl
          · exact .inl old
          · exact .inr ⟨doc, rfl, by simp [noted, standing, accepted, storable, inserted]⟩
      · exact .inl member
    · exact .inl member
  · exact .inl member

/-- An event that a step leaves was there with what it is, or it is the one that is noted. -/
theorem step_origin {before after : State} {label : Label} {event : Stored}
    (made : step world settings casing numerals before label = some after)
    (known : ∀ event ∈ before.events.docs, event.id ∈ before.given)
    (member : event ∈ after.events.docs) :
    (∃ earlier ∈ before.events.docs, earlier.id = event.id ∧ core event = core earlier) ∨
      ∃ task doc, event = stored event.id doc ∧
        .inserted task event.id doc ∈ noted world settings before label := by
  by_cases old : event.id ∈ before.given
  · obtain ⟨earlier, present, same⟩ :=
      (step_find made old).core_eq (Collection.find_of_mem member)
    obtain ⟨there, sameId⟩ := Collection.find_some present
    exact .inl ⟨earlier, there, sameId, same⟩
  · have absent : ∀ earlier ∈ before.events.docs, earlier.id ≠ event.id :=
      fun earlier there same => old (same ▸ known earlier there)
    cases step_effect made with
    | called label moved unused went result =>
      rw [result] at member
      rcases call_known member with ⟨earlier, there, same⟩ | ⟨id, newest, doc, rfl⟩
      · exact absurd same (absent earlier there)
      · cases label with
        | insert task fresh now =>
          obtain rfl : id = fresh := List.mem_singleton.mp newest
          rcases insert_noted member with there | ⟨other, same, noted⟩
          · exact absurd rfl (absent _ there)
          · exact .inr ⟨task, other, same, noted⟩
        | _ => cases newest
    | turned _ fill place silent turn result =>
      rw [result] at member
      exact absurd rfl (absent event member)
    | written fill target terms rest next standing result =>
      rw [result] at member
      obtain ⟨earlier, there, rfl⟩ := (Collection.mem_updateOne before.events target
        (Stored.setSearch terms) (Stored.setSearch_id terms) event).mp member
      refine absurd ?_ (absent earlier there)
      split <;> rfl

/-- What is noted of an insertion. -/
theorem inserted_noted {system : State} {label : Label} {task : Nat} {id : ObjectId}
    {doc : EventDoc} (member : .inserted task id doc ∈ noted world settings system label) :
    ∃ now request seen, label = .request (.insert task id now) ∧
      system.tasks task = .receiving request seen ∧
      receive world settings seen request now = .inserted doc := by
  unfold noted at member
  split at member
  · cases List.mem_singleton.mp member
  · rename_i mover newest now
    split at member
    · rename_i request seen standing
      split at member
      · rename_i accepted
        split at member
        · cases List.mem_singleton.mp member
          exact ⟨now, request, seen, rfl, standing, accepted⟩
        · cases member
      · cases member
    · cases member
  · cases member

/-- A step that is no call of a request is not noted. -/
theorem noted_silent {system : State} {label : Label} (silent : label.call = none) :
    noted world settings system label = [] := by
  cases label with
  | request label => cases silent
  | _ => rfl

/-- At most one thing is noted at a step. -/
theorem noted_once (system : State) (label : Label) :
    (noted world settings system label).length ≤ 1 := by
  unfold noted
  repeat' split
  all_goals simp

variable {past more : List Note}

/-- A webhook waits on while others are noted. -/
theorem Pending.append {task : Nat} {request : Receiver.Request} {seen : Endpoints}
    (pending : Pending past task request seen) (others : ∀ note ∈ more, note.task ≠ task) :
    Pending (past ++ more) task request seen := by
  obtain ⟨earlier, later, rfl, since⟩ := pending
  refine ⟨earlier, later ++ more, by simp, ?_⟩
  intro note member
  exact (List.mem_append.mp member).elim (since note) (others note)

/-- The identifiers of stored events were given out. -/
theorem Based.known {system : State} (based : Based past system) :
    ∀ event ∈ system.events.docs, event.id ∈ system.given := by
  intro event member
  obtain ⟨task, doc, inserted, _⟩ := based.events event member
  exact based.given task event.id doc inserted

/-- A step keeps what everything rests on. -/
theorem step_based {before after : State} {label : Label} (based : Based past before)
    (made : step world settings casing numerals before label = some after) :
    Based (past ++ noted world settings before label) after := by
  constructor
  case tasks =>
    intro task request seen standing
    cases step_effect made with
    | called label moved unused went result =>
      rw [result] at standing
      rcases call_receiving went standing with ⟨waiting, other⟩ | ⟨arrival, rfl⟩
      · apply (based.tasks task request seen waiting).append
        intro note member same
        exact other (same ▸ noted_task member)
      · subst arrival
        exact ⟨past, [], rfl, nofun⟩
    | turned _ fill place silent turn result =>
      rw [result] at standing
      rw [noted_silent silent, List.append_nil]
      exact based.tasks task request seen standing
    | written fill target terms rest next place result =>
      rw [result] at standing
      apply (based.tasks task request seen standing).append
      exact nofun
  case given =>
    intro task id doc member
    rcases List.mem_append.mp member with old | new
    · exact given_mono made (based.given task id doc old)
    · obtain ⟨now, request, seen, rfl, _⟩ := inserted_noted new
      cases step_effect made with
      | called _ moved unused went result =>
        rw [result]
        exact List.mem_append_right _ List.mem_cons_self
      | turned _ fill place silent turn result => cases silent
  case events =>
    intro event member
    rcases step_origin made based.known member with ⟨earlier, there, sameId, same⟩ |
      ⟨task, doc, created, new⟩
    · obtain ⟨task, doc, inserted, kept⟩ := based.events earlier there
      rw [sameId] at inserted kept
      exact ⟨task, doc, List.mem_append_left _ inserted, same.trans kept⟩
    · exact ⟨task, doc, List.mem_append_right _ new, congrArg core created⟩

/-- What is noted at a step is justified by the notes before it. -/
theorem noted_justified {before after : State} {label : Label} (based : Based past before)
    (made : step world settings casing numerals before label = some after) {note : Note}
    (member : note ∈ noted world settings before label) :
    Justified world settings past note := by
  cases note with
  | looked task request endpoints => trivial
  | inserted task id doc =>
    obtain ⟨now, request, seen, rfl, standing, accepted⟩ := inserted_noted member
    obtain ⟨endpoint, found, admits, records⟩ := receive_admits accepted
    refine ⟨?_, request, seen, endpoint, based.tasks task request seen standing, found, admits,
      records⟩
    intro other earlier inserted
    cases step_effect made with
    | called _ moved unused went result =>
      exact unused id List.mem_cons_self (based.given other id earlier inserted)
    | turned _ fill place silent turn result => cases silent

end

/-- Along every run of webhooks, updates of endpoints, backfills and sweeps, from a state
without events and requests in progress: an event is inserted for a webhook that looked up
its endpoint before, at most once for each, and the endpoint let that webhook in as it stood
then: it was enabled, allows the method and the size, and what it asks for was presented.
And every stored event is one that was inserted, and `event_body` returns from it what its
webhook sent.

Proof: by induction on the run, since every webhook on its way and every stored event rests
on what was noted. -/
theorem events_authentic (world : Environment) (settings : Settings) (casing : Casing)
    (numerals : Numerals) {start final : State} (empty : start.events.docs = [])
    (idle : ∀ task, start.tasks task = .idle) {labels : List Label}
    (ran : run (step world settings casing numerals) start labels = some final) :
    Grounded (Justified world settings) (trail world settings casing numerals start labels) ∧
      ∀ event ∈ final.events.docs, ∃ task doc,
        .inserted task event.id doc ∈ trail world settings casing numerals start labels ∧
        core event = core (stored event.id doc) ∧
        Store.eventBody (.doc event.fields) = Store.eventBody doc.toBson := by
  have initial : Based [] start := by
    refine ⟨?_, nofun, ?_⟩
    · intro task request seen standing
      rw [idle task] at standing
      cases standing
    · intro event member
      rw [empty] at member
      cases member
  obtain ⟨based, grounded⟩ := run_grounded (step world settings casing numerals)
    (noted world settings) (fun _ past _ _ (based : Based past _) made => step_based based made)
    (fun _ _ _ _ based made _ member => noted_justified based made member) noted_once ran initial
  refine ⟨grounded, ?_⟩
  intro event member
  obtain ⟨task, doc, inserted, same⟩ := based.events event member
  exact ⟨task, doc, inserted, same, eventBody_core same⟩

/-- An event that was rewritten by an update and a backfill is the one that was sent. -/
theorem events_authentic_mixed : filled.events.docs.map Stored.id = [⟨7⟩] ∧
    Grounded (Justified plainWorld {})
        (trail plainWorld {} Casing.ascii Numerals.ascii empty (delivering ++ mixed)) ∧
      ∀ event ∈ filled.events.docs, ∃ task doc,
        .inserted task event.id doc ∈
          trail plainWorld {} Casing.ascii Numerals.ascii empty (delivering ++ mixed) ∧
        core event = core (stored event.id doc) ∧
        Store.eventBody (.doc event.fields) = Store.eventBody doc.toBson := by
  have ran : outcome empty (delivering ++ mixed) = some filled :=
    outcome_append (Option.some_get _).symm (Option.some_get _).symm
  exact ⟨by decide +kernel, events_authentic plainWorld {} Casing.ascii Numerals.ascii rfl
    (fun _ => rfl) ran⟩

end WebhookInbox.EventStore
