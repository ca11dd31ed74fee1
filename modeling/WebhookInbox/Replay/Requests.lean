import WebhookInbox.Models.Endpoint
import WebhookInbox.Library.Bson
import WebhookInbox.Replay.Queue

/-!
# Requests for replays

A replay is asked for through the API or by the form of the dashboard. Both look up the
event, vet the destination and queue a job, in different orders and with different answers.
Any number of them run beside the workers, and events come and go. What a lookup of a
worker finds is what is stored then.

An auditor notes what is asked, accepted, queued and delivered. `deliveries_asked` says
that nothing is delivered but what was asked for: the destination, the method and the
headers of a delivery are those of a request whose event was stored and whose destination
was vetted, and each request queues at most one job.
-/

namespace WebhookInbox.Requests

open Library Library.Run Calendar Ssrf Store WebhookInbox.Endpoint

/-- The fields of `ReplayCreate` as they are given. -/
structure ReplayInput where
  destination : Str
  method : Str := lit "POST"
  headers : Dict Str Str := []

/-- `_require_destination(value)` -/
def requireDestination (value : Str) : Except Fault Str :=
  if Text.strip value = [] then .error (.valueError (lit "Destination URL is required"))
  else .ok (Text.strip value)

/-- `_known_method(value)` -/
def knownMethod (casing : Casing) (value : Str) : Except Fault Str :=
  if casing.upper (Text.strip value) ∈ allowedMethods then .ok (casing.upper (Text.strip value))
  else
    .error (.valueError (lit "Method must be one of " ++ (lit ", ").intercalate allowedMethods))

/-- `ReplayCreate(**fields)`: validate all fields. -/
def validateReplay (casing : Casing) (given : ReplayInput) :
    Except (List FieldError) ReplayCreate :=
  match requireDestination given.destination, knownMethod casing given.method with
  | .ok destination, .ok method => .ok ⟨destination, method, given.headers⟩
  | destination, method =>
      .error (errorsOf (lit "destination") destination ++ errorsOf (lit "method") method)

/-- `exc.errors()[0]` -/
def firstFault (errors : List FieldError) : Fault :=
  (errors.head?.map FieldError.fault).getD (.valueError [])

/-- The driver can write the fields that a request gives. -/
def writable (payload : ReplayCreate) : Bool :=
  Bson.storable (.doc [(lit "destination", .str payload.destination),
    (lit "method", .str payload.method),
    (lit "headers", .doc (payload.headers.map (fun header => (header.1, .str header.2))))])

/-- A request of the API or of the form. An event has no identifier if the text of the path
is none. -/
inductive Ask where
  | api (eventId : Option ObjectId) (given : ReplayInput)
  | form (eventId : Option ObjectId) (destination method : Str)

/-- The event that is asked for. -/
def Ask.eventId : Ask → Option ObjectId
  | .api eventId _ => eventId
  | .form eventId _ _ => eventId

/-- The fields that are given. The form has no headers. -/
def Ask.given : Ask → ReplayInput
  | .api _ given => given
  | .form _ destination method => { destination := destination, method := method }

/-- What a request is answered with. A failure is an exception that nothing catches. -/
inductive Reply where
  | detail (status : Nat) (reason : Str)
  | invalid (errors : List FieldError)
  | page (error : Fault)
  | rejected (reason : Str)
  | queued (id : ObjectId)
  | refresh (eventId : ObjectId)
  | failure

/-- The answer says that a job was queued. -/
def Reply.Queued : Reply → Prop
  | .queued _ | .refresh _ => True
  | _ => False

/-- Where a request stands: before a call on the database, or at its answer. -/
inductive Place where
  | looking (ask : Ask) (eventId : ObjectId)
  | inserting (ask : Ask) (eventId : ObjectId) (payload : ReplayCreate) (now : Instant)
  | answered (reply : Reply)

/-- The queue, the stored events, and the requests in the order of their arrival. -/
structure State where
  queue : Queue.State
  events : List ObjectId
  asks : List Place

/-- A request arrives, looks up its event, or inserts its job; a worker takes a step; an
event is stored, or removed. -/
inductive Label where
  | arrive (ask : Ask)
  | look (ask : Nat) (resolver : Str → Nat → Resolution)
  | insert (ask : Nat) (id : ObjectId)
  | worker (label : Queue.Label)
  | received (event : ObjectId)
  | removed (event : ObjectId)

/-- Move one request. -/
def State.move (system : State) (ask : Nat) (place : Place) : State :=
  { system with asks := system.asks.set ask place }

section
variable (casing : Casing) (urls : UrlApi) (config : ReplayConfig) (enabled : Bool)

/-- What comes before the event is looked up. The API validates its fields first, and has
its own text for an identifier that is none. -/
def arrived : Ask → Place
  | .api eventId given =>
      match validateReplay casing given with
      | .error errors => .answered (.invalid errors)
      | .ok _ =>
          if enabled = false then .answered (.detail 403 (lit "Replay is disabled"))
          else
            match eventId with
            | none => .answered (.detail 404 (lit "Event not found"))
            | some event => .looking (.api eventId given) event
  | .form eventId destination method =>
      match eventId with
      | none => .answered (.detail 404 (lit "Not found"))
      | some event => .looking (.form eventId destination method) event

/-- The answer to a destination that is not accepted. -/
def refusal (ask : Ask) : Rejection → Reply
  | .unicodeError | .osError => .failure
  | .destinationError message =>
      match ask with
      | .api _ _ => .detail 400 message
      | .form _ _ _ => .rejected message

/-- What follows when the event is there. The form validates its fields now. -/
def looked (ask : Ask) (eventId : ObjectId) (resolver : Str → Nat → Resolution) (now : Instant) :
    Place :=
  if enabled = false then .answered (.detail 403 (lit "Replay is disabled"))
  else
    match validateReplay casing ask.given with
    | .error errors => .answered (.page (firstFault errors))
    | .ok payload =>
        match validate urls resolver payload.destination config with
        | .error rejection => .answered (refusal ask rejection)
        | .ok _ => .inserting ask eventId payload now

/-- The answer when the job is queued. -/
def done (ask : Ask) (eventId id : ObjectId) : Reply :=
  match ask with
  | .api _ _ => .queued id
  | .form _ _ _ => .refresh eventId

/-- A lookup of a worker finds what is stored, and jobs come from requests only. -/
def admits (system : State) : Queue.Label → Bool
  | .enqueue _ _ _ _ => false
  | .lookup worker present =>
      match system.queue.workers worker with
      | .claimed replay => present == decide (replay.eventId ∈ system.events)
      | _ => true
  | _ => true

/-- One step. -/
def step (system : State) : Label → Option State
  | .arrive ask => some { system with asks := system.asks ++ [arrived casing enabled ask] }
  | .look ask resolver =>
      match system.asks[ask]? with
      | some (.looking request eventId) =>
          some (system.move ask
            (if eventId ∈ system.events then
              looked casing urls config enabled request eventId resolver system.queue.clock
            else .answered (.detail 404 (lit "Event not found"))))
      | _ => none
  | .insert ask id =>
      match system.asks[ask]? with
      | some (.inserting request eventId payload now) =>
          if writable payload then
            (Queue.step config system.queue (.enqueue id eventId payload now)).map (fun queue =>
              { system.move ask (.answered (done request eventId id)) with queue := queue })
          else some (system.move ask (.answered .failure))
      | _ => none
  | .worker label =>
      if admits system label then
        (Queue.step config system.queue label).map (fun queue => { system with queue := queue })
      else none
  | .received event => some { system with events := event :: system.events }
  | .removed event => some { system with events := system.events.filter (· ≠ event) }

/-! ## What the auditor notes -/

/-- An event is stored; a request arrives, is accepted on what the resolver said at its
lookup, and queues a job; a worker begins to deliver one. -/
inductive Note where
  | received (event : ObjectId)
  | asked (ask : Nat) (request : Ask)
  | accepted (ask : Nat) (eventId : ObjectId) (payload : ReplayCreate)
      (resolver : Str → Nat → Resolution)
  | queued (ask : Nat) (id eventId : ObjectId) (payload : ReplayCreate)
  | delivered (worker : Nat) (replay : ReplayDoc)

/-- The job that a step of a worker begins to deliver. -/
def delivers (system : State) : Queue.Label → List Note
  | .deliver worker =>
      match system.queue.workers worker with
      | .found replay => [.delivered worker replay]
      | _ => []
  | _ => []

/-- What is noted at a step. -/
def noted (system : State) : Label → List Note
  | .arrive request => [.asked system.asks.length request]
  | .look ask resolver =>
      match system.asks[ask]? with
      | some (.looking request eventId) =>
          if eventId ∈ system.events then
            match looked casing urls config enabled request eventId resolver system.queue.clock with
            | .inserting _ _ payload _ => [.accepted ask eventId payload resolver]
            | _ => []
          else []
      | _ => []
  | .insert ask id =>
      match system.asks[ask]? with
      | some (.inserting _ eventId payload _) =>
          if writable payload then [.queued ask id eventId payload] else []
      | _ => []
  | .worker label => delivers system label
  | .received event => [.received event]
  | .removed _ => []

/-- The notes along a run. -/
def trail (start : State) (labels : List Label) : List Note :=
  observed (step casing urls config enabled) (noted casing urls config enabled) start labels

end

/-! ## What a note rests on -/

/-- The job has what the request gave, and the budget that is configured. -/
structure Carries (config : ReplayConfig) (payload : ReplayCreate) (replay : ReplayDoc) : Prop where
  destination : replay.destination = payload.destination
  method : replay.method = payload.method
  headers : replay.headers = payload.headers
  maxAttempts : replay.maxAttempts = config.maxRetries + 1

/-- The job was queued by a request. -/
def Rooted (config : ReplayConfig) (past : List Note) (replay : ReplayDoc) : Prop :=
  ∃ ask payload, .queued ask replay.id replay.eventId payload ∈ past ∧
    Carries config payload replay

/-- The request has queued no job. -/
def Unqueued (past : List Note) (ask : Nat) : Prop :=
  ∀ id eventId payload, .queued ask id eventId payload ∉ past

section
variable (casing : Casing) (urls : UrlApi) (config : ReplayConfig) (enabled : Bool)

/-- What has to be on record before a note. A request is accepted that asks for an event
that was stored, while replays are enabled, with fields that are valid and a destination
that was vetted by the resolver of its lookup. It queues one job, under an identifier that no other job has. A job is
delivered as a request gave it. -/
def Justified (past : List Note) : Note → Prop
  | .received _ | .asked _ _ => True
  | .accepted ask eventId payload resolver =>
      enabled = true ∧ .received eventId ∈ past ∧
        (∃ request, .asked ask request ∈ past ∧ request.eventId = some eventId ∧
          validateReplay casing request.given = .ok payload) ∧
        ∃ target, validate urls resolver payload.destination config = .ok target
  | .queued ask id eventId payload =>
      (∃ resolver, .accepted ask eventId payload resolver ∈ past) ∧ Unqueued past ask ∧
        ∀ other eventId payload, .queued other id eventId payload ∉ past
  | .delivered _ replay => Rooted config past replay

/-- What a request on its way rests on. An answer says that a job was queued exactly if one
was. -/
def Place.Based (past : List Note) (ask : Nat) : Place → Prop
  | .looking request eventId =>
      .asked ask request ∈ past ∧ request.eventId = some eventId ∧ Unqueued past ask
  | .inserting _ eventId payload _ =>
      (∃ resolver, .accepted ask eventId payload resolver ∈ past) ∧ Unqueued past ask
  | .answered reply =>
      reply.Queued ↔ ∃ id eventId payload, .queued ask id eventId payload ∈ past

/-- So do all requests, the stored jobs and those that workers hold. -/
structure Based (past : List Note) (system : State) : Prop where
  events : ∀ event ∈ system.events, .received event ∈ past
  asks : ∀ ask (place : Place), system.asks[ask]? = some place → place.Based past ask
  beyond : ∀ ask, system.asks.length ≤ ask → Unqueued past ask
  stored : ∀ id replay, system.queue.replays.find id = some replay → Rooted config past replay
  held : ∀ worker replay, (system.queue.workers worker).held = some replay →
    Rooted config past replay
  jobs : ∀ ask id eventId payload, .queued ask id eventId payload ∈ past →
    (system.queue.replays.find id).isSome = true

end

section
variable {casing : Casing} {urls : UrlApi} {config : ReplayConfig} {enabled : Bool}
  {past more : List Note} {system before after : State}

/-- More notes take no root away. -/
theorem Rooted.append {replay : ReplayDoc} (rooted : Rooted config past replay)
    (more : List Note) : Rooted config (past ++ more) replay := by
  obtain ⟨ask, payload, queued, carries⟩ := rooted
  exact ⟨ask, payload, List.mem_append_left _ queued, carries⟩

/-- Notes that queue nothing. -/
def Silent (more : List Note) : Prop := ∀ ask, Unqueued more ask

/-- Notes that queue nothing for a request leave what it has queued. -/
theorem Unqueued.append {ask : Nat} (unqueued : Unqueued past ask) (silent : Unqueued more ask) :
    Unqueued (past ++ more) ask := by
  intro id eventId payload member
  cases List.mem_append.mp member with
  | inl earlier => exact unqueued id eventId payload earlier
  | inr later => exact silent id eventId payload later

/-- Such notes do not change whether it has queued one. -/
theorem queued_append {ask : Nat} (silent : Unqueued more ask) :
    (∃ id eventId payload, .queued ask id eventId payload ∈ past ++ more) ↔
      ∃ id eventId payload, .queued ask id eventId payload ∈ past := by
  constructor
  · rintro ⟨id, eventId, payload, member⟩
    cases List.mem_append.mp member with
    | inl earlier => exact ⟨id, eventId, payload, earlier⟩
    | inr later => exact absurd later (silent id eventId payload)
  · rintro ⟨id, eventId, payload, member⟩
    exact ⟨id, eventId, payload, List.mem_append_left _ member⟩

/-- A request rests on what it rested on. -/
theorem Place.Based.append {place : Place} {ask : Nat} (based : place.Based past ask)
    (silent : Unqueued more ask) : place.Based (past ++ more) ask := by
  cases place with
  | looking request eventId =>
    exact ⟨List.mem_append_left _ based.1, based.2.1, based.2.2.append silent⟩
  | inserting request eventId payload now =>
    obtain ⟨⟨resolver, accepted⟩, unqueued⟩ := based
    exact ⟨⟨resolver, List.mem_append_left _ accepted⟩, unqueued.append silent⟩
  | answered reply => exact Iff.trans based (queued_append silent).symm

/-- So does everything. -/
theorem Based.append (based : Based config past system) (silent : Silent more) :
    Based config (past ++ more) system where
  events event member := List.mem_append_left _ (based.events event member)
  asks ask place standing := (based.asks ask place standing).append (silent ask)
  beyond ask far := (based.beyond ask far).append (silent ask)
  stored id replay found := (based.stored id replay found).append more
  held worker replay holding := (based.held worker replay holding).append more
  jobs ask id eventId payload member := by
    cases List.mem_append.mp member with
    | inl earlier => exact based.jobs ask id eventId payload earlier
    | inr later => exact absurd later (silent ask id eventId payload)

/-- A request that moves on rests on what it needs there. -/
theorem Based.move (based : Based config past system) {ask : Nat} {place : Place}
    (there : place.Based past ask) : Based config past (system.move ask place) where
  events := based.events
  asks other found standing := by
    rw [State.move, List.getElem?_set] at standing
    split at standing
    · rename_i same
      split at standing
      · obtain rfl := Option.some.inj standing
        exact same ▸ there
      · cases standing
    · exact based.asks other found standing
  beyond other far := based.beyond other (by rwa [State.move, List.length_set] at far)
  stored := based.stored
  held := based.held
  jobs := based.jobs

/-- An answer that names no job, of a request that queued none. -/
theorem answered_based {ask : Nat} {reply : Reply} (unqueued : Unqueued past ask)
    (none : ¬ reply.Queued) : (Place.answered reply).Based past ask :=
  ⟨fun queued => absurd queued none,
    fun ⟨id, eventId, payload, member⟩ => absurd member (unqueued id eventId payload)⟩

/-- A request that arrives is answered, or looks up the event that it names. -/
theorem arrived_based {ask : Nat} {request : Ask} (asked : .asked ask request ∈ past)
    (unqueued : Unqueued past ask) : (arrived casing enabled request).Based past ask := by
  cases request with
  | api eventId given =>
    simp only [arrived]
    split
    · exact answered_based unqueued id
    · split
      · exact answered_based unqueued id
      · split
        · exact answered_based unqueued id
        · exact ⟨asked, rfl, unqueued⟩
  | form eventId destination method =>
    simp only [arrived]
    split
    · exact answered_based unqueued id
    · exact ⟨asked, rfl, unqueued⟩

/-- What follows a lookup is an answer without a job, or the request is accepted. -/
theorem looked_cases (request : Ask) (eventId : ObjectId) (resolver : Str → Nat → Resolution)
    (now : Instant) :
    (∃ reply, ¬ reply.Queued ∧
        looked casing urls config enabled request eventId resolver now = .answered reply) ∨
      ∃ payload target, enabled = true ∧ validateReplay casing request.given = .ok payload ∧
        validate urls resolver payload.destination config = .ok target ∧
        looked casing urls config enabled request eventId resolver now =
          .inserting request eventId payload now := by
  unfold looked
  cases enabled with
  | false => exact .inl ⟨_, id, if_pos rfl⟩
  | true =>
    simp only [Bool.true_eq_false, ↓reduceIte]
    cases accepted : validateReplay casing request.given with
    | error errors => exact .inl ⟨_, id, rfl⟩
    | ok payload =>
      dsimp only
      cases vetted : validate urls resolver payload.destination config with
      | error rejection =>
        refine .inl ⟨refusal request rejection, ?_, rfl⟩
        cases rejection with
        | unicodeError => exact id
        | osError => exact id
        | destinationError message => cases request <;> exact id
      | ok target => exact .inr ⟨payload, target, trivial, rfl, vetted, rfl⟩

/-! ## One step -/

/-- What a step keeps and what it adds to the notes. -/
structure Kept (casing : Casing) (urls : UrlApi) (config : ReplayConfig) (enabled : Bool)
    (past notes : List Note) (after : State) : Prop where
  based : Based config (past ++ notes) after
  justified : ∀ note ∈ notes, Justified casing urls config enabled past note

/-- No notes queue nothing. -/
theorem silent_nil : Silent [] := fun _ _ _ _ => List.not_mem_nil

/-- A request is answered without a job. -/
theorem answered_kept (based : Based config past system) {ask : Nat} {reply : Reply}
    (unqueued : Unqueued past ask) (none : ¬ reply.Queued) :
    Kept casing urls config enabled past [] (system.move ask (.answered reply)) :=
  ⟨(based.append silent_nil).move (answered_based (unqueued.append (silent_nil ask)) none),
    fun _ member => absurd member List.not_mem_nil⟩

/-- A request arrives. -/
theorem arrive_kept (based : Based config past system) (request : Ask) :
    Kept casing urls config enabled past [.asked system.asks.length request]
      { system with asks := system.asks ++ [arrived casing enabled request] } where
  based := by
    have silent : Silent [.asked system.asks.length request] := by
      intro ask id eventId payload member
      cases List.mem_singleton.mp member
    have extended := based.append silent
    refine ⟨extended.events, ?_, ?_, extended.stored, extended.held, extended.jobs⟩
    · intro ask place standing
      rw [List.getElem?_append] at standing
      split at standing
      · exact extended.asks ask place standing
      · rename_i far
        obtain ⟨position, rfl⟩ := List.getElem?_eq_some_iff.mp standing
        have last : ask = system.asks.length := by
          simp only [List.length_singleton] at position
          omega
        simp only [last, Nat.sub_self, List.getElem_cons_zero]
        exact arrived_based (by simp) (extended.beyond _ (Nat.le_refl _))
    · intro ask far
      rw [List.length_append] at far
      exact extended.beyond ask (Nat.le_of_add_right_le far)
  justified note member := by
    obtain rfl := List.mem_singleton.mp member
    trivial

/-- A request looks up its event. -/
theorem look_kept (based : Based config past system) {ask : Nat}
    {resolver : Str → Nat → Resolution}
    (taken : step casing urls config enabled system (.look ask resolver) = some after) :
    Kept casing urls config enabled past
      (noted casing urls config enabled system (.look ask resolver)) after := by
  simp only [step] at taken
  simp only [noted]
  split at taken
  · rename_i request eventId standing
    obtain rfl := Option.some.inj taken
    obtain ⟨asked, names, unqueued⟩ := based.asks ask _ standing
    by_cases present : eventId ∈ system.events
    · rw [if_pos present, if_pos present]
      rcases @looked_cases casing urls config enabled request eventId resolver
        system.queue.clock with ⟨reply, none, same⟩ | ⟨payload, target, on, valid, vetted, same⟩
      · rw [same]
        exact answered_kept based unqueued none
      · rw [same]
        have silent : Silent [.accepted ask eventId payload resolver] := by
          intro other id eventId payload member
          cases List.mem_singleton.mp member
        refine ⟨(based.append silent).move ⟨⟨resolver, by simp⟩, unqueued.append (silent ask)⟩, ?_⟩
        intro note member
        obtain rfl := List.mem_singleton.mp member
        exact ⟨on, based.events eventId present, ⟨request, asked, names, valid⟩, target, vetted⟩
    · rw [if_neg present, if_neg present]
      exact answered_kept based unqueued id
  · cases taken

/-- A job that is inserted is queued by its request alone. -/
theorem queued_based (based : Based config past system) {ask : Nat} {request : Ask}
    {id eventId : ObjectId} {payload : ReplayCreate} {now : Instant} {grown : Replays}
    (there : ask < system.asks.length)
    (inserted : enqueue system.queue.replays id eventId payload now config = some grown) :
    Based config (past ++ [.queued ask id eventId payload])
      { system.move ask (.answered (done request eventId id)) with
        queue := { system.queue with replays := grown } } := by
  have member : .queued ask id eventId payload ∈
      past ++ [Note.queued ask id eventId payload] := by simp
  have silent : ∀ other, other ≠ ask → Unqueued [.queued ask id eventId payload] other := by
    intro other differs fresh event given noted
    exact differs (Note.queued.inj (List.mem_singleton.mp noted)).1
  constructor
  case events => exact fun event stored => List.mem_append_left _ (based.events event stored)
  case held => exact fun worker replay holding => (based.held worker replay holding).append _
  case asks =>
    intro other place found
    change (system.asks.set ask _)[other]? = some place at found
    rw [List.getElem?_set] at found
    split at found
    · rename_i same
      subst same
      obtain rfl := Option.some.inj found
      refine ⟨fun _ => ⟨id, eventId, payload, member⟩, fun _ => ?_⟩
      cases request <;> trivial
    · rename_i differs
      exact (based.asks other place found).append (silent other (Ne.symm differs))
  case beyond =>
    intro other far
    change (system.asks.set ask _).length ≤ other at far
    rw [List.length_set] at far
    exact (based.beyond other far).append (silent other (by omega))
  case stored =>
    intro wanted replay found
    rw [find_enqueue inserted] at found
    split at found
    · obtain rfl := Option.some.inj found
      exact ⟨ask, payload, member, rfl, rfl, rfl, rfl⟩
    · exact (based.stored wanted replay found).append _
  case jobs =>
    intro other wanted event given noted
    rw [find_enqueue inserted]
    split
    · rfl
    · rename_i differs
      cases List.mem_append.mp noted with
      | inl earlier => exact based.jobs other wanted event given earlier
      | inr later => exact absurd (Note.queued.inj (List.mem_singleton.mp later)).2.1 differs

/-- A request inserts its job. -/
theorem insert_kept (based : Based config past system) {ask : Nat} {id : ObjectId}
    (taken : step casing urls config enabled system (.insert ask id) = some after) :
    Kept casing urls config enabled past
      (noted casing urls config enabled system (.insert ask id)) after := by
  simp only [step] at taken
  simp only [noted]
  split at taken
  · rename_i request eventId payload now standing
    obtain ⟨accepted, unqueued⟩ := based.asks ask _ standing
    by_cases written : writable payload = true
    · rw [if_pos written] at taken ⊢
      obtain ⟨queue, enqueued, rfl⟩ := Option.map_eq_some_iff.mp taken
      obtain ⟨grown, inserted, rfl⟩ := Queue.step_enqueue enqueued
      have there : ask < system.asks.length := (List.getElem?_eq_some_iff.mp standing).1
      refine ⟨queued_based based there inserted, ?_⟩
      intro note noted
      obtain rfl := List.mem_singleton.mp noted
      have free : system.queue.replays.find id = none := Collection.insert_fresh inserted
      refine ⟨accepted, unqueued, fun other event given earlier => ?_⟩
      have held := based.jobs other id event given earlier
      rw [free] at held
      cases held
    · rw [if_neg written] at taken ⊢
      obtain rfl := Option.some.inj taken
      exact answered_kept based unqueued (fun none => none)
  · cases taken

/-- What a request gave, with the job and its event. -/
def given (replay : ReplayDoc) : ObjectId × ObjectId × Str × Str × Dict Str Str × Int :=
  (replay.id, replay.eventId, replay.destination, replay.method, replay.headers,
    replay.maxAttempts)

/-- A document with the same of it has the same root. -/
theorem Rooted.congr {replay later : ReplayDoc} (rooted : Rooted config past replay)
    (same : given later = given replay) : Rooted config past later := by
  obtain ⟨ask, payload, queued, carries⟩ := rooted
  simp only [given, Prod.mk.injEq] at same
  obtain ⟨sameId, sameEvent, destination, method, headers, maxAttempts⟩ := same
  exact ⟨ask, payload, sameId ▸ sameEvent ▸ queued, destination.trans carries.destination,
    method.trans carries.method, headers.trans carries.headers,
    maxAttempts.trans carries.maxAttempts⟩

/-- A settlement leaves what a request gave. -/
theorem given_apply (settlement : Settlement) (replay : ReplayDoc) :
    given (settlement.apply replay) = given replay := by
  rcases settlement with ⟨attempt, settled⟩ | ⟨reason, completedAt⟩
  · cases settled <;> rfl
  · rfl

/-- What a worker's step delivers is one job that it holds, and queues nothing. -/
theorem delivers_cases (system : State) (label : Queue.Label) :
    delivers system label = [] ∨ ∃ worker replay,
      (system.queue.workers worker).held = some replay ∧
        delivers system label = [.delivered worker replay] := by
  unfold delivers
  split
  · split
    · rename_i worker _ replay standing
      exact .inr ⟨worker, replay, by rw [standing]; rfl, rfl⟩
    · exact .inl rfl
  · exact .inl rfl

/-- A worker takes a step. -/
theorem worker_kept (based : Based config past system) {label : Queue.Label}
    (taken : step casing urls config enabled system (.worker label) = some after) :
    Kept casing urls config enabled past (delivers system label) after := by
  obtain ⟨allowed, moved⟩ := Option.ite_none_right_eq_some.mp taken
  obtain ⟨queue, went, rfl⟩ := Option.map_eq_some_iff.mp moved
  have silent : Silent (delivers system label) := by
    rcases delivers_cases system label with none | ⟨worker, replay, _, one⟩
    · rw [none]
      exact silent_nil
    · rw [one]
      intro ask id eventId payload member
      cases List.mem_singleton.mp member
  have extended := based.append silent
  refine ⟨⟨extended.events, extended.asks, extended.beyond, ?_, ?_, ?_⟩, ?_⟩
  · intro id replay found
    cases Queue.step_written went id with
    | kept _ same => exact extended.stored id replay (same.symm.trans found)
    | inserted eventId payload now => cases allowed
    | reclaimed worker now cutoff old _ located _ result =>
      obtain rfl := Option.some.inj (result.symm.trans found)
      exact (extended.stored id old located).congr rfl
    | claimed worker now old located _ result =>
      obtain rfl := Option.some.inj (result.symm.trans found)
      exact (extended.stored id old located).congr rfl
    | settled worker held old settlement _ _ located result =>
      obtain rfl := Option.some.inj (result.symm.trans found)
      exact (extended.stored id old located).congr (given_apply settlement old)
  · intro worker replay holding
    rcases Queue.step_held went holding with before | ⟨now, old, _, located, rfl⟩
    · exact extended.held worker replay before
    · exact (extended.stored _ old located).congr rfl
  · intro ask id eventId payload noted
    obtain ⟨old, found⟩ := Option.isSome_iff_exists.mp (extended.jobs ask id eventId payload noted)
    obtain ⟨later, kept, _⟩ := Queue.step_grows went found
    exact Option.isSome_iff_exists.mpr ⟨later, kept⟩
  · intro note noted
    rcases delivers_cases system label with none | ⟨worker, replay, holding, one⟩
    · rw [none] at noted
      cases noted
    · rw [one] at noted
      obtain rfl := List.mem_singleton.mp noted
      exact based.held worker replay holding

/-- Every step keeps what everything rests on, and what it notes is justified. -/
theorem step_kept (based : Based config past system) {label : Label}
    (taken : step casing urls config enabled system label = some after) :
    Kept casing urls config enabled past (noted casing urls config enabled system label) after := by
  cases label with
  | arrive request =>
    obtain rfl := Option.some.inj taken
    exact arrive_kept based request
  | look ask resolver => exact look_kept based taken
  | insert ask id => exact insert_kept based taken
  | worker label => exact worker_kept based taken
  | received event =>
    obtain rfl := Option.some.inj taken
    have silent : Silent [.received event] := by
      intro ask id eventId payload member
      cases List.mem_singleton.mp member
    have extended := based.append silent
    refine ⟨⟨?_, extended.asks, extended.beyond, extended.stored, extended.held, extended.jobs⟩,
      fun note member => ?_⟩
    · intro other member
      cases List.mem_cons.mp member with
      | inl same => exact List.mem_append_right _ (same ▸ List.mem_singleton_self _)
      | inr old => exact extended.events other old
    · obtain rfl := List.mem_singleton.mp member
      trivial
  | removed event =>
    obtain rfl := Option.some.inj taken
    have extended := based.append silent_nil
    exact ⟨⟨fun other member => extended.events other (List.mem_of_mem_filter member),
      extended.asks, extended.beyond, extended.stored, extended.held, extended.jobs⟩,
      fun _ member => absurd member List.not_mem_nil⟩

/-- A step notes at most one thing. -/
theorem noted_once (system : State) (label : Label) :
    (noted casing urls config enabled system label).length ≤ 1 := by
  cases label with
  | arrive request => exact Nat.le_refl 1
  | look ask resolver =>
    simp only [noted]
    repeat' split
    all_goals simp
  | insert ask id =>
    simp only [noted]
    repeat' split
    all_goals simp
  | worker label =>
    rcases delivers_cases system label with none | ⟨worker, replay, _, one⟩
    · simp [noted, none]
    · simp [noted, one]
  | received event => exact Nat.le_refl 1
  | removed event => exact Nat.zero_le 1

end

/-! ## Runs -/

/-- The queue is empty, and there are no events and no requests. -/
def initial (clock : Instant) : State := ⟨Queue.initial clock, [], []⟩

/-- Nothing rests on nothing. -/
theorem initial_based (config : ReplayConfig) (clock : Instant) :
    Based config [] (initial clock) where
  events _ member := absurd member List.not_mem_nil
  asks _ _ standing := by cases standing
  beyond _ _ _ _ _ := List.not_mem_nil
  stored _ _ found := by cases found
  held _ _ holding := by cases holding
  jobs _ _ _ _ member := absurd member List.not_mem_nil

/-- Along every run of requests, workers and events, from an empty queue: whatever is
delivered was queued by a request, with the destination, the method and the headers that it
gave; that request asked for an event that was stored, while replays were enabled, with
fields that are valid and a destination that was vetted; it queued that job only. And a
request is answered that a job was queued exactly if one was.

Proof: by induction on the run, since every job that is stored or held, and every request
on its way, rests on what was noted. -/
theorem deliveries_asked (casing : Casing) (urls : UrlApi) (config : ReplayConfig)
    (enabled : Bool) (clock : Instant) {labels : List Label} {final : State}
    (ran : run (step casing urls config enabled) (initial clock) labels = some final) :
    Grounded (Justified casing urls config enabled)
        (trail casing urls config enabled (initial clock) labels) ∧
      ∀ ask reply, final.asks[ask]? = some (.answered reply) →
        (reply.Queued ↔ ∃ id eventId payload, .queued ask id eventId payload ∈
          trail casing urls config enabled (initial clock) labels) := by
  obtain ⟨based, grounded⟩ := run_grounded (step casing urls config enabled)
    (noted casing urls config enabled)
    (fun _ past _ _ (based : Based config past _) taken => (step_kept based taken).based)
    (fun _ _ _ _ based taken => (step_kept based taken).justified) noted_once ran
    (initial_based config clock)
  exact ⟨grounded, fun ask reply standing => based.asks ask _ standing⟩

/-- A request of the form without a destination, and one of the API. -/
def firstAsks : List Ask :=
  [.form (some ⟨7⟩) (lit " ") (lit "post"),
    .api (some ⟨7⟩) { destination := lit " https://example.com/ ", method := lit "put" }]

/-- The second queues a job, and a worker begins to deliver it. -/
def askedSteps : List Label :=
  [.received ⟨7⟩] ++ firstAsks.map .arrive ++
    [.look 0 (fun _ _ => .gaierror), .look 1 (fun _ _ => .addresses [.v4 0x5db8d822]),
      .insert 1 ⟨1⟩, .worker (.begin 0), .worker (.reclaim 0), .worker (.take 0 ⟨1⟩),
      .worker (.lookup 0 true), .worker (.deliver 0)]

/-- The state after these steps. -/
def askedState : State :=
  (run (step Casing.ascii Runner.absoluteUrls {} true) (initial 0) askedSteps).get
    (by decide +kernel)

/-- An event, two requests, one that is accepted and queued, and a delivery are noted. -/
theorem deliveries_asked_once :
    (trail Casing.ascii Runner.absoluteUrls {} true (initial 0) askedSteps).length = 6 ∧
      Grounded (Justified Casing.ascii Runner.absoluteUrls {} true)
        (trail Casing.ascii Runner.absoluteUrls {} true (initial 0) askedSteps) := by
  have reached : run (step Casing.ascii Runner.absoluteUrls {} true) (initial 0) askedSteps =
      some askedState := (Option.some_get _).symm
  exact ⟨by decide +kernel,
    (deliveries_asked Casing.ascii Runner.absoluteUrls {} true 0 reached).1⟩

end WebhookInbox.Requests
