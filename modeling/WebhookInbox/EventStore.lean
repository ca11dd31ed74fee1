import WebhookInbox.Api.Expiry
import WebhookInbox.Library.Documents
import WebhookInbox.Search.Backfill

/-!
# The life of stored events

An event is stored whole. Later an update of its endpoint rewrites its expiry, a backfill
its search terms, and the sweep of the TTL index removes it. A backfill reads the events
through a cursor and writes them in batches, while all other requests go on, so it writes
terms of events as they were some time ago.

`backfill_alone` says that without interference this is the backfill that runs in one go, and
`events_kept` that nothing but terms and expiry of a stored event ever changes, and that it
goes only when it has expired.
-/

namespace WebhookInbox.EventStore

open Library Library.Run Calendar WebhookInbox.Endpoint WebhookInbox.Receiver
  WebhookInbox.Backfill WebhookInbox.Tokenize

/-! ## Operations on stored events -/

/-- The fields that are written after an event was stored. -/
def upkeep (name : Str) : Bool := decide (name = lit "search" ∨ name = lit "expires_at")

/-- What an event is, apart from its upkeep. -/
def core (event : Stored) : Dict Str Bson := event.fields.without upkeep

/-- `{"endpoint.id": id}` -/
def ownedBy (id : ObjectId) (event : Stored) : Bool :=
  Documents.Clause.holds ⟨[lit "endpoint", lit "id"], .id id⟩ (.doc event.fields)

/-- `$dateAdd` of days to a value: null where there is none, and missing where the server
cannot make a date of it or the sum. -/
def addedDays (days : Int) : Option Bson → Option Bson
  | some (.date start) => (dateAddDays start days).map .date
  | some (.objectId id) => (dateAddDays (id.bits.toNat / 2 ^ 64 * 1000) days).map .date
  | some .null => some .null
  | none => some .null
  | _ => none

/-- The update of `reapply` on one event. -/
def rewritten (days : Option Int) (event : Stored) : Option Stored :=
  match days with
  | none => some { event with fields := event.fields.erase (lit "expires_at") }
  | some days => (addedDays days (event.fields.get (lit "received_at"))).map (fun expiry =>
      { event with fields := event.fields.set (lit "expires_at") expiry })

/-- The update keeps the identifier. -/
theorem rewritten_id {days : Option Int} (event changed : Stored)
    (change : rewritten days event = some changed) : changed.id = event.id := by
  cases days with
  | none =>
    obtain rfl := Option.some.inj change
    rfl
  | some days =>
    obtain ⟨expiry, _, rfl⟩ := Option.map_eq_some_iff.mp change
    rfl

/-- `reapply(db, endpoint, config)` -/
def reapply (events : Events) (endpoint : EndpointDoc) (config : RetentionConfig) :
    Events × Bool :=
  events.updateEach (ownedBy endpoint.id) (rewritten (retentionDays endpoint config)) rewritten_id

/-- The TTL index selects the event. -/
def expired (now : Millis) (event : Stored) : Bool :=
  Documents.Clause.holds ⟨[lit "expires_at"], .before now⟩ (.doc event.fields)

/-- The query of a backfill. -/
def due (rebuild : Bool) (event : Stored) : Bool :=
  rebuild || (event.fields.get (lit "search")).isNone

/-! ## The system -/

/-- Where a backfill stands. While it reads, the cursor still owes it events that it found
when it was opened, and others were read but not yet looked at. -/
inductive Fill where
  | idle
  | reading (rebuild : Bool) (owed : List ObjectId) (read : List Stored)
      (operations : List (ObjectId × Terms)) (updated : Nat)
  | writing (operations : List (ObjectId × Terms)) (next : Fill)
  | finished (updated : Nat)
  | failed

/-- The collections, the identifiers that were given out, the requests and the backfills in
progress. -/
structure State where
  endpoints : Endpoints
  events : Events
  given : List ObjectId
  tasks : Nat → Retention.Task
  fills : Nat → Fill

/-- A database call of a request or the sweep, or a step of a backfill. -/
inductive Label where
  | request (label : Retention.Label)
  | opened (fill : Nat) (rebuild : Bool)
  | fetched (fill : Nat) (id : ObjectId)
  | taken (fill : Nat)
  | closed (fill : Nat)
  | wrote (fill : Nat)

/-- The identifier that the driver makes up for an insertion. -/
def fresh : Retention.Label → List ObjectId
  | .insert _ id _ => [id]
  | _ => []

section
variable (world : Environment) (settings : Settings) (casing : Casing) (numerals : Numerals)

/-- The events that a database call leaves. -/
def eventsAfter (system : State) : Retention.Label → Events
  | .insert task id now =>
      match system.tasks task with
      | .receiving request seen =>
          match receive world settings seen request now with
          | .inserted doc =>
              if Storable doc then (system.events.insert (stored id doc)).getD system.events
              else system.events
          | _ => system.events
      | _ => system.events
  | .reapply task =>
      match system.tasks task with
      | .reapplying endpoint => (reapply system.events endpoint settings.retention).1
      | _ => system.events
  | .sweep now => system.events.retain (fun event => !expired now event)
  | _ => system.events

/-- Move one backfill. -/
def State.turn (system : State) (fill : Nat) (place : Fill) : State :=
  { system with fills := Function.update system.fills fill place }

/-- `build_from_event` on the first event that was read, and the batch that is full then. -/
def takeNext (rebuild : Bool) (owed : List ObjectId) (document : Stored) (rest : List Stored)
    (operations : List (ObjectId × Terms)) (updated : Nat) : Fill :=
  match buildFromEvent world.search document.fields with
  | none => .failed
  | some terms =>
      let pending := operations ++ [(document.id, terms)]
      if batchSize ≤ pending.length then
        .writing pending (.reading rebuild owed rest [] (updated + pending.length))
      else .reading rebuild owed rest pending updated

/-- One step. A request goes on as it does in the model of the expiries, and leaves whole
events. The driver never makes up an identifier twice. A cursor returns events that the
query selects, and ends when it owes none that is there and is still selected. -/
def step (system : State) : Label → Option State
  | .request label =>
      if ∀ id ∈ fresh label, id ∉ system.given then
        (Retention.step world settings casing numerals
          ⟨system.endpoints, [], system.tasks⟩ label).map (fun moved =>
            { system with
              endpoints := moved.endpoints
              events := eventsAfter world settings system label
              given := system.given ++ fresh label
              tasks := moved.tasks })
      else none
  | .opened fill rebuild =>
      match system.fills fill with
      | .idle => some (system.turn fill
          (.reading rebuild ((system.events.docs.filter (due rebuild)).map Stored.id) [] [] 0))
      | _ => none
  | .fetched fill id =>
      match system.fills fill, system.events.find id with
      | .reading rebuild owed read operations updated, some event =>
          if due rebuild event then some (system.turn fill
            (.reading rebuild (owed.filter (fun other => decide (other ≠ id)))
              (read ++ [event]) operations updated))
          else none
      | _, _ => none
  | .taken fill =>
      match system.fills fill with
      | .reading rebuild owed (document :: rest) operations updated =>
          some (system.turn fill (takeNext world rebuild owed document rest operations updated))
      | _ => none
  | .closed fill =>
      match system.fills fill with
      | .reading rebuild owed [] operations updated =>
          if ∀ id ∈ owed, (system.events.find id).all (fun event => !due rebuild event) then
            some (system.turn fill (if operations = [] then .finished updated
              else .writing operations (.finished (updated + operations.length))))
          else none
      | _ => none
  | .wrote fill =>
      match system.fills fill with
      | .writing ((id, terms) :: rest) next =>
          some { system.turn fill (.writing rest next) with
            events := system.events.updateOne id (Stored.setSearch terms)
              (Stored.setSearch_id terms) }
      | .writing [] next => some (system.turn fill next)
      | _ => none

end

/-! ## What a step does -/

/-- The call that a step makes. -/
def Label.call : Label → Option Retention.Label
  | .request label => some label
  | _ => none

/-- What a backfill may do that leaves the events alone. -/
inductive Turn (world : Environment) (events : Events) : Fill → Fill → Prop where
  | opened (rebuild : Bool) : Turn world events .idle
      (.reading rebuild ((events.docs.filter (due rebuild)).map Stored.id) [] [] 0)
  | fetched (rebuild : Bool) (owed : List ObjectId) (read : List Stored)
      (operations : List (ObjectId × Terms)) (updated : Nat) (event : Stored)
      (present : events.find event.id = some event) (selected : due rebuild event = true) :
      Turn world events (.reading rebuild owed read operations updated)
        (.reading rebuild (owed.filter (fun other => decide (other ≠ event.id)))
          (read ++ [event]) operations updated)
  | taken (rebuild : Bool) (owed : List ObjectId) (document : Stored) (rest : List Stored)
      (operations : List (ObjectId × Terms)) (updated : Nat) :
      Turn world events (.reading rebuild owed (document :: rest) operations updated)
        (takeNext world rebuild owed document rest operations updated)
  | closed (rebuild : Bool) (owed : List ObjectId) (operations : List (ObjectId × Terms))
      (updated : Nat)
      (complete : ∀ id ∈ owed, (events.find id).all (fun event => !due rebuild event) = true) :
      Turn world events (.reading rebuild owed [] operations updated)
        (if operations = [] then .finished updated
          else .writing operations (.finished (updated + operations.length)))
  | ended (next : Fill) : Turn world events (.writing [] next) next

/-- What a step does: a request makes a call, a backfill turns, or it writes the terms of an
event. -/
inductive StepEffect (world : Environment) (settings : Settings) (casing : Casing)
    (numerals : Numerals) (before after : State) : Label → Prop where
  | called (label : Retention.Label) (moved : Retention.State)
      (unused : ∀ id ∈ fresh label, id ∉ before.given)
      (went : Retention.step world settings casing numerals
        ⟨before.endpoints, [], before.tasks⟩ label = some moved)
      (result : after = { before with
        endpoints := moved.endpoints
        events := eventsAfter world settings before label
        given := before.given ++ fresh label
        tasks := moved.tasks }) :
      StepEffect world settings casing numerals before after (.request label)
  | turned (label : Label) (fill : Nat) (place : Fill) (silent : label.call = none)
      (turn : Turn world before.events (before.fills fill) place)
      (result : after = before.turn fill place) :
      StepEffect world settings casing numerals before after label
  | written (fill : Nat) (id : ObjectId) (terms : Terms) (rest : List (ObjectId × Terms))
      (next : Fill) (standing : before.fills fill = .writing ((id, terms) :: rest) next)
      (result : after = { before.turn fill (.writing rest next) with
        events := before.events.updateOne id (Stored.setSearch terms)
          (Stored.setSearch_id terms) }) :
      StepEffect world settings casing numerals before after (.wrote fill)

section
variable {world : Environment} {settings : Settings} {casing : Casing} {numerals : Numerals}

/-- Every step has one of these effects. -/
theorem step_effect {before after : State} {label : Label}
    (made : step world settings casing numerals before label = some after) :
    StepEffect world settings casing numerals before after label := by
  cases label with
  | request label =>
    simp only [step] at made
    split at made
    · rename_i unused
      obtain ⟨moved, went, result⟩ := Option.map_eq_some_iff.mp made
      exact .called label moved unused went result.symm
    · cases made
  | opened fill rebuild =>
    simp only [step] at made
    split at made
    · rename_i standing
      exact .turned _ fill _ rfl (standing ▸ .opened rebuild) (Option.some.inj made).symm
    · cases made
  | fetched fill id =>
    simp only [step] at made
    split at made
    · rename_i rebuild owed read operations updated event standing present
      obtain ⟨_, rfl⟩ := Collection.find_some present
      split at made
      · rename_i selected
        exact .turned _ fill _ rfl (standing ▸ .fetched rebuild owed read operations updated event
          present selected) (Option.some.inj made).symm
      · cases made
    · cases made
  | taken fill =>
    simp only [step] at made
    split at made
    · rename_i rebuild owed document rest operations updated standing
      exact .turned _ fill _ rfl (standing ▸ .taken rebuild owed document rest operations updated)
        (Option.some.inj made).symm
    · cases made
  | closed fill =>
    simp only [step] at made
    split at made
    · rename_i rebuild owed operations updated standing
      split at made
      · rename_i complete
        exact .turned _ fill _ rfl (standing ▸ .closed rebuild owed operations updated complete)
          (Option.some.inj made).symm
      · cases made
    · cases made
  | wrote fill =>
    simp only [step] at made
    split at made
    · rename_i id terms rest next standing
      exact .written fill id terms rest next standing (Option.some.inj made).symm
    · rename_i next standing
      exact .turned _ fill _ rfl (standing ▸ .ended next) (Option.some.inj made).symm
    · cases made

/-! ## What an event is -/

/-- A field that is not upkeep is part of what an event is. -/
theorem get_core (event : Stored) {name : Str} (other : upkeep name = false) :
    (core event).get name = event.fields.get name :=
  Dict.get_without event.fields other

/-- Writing terms does not change it. -/
theorem core_setSearch (terms : Terms) (event : Stored) :
    core (event.setSearch terms) = core event :=
  Dict.without_set event.fields (by decide) _

/-- Nor does rewriting the expiry. -/
theorem core_rewritten {days : Option Int} {event changed : Stored}
    (change : rewritten days event = some changed) : core changed = core event := by
  cases days with
  | none =>
    obtain rfl := Option.some.inj change
    exact Dict.without_erase event.fields (by decide)
  | some days =>
    obtain ⟨expiry, _, rfl⟩ := Option.map_eq_some_iff.mp change
    exact Dict.without_set event.fields (by decide) _

/-- The terms are derived from what an event is. -/
theorem buildFromEvent_core {first second : Stored} (same : core first = core second) :
    buildFromEvent world.search first.fields = buildFromEvent world.search second.fields := by
  have agree : ∀ name, upkeep name = false → first.fields.get name = second.fields.get name := by
    intro name other
    rw [← get_core first other, same, get_core second other]
  rw [buildFromEvent, buildFromEvent, agree (lit "request") (by decide),
    agree (lit "endpoint") (by decide), agree (lit "event_type") (by decide)]

/-- Rewriting the expiry leaves the terms. -/
theorem search_rewritten {days : Option Int} {event changed : Stored}
    (change : rewritten days event = some changed) :
    changed.fields.get (lit "search") = event.fields.get (lit "search") := by
  have other : lit "search" ≠ lit "expires_at" := by decide
  cases days with
  | none =>
    obtain rfl := Option.some.inj change
    exact (Dict.get_erase _ _ _).trans (if_neg other)
  | some days =>
    obtain ⟨expiry, _, rfl⟩ := Option.map_eq_some_iff.mp change
    exact (Dict.get_set _ _ _ _).trans (if_neg other)

/-- Written terms are there. -/
theorem search_setSearch (terms : Terms) (event : Stored) :
    (event.setSearch terms).fields.get (lit "search") = some (termsBson terms) :=
  (Dict.get_set _ _ _ _).trans (if_pos rfl)

/-- An event is settled if the terms that are there are the derived ones. -/
theorem settled_of_search {event : Stored} {terms : Terms}
    (derived : buildFromEvent world.search event.fields = some terms)
    (present : event.fields.get (lit "search") = some (termsBson terms)) :
    Settled world.search event :=
  ⟨terms, derived, by simp only [Stored.setSearch, Dict.set_get present]⟩

/-- The terms of a settled event. -/
theorem settled_search {event : Stored} (settled : Settled world.search event) :
    ∃ terms, buildFromEvent world.search event.fields = some terms ∧
      event.fields.get (lit "search") = some (termsBson terms) := by
  obtain ⟨terms, derived, same⟩ := settled
  exact ⟨terms, derived, same ▸ search_setSearch terms event⟩

/-- An event stays settled while its terms and what it is stay. -/
theorem settled_congr {before after : Stored} (settled : Settled world.search before)
    (same : core after = core before)
    (kept : after.fields.get (lit "search") = before.fields.get (lit "search")) :
    Settled world.search after := by
  obtain ⟨terms, derived, present⟩ := settled_search settled
  exact settled_of_search ((buildFromEvent_core same).trans derived) (kept.trans present)

/-! ## Events under old identifiers -/

/-- What a step does to the event under an identifier that was given out before. -/
inductive EventEffect (before after : State) (id : ObjectId) (label : Label) : Prop where
  | kept (same : after.events.find id = before.events.find id)
  | changed (days : Option Int) (event result : Stored)
      (present : before.events.find id = some event) (change : rewritten days event = some result)
      (left : after.events.find id = some result)
  | filled (fill : Nat) (terms : Terms) (rest : List (ObjectId × Terms)) (next : Fill)
      (event : Stored) (standing : before.fills fill = .writing ((id, terms) :: rest) next)
      (present : before.events.find id = some event)
      (left : after.events.find id = some (event.setSearch terms))
  | swept (now : Millis) (event : Stored) (sweeping : label = .request (.sweep now))
      (present : before.events.find id = some event) (expires : expired now event = true)
      (left : after.events.find id = none)

/-- A call does one of these to it. -/
theorem call_find {before : State} {label : Retention.Label} {id : ObjectId}
    (unused : ∀ newest ∈ fresh label, newest ∉ before.given) (old : id ∈ before.given)
    {after : State} (left : after.events = eventsAfter world settings before label) :
    EventEffect before after id (.request label) := by
  cases label with
  | insert task newest now =>
    have other : id ≠ newest := by
      rintro rfl
      exact unused id List.mem_cons_self old
    refine .kept ?_
    rw [left]
    simp only [eventsAfter]
    split
    · split
      · rename_i doc _
        split
        · cases inserted : before.events.insert (stored newest doc) with
          | none => rfl
          | some grown =>
            rw [Option.getD_some, Collection.find_insert inserted]
            exact if_neg other
        · rfl
      · rfl
    · rfl
  | reapply task =>
    simp only [eventsAfter] at left
    split at left
    · rename_i endpoint _
      rcases Collection.find_updateEach before.events (ownedBy endpoint.id)
        (rewritten (retentionDays endpoint settings.retention)) rewritten_id id with
        same | ⟨event, result, present, _, change, found⟩
      · exact .kept (left ▸ same)
      · exact .changed _ event result present change (left ▸ found)
    · exact .kept (left ▸ rfl)
  | sweep now =>
    have found := Collection.find_retain before.events (fun event => !expired now event) id
    change after.events = before.events.retain (fun event => !expired now event) at left
    rw [← left] at found
    cases present : before.events.find id with
    | none => exact .kept (by rw [found, present]; rfl)
    | some event =>
      rw [present, Option.filter_some] at found
      cases expires : expired now event with
      | true => exact .swept now event rfl present expires (by simpa [expires] using found)
      | false => exact .kept (by rw [present]; simpa [expires] using found)
  | arrive task request => exact .kept (left ▸ rfl)
  | patch task target given now => exact .kept (left ▸ rfl)
  | save task target form now => exact .kept (left ▸ rfl)
  | write task => exact .kept (left ▸ rfl)

/-- So does a step. -/
theorem step_find {before after : State} {label : Label} {id : ObjectId}
    (made : step world settings casing numerals before label = some after)
    (old : id ∈ before.given) : EventEffect before after id label := by
  cases step_effect made with
  | called label moved unused went result => exact call_find unused old (congrArg State.events result)
  | turned _ fill place silent turn result => exact .kept (result ▸ rfl)
  | written fill target terms rest next standing result =>
    have found := Collection.find_updateOne before.events target id (Stored.setSearch terms)
      (Stored.setSearch_id terms)
    have left : after.events.find id = if id = target
        then (before.events.find id).map (Stored.setSearch terms) else before.events.find id := by
      rw [result]
      exact found
    by_cases same : id = target
    · subst same
      rw [if_pos rfl] at left
      cases present : before.events.find id with
      | none => exact .kept (by rw [left, present]; rfl)
      | some event =>
        rw [present] at left
        exact .filled fill terms rest next event standing present left
    · rw [if_neg same] at left
      exact .kept left

/-- What is under an old identifier is what was there. -/
theorem EventEffect.core_eq {before after : State} {id : ObjectId} {label : Label}
    (effect : EventEffect before after id label) {event : Stored}
    (left : after.events.find id = some event) :
    ∃ earlier, before.events.find id = some earlier ∧ core event = core earlier := by
  cases effect with
  | kept same => exact ⟨event, same ▸ left, rfl⟩
  | changed days earlier result present change found =>
    obtain rfl := Option.some.inj (left.symm.trans found)
    exact ⟨earlier, present, core_rewritten change⟩
  | filled fill terms rest next earlier standing present found =>
    obtain rfl := Option.some.inj (left.symm.trans found)
    exact ⟨earlier, present, core_setSearch terms earlier⟩
  | swept now earlier sweeping present expires gone =>
    rw [gone] at left
    cases left

/-- Identifiers stay given out. -/
theorem given_mono {before after : State} {label : Label} {id : ObjectId}
    (made : step world settings casing numerals before label = some after)
    (old : id ∈ before.given) : id ∈ after.given := by
  cases step_effect made with
  | called label moved unused went result => exact result ▸ List.mem_append_left _ old
  | turned _ fill place silent turn result => exact result ▸ old
  | written fill target terms rest next standing result => exact result ▸ old

/-- An event that a call leaves was there, or is a new one under the identifier made up for
it. -/
theorem call_known {before : State} {label : Retention.Label} {event : Stored}
    (member : event ∈ (eventsAfter world settings before label).docs) :
    (∃ earlier ∈ before.events.docs, earlier.id = event.id) ∨
      ∃ id ∈ fresh label, ∃ doc, event = stored id doc := by
  cases label with
  | insert task newest now =>
    simp only [eventsAfter] at member
    split at member
    · split at member
      · rename_i doc _
        split at member
        · cases inserted : before.events.insert (stored newest doc) with
          | none =>
            rw [inserted] at member
            exact .inl ⟨event, member, rfl⟩
          | some grown =>
            rw [inserted] at member
            rcases (Collection.mem_insert inserted event).mp member with old | rfl
            · exact .inl ⟨event, old, rfl⟩
            · exact .inr ⟨newest, List.mem_cons_self, doc, rfl⟩
        · exact .inl ⟨event, member, rfl⟩
      · exact .inl ⟨event, member, rfl⟩
    · exact .inl ⟨event, member, rfl⟩
  | reapply task =>
    simp only [eventsAfter] at member
    split at member
    · rename_i endpoint _
      have found := Collection.find_of_mem member
      rcases Collection.find_updateEach before.events (ownedBy endpoint.id)
        (rewritten (retentionDays endpoint settings.retention)) rewritten_id event.id with
        same | ⟨earlier, result, present, _⟩
      · have here : before.events.find event.id = some event := same ▸ found
        exact .inl ⟨event, (Collection.find_some here).1, rfl⟩
      · exact .inl ⟨earlier, Collection.find_some present⟩
    · exact .inl ⟨event, member, rfl⟩
  | sweep now => exact .inl ⟨event, List.mem_of_mem_filter member, rfl⟩
  | arrive task request => exact .inl ⟨event, member, rfl⟩
  | patch task target given now => exact .inl ⟨event, member, rfl⟩
  | save task target form now => exact .inl ⟨event, member, rfl⟩
  | write task => exact .inl ⟨event, member, rfl⟩

/-- So does a step. -/
theorem step_known {before after : State} {label : Label}
    (made : step world settings casing numerals before label = some after)
    (known : ∀ event ∈ before.events.docs, event.id ∈ before.given) :
    ∀ event ∈ after.events.docs, event.id ∈ after.given := by
  intro event member
  cases step_effect made with
  | called label moved unused went result =>
    rw [result] at member ⊢
    rcases call_known member with ⟨earlier, old, same⟩ | ⟨id, newest, doc, rfl⟩
    · exact List.mem_append_left _ (same ▸ known earlier old)
    · exact List.mem_append_right _ newest
  | turned _ fill place silent turn result =>
    rw [result] at member ⊢
    exact known event member
  | written fill target terms rest next standing result =>
    rw [result] at member ⊢
    obtain ⟨earlier, old, rfl⟩ := (Collection.mem_updateOne before.events target
      (Stored.setSearch terms) (Stored.setSearch_id terms) event).mp member
    split
    · exact known earlier old
    · exact known earlier old

/-- What a step does to a backfill: nothing, or it turns and the events stay, or it writes
an operation. -/
theorem step_fill {before after : State} {label : Label}
    (made : step world settings casing numerals before label = some after) (fill : Nat) :
    after.fills fill = before.fills fill ∨
      (Turn world before.events (before.fills fill) (after.fills fill) ∧
        after.events = before.events) ∨
      ∃ id terms rest next, before.fills fill = .writing ((id, terms) :: rest) next ∧
        after.fills fill = .writing rest next ∧
        after.events = before.events.updateOne id (Stored.setSearch terms)
          (Stored.setSearch_id terms) := by
  cases step_effect made with
  | called label moved unused went result =>
    exact .inl (congrFun (congrArg State.fills result) fill)
  | turned _ mover place silent turn result =>
    by_cases same : fill = mover
    · subst same
      have here : after.fills fill = place := by simp [result, State.turn]
      exact .inr (.inl ⟨here ▸ turn, by rw [result]; rfl⟩)
    · exact .inl (by simp [result, State.turn, same])
  | written mover target terms rest next standing result =>
    by_cases same : fill = mover
    · subst same
      exact .inr (.inr ⟨target, terms, rest, next, standing, by simp [result, State.turn],
        congrArg State.events result⟩)
    · exact .inl (by simp [result, State.turn, same])

/-! ## A backfill on its own -/

/-- A backfill that was moved stands where it was moved to. -/
theorem State.turn_fills (system : State) (fill : Nat) (place : Fill) :
    (system.turn fill place).fills fill = place :=
  Function.update_self _ _ _

/-- Without interference the operations are written one after the other. -/
theorem write_alone (operations : List (ObjectId × Terms)) (next : Fill) (fill : Nat)
    {system : State} (standing : system.fills fill = .writing operations next) :
    ∃ labels, run (step world settings casing numerals) system labels =
      some { system.turn fill next with events := bulkWrite system.events operations } := by
  induction operations generalizing system with
  | nil =>
    refine ⟨[.wrote fill], ?_⟩
    simp only [run, step, standing, Option.bind_some]
    rfl
  | cons operation rest inductionHypothesis =>
    obtain ⟨id, terms⟩ := operation
    let after : State := { system.turn fill (.writing rest next) with
      events := system.events.updateOne id (Stored.setSearch terms) (Stored.setSearch_id terms) }
    have made : step world settings casing numerals system (.wrote fill) = some after := by
      simp only [step, standing, after]
    obtain ⟨labels, ran⟩ := @inductionHypothesis after (by simp [after, State.turn])
    refine ⟨.wrote fill :: labels, ?_⟩
    rw [run, made, Option.bind_some, ran]
    simp [after, State.turn, bulkWrite]

/-- Where a backfill stands at its end. -/
def ending : Option Nat → Fill
  | some updated => .finished updated
  | none => .failed

/-- Without interference the events that were read are looked at and written in batches. -/
theorem take_alone (rebuild : Bool) (fill : Nat) (read : List Stored)
    (operations : List (ObjectId × Terms)) (updated : Nat) {system : State}
    (standing : system.fills fill = .reading rebuild [] read operations updated) :
    ∃ labels, run (step world settings casing numerals) system labels = some
      { system.turn fill
          (ending (backfillFrom world.search system.events operations updated read).2) with
        events := (backfillFrom world.search system.events operations updated read).1 } := by
  induction read generalizing system operations updated with
  | nil =>
    have made : step world settings casing numerals system (.closed fill) =
        some (system.turn fill (if operations = [] then .finished updated
          else .writing operations (.finished (updated + operations.length)))) := by
      simp [step, standing]
    rw [backfillFrom]
    by_cases empty : operations = []
    · rw [if_pos empty] at made ⊢
      refine ⟨[.closed fill], ?_⟩
      rw [run, made]
      rfl
    · rw [if_neg empty] at made ⊢
      obtain ⟨labels, ran⟩ := @write_alone world settings casing numerals operations
        (.finished (updated + operations.length)) fill _
        (State.turn_fills _ _ _)
      refine ⟨.closed fill :: labels, ?_⟩
      rw [run, made, Option.bind_some, ran]
      simp [State.turn, ending]
  | cons document rest inductionHypothesis =>
    have made : step world settings casing numerals system (.taken fill) =
        some (system.turn fill (takeNext world rebuild [] document rest operations updated)) := by
      simp only [step, standing]
    rw [backfillFrom]
    unfold takeNext at made
    cases derived : buildFromEvent world.search document.fields with
    | none =>
      rw [derived] at made
      refine ⟨[.taken fill], ?_⟩
      rw [run, made]
      rfl
    | some terms =>
      rw [derived] at made
      dsimp only at made ⊢
      by_cases full : batchSize ≤ (operations ++ [(document.id, terms)]).length
      · rw [if_pos full] at made ⊢
        obtain ⟨writes, wrote⟩ := @write_alone world settings casing numerals
          (operations ++ [(document.id, terms)]) (.reading rebuild [] rest []
            (updated + (operations ++ [(document.id, terms)]).length)) fill _
          (State.turn_fills _ _ _)
        obtain ⟨labels, ran⟩ := @inductionHypothesis []
          (updated + (operations ++ [(document.id, terms)]).length)
          { system.turn fill (.reading rebuild [] rest []
              (updated + (operations ++ [(document.id, terms)]).length)) with
            events := bulkWrite system.events (operations ++ [(document.id, terms)]) }
          (State.turn_fills system fill _)
        refine ⟨.taken fill :: (writes ++ labels), ?_⟩
        rw [run, made, Option.bind_some, run_append, wrote, Option.bind_some]
        simpa [State.turn] using ran
      · rw [if_neg full] at made ⊢
        obtain ⟨labels, ran⟩ := @inductionHypothesis (operations ++ [(document.id, terms)]) updated _
          (State.turn_fills _ _ _)
        refine ⟨.taken fill :: labels, ?_⟩
        rw [run, made, Option.bind_some, ran]
        simp [State.turn]

/-- Without interference the cursor returns what was selected when it was opened. -/
theorem fetch_alone (rebuild : Bool) (fill : Nat) (found : List Stored) (owed : List ObjectId)
    (read : List Stored) {system : State}
    (standing : system.fills fill = .reading rebuild owed read [] 0)
    (selected : ∀ event ∈ found, event ∈ system.events.docs ∧ due rebuild event = true) :
    run (step world settings casing numerals) system
      (found.map (fun event => .fetched fill event.id)) = some (system.turn fill
        (.reading rebuild (owed.filter (fun id => decide (id ∉ found.map Stored.id)))
          (read ++ found) [] 0)) := by
  induction found generalizing system owed read with
  | nil =>
    have same : system.turn fill (.reading rebuild owed read [] 0) = system := by
      rw [State.turn, ← standing, Function.update_eq_self]
    simp [run, same]
  | cons event rest inductionHypothesis =>
    obtain ⟨member, due⟩ := selected event List.mem_cons_self
    have made : step world settings casing numerals system (.fetched fill event.id) =
        some (system.turn fill (.reading rebuild
          (owed.filter (fun other => decide (other ≠ event.id))) (read ++ [event]) [] 0)) := by
      simp only [step, standing, Collection.find_of_mem member, due, ↓reduceIte]
    rw [List.map_cons, run, made, Option.bind_some,
      @inductionHypothesis _ _ _ (State.turn_fills _ _ _)
        (fun other later => selected other (List.mem_cons_of_mem _ later))]
    have others : (owed.filter (fun other => decide (other ≠ event.id))).filter
        (fun id => decide (id ∉ rest.map Stored.id)) =
        owed.filter (fun id => decide (id ∉ (event :: rest).map Stored.id)) := by
      rw [List.filter_filter]
      refine List.filter_congr (fun id _ => ?_)
      rw [List.map_cons, Bool.eq_iff_iff, Bool.and_eq_true, decide_eq_true_eq, decide_eq_true_eq,
        decide_eq_true_eq, List.mem_cons, not_or]
      exact and_comm
    rw [others]
    simp [State.turn]

/-- Without interference a backfill leaves the events that `backfill` leaves, and gets to
its end if that does. -/
theorem backfill_alone (system : State) (fill : Nat) (rebuild : Bool)
    (standing : system.fills fill = .idle) :
    ∃ labels, run (step world settings casing numerals) system labels = some
      { system.turn fill (ending (backfill world.search rebuild system.events).2) with
        events := (backfill world.search rebuild system.events).1 } := by
  have made : step world settings casing numerals system (.opened fill rebuild) =
      some (system.turn fill
        (.reading rebuild ((system.events.docs.filter (due rebuild)).map Stored.id) [] [] 0)) := by
    simp only [step, standing]
  have fetched := @fetch_alone world settings casing numerals rebuild fill
    (system.events.docs.filter (due rebuild)) _ [] _
    (State.turn_fills system fill
      (.reading rebuild ((system.events.docs.filter (due rebuild)).map Stored.id) [] [] 0))
    (fun event member => List.mem_filter.mp member)
  have none : ((system.events.docs.filter (due rebuild)).map Stored.id).filter (fun id =>
      decide (id ∉ (system.events.docs.filter (due rebuild)).map Stored.id)) = [] := by
    rw [List.filter_eq_nil_iff]
    exact fun id member absent => of_decide_eq_true absent member
  rw [none, List.nil_append] at fetched
  obtain ⟨labels, ran⟩ := @take_alone world settings casing numerals rebuild fill
    (system.events.docs.filter (due rebuild)) [] 0 _
    (State.turn_fills _ _ _)
  refine ⟨.opened fill rebuild ::
    ((system.events.docs.filter (due rebuild)).map (fun event => .fetched fill event.id) ++ labels),
    ?_⟩
  rw [run, made, Option.bind_some, run_append, fetched, Option.bind_some, ran]
  simp only [State.turn, Function.update_idem]
  rfl

/-! ## Runs -/

/-- An identifier without an event that was given out stays without. -/
theorem run_gone {start final : State} {labels : List Label} {id : ObjectId}
    (ran : run (step world settings casing numerals) start labels = some final)
    (old : id ∈ start.given) (gone : start.events.find id = none) :
    final.events.find id = none := by
  have held : id ∈ final.given ∧ final.events.find id = none := by
    refine @run_preserves _ _ (step world settings casing numerals)
      (fun system => id ∈ system.given ∧ system.events.find id = none) ?_ _ _ _ ran ⟨old, gone⟩
    rintro before label after ⟨given, absent⟩ made
    refine ⟨given_mono made given, ?_⟩
    cases left : after.events.find id with
    | none => rfl
    | some event =>
      obtain ⟨_, present, _⟩ := (step_find made given).core_eq left
      rw [absent] at present
      cases present
  exact held.2

/-- Whatever requests, backfills and sweeps do, an event that is stored keeps all but its
terms and its expiry, and it goes only by a sweep that comes when it has expired.

Induction on the run: a step leaves the event with what it is, or sweeps it, and then its
identifier is never used again. -/
theorem events_kept {start final : State} {labels : List Label}
    (known : ∀ event ∈ start.events.docs, event.id ∈ start.given)
    (ran : run (step world settings casing numerals) start labels = some final) :
    ∀ event ∈ start.events.docs,
      (∃ after, final.events.find event.id = some after ∧ core after = core event) ∨
      (final.events.find event.id = none ∧
        ∃ before now later middle last,
          labels = before ++ .request (.sweep now) :: later ∧
          run (step world settings casing numerals) start before = some middle ∧
          middle.events.find event.id = some last ∧ core last = core event ∧
          expired now last = true) := by
  intro event member
  suffices kept : ∀ current : Stored, start.events.find event.id = some current →
      core current = core event → _ from
    kept event (Collection.find_of_mem member) rfl
  have old : event.id ∈ start.given := known event member
  clear known member
  intro current present same
  induction labels generalizing start current with
  | nil =>
    obtain rfl : start = final := Option.some.inj ran
    exact .inl ⟨current, present, same⟩
  | cons label rest inductionHypothesis =>
    obtain ⟨next, made, continued⟩ := run_cons_some _ ran
    -- What holds of the rest of the run holds of the whole one.
    have onward : ∀ left, next.events.find event.id = some left → core left = core event →
        (∃ after, final.events.find event.id = some after ∧ core after = core event) ∨
        (final.events.find event.id = none ∧
          ∃ before now later middle last,
            label :: rest = before ++ .request (.sweep now) :: later ∧
            run (step world settings casing numerals) start before = some middle ∧
            middle.events.find event.id = some last ∧ core last = core event ∧
            expired now last = true) := by
      intro left found own
      rcases inductionHypothesis continued (given_mono made old) left found own with kept |
        ⟨gone, before, now, later, middle, last, split, reached, there⟩
      · exact .inl kept
      · refine .inr ⟨gone, label :: before, now, later, middle, last, by rw [split]; rfl, ?_, there⟩
        rw [run, made, Option.bind_some, reached]
    cases step_find made old with
    | kept unchanged => exact onward current (unchanged ▸ present) same
    | changed days earlier result found change left =>
      obtain rfl := Option.some.inj (present.symm.trans found)
      exact onward result left ((core_rewritten change).trans same)
    | filled fill terms operations place earlier standing found left =>
      obtain rfl := Option.some.inj (present.symm.trans found)
      exact onward _ left ((core_setSearch terms current).trans same)
    | swept now earlier sweeping found expires left =>
      obtain rfl := Option.some.inj (present.symm.trans found)
      refine .inr ⟨run_gone continued (given_mono made old) left, [], now, rest, start, current,
        by rw [sweeping]; rfl, rfl, present, same, expires⟩

end

/-! ## A run of all of them -/

/-- The number of events that a finished backfill has updated. -/
def Fill.result : Fill → Option Nat
  | .finished updated => some updated
  | _ => none

theorem Fill.finished_of_result {place : Fill} {updated : Nat}
    (result : place.result = some updated) : place = .finished updated := by
  cases place with
  | finished other => exact congrArg Fill.finished (Option.some.inj result)
  | _ => cases result

/-- One endpoint, no events, and nothing in progress. -/
def empty : State := ⟨githubEndpoints, Collection.empty, [], fun _ => .idle, fun _ => .idle⟩

/-- Where steps lead. -/
def outcome (start : State) (labels : List Label) : Option State :=
  run (step plainWorld {} Casing.ascii Numerals.ascii) start labels

theorem outcome_append {start middle final : State} {before after : List Label}
    (first : outcome start before = some middle) (second : outcome middle after = some final) :
    outcome start (before ++ after) = some final := by
  rw [outcome] at first
  rw [outcome, run_append, first, Option.bind_some]
  exact second

/-- A delivery. -/
def delivering : List Label := [.request (.arrive 0 small), .request (.insert 0 ⟨7⟩ 0)]

/-- A backfill reads its event before an update of the retention, writes it after that, and
comes to its end before the event is swept. -/
def mixed : List Label := [.opened 0 true, .fetched 0 ⟨7⟩, .request (.patch 1 ⟨1⟩ Retention.fiveDays 0),
  .request (.write 1), .taken 0, .request (.reapply 1), .closed 0, .wrote 0, .wrote 0]

/-- The state with the event. -/
def arrived : State := (outcome empty delivering).get (by decide +kernel)

/-- The state after the backfill. -/
def filled : State := (outcome arrived mixed).get (by decide +kernel)

/-- The state after the sweep. -/
def emptied : State :=
  (outcome filled [.request (.sweep 432000001)]).get (by decide +kernel)

/-- The event of the delivery is kept until it has expired. -/
theorem events_kept_mixed : arrived.events.docs.map Stored.id = [⟨7⟩] ∧
    (filled.events.docs.map Stored.id = [⟨7⟩] ∧ emptied.events.docs.map Stored.id = []) ∧
    ∀ event ∈ arrived.events.docs,
      (∃ after, emptied.events.find event.id = some after ∧ core after = core event) ∨
      (emptied.events.find event.id = none ∧
        ∃ before now later middle last,
          mixed ++ [.request (.sweep 432000001)] = before ++ .request (.sweep now) :: later ∧
          outcome arrived before = some middle ∧
          middle.events.find event.id = some last ∧ core last = core event ∧
          expired now last = true) := by
  have ran : outcome arrived (mixed ++ [.request (.sweep 432000001)]) = some emptied :=
    outcome_append (Option.some_get _).symm (Option.some_get _).symm
  exact ⟨by decide +kernel, by decide +kernel, events_kept (by decide +kernel) ran⟩

end WebhookInbox.EventStore
