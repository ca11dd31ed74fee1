import WebhookInbox.EventStore

/-!
# Expiries of whole events

The model of the expiries knows of an event only its endpoint, its arrival and its expiry,
and nothing of backfills. `documents_refine` says that it is right about the events that are
stored whole: whatever it says of its runs it says of theirs.
-/

namespace WebhookInbox.EventStore

open Library Library.Run Calendar WebhookInbox.Endpoint WebhookInbox.Receiver
  WebhookInbox.Backfill WebhookInbox.Tokenize

section
variable {world : Environment} {settings : Settings} {casing : Casing} {numerals : Numerals}

/-! ## What the model of the expiries shows -/

/-- The parts of a stored event that its expiry is about. -/
structure Shows (event : Stored) (shown : Retention.Event) : Prop where
  id : shown.id = event.id
  owner : Documents.reached [lit "endpoint", lit "id"] (.doc event.fields) =
    [.objectId shown.endpointId]
  received : event.fields.get (lit "received_at") = some (.date shown.receivedAt)
  expires : event.fields.get (lit "expires_at") = shown.expiresAt.map Bson.date

/-- Those of an event that is stored. -/
theorem shows_stored (id : ObjectId) (doc : EventDoc) :
    Shows (stored id doc) (Retention.storedEvent id doc) where
  id := rfl
  owner := rfl
  received := rfl
  expires := by
    rw [Retention.storedEvent, Option.map_map]
    cases present : doc.expiresAt with
    | none =>
      simp only [stored, fieldsOf, EventDoc.toBson, present]
      rfl
    | some expiry =>
      simp only [stored, fieldsOf, EventDoc.toBson, present]
      rfl

/-- What is reached does not depend on other fields. -/
theorem Shows.of_fields {event changed : Stored} {shown : Retention.Event}
    (shows : Shows event shown) {expiry : Option Millis} (id : changed.id = event.id)
    (same : ∀ name, name ≠ lit "expires_at" → changed.fields.get name = event.fields.get name)
    (expires : changed.fields.get (lit "expires_at") = expiry.map Bson.date) :
    Shows changed { shown with expiresAt := expiry } where
  id := shows.id.trans id.symm
  owner := by
    rw [← shows.owner, Documents.reached, Documents.reached, Documents.step, Documents.step,
      same (lit "endpoint") (by decide)]
  received := (same _ (by decide)).trans shows.received
  expires := expires

/-- Terms are not shown. -/
theorem Shows.setSearch {event : Stored} {shown : Retention.Event} (shows : Shows event shown)
    (terms : Terms) : Shows (event.setSearch terms) shown where
  id := shows.id
  owner := by
    rw [← shows.owner, Documents.reached, Documents.reached, Documents.step, Documents.step,
      Stored.setSearch, Dict.get_set, if_neg (by decide)]
  received := (Dict.get_set _ _ _ _).trans shows.received
  expires := (Dict.get_set _ _ _ _).trans shows.expires

/-- The update of an expiry is the one that is shown. -/
theorem Shows.rewritten {event : Stored} {shown : Retention.Event} (shows : Shows event shown)
    (days : Option Int) :
    Option.Rel Shows (rewritten days event) (Retention.reapplied days shown) := by
  cases days with
  | none =>
    refine .some (shows.of_fields rfl (fun name other => ?_) ?_)
    · exact (Dict.get_erase _ _ _).trans (if_neg other)
    · exact (Dict.get_erase _ _ _).trans (if_pos rfl)
  | some days =>
    rw [EventStore.rewritten, Retention.reapplied, shows.received, addedDays]
    cases dateAddDays shown.receivedAt days with
    | none => exact .none
    | some expiry =>
      refine .some (shows.of_fields rfl (fun name other => ?_) ?_)
      · exact (Dict.get_set _ _ _ _).trans (if_neg other)
      · exact (Dict.get_set _ _ _ _).trans (if_pos rfl)

/-- So are the endpoint's events. -/
theorem Shows.ownedBy {event : Stored} {shown : Retention.Event} (shows : Shows event shown)
    (id : ObjectId) : ownedBy id event = decide (shown.endpointId = id) := by
  rw [EventStore.ownedBy, Documents.Clause.holds, shows.owner]
  simp [Documents.alternatives, Documents.Condition.holds]

/-- And the expired ones. -/
theorem Shows.expired {event : Stored} {shown : Retention.Event} (shows : Shows event shown)
    (now : Millis) :
    (!expired now event) = shown.expiresAt.all (fun expiry => decide (now ≤ expiry)) := by
  have reached : Documents.reached [lit "expires_at"] (.doc event.fields) =
      (shown.expiresAt.map Bson.date).toList := by
    rw [Documents.reached, Documents.step, shows.expires]
    cases shown.expiresAt <;> rfl
  rw [EventStore.expired, Documents.Clause.holds, reached]
  cases shown.expiresAt with
  | none => rfl
  | some expiry =>
    by_cases late : expiry < now
    · simp [Documents.alternatives, Documents.Condition.holds, late]
    · simp [Documents.alternatives, Documents.Condition.holds, late, not_lt.mp late]

/-- The update of all expiries that is shown changes one event after the other. -/
theorem reapplyAll_eq (id : ObjectId) (days : Option Int) (events : List Retention.Event) :
    Retention.reapplyAll id days events =
      Collection.changeEach (fun event => decide (event.endpointId = id))
        (Retention.reapplied days) events := by
  induction events with
  | nil => rfl
  | cons event rest inductionHypothesis =>
    simp only [Retention.reapplyAll, Collection.changeEach, inductionHypothesis, decide_eq_true_eq]
    split
    · cases Retention.reapplied days event <;> rfl
    · rfl

/-- The events that a call leaves in the model of the expiries. -/
def shownAfter (world : Environment) (settings : Settings) (model : Retention.State) :
    Retention.Label → List Retention.Event
  | .insert task id now =>
      match model.tasks task with
      | .receiving request seen => Retention.received world settings model request seen id now
      | _ => model.events
  | .reapply task =>
      match model.tasks task with
      | .reapplying endpoint => (Retention.reapply model.events endpoint settings.retention).1
      | _ => model.events
  | .sweep now => model.events.filter (fun event =>
      event.expiresAt.all (fun expiry => decide (now ≤ expiry)))
  | _ => model.events

/-- Where a request goes does not depend on the events. -/
theorem retention_step (model : Retention.State) (label : Retention.Label) :
    Retention.step world settings casing numerals model label =
      (Retention.step world settings casing numerals ⟨model.endpoints, [], model.tasks⟩ label).map
        (fun moved => { moved with events := shownAfter world settings model label }) := by
  cases label with
  | arrive task request =>
    simp only [Retention.step]
    cases model.tasks task <;> rfl
  | insert task id now =>
    simp only [Retention.step, shownAfter]
    cases model.tasks task <;> rfl
  | patch task id given now =>
    simp only [Retention.step]
    cases model.tasks task <;> rfl
  | save task id form now =>
    simp only [Retention.step]
    cases model.tasks task <;> rfl
  | write task =>
    simp only [Retention.step]
    cases model.tasks task with
    | updating document changes saved =>
      simp only
      cases model.endpoints.updateOne document.id changes <;> rfl
    | _ => rfl
  | reapply task =>
    simp only [Retention.step, shownAfter]
    cases model.tasks task <;> rfl
  | sweep now => rfl

/-- The model of the expiries shows the state. -/
structure Models (system : State) (model : Retention.State) : Prop where
  endpoints : model.endpoints = system.endpoints
  tasks : model.tasks = system.tasks
  events : List.Forall₂ Shows system.events.docs model.events
  known : ∀ event ∈ system.events.docs, event.id ∈ system.given

/-- The identifiers are shown. -/
theorem Models.ids {system : State} {model : Retention.State} (models : Models system model) :
    model.events.map Retention.Event.id = system.events.docs.map Stored.id := by
  refine List.forall₂_eq_eq_eq ▸ List.forall₂_map_left_iff.mpr (List.forall₂_map_right_iff.mpr ?_)
  exact models.events.flip.imp (fun _ _ shows => shows.id)

/-- A call leaves the events that are shown. -/
theorem Models.call {system : State} {model : Retention.State} (models : Models system model)
    {label : Retention.Label} (unused : ∀ id ∈ fresh label, id ∉ system.given) :
    List.Forall₂ Shows (eventsAfter world settings system label).docs
      (shownAfter world settings model label) := by
  cases label with
  | insert task newest now =>
    simp only [eventsAfter, shownAfter, models.tasks]
    cases system.tasks task with
    | receiving request seen =>
      simp only [Retention.received]
      cases receive world settings seen request now with
      | inserted doc =>
        have absent : newest ∉ system.events.docs.map Stored.id := by
          intro member
          obtain ⟨event, there, same⟩ := List.mem_map.mp member
          exact unused newest List.mem_cons_self (same ▸ models.known event there)
        simp only [models.ids, absent, not_false_eq_true, and_true]
        by_cases fits : Storable doc
        · have grown : system.events.insert (stored newest doc) =
              some ⟨system.events.docs ++ [stored newest doc], _⟩ := dif_neg absent
          rw [if_pos fits, if_pos fits, grown, Option.getD_some]
          exact List.rel_append models.events (.cons (shows_stored newest doc) .nil)
        · rw [if_neg fits, if_neg fits]
          exact models.events
      | failed => exact models.events
      | rejected => exact models.events
    | _ => exact models.events
  | reapply task =>
    simp only [eventsAfter, shownAfter, models.tasks]
    cases system.tasks task with
    | reapplying endpoint =>
      simp only [Retention.reapply, reapplyAll_eq]
      exact (Collection.changeEach_related (fun _ _ shows => shows.ownedBy endpoint.id)
        (fun _ _ shows => shows.rewritten _) models.events).1
    | _ => exact models.events
  | sweep now =>
    refine List.rel_filter (fun event shown shows => ?_) models.events
    exact Eq.congr (shows.expired now) rfl
  | arrive task request => exact models.events
  | patch task id given now => exact models.events
  | save task id form now => exact models.events
  | write task => exact models.events

/-- The expiries of the whole events go as the model of the expiries says, whatever the
backfills do: every run is a run of that model, of the calls that it makes, and the model
shows the end if it shows the start.

Proof: a call does to the events what it does to the parts that are shown, and a backfill
changes terms only. -/
theorem documents_refine {start final : State} {labels : List Label} {model : Retention.State}
    (models : Models start model)
    (ran : run (step world settings casing numerals) start labels = some final) :
    ∃ after, run (Retention.step world settings casing numerals) model
        (labels.filterMap Label.call) = some after ∧ Models final after := by
  refine run_refines (step world settings casing numerals) ?_ ran models
  intro before label next model models made
  have known := step_known made models.known
  cases step_effect made with
  | called label moved unused went result =>
    refine ⟨{ moved with events := shownAfter world settings model label }, ?_, ?_⟩
    · change (Retention.step world settings casing numerals model label).bind _ = _
      rw [retention_step, models.endpoints, models.tasks, went]
      rfl
    · rw [result] at known ⊢
      exact ⟨rfl, rfl, models.call unused, known⟩
  | turned label fill place silent turn result =>
    rw [result] at known ⊢
    exact ⟨model, by rw [silent]; rfl, models.endpoints, models.tasks, models.events, known⟩
  | written fill id terms rest place standing result =>
    rw [result] at known ⊢
    refine ⟨model, rfl, models.endpoints, models.tasks, ?_, known⟩
    change List.Forall₂ Shows (before.events.docs.map (fun doc =>
      if decide (doc.id = id) then doc.setSearch terms else doc)) model.events
    refine List.forall₂_map_left_iff.mpr (models.events.imp ?_)
    intro event shown shows
    split
    · exact shows.setSearch terms
    · exact shows

end

/-- The calls of the run, alone, give the expiries of its end. -/
theorem documents_refine_mixed :
    ∃ after, run (Retention.step plainWorld {} Casing.ascii Numerals.ascii) Retention.fresh
        ((delivering ++ mixed).filterMap Label.call) = some after ∧ Models filled after := by
  have whole : outcome empty (delivering ++ mixed) = some filled :=
    outcome_append (Option.some_get _).symm (Option.some_get _).symm
  exact documents_refine ⟨rfl, rfl, .nil, fun _ member => absurd member List.not_mem_nil⟩ whole

end WebhookInbox.EventStore
