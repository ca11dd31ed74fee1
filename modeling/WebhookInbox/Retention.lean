import WebhookInbox.Ingest.Storable

/-!
# Retention

The date on which an event expires is computed when the event arrives, and again for
all stored events of an endpoint when its retention changes. The first computation
treats zero days as no expiry, the second one does not: `expiry_agrees` says where the
two agree.

No setting is checked against the range of dates, so the first computation may raise:
`expiry_returns_iff` says when it does not.
-/

namespace WebhookInbox.Retention

open Library Calendar WebhookInbox.Endpoint WebhookInbox.Receiver

/-- The parts of a stored event that retention reads and writes. -/
structure Event where
  id : ObjectId
  endpointId : ObjectId
  receivedAt : Millis
  expiresAt : Option Millis
deriving DecidableEq

/-- An event document as it is stored under an identifier. -/
def storedEvent (id : ObjectId) (doc : EventDoc) : Event :=
  ⟨id, doc.endpointId, toMillis doc.receivedAt, doc.expiresAt.map toMillis⟩

/-- What `reapply` makes of one event: without days the expiry is unset. The result is
missing when the server cannot add the days. -/
def reapplied (days : Option Int) (event : Event) : Option Event :=
  match days with
  | none => some { event with expiresAt := none }
  | some days => (dateAddDays event.receivedAt days).map (fun expiry =>
      { event with expiresAt := some expiry })

/-- `update_many` on the events of an endpoint, one after the other. An event that cannot
be rewritten ends it, and those before it stay rewritten. The flag tells whether it got
to the end. -/
def reapplyAll (endpointId : ObjectId) (days : Option Int) : List Event → List Event × Bool
  | [] => ([], true)
  | event :: rest =>
      if event.endpointId = endpointId then
        match reapplied days event with
        | none => (event :: rest, false)
        | some changed =>
            (changed :: (reapplyAll endpointId days rest).1, (reapplyAll endpointId days rest).2)
      else (event :: (reapplyAll endpointId days rest).1, (reapplyAll endpointId days rest).2)

/-- `reapply(db, endpoint, config)` -/
def reapply (events : List Event) (endpoint : EndpointDoc) (config : RetentionConfig) :
    List Event × Bool :=
  reapplyAll endpoint.id (retentionDays endpoint config) events

/-- The endpoint expires its events after no days at all: it has no override, or one of
zero, and the default is zero. -/
def ZeroDays (endpoint : EndpointDoc) (config : RetentionConfig) : Prop :=
  config.enabled = true ∧ (endpoint.retentionDays = none ∨ endpoint.retentionDays = some 0) ∧
    config.defaultDays = 0

instance zeroDaysDecidable (endpoint : EndpointDoc) (config : RetentionConfig) :
    Decidable (ZeroDays endpoint config) :=
  inferInstanceAs (Decidable (_ ∧ _ ∧ _))

/-- Zero is the number of days exactly if neither the override nor the default says
otherwise. -/
theorem retentionDays_zero (endpoint : EndpointDoc) (config : RetentionConfig) :
    retentionDays endpoint config = some 0 ↔ ZeroDays endpoint config := by
  unfold retentionDays ZeroDays
  by_cases enabled : config.enabled = true
  · rw [if_pos enabled]
    cases override : endpoint.retentionDays with
    | none => simp [enabled]
    | some days =>
      by_cases zero : days = 0
      · simp [enabled, zero, Option.filter]
      · simp [enabled, zero, Option.filter]
  · simp [enabled]

section
variable {world : Environment} {settings : Settings} {endpoints : Endpoints}
  {request : Receiver.Request} {now : Instant} {doc : EventDoc} {endpoint : EndpointDoc}

/-- An accepted event belongs to the endpoint that its path names, and has the expiry
that was computed for it. -/
theorem receive_expiry (accepted : receive world settings endpoints request now = .inserted doc)
    (served : endpoints.findPath (normalizePath request.path) = some endpoint) :
    doc.endpointId = endpoint.id ∧ doc.receivedAt = now ∧
      expiresAt endpoint settings.retention now = some doc.expiresAt := by
  obtain ⟨other, methods, found, _, _, stored⟩ := receive_inserted accepted
  obtain rfl := Option.some.inj (served.symm.trans found)
  unfold store at stored
  dsimp only at stored
  split at stored
  · cases stored
  · split at stored
    · rename_i name expiry _ computed
      obtain rfl := Outcome.inserted.inj stored
      exact ⟨rfl, rfl, computed⟩
    · cases stored

/-- Reapplying goes through a list and on to the next, unless an event ends it.

Induction on the first list. -/
theorem reapplyAll_append (endpointId : ObjectId) (days : Option Int) (before later : List Event) :
    reapplyAll endpointId days (before ++ later) =
      if (reapplyAll endpointId days before).2 then
        ((reapplyAll endpointId days before).1 ++ (reapplyAll endpointId days later).1,
          (reapplyAll endpointId days later).2)
      else ((reapplyAll endpointId days before).1 ++ later, false) := by
  induction before with
  | nil => rfl
  | cons event rest inductionHypothesis =>
    simp only [List.cons_append, reapplyAll, inductionHypothesis]
    by_cases owner : event.endpointId = endpointId
    · simp only [if_pos owner]
      cases reapplied days event with
      | none => rfl
      | some changed =>
        dsimp only
        split <;> rfl
    · simp only [if_neg owner]
      split <;> rfl

/-- An event of the endpoint among others that reapplying gets through is rewritten if it
can be rewritten. -/
theorem reapplyAll_amid {endpointId : ObjectId} {days : Option Int} {before later : List Event}
    {event after : Event} (owner : event.endpointId = endpointId)
    (others : (reapplyAll endpointId days (before ++ later)).2 = true) :
    reapplyAll endpointId days (before ++ event :: later) =
        ((reapplyAll endpointId days before).1 ++ after :: (reapplyAll endpointId days later).1,
          true) ↔
      reapplied days event = some after := by
  rw [reapplyAll_append] at others ⊢
  cases first : (reapplyAll endpointId days before).2 with
  | false => simp [first] at others
  | true =>
    simp only [first, ↓reduceIte] at others ⊢
    rw [reapplyAll, if_pos owner]
    cases reapplied days event with
    | none => simp
    | some changed => simp [others]

/-- The expiry that an event is stored with is the one that reapplying the same settings
leaves on it, unless the number of days is zero. Then the event is stored without one and
is given its own arrival. The event may stand anywhere in a collection, provided that the
others do not end the reapplication.

Proof: without days both leave none. Other days are added by both, to the instant before
it is rounded down and to the date after. -/
theorem expiry_agrees (id : ObjectId)
    (accepted : receive world settings endpoints request now = .inserted doc)
    (served : endpoints.findPath (normalizePath request.path) = some endpoint)
    {before later : List Event}
    (others : (reapply (before ++ later) endpoint settings.retention).2 = true) :
    (∃ after, reapply (before ++ storedEvent id doc :: later) endpoint settings.retention =
          ((reapply before endpoint settings.retention).1 ++
            after :: (reapply later endpoint settings.retention).1, true) ∧
        after.expiresAt = (storedEvent id doc).expiresAt) ↔
      ¬ ZeroDays endpoint settings.retention := by
  obtain ⟨owner, received, computed⟩ := receive_expiry accepted served
  have single : ∀ after, reapply (before ++ storedEvent id doc :: later) endpoint
        settings.retention = ((reapply before endpoint settings.retention).1 ++
          after :: (reapply later endpoint settings.retention).1, true) ↔
      reapplied (retentionDays endpoint settings.retention) (storedEvent id doc) = some after :=
    fun after => reapplyAll_amid owner others
  simp only [single]
  rw [← retentionDays_zero]
  unfold expiresAt at computed
  cases effective : retentionDays endpoint settings.retention with
  | none =>
    rw [effective] at computed
    have absent : doc.expiresAt = none := (Option.some.inj computed).symm
    simp [reapplied, storedEvent, absent]
  | some days =>
    rw [effective] at computed
    by_cases zero : days = 0
    · subst zero
      have absent : doc.expiresAt = none := (Option.some.inj computed).symm
      simp only [reapplied, not_true_eq_false, iff_false]
      rintro ⟨after, rewritten, same⟩
      obtain ⟨expiry, _, rfl⟩ := Option.map_eq_some_iff.mp rewritten
      simp [storedEvent, absent] at same
    · have kept : (some days).filter (fun days => decide (days ≠ 0)) = some days := by
        simp [Option.filter, zero]
      rw [kept] at computed
      obtain ⟨expiry, added, present⟩ := Option.map_eq_some_iff.mp computed
      have stored := dateAddDays_toMillis added
      simp only [Option.some.injEq, zero, not_false_eq_true, iff_true]
      refine ⟨{ storedEvent id doc with expiresAt := some (toMillis expiry) }, ?_, ?_⟩
      · simp [reapplied, storedEvent, received, stored]
      · simp [storedEvent, ← present]

end

/-- What a small delivery comes to when events are kept for this many days by default. -/
def deliveredKept (days : Int) : Outcome :=
  receive plainWorld { retention := { defaultDays := days } } githubEndpoints small 1500

/-- The endpoint that it is for. -/
def github : EndpointDoc :=
  (githubEndpoints.findPath (normalizePath small.path)).get (by decide +kernel)

theorem github_found :
    githubEndpoints.findPath (normalizePath small.path) = some github := by
  simp only [github, Option.some_get]

/-- The event of a delivery that is kept for thirty days. -/
def keptDoc : EventDoc := (deliveredKept 30).doc.get (by decide +kernel)

/-- The event of a delivery that is kept for zero days. -/
def unkeptDoc : EventDoc := (deliveredKept 0).doc.get (by decide +kernel)

/-- Another event of the same delivery, without an expiry. -/
def bareTwin : Event := { storedEvent ⟨8⟩ keptDoc with expiresAt := none }

/-- With the default of thirty days the two computations agree, also behind another event. -/
theorem expiry_agrees_default :
    deliveredKept 30 = .inserted keptDoc ∧
      ∃ after, reapply ([bareTwin] ++ storedEvent ⟨7⟩ keptDoc :: []) github { defaultDays := 30 } =
          ((reapply [bareTwin] github { defaultDays := 30 }).1 ++
            after :: (reapply [] github { defaultDays := 30 }).1, true) ∧
        after.expiresAt = (storedEvent ⟨7⟩ keptDoc).expiresAt := by
  have accepted : deliveredKept 30 = .inserted keptDoc :=
    Outcome.inserted_of_doc (Option.some_get _).symm
  have others : (reapply ([bareTwin] ++ []) github { defaultDays := 30 }).2 = true := by
    decide +kernel
  exact ⟨accepted, (expiry_agrees ⟨7⟩ accepted github_found others).mpr (by decide +kernel)⟩

/-- With a default of zero days an event that is stored to be kept is made to expire. -/
theorem expiry_disagrees :
    ¬ ∀ (world : Environment) (settings : Settings) (endpoints : Endpoints)
      (request : Receiver.Request) (now : Instant) (doc : EventDoc) (endpoint : EndpointDoc)
      (id : ObjectId), receive world settings endpoints request now = .inserted doc →
      endpoints.findPath (normalizePath request.path) = some endpoint →
      ∃ after, reapply [storedEvent id doc] endpoint settings.retention = ([after], true) ∧
        after.expiresAt = (storedEvent id doc).expiresAt := by
  intro claimed
  have accepted : deliveredKept 0 = .inserted unkeptDoc :=
    Outcome.inserted_of_doc (Option.some_get _).symm
  obtain ⟨after, rewritten, same⟩ := claimed plainWorld { retention := { defaultDays := 0 } }
    githubEndpoints small 1500 unkeptDoc github ⟨7⟩ accepted github_found
  have expires : reapply [storedEvent ⟨7⟩ unkeptDoc] github { defaultDays := 0 } =
      ([⟨⟨7⟩, ⟨1⟩, 1, some 1⟩], true) := by decide +kernel
  have kept : (storedEvent ⟨7⟩ unkeptDoc).expiresAt = none := by decide +kernel
  obtain ⟨rfl, _⟩ := List.cons.inj (Prod.mk.inj (rewritten.symm.trans expires)).1
  rw [kept] at same
  cases same

/-! ## Settings that fit -/

/-- The instant lies in the years 2000 to 9000. -/
def Recent (now : Instant) : Prop := 946684800000000 ≤ now ∧ now < 221876928000000000

instance recentDecidable (now : Instant) : Decidable (Recent now) :=
  inferInstanceAs (Decidable (_ ∧ _))

/-- The number of days that applies lies between the ends of the range. -/
def Fits (endpoint : EndpointDoc) (config : RetentionConfig) (now : Instant) : Prop :=
  ∀ days, retentionDays endpoint config = some days → -daysBefore now ≤ days ∧ days ≤ daysAfter now

theorem recent_room {now : Instant} (recent : Recent now) :
    0 ≤ daysBefore now ∧ 0 ≤ daysAfter now :=
  days_nonneg (le_trans (by decide) recent.1) (recent.2.le.trans (by decide))

/-- An expiry is computed exactly if the number of days fits. -/
theorem expiresAt_isSome {endpoint : EndpointDoc} {config : RetentionConfig} {now : Instant}
    (recent : Recent now) :
    (expiresAt endpoint config now).isSome = true ↔ Fits endpoint config now := by
  unfold expiresAt Fits
  cases effective : retentionDays endpoint config with
  | none => simp
  | some days =>
    simp only [Option.some.injEq, forall_eq', Option.filter_some]
    by_cases zero : days = 0
    · obtain ⟨before, after⟩ := recent_room recent
      simp [zero, before, after]
    · simp only [zero, ne_eq, not_false_eq_true, decide_true, ↓reduceIte, Option.isSome_map,
        addDays_isSome]

/-- An endpoint with an override keeps its events as long as that says. -/
theorem fits_override {endpoint : EndpointDoc} {config : RetentionConfig} {now : Instant}
    (enabled : config.enabled = true) (recent : Recent now) {days : Int}
    (override : endpoint.retentionDays = some days) (positive : 0 < days) :
    Fits endpoint config now ↔ days ≤ daysAfter now := by
  have effective : retentionDays endpoint config = some days := by
    simp [retentionDays, enabled, override, Option.filter_some, positive.ne']
  have before := (recent_room recent).1
  simp only [Fits, effective, Option.some.injEq, forall_eq', and_iff_right_iff_imp]
  intro _
  linarith

/-- An expiry is computed, so that what could be read is stored, exactly if the number of
days lies between the ends of the range of dates. -/
theorem expiry_returns_iff (endpoint : EndpointDoc) (settings : Settings) {now : Instant}
    (recent : Recent now) :
    ((∃ expiry, expiresAt endpoint settings.retention now = some expiry) ∧
        ∀ (world : Environment) (request : Receiver.Request) (raw : Bytes) (name : Str)
          (body : Json), endpoint.name = some name →
          Parser.parseBody world.runtime raw ((request.headerDict.get (lit "content-type")).getD [])
            settings.limits.maxJsonDepth = .ok body →
          ∃ doc, store world settings endpoint request raw now = .inserted doc) ↔
      Fits endpoint settings.retention now := by
  rw [← expiresAt_isSome recent, Option.isSome_iff_exists, and_iff_left_iff_imp]
  rintro ⟨expiry, computed⟩ world request raw name body named parsed
  unfold store
  simp only [parsed, named, computed]
  exact ⟨_, rfl⟩

/-- The start of 2025. -/
def newYear : Instant := 1735689600000000

/-- An endpoint that is to keep its events for thirty days gets its expiry. -/
theorem expiry_returns_iff_default : ∃ expiry, expiresAt github {} newYear = some expiry :=
  ((expiry_returns_iff github {} (by decide : Recent newYear)).mpr (by
    intro days effective
    obtain rfl : 30 = days := Option.some.inj effective
    decide)).1

/-- An endpoint that is to keep its events for three million days. -/
def keeping : CreateInput where
  name := lit "GitHub"
  path := lit "github"
  retentionDays := some 3000000

/-- It is accepted, and no expiry can be computed. -/
theorem expiry_overflows :
    ¬ ∀ (casing : Casing) (given : CreateInput) (payload : EndpointCreate) (id : ObjectId)
      (config : RetentionConfig) (now : Instant),
      EndpointCreate.validate casing given = .ok payload →
      (∀ days ∈ given.retentionDays, days < 2 ^ 63) → Recent now →
      ∃ expiry, expiresAt (payload.toDocument id now) config now = some expiry := by
  intro claimed
  let payload : EndpointCreate := {
    name := ⟨lit "GitHub", by decide⟩
    path := ⟨lit "github", by decide⟩
    enabled := true
    authentication := {}
    secret := none
    allowedMethods := ⟨[lit "POST"], methods_post⟩
    maxPayloadSize := none
    retentionDays := some ⟨3000000, by decide⟩ }
  have accepted : EndpointCreate.validate Casing.ascii keeping = .ok payload := by rfl
  obtain ⟨expiry, computed⟩ := claimed Casing.ascii keeping payload ⟨1⟩ {} newYear accepted
    (by rintro days ⟨⟩; decide) (by decide)
  have fits := (expiresAt_isSome (by decide)).mp (Option.isSome_iff_exists.mpr ⟨expiry, computed⟩)
  have room := (fits_override rfl (by decide) rfl (by decide)).mp fits
  exact absurd room (by decide)

end WebhookInbox.Retention
