import WebhookInbox.EventStore

/-!
# Backfills that get to their end

A backfill writes terms that were derived from events as they were when it read them.
`backfill_settles` says that this does no harm, and that no event is left behind: what terms
are derived from never changes, and the backfill has to do with every event that it selected
until its terms are written.
-/

namespace WebhookInbox.EventStore

open Library Library.Run Calendar WebhookInbox.Endpoint WebhookInbox.Receiver
  WebhookInbox.Backfill WebhookInbox.Tokenize

section
variable {world : Environment} {settings : Settings} {casing : Casing} {numerals : Numerals}

/-! ## What backfills have in hand -/

/-- The events that were read and not yet looked at. -/
def Fill.reads : Fill → List Stored
  | .reading _ _ read _ _ => read
  | .writing _ next => next.reads
  | _ => []

/-- The operations that are not yet written. -/
def Fill.pending : Fill → List (ObjectId × Terms)
  | .reading _ _ _ operations _ => operations
  | .writing operations next => operations ++ next.pending
  | _ => []

/-- An event was read by the turn or before it. -/
theorem Turn.reads {events : Events} {place next : Fill} (turn : Turn world events place next)
    {document : Stored} (member : document ∈ next.reads) :
    document ∈ place.reads ∨ events.find document.id = some document := by
  cases turn with
  | opened rebuild => cases member
  | fetched rebuild owed read operations updated event present selected =>
    rcases List.mem_append.mp member with old | last
    · exact .inl old
    · obtain rfl := List.mem_singleton.mp last
      exact .inr present
  | taken rebuild owed first rest operations updated =>
    refine .inl (List.mem_cons_of_mem _ ?_)
    unfold takeNext at member
    split at member
    · cases member
    · dsimp only at member
      split at member
      · exact member
      · exact member
  | closed rebuild owed operations updated complete =>
    split at member
    · cases member
    · cases member
  | ended => exact .inl member

/-- An operation was derived by the turn or before it. -/
theorem Turn.pending {events : Events} {place next : Fill} (turn : Turn world events place next)
    {operation : ObjectId × Terms} (member : operation ∈ next.pending) :
    operation ∈ place.pending ∨ ∃ document ∈ place.reads, operation.1 = document.id ∧
      buildFromEvent world.search document.fields = some operation.2 := by
  cases turn with
  | opened rebuild => cases member
  | fetched rebuild owed read operations updated event present selected => exact .inl member
  | taken rebuild owed first rest operations updated =>
    unfold takeNext at member
    split at member
    · cases member
    · rename_i terms derived
      have listed : operation ∈ operations ++ [(first.id, terms)] := by
        dsimp only at member
        split at member
        · simpa [Fill.pending] using member
        · exact member
      rcases List.mem_append.mp listed with old | last
      · exact .inl old
      · obtain rfl := List.mem_singleton.mp last
        exact .inr ⟨first, List.mem_cons_self, rfl, derived⟩
  | closed rebuild owed operations updated complete =>
    split at member
    · cases member
    · exact .inl (by simpa [Fill.pending] using member)
  | ended => exact .inl (by simpa [Fill.pending] using member)

/-- Identifiers of events were given out, and what backfills have in hand fits the events
that are still there. -/
structure Consistent (world : Environment) (system : State) : Prop where
  known : ∀ event ∈ system.events.docs, event.id ∈ system.given
  read : ∀ fill, ∀ document ∈ (system.fills fill).reads, document.id ∈ system.given ∧
    ∀ event, system.events.find document.id = some event → core event = core document
  derived : ∀ fill, ∀ operation ∈ (system.fills fill).pending, operation.1 ∈ system.given ∧
    ∀ event, system.events.find operation.1 = some event →
      buildFromEvent world.search event.fields = some operation.2

/-- A state without backfills, in which the identifiers of events were given out. -/
theorem consistent_quiet {system : State}
    (known : ∀ event ∈ system.events.docs, event.id ∈ system.given)
    (quiet : ∀ fill, system.fills fill = .idle) : Consistent world system where
  known := known
  read fill document member := by
    rw [quiet fill] at member
    cases member
  derived fill operation member := by
    rw [quiet fill] at member
    cases member

/-- Every step keeps this. -/
theorem step_consistent {before after : State} {label : Label}
    (made : step world settings casing numerals before label = some after)
    (consistent : Consistent world before) : Consistent world after := by
  have readKept : ∀ document : Stored, document.id ∈ before.given →
      (∀ event, before.events.find document.id = some event → core event = core document) →
      document.id ∈ after.given ∧
        ∀ event, after.events.find document.id = some event → core event = core document := by
    intro document old fits
    refine ⟨given_mono made old, fun event left => ?_⟩
    obtain ⟨earlier, present, same⟩ := (step_find made old).core_eq left
    exact same.trans (fits earlier present)
  have derivedKept : ∀ operation : ObjectId × Terms, operation.1 ∈ before.given →
      (∀ event, before.events.find operation.1 = some event →
        buildFromEvent world.search event.fields = some operation.2) →
      operation.1 ∈ after.given ∧ ∀ event, after.events.find operation.1 = some event →
        buildFromEvent world.search event.fields = some operation.2 := by
    intro operation old fits
    refine ⟨given_mono made old, fun event left => ?_⟩
    obtain ⟨earlier, present, same⟩ := (step_find made old).core_eq left
    exact (buildFromEvent_core same).trans (fits earlier present)
  have inHand : ∀ fill,
      (∀ document ∈ (after.fills fill).reads, document ∈ (before.fills fill).reads ∨
        before.events.find document.id = some document) ∧
      ∀ operation ∈ (after.fills fill).pending, operation ∈ (before.fills fill).pending ∨
        ∃ document ∈ (before.fills fill).reads, operation.1 = document.id ∧
          buildFromEvent world.search document.fields = some operation.2 := by
    intro fill
    rcases step_fill made fill with same | ⟨turn, _⟩ | ⟨_, _, rest, next, here, there, _⟩
    · exact ⟨fun document member => .inl (same ▸ member),
        fun operation member => .inl (same ▸ member)⟩
    · exact ⟨fun _ member => turn.reads member, fun _ member => turn.pending member⟩
    · refine ⟨fun document member => .inl ?_, fun other member => .inl ?_⟩
      · rw [there] at member
        rw [here]
        exact member
      · rw [there] at member
        rw [here]
        exact List.mem_cons_of_mem _ member
  refine ⟨step_known made consistent.known, fun fill document member => ?_,
    fun fill operation member => ?_⟩
  · rcases (inHand fill).1 document member with old | present
    · exact readKept document (consistent.read fill document old).1
        (consistent.read fill document old).2
    · refine readKept document (consistent.known document (Collection.find_some present).1) ?_
      intro event found
      rw [Option.some.inj (found.symm.trans present)]
  · rcases (inHand fill).2 operation member with old | ⟨document, read, same, derived⟩
    · exact derivedKept operation (consistent.derived fill operation old).1
        (consistent.derived fill operation old).2
    · obtain ⟨known, fits⟩ := consistent.read fill document read
      refine derivedKept operation (same ▸ known) ?_
      intro event found
      exact (buildFromEvent_core (fits event (same ▸ found))).trans derived

/-! ## Backfills that get to their end -/

/-- The backfill still has to do with the event, or has failed. -/
def Covers (id : ObjectId) (rebuild : Bool) : Fill → Prop
  | .reading query owed read operations _ => query = rebuild ∧
      (id ∈ owed ∨ id ∈ read.map Stored.id ∨ id ∈ operations.map Prod.fst)
  | .writing operations next => id ∈ operations.map Prod.fst ∨ Covers id rebuild next
  | .failed => True
  | _ => False

/-- A turn keeps an event covered that is there and selected. -/
theorem Turn.covers {events : Events} {place next : Fill} (turn : Turn world events place next)
    {id : ObjectId} {rebuild : Bool} (covered : Covers id rebuild place) {event : Stored}
    (present : events.find id = some event) (selected : due rebuild event = true) :
    Covers id rebuild next := by
  cases turn with
  | opened rebuild => exact covered.elim
  | fetched query owed read operations updated other found chosen =>
    obtain ⟨same, inHand⟩ := covered
    refine ⟨same, ?_⟩
    by_cases here : id = other.id
    · exact .inr (.inl (by simp [here]))
    · rcases inHand with owes | wasRead | listed
      · exact .inl (List.mem_filter.mpr ⟨owes, decide_eq_true here⟩)
      · exact .inr (.inl (by rw [List.map_append]; exact List.mem_append_left _ wasRead))
      · exact .inr (.inr listed)
  | taken query owed first rest operations updated =>
    obtain ⟨same, inHand⟩ := covered
    unfold takeNext
    split
    · trivial
    · rename_i terms derived
      have moved : id ∈ owed ∨ id ∈ rest.map Stored.id ∨
          id ∈ (operations ++ [(first.id, terms)]).map Prod.fst := by
        rcases inHand with owes | wasRead | listed
        · exact .inl owes
        · rcases List.mem_cons.mp wasRead with here | later
          · exact .inr (.inr (by simp [here]))
          · exact .inr (.inl later)
        · exact .inr (.inr (by rw [List.map_append]; exact List.mem_append_left _ listed))
      dsimp only
      split
      · rcases moved with owes | wasRead | listed
        · exact .inr ⟨same, .inl owes⟩
        · exact .inr ⟨same, .inr (.inl wasRead)⟩
        · exact .inl listed
      · exact ⟨same, moved⟩
  | closed query owed operations updated complete =>
    obtain ⟨rfl, owes | wasRead | listed⟩ := covered
    · have left := complete id owes
      rw [present, Option.all_some, selected] at left
      cases left
    · cases wasRead
    · split
      · rename_i empty
        rw [empty] at listed
        cases listed
      · exact .inl listed
  | ended =>
    rcases covered with impossible | later
    · cases impossible
    · exact later

/-- The event has the terms that are derived from it, or those it had, and then the backfill
still has to do with it. -/
def Progress (world : Environment) (rebuild : Bool) (base : Stored) (fill : Nat)
    (system : State) : Prop :=
  base.id ∈ system.given ∧ ∀ event, system.events.find base.id = some event →
    core event = core base ∧ (Settled world.search event ∨
      event.fields.get (lit "search") = base.fields.get (lit "search") ∧
        Covers base.id rebuild (system.fills fill))

/-- An event is selected if one with the same terms is. -/
theorem due_congr {rebuild : Bool} {first second : Stored}
    (same : first.fields.get (lit "search") = second.fields.get (lit "search"))
    (selected : due rebuild second = true) : due rebuild first = true := by
  rw [due, same]
  exact selected

/-- Every step keeps this. -/
theorem step_progress {rebuild : Bool} {base : Stored} (selected : due rebuild base = true)
    {fill : Nat} {before after : State} {label : Label}
    (made : step world settings casing numerals before label = some after)
    (consistent : Consistent world before) (progress : Progress world rebuild base fill before) :
    Progress world rebuild base fill after := by
  obtain ⟨old, inProgress⟩ := progress
  refine ⟨given_mono made old, fun event left => ?_⟩
  have onward : ∀ earlier, before.events.find base.id = some earlier →
      core event = core earlier →
      event.fields.get (lit "search") = earlier.fields.get (lit "search") →
      (Covers base.id rebuild (before.fills fill) → due rebuild earlier = true →
        Covers base.id rebuild (after.fills fill)) →
      core event = core base ∧ (Settled world.search event ∨
        event.fields.get (lit "search") = base.fields.get (lit "search") ∧
          Covers base.id rebuild (after.fills fill)) := by
    intro earlier present same terms stays
    obtain ⟨what, settled | ⟨unchanged, covered⟩⟩ := inProgress earlier present
    · exact ⟨same.trans what, .inl (settled_congr settled same terms)⟩
    · exact ⟨same.trans what, .inr ⟨terms.trans unchanged,
        stays covered (due_congr unchanged selected)⟩⟩
  have written : ∀ fill terms rest next earlier,
      before.fills fill = .writing ((base.id, terms) :: rest) next →
      before.events.find base.id = some earlier →
      core (earlier.setSearch terms) = core base ∧
        Settled world.search (earlier.setSearch terms) := by
    intro fill terms rest next earlier standing present
    have listed : (base.id, terms) ∈ (before.fills fill).pending := by
      rw [standing]
      exact List.mem_cons_self
    have derived := (consistent.derived fill _ listed).2 earlier present
    have same := core_setSearch terms earlier
    exact ⟨same.trans (inProgress earlier present).1, settled_of_search
      ((buildFromEvent_core same).trans derived) (search_setSearch terms earlier)⟩
  cases step_effect made with
  | called label moved unused went result =>
    have fills : after.fills fill = before.fills fill := by rw [result]
    cases @call_find world settings before label base.id unused old after
      (congrArg State.events result) with
    | kept unchanged =>
      exact onward event (unchanged ▸ left) rfl rfl (fun covered _ => fills ▸ covered)
    | changed days earlier rewrittenEvent present change found =>
      obtain rfl := Option.some.inj (left.symm.trans found)
      exact onward earlier present (core_rewritten change) (search_rewritten change)
        (fun covered _ => fills ▸ covered)
    | filled other terms rest next earlier standing present found =>
      obtain rfl := Option.some.inj (left.symm.trans found)
      obtain ⟨what, settled⟩ := written other terms rest next earlier standing present
      exact ⟨what, .inl settled⟩
    | swept now earlier sweeping present expires gone =>
      rw [gone] at left
      cases left
  | turned _ mover place silent turn result =>
    have present : before.events.find base.id = some event := by
      rw [result] at left
      exact left
    refine onward event present rfl rfl (fun covered chosen => ?_)
    rw [result]
    by_cases same : fill = mover
    · subst same
      simpa [State.turn] using turn.covers covered present chosen
    · simpa [State.turn, same] using covered
  | written mover target terms rest next standing result =>
    have found : after.events.find base.id = if base.id = target
        then (before.events.find base.id).map (Stored.setSearch terms)
        else before.events.find base.id := by
      rw [result]
      exact Collection.find_updateOne before.events target base.id (Stored.setSearch terms)
        (Stored.setSearch_id terms)
    rw [left] at found
    by_cases here : base.id = target
    · subst here
      rw [if_pos rfl] at found
      obtain ⟨earlier, present, rfl⟩ := Option.map_eq_some_iff.mp found.symm
      obtain ⟨what, settled⟩ := written mover terms rest next earlier standing present
      exact ⟨what, .inl settled⟩
    · rw [if_neg here] at found
      refine onward event found.symm rfl rfl (fun covered _ => ?_)
      rw [result]
      by_cases same : fill = mover
      · subst same
        rw [standing] at covered
        have later : Covers base.id rebuild (.writing rest next) := by
          rcases covered with listed | later
          · exact .inl (by simpa [here] using listed)
          · exact .inr later
        simpa [State.turn] using later
      · simpa [State.turn, same] using covered

/-- An event has terms, unless it is one of these. -/
def Searchable (missing : ObjectId → Prop) (system : State) : Prop :=
  ∀ event ∈ system.events.docs,
    (event.fields.get (lit "search")).isSome = true ∨ missing event.id

/-- No step takes terms away, and new events have some. -/
theorem step_searchable {missing : ObjectId → Prop} {before after : State} {label : Label}
    (made : step world settings casing numerals before label = some after)
    (known : ∀ event ∈ before.events.docs, event.id ∈ before.given)
    (searchable : Searchable missing before) : Searchable missing after := by
  intro event member
  by_cases old : event.id ∈ before.given
  · have left := Collection.find_of_mem member
    cases step_find made old with
    | kept unchanged => exact searchable event (Collection.find_some (unchanged ▸ left)).1
    | changed days earlier result present change found =>
      obtain rfl := Option.some.inj (left.symm.trans found)
      rw [search_rewritten change, rewritten_id earlier event change]
      exact searchable earlier (Collection.find_some present).1
    | filled other terms rest next earlier standing present found =>
      obtain rfl := Option.some.inj (left.symm.trans found)
      exact .inl (by rw [search_setSearch]; rfl)
    | swept now earlier sweeping present expires gone =>
      rw [gone] at left
      cases left
  · cases step_effect made with
    | called label moved unused went result =>
      rw [result] at member
      rcases call_known member with ⟨earlier, there, same⟩ | ⟨id, newest, doc, rfl⟩
      · exact absurd (same ▸ known earlier there) old
      · exact .inl (by rw [(stored_fields id doc).2.2.2]; rfl)
    | turned _ mover place silent turn result =>
      rw [result] at member
      exact absurd (known event member) old
    | written mover target terms rest next standing result =>
      rw [result] at member
      obtain ⟨earlier, there, rfl⟩ := (Collection.mem_updateOne before.events target
        (Stored.setSearch terms) (Stored.setSearch_id terms) event).mp member
      exact absurd (by split <;> exact known earlier there) old

/-- When a backfill has got to its end, whatever went on meanwhile, every event that it
selected when it was opened and that is still there has the terms that are derived from it,
and every event that is there has terms.

Proof: what is in hand fits the events that are there, since what they are does not change,
and the backfill has to do with each selected event until its terms are written. -/
theorem backfill_settles {start opened final : State} {before later : List Label} {fill : Nat}
    {rebuild : Bool} {updated : Nat}
    (known : ∀ event ∈ start.events.docs, event.id ∈ start.given)
    (quiet : ∀ fill, start.fills fill = .idle)
    (reached : run (step world settings casing numerals) start before = some opened)
    (ran : run (step world settings casing numerals) opened
      (.opened fill rebuild :: later) = some final)
    (finished : final.fills fill = .finished updated) :
    (∀ event ∈ opened.events.docs, due rebuild event = true →
      ∀ after, final.events.find event.id = some after →
        Settled world.search after ∧ core after = core event) ∧
    ∀ after ∈ final.events.docs, (after.fields.get (lit "search")).isSome = true := by
  have consistent : Consistent world opened :=
    run_preserves (step world settings casing numerals)
      (fun _ _ _ holds made => step_consistent made holds) reached (consistent_quiet known quiet)
  obtain ⟨next, made, continued⟩ := run_cons_some _ ran
  have first : Consistent world next := step_consistent made consistent
  have settles : ∀ event ∈ opened.events.docs, due rebuild event = true →
      ∀ after, final.events.find event.id = some after →
        Settled world.search after ∧ core after = core event := by
    intro event member selected after left
    have begun : Progress world rebuild event fill next := by
      simp only [step] at made
      split at made
      · obtain rfl := Option.some.inj made
        refine ⟨consistent.known event member, fun current present => ?_⟩
        have same : opened.events.find event.id = some current := present
        rw [Collection.find_of_mem member] at same
        obtain rfl := Option.some.inj same
        have owed : event.id ∈ (opened.events.docs.filter (due rebuild)).map Stored.id :=
          List.mem_map_of_mem (List.mem_filter.mpr ⟨member, selected⟩)
        exact ⟨rfl, .inr ⟨rfl, by simpa [State.turn] using ⟨rfl, .inl owed⟩⟩⟩
      · cases made
    have held : Consistent world final ∧ Progress world rebuild event fill final :=
      @run_preserves _ _ (step world settings casing numerals)
        (fun system => Consistent world system ∧ Progress world rebuild event fill system)
        (fun _ _ _ holds made => ⟨step_consistent made holds.1,
          step_progress selected made holds.1 holds.2⟩) _ _ _ continued ⟨first, begun⟩
    obtain ⟨what, settled | ⟨_, covered⟩⟩ := held.2.2 after left
    · exact ⟨settled, what⟩
    · rw [finished] at covered
      exact covered.elim
  refine ⟨settles, fun after member => ?_⟩
  have held : Consistent world final ∧
      Searchable (fun id => ∃ event ∈ opened.events.docs, event.id = id ∧
        due rebuild event = true) final := by
    refine @run_preserves _ _ (step world settings casing numerals)
      (fun system => Consistent world system ∧ Searchable (fun id => ∃ event ∈ opened.events.docs,
        event.id = id ∧ due rebuild event = true) system)
      (fun _ _ _ holds made => ⟨step_consistent made holds.1,
        step_searchable made holds.1.known holds.2⟩) _ _ _ ran ⟨consistent, fun event there => ?_⟩
    cases present : event.fields.get (lit "search") with
    | some terms => exact .inl rfl
    | none => exact .inr ⟨event, there, rfl, by simp [due, present]⟩
  rcases held.2 after member with present | ⟨event, there, same, selected⟩
  · exact present
  · obtain ⟨settled, _⟩ := settles event there selected after
      (same ▸ Collection.find_of_mem member)
    obtain ⟨terms, _, present⟩ := settled_search settled
    rw [present]
    rfl

end

/-- The backfill settles it, though the update came between its reading and its writing. -/
theorem backfill_settles_mixed : filled.events.docs.map Stored.id = [⟨7⟩] ∧
    (∀ event ∈ arrived.events.docs, due true event = true →
      ∀ after, filled.events.find event.id = some after →
        Settled plainWorld.search after ∧ core after = core event) ∧
    ∀ after ∈ filled.events.docs, (after.fields.get (lit "search")).isSome = true := by
  have reached : outcome empty delivering = some arrived := (Option.some_get _).symm
  have ran : outcome arrived mixed = some filled := (Option.some_get _).symm
  have finished : filled.fills 0 = .finished 1 := Fill.finished_of_result (by decide +kernel)
  exact ⟨by decide +kernel, backfill_settles (fun _ member => absurd member List.not_mem_nil)
    (fun _ => rfl) reached ran finished⟩

end WebhookInbox.EventStore
