import Mathlib.Data.Option.Basic
import Mathlib.Data.List.Basic

/-!
# Finite runs of a labelled step

A step consumes a label and either returns the next state or is not enabled.
A run takes a list of labels in order. Nothing fixes who takes a step: the list
of labels is the schedule, so a statement about every list of labels is a
statement about every interleaving.

Conditions on a run are conditions on each state and the label taken there.
`Along` states that a condition held at every step; invariants that need such a
condition are carried to the end of the run by `run_invariant`.
-/

namespace Library.Run

universe u v
variable {σ : Type u} {ℓ : Type v}

/-- Take the labels in order. A label that is not enabled ends the run without
a state, so a returned state is one that every label was enabled on the way to. -/
def run (step : σ → ℓ → Option σ) : σ → List ℓ → Option σ
  | state, [] => some state
  | state, label :: rest => (step state label).bind (fun next => run step next rest)

/-- The condition held at each state of the run for the label taken there. -/
def Along (step : σ → ℓ → Option σ) (condition : σ → ℓ → Prop) : σ → List ℓ → Prop
  | _, [] => True
  | state, label :: rest =>
      condition state label ∧ ∀ next, step state label = some next → Along step condition next rest

variable (step : σ → ℓ → Option σ)

/-- Whether a decidable condition held is found by taking the run. -/
instance decidableAlong (condition : σ → ℓ → Prop)
    [∀ state label, Decidable (condition state label)] :
    (state : σ) → (labels : List ℓ) → Decidable (Along step condition state labels)
  | _, [] => isTrue trivial
  | state, label :: rest =>
      have : Decidable (∀ next, step state label = some next → Along step condition next rest) :=
        match taken : step state label with
        | none => isTrue (by simp)
        | some next =>
            have := decidableAlong condition next rest
            decidable_of_iff (Along step condition next rest) (by simp)
      inferInstanceAs (Decidable (_ ∧ _))

/-- The state that a longer run passes through is reached by its shorter part. -/
theorem run_append (state : σ) (before after : List ℓ) :
    run step state (before ++ after) =
      (run step state before).bind (fun middle => run step middle after) := by
  induction before generalizing state with
  | nil => rfl
  | cons label rest inductionHypothesis =>
    cases taken : step state label with
    | none => simp [run, taken]
    | some next => simp [run, taken, inductionHypothesis]

/-- A completed run starts with an enabled step and completes from its result. -/
theorem run_cons_some {state final : σ} {label : ℓ} {rest : List ℓ}
    (ran : run step state (label :: rest) = some final) :
    ∃ next, step state label = some next ∧ run step next rest = some final :=
  Option.bind_eq_some_iff.mp ran

/-- A condition along two consecutive parts holds along the second part from
the state the first part reached. -/
theorem along_append {condition : σ → ℓ → Prop} {state middle : σ} {before after : List ℓ}
    (ran : run step state before = some middle) :
    Along step condition state (before ++ after) ↔
      Along step condition state before ∧ Along step condition middle after := by
  induction before generalizing state with
  | nil =>
    obtain rfl : state = middle := Option.some.inj ran
    simp [Along]
  | cons label rest inductionHypothesis =>
    obtain ⟨next, taken, continued⟩ := run_cons_some step ran
    simp only [List.cons_append, Along, taken, Option.some.injEq, forall_eq',
      inductionHypothesis continued, and_assoc]

/-- What every conditioned step preserves holds at the end of a conditioned run.
The condition is only available at the states the run visits. -/
theorem run_invariant {condition : σ → ℓ → Prop} {invariant : σ → Prop}
    (preserved : ∀ state label next, invariant state → condition state label →
      step state label = some next → invariant next)
    {state final : σ} {labels : List ℓ} (guarded : Along step condition state labels)
    (ran : run step state labels = some final) (initial : invariant state) : invariant final := by
  induction labels generalizing state with
  | nil => exact Option.some.inj ran ▸ initial
  | cons label rest inductionHypothesis =>
    obtain ⟨next, taken, continued⟩ := run_cons_some step ran
    exact inductionHypothesis (guarded.2 next taken) continued
      (preserved state label next initial guarded.1 taken)

/-- What every conditioned step preserves holds along a conditioned run. -/
theorem along_invariant {condition : σ → ℓ → Prop} {invariant : σ → Prop}
    (preserved : ∀ state label next, invariant state → condition state label →
      step state label = some next → invariant next)
    {state : σ} {labels : List ℓ} (guarded : Along step condition state labels)
    (initial : invariant state) : Along step (fun current _ => invariant current) state labels := by
  induction labels generalizing state with
  | nil => trivial
  | cons label rest inductionHypothesis =>
    exact ⟨initial, fun next taken => inductionHypothesis (guarded.2 next taken)
      (preserved state label next initial guarded.1 taken)⟩

/-- The trivial condition holds along every run. -/
theorem along_trivial (state : σ) (labels : List ℓ) :
    Along step (fun _ _ => True) state labels := by
  induction labels generalizing state with
  | nil => trivial
  | cons label rest inductionHypothesis => exact ⟨trivial, fun next _ => inductionHypothesis next⟩

/-- A condition that implies another one at each step implies it along the run. -/
theorem along_mono {first second : σ → ℓ → Prop}
    (implies : ∀ state label, first state label → second state label) {state : σ}
    {labels : List ℓ} (guarded : Along step first state labels) :
    Along step second state labels := by
  induction labels generalizing state with
  | nil => trivial
  | cons label rest inductionHypothesis =>
    exact ⟨implies state label guarded.1,
      fun next taken => inductionHypothesis (guarded.2 next taken)⟩

/-- Conditions that hold together at each step hold together along the run. -/
theorem along_and {first second : σ → ℓ → Prop} {state : σ} {labels : List ℓ}
    (left : Along step first state labels) (right : Along step second state labels) :
    Along step (fun current label => first current label ∧ second current label) state labels := by
  induction labels generalizing state with
  | nil => trivial
  | cons label rest inductionHypothesis =>
    exact ⟨⟨left.1, right.1⟩, fun next taken =>
      inductionHypothesis (left.2 next taken) (right.2 next taken)⟩

/-- Two conditions that agree in every state with an invariant, which a step that meets
the first one keeps, hold along the same runs. -/
theorem along_congr (invariant : σ → Prop) {first second : σ → ℓ → Prop}
    (agree : ∀ state label, invariant state → (first state label ↔ second state label))
    (preserved : ∀ state label next, invariant state → first state label →
      step state label = some next → invariant next)
    {state : σ} {labels : List ℓ} (initial : invariant state) :
    Along step first state labels ↔ Along step second state labels := by
  induction labels generalizing state with
  | nil => exact Iff.rfl
  | cons label rest inductionHypothesis =>
    constructor
    · rintro ⟨here, later⟩
      refine ⟨(agree state label initial).mp here, fun next taken => ?_⟩
      exact (inductionHypothesis (preserved state label next initial here taken)).mp
        (later next taken)
    · rintro ⟨here, later⟩
      have holds := (agree state label initial).mpr here
      refine ⟨holds, fun next taken => ?_⟩
      exact (inductionHypothesis (preserved state label next initial holds taken)).mpr
        (later next taken)

/-- An unconditional step invariant holds at the end of every run. -/
theorem run_preserves {invariant : σ → Prop}
    (preserved : ∀ state label next, invariant state →
      step state label = some next → invariant next)
    {state final : σ} {labels : List ℓ} (ran : run step state labels = some final)
    (initial : invariant state) : invariant final :=
  run_invariant step (fun state label next holds _ taken => preserved state label next holds taken)
    (along_trivial step state labels) ran initial

/-! ## What a run did -/

section
variable {ε : Type*} (observe : σ → ℓ → List ε)

/-- What an observer noted at each step of a run, in order. -/
def observed : σ → List ℓ → List ε
  | _, [] => []
  | state, label :: rest =>
      observe state label ++ ((step state label).map (fun next => observed next rest)).getD []

/-- What every conditioned step preserves of a state and of the notes before it holds at
the end of a conditioned run. -/
theorem run_history {condition : σ → ℓ → Prop} {invariant : σ → List ε → Prop}
    (preserved : ∀ state past label next, invariant state past → condition state label →
      step state label = some next → invariant next (past ++ observe state label))
    {state final : σ} {past : List ε} {labels : List ℓ}
    (guarded : Along step condition state labels)
    (ran : run step state labels = some final) (initial : invariant state past) :
    invariant final (past ++ observed step observe state labels) := by
  induction labels generalizing state past with
  | nil =>
    obtain rfl : state = final := Option.some.inj ran
    simpa [observed] using initial
  | cons label rest inductionHypothesis =>
    obtain ⟨next, taken, continued⟩ := run_cons_some step ran
    have carried := inductionHypothesis (guarded.2 next taken) continued
      (preserved state past label next initial guarded.1 taken)
    rw [List.append_assoc] at carried
    simpa only [observed, taken, Option.map_some, Option.getD_some] using carried

end

/-! ## Notes that rest on earlier ones -/

section
variable {ε : Type*}

/-- Every note is justified by the notes before it. -/
def Grounded (justified : List ε → ε → Prop) (trace : List ε) : Prop :=
  ∀ before note after, trace = before ++ note :: after → justified before note

variable {justified : List ε → ε → Prop}

/-- Nothing was noted yet. -/
theorem grounded_nil : Grounded justified [] := by
  intro before note after split
  simp at split

/-- One more note that is justified. -/
theorem Grounded.snoc {trace : List ε} {note : ε} (grounded : Grounded justified trace)
    (holds : justified trace note) : Grounded justified (trace ++ [note]) := by
  intro before other after split
  rcases List.eq_nil_or_concat after with rfl | ⟨rest, last, rfl⟩
  · obtain ⟨rfl, same⟩ := List.append_inj' split rfl
    exact (List.cons.inj same).1 ▸ holds
  · rw [List.concat_eq_append, ← List.cons_append, ← List.append_assoc] at split
    exact grounded before other rest (List.append_inj' split rfl).1

/-- At most one more note, which is justified. -/
theorem Grounded.extend {trace notes : List ε} (grounded : Grounded justified trace)
    (once : notes.length ≤ 1) (holds : ∀ note ∈ notes, justified trace note) :
    Grounded justified (trace ++ notes) := by
  match notes with
  | [] => rwa [List.append_nil]
  | [note] => exact grounded.snoc (holds note List.mem_cons_self)
  | _ :: _ :: _ => simp at once

/-- A note of a grounded trace is justified by a part of it, so a justification that more
notes do not take away holds of the whole trace. -/
theorem Grounded.mem {trace : List ε} {note : ε} (grounded : Grounded justified trace)
    (monotone : ∀ past more, justified past note → justified (past ++ more) note)
    (member : note ∈ trace) : justified trace note := by
  obtain ⟨before, after, rfl⟩ := List.append_of_mem member
  exact monotone before (note :: after) (grounded before note after rfl)

/-- If every step keeps an invariant of the state and of the notes before it, and notes at
most one thing, which these justify, then the invariant holds at the end of every run, and
its notes are grounded. -/
theorem run_grounded (observe : σ → ℓ → List ε) {invariant : σ → List ε → Prop}
    (preserved : ∀ state past label next, invariant state past → step state label = some next →
      invariant next (past ++ observe state label))
    (justifies : ∀ state past label next, invariant state past → step state label = some next →
      ∀ note ∈ observe state label, justified past note)
    (once : ∀ state label, (observe state label).length ≤ 1)
    {state final : σ} {labels : List ℓ} (ran : run step state labels = some final)
    (initial : invariant state []) :
    invariant final (observed step observe state labels) ∧
      Grounded justified (observed step observe state labels) := by
  have kept := run_history step observe
    (fun state past label next (held : invariant state past ∧ Grounded justified past) _ taken =>
      ⟨preserved state past label next held.1 taken,
        held.2.extend (once state label) (justifies state past label next held.1 taken)⟩)
    (along_trivial step state labels) ran ⟨initial, grounded_nil⟩
  rwa [List.nil_append] at kept

end

/-! ## Refinement -/

section
variable {τ κ : Type*} {model : τ → κ → Option τ} {related : σ → τ → Prop}
  {shown : ℓ → Option κ}

/-- If every step is matched by the step that is shown of it, or by none where nothing is
shown, every run is matched by the run of what is shown of it. -/
theorem run_refines
    (matched : ∀ state label next abstract, related state abstract →
      step state label = some next →
      ∃ after, run model abstract (shown label).toList = some after ∧ related next after)
    {state final : σ} {labels : List ℓ} {abstract : τ}
    (ran : run step state labels = some final) (initial : related state abstract) :
    ∃ after, run model abstract (labels.filterMap shown) = some after ∧ related final after := by
  induction labels generalizing state abstract with
  | nil =>
    obtain rfl : state = final := Option.some.inj ran
    exact ⟨abstract, rfl, initial⟩
  | cons label rest inductionHypothesis =>
    obtain ⟨next, taken, continued⟩ := run_cons_some step ran
    obtain ⟨middle, stepped, held⟩ := matched state label next abstract initial taken
    obtain ⟨after, others, finished⟩ := inductionHypothesis continued held
    refine ⟨after, ?_, finished⟩
    have split : (label :: rest).filterMap shown =
        (shown label).toList ++ rest.filterMap shown := by
      cases here : shown label <;> simp [here]
    rw [split, run_append, stepped, Option.bind_some, others]

end

end Library.Run
