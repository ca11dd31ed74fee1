import Mathlib.Data.List.Basic

/-!
# Scanners with output

A scanner reads a list element by element, changes its state and writes what it has found.
A part after which it is back in the state it started in can be read by itself: what is
written for it does not depend on what follows.
-/

namespace Library.Scanner

universe u v w
variable {σ : Type u} {α : Type v} {β : Type w}

/-- What a scanner writes on a list, and its state at the end. -/
def scan (step : σ → α → σ × List β) : σ → List α → List β × σ
  | state, [] => ([], state)
  | state, element :: rest =>
      let (next, written) := step state element
      let (later, final) := scan step next rest
      (written ++ later, final)

variable {step : σ → α → σ × List β}

@[simp] theorem scan_nil (state : σ) : scan step state [] = ([], state) := rfl

theorem scan_cons (state : σ) (element : α) (rest : List α) :
    scan step state (element :: rest) =
      ((step state element).2 ++ (scan step (step state element).1 rest).1,
        (scan step (step state element).1 rest).2) := rfl

/-- A list is read by its parts. -/
theorem scan_append (state : σ) (first second : List α) :
    scan step state (first ++ second) =
      ((scan step state first).1 ++ (scan step (scan step state first).2 second).1,
        (scan step (scan step state first).2 second).2) := by
  induction first generalizing state with
  | nil => rfl
  | cons element rest inductionHypothesis =>
    rw [List.cons_append, scan_cons, scan_cons, inductionHypothesis, List.append_assoc]

/-- After the list the scanner is back in the state. -/
def Returns (step : σ → α → σ × List β) (state : σ) (list : List α) : Prop :=
  (scan step state list).2 = state

/-- Parts that return make a whole that returns. -/
theorem Returns.append {state : σ} {first second : List α} (left : Returns step state first)
    (right : Returns step state second) : Returns step state (first ++ second) := by
  rw [Returns, scan_append, left, right]

/-- What is written for a part that returns comes before the rest. -/
theorem Returns.written {state : σ} {first : List α} (left : Returns step state first)
    (second : List α) :
    (scan step state (first ++ second)).1 =
      (scan step state first).1 ++ (scan step state second).1 := by
  rw [scan_append, left]

/-- Elements that keep the state and are written one by one. -/
theorem scan_of_stays {state : σ} {write : α → β} {list : List α}
    (stays : ∀ element ∈ list, step state element = (state, [write element])) :
    scan step state list = (list.map write, state) := by
  induction list with
  | nil => rfl
  | cons element rest inductionHypothesis =>
    have later := inductionHypothesis (fun other member => stays other (List.mem_cons_of_mem _ member))
    rw [scan_cons, stays element List.mem_cons_self, later]
    rfl

end Library.Scanner
