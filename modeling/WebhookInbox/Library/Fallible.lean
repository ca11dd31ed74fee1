import Mathlib.Data.Option.Basic

/-!
# Sequences of fallible steps

A sequence that succeeds has steps that all succeeded, and one that fails has a
first step that failed. The lemmas take the first step off, so that a long `do`
block is read one step at a time.
-/

namespace Library.Fallible

universe u v
variable {ε : Type u} {α β : Type v}

/-- A step that has succeeded is followed by the next one. -/
theorem ok_bind (value : α) (next : α → Except ε β) :
    (Except.ok value >>= next) = next value := rfl

/-- A step that has failed is followed by none. -/
theorem error_bind (error : ε) (next : α → Except ε β) :
    ((Except.error error : Except ε α) >>= next) = .error error := rfl

/-- A sequence that succeeds has a first step that succeeds. -/
theorem bind_ok {first : Except ε α} {next : α → Except ε β} {value : β}
    (succeeded : (first >>= next) = .ok value) :
    ∃ middle, first = .ok middle ∧ next middle = .ok value := by
  cases first with
  | error error => cases succeeded
  | ok middle => exact ⟨middle, rfl, succeeded⟩

/-- A sequence that fails does so in its first step or after it. -/
theorem bind_error {first : Except ε α} {next : α → Except ε β} {error : ε}
    (failed : (first >>= next) = .error error) :
    first = .error error ∨ ∃ middle, first = .ok middle ∧ next middle = .error error := by
  cases first with
  | error other => exact .inl (congrArg Except.error (Except.error.inj failed))
  | ok middle => exact .inr ⟨middle, rfl, failed⟩

end Library.Fallible
