import Mathlib.Data.Finset.Card
import Mathlib.Data.List.DropRight
import Mathlib.Data.List.Infix

/-!
# Windows of a list and edits

The windows of a list are its segments of one width. Replacing a segment of a list leaves
the windows on both sides of it alone, and all windows of the result but a few are among
them: `card_windows_sdiff` counts these.
-/

namespace Library.Windows

variable {α : Type*}

/-- The segments of this width, from the left. -/
def windows (width : Nat) (items : List α) : List (List α) :=
  (List.range (items.length + 1 - width)).map (fun start => (items.drop start).take width)

/-- There are as many windows as places to begin. -/
theorem length_windows (width : Nat) (items : List α) :
    (windows width items).length = items.length + 1 - width := by
  rw [windows, List.length_map, List.length_range]

/-- The windows are the segments of the width. -/
theorem mem_windows {width : Nat} {items window : List α} (room : window.length = width) :
    window ∈ windows width items ↔ window <:+: items := by
  constructor
  · intro member
    obtain ⟨start, _, rfl⟩ := List.mem_map.mp member
    exact (List.take_prefix _ _).isInfix.trans (List.drop_suffix _ _).isInfix
  · rintro ⟨before, after, rfl⟩
    refine List.mem_map.mpr ⟨before.length, List.mem_range.mpr ?_, ?_⟩
    · simp only [List.length_append]
      omega
    · rw [List.append_assoc, List.drop_left, ← room, List.take_left]

/-- A window has the width. -/
theorem length_of_mem {width : Nat} {items window : List α}
    (member : window ∈ windows width items) : window.length = width := by
  obtain ⟨start, within, rfl⟩ := List.mem_map.mp member
  have room := List.mem_range.mp within
  rw [List.length_take, List.length_drop]
  omega

/-- What begins and ends within a segment is a window of it. -/
theorem window_within {width start : Nat} (before core after : List α)
    (begins : before.length ≤ start) (ends : start + width ≤ before.length + core.length) :
    ((before ++ core ++ after).drop start).take width ∈ windows width core := by
  have skipped : (before ++ core ++ after).drop start =
      core.drop (start - before.length) ++ after := by
    rw [List.append_assoc, List.drop_append, List.drop_eq_nil_of_le begins, List.nil_append,
      List.drop_append_of_le_length (by omega)]
  have room : width ≤ (core.drop (start - before.length)).length := by
    rw [List.length_drop]
    omega
  rw [skipped, List.take_append_of_le_length room]
  exact List.mem_map.mpr ⟨start - before.length, List.mem_range.mpr (by omega), rfl⟩

/-- A window is on the left of a segment, on the right of it, or reaches into what is around
it by less than its width.

Proof: by the place where the window begins. -/
theorem windows_append (width : Nat) (left middle right : List α) {window : List α}
    (member : window ∈ windows (width + 1) (left ++ middle ++ right)) :
    window ∈ windows (width + 1) left ∨ window ∈ windows (width + 1) right ∨
      window ∈ windows (width + 1) (left.rtake width ++ middle ++ right.take width) := by
  obtain ⟨start, within, rfl⟩ := List.mem_map.mp member
  have room := List.mem_range.mp within
  simp only [List.length_append] at room
  by_cases inLeft : start + (width + 1) ≤ left.length
  · left
    have here := window_within [] left (middle ++ right) (Nat.zero_le start)
      (by omega : start + (width + 1) ≤ 0 + left.length)
    rwa [List.nil_append, ← List.append_assoc] at here
  · right
    by_cases inRight : left.length + middle.length ≤ start
    · left
      have here := window_within (left ++ middle) right []
        (by rwa [List.length_append])
        (by rw [List.length_append]; omega :
          start + (width + 1) ≤ (left ++ middle).length + right.length)
      rwa [List.append_nil] at here
    · right
      have whole : left ++ middle ++ right = left.take (left.length - width) ++
          (left.rtake width ++ middle ++ right.take width) ++ right.drop width := by
        simp only [List.rtake, List.append_assoc, List.take_append_drop]
        rw [← List.append_assoc (left.take _), List.take_append_drop]
      rw [whole]
      refine window_within _ _ _ ?_ ?_
      · rw [List.length_take]
        omega
      · simp only [List.rtake, List.length_append, List.length_take, List.length_drop]
        omega

variable [DecidableEq α]

/-- All windows of a list but a few are on the left or on the right of a segment of it. -/
theorem card_windows_sdiff (width : Nat) (left middle right : List α) :
    ((windows (width + 1) (left ++ middle ++ right)).toFinset \
      ((windows (width + 1) left).toFinset ∪ (windows (width + 1) right).toFinset)).card ≤
      width + middle.length := by
  have covered : (windows (width + 1) (left ++ middle ++ right)).toFinset \
      ((windows (width + 1) left).toFinset ∪ (windows (width + 1) right).toFinset) ⊆
      (windows (width + 1) (left.rtake width ++ middle ++ right.take width)).toFinset := by
    intro window member
    simp only [Finset.mem_sdiff, Finset.mem_union, List.mem_toFinset, not_or] at member ⊢
    obtain ⟨inWhole, notLeft, notRight⟩ := member
    exact ((windows_append width left middle right inWhole).resolve_left notLeft).resolve_left
      notRight
  have few : (windows (width + 1) (left.rtake width ++ middle ++ right.take width)).length ≤
      width + middle.length := by
    rw [length_windows]
    simp only [List.rtake, List.length_append, List.length_drop, List.length_take]
    omega
  exact (Finset.card_le_card covered).trans ((List.toFinset_card_le _).trans few)

/-! ## Edits -/

/-- The list with one element replaced, left out or added. -/
inductive Edited {α : Type*} : List α → List α → Prop where
  | substitution (before after : List α) (old new : α) :
      Edited (before ++ old :: after) (before ++ new :: after)
  | deletion (before after : List α) (old : α) :
      Edited (before ++ old :: after) (before ++ after)
  | insertion (before after : List α) (new : α) :
      Edited (before ++ after) (before ++ new :: after)

/-- An edit replaces a segment of at most one element by another one. -/
theorem Edited.segments {α : Type*} {original changed : List α}
    (edited : Edited original changed) :
    ∃ before old new after, original = before ++ old ++ after ∧
      changed = before ++ new ++ after ∧ old.length ≤ 1 ∧ new.length ≤ 1 := by
  cases edited with
  | substitution before after old new =>
    exact ⟨before, [old], [new], after, by simp, by simp, le_refl 1, le_refl 1⟩
  | deletion before after old =>
    exact ⟨before, [old], [], after, by simp, by simp, le_refl 1, Nat.zero_le 1⟩
  | insertion before after new =>
    exact ⟨before, [], [new], after, by simp, by simp, Nat.zero_le 1, le_refl 1⟩

/-- An edit shortens a list by at most one. -/
theorem Edited.length_le {α : Type*} {original changed : List α}
    (edited : Edited original changed) : original.length ≤ changed.length + 1 := by
  obtain ⟨before, old, new, after, rfl, rfl, oldShort, _⟩ := edited.segments
  simp only [List.length_append]
  omega

end Library.Windows
