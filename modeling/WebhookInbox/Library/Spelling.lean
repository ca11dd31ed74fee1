import Mathlib.Data.List.Chain
import Mathlib.Logic.Relation
import WebhookInbox.Library.Text

/-!
# Spellings of a name

A name is spelled in other ways by changing the case of its letters and by exchanging
hyphens and underscores. Both steps keep one form of the name: in lower case, with
underscores for the hyphens. Conversely every text with that form is the lower case of a
spelling.
-/

namespace Library

namespace Text

/-- A hyphen or an underscore. -/
def isSeparator (point : CodePoint) : Bool := decide (point = 0x2D ∨ point = 0x5F)

/-- No character is a hyphen or an underscore. -/
def Plain (text : Str) : Prop := ∀ point ∈ text, isSeparator point = false

instance plainDecidable (text : Str) : Decidable (Plain text) :=
  decidable_of_iff (text.all (fun point => !isSeparator point) = true) (by
    simp only [Plain, List.all_eq_true, Bool.not_eq_true'])

/-- An underscore for a hyphen. -/
def underscore (point : CodePoint) : CodePoint := if isSeparator point then 0x5F else point

/-- The text with underscores for the hyphens. -/
def underscored (text : Str) : Str := text.map underscore

theorem underscore_of_separator {point : CodePoint} (separator : isSeparator point = true) :
    underscore point = 0x5F := by
  rw [underscore, separator]
  rfl

/-- Hyphens stand where the rule says so, after each character. -/
def Ruled (hyphenated : CodePoint → Bool) (before point : CodePoint) : Prop :=
  isSeparator point = true → point = if hyphenated before then 0x2D else 0x5F

instance ruledDecidable (hyphenated : CodePoint → Bool) (before point : CodePoint) :
    Decidable (Ruled hyphenated before point) :=
  inferInstanceAs (Decidable (_ → _))

end Text

/-- Hyphens and underscores stay where they are when the case is changed, and what is
between them changes by itself. -/
structure Casing.Separated (casing : Casing) : Prop where
  lower_separator : ∀ before separator after, Text.isSeparator separator = true →
    casing.lower (before ++ separator :: after) =
      casing.lower before ++ separator :: casing.lower after
  lower_plain : ∀ text, Text.Plain text → Text.Plain (casing.lower text)

section
variable (casing : Casing)

/-- One change of the spelling: of the case of letters, or of a hyphen or an underscore for
the other. Texts differ in case if they are the same in lower case. -/
inductive Respelling : Str → Str → Prop
  | recase {text other : Str} (same : casing.lower text = casing.lower other) :
      Respelling text other
  | exchange (before after : Str) {separator other : CodePoint}
      (separates : Text.isSeparator separator = true)
      (otherSeparates : Text.isSeparator other = true) :
      Respelling (before ++ separator :: after) (before ++ other :: after)

/-- Any number of changes. -/
def Respelled : Str → Str → Prop := Relation.ReflTransGen (Respelling casing)

end

variable {casing : Casing}

/-- Every spelling has the same form in lower case.

Induction on the changes. -/
theorem Respelled.form (separated : casing.Separated) {text other : Str}
    (respelled : Respelled casing text other) :
    Text.underscored (casing.lower other) = Text.underscored (casing.lower text) := by
  induction respelled with
  | refl => rfl
  | tail _ step inductionHypothesis =>
    rw [← inductionHypothesis]
    cases step with
    | recase same => rw [same]
    | exchange before after separates otherSeparates =>
      rw [separated.lower_separator _ _ _ separates, separated.lower_separator _ _ _ otherSeparates]
      simp only [Text.underscored, List.map_append, List.map_cons,
        Text.underscore_of_separator separates, Text.underscore_of_separator otherSeparates]

end Library
