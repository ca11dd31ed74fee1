import WebhookInbox.Db

/-!
# From a route to an endpoint

An endpoint is registered under the normal form of the path that it was given,
and a request is dispatched to the endpoint under the normal form of its route.
The two agree on the advertised URL of an endpoint only if the stored path is its
own normal form.

`normalizePath_fixed` says for which submitted paths that is so: the single removal
of the prefix must not uncover another prefix or a slash, and the pattern must not
have passed a final newline.
-/

namespace WebhookInbox.Endpoint

open Library

/-- The endpoint that answers a route. -/
def dispatch (endpoints : Endpoints) (route : Str) : Option EndpointDoc :=
  endpoints.findPath (normalizePath route)

/-- What trimming leaves of a path. -/
def cleaned (path : Str) : Str := Text.stripChar slash (Text.strip path)

/-- Registering the path once already brings it to its normal form. -/
def SelfAddressed (value : Str) : Prop :=
  ¬ lit "webhooks/webhooks/" <+: cleaned value ∧ ¬ lit "webhooks//" <+: cleaned value ∧
    ¬ [newline] <:+ cleaned value

instance selfAddressedDecidable (value : Str) : Decidable (SelfAddressed value) :=
  inferInstanceAs (Decidable (_ ∧ _ ∧ _))

/-- The prefix is removed once. -/
theorem normalizePath_eq (path : Str) :
    normalizePath path = Text.removePrefix (cleaned path) (lit "webhooks/") := by
  change (if Text.startsWith (cleaned path) (lit "webhooks/") = true then
    Text.removePrefix (cleaned path) (lit "webhooks/") else cleaned path) = _
  split
  · rfl
  · rename_i missing
    rw [Text.removePrefix, if_neg missing]

/-- A normal form is what is left of the trimmed path, with or without the prefix. -/
theorem cleaned_cases (path : Str) :
    (cleaned path = lit "webhooks/" ++ normalizePath path) ∨
      (¬ lit "webhooks/" <+: cleaned path ∧ cleaned path = normalizePath path) := by
  rw [normalizePath_eq]
  by_cases there : lit "webhooks/" <+: cleaned path
  · obtain ⟨rest, whole⟩ := there
    refine .inl ?_
    rw [← whole, Text.removePrefix_append]
  · exact .inr ⟨there, (Text.removePrefix_of_not there).symm⟩

/-- Text that trimming leaves as long as it was is unchanged at every stage. -/
theorem cleaned_eq_self {path : Str} (fixed : cleaned path = path) :
    Text.strip path = path ∧ Text.stripChar slash path = path := by
  have inner : (Text.strip path).Sublist path := Text.stripBy_sublist _ _
  have outer : (cleaned path).Sublist (Text.strip path) := Text.stripBy_sublist _ _
  rw [fixed] at outer
  have stripped : Text.strip path = path :=
    inner.eq_of_length (Nat.le_antisymm inner.length_le outer.length_le)
  refine ⟨stripped, ?_⟩
  rw [cleaned, stripped] at fixed
  exact fixed

/-- A path is its own normal form exactly if trimming leaves it and it does not start
with the prefix. -/
theorem normalizePath_self_iff (path : Str) :
    normalizePath path = path ↔ cleaned path = path ∧ ¬ lit "webhooks/" <+: path := by
  constructor
  · intro fixed
    rcases cleaned_cases path with whole | ⟨bare, same⟩
    · -- Removing the prefix would make the text shorter.
      have shorter : (cleaned path).length ≤ path.length :=
        ((Text.stripBy_sublist _ _).trans (Text.stripBy_sublist _ _)).length_le
      rw [whole, fixed, List.length_append] at shorter
      have positive : 0 < (lit "webhooks/").length := by decide
      omega
    · rw [fixed] at same
      rw [same] at bare
      exact ⟨same, bare⟩
  · rintro ⟨same, bare⟩
    rw [normalizePath_eq, same, Text.removePrefix_of_not bare]

/-- No path character is whitespace. -/
theorem isSpace_of_isPathCharacter {point : CodePoint} (allowed : isPathCharacter point = true) :
    Text.isSpace point = false := by
  simp only [isPathCharacter, decide_eq_true_eq] at allowed
  simp only [Text.isSpace, decide_eq_false_iff_not]
  omega

/-- A path that passed its check consists of path characters, apart from a newline at
its end. -/
theorem PathChecked.characters {path : Str} (checked : PathChecked path)
    (plain : ¬ [newline] <:+ path) : ∀ point ∈ path, isPathCharacter point = true := by
  have matched := checked.2.1
  have notEnding : ¬ Text.endsWith path [newline] = true := by simpa using plain
  simp only [matchesPathPattern, notEnding, Bool.false_eq_true, ↓reduceIte, Bool.and_eq_true,
    List.all_eq_true] at matched
  exact matched.2

/-- What is left of a path after the prefix keeps its last character. -/
theorem suffix_cleaned (value : Str) : normalizePath value <:+ cleaned value := by
  rcases cleaned_cases value with whole | ⟨_, same⟩
  · exact ⟨_, whole.symm⟩
  · exact same ▸ List.suffix_refl _

/-- The normal form of a path starts with a slash or with the prefix only if that was
uncovered by removing the prefix. -/
theorem prefix_uncovered {value start : Str} (begins : start <+: normalizePath value)
    (covered : ¬ start <+: cleaned value) : lit "webhooks/" ++ start <+: cleaned value := by
  rcases cleaned_cases value with whole | ⟨_, same⟩
  · rw [whole]
    exact (List.prefix_append_right_inj _).mpr begins
  · rw [same] at covered
    exact absurd begins covered

/-- Trimmed text starts with no slash. -/
theorem slash_not_leading (value : Str) : ¬ [slash] <+: cleaned value := by
  rintro ⟨rest, whole⟩
  have kept := Text.stripBy_head _ _ slash rest whole.symm
  simp at kept

/-- An accepted path is its own normal form exactly if the submitted one was
self-addressed.

Proof: trimming changes an accepted path only at a slash that the prefix covered or
at a newline that the pattern passed, and the prefix is removed again only if it
stood there twice. -/
theorem normalizePath_fixed {value : Str} {path : Path} (accepted : validatePath value = .ok path) :
    normalizePath path.val = path.val ↔ SelfAddressed value := by
  have form := validatePath_ok accepted
  have checked := path.property
  rw [form] at checked ⊢
  rw [normalizePath_self_iff]
  constructor
  · rintro ⟨same, bare⟩
    obtain ⟨stripped, unslashed⟩ := cleaned_eq_self same
    refine ⟨?_, ?_, ?_⟩
    · intro twice
      rcases cleaned_cases value with whole | ⟨missing, _⟩
      · rw [whole] at twice
        exact bare ((List.prefix_append_right_inj (lit "webhooks/")).mp twice)
      · exact missing ((List.prefix_append (lit "webhooks/") (lit "webhooks/")).trans twice)
    · intro doubled
      rcases cleaned_cases value with whole | ⟨missing, _⟩
      · rw [whole] at doubled
        obtain ⟨rest, begins⟩ := (List.prefix_append_right_inj (lit "webhooks/")).mp doubled
        have kept := Text.stripBy_head _ _ slash rest (unslashed.trans begins.symm)
        simp at kept
      · exact missing ((List.prefix_append (lit "webhooks/") [slash]).trans doubled)
    · intro ending
      obtain ⟨before, point, split⟩ :=
        (List.eq_nil_or_concat' (normalizePath value)).resolve_left checked.1
      have last := Text.stripBy_last _ _ before point (stripped.trans split)
      obtain ⟨rest, whole⟩ := suffix_cleaned value
      obtain ⟨other, ends⟩ := ending
      rw [← whole, split, ← List.append_assoc] at ends
      obtain rfl : newline = point := by simpa using congrArg List.getLast? ends
      exact absurd last (by decide)
  · rintro ⟨single, unslashed, plain⟩
    have plainForm : ¬ [newline] <:+ normalizePath value :=
      fun ending => plain (ending.trans (suffix_cleaned value))
    have characters := checked.characters plainForm
    have stripped : Text.strip (normalizePath value) = normalizePath value := by
      apply Text.stripBy_eq_self
      · intro point rest split
        exact isSpace_of_isPathCharacter (characters point (by simp [split]))
      · intro before point split
        exact isSpace_of_isPathCharacter (characters point (by simp [split]))
    have trimmed : Text.stripChar slash (normalizePath value) = normalizePath value := by
      apply Text.stripBy_eq_self
      · intro point rest split
        by_contra isSlash
        obtain rfl : point = slash := by simpa using isSlash
        exact unslashed (prefix_uncovered ⟨rest, split.symm⟩ (slash_not_leading value))
      · intro before point split
        obtain ⟨start, whole⟩ := suffix_cleaned value
        rw [split, ← List.append_assoc] at whole
        exact Text.stripBy_last _ _ _ point whole.symm
    refine ⟨by rw [cleaned, stripped, trimmed], ?_⟩
    intro again
    by_cases covered : lit "webhooks/" <+: cleaned value
    · rcases cleaned_cases value with whole | ⟨missing, _⟩
      · apply single
        rw [whole]
        exact (List.prefix_append_right_inj (lit "webhooks/")).mpr again
      · exact missing covered
    · exact covered ((List.prefix_append _ _).trans (prefix_uncovered again covered))

/-- Every endpoint that was registered under an accepted path answers at its own URL
exactly if the submitted path was self-addressed.

Proof: the lookup is by the normal form of the stored path, and no other endpoint has
that path. -/
theorem own_url_answers {value : Str} {path : Path} (accepted : validatePath value = .ok path) :
    (normalizePath path.val = path.val ↔ SelfAddressed value) ∧
      ∀ (endpoints : Endpoints) (doc : EndpointDoc), doc ∈ endpoints.stored.docs →
        doc.path = some path.val →
        (dispatch endpoints path.val = some doc ↔ SelfAddressed value) := by
  refine ⟨normalizePath_fixed accepted, ?_⟩
  intro endpoints doc member located
  rw [← normalizePath_fixed accepted, dispatch, Endpoints.findPath_eq_some_iff, located]
  constructor
  · rintro ⟨_, same⟩
    exact (Option.some.inj same).symm
  · intro fixed
    exact ⟨member, by rw [fixed]⟩

/-- A plain path answers at its own URL. -/
theorem own_url_answers_github :
    validatePath (lit "/webhooks/github") = .ok ⟨lit "github", by decide⟩ ∧
      normalizePath (lit "github") = lit "github" :=
  have accepted : validatePath (lit "/webhooks/github") = .ok ⟨lit "github", by decide⟩ := by
    rfl
  ⟨accepted, (own_url_answers accepted).1.mpr (by decide)⟩

/-- A path that repeats the prefix is stored with it, and is not looked up so. -/
theorem own_url_repeated_prefix :
    ¬ ∀ (value : Str) (path : Path), validatePath value = .ok path →
      normalizePath path.val = path.val := by
  intro claimed
  have fixed := claimed (lit "webhooks/webhooks/github") ⟨lit "webhooks/github", by decide⟩ (by rfl)
  exact absurd fixed (by decide)

end WebhookInbox.Endpoint
