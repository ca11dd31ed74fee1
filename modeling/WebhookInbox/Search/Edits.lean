import WebhookInbox.Library.Windows
import WebhookInbox.Search.Ranking
import WebhookInbox.Search.Recall

/-!
# Searching with a mistake

A query of one term that differs from a token in one place still shares two fifths of its
trigrams with it: the edit touches at most three of them, and leaves at least two others,
one of which has the space that pads the term. So the event of the token reaches the least
score.
-/

namespace WebhookInbox.Search

open Library Calendar IsoFormat Documents Aggregation KeysetPaging WebhookInbox.Tokenize
  Library.Windows

/-! ## Trigrams as windows -/

/-- The trigrams of a token are the windows of the padded token. -/
theorem trigrams_eq {token : Str} (long : minTrigramLength ≤ token.length) :
    Tokenize.trigrams token = windows 3 ([space] ++ token ++ [space]) := by
  rw [Tokenize.trigrams, if_neg (not_lt.mpr long)]
  rfl

/-- A token that is long enough has trigrams. -/
theorem trigrams_ne_nil {token : Str} (long : minTrigramLength ≤ token.length) :
    Tokenize.trigrams token ≠ [] := by
  rw [trigrams_eq long, ← List.length_pos_iff, length_windows]
  simp only [List.length_append, List.length_singleton]
  unfold minTrigramLength at long
  omega

/-- Three characters in a row of the padded token are one of its trigrams. -/
theorem mem_trigrams {token gram : Str} (long : minTrigramLength ≤ token.length)
    (three : gram.length = 3) (inside : gram <:+: [space] ++ token ++ [space]) :
    gram ∈ Tokenize.trigrams token := by
  rw [trigrams_eq long]
  exact (mem_windows three).mpr inside

section
variable {before old new after : Str}

/-- The padded text around a segment. -/
theorem padded_segments (before middle after : Str) :
    [space] ++ (before ++ middle ++ after) ++ [space] =
      (space :: before) ++ middle ++ (after ++ [space]) := by
  simp only [List.append_assoc, List.cons_append, List.nil_append]

/-- Three characters in a row before or after a segment of a token are one of its
trigrams. -/
theorem mem_trigrams_around {middle gram : Str} (room : 4 ≤ before.length + after.length)
    (three : gram.length = 3) (inside : gram <:+: space :: before ∨ gram <:+: after ++ [space]) :
    gram ∈ Tokenize.trigrams (before ++ middle ++ after) := by
  have long : minTrigramLength ≤ (before ++ middle ++ after).length := by
    simp only [List.length_append, minTrigramLength]
    omega
  refine mem_trigrams long three ?_
  rw [padded_segments]
  cases inside with
  | inl left =>
    exact left.trans ((List.prefix_append _ _).trans (List.prefix_append _ _)).isInfix
  | inr right => exact right.trans (List.suffix_append _ _).isInfix

/-- The trigrams that two texts share. -/
def sharedGrams (query token : Str) : Finset Str :=
  (Tokenize.trigrams query).toFinset ∩ (Tokenize.trigrams token).toFinset

/-- The space is no term character. -/
theorem ne_space {point : CodePoint} (own : isTermCharacter point = true) : point ≠ space := by
  rintro rfl
  revert own
  decide

/-- Around a segment there are two different trigrams.

Proof: with three characters on one side take the trigram there that is padded and one that
is not; otherwise there are two on each side, and the padded ones differ. -/
theorem two_around (room : 4 ≤ before.length + after.length)
    (beforeOwn : ∀ point ∈ before, isTermCharacter point = true)
    (afterOwn : ∀ point ∈ after, isTermCharacter point = true) :
    ∃ first second : Str, first ≠ second ∧ first.length = 3 ∧ second.length = 3 ∧
      (first <:+: space :: before ∨ first <:+: after ++ [space]) ∧
      (second <:+: space :: before ∨ second <:+: after ++ [space]) := by
  by_cases longBefore : 3 ≤ before.length
  · obtain ⟨a, b, c, start⟩ := List.length_eq_three.mp (List.length_take_of_le longBefore)
    have whole : before = [a, b, c] ++ before.drop 3 := start ▸ (List.take_append_drop 3 before).symm
    have own : isTermCharacter a = true := by
      refine beforeOwn a ?_
      rw [whole]
      exact List.mem_cons_self
    refine ⟨[a, b, c], [space, a, b], ?_, rfl, rfl, .inl ?_, .inl ?_⟩
    · intro same
      exact ne_space own (List.cons.inj same).1
    · exact ⟨[space], before.drop 3, congrArg (space :: ·) whole.symm⟩
    · exact ⟨[], c :: before.drop 3, congrArg (space :: ·) whole.symm⟩
  · by_cases longAfter : 3 ≤ after.length
    · have size : (after.drop (after.length - 3)).length = 3 := by
        rw [List.length_drop]
        omega
      obtain ⟨a, b, c, finish⟩ := List.length_eq_three.mp size
      have whole : after = after.take (after.length - 3) ++ [a, b, c] :=
        finish ▸ (List.take_append_drop (after.length - 3) after).symm
      have own : isTermCharacter c = true := by
        refine afterOwn c ?_
        rw [whole]
        simp
      refine ⟨[a, b, c], [b, c, space], ?_, rfl, rfl, .inr ?_, .inr ?_⟩
      · intro same
        simp only [List.cons.injEq, and_true] at same
        exact ne_space own same.2.2
      · exact ⟨after.take (after.length - 3), [space], by rw [← whole]⟩
      · refine ⟨after.take (after.length - 3) ++ [a], [], ?_⟩
        rw [List.append_nil, whole]
        simp
    · obtain ⟨a, b, rfl⟩ := List.length_eq_two.mp (by omega : before.length = 2)
      obtain ⟨c, d, rfl⟩ := List.length_eq_two.mp (by omega : after.length = 2)
      refine ⟨[space, a, b], [c, d, space], ?_, rfl, rfl, .inl List.infix_rfl,
        .inr List.infix_rfl⟩
      intro same
      exact ne_space (afterOwn c List.mem_cons_self) (List.cons.inj same).1.symm

/-- An edit leaves two shared trigrams. -/
theorem two_shared (room : 4 ≤ before.length + after.length)
    (beforeOwn : ∀ point ∈ before, isTermCharacter point = true)
    (afterOwn : ∀ point ∈ after, isTermCharacter point = true) :
    2 ≤ (sharedGrams (before ++ new ++ after) (before ++ old ++ after)).card := by
  obtain ⟨first, second, differ, firstLength, secondLength, firstInside, secondInside⟩ :=
    two_around room beforeOwn afterOwn
  have shared : ∀ gram : Str, gram.length = 3 →
      (gram <:+: space :: before ∨ gram <:+: after ++ [space]) →
      gram ∈ sharedGrams (before ++ new ++ after) (before ++ old ++ after) := by
    intro gram three inside
    exact Finset.mem_inter.mpr
      ⟨List.mem_toFinset.mpr (mem_trigrams_around room three inside),
        List.mem_toFinset.mpr (mem_trigrams_around room three inside)⟩
  exact Finset.one_lt_card.mpr ⟨first, shared first firstLength firstInside, second,
    shared second secondLength secondInside, differ⟩

/-- An edit brings at most three trigrams of its own. -/
theorem few_new (room : 4 ≤ before.length + after.length) (single : new.length ≤ 1) :
    ((Tokenize.trigrams (before ++ new ++ after)).toFinset \
      (Tokenize.trigrams (before ++ old ++ after)).toFinset).card ≤ 3 := by
  have long : minTrigramLength ≤ (before ++ new ++ after).length := by
    simp only [List.length_append, minTrigramLength]
    omega
  have kept : (windows 3 (space :: before)).toFinset ∪ (windows 3 (after ++ [space])).toFinset ⊆
      (Tokenize.trigrams (before ++ old ++ after)).toFinset := by
    intro gram member
    simp only [Finset.mem_union, List.mem_toFinset] at member ⊢
    cases member with
    | inl left =>
      have three := length_of_mem left
      exact mem_trigrams_around room three (.inl ((mem_windows three).mp left))
    | inr right =>
      have three := length_of_mem right
      exact mem_trigrams_around room three (.inr ((mem_windows three).mp right))
  have bounded := card_windows_sdiff 2 (space :: before) new (after ++ [space])
  rw [← padded_segments, ← trigrams_eq long] at bounded
  calc _ ≤ _ := Finset.card_le_card (Finset.sdiff_subset_sdiff (Finset.Subset.refl _) kept)
    _ ≤ 2 + new.length := bounded
    _ ≤ 3 := Nat.add_le_add_left single 2

end

/-- Two fifths of the trigrams of a text are those of a token that it differs from in one
place. -/
theorem two_fifths {token query : Str} (long : 5 ≤ token.length)
    (characters : ∀ point ∈ token, isTermCharacter point = true)
    (edited : Edited token query) :
    2 * (Tokenize.trigrams query).toFinset.card ≤ 5 * (sharedGrams query token).card := by
  obtain ⟨before, old, new, after, rfl, rfl, oldShort, newShort⟩ := edited.segments
  simp only [List.length_append] at long
  have room : 4 ≤ before.length + after.length := by omega
  have shared : 2 ≤ (sharedGrams (before ++ new ++ after) (before ++ old ++ after)).card := by
    refine two_shared room ?_ ?_
    · intro point member
      exact characters point (List.mem_append_left _ (List.mem_append_left _ member))
    · intro point member
      exact characters point (List.mem_append_right _ member)
  have fresh : ((Tokenize.trigrams (before ++ new ++ after)).toFinset \
      (Tokenize.trigrams (before ++ old ++ after)).toFinset).card ≤ 3 := few_new room newShort
  have sum := Finset.card_inter_add_card_sdiff
    (Tokenize.trigrams (before ++ new ++ after)).toFinset
    (Tokenize.trigrams (before ++ old ++ after)).toFinset
  change (sharedGrams (before ++ new ++ after) (before ++ old ++ after)).card + _ = _ at sum
  omega

/-! ## A query of one term -/

section
variable {runtime : Runtime} {query : Str}

/-- The trigrams of a text of term characters that fits into a token are those of the query. -/
theorem queryGrams_single (filled : query ≠ [])
    (own : ∀ point ∈ query, isTermCharacter point = true)
    (short : query.length ≤ maxTokenLength) :
    (queryGrams runtime query).toFinset = (Tokenize.trigrams query).toFinset := by
  have single : queryTerms runtime query = [query] := by
    rw [queryTerms, exactText, normalize_characters own, splitTerms_single filled own short]
    rfl
  rw [queryGrams, single, List.flatMap_singleton]
  ext gram
  simp only [List.mem_toFinset, List.mem_eraseDups]

end

/-- Rounding keeps the order, and the least score is what the least ratio comes to. -/
structure Database.Rounds (database : Database) : Prop where
  monotone : Monotone database.round
  least : database.round (fuzzyScore * database.round fuzzyMinRatio) = minScore

/-- Two fifths of the trigrams are enough for the least score. -/
theorem least_score {database : Database} (rounds : database.Rounds) {value : Option Bson}
    {length : Nat} {terms grams tokens trigrams : List Str} (distinct : grams.Nodup)
    (any : grams ≠ [])
    (share : 2 * grams.toFinset.card ≤ 5 * (grams.toFinset ∩ trigrams.toFinset).card) :
    minScore ≤ scoreOf database.round value length terms grams tokens trigrams := by
  unfold scoreOf
  split
  · norm_num [minScore, fuzzyScore, fuzzyMinRatio, exactScore]
  · split
    · norm_num [minScore, fuzzyScore, fuzzyMinRatio, prefixScore]
    · split
      · norm_num [minScore, fuzzyScore, fuzzyMinRatio, tokenScore]
      · have positive : (0 : ℚ) < grams.length :=
          Nat.cast_pos.mpr (List.length_pos_iff.mpr any)
        have enough : (2 * grams.length : ℚ) ≤
            5 * (grams.toFinset ∩ trigrams.toFinset).card := by
          rw [List.toFinset_card_of_nodup distinct] at share
          exact_mod_cast share
        have ratio : fuzzyMinRatio ≤
            (grams.toFinset ∩ trigrams.toFinset).card / grams.length := by
          rw [fuzzyMinRatio, div_le_div_iff₀ (by norm_num) positive]
          linarith
        rw [ratioOf, if_pos any, shared_card, ← rounds.least]
        exact rounds.monotone (mul_le_mul_of_nonneg_left (rounds.monotone ratio)
          (by norm_num [fuzzyScore]))

/-- A query that differs from a token of an event in one place has two fifths of its trigrams
in common with it, and finds the event. -/
theorem edited_found {runtime : Runtime} {tokenizer : Tokenize.Runtime} {database : Database}
    (rounds : database.Rounds) {endpointName : Str} {eventType : Option Str}
    {headers fields : Dict Str Str} {body : Json} {terms : Terms}
    (built : terms = build tokenizer endpointName eventType headers fields body)
    (few : (terms.tokens.flatMap Tokenize.trigrams).toFinset.card ≤ trigramLimit)
    {events : List Event} {filters : Filters} {limit : Option Nat} {event : Event}
    (visible : Visible runtime events filters limit event)
    (tokens : event.tokens = some terms.tokens) (trigrams : event.trigrams = some terms.trigrams)
    {token query : Str} (indexed : token ∈ terms.tokens) (long : 5 ≤ token.length)
    (characters : ∀ point ∈ token, isTermCharacter point = true)
    (own : ∀ point ∈ query, isTermCharacter point = true)
    (short : query.length ≤ maxTokenLength) (edited : Edited token query) :
    2 * (Tokenize.trigrams query).toFinset.card ≤ 5 * (sharedGrams query token).card ∧
      Finds runtime database events filters limit query event minScore := by
  have fifths := two_fifths long characters edited
  refine ⟨fifths, ?_⟩
  have size := edited.length_le
  have filled : query ≠ [] := by
    rintro rfl
    rw [List.length_nil] at size
    omega
  have stored : ∀ gram ∈ Tokenize.trigrams token, gram ∈ event.trigrams.getD [] := by
    intro gram made
    rw [trigrams]
    subst built
    exact mem_capped_of_few few (List.mem_flatMap.mpr ⟨token, indexed, made⟩)
  have set : (queryGrams runtime query).toFinset = (Tokenize.trigrams query).toFinset :=
    queryGrams_single filled own short
  have covered : sharedGrams query token ⊆
      (queryGrams runtime query).toFinset ∩ (event.trigrams.getD []).toFinset := by
    rw [set]
    refine Finset.inter_subset_inter_left ?_
    intro gram member
    exact List.mem_toFinset.mpr (stored gram (List.mem_toFinset.mp member))
  have share : 2 * (queryGrams runtime query).toFinset.card ≤
      5 * ((queryGrams runtime query).toFinset ∩ (event.trigrams.getD []).toFinset).card := by
    rw [set] at covered ⊢
    exact fifths.trans (Nat.mul_le_mul_left 5 (Finset.card_le_card covered))
  have some' : (Tokenize.trigrams query).toFinset.Nonempty := by
    refine (List.toFinset_nonempty_iff _).mpr (trigrams_ne_nil ?_)
    unfold minTrigramLength
    omega
  have any : queryGrams runtime query ≠ [] :=
    (List.toFinset_nonempty_iff _).mp (set ▸ some')
  obtain ⟨gram, inShared⟩ : (sharedGrams query token).Nonempty := by
    have counted := Finset.card_pos.mpr some'
    exact Finset.card_pos.mp (by omega)
  have candidate : Candidate (exactText runtime query) (queryTerms runtime query)
      (queryGrams runtime query) (event.tokens.getD []) (event.trigrams.getD []) := by
    have both := Finset.mem_inter.mp (covered inShared)
    exact .inr (.inr (.inr ⟨gram, List.mem_toFinset.mp both.1, List.mem_toFinset.mp both.2⟩))
  exact finds_of_score database visible (plain_of_characters runtime own) candidate
    (le_refl minScore) (least_score rounds (nodup_eraseDups _) any share)

/-- Exact arithmetic rounds so. -/
theorem rounds_exactly (server : Server) : (exactly server).Rounds where
  monotone := monotone_id
  least := rfl

/-- A name without one of its letters finds the event. -/
theorem edited_found_customer :
    2 * (Tokenize.trigrams (lit "lovlace")).toFinset.card ≤
        5 * (sharedGrams (lit "lovlace") (lit "lovelace")).card ∧
      Finds asciiRuntime (exactly systemVariables) [customerEvent] {} none (lit "lovlace")
        customerEvent minScore := by
  have edited : Edited (lit "lovelace") (lit "lovlace") :=
    .deletion (lit "lov") (lit "lace") (CodePoint.ofChar 'e')
  exact edited_found (rounds_exactly systemVariables) (rfl : customerTerms = _)
    (by decide +kernel) (visible_alone asciiRuntime customerEvent) rfl rfl (by decide +kernel)
    (by decide) (List.all_eq_true.mp (by decide +kernel)) (List.all_eq_true.mp (by decide +kernel))
    (by decide) edited

end WebhookInbox.Search
