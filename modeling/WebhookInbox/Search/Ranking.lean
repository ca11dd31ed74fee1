import WebhookInbox.Search.Scoring

/-!
# The score of a search result

The documented ranking gives an event the highest of four tiers. The pipeline first selects
candidates by what the indexes can serve, and then computes the score case by case. If the
text of the query is data, the two together give the documented score, and no event that
reaches the least score is lost: `ranking_exact`.
-/

namespace WebhookInbox.Search

open Library Calendar IsoFormat Documents Aggregation KeysetPaging WebhookInbox.Tokenize

/-! ## The documented score -/

/-- The trigrams of the terms. -/
def gramSet (terms : List Str) : Finset Str := (terms.flatMap Tokenize.trigrams).toFinset

/-- A number that counts if something holds. -/
def tier (holds : Prop) [Decidable holds] (score : ℚ) : ℚ := if holds then score else 0

/-- The highest of the four tiers: a token equals the query, a token starts with it, every
term of it is a token, and the share of its trigrams. -/
def highest (exact : Str) (terms tokens trigrams : List Str) : ℚ :=
  max (tier (exact ∈ tokens) 100)
    (max (tier (∃ token ∈ tokens, exact <+: token) 60)
      (max (tier (terms ≠ [] ∧ ∀ term ∈ terms, term ∈ tokens) 40)
        (tier (gramSet terms).Nonempty
          (30 * (gramSet terms ∩ trigrams.toFinset).card / (gramSet terms).card))))

/-- The score that the documentation gives an event. -/
def referenceScore (runtime : Runtime) (query : Str) (event : Event) : ℚ :=
  highest (exactText runtime query) (splitTerms runtime.casing (exactText runtime query))
    (event.tokens.getD []) (event.trigrams.getD [])

/-- The share of the trigrams is at most one, and not negative. -/
theorem share_bounds (grams : Finset Str) (trigrams : List Str) :
    0 ≤ (30 * (grams ∩ trigrams.toFinset).card / grams.card : ℚ) ∧
      (30 * (grams ∩ trigrams.toFinset).card / grams.card : ℚ) ≤ 30 := by
  have fewer : ((grams ∩ trigrams.toFinset).card : ℚ) ≤ grams.card :=
    Nat.cast_le.mpr (Finset.card_le_card Finset.inter_subset_left)
  constructor
  · positivity
  · exact div_le_of_le_mul₀ (by positivity) (by norm_num) (by linarith)

/-- The trigrams that the database counts are the shared ones. -/
theorem shared_card (grams trigrams : List Str) :
    (trigrams.filter (fun gram => decide (gram ∈ grams))).dedup.length =
      (grams.toFinset ∩ trigrams.toFinset).card := by
  rw [← List.card_toFinset]
  congr 1
  ext gram
  simp [and_comm]

/-- The ratio that the database computes exactly is the share. -/
theorem ratio_exact {grams : List Str} (distinct : grams.Nodup) (trigrams : List Str) :
    fuzzyScore * ratioOf id grams trigrams =
      tier grams.toFinset.Nonempty
        (30 * (grams.toFinset ∩ trigrams.toFinset).card / grams.toFinset.card) := by
  have filled : grams.toFinset.Nonempty ↔ grams ≠ [] := List.toFinset_nonempty_iff grams
  by_cases any : grams ≠ []
  · rw [ratioOf, if_pos any, tier, if_pos (filled.mpr any), shared_card,
      List.toFinset_card_of_nodup distinct, fuzzyScore, id, mul_div_assoc]
  · rw [ratioOf, if_neg any, tier, if_neg (mt filled.mp any), mul_zero]

/-- A tier that counts is its score, which a tier never exceeds. -/
theorem tier_bounds {holds : Prop} [Decidable holds] {score : ℚ} (positive : 0 ≤ score) :
    0 ≤ tier holds score ∧ tier holds score ≤ score := by
  unfold tier
  split
  · exact ⟨positive, le_refl score⟩
  · exact ⟨le_refl 0, positive⟩

/-- The lowest tier. -/
theorem shareTier_bounds (grams : Finset Str) (trigrams : List Str) :
    0 ≤ tier grams.Nonempty (30 * (grams ∩ trigrams.toFinset).card / grams.card) ∧
      tier grams.Nonempty (30 * (grams ∩ trigrams.toFinset).card / grams.card) ≤ 30 := by
  have share := share_bounds grams trigrams
  have within := (tier_bounds share.1 : 0 ≤ tier grams.Nonempty _ ∧ _)
  exact ⟨within.1, within.2.trans share.2⟩

/-! ## The computed score -/

section
variable {exact : Str} {terms grams tokens trigrams : List Str}

/-- The terms of a candidate that has none of them count if all of them are tokens. -/
theorem Candidate.terms_ne_nil (candidate : Candidate exact terms grams tokens trigrams)
    (own : grams.toFinset = gramSet terms) (notWhole : exact ∉ tokens)
    (notStart : ¬ ∃ token ∈ tokens, exact <+: token) : terms ≠ [] := by
  rintro rfl
  rcases candidate with whole | start | every | ⟨gram, member, _⟩
  · exact notWhole whole
  · exact notStart start
  · exact every.1 rfl
  · rw [← List.mem_toFinset, own] at member
    simp [gramSet] at member

/-- Each case of the computed score is one of the tiers. Without terms the third case is
taken for every event, but a candidate is then in a tier above.

Proof: the tiers that are passed over give nothing, and those below give less. -/
theorem scoreOf_highest (distinct : grams.Nodup) (own : grams.toFinset = gramSet terms)
    (candidate : Candidate exact terms grams tokens trigrams) :
    scoreOf id (some (.str exact)) exact.length terms grams tokens trigrams =
      highest exact terms tokens trigrams := by
  have whole : tokens.any (fun token => (some (Bson.str exact)).any (isText token)) = true ↔
      exact ∈ tokens := by
    simp [isText]
  have start : tokens.any (fun token =>
      (some (Bson.str exact)).any (isText (token.take exact.length))) = true ↔
      ∃ token ∈ tokens, exact <+: token := by
    simp [isText, List.prefix_iff_eq_take]
  have every : terms.all (fun term => decide (term ∈ tokens)) = true ↔
      ∀ term ∈ terms, term ∈ tokens := by
    simp
  have ratio := ratio_exact distinct trigrams
  have lowest := shareTier_bounds (gramSet terms) trigrams
  rw [own] at ratio
  rw [scoreOf, highest]
  simp only [whole, start, every, id, ratio]
  generalize tier (gramSet terms).Nonempty _ = last at lowest ⊢
  have second : tier (∃ token ∈ tokens, exact <+: token) 60 ≤ 60 := (tier_bounds (by norm_num)).2
  have third : tier (terms ≠ [] ∧ ∀ term ∈ terms, term ∈ tokens) 40 ≤ 40 :=
    (tier_bounds (by norm_num)).2
  by_cases isWhole : exact ∈ tokens
  · rw [if_pos isWhole, tier, if_pos isWhole]
    have below : max (tier (∃ token ∈ tokens, exact <+: token) 60)
        (max (tier (terms ≠ [] ∧ ∀ term ∈ terms, term ∈ tokens) 40) last) ≤ 100 :=
      max_le (second.trans (by norm_num))
        (max_le (third.trans (by norm_num)) (lowest.2.trans (by norm_num)))
    exact (max_eq_left below).symm
  · have none : tier (exact ∈ tokens) 100 = 0 := if_neg isWhole
    rw [if_neg isWhole, none]
    by_cases isStart : ∃ token ∈ tokens, exact <+: token
    · have counts : tier (∃ token ∈ tokens, exact <+: token) 60 = 60 := if_pos isStart
      have below : max (tier (terms ≠ [] ∧ ∀ term ∈ terms, term ∈ tokens) 40) last ≤ 60 :=
        max_le (third.trans (by norm_num)) (lowest.2.trans (by norm_num))
      rw [if_pos isStart, counts, max_eq_left below, max_eq_right (by norm_num)]
      rfl
    · have noStart : tier (∃ token ∈ tokens, exact <+: token) 60 = 0 := if_neg isStart
      have filled := candidate.terms_ne_nil own isWhole isStart
      rw [if_neg isStart, noStart]
      by_cases isEvery : ∀ term ∈ terms, term ∈ tokens
      · have counts : tier (terms ≠ [] ∧ ∀ term ∈ terms, term ∈ tokens) 40 = 40 :=
          if_pos ⟨filled, isEvery⟩
        have below : last ≤ 40 := lowest.2.trans (by norm_num)
        rw [if_pos isEvery, counts, max_eq_left below, max_eq_right (by norm_num),
          max_eq_right (by norm_num)]
        rfl
      · have noTerms : tier (terms ≠ [] ∧ ∀ term ∈ terms, term ∈ tokens) 40 = 0 :=
          if_neg (fun both => isEvery both.2)
        rw [if_neg isEvery, noTerms, max_eq_right lowest.1, max_eq_right lowest.1,
          max_eq_right lowest.1]

/-- An event that reaches the least score is a candidate.

Proof: some tier counts, and each of them makes it one. -/
theorem candidate_of_highest (own : grams.toFinset = gramSet terms)
    (reached : minScore ≤ highest exact terms tokens trigrams) :
    Candidate exact terms grams tokens trigrams := by
  have positive : 0 < minScore := by norm_num [minScore, fuzzyScore, fuzzyMinRatio]
  by_contra never
  have notWhole : exact ∉ tokens := fun whole => never (.inl whole)
  have notStart : ¬ ∃ token ∈ tokens, exact <+: token := fun start => never (.inr (.inl start))
  have notEvery : ¬ (terms ≠ [] ∧ ∀ term ∈ terms, term ∈ tokens) :=
    fun every => never (.inr (.inr (.inl every)))
  have apart : gramSet terms ∩ trigrams.toFinset = ∅ := by
    rw [Finset.eq_empty_iff_forall_notMem]
    intro gram member
    rw [Finset.mem_inter, ← own, List.mem_toFinset, List.mem_toFinset] at member
    exact never (.inr (.inr (.inr ⟨gram, member⟩)))
  have zero : highest exact terms tokens trigrams = 0 := by
    rw [highest, apart]
    simp only [tier, if_neg notWhole, if_neg notStart, if_neg notEvery, Finset.card_empty,
      Nat.cast_zero, mul_zero, zero_div, ite_self, max_self]
  rw [zero] at reached
  exact absurd reached (not_le.mpr positive)

end

/-! ## The ranking -/

section
variable {runtime : Runtime} {query : Str}

/-- The trigrams of a query are those of its terms. -/
theorem queryGrams_set : (queryGrams runtime query).toFinset = gramSet (queryTerms runtime query) := by
  ext gram
  simp [queryGrams, gramSet]

/-- Terms that occur twice count once. -/
theorem highest_queryTerms (exact : Str) (tokens trigrams : List Str) :
    highest exact (queryTerms runtime query) tokens trigrams =
      highest exact (splitTerms runtime.casing (exactText runtime query)) tokens trigrams := by
  have same : ∀ term, term ∈ queryTerms runtime query ↔
      term ∈ splitTerms runtime.casing (exactText runtime query) :=
    fun term => List.mem_eraseDups
  have grams : gramSet (queryTerms runtime query) =
      gramSet (splitTerms runtime.casing (exactText runtime query)) := by
    ext gram
    simp only [gramSet, List.mem_toFinset, List.mem_flatMap, same]
  have empty : queryTerms runtime query = [] ↔
      splitTerms runtime.casing (exactText runtime query) = [] := by
    simp only [List.eq_nil_iff_forall_not_mem, same]
  simp only [highest, grams, ne_eq, empty, same]

/-- On a candidate the computed score is the documented one. -/
theorem queryScore_reference {event : Event}
    (candidate : Candidate (exactText runtime query) (queryTerms runtime query)
      (queryGrams runtime query) (event.tokens.getD []) (event.trigrams.getD [])) :
    queryScore runtime id query (some (.str (exactText runtime query))) event =
      referenceScore runtime query event := by
  have distinct : (queryGrams runtime query).Nodup := nodup_eraseDups _
  rw [queryScore, scoreOf_highest distinct queryGrams_set candidate, highest_queryTerms,
    referenceScore]

/-- An event with a documented score that is high enough is a candidate. -/
theorem candidate_of_reference {event : Event}
    (high : minScore ≤ referenceScore runtime query event) :
    Candidate (exactText runtime query) (queryTerms runtime query) (queryGrams runtime query)
      (event.tokens.getD []) (event.trigrams.getD []) := by
  rw [referenceScore, ← highest_queryTerms] at high
  exact candidate_of_highest queryGrams_set high

/-- If the text of the query does not begin with a dollar sign, the unlimited pipeline
returns the events that meet the filters and have a documented score that is high enough,
each of them once and with that score.

Proof: the expression has a value on every event. On candidates it is the documented score,
and the other events have a documented score that is too low. -/
theorem ranking_exact (server : Server) (events : List Event) {filters : Filters}
    {constraints : Query} (plain : (exactText runtime query).head? ≠ some dollar)
    (asked : filters.toQuery runtime = some constraints) :
    ∃ (pipeline : Pipeline) (rows : List Row),
      buildPipeline runtime query filters none none = some pipeline ∧
      aggregate (exactly server) pipeline events = some rows ∧
      rows.Perm ((events.filter (fun event => constraints.meets event &&
        decide (minScore ≤ referenceScore runtime query event))).map
          (fun event => ⟨event, referenceScore runtime query event⟩)) := by
  obtain ⟨pipeline, built⟩ : ∃ pipeline, buildPipeline runtime query filters none none =
      some pipeline :=
    ⟨_, buildPipeline_some.mpr ⟨constraints, none, asked, rfl, rfl⟩⟩
  have valued : ∀ (event : Event) (bound : List (Str × Bson)),
      (Scope.mk (exactly server).server event.toBson bound).text (exactText runtime query) =
        some (some (.str (exactText runtime query))) :=
    fun event bound => Scope.text_data _ plain
  have ran := search_eq built (Option.some_ne_none 0).symm (validOperand_data server [] plain) valued events
  obtain ⟨_, kept, whole⟩ := stages_unbounded built
  refine ⟨pipeline, _, built, ran, ?_⟩
  rw [whole]
  refine (listing_perm Row.key _).trans (List.Perm.of_eq ?_)
  rw [List.filter_map, List.filter_filter]
  have passed : ∀ event ∈ events,
      ((pipeline.keeps ∘ fun event => Row.mk event (queryScore runtime id query
        (some (.str (exactText runtime query))) event)) event &&
          pipeline.filter.selects event.toBson) =
      (constraints.meets event && decide (minScore ≤ referenceScore runtime query event)) := by
    intro event _
    rw [Bool.eq_iff_iff, Bool.and_eq_true, Bool.and_eq_true, selects_iff event built asked,
      Function.comp_apply, kept, decide_eq_true_eq, decide_eq_true_eq]
    constructor
    · rintro ⟨high, meets, candidate⟩
      exact ⟨meets, queryScore_reference candidate ▸ high⟩
    · rintro ⟨meets, high⟩
      have candidate := candidate_of_reference high
      exact ⟨(queryScore_reference candidate).symm ▸ high, meets, candidate⟩
  refine (congrArg (List.map _) (List.filter_congr passed)).trans (List.map_congr_left ?_)
  intro event member
  have high := of_decide_eq_true (Bool.and_eq_true_iff.mp (List.mem_filter.mp member).2).2
  change Row.mk event (queryScore runtime id query _ event) = _
  rw [queryScore_reference (candidate_of_reference high)]

end

/-- A misspelt word, and an event that has the right one. -/
theorem ranking_exact_misspelt :
    let runtime := asciiRuntime
    let event := bareEvent ⟨7⟩ ⟨0, by decide, by decide⟩ [lit "checkout"]
      (Tokenize.trigrams (lit "checkout"))
    ∃ (pipeline : Pipeline) (rows : List Row),
      buildPipeline runtime (lit "chekout") {} none none = some pipeline ∧
      aggregate (exactly systemVariables) pipeline [event] = some rows ∧
      rows.Perm (([event].filter (fun event => Query.meets ⟨none, none, none, none, none, none⟩ event &&
        decide (minScore ≤ referenceScore runtime (lit "chekout") event))).map
          (fun event => ⟨event, referenceScore runtime (lit "chekout") event⟩)) :=
  ranking_exact _ _ (by decide +kernel) rfl

end WebhookInbox.Search
