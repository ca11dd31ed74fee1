import WebhookInbox.Search.Recall

/-!
# Searching for an identifier as it stands

An identifier without white space is kept as a token beside its parts, but shortened like
any other term, while the text of a query is not. So the search for the whole identifier is
an exact hit as long as it fits into a token, and a hit on its parts beyond that.
-/

namespace WebhookInbox.Search

open Library Calendar IsoFormat Documents Aggregation KeysetPaging WebhookInbox.Tokenize

/-! ## Tokens -/

section
variable {casing : Casing} {source : Str}

/-- No token is longer than the limit. -/
theorem tokenize_length {token : Str} (member : token ∈ tokenize casing source) :
    token.length ≤ maxTokenLength := by
  have short : ∀ text : Str, (text.take maxTokenLength).length ≤ maxTokenLength :=
    fun text => List.length_take_le _ _
  have parts : ∀ term ∈ splitTerms casing (Tokenize.normalize casing source),
      term.length ≤ maxTokenLength := by
    intro term inParts
    obtain ⟨part, _, rfl⟩ := List.mem_map.mp inParts
    exact short part
  simp only [tokenize] at member
  split at member
  · cases List.mem_append.mp member with
    | inl inParts => exact parts token inParts
    | inr whole => exact List.mem_singleton.mp whole ▸ short _
  · exact parts token member

/-- An identifier of several parts is a token itself, shortened. -/
theorem tokenize_whole (stable : casing.Stable) (restrained : casing.Restrained)
    (solid : ∀ point ∈ source, Text.isSpace point = false)
    (parts : 1 < (splitTerms casing source).length) :
    (Tokenize.normalize casing source).take maxTokenLength ∈ tokenize casing source := by
  have spaceless : (Tokenize.normalize casing source).all
      (fun point => decide (point ≠ space)) = true := by
    refine List.all_eq_true.mpr ?_
    intro point member
    refine decide_eq_true ?_
    rintro rfl
    have kept := restrained.lower_space _ space member (by decide)
    have inSource := (Text.stripBy_sublist _ _).subset kept
    have visible := solid space inSource
    revert visible
    decide
  rw [tokenize, if_pos ⟨by rwa [splitTerms_normalize stable], spaceless⟩]
  exact List.mem_append_right _ List.mem_cons_self

/-- An identifier that does not begin with a dollar sign does not do so in lower case. -/
theorem normalize_start (restrained : casing.Restrained)
    (solid : ∀ point ∈ source, Text.isSpace point = false) (start : source.head? ≠ some dollar) :
    (Tokenize.normalize casing source).head? ≠ some dollar := by
  have stripped : Text.strip source = source := by
    refine Text.stripBy_eq_self ?_ ?_
    · rintro point rest rfl
      exact solid point List.mem_cons_self
    · rintro before point rfl
      exact solid point (List.mem_append_right _ List.mem_cons_self)
  rw [Tokenize.normalize, stripped]
  exact mt (restrained.lower_dollar source) start

end

/-! ## Scores -/

section
variable {runtime : Runtime} {round : ℚ → ℚ} {query : Str} {event : Event}

/-- A token that is the text of the query gives the highest score. -/
theorem queryScore_whole (whole : exactText runtime query ∈ event.tokens.getD []) :
    queryScore runtime round query (some (.str (exactText runtime query))) event = 100 := by
  have any : (event.tokens.getD []).any (fun token =>
      (some (Bson.str (exactText runtime query))).any (isText token)) = true :=
    List.any_eq_true.mpr ⟨_, whole, by simp [isText]⟩
  rw [queryScore, scoreOf, if_pos any]
  rfl

/-- If the text of the query is longer than all tokens, its terms give the score. -/
theorem queryScore_terms
    (long : ∀ token ∈ event.tokens.getD [], token.length < (exactText runtime query).length)
    (terms : ∀ term ∈ queryTerms runtime query, term ∈ event.tokens.getD []) :
    queryScore runtime round query (some (.str (exactText runtime query))) event = 40 := by
  have differs : ∀ text : Str, text.length < (exactText runtime query).length →
      ¬ (some (Bson.str (exactText runtime query))).any (isText text) = true := by
    intro text shorter same
    obtain rfl : exactText runtime query = text := by simpa [isText] using same
    exact lt_irrefl _ shorter
  have notWhole : ¬ (event.tokens.getD []).any (fun token =>
      (some (Bson.str (exactText runtime query))).any (isText token)) = true := by
    intro some'
    obtain ⟨token, member, same⟩ := List.any_eq_true.mp some'
    exact differs token (long token member) same
  have notStart : ¬ (event.tokens.getD []).any (fun token =>
      (some (Bson.str (exactText runtime query))).any
        (isText (token.take (exactText runtime query).length))) = true := by
    intro some'
    obtain ⟨token, member, same⟩ := List.any_eq_true.mp some'
    exact differs _ ((List.length_take_le' _ _).trans_lt (long token member)) same
  have every : (queryTerms runtime query).all
      (fun term => decide (term ∈ event.tokens.getD [])) = true :=
    List.all_eq_true.mpr (fun term member => decide_eq_true (terms term member))
  rw [queryScore, scoreOf, if_neg notWhole, if_neg notStart, if_pos every]
  rfl

/-- The rows of a search have the score of their event. -/
theorem row_score {database : Database} {events : List Event} {filters : Filters}
    {limit : Option Nat} {cursor : Option (Cursor Reading)} {rows : List Row} {row : Row}
    (plain : (exactText runtime query).head? ≠ some dollar)
    (searched : searchEvents runtime database events query filters limit cursor = some rows)
    (member : row ∈ rows) :
    row.score = queryScore runtime database.round query (some (.str (exactText runtime query)))
      row.event := by
  obtain ⟨pipeline, built, ran⟩ := Option.bind_eq_some_iff.mp searched
  obtain ⟨_, _, _, _, made⟩ := buildPipeline_some.mp built
  have positive : limit ≠ some 0 := by
    have accepted := (Option.ite_none_right_eq_some.mp ran).1.2
    rwa [made] at accepted
  rw [search_eq built positive (validOperand_data database.server [] plain)
    (fun event bound => Scope.text_data _ plain) events] at ran
  obtain rfl := Option.some.inj ran
  have kept := (listing_perm Row.key _).mem_iff.mp (mem_of_mem_cut member)
  obtain ⟨event, _, rfl⟩ := List.mem_map.mp (List.mem_filter.mp kept).1
  rfl

end

/-- An identifier of several parts that an event was indexed with finds it with the highest
score, exactly if its normal form is not longer than a token. -/
theorem identifier_exact_iff {runtime : Runtime} {tokenizer : Tokenize.Runtime}
    (casing : tokenizer.casing = runtime.casing) (stable : runtime.casing.Stable)
    (restrained : runtime.casing.Restrained)
    {endpointName : Str} {eventType : Option Str} {headers query : Dict Str Str} {body : Json}
    (few : ((sourceStrings tokenizer endpointName eventType headers query body).flatMap
      (tokenize tokenizer.casing)).toFinset.card ≤ tokenLimit)
    {event : Event}
    (indexed : event.tokens =
      some (build tokenizer endpointName eventType headers query body).tokens)
    {source : Str}
    (collected : source ∈ sourceStrings tokenizer endpointName eventType headers query body)
    (solid : ∀ point ∈ source, Text.isSpace point = false)
    (parts : 1 < (splitTerms runtime.casing source).length)
    (start : source.head? ≠ some dollar) :
    (∀ (database : Database) (events : List Event) (filters : Filters) (limit : Option Nat),
        Visible runtime events filters limit event →
        ∃ rows, searchEvents runtime database events source filters limit none = some rows ∧
          ∃ row ∈ rows, row.event = event ∧ row.score = 100) ↔
      (Tokenize.normalize runtime.casing source).length ≤ maxTokenLength := by
  have plain : (exactText runtime source).head? ≠ some dollar :=
    normalize_start restrained solid start
  have tokens : ∀ token ∈ tokenize runtime.casing source, token ∈ event.tokens.getD [] := by
    intro token made
    rw [indexed]
    exact mem_capped_of_few few (List.mem_flatMap.mpr ⟨source, collected, casing.symm ▸ made⟩)
  constructor
  · intro found
    by_contra long
    obtain ⟨rows, searched, row, inRows, rfl, score⟩ :=
      found (exactly systemVariables) [event] {} none (visible_alone runtime event)
    rw [row_score plain searched inRows, queryScore_terms] at score
    · norm_num at score
    · intro token inTokens
      rw [indexed] at inTokens
      obtain ⟨other, _, made⟩ := List.mem_flatMap.mp (mem_capped inTokens)
      exact (tokenize_length made).trans_lt (not_le.mp long)
    · intro term inTerms
      have own : term ∈ splitTerms runtime.casing (Tokenize.normalize runtime.casing source) :=
        List.mem_eraseDups.mp inTerms
      exact tokens term (splitTerms_tokenize own)
  · intro short database events filters limit visible
    have whole : exactText runtime source ∈ event.tokens.getD [] := by
      have made := tokenize_whole stable restrained solid parts
      rw [List.take_of_length_le short] at made
      exact tokens _ made
    obtain ⟨rows, searched, row, inRows, rfl, _⟩ := finds_of_score database visible plain
      (.inl whole) (by norm_num [minScore, fuzzyScore, fuzzyMinRatio]) (queryScore_whole whole).ge
    exact ⟨rows, searched, row, inRows, rfl,
      (row_score plain searched inRows).trans (queryScore_whole whole)⟩

/-- A text that passes the test on all characters holds no white space. -/
theorem solid_of_all {text : Str} (all : text.all (fun point => !Text.isSpace point) = true) :
    ∀ point ∈ text, Text.isSpace point = false :=
  fun point member => Bool.not_eq_true' _ ▸ List.all_eq_true.mp all point member

/-- The terms of an event of this type. -/
def typedTerms (eventType : Str) : Terms :=
  build asciiTokenizer (lit "Payments") (some eventType) [] [] .null

/-- The event with these terms. -/
def typedEvent (eventType : Str) : Event :=
  bareEvent ⟨7⟩ customerEvent.receivedAt (typedTerms eventType).tokens
    (typedTerms eventType).trigrams

/-- A type of ordinary length is an exact hit. -/
theorem identifier_exact_iff_type :
    ∃ rows, searchEvents asciiRuntime (exactly systemVariables)
        [typedEvent (lit "checkout.session.completed")] (lit "checkout.session.completed") {} none
        none = some rows ∧
      ∃ row ∈ rows, row.event = typedEvent (lit "checkout.session.completed") ∧
        row.score = 100 := by
  have exact := identifier_exact_iff (rfl : asciiTokenizer.casing = asciiRuntime.casing)
    Casing.stable_ascii Casing.restrained_ascii (by decide +kernel)
    (rfl : (typedEvent (lit "checkout.session.completed")).tokens =
      some (typedTerms (lit "checkout.session.completed")).tokens)
    (by decide +kernel : lit "checkout.session.completed" ∈
      sourceStrings asciiTokenizer (lit "Payments") (some (lit "checkout.session.completed")) [] []
        .null)
    (solid_of_all (by decide +kernel))
    (by decide +kernel :
      1 < (splitTerms asciiRuntime.casing (lit "checkout.session.completed")).length)
    (by decide +kernel)
  exact exact.mpr (by decide +kernel) _ _ _ _ (visible_alone _ _)

/-- The name of a resource that is longer than a token. -/
def longName : Str :=
  lit "arn:aws:sns:eu-central-1:123456789012:payments-checkout-session-completed"

/-- It is no exact hit. -/
theorem identifier_cut :
    ¬ ∀ (runtime : Runtime) (tokenizer : Tokenize.Runtime),
      tokenizer.casing = runtime.casing → runtime.casing.Stable → runtime.casing.Restrained →
      ∀ (endpointName : Str) (eventType : Option Str) (headers query : Dict Str Str) (body : Json),
      ((sourceStrings tokenizer endpointName eventType headers query body).flatMap
        (tokenize tokenizer.casing)).toFinset.card ≤ tokenLimit →
      ∀ (event : Event), event.tokens =
        some (build tokenizer endpointName eventType headers query body).tokens →
      ∀ source ∈ sourceStrings tokenizer endpointName eventType headers query body,
      (∀ point ∈ source, Text.isSpace point = false) →
      1 < (splitTerms runtime.casing source).length → source.head? ≠ some dollar →
      ∀ (database : Database) (events : List Event) (filters : Filters) (limit : Option Nat),
        Visible runtime events filters limit event →
        ∃ rows, searchEvents runtime database events source filters limit none = some rows ∧
          ∃ row ∈ rows, row.event = event ∧ row.score = 100 := by
  intro claimed
  obtain ⟨rows, searched, row, inRows, same, score⟩ := claimed asciiRuntime asciiTokenizer rfl
    Casing.stable_ascii Casing.restrained_ascii (lit "Payments") (some longName) [] [] .null
    (by decide +kernel) (typedEvent longName) rfl longName (by decide +kernel)
    (solid_of_all (by decide +kernel)) (by decide +kernel) (by decide +kernel)
    (exactly systemVariables) _ _ _ (visible_alone _ _)
  have scores : (searchEvents asciiRuntime (exactly systemVariables) [typedEvent longName] longName
      {} none none).map (List.map Row.score) = some [40] := by decide +kernel
  rw [searched, Option.map_some, Option.some.injEq] at scores
  have found : row.score ∈ ([40] : List ℚ) := scores ▸ List.mem_map_of_mem inRows
  rw [score] at found
  norm_num at found

end WebhookInbox.Search
