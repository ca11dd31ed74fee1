import WebhookInbox.Search.Scoring

/-!
# Finding what was indexed

The terms of an event and the terms of a query come from the same functions, the former
capped. `indexed_found` says that nothing is lost between the two: each string that was
collected from an event finds it again, and so does the start of each of its terms.
-/

namespace WebhookInbox.Search

open Library Calendar IsoFormat Documents Aggregation KeysetPaging WebhookInbox.Tokenize

/-! ## Terms -/

section
variable {casing : Casing}

/-- The terms of a text are those of its normal form. -/
theorem splitTerms_normalize (stable : casing.Stable) (value : Str) :
    splitTerms casing (Tokenize.normalize casing value) = splitTerms casing value := by
  rw [splitTerms, normalize_normalize stable, splitTerms]

/-- A term of a normal form is a token. -/
theorem splitTerms_tokenize {value term : Str}
    (member : term ∈ splitTerms casing (Tokenize.normalize casing value)) :
    term ∈ tokenize casing value := by
  rw [tokenize]
  split
  · exact List.mem_append_left _ member
  · exact member

/-- A text with a term character has terms.

Proof: the character stands in one of the parts, and a part of terms is not dropped. -/
theorem splitTerms_ne_nil {value : Str}
    (character : ∃ point ∈ Tokenize.normalize casing value, isTermCharacter point = true) :
    splitTerms casing value ≠ [] := by
  obtain ⟨point, member, own⟩ := character
  have kept : (!isTermCharacter point) = false := by rw [own, Bool.not_true]
  obtain ⟨part, split, inside⟩ :=
    @mem_splitOnP _ (fun point => !isTermCharacter point) _ _ kept member
  have filled : part ≠ [] := List.ne_nil_of_mem inside
  exact List.ne_nil_of_mem (List.mem_map_of_mem (List.mem_filter.mpr ⟨split, decide_eq_true filled⟩))

end

/-! ## Searches -/

/-- The event is stored and meets the filters, and the limit leaves room for all events. -/
structure Visible (runtime : Runtime) (events : List Event) (filters : Filters)
    (limit : Option Nat) (event : Event) : Prop where
  stored : event ∈ events
  meets : ∃ constraints, filters.toQuery runtime = some constraints ∧
    constraints.meets event = true
  wide : ∀ count ∈ limit, events.length ≤ count

/-- A search returns the event with at least this score. -/
def Finds (runtime : Runtime) (database : Database) (events : List Event) (filters : Filters)
    (limit : Option Nat) (query : Str) (event : Event) (score : ℚ) : Prop :=
  ∃ rows, searchEvents runtime database events query filters limit none = some rows ∧
    ∃ row ∈ rows, row.event = event ∧ score ≤ row.score

section
variable {runtime : Runtime} {events : List Event} {filters : Filters} {limit : Option Nat}
  {event : Event} {query : Str}

/-- A candidate whose score is high enough is returned. -/
theorem finds_of_score (database : Database) {score : ℚ}
    (visible : Visible runtime events filters limit event)
    (plain : (exactText runtime query).head? ≠ some dollar)
    (candidate : Candidate (exactText runtime query) (queryTerms runtime query)
      (queryGrams runtime query) (event.tokens.getD []) (event.trigrams.getD []))
    (least : minScore ≤ score)
    (high : score ≤ queryScore runtime database.round query
      (some (.str (exactText runtime query))) event) :
    Finds runtime database events filters limit query event score := by
  obtain ⟨constraints, asked, meets⟩ := visible.meets
  obtain ⟨pipeline, built⟩ : ∃ pipeline, buildPipeline runtime query filters limit none =
      some pipeline :=
    ⟨_, buildPipeline_some.mpr ⟨constraints, none, asked, rfl, rfl⟩⟩
  have positive : limit ≠ some 0 := by
    intro zero
    have empty := Nat.le_zero.mp (visible.wide 0 zero)
    exact List.ne_nil_of_mem visible.stored (List.eq_nil_of_length_eq_zero empty)
  have ran := search_eq built positive (validOperand_data database.server [] plain)
    (fun event bound => Scope.text_data _ plain) events
  have selected := (selects_iff event built asked).mpr ⟨meets, candidate⟩
  obtain ⟨_, position, _, placed, made⟩ := buildPipeline_some.mp built
  obtain rfl : none = position := Option.some.inj placed
  generalize rows : ((events.filter (fun event => pipeline.filter.selects event.toBson)).map
    (fun event => Row.mk event (queryScore runtime database.round query
      (some (.str (exactText runtime query))) event))).filter pipeline.keeps = kept at ran
  have inside : Row.mk event (queryScore runtime database.round query
      (some (.str (exactText runtime query))) event) ∈ kept := by
    rw [← rows, List.mem_filter]
    refine ⟨List.mem_map_of_mem (List.mem_filter.mpr ⟨visible.stored, selected⟩), ?_⟩
    rw [made]
    exact Bool.and_eq_true_iff.mpr ⟨decide_eq_true (least.trans high), rfl⟩
  have few : (listing Row.key kept).length ≤ events.length := by
    rw [(listing_perm Row.key kept).length_eq, ← rows]
    calc _ ≤ _ := List.length_filter_le _ _
      _ ≤ _ := by rw [List.length_map]; exact List.length_filter_le _ _
  have whole : pipeline.cut (listing Row.key kept) = listing Row.key kept := by
    rw [made, Pipeline.cut]
    cases limit with
    | none => rfl
    | some count => exact List.take_of_length_le (few.trans (visible.wide count rfl))
  refine ⟨listing Row.key kept, ?_, ⟨event, _⟩, ?_, rfl, high⟩
  · rw [searchEvents, built, Option.bind_some, ran, whole]
  · exact (listing_perm Row.key kept).mem_iff.mpr inside

/-- An event that has all terms of the query as tokens is found. -/
theorem finds_terms (database : Database) (visible : Visible runtime events filters limit event)
    (plain : (exactText runtime query).head? ≠ some dollar)
    (filled : splitTerms runtime.casing (exactText runtime query) ≠ [])
    (tokens : ∀ term ∈ splitTerms runtime.casing (exactText runtime query),
      term ∈ event.tokens.getD []) :
    Finds runtime database events filters limit query event 40 := by
  have every : ∀ term ∈ queryTerms runtime query, term ∈ event.tokens.getD [] :=
    fun term member => tokens term (List.mem_eraseDups.mp member)
  have any : queryTerms runtime query ≠ [] := by
    obtain ⟨term, member⟩ := List.exists_mem_of_ne_nil _ filled
    exact List.ne_nil_of_mem (List.mem_eraseDups.mpr member)
  apply finds_of_score database visible plain (.inr (.inr (.inl ⟨any, every⟩)))
  · norm_num [minScore, fuzzyScore, fuzzyMinRatio]
  · have all : (queryTerms runtime query).all
        (fun term => decide (term ∈ event.tokens.getD [])) = true :=
      List.all_eq_true.mpr (fun term member => decide_eq_true (every term member))
    rw [queryScore, scoreOf]
    split
    · norm_num [exactScore]
    · split
      · norm_num [prefixScore]
      · exact le_refl (40 : ℚ)

/-- An event with a token that begins with the query is found. -/
theorem finds_start (database : Database) (visible : Visible runtime events filters limit event)
    (plain : (exactText runtime query).head? ≠ some dollar) {token : Str}
    (inTokens : token ∈ event.tokens.getD []) (start : exactText runtime query <+: token) :
    Finds runtime database events filters limit query event 60 := by
  apply finds_of_score database visible plain (.inr (.inl ⟨token, inTokens, start⟩))
  · norm_num [minScore, fuzzyScore, fuzzyMinRatio]
  · have some' : (event.tokens.getD []).any (fun token => (some (Bson.str (exactText runtime query))).any
        (isText (token.take (exactText runtime query).length))) = true := by
      refine List.any_eq_true.mpr ⟨token, inTokens, ?_⟩
      rw [← List.prefix_iff_eq_take.mp start]
      simp [isText]
    rw [queryScore, scoreOf]
    split
    · norm_num [exactScore]
    · exact le_refl (60 : ℚ)

end

/-- The only event of a collection is visible without filters and a limit. -/
theorem visible_alone (runtime : Runtime) (event : Event) :
    Visible runtime [event] {} none event := by
  refine ⟨List.mem_singleton_self event, ⟨_, rfl, rfl⟩, ?_⟩
  intro count given
  cases given

/-- A text of term characters does not begin with a dollar sign. -/
theorem plain_of_characters (runtime : Runtime) {text : Str}
    (characters : ∀ point ∈ text, isTermCharacter point = true) :
    (exactText runtime text).head? ≠ some dollar := by
  intro dollars
  rw [exactText, normalize_characters characters] at dollars
  have own := characters dollar (List.mem_of_head? dollars)
  revert own
  decide

/-- Whatever was indexed can be found. If the sources of an event have at most as many
distinct tokens as are kept, a search for one of them that has a term character, and does
not begin with a dollar sign, returns the event with at least the score of its terms, and a
search for the start of one of its terms returns it with at least the score of a prefix. -/
theorem indexed_found {runtime : Runtime} {tokenizer : Tokenize.Runtime}
    (casing : tokenizer.casing = runtime.casing) (stable : runtime.casing.Stable)
    {endpointName : Str} {eventType : Option Str} {headers query : Dict Str Str} {body : Json}
    (few : ((sourceStrings tokenizer endpointName eventType headers query body).flatMap
      (tokenize tokenizer.casing)).toFinset.card ≤ tokenLimit)
    (database : Database) {events : List Event} {filters : Filters} {limit : Option Nat}
    {event : Event} (visible : Visible runtime events filters limit event)
    (indexed : event.tokens =
      some (build tokenizer endpointName eventType headers query body).tokens)
    {source : Str}
    (collected : source ∈ sourceStrings tokenizer endpointName eventType headers query body) :
    ((∃ point ∈ runtime.casing.lower source, isTermCharacter point = true) →
      (normalize runtime.casing source).head? ≠ some dollar →
        Finds runtime database events filters limit source event 40) ∧
      ∀ term ∈ splitTerms runtime.casing source, ∀ start, start ≠ [] → start <+: term →
        Finds runtime database events filters limit start event 60 := by
  have tokens : ∀ term ∈ splitTerms runtime.casing (normalize runtime.casing source),
      term ∈ event.tokens.getD [] := by
    intro term member
    have made : term ∈ tokenize tokenizer.casing source :=
      splitTerms_tokenize (casing ▸ member)
    rw [indexed]
    exact mem_capped_of_few few (List.mem_flatMap.mpr ⟨source, collected, made⟩)
  constructor
  · rintro ⟨point, member, own⟩ plain
    have normal : point ∈ Tokenize.normalize runtime.casing source := by
      rw [Tokenize.normalize, stable.lower_strip]
      exact Text.mem_strip (solid_of_term own) member
    refine finds_terms database visible plain (splitTerms_ne_nil ⟨point, ?_, own⟩) tokens
    rw [exactText, normalize_normalize stable]
    exact normal
  · intro term member start filled begins
    have characters : ∀ point ∈ start, isTermCharacter point = true :=
      fun point inside => (splitTerms_characters member).2 point (begins.subset inside)
    have exact : exactText runtime start = start := normalize_characters characters
    have plain := plain_of_characters runtime characters
    have inTokens : term ∈ event.tokens.getD [] :=
      tokens term (by rw [splitTerms_normalize stable]; exact member)
    exact finds_start database visible plain inTokens (exact.symm ▸ begins)

/-- The interpreter on ASCII text, and on no numbers. -/
def asciiTokenizer : Tokenize.Runtime := ⟨Casing.ascii, fun _ => [], fun _ => by decide⟩

/-- A body with a name in it. -/
def customerBody : Json :=
  .obj [(lit "customer", .obj [(lit "name", .str (lit "Ada.Lovelace-7"))])]

/-- The terms of an event with this body. -/
def customerTerms : Terms :=
  build asciiTokenizer (lit "Payments") (some (lit "checkout.completed")) [] [] customerBody

/-- The event with these terms. -/
def customerEvent : Event :=
  bareEvent ⟨7⟩ ⟨0, by decide, by decide⟩ customerTerms.tokens customerTerms.trigrams

/-- The name finds the event, and so does the start of a part of it. -/
theorem indexed_found_customer :
    Finds asciiRuntime (exactly systemVariables) [customerEvent] {} none (lit "Ada.Lovelace-7")
      customerEvent 40 ∧
    Finds asciiRuntime (exactly systemVariables) [customerEvent] {} none (lit "love")
      customerEvent 60 := by
  have visible := visible_alone asciiRuntime customerEvent
  obtain ⟨whole, starts⟩ := indexed_found
    (rfl : asciiTokenizer.casing = asciiRuntime.casing) Casing.stable_ascii (by decide +kernel)
    (exactly systemVariables) visible rfl
    (by decide +kernel : lit "Ada.Lovelace-7" ∈ sourceStrings asciiTokenizer (lit "Payments")
      (some (lit "checkout.completed")) [] [] customerBody)
  exact ⟨whole ⟨0x61, by decide +kernel, by decide⟩ (by decide +kernel),
    starts (lit "lovelace") (by decide +kernel) (lit "love") (by decide +kernel)
      (by decide +kernel)⟩

end WebhookInbox.Search
