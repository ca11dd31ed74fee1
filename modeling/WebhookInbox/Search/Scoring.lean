import WebhookInbox.Search.Query

/-!
# What the stages of a search compute

The filter on candidates and the score read an event only through its tokens and trigrams,
apart from the value that the database gives the text of the query inside an expression.
`score_eval` computes the score for any such value.
-/

namespace WebhookInbox.Search

open Library Calendar IsoFormat Documents Aggregation KeysetPaging WebhookInbox.Tokenize

/-! ## The terms of a query -/

/-- Without repetition every value occurs once. -/
theorem nodup_eraseDups (texts : List Str) : texts.eraseDups.Nodup := by
  induction length : texts.length using Nat.strong_induction_on generalizing texts with
  | _ size inductionHypothesis =>
    cases texts with
    | nil => exact List.nodup_nil
    | cons first rest =>
      have fewer : (rest.filter (fun other => !other == first)).length < size :=
        length ▸ Nat.lt_succ_of_le (List.length_filter_le _ rest)
      rw [List.eraseDups_cons, List.nodup_cons]
      constructor
      · intro again
        have kept := (List.mem_filter.mp (List.mem_eraseDups.mp again)).2
        simp at kept
      · exact inductionHypothesis _ fewer _ rfl

section
variable {runtime : Runtime} {query : Str}

/-- The terms of a query are data. -/
theorem queryTerms_data : ∀ term ∈ queryTerms runtime query, term.head? ≠ some dollar := by
  intro term member starts
  have characters := (splitTerms_characters (List.mem_eraseDups.mp member)).2
  have dollarIsNone : isTermCharacter dollar = false := by decide
  rw [characters dollar (List.mem_of_head? starts)] at dollarIsNone
  cases dollarIsNone

/-- The trigrams of a query are data. -/
theorem queryGrams_data : ∀ gram ∈ queryGrams runtime query, gram.head? ≠ some dollar := by
  intro gram member starts
  obtain ⟨term, inTerms, inGrams⟩ := List.mem_flatMap.mp (List.mem_eraseDups.mp member)
  have characters := (splitTerms_characters (List.mem_eraseDups.mp inTerms)).2
  have dollarIsNone : ¬ (isTermCharacter dollar = true ∨ dollar = space) := by decide
  exact dollarIsNone (trigrams_characters characters inGrams dollar (List.mem_of_head? starts))

end

/-! ## Paths into an event -/

section
variable (event : Event)

/-- The fields of an event that are not its own are in the rest of it. -/
theorem field_rest {name : Str} (notId : name ≠ lit "_id") (notTime : name ≠ lit "received_at")
    (notSearch : name ≠ lit "search") : event.toBson.field name = Dict.get event.rest name := by
  have own : Dict.get ([(lit "_id", .objectId event.id),
      (lit "received_at", .date event.receivedAt.millis)] ++
      (event.search.map (fun part => (lit "search", part.toBson))).toList) name = none := by
    refine Dict.get_of_absent ?_
    intro item member
    simp only [List.mem_append, List.mem_cons, List.not_mem_nil, or_false, Option.mem_toList,
      Option.map_eq_some_iff] at member
    rcases member with (rfl | rfl) | ⟨_, _, rfl⟩
    · exact Ne.symm notId
    · exact Ne.symm notTime
    · exact Ne.symm notSearch
  change Dict.get (_ ++ event.rest) name = _
  rw [Dict.get_append, own, Option.none_or]

theorem field_id : event.toBson.field (lit "_id") = some (.objectId event.id) := by
  change Dict.get (_ ++ event.rest) _ = _
  rw [Dict.get_append, Dict.get_append]
  rfl

theorem field_time : event.toBson.field (lit "received_at") = some (.date event.time) := by
  change Dict.get (_ ++ event.rest) _ = _
  rw [Dict.get_append, Dict.get_append]
  rfl

theorem field_search :
    event.toBson.field (lit "search") = event.search.map SearchPart.toBson := by
  have rest : Dict.get event.rest (lit "search") = none :=
    Dict.get_of_absent (fun item member => (event.others item member).2.2)
  change Dict.get (_ ++ event.rest) _ = _
  rw [Dict.get_append, Dict.get_append, rest]
  cases event.search <;> rfl

/-- The fields of the search part that are not its own are in the rest of it. -/
theorem part_rest (part : SearchPart) {name : Str} (notTokens : name ≠ lit "tokens")
    (notTrigrams : name ≠ lit "trigrams") : part.toBson.field name = Dict.get part.rest name := by
  have own : Dict.get (arrayField (lit "tokens") part.tokens ++
      arrayField (lit "trigrams") part.trigrams) name = none := by
    refine Dict.get_of_absent ?_
    intro item member
    simp only [arrayField, List.mem_append, Option.mem_toList,
      Option.map_eq_some_iff] at member
    rcases member with ⟨_, _, rfl⟩ | ⟨_, _, rfl⟩
    · exact Ne.symm notTokens
    · exact Ne.symm notTrigrams
  change Dict.get (_ ++ part.rest) name = _
  rw [Dict.get_append, own, Option.none_or]

theorem part_tokens (part : SearchPart) :
    part.toBson.field (lit "tokens") = part.tokens.map Bson.strings := by
  have rest : Dict.get part.rest (lit "tokens") = none :=
    Dict.get_of_absent (fun item member => (part.others item member).1)
  have other : Dict.get (arrayField (lit "trigrams") part.trigrams) (lit "tokens") = none := by
    cases part.trigrams <;> rfl
  change Dict.get (_ ++ part.rest) _ = _
  rw [Dict.get_append, Dict.get_append, rest, other, Option.or_none, Option.or_none]
  cases part.tokens <;> rfl

theorem part_trigrams (part : SearchPart) :
    part.toBson.field (lit "trigrams") = part.trigrams.map Bson.strings := by
  have rest : Dict.get part.rest (lit "trigrams") = none :=
    Dict.get_of_absent (fun item member => (part.others item member).2)
  have other : Dict.get (arrayField (lit "tokens") part.tokens) (lit "trigrams") = none := by
    cases part.tokens <;> rfl
  change Dict.get (_ ++ part.rest) _ = _
  rw [Dict.get_append, Dict.get_append, rest, other, Option.or_none, Option.none_or]
  cases part.trigrams <;> rfl

/-- A path through an event begins with one of its fields. -/
theorem fieldPath_event (name : Str) (names : List Str) :
    fieldPath (name :: names) event.toBson = (event.toBson.field name).bind (fieldPath names) :=
  rfl

theorem reached_event (name : Str) (names : List Str) :
    reached (name :: names) event.toBson =
      (event.toBson.field name).toList.flatMap (reached names) :=
  rfl

/-- The path to the time leads to it. -/
theorem reached_time : reached [lit "received_at"] event.toBson = [.date event.time] := by
  rw [reached_event, field_time]
  rfl

/-- A path through the search part leads to an array of it. -/
theorem reached_part {name : Str} {texts : SearchPart → Option (List Str)}
    (stored : ∀ part, part.toBson.field name = (texts part).map Bson.strings) :
    reached [lit "search", name] event.toBson =
      ((event.search.bind texts).map Bson.strings).toList := by
  rw [reached_event, field_search]
  cases event.search with
  | none => rfl
  | some part =>
    change (part.toBson.field name).toList.flatMap (reached []) ++ [] = _
    rw [stored, Option.bind_some]
    cases texts part <;> rfl

theorem fieldPath_part {name : Str} {texts : SearchPart → Option (List Str)}
    (stored : ∀ part, part.toBson.field name = (texts part).map Bson.strings) :
    fieldPath [lit "search", name] event.toBson = (event.search.bind texts).map Bson.strings := by
  rw [fieldPath_event, field_search]
  cases event.search with
  | none => rfl
  | some part =>
    change (part.toBson.field name).bind (fieldPath []) = _
    rw [stored, Option.bind_some]
    cases texts part <;> rfl

end

/-! ## Candidates -/

/-- The event is a candidate: it has the text as a token or as the start of one, or all of
the terms, or one of the trigrams. -/
def Candidate (exact : Str) (terms grams tokens trigrams : List Str) : Prop :=
  exact ∈ tokens ∨ (∃ token ∈ tokens, exact <+: token) ∨
    (terms ≠ [] ∧ ∀ term ∈ terms, term ∈ tokens) ∨ ∃ gram ∈ grams, gram ∈ trigrams

/-- The clauses on candidates select these events. -/
theorem candidateClause_iff (exact : Str) (terms grams : List Str) (event : Event) :
    (candidateClause exact terms grams).any (fun clause => clause.holds event.toBson) = true ↔
      Candidate exact terms grams (event.tokens.getD []) (event.trigrams.getD []) := by
  have whole := holds_text (reached_part event part_tokens) exact
  have start := holds_escape (reached_part event part_tokens) exact
  have every := holds_all (reached_part event part_tokens) terms
  have some' := holds_oneOf (reached_part event part_trigrams) grams
  rw [List.any_eq_true]
  simp only [candidateClause, List.mem_append, List.mem_cons, List.not_mem_nil, or_false]
  constructor
  · rintro ⟨clause, member, holds⟩
    rcases member with ((rfl | rfl) | inTerms) | inGrams
    · exact .inl (whole.mp holds)
    · exact .inr (.inl (start.mp holds))
    · split at inTerms
      · obtain rfl := List.mem_singleton.mp inTerms
        exact .inr (.inr (.inl (every.mp holds)))
      · exact absurd inTerms List.not_mem_nil
    · split at inGrams
      · obtain rfl := List.mem_singleton.mp inGrams
        exact .inr (.inr (.inr (some'.mp holds)))
      · exact absurd inGrams List.not_mem_nil
  · rintro (here | here | here | here)
    · exact ⟨_, .inl (.inl (.inl rfl)), whole.mpr here⟩
    · exact ⟨_, .inl (.inl (.inr rfl)), start.mpr here⟩
    · exact ⟨_, .inl (.inr (by rw [if_pos here.1]; exact List.mem_cons_self)), every.mpr here⟩
    · have any : grams ≠ [] := by
        rintro rfl
        obtain ⟨_, member, _⟩ := here
        cases member
      exact ⟨_, .inr (by rw [if_pos any]; exact List.mem_cons_self), some'.mpr here⟩

/-! ## Scores -/

/-- The share of the trigrams that the event has, as the database computes it. -/
def ratioOf (round : ℚ → ℚ) (grams trigrams : List Str) : ℚ :=
  if grams ≠ [] then
    round ((trigrams.filter (fun gram => decide (gram ∈ grams))).dedup.length / grams.length)
  else 0

/-- The score of an event with these terms, for any value of the text of the query. -/
def scoreOf (round : ℚ → ℚ) (value : Option Bson) (length : Nat)
    (terms grams tokens trigrams : List Str) : ℚ :=
  if tokens.any (fun token => value.any (isText token)) then exactScore
  else if tokens.any (fun token => value.any (isText (token.take length))) then prefixScore
  else if terms.all (fun term => decide (term ∈ tokens)) then tokenScore
  else round (fuzzyScore * ratioOf round grams trigrams)

section
variable {server : Server} {event : Event}

/-- The tokens and the trigrams of an event are texts. -/
theorem tokens_eval (bound : List (Str × Bson)) :
    tokensExpr.eval ⟨server, event.toBson, bound⟩ =
      some ((event.tokens.getD []).map Bson.str) := by
  have read : readOperand (lit "$search.tokens") = some (.path [lit "search", lit "tokens"]) := by
    decide +kernel
  exact orEmpty_eval read (fieldPath_part event part_tokens)

theorem trigrams_eval (bound : List (Str × Bson)) :
    trigramsExpr.eval ⟨server, event.toBson, bound⟩ =
      some ((event.trigrams.getD []).map Bson.str) := by
  have read : readOperand (lit "$search.trigrams") =
      some (.path [lit "search", lit "trigrams"]) := by decide +kernel
  exact orEmpty_eval read (fieldPath_part event part_trigrams)

/-- Some token begins with the value, as far as the length of the query goes. -/
theorem prefix_eval {exact : Str} {value : Option Bson}
    (valued : ∀ bound, (Scope.mk server event.toBson bound).text exact = some value) :
    (prefixExpr exact).eval ⟨server, event.toBson, []⟩ =
      some ((event.tokens.getD []).any (fun token =>
        value.any (isText (token.take exact.length)))) := by
  have read : readOperand (lit "$$token") = some (.variable (lit "token") []) := by decide +kernel
  refine anyElementTrue_eval (tokens_eval []) ?_
  intro token _
  have current : (Scope.mk server event.toBson [(lit "token", .str token)]).text (lit "$$token") =
      some (some (.str token)) := by
    rw [Scope.text, read]
    rfl
  simp only [BoolExpr.eval, ValueExpr.eval, current, valued, List.drop_zero]
  rw [str_sameValue]

/-- The share of the trigrams is a number, and so is the score. -/
theorem ratio_eval (round : ℚ → ℚ) {grams : List Str}
    (data : ∀ gram ∈ grams, gram.head? ≠ some dollar) :
    (ratioExpr grams).eval round ⟨server, event.toBson, []⟩ =
      some (ratioOf round grams (event.trigrams.getD [])) := by
  by_cases any : grams ≠ []
  · have size : (NumberExpr.size (.setIntersection trigramsExpr (.texts grams))).eval round
        ⟨server, event.toBson, []⟩ = _ :=
      size_eval (trigrams_eval []) (texts_eval ⟨server, event.toBson, []⟩ data)
    have positive : (grams.length : ℚ) ≠ 0 := by simpa using any
    simp only [ratioExpr, ratioOf, if_pos any, NumberExpr.eval] at size ⊢
    simp only [size, positive, if_false]
  · simp only [ratioExpr, ratioOf, if_neg any, NumberExpr.eval]

/-- The score of an event.

Proof: each of the expressions on its own. -/
theorem score_eval (round : ℚ → ℚ) {exact : Str} {terms grams : List Str} {value : Option Bson}
    (valued : ∀ bound, (Scope.mk server event.toBson bound).text exact = some value)
    (termData : ∀ term ∈ terms, term.head? ≠ some dollar)
    (gramData : ∀ gram ∈ grams, gram.head? ≠ some dollar) :
    (scoreExpression exact terms grams).eval round ⟨server, event.toBson, []⟩ =
      some (scoreOf round value exact.length terms grams (event.tokens.getD [])
        (event.trigrams.getD [])) := by
  have written : (ValueExpr.operand exact).eval ⟨server, event.toBson, []⟩ = some value := valued []
  have whole := isIn_eval written (tokens_eval [])
  have start := prefix_eval valued
  have every := setIsSubset_eval (texts_eval ⟨server, event.toBson, []⟩ termData) (tokens_eval [])
  have ratio : (ratioExpr grams).eval round ⟨server, event.toBson, []⟩ = _ :=
    ratio_eval round gramData
  rw [SwitchExpr.eval, scoreExpression, evalBranches_cons whole, evalBranches_cons start,
    evalBranches_cons every, evalBranches, NumberExpr.eval, NumberExpr.eval, ratio, scoreOf]
  simp only [apply_ite some]

end

/-! ## Runs of a search -/

/-- The expression for the score is accepted exactly if the text of the query is. -/
theorem score_valid_iff {server : Server} {exact : Str} {terms grams : List Str}
    (termData : ∀ term ∈ terms, term.head? ≠ some dollar)
    (gramData : ∀ gram ∈ grams, gram.head? ≠ some dollar) :
    (scoreExpression exact terms grams).valid server = true ↔
      validOperand server [] exact = true := by
  have tokens : ∀ bound, validOperand server bound (lit "$search.tokens") = true := by
    intro bound
    have read : readOperand (lit "$search.tokens") = some (.path [lit "search", lit "tokens"]) := by
      decide +kernel
    rw [validOperand, read]
  have trigrams : ∀ bound, validOperand server bound (lit "$search.trigrams") = true := by
    intro bound
    have read : readOperand (lit "$search.trigrams") =
        some (.path [lit "search", lit "trigrams"]) := by decide +kernel
    rw [validOperand, read]
  have token : validOperand server [lit "token"] (lit "$$token") = true := by
    have read : readOperand (lit "$$token") = some (.variable (lit "token") []) := by
      decide +kernel
    simp [validOperand, read]
  have every : terms.all (validOperand server []) = true :=
    List.all_eq_true.mpr (fun term member => validOperand_data server [] (termData term member))
  have texts : grams.all (validOperand server []) = true :=
    List.all_eq_true.mpr (fun gram member => validOperand_data server [] (gramData gram member))
  have ratio : (ratioExpr grams).valid server [] = true := by
    by_cases any : grams ≠ []
    · simp only [ratioExpr, if_pos any, NumberExpr.valid, ArrayExpr.valid, trigramsExpr, trigrams,
        texts, Bool.and_self]
    · simp only [ratioExpr, if_neg any, NumberExpr.valid]
  have inner : validOperand server [] exact = true →
      validOperand server [lit "token"] exact = true := by
    intro outer
    unfold validOperand at outer ⊢
    cases read : readOperand exact with
    | none => simp [read] at outer
    | some operand =>
      cases operand with
      | literal text => rfl
      | path names => rfl
      | «variable» name names =>
        simp only [read, decide_eq_true_eq, List.not_mem_nil, false_or] at outer
        exact decide_eq_true (.inr outer)
  simp only [SwitchExpr.valid, scoreExpression, prefixExpr, List.all_cons, List.all_nil,
    BoolExpr.valid, ValueExpr.valid, ArrayExpr.valid, NumberExpr.valid, tokensExpr, tokens, token,
    every, ratio, Bool.and_true, Bool.true_and, Bool.and_eq_true]
  constructor
  · exact fun both => both.1
  · exact fun outer => ⟨outer, inner outer⟩

/-- A pipeline is built of these parts. -/
theorem buildPipeline_some {runtime : Runtime} {query : Str} {filters : Filters}
    {limit : Option Nat} {cursor : Option (Cursor Reading)} {pipeline : Pipeline} :
    buildPipeline runtime query filters limit cursor = some pipeline ↔
      ∃ (constraints : Query) (position : Option Position),
        filters.toQuery runtime = some constraints ∧ positionOf cursor = some position ∧
        pipeline =
          { filter := ⟨constraints.clauses, some (candidateClause (exactText runtime query)
              (queryTerms runtime query) (queryGrams runtime query))⟩
            score := scoreExpression (exactText runtime query) (queryTerms runtime query)
              (queryGrams runtime query)
            least := minScore
            position := position
            limit := limit } := by
  rw [buildPipeline, Option.bind_eq_some_iff]
  constructor
  · rintro ⟨constraints, asked, rest⟩
    obtain ⟨position, placed, rfl⟩ := Option.map_eq_some_iff.mp rest
    exact ⟨constraints, position, asked, placed, rfl⟩
  · rintro ⟨constraints, position, asked, placed, rfl⟩
    exact ⟨constraints, asked, Option.map_eq_some_iff.mpr ⟨position, placed, rfl⟩⟩

/-- A run whose expression has a value on every event returns the events that pass the
stages, with their scores. -/
theorem aggregate_eq {database : Database} {pipeline : Pipeline} {score : Event → ℚ}
    (valid : pipeline.score.valid database.server = true) (limited : pipeline.limit ≠ some 0)
    (scored : ∀ event : Event, pipeline.score.eval database.round
      ⟨database.server, event.toBson, []⟩ = some (score event)) (events : List Event) :
    aggregate database pipeline events =
      some (pipeline.cut (listing Row.key
        (((events.filter (fun event => pipeline.filter.selects event.toBson)).map
          (fun event => ⟨event, score event⟩)).filter pipeline.keeps))) := by
  have rows : ∀ event ∈ events.filter (fun event => pipeline.filter.selects event.toBson),
      pipeline.row database event = some ⟨event, score event⟩ := by
    intro event _
    rw [Pipeline.row, scored]
    rfl
  rw [aggregate, if_pos ⟨valid, limited⟩, mapM_of_some rows]
  rfl

/-- The score that a search gives an event, for any value of the text of the query. -/
def queryScore (runtime : Runtime) (round : ℚ → ℚ) (query : Str) (value : Option Bson)
    (event : Event) : ℚ :=
  scoreOf round value (exactText runtime query).length (queryTerms runtime query)
    (queryGrams runtime query) (event.tokens.getD []) (event.trigrams.getD [])

section
variable {runtime : Runtime} {query : Str} {filters : Filters} {limit : Option Nat}
  {cursor : Option (Cursor Reading)} {pipeline : Pipeline}

/-- A search whose text has a value on every event returns the events that pass the stages,
with their scores. -/
theorem search_eq {database : Database} {value : Event → Option Bson}
    (built : buildPipeline runtime query filters limit cursor = some pipeline)
    (limited : limit ≠ some 0)
    (valid : validOperand database.server [] (exactText runtime query) = true)
    (valued : ∀ (event : Event) (bound : List (Str × Bson)),
      (Scope.mk database.server event.toBson bound).text (exactText runtime query) =
        some (value event))
    (events : List Event) :
    aggregate database pipeline events =
      some (pipeline.cut (listing Row.key
        (((events.filter (fun event => pipeline.filter.selects event.toBson)).map
          (fun event => ⟨event, queryScore runtime database.round query (value event) event⟩)).filter
            pipeline.keeps))) := by
  obtain ⟨constraints, position, asked, placed, rfl⟩ := buildPipeline_some.mp built
  refine aggregate_eq ?_ limited ?_ events
  · exact (score_valid_iff queryTerms_data queryGrams_data).mpr valid
  · intro event
    exact score_eval database.round (valued event) queryTerms_data queryGrams_data

/-- The events that a search selects meet the filters and are candidates. -/
theorem selects_iff {constraints : Query} (event : Event)
    (built : buildPipeline runtime query filters limit cursor = some pipeline)
    (asked : filters.toQuery runtime = some constraints) :
    pipeline.filter.selects event.toBson = true ↔ constraints.meets event = true ∧
      Candidate (exactText runtime query) (queryTerms runtime query) (queryGrams runtime query)
        (event.tokens.getD []) (event.trigrams.getD []) := by
  obtain ⟨constraints', position, asked', placed, rfl⟩ := buildPipeline_some.mp built
  obtain rfl := Option.some.inj (asked.symm.trans asked')
  rw [← candidateClause_iff, Filter.selects, Bool.and_eq_true]
  exact Iff.rfl

/-- A limit adds no row. -/
theorem mem_of_mem_cut {rows : List Row} {row : Row} (member : row ∈ pipeline.cut rows) :
    row ∈ rows := by
  unfold Pipeline.cut at member
  split at member
  · exact member
  · exact List.mem_of_mem_take member

/-- Without a limit and a cursor only the least score decides. -/
theorem stages_unbounded
    (built : buildPipeline runtime query filters none none = some pipeline) :
    pipeline.position = none ∧ (∀ row, pipeline.keeps row = decide (minScore ≤ row.score)) ∧
      ∀ rows, pipeline.cut rows = rows := by
  obtain ⟨_, position, _, placed, rfl⟩ := buildPipeline_some.mp built
  obtain rfl : none = position := Option.some.inj placed
  exact ⟨rfl, fun row => Bool.and_true _, fun rows => rfl⟩

end

end WebhookInbox.Search
