import WebhookInbox.Search.Scoring

/-!
# What the text of a query can do

The text of a query reaches the database in three places: as a value in a filter, escaped in
a pattern, and inside the expression for the score. In the first two it is data. In the
expression a dollar sign at its start makes it a path or a variable. `inert_iff` says which
texts are data all the same.
-/

namespace WebhookInbox.Search

open Library Calendar IsoFormat Documents Aggregation KeysetPaging WebhookInbox.Tokenize

/-! ## Statements -/

/-- The events agree on their terms, on what the filters mention, and on what the cursor
compares if there is one. -/
structure Agree (pipeline : Pipeline) (first second : Event) : Prop where
  tokens : first.tokens = second.tokens
  trigrams : first.trigrams = second.trigrams
  filtered : ∀ clause ∈ pipeline.filter.clauses,
    reached clause.path first.toBson = reached clause.path second.toBson
  place : pipeline.position ≠ none → first.time = second.time ∧ first.id = second.id

/-- The query is only ever data: no search for it fails, and of two events that agree it
returns both with one score, or none of them. -/
def Inert (runtime : Runtime) (database : Database) (query : Str) : Prop :=
  ∀ (filters : Filters) (limit : Option Nat) (cursor : Option (Cursor Reading))
    (pipeline : Pipeline),
    buildPipeline runtime query filters limit cursor = some pipeline → limit ≠ some 0 →
    (∀ events, ∃ rows, aggregate database pipeline events = some rows) ∧
    ∀ first second, Agree pipeline first second → ∃ score : Option ℚ,
      aggregate database pipeline [first] = some (score.map (Row.mk first)).toList ∧
      aggregate database pipeline [second] = some (score.map (Row.mk second)).toList

/-- The path leads to the identifier, the time, the search part, or into its terms: to
something that is no text. -/
def Termless (names : List Str) : Prop :=
  [lit "_id"] <+: names ∨ [lit "received_at"] <+: names ∨ names = [lit "search"] ∨
    [lit "search", lit "tokens"] <+: names ∨ [lit "search", lit "trigrams"] <+: names

instance termlessDecidable (names : List Str) : Decidable (Termless names) :=
  inferInstanceAs (Decidable (_ ∨ _))

/-- The text is data in an expression, or a path on which no text stands. -/
def IsData (text : Str) : Prop :=
  text.head? ≠ some dollar ∨ ∃ names, readOperand text = some (.path names) ∧ Termless names

/-- An upper-case ASCII letter. -/
def isCapital (point : CodePoint) : Bool := decide (0x41 ≤ point.val ∧ point.val ≤ 0x5A)

/-! ## Paths on which no text stands -/

/-- The value is no text. -/
def NoText (value : Option Bson) : Prop := ∀ text, value.any (isText text) = false

/-- A path into an array of texts leads to no text. -/
theorem noText_strings (texts : Option (List Str)) (names : List Str) :
    NoText ((texts.map Bson.strings).bind (fieldPath names)) := by
  intro text
  cases texts with
  | none => rfl
  | some texts => cases names <;> rfl

/-- Such a path leads to no text in any event. -/
theorem Termless.noText {names : List Str} (termless : Termless names) (event : Event) :
    NoText (fieldPath names event.toBson) := by
  rcases termless with ⟨rest, rfl⟩ | ⟨rest, rfl⟩ | rfl | ⟨rest, rfl⟩ | ⟨rest, rfl⟩
  · intro text
    rw [List.singleton_append, fieldPath_event, field_id]
    cases rest <;> rfl
  · intro text
    rw [List.singleton_append, fieldPath_event, field_time]
    cases rest <;> rfl
  · intro text
    rw [fieldPath_event, field_search]
    cases event.search <;> rfl
  · rw [List.cons_append, List.singleton_append, fieldPath_event, field_search]
    cases event.search with
    | none => exact fun text => rfl
    | some part =>
      change NoText ((part.toBson.field (lit "tokens")).bind (fieldPath rest))
      rw [part_tokens]
      exact noText_strings part.tokens rest
  · rw [List.cons_append, List.singleton_append, fieldPath_event, field_search]
    cases event.search with
    | none => exact fun text => rfl
    | some part =>
      change NoText ((part.toBson.field (lit "trigrams")).bind (fieldPath rest))
      rw [part_trigrams]
      exact noText_strings part.trigrams rest

/-! ## Data does nothing else -/

/-- A value that is no text counts like a missing one. -/
theorem NoText.queryScore_eq {value : Option Bson} (noText : NoText value) (runtime : Runtime)
    (round : ℚ → ℚ) (query : Str) (event : Event) :
    queryScore runtime round query value event = queryScore runtime round query none event := by
  have missing : ∀ text, (none : Option Bson).any (isText text) = false := fun _ => rfl
  simp only [queryScore, scoreOf, noText _, missing]

/-- Data has a value in every scope. It counts as the same value for every event. -/
theorem IsData.valued {text : Str} (data : IsData text) :
    (∀ server, validOperand server [] text = true) ∧
    ∃ (value : Event → Option Bson) (shared : Option Bson),
      (∀ server (event : Event) bound,
        (Scope.mk server event.toBson bound).text text = some (value event)) ∧
      ∀ event, value event = shared ∨ NoText (value event) ∧ shared = none := by
  rcases data with plain | ⟨names, read, termless⟩
  · refine ⟨fun server => validOperand_data server [] plain, fun _ => some (.str text),
      some (.str text), ?_, fun _ => .inl rfl⟩
    exact fun server event bound => Scope.text_data _ plain
  · refine ⟨fun server => by rw [validOperand, read], fun event => fieldPath names event.toBson,
      none, ?_, fun event => .inr ⟨termless.noText event, rfl⟩⟩
    intro server event bound
    rw [Scope.text, read]
    rfl

section
variable {runtime : Runtime} {database : Database} {query : Str} {filters : Filters}
  {limit : Option Nat} {cursor : Option (Cursor Reading)} {pipeline : Pipeline}

/-- A search of one event returns it with its score, or nothing. -/
theorem search_single {value : Event → Option Bson}
    (built : buildPipeline runtime query filters limit cursor = some pipeline)
    (limited : limit ≠ some 0)
    (valid : validOperand database.server [] (exactText runtime query) = true)
    (valued : ∀ (event : Event) (bound : List (Str × Bson)),
      (Scope.mk database.server event.toBson bound).text (exactText runtime query) =
        some (value event))
    (event : Event) :
    aggregate database pipeline [event] =
      some (((some (queryScore runtime database.round query (value event) event)).filter
        (fun score => pipeline.filter.selects event.toBson && pipeline.keeps ⟨event, score⟩)).map
          (Row.mk event)).toList := by
  have uncut : ∀ row : Row, pipeline.cut [row] = [row] ∧ pipeline.cut [] = [] := by
    obtain ⟨_, _, _, _, rfl⟩ := buildPipeline_some.mp built
    intro row
    cases limit with
    | none => exact ⟨rfl, rfl⟩
    | some count =>
      cases count with
      | zero => exact absurd rfl limited
      | succ count => simp [Pipeline.cut]
  rw [search_eq built limited valid valued]
  cases selected : pipeline.filter.selects event.toBson with
  | false => simp [selected, listing, (uncut ⟨event, 0⟩).2]
  | true =>
    cases kept : pipeline.keeps
      ⟨event, queryScore runtime database.round query (value event) event⟩ with
    | false => simp [selected, kept, listing, (uncut ⟨event, 0⟩).2]
    | true => simp [selected, kept, listing, (uncut _).1, Option.filter]

/-- Events that agree are selected and kept alike.

Proof: the clauses read what the events agree on, and so do the candidates. -/
theorem Agree.stages {first second : Event} (agree : Agree pipeline first second)
    (built : buildPipeline runtime query filters limit cursor = some pipeline) (score : ℚ) :
    (pipeline.filter.selects first.toBson && pipeline.keeps ⟨first, score⟩) =
      (pipeline.filter.selects second.toBson && pipeline.keeps ⟨second, score⟩) := by
  have selected : pipeline.filter.selects first.toBson = pipeline.filter.selects second.toBson := by
    have clauses : ∀ clause ∈ pipeline.filter.clauses,
        clause.holds first.toBson = clause.holds second.toBson := by
      intro clause member
      rw [Clause.holds, Clause.holds, agree.filtered clause member]
    obtain ⟨constraints, _, asked, _, same⟩ := buildPipeline_some.mp built
    have meets : constraints.meets first = constraints.meets second := by
      rw [same] at clauses
      rw [Query.meets, Query.meets, Bool.eq_iff_iff, List.all_eq_true, List.all_eq_true]
      constructor
      · exact fun every clause member => clauses clause member ▸ every clause member
      · exact fun every clause member => (clauses clause member).symm ▸ every clause member
    rw [Bool.eq_iff_iff, selects_iff first built asked, selects_iff second built asked, meets,
      agree.tokens, agree.trigrams]
  have kept : pipeline.keeps ⟨first, score⟩ = pipeline.keeps ⟨second, score⟩ := by
    cases placed : pipeline.position with
    | none => simp only [Pipeline.keeps, placed, Option.all_none]
    | some position =>
      have place := agree.place (by simp [placed])
      simp only [Pipeline.keeps, Position.precedes, place.1, place.2]
  rw [selected, kept]

/-- A query that is data is inert.

Proof: the text has a value on every event, and the value counts as the same for all. The
score, the filter and the cursor then read only what the events agree on. -/
theorem IsData.inert (data : IsData (exactText runtime query)) : Inert runtime database query := by
  intro filters limit cursor pipeline built limited
  obtain ⟨valid, value, shared, valued, counts⟩ := data.valued
  constructor
  · intro events
    exact ⟨_, search_eq built limited (valid database.server)
      (valued database.server) events⟩
  · intro first second agree
    have scored : ∀ event : Event, queryScore runtime database.round query (value event) event =
        queryScore runtime database.round query shared event := by
      intro event
      rcases counts event with same | ⟨noText, missing⟩
      · rw [same]
      · rw [noText.queryScore_eq, missing]
    have same : queryScore runtime database.round query shared first =
        queryScore runtime database.round query shared second := by
      rw [queryScore, queryScore, agree.tokens, agree.trigrams]
    have one := search_single built limited (valid database.server) (valued database.server) first
    have two := search_single built limited (valid database.server) (valued database.server) second
    rw [scored] at one two
    refine ⟨_, one, ?_⟩
    rw [two, ← same]
    simp only [Option.filter, agree.stages built]

end

/-! ## Nothing else is data -/

/-- Documents one inside the other, with a text in the innermost. -/
def nest (text : Str) : List Str → Bson
  | [] => .str text
  | name :: rest => .doc [(name, nest text rest)]

/-- The path leads to the text. -/
theorem fieldPath_nest (text : Str) (names : List Str) :
    fieldPath names (nest text names) = some (.str text) := by
  induction names with
  | nil => rfl
  | cons name rest inductionHypothesis =>
    have here : Dict.get [(name, nest text rest)] name = some (nest text rest) := by
      simp [Dict.get]
    rw [nest, fieldPath, here]
    exact inductionHypothesis

/-- The other paths begin with a field of the event that is not its own, or with one of the
search part. -/
theorem free_cases {names : List Str} (free : ¬ Termless names) (named : names ≠ []) :
    (∃ name rest, names = name :: rest ∧ name ≠ lit "_id" ∧ name ≠ lit "received_at" ∧
      name ≠ lit "search") ∨
    ∃ name rest, names = lit "search" :: name :: rest ∧ name ≠ lit "tokens" ∧
      name ≠ lit "trigrams" := by
  cases names with
  | nil => exact absurd rfl named
  | cons name rest =>
    by_cases searched : name = lit "search"
    · subst searched
      cases rest with
      | nil => exact absurd (.inr (.inr (.inl rfl))) free
      | cons second rest =>
        refine .inr ⟨second, rest, rfl, ?_, ?_⟩
        · rintro rfl
          exact free (.inr (.inr (.inr (.inl ⟨rest, rfl⟩))))
        · rintro rfl
          exact free (.inr (.inr (.inr (.inr ⟨rest, rfl⟩))))
    · refine .inl ⟨name, rest, rfl, ?_, ?_, searched⟩
      · rintro rfl
        exact free (.inl ⟨rest, rfl⟩)
      · rintro rfl
        exact free (.inr (.inl ⟨rest, rfl⟩))

/-- On such a path there can be a text, and need not be. -/
theorem exists_planted {names : List Str} (free : ¬ Termless names) (named : names ≠ [])
    (text : Str) : ∃ planted bare : Event,
      (planted.tokens = some [text] ∧ planted.trigrams = some [] ∧
        fieldPath names planted.toBson = some (.str text)) ∧
      (bare.tokens = some [text] ∧ bare.trigrams = some [] ∧
        fieldPath names bare.toBson = none) := by
  let empty : Event := bareEvent ⟨0⟩ ⟨0, by decide, by decide⟩ [text] []
  rcases free_cases free named with
    ⟨name, rest, rfl, notId, notTime, notSearch⟩ | ⟨name, rest, rfl, notTokens, notTrigrams⟩
  · have others : ∀ field ∈ [(name, nest text rest)],
        field.1 ≠ lit "_id" ∧ field.1 ≠ lit "received_at" ∧ field.1 ≠ lit "search" := by
      intro field member
      obtain rfl := List.mem_singleton.mp member
      exact ⟨notId, notTime, notSearch⟩
    refine ⟨{ empty with rest := _, others := others }, empty, ⟨rfl, rfl, ?_⟩, ⟨rfl, rfl, ?_⟩⟩
    · rw [fieldPath_event, field_rest _ notId notTime notSearch]
      simp [Dict.get, fieldPath_nest]
    · rw [fieldPath_event, field_rest _ notId notTime notSearch]
      rfl
  · have others : ∀ field ∈ [(name, nest text rest)],
        field.1 ≠ lit "tokens" ∧ field.1 ≠ lit "trigrams" := by
      intro field member
      obtain rfl := List.mem_singleton.mp member
      exact ⟨notTokens, notTrigrams⟩
    refine ⟨{ empty with search := some ⟨some [text], some [], _, others⟩ }, empty,
      ⟨rfl, rfl, ?_⟩, ⟨rfl, rfl, ?_⟩⟩
    · rw [fieldPath_event, field_search]
      change ((SearchPart.toBson _).field name).bind (fieldPath rest) = _
      rw [part_rest _ notTokens notTrigrams]
      simp [Dict.get, fieldPath_nest]
    · rw [fieldPath_event, field_search]
      change ((SearchPart.toBson _).field name).bind (fieldPath rest) = _
      rw [part_rest _ notTokens notTrigrams]
      rfl

section
variable {runtime : Runtime} {database : Database} {query : Str} {filters : Filters}
  {limit : Option Nat} {cursor : Option (Cursor Reading)} {events : List Event}

/-- A missing text gives no score of the highest tier. -/
theorem queryScore_missing (event : Event) (bare : event.trigrams = some []) :
    queryScore runtime database.round query none event ≠ exactScore := by
  have ratio : ratioOf database.round (queryGrams runtime query) [] = 0 := by
    unfold ratioOf
    split
    · simp [database.round_zero]
    · rfl
  have never : ∀ tokens : List Str, (tokens.any fun _ => false) = false := by simp
  simp only [queryScore, scoreOf, bare, Option.any_none, never, Option.getD_some, ratio, mul_zero,
    database.round_zero, Bool.false_eq_true, if_false]
  split <;> norm_num [tokenScore, exactScore]

/-- A text that stands where the query leads and is a token gives the highest score. -/
theorem queryScore_planted {event : Event}
    (token : event.tokens = some [exactText runtime query]) :
    queryScore runtime database.round query (some (.str (exactText runtime query))) event =
      exactScore := by
  simp [queryScore, scoreOf, token, isText]

/-- The result of a search for one event tells the score. -/
theorem score_unique {event : Event} {first second : Option ℚ}
    (same : some (first.map (Row.mk event)).toList = some (second.map (Row.mk event)).toList) :
    first = second := by
  cases first with
  | none =>
    cases second with
    | none => rfl
    | some two => simp at same
  | some one =>
    cases second with
    | none => simp at same
    | some two => simpa using same

/-- The text of a query that can be searched for is accepted in an expression. -/
theorem valid_of_searched {pipeline : Pipeline} {rows : List Row}
    (built : buildPipeline runtime query filters limit cursor = some pipeline)
    (ran : aggregate database pipeline events = some rows) :
    validOperand database.server [] (exactText runtime query) = true := by
  obtain ⟨_, _, _, _, rfl⟩ := buildPipeline_some.mp built
  obtain ⟨accepted, _⟩ := Option.ite_none_right_eq_some.mp ran
  exact (score_valid_iff queryTerms_data queryGrams_data).mp accepted.1

/-- A path in an inert query leads to no text.

Proof: where a text may stand, the text of the query standing there decides between the
highest score and another result. -/
theorem termless_of_inert {names : List Str} (inert : Inert runtime database query)
    (read : readOperand (exactText runtime query) = some (.path names)) (named : names ≠ []) :
    Termless names := by
  by_contra free
  obtain ⟨planted, bare, hit, miss⟩ := exists_planted free named (exactText runtime query)
  obtain ⟨pipeline, built⟩ : ∃ pipeline, buildPipeline runtime query {} none none =
      some pipeline :=
    ⟨_, buildPipeline_some.mpr ⟨⟨none, none, none, none, none, none⟩, none, rfl, rfl, rfl⟩⟩
  have unlimited : (none : Option Nat) ≠ some 0 := (Option.some_ne_none 0).symm
  have valid : validOperand database.server [] (exactText runtime query) = true := by
    rw [validOperand, read]
  have valued : ∀ (event : Event) (bound : List (Str × Bson)),
      (Scope.mk database.server event.toBson bound).text (exactText runtime query) =
        some (fieldPath names event.toBson) := by
    intro event bound
    rw [Scope.text, read]
    rfl
  obtain ⟨unplaced, kept, _⟩ := stages_unbounded built
  have agree : Agree pipeline planted bare := by
    refine ⟨hit.1.trans miss.1.symm, hit.2.1.trans miss.2.1.symm, ?_, absurd unplaced⟩
    obtain ⟨_, _, asked, _, rfl⟩ := buildPipeline_some.mp built
    obtain rfl := Option.some.inj (asked.symm.trans rfl)
    exact fun clause member => absurd member List.not_mem_nil
  obtain ⟨score, one, two⟩ := (inert {} none none pipeline built unlimited).2 planted bare agree
  have first := score_unique (one.symm.trans (search_single built unlimited valid valued planted))
  have second := score_unique (two.symm.trans (search_single built unlimited valid valued bare))
  have selected : pipeline.filter.selects planted.toBson = true := by
    refine (selects_iff planted built rfl).mpr ⟨rfl, .inl ?_⟩
    rw [hit.1]
    exact List.mem_singleton_self _
  have reaches : minScore ≤ exactScore := by
    norm_num [minScore, fuzzyScore, fuzzyMinRatio, exactScore]
  have highest : score = some exactScore := by
    rw [first, hit.2.2, queryScore_planted hit.1]
    simp [Option.filter, selected, kept, reaches]
  rw [miss.2.2, highest] at second
  exact queryScore_missing bare miss.2.1
    (Option.some.inj (Option.eq_some_of_filter_eq_some second.symm))

/-- If the server's variables have capitals in their names and the text of the query has
none, an inert query is data.

Proof: the search for the query succeeds, so its text is data, a path or a variable that is
defined. -/
theorem isData_of_inert
    (lowered : ∀ point ∈ exactText runtime query, isCapital point = false)
    (capitals : ∀ name ∈ database.server.names, ∃ point ∈ name, isCapital point = true)
    (inert : Inert runtime database query) : IsData (exactText runtime query) := by
  obtain ⟨pipeline, built⟩ : ∃ pipeline, buildPipeline runtime query {} none none =
      some pipeline :=
    ⟨_, buildPipeline_some.mpr ⟨⟨none, none, none, none, none, none⟩, none, rfl, rfl, rfl⟩⟩
  obtain ⟨rows, ran⟩ := (inert {} none none pipeline built (Option.some_ne_none 0).symm).1 []
  have valid := valid_of_searched built ran
  cases read : readOperand (exactText runtime query) with
  | none => simp [validOperand, read] at valid
  | some operand =>
    rcases readOperand_cases read with ⟨_, plain⟩ | ⟨rest, _, rfl⟩ |
      ⟨text, name, names, starts, parts, rfl⟩
    · exact .inl plain
    · have named : rest.splitOn dot ≠ [] := by
        rw [List.splitOn_eq_splitOnP]
        exact List.splitOnP_ne_nil _ _
      exact .inr ⟨_, read, termless_of_inert inert read named⟩
    · rw [validOperand, read] at valid
      have defined := (of_decide_eq_true valid).resolve_left List.not_mem_nil
      obtain ⟨point, member, capital⟩ := capitals name defined
      rw [List.splitOn_eq_splitOnP] at parts
      have inText : point ∈ text := splitOnP_subset _ (parts ▸ List.mem_cons_self) member
      have small := lowered point (by rw [starts]; exact .tail _ (.tail _ inText))
      rw [small] at capital
      cases capital

/-- A query is only ever data exactly if its text does not begin with a dollar sign, or is a
path into the terms and the other fields on which no text stands.

Lower-case texts have no capitals, which the names of the server's variables have. -/
theorem inert_iff (lowered : ∀ text, ∀ point ∈ runtime.casing.lower text, isCapital point = false)
    (capitals : ∀ name ∈ database.server.names, ∃ point ∈ name, isCapital point = true) :
    Inert runtime database query ↔ IsData (exactText runtime query) :=
  ⟨isData_of_inert (lowered _) capitals, IsData.inert⟩

end

/-- Lower-case ASCII letters are no capitals. -/
theorem ascii_lowered (text : Str) :
    ∀ point ∈ Casing.ascii.lower text, isCapital point = false := by
  intro point member
  obtain ⟨source, _, rfl⟩ := List.mem_map.mp member
  by_cases upper : 65 ≤ source.val ∧ source.val ≤ 90
  · have lower : (Text.asciiLower source).val = source.val + 32 := by simp [Text.asciiLower, upper]
    simp [isCapital, lower]
    omega
  · simp [Text.asciiLower, isCapital, upper]

/-- Their names have capitals. -/
theorem systemVariables_capitals :
    ∀ name ∈ systemVariables.names, ∃ point ∈ name, isCapital point = true := by
  intro name member
  have shared : ∀ name ∈ systemVariables.names, (0x52 : CodePoint) ∈ name := by decide +kernel
  exact ⟨0x52, shared name member, by decide⟩

/-- A search for a price. -/
theorem inert_iff_price :
    Inert asciiRuntime (exactly systemVariables) (lit "$5") ↔ IsData (exactText asciiRuntime (lit "$5")) :=
  inert_iff ascii_lowered systemVariables_capitals

/-- A search for a dollar sign fails, and one for `$event_type` reads the type of the event. -/
theorem inert_dollar :
    ¬ Inert asciiRuntime (exactly systemVariables) (lit "$") ∧
    ¬ Inert asciiRuntime (exactly systemVariables) (lit "$event_type") := by
  have lowered : ∀ query, ∀ point ∈ exactText asciiRuntime query, isCapital point = false :=
    fun query => ascii_lowered _
  constructor
  · intro inert
    rcases isData_of_inert (lowered _) systemVariables_capitals inert with plain | ⟨names, read, _⟩
    · exact plain (by decide +kernel)
    · have unreadable : readOperand (exactText asciiRuntime (lit "$")) = none := by decide +kernel
      rw [unreadable] at read
      cases read
  · intro inert
    rcases isData_of_inert (lowered _) systemVariables_capitals inert with plain | ⟨names, read, termless⟩
    · exact plain (by decide +kernel)
    · have path : readOperand (exactText asciiRuntime (lit "$event_type")) =
          some (.path [lit "event_type"]) := by decide +kernel
      obtain rfl : names = [lit "event_type"] :=
        Operand.path.inj (Option.some.inj (read.symm.trans path))
      exact absurd termless (by decide +kernel)

end WebhookInbox.Search
