import WebhookInbox.Library.Json

/-!
# Search terms

The tokens and trigrams under which an event can be found. They come from the
endpoint's name, the event type, and the headers, the query and the body without
what stands under a sensitive key, in this order and up to a cap.

`build_scalar` is what storing them relies on: terms of texts without lone surrogates
have none.
-/

namespace WebhookInbox.Tokenize

open Library

/-- The interpreter's part: case conversion, and `str` of a float, which is ASCII. -/
structure Runtime where
  casing : Casing
  floatText : PyFloat → Str
  floatText_ascii : ∀ value, Text.Ascii (floatText value)

/-- `SENSITIVE_KEYS` -/
def sensitiveKeys : List Str :=
  [lit "authorization", lit "cookie", lit "set-cookie", lit "proxy-authorization",
    lit "password", lit "secret", lit "token", lit "api_key", lit "apikey",
    lit "x-webhook-secret", lit "x-hub-signature", lit "x-hub-signature-256",
    lit "stripe-signature", lit "session"]

def tokenLimit : Nat := 512

def trigramLimit : Nat := 2048

def maxTokenLength : Nat := 64

def minTrigramLength : Nat := 3

/-- The space that pads a token. -/
def space : CodePoint := 0x20

/-- A character of a term: a lower-case ASCII letter or a digit. -/
def isTermCharacter (point : CodePoint) : Bool :=
  decide ((0x61 ≤ point.val ∧ point.val ≤ 0x7A) ∨ (0x30 ≤ point.val ∧ point.val ≤ 0x39))

section
variable (casing : Casing)

/-- `is_sensitive(key)` -/
def isSensitive (key : Str) : Bool :=
  sensitiveKeys.any (fun marker => Text.contains (casing.lower key) marker)

/-- `normalize(value)` -/
def normalize (value : Str) : Str := casing.lower (Text.strip value)

/-- `split_terms(value)`: the maximal runs of term characters, shortened. -/
def splitTerms (value : Str) : List Str :=
  (((normalize casing value).splitOnP (fun point => !isTermCharacter point)).filter
    (fun part => decide (part ≠ []))).map (List.take maxTokenLength)

/-- `tokenize(value)` -/
def tokenize (value : Str) : List Str :=
  let normalized := normalize casing value
  let parts := splitTerms casing normalized
  if 1 < parts.length ∧ normalized.all (fun point => decide (point ≠ space)) then
    parts ++ [normalized.take maxTokenLength]
  else parts

end

/-- `trigrams(token)` -/
def trigrams (token : Str) : List Str :=
  if token.length < minTrigramLength then []
  else
    let padded := [space] ++ token ++ [space]
    (List.range (padded.length - 2)).map (fun start => (padded.drop start).take 3)

/-- `seen[value] = None`, on the keys of `seen`. -/
def note (seen : List Str) (value : Str) : List Str :=
  if value ∈ seen then seen else seen ++ [value]

/-- The loop of `_capped(values, limit)`. -/
def cappedFrom (limit : Nat) : List Str → List Str → List Str
  | seen, [] => seen
  | seen, value :: rest =>
      if limit ≤ (note seen value).length then note seen value
      else cappedFrom limit (note seen value) rest

/-- `_capped(values, limit)` -/
def capped (limit : Nat) (values : List Str) : List Str := cappedFrom limit [] values

section
variable (runtime : Runtime)

mutual

/-- `_collect(value, out)`, as what it appends. -/
def collect : Json → List Str
  | .obj members => collectMembers members
  | .arr items => collectItems items
  | .str value => [value]
  | .bool _ => []
  | .int value => [Text.ofInt value]
  | .float value => [runtime.floatText value]
  | .null => []

def collectItems : List Json → List Str
  | [] => []
  | item :: rest => collect item ++ collectItems rest

def collectMembers : List (Str × Json) → List Str
  | [] => []
  | (key, value) :: rest =>
      if isSensitive runtime.casing key then collectMembers rest
      else key :: collect value ++ collectMembers rest

end

/-- The keys and values of pairs, without the sensitive ones. -/
def pairStrings (pairs : Dict Str Str) : List Str :=
  pairs.flatMap (fun pair =>
    if isSensitive runtime.casing pair.1 then [] else [pair.1, pair.2])

/-- `source_strings(...)` -/
def sourceStrings (endpointName : Str) (eventType : Option Str) (headers query : Dict Str Str)
    (body : Json) : List Str :=
  [endpointName] ++ (eventType.filter (· ≠ [])).toList ++ pairStrings runtime headers ++
    pairStrings runtime query ++ collect runtime body

/-- The `search` part of an event. -/
structure Terms where
  tokens : List Str
  trigrams : List Str
deriving DecidableEq

/-- `build(...)` -/
def build (endpointName : Str) (eventType : Option Str) (headers query : Dict Str Str)
    (body : Json) : Terms :=
  let sources := sourceStrings runtime endpointName eventType headers query body
  let tokens := capped tokenLimit (sources.flatMap (tokenize runtime.casing))
  ⟨tokens, capped trigramLimit (tokens.flatMap trigrams)⟩

end

/-- What is collected from items is collected from one of them. -/
theorem mem_collectItems {runtime : Runtime} {items : List Json} {text : Str}
    (member : text ∈ collectItems runtime items) :
    ∃ item ∈ items, text ∈ collect runtime item := by
  induction items with
  | nil => cases member
  | cons first rest inductionHypothesis =>
    rcases List.mem_append.mp member with here | later
    · exact ⟨first, List.mem_cons_self, here⟩
    · obtain ⟨item, stored, collected⟩ := inductionHypothesis later
      exact ⟨item, List.mem_cons_of_mem _ stored, collected⟩

/-- What is collected from members is the key of one of them or is collected from its
value. -/
theorem mem_collectMembers {runtime : Runtime} {members : List (Str × Json)} {text : Str}
    (member : text ∈ collectMembers runtime members) :
    ∃ pair ∈ members, text = pair.1 ∨ text ∈ collect runtime pair.2 := by
  induction members with
  | nil => cases member
  | cons first rest inductionHypothesis =>
    have later : text ∈ collectMembers runtime rest →
        ∃ pair ∈ first :: rest, text = pair.1 ∨ text ∈ collect runtime pair.2 := by
      intro inRest
      obtain ⟨pair, stored, collected⟩ := inductionHypothesis inRest
      exact ⟨pair, List.mem_cons_of_mem _ stored, collected⟩
    simp only [collectMembers] at member
    split at member
    · exact later member
    · rcases List.mem_cons.mp member with key | others
      · exact ⟨first, List.mem_cons_self, .inl key⟩
      · rcases List.mem_append.mp others with here | inRest
        · exact ⟨first, List.mem_cons_self, .inr here⟩
        · exact later inRest

/-! ## Terms without lone surrogates -/

/-- Normalisation introduces no lone surrogate. -/
theorem normalize_scalar {casing : Casing} {value : Str} (scalar : Text.Scalar value) :
    Text.Scalar (normalize casing value) :=
  casing.lower_scalar _ (scalar.subset (Text.stripBy_sublist _ _).subset)

/-- The parts of a split consist of characters of the whole. -/
theorem splitOnP_subset {α : Type} (separates : α → Bool) {list part : List α}
    (member : part ∈ list.splitOnP separates) : part ⊆ list := by
  induction list generalizing part with
  | nil =>
    obtain rfl : part = [] := by simpa using member
    exact List.nil_subset _
  | cons first rest inductionHypothesis =>
    rw [List.splitOnP_cons_eq_if_modifyHead] at member
    split at member
    · rcases List.mem_cons.mp member with rfl | later
      · exact List.nil_subset _
      · exact List.subset_cons_of_subset _ (inductionHypothesis later)
    · cases parts : rest.splitOnP separates with
      | nil => simp [parts] at member
      | cons head tail =>
        rw [parts] at member inductionHypothesis
        simp only [List.modifyHead_cons, List.mem_cons] at member
        rcases member with rfl | later
        · exact List.cons_subset_cons _ (inductionHypothesis List.mem_cons_self)
        · exact List.subset_cons_of_subset _
            (inductionHypothesis (List.mem_cons_of_mem _ later))

/-- The parts of a split hold no separator. -/
theorem splitOnP_clean {α : Type} (separates : α → Bool) {list part : List α}
    (member : part ∈ list.splitOnP separates) : ∀ element ∈ part, separates element = false := by
  induction list generalizing part with
  | nil =>
    obtain rfl : part = [] := by simpa using member
    exact fun _ inside => absurd inside List.not_mem_nil
  | cons first rest inductionHypothesis =>
    rw [List.splitOnP_cons_eq_if_modifyHead] at member
    split at member
    · cases List.mem_cons.mp member with
      | inl empty =>
        rw [empty]
        exact fun _ inside => absurd inside List.not_mem_nil
      | inr later => exact inductionHypothesis later
    · rename_i kept
      cases parts : rest.splitOnP separates with
      | nil => simp [parts] at member
      | cons head tail =>
        rw [parts] at member inductionHypothesis
        simp only [List.modifyHead_cons, List.mem_cons] at member
        cases member with
        | inl same =>
          intro element inside
          rw [same] at inside
          cases List.mem_cons.mp inside with
          | inl here => simpa [here] using kept
          | inr later => exact inductionHypothesis List.mem_cons_self element later
        | inr later => exact inductionHypothesis (List.mem_cons_of_mem _ later)

/-- An element that does not separate stands in a part of a split. -/
theorem mem_splitOnP {α : Type} {separates : α → Bool} {list : List α} {element : α}
    (kept : separates element = false) (member : element ∈ list) :
    ∃ part ∈ list.splitOnP separates, element ∈ part := by
  induction list with
  | nil => cases member
  | cons first rest inductionHypothesis =>
    rw [List.splitOnP_cons_eq_if_modifyHead]
    split
    · rename_i cut
      have later : element ∈ rest := by
        refine (List.mem_cons.mp member).resolve_left ?_
        rintro rfl
        rw [kept] at cut
        cases cut
      obtain ⟨part, split, inside⟩ := inductionHypothesis later
      exact ⟨part, List.mem_cons_of_mem _ split, inside⟩
    · cases parts : rest.splitOnP separates with
      | nil => exact absurd parts (List.splitOnP_ne_nil _ _)
      | cons head tail =>
        rw [parts] at inductionHypothesis
        rw [List.modifyHead_cons]
        rcases List.mem_cons.mp member with rfl | later
        · exact ⟨_, List.mem_cons_self, List.mem_cons_self⟩
        · obtain ⟨part, split, inside⟩ := inductionHypothesis later
          rcases List.mem_cons.mp split with rfl | inTail
          · exact ⟨_, List.mem_cons_self, List.mem_cons_of_mem _ inside⟩
          · exact ⟨part, List.mem_cons_of_mem _ inTail, inside⟩

/-- A split has at most one part more than the list has elements. -/
theorem length_splitOnP_le {α : Type} (separates : α → Bool) (list : List α) :
    (list.splitOnP separates).length ≤ list.length + 1 := by
  induction list with
  | nil => simp
  | cons first rest inductionHypothesis =>
    rw [List.splitOnP_cons_eq_if_modifyHead, List.length_cons]
    split
    · rw [List.length_cons]
      exact Nat.succ_le_succ inductionHypothesis
    · rw [List.length_modifyHead]
      exact Nat.le_succ_of_le inductionHypothesis

/-- Terms are not empty, and consist of term characters. -/
theorem splitTerms_characters {casing : Casing} {value term : Str}
    (member : term ∈ splitTerms casing value) :
    term ≠ [] ∧ ∀ point ∈ term, isTermCharacter point = true := by
  simp only [splitTerms, List.mem_map, List.mem_filter, decide_eq_true_eq] at member
  obtain ⟨whole, ⟨split, filled⟩, rfl⟩ := member
  constructor
  · intro empty
    rw [List.take_eq_nil_iff] at empty
    exact empty.elim (by decide) filled
  · intro point inside
    have clean := splitOnP_clean _ split point (List.mem_of_mem_take inside)
    simpa using clean

/-- Normalising twice changes no more. -/
theorem normalize_normalize {casing : Casing} (stable : casing.Stable) (value : Str) :
    normalize casing (normalize casing value) = normalize casing value := by
  rw [normalize, normalize, ← stable.lower_strip,
    Text.strip_strip, stable.lower_lower]

/-- A term character is no white space, and is in lower case. -/
theorem solid_of_term {point : CodePoint} (own : isTermCharacter point = true) :
    Text.isSpace point = false := by
  have range := of_decide_eq_true own
  simp only [Text.isSpace, decide_eq_false_iff_not]
  omega

theorem lower_of_term {point : CodePoint} (own : isTermCharacter point = true) :
    Text.asciiLower point = point := by
  have range := of_decide_eq_true own
  have small : ¬ (65 ≤ point.val ∧ point.val ≤ 90) := by omega
  rw [Text.asciiLower, dif_neg small]

/-- Text of term characters is normal. -/
theorem normalize_characters {casing : Casing} {text : Str}
    (characters : ∀ point ∈ text, isTermCharacter point = true) :
    normalize casing text = text := by
  have stripped : Text.strip text = text := by
    refine Text.stripBy_eq_self ?_ ?_
    · rintro point rest rfl
      exact solid_of_term (characters point List.mem_cons_self)
    · rintro before point rfl
      exact solid_of_term (characters point (List.mem_append_right _ List.mem_cons_self))
  have ascii : Text.Ascii text := by
    intro point member
    have range := of_decide_eq_true (characters point member)
    omega
  have lower : ∀ point ∈ text, Text.asciiLower point = point :=
    fun point member => lower_of_term (characters point member)
  rw [normalize, stripped, casing.lower_ascii text ascii, List.map_congr_left lower,
    List.map_id']

/-- A text of term characters that fits into a token is its only term. -/
theorem splitTerms_single {casing : Casing} {query : Str} (filled : query ≠ [])
    (own : ∀ point ∈ query, isTermCharacter point = true)
    (short : query.length ≤ maxTokenLength) : splitTerms casing query = [query] := by
  have whole : query.splitOnP (fun point => !isTermCharacter point) = [query] := by
    refine List.splitOnP_eq_singleton ?_
    intro point member
    rw [own point member, Bool.not_true]
  have kept : [query].filter (fun part => decide (part ≠ [])) = [query] := by
    simp [filled]
  rw [splitTerms, normalize_characters own, whole, kept, List.map_singleton,
    List.take_of_length_le short]

/-- Trigrams of a term consist of term characters and spaces. -/
theorem trigrams_characters {term gram : Str}
    (characters : ∀ point ∈ term, isTermCharacter point = true) (member : gram ∈ trigrams term) :
    ∀ point ∈ gram, isTermCharacter point = true ∨ point = space := by
  intro point inside
  simp only [trigrams] at member
  split at member
  · cases member
  · obtain ⟨start, _, rfl⟩ := List.mem_map.mp member
    have padded : point ∈ [space] ++ term ++ [space] :=
      List.mem_of_mem_drop (List.mem_of_mem_take inside)
    simp only [List.mem_append, List.mem_singleton] at padded
    cases padded with
    | inl front =>
      cases front with
      | inl pad => exact .inr pad
      | inr own => exact .inl (characters point own)
    | inr pad => exact .inr pad

/-- Tokens of scalar text are scalar. -/
theorem tokenize_scalar {casing : Casing} {value token : Str} (scalar : Text.Scalar value)
    (member : token ∈ tokenize casing value) : Text.Scalar token := by
  have normalized : Text.Scalar (normalize casing value) := normalize_scalar scalar
  have parts : ∀ part ∈ splitTerms casing (normalize casing value), Text.Scalar part := by
    intro part inParts
    simp only [splitTerms, List.mem_map, List.mem_filter] at inParts
    obtain ⟨whole, ⟨split, _⟩, rfl⟩ := inParts
    exact (normalize_scalar normalized).subset
      (List.Subset.trans (List.take_subset _ _) (splitOnP_subset _ split))
  simp only [tokenize] at member
  split at member
  · rcases List.mem_append.mp member with inParts | whole
    · exact parts token inParts
    · rw [List.mem_singleton.mp whole]
      exact normalized.subset (List.take_subset _ _)
  · exact parts token member

/-- Trigrams of a scalar token are scalar. -/
theorem trigrams_scalar {token gram : Str} (scalar : Text.Scalar token)
    (member : gram ∈ trigrams token) : Text.Scalar gram := by
  unfold trigrams at member
  split at member
  · cases member
  · obtain ⟨start, _, rfl⟩ := List.mem_map.mp member
    have padding : Text.Scalar [space] := by decide
    exact ((padding.append scalar).append padding).subset
      (List.Subset.trans (List.take_subset _ _) (List.drop_subset _ _))

/-- Noting a value adds no other. -/
theorem mem_note {seen : List Str} {value other : Str} (member : other ∈ note seen value) :
    other ∈ seen ∨ other = value := by
  unfold note at member
  split at member
  · exact .inl member
  · simpa using member

/-- The cap only drops values. -/
theorem mem_cappedFrom {limit : Nat} {seen values : List Str} {value : Str}
    (member : value ∈ cappedFrom limit seen values) : value ∈ seen ∨ value ∈ values := by
  induction values generalizing seen with
  | nil => exact .inl member
  | cons first rest inductionHypothesis =>
    have grown : value ∈ note seen first → value ∈ seen ∨ value ∈ first :: rest := by
      intro noted
      rcases mem_note noted with old | rfl
      · exact .inl old
      · exact .inr List.mem_cons_self
    simp only [cappedFrom] at member
    split at member
    · exact grown member
    · rcases inductionHypothesis member with noted | later
      · exact grown noted
      · exact .inr (List.mem_cons_of_mem _ later)

/-- A capped list holds only values that were there. -/
theorem mem_capped {limit : Nat} {values : List Str} {value : Str}
    (member : value ∈ capped limit values) : value ∈ values :=
  (mem_cappedFrom member).resolve_left List.not_mem_nil

/-- Values are noted once. -/
theorem nodup_note {seen : List Str} (distinct : seen.Nodup) (value : Str) :
    (note seen value).Nodup := by
  unfold note
  split
  · exact distinct
  · rename_i new
    refine List.nodup_append.mpr ⟨distinct, List.nodup_singleton value, ?_⟩
    intro element before other last same
    rw [List.mem_singleton] at last
    exact new (last ▸ same ▸ before)

/-- Noting a value moves it from the values to come to those that were seen. -/
theorem toFinset_note (seen rest : List Str) (value : Str) :
    (note seen value ++ rest).toFinset = (seen ++ value :: rest).toFinset := by
  unfold note
  split
  · rename_i old
    ext other
    simp only [List.mem_toFinset, List.mem_append, List.mem_cons]
    constructor
    · exact fun within => within.imp_right .inr
    · rintro (before | rfl | after)
      · exact .inl before
      · exact .inl old
      · exact .inr after
  · rw [List.append_assoc, List.singleton_append]

/-- If there are no more distinct values than the limit allows, none is lost. -/
theorem mem_cappedFrom_of_few {limit : Nat} {seen values : List Str} {value : Str}
    (distinct : seen.Nodup) (few : (seen ++ values).toFinset.card ≤ limit)
    (member : value ∈ seen ++ values) : value ∈ cappedFrom limit seen values := by
  induction values generalizing seen with
  | nil => simpa [cappedFrom] using member
  | cons first rest inductionHypothesis =>
    have noted := nodup_note distinct first
    have moved := toFinset_note seen rest first
    have within : value ∈ note seen first ++ rest := by
      rw [← List.mem_toFinset, moved, List.mem_toFinset]
      exact member
    rw [cappedFrom]
    split
    · rename_i full
      -- the cap is reached with the last of the distinct values
      have all : (note seen first).toFinset = (note seen first ++ rest).toFinset := by
        apply Finset.eq_of_subset_of_card_le
        · intro other inside
          exact List.mem_toFinset.mpr (List.mem_append_left _ (List.mem_toFinset.mp inside))
        · rw [moved, List.toFinset_card_of_nodup noted]
          exact few.trans full
      rw [← List.mem_toFinset, all, List.mem_toFinset]
      exact within
    · exact inductionHypothesis noted (moved ▸ few) within

/-- What follows as many distinct values as the limit allows is not looked at.

Induction on the values, for what was seen before, which never fills the limit. -/
theorem cappedFrom_append_of_many {limit : Nat} {seen values : List Str} (more : List Str)
    (room : seen.length < limit) (many : limit ≤ (seen ++ values).toFinset.card) :
    cappedFrom limit seen (values ++ more) = cappedFrom limit seen values := by
  induction values generalizing seen with
  | nil =>
    rw [List.append_nil] at many
    have few : seen.toFinset.card ≤ seen.length := seen.toFinset_card_le
    omega
  | cons first rest inductionHypothesis =>
    rw [List.cons_append, cappedFrom, cappedFrom]
    split
    · rfl
    · rename_i left
      exact inductionHypothesis (not_le.mp left) (toFinset_note seen rest first ▸ many)

/-- A capped list of at most as many distinct values holds all of them. -/
theorem mem_capped_of_few {limit : Nat} {values : List Str} {value : Str}
    (few : values.toFinset.card ≤ limit) (member : value ∈ values) :
    value ∈ capped limit values :=
  mem_cappedFrom_of_few List.nodup_nil few member

/-- The cap drops everything after as many distinct values as it allows. -/
theorem capped_append_of_many {limit : Nat} {values : List Str} (more : List Str)
    (positive : 0 < limit) (many : limit ≤ values.toFinset.card) :
    capped limit (values ++ more) = capped limit values :=
  cappedFrom_append_of_many more positive many

/-- Every term is scalar. -/
def Terms.Scalar (terms : Terms) : Prop :=
  (∀ token ∈ terms.tokens, Text.Scalar token) ∧ ∀ gram ∈ terms.trigrams, Text.Scalar gram

instance termsScalarDecidable (terms : Terms) : Decidable terms.Scalar :=
  inferInstanceAs (Decidable (_ ∧ _))

/-- The terms of scalar sources are scalar. -/
theorem build_scalar {runtime : Runtime} {endpointName : Str} {eventType : Option Str}
    {headers query : Dict Str Str} {body : Json}
    (scalar : ∀ source ∈ sourceStrings runtime endpointName eventType headers query body,
      Text.Scalar source) :
    (build runtime endpointName eventType headers query body).Scalar := by
  have tokens : ∀ token ∈ (build runtime endpointName eventType headers query body).tokens,
      Text.Scalar token := by
    intro token member
    obtain ⟨source, inSources, tokenized⟩ := List.mem_flatMap.mp (mem_capped member)
    exact tokenize_scalar (scalar source inSources) tokenized
  refine ⟨tokens, ?_⟩
  intro gram member
  obtain ⟨token, inTokens, made⟩ := List.mem_flatMap.mp (mem_capped member)
  exact trigrams_scalar (tokens token inTokens) made

end WebhookInbox.Tokenize
