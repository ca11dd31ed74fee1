import WebhookInbox.Ingest.Depth
import WebhookInbox.Library.JsonSyntax

/-!
# The depth of a document

The scan of `nesting_depth` knows strings and brackets and nothing else of JSON. For every
syntax tree and every text of it in UTF-8 it counts exactly the containers of the tree, so
`parse_body` refuses a document for its depth exactly if the tree is deeper than allowed.

Between two tokens the scan is outside of strings, at the depth of the place: this is what
the induction on the rendering carries.
-/

namespace WebhookInbox.Parser

open Library Library.Encoding Library.JsonText

/-- White space is quiet. -/
theorem scanText_blank {blank : Str} (white : Blank blank) (depth maximum : Int) (rest : Str) :
    scanText (Scan.outside depth maximum) (blank ++ rest) =
      scanText (Scan.outside depth maximum) rest :=
  scanText_quiet (fun point member => quiet_of_isBlank (white point member)) depth maximum rest

/-- A hexadecimal digit is neither a quotation mark nor a backslash. -/
theorem plain_of_hex {point : CodePoint} (digit : (Json.hexValue point).isSome) :
    point.val ≠ 0x22 ∧ point.val ≠ 0x5C := by
  constructor
  · intro same
    have isQuote : point = quote := Fin.ext same
    rw [isQuote] at digit
    revert digit
    decide
  · intro same
    have isSlash : point = backslash := Fin.ext same
    rw [isSlash] at digit
    revert digit
    decide

/-- The scan stays in a string over its characters, whatever is escaped. -/
theorem scanText_chars {chars : Str} (quoted : Chars chars) (depth maximum : Int) (rest : Str) :
    scanText (Scan.inside depth maximum) (chars ++ rest) =
      scanText (Scan.inside depth maximum) rest := by
  induction quoted with
  | nil => rfl
  | unescaped _ notQuote notSlash _ inductionHypothesis =>
    rename_i point text _ _
    have plain : ∀ other ∈ [point], other.val ≠ 0x22 ∧ other.val ≠ 0x5C := by
      intro other member
      rw [List.mem_singleton.mp member]
      exact ⟨fun same => notQuote (Fin.ext same), fun same => notSlash (Fin.ext same)⟩
    have passed := scanText_inside plain depth maximum (text ++ rest)
    rw [List.singleton_append] at passed
    rw [List.cons_append, passed, inductionHypothesis]
  | escaped _ _ inductionHypothesis =>
    rw [List.cons_append, List.cons_append, scanText_escaped rfl, inductionHypothesis]
  | unicode digits _ inductionHypothesis =>
    rename_i first second third fourth text _
    have plain : ∀ point ∈ [first, second, third, fourth], point.val ≠ 0x22 ∧ point.val ≠ 0x5C := by
      intro point member
      exact plain_of_hex (digits point member)
    have passed := scanText_inside plain depth maximum (text ++ rest)
    simp only [List.cons_append, List.nil_append] at passed ⊢
    rw [scanText_escaped rfl, passed, inductionHypothesis]

/-- The scan passes over a whole string. -/
theorem scanText_literal {chars : Str} (quoted : Chars chars) (depth maximum : Int) (rest : Str) :
    scanText (Scan.outside depth maximum) (quote :: (chars ++ quote :: rest)) =
      scanText (Scan.outside depth maximum) rest := by
  have entered : (Scan.outside depth maximum).feed quote.val = Scan.inside depth maximum := by
    simp [Scan.feed, Scan.inside, Scan.outside, quote]
  have left : (Scan.inside depth maximum).feed quote.val = Scan.outside depth maximum := by
    simp [Scan.feed, Scan.inside, Scan.outside, quote]
  have inside := scanText_chars quoted depth maximum (quote :: rest)
  simp only [scanText, List.foldl_cons, entered, left] at inside ⊢
  exact inside

/-- The scan of a rendering counts the containers of its phrase, and ends outside of
strings at the depth it started at.

Induction on the rendering. -/
theorem scanText_renders {phrase : JsonText.Phrase} {text : Str} (renders : Renders phrase text) :
    ∀ (depth maximum : Int) (rest : Str), depth ≤ maximum →
      scanText (Scan.outside depth maximum) (text ++ rest) =
        scanText (Scan.outside depth (max maximum (depth + phrase.depth))) rest := by
  have flat : ∀ {depth maximum : Int}, depth ≤ maximum → max maximum (depth + (0 : Nat)) = maximum := by
    intro depth maximum below
    omega
  induction renders with
  | word known =>
    intro depth maximum rest below
    rw [scanText_quiet (quiet_of_word known)]
    exact congrArg (fun most => scanText (Scan.outside depth most) rest) (flat below).symm
  | number written =>
    intro depth maximum rest below
    rw [scanText_quiet (fun point member => quiet_of_isNumeric (written.numeric point member))]
    exact congrArg (fun most => scanText (Scan.outside depth most) rest) (flat below).symm
  | string spelled =>
    intro depth maximum rest below
    simp only [List.append_assoc, List.cons_append, List.nil_append]
    rw [scanText_literal spelled.chars]
    exact congrArg (fun most => scanText (Scan.outside depth most) rest) (flat below).symm
  | emptyArray between =>
    intro depth maximum rest below
    simp only [List.append_assoc, List.cons_append, List.nil_append]
    rw [scanText_open (.inl rfl), scanText_blank between, scanText_close (.inl rfl)]
    simp [JsonText.Phrase.depth, Tree.depth, Tree.depthItems]
  | array _ inductionHypothesis =>
    intro depth maximum rest below
    simp only [List.append_assoc, List.cons_append, List.nil_append]
    rw [scanText_open (.inl rfl), inductionHypothesis _ _ _ (le_max_right _ _),
      scanText_close (.inl rfl)]
    simp only [JsonText.Phrase.depth, Tree.depth, Nat.cast_add, Nat.cast_one]
    congr 2 <;> omega
  | lastItem left right _ inductionHypothesis =>
    intro depth maximum rest below
    simp only [List.append_assoc]
    rw [scanText_blank left, inductionHypothesis _ _ _ below, scanText_blank right]
    simp [JsonText.Phrase.depth, Tree.depthItems]
  | nextItem left right _ _ first others =>
    intro depth maximum rest below
    simp only [List.append_assoc, List.cons_append, List.nil_append]
    rw [scanText_blank left, first _ _ _ below, scanText_blank right,
      scanText_separator (.inl rfl), others _ _ _ (below.trans (le_max_left _ _))]
    simp only [JsonText.Phrase.depth, Tree.depthItems, Nat.cast_max]
    congr 2
    omega
  | emptyObject between =>
    intro depth maximum rest below
    simp only [List.append_assoc, List.cons_append, List.nil_append]
    rw [scanText_open (.inr rfl), scanText_blank between, scanText_close (.inr rfl)]
    simp [JsonText.Phrase.depth, Tree.depth, Tree.depthMembers]
  | object _ inductionHypothesis =>
    intro depth maximum rest below
    simp only [List.append_assoc, List.cons_append, List.nil_append]
    rw [scanText_open (.inr rfl), inductionHypothesis _ _ _ (le_max_right _ _),
      scanText_close (.inr rfl)]
    simp only [JsonText.Phrase.depth, Tree.depth, Nat.cast_add, Nat.cast_one]
    congr 2 <;> omega
  | lastMember left spelled named valued right _ inductionHypothesis =>
    intro depth maximum rest below
    simp only [List.append_assoc, List.cons_append, List.nil_append]
    rw [scanText_blank left, scanText_literal spelled.chars, scanText_blank named,
      scanText_separator (.inr rfl), scanText_blank valued, inductionHypothesis _ _ _ below,
      scanText_blank right]
    simp [JsonText.Phrase.depth, Tree.depthMembers]
  | nextMember left spelled named valued right _ _ first others =>
    intro depth maximum rest below
    simp only [List.append_assoc, List.cons_append, List.nil_append]
    rw [scanText_blank left, scanText_literal spelled.chars, scanText_blank named,
      scanText_separator (.inr rfl), scanText_blank valued, first _ _ _ below,
      scanText_blank right, scanText_separator (.inl rfl),
      others _ _ _ (below.trans (le_max_left _ _))]
    simp only [JsonText.Phrase.depth, Tree.depthMembers, Nat.cast_max]
    congr 2
    omega

/-- The bytes are the text in UTF-8, with or without a signature. -/
def Utf8 (raw : Bytes) (text : Str) : Prop :=
  decodeUtf8 true raw = some text ∨ decodeUtf8 true raw = some (0xFEFF :: text)

/-- The scan of a document counts its containers. -/
theorem nestingDepth_document {tree : JsonText.Tree} {text : Str} {raw : Bytes}
    (document : Document tree text) (encoded : Utf8 raw text) : nestingDepth raw = tree.depth := by
  obtain ⟨before, inner, after, left, right, renders, rfl⟩ := document
  have counted : (scanText Scan.start (before ++ inner ++ after)).maximum = tree.depth := by
    have trailing := scanText_blank right 0 (max 0 (0 + (tree.depth : Int))) []
    rw [List.append_nil] at trailing
    rw [show Scan.start = Scan.outside 0 0 from rfl, List.append_assoc, scanText_blank left,
      scanText_renders renders 0 0 after (le_refl 0)]
    simp only [JsonText.Phrase.depth]
    rw [trailing]
    simp [scanText, Scan.outside]
  cases encoded with
  | inl plain => rw [nestingDepth_utf8 plain, counted]
  | inr signed =>
    have quiet : Scan.start.feed (0xFEFF : CodePoint).val = Scan.start := by decide
    rw [nestingDepth_utf8 signed, scanText, List.foldl_cons, quiet]
    exact counted

/-- What `parse_body` makes of what `json.loads` does. -/
def caught : Except Json.LoadsError Json → Except Json.LoadsError Json
  | .error .jsonDecodeError | .error .unicodeDecodeError | .error .recursionError => .ok .null
  | result => result

/-- A JSON body within the limit is read as if there was none. -/
theorem parseBody_within {runtime : Runtime} {raw : Bytes} {contentType : Str} {maxDepth : Int}
    (json : isJson (mediaType runtime contentType) = true) (within : nestingDepth raw ≤ maxDepth) :
    parseBody runtime raw contentType maxDepth = caught (Json.loads runtime.reader raw) := by
  by_cases empty : raw = []
  · subst empty
    rfl
  · have notOver : ¬ maxDepth < nestingDepth raw := not_lt.mpr within
    simp only [parseBody, empty, ↓reduceIte, json, notOver]
    cases loaded : Json.loads runtime.reader raw with
    | ok value => rfl
    | error error => cases error <;> rfl

/-- A JSON body beyond the limit is not read. -/
theorem parseBody_beyond {runtime : Runtime} {raw : Bytes} {contentType : Str} {maxDepth : Int}
    (json : isJson (mediaType runtime contentType) = true) (beyond : maxDepth < nestingDepth raw) :
    parseBody runtime raw contentType maxDepth = .ok .null := by
  by_cases empty : raw = []
  · subst empty
    rfl
  · simp only [parseBody, empty, ↓reduceIte, json, beyond]

/-- For every syntax tree and every text of it in UTF-8, `nesting_depth` is the depth of the
tree. A document within the limit is read as if there was none, and one beyond it is not
read.

Proof: the scan of the bytes is the scan of the characters, and between any two tokens it is
outside of strings at the depth of the place. -/
theorem nestingDepth_exact {tree : JsonText.Tree} {text : Str} {raw : Bytes}
    (document : Document tree text) (encoded : Utf8 raw text) :
    nestingDepth raw = tree.depth ∧
      ∀ (runtime : Runtime) (contentType : Str) (maxDepth : Int),
        isJson (mediaType runtime contentType) = true →
        ((tree.depth : Int) ≤ maxDepth → parseBody runtime raw contentType maxDepth =
          caught (Json.loads runtime.reader raw)) ∧
        (maxDepth < tree.depth → parseBody runtime raw contentType maxDepth = .ok .null) := by
  have exact := nestingDepth_document document encoded
  refine ⟨exact, ?_⟩
  intro runtime contentType maxDepth json
  rw [← exact]
  exact ⟨parseBody_within json, parseBody_beyond json⟩

/-- An array with a bracket and a quotation mark in a string, and a backslash at the end of
another. -/
def escapedTree : JsonText.Tree := .array [.string [0x5B, 0x22], .array [.string [0x5C]]]

/-- One of its texts. -/
def escapedText : Str := lit "[ \"\\u005b\\\"\", [\"\\\\\"]]"

theorem document_escaped : Document escapedTree escapedText := by
  have white : Blank [0x20] := by decide
  have none : Blank [] := by decide
  have unit : Digits4 0x5B [0x30, 0x30, 0x35, 0x62] := by
    unfold Digits4
    decide
  have mark : Spells [0x22] [0x5C, 0x22] := .letter (by decide) .nil
  have bracket : Spells [0x5B, 0x22] [0x5C, 0x75, 0x30, 0x30, 0x35, 0x62, 0x5C, 0x22] :=
    @Spells.unit 0x5B [0x30, 0x30, 0x35, 0x62] _ _ unit mark
  have slash : Spells [0x5C] [0x5C, 0x5C] := .letter (by decide) .nil
  have inner : Renders (.value (.array [.string [0x5C]])) _ :=
    .array (.lastItem none none (.string slash))
  have outer := Renders.array (.nextItem white none (.string bracket) (.lastItem white none inner))
  exact ⟨[], _, [], none, none, outer, by decide +kernel⟩

/-- Two containers are counted, neither the escaped bracket nor what follows the escapes. -/
theorem nestingDepth_escaped :
    nestingDepth ((encodeUtf8 escapedText).getD []) = 2 ∧
      parseBody plainRuntime ((encodeUtf8 escapedText).getD []) (lit "application/json") 1 =
        .ok .null := by
  have encoded : Utf8 ((encodeUtf8 escapedText).getD []) escapedText := .inl (by decide +kernel)
  have exact := nestingDepth_exact document_escaped encoded
  have json : isJson (mediaType plainRuntime (lit "application/json")) = true := by decide +kernel
  exact ⟨exact.1, (exact.2 plainRuntime (lit "application/json") 1 json).2 (by decide)⟩

end WebhookInbox.Parser
