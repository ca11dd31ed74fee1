import WebhookInbox.Ingest.Parser
import WebhookInbox.Library.WideEncoding

/-!
# The depth guard and the parser behind it

`nesting_depth` scans bytes; the parser behind it reads decoded characters. On
UTF-8 the two agree: the scan of a derivation counts exactly the containers of
its syntax tree, so a value that passes the guard is no deeper than allowed.

The parser also accepts UTF-16 and UTF-32, where the byte of a quotation mark can
be a part of another character. One such character in a string puts the scan out
of step, and what follows is not counted. `guard_exact` says for which encodings
and limits the guard holds.
-/

namespace WebhookInbox.Parser

open Library Library.Encoding Library.Json

/-! ## The scan of a text -/

/-- The scan between tokens. -/
def Scan.outside (depth maximum : Int) : Scan := ⟨depth, maximum, false, false⟩

/-- The scan inside a string. -/
def Scan.inside (depth maximum : Int) : Scan := ⟨depth, maximum, true, false⟩

/-- The scan over characters instead of bytes. -/
def scanText (scan : Scan) (text : Str) : Scan :=
  text.foldl (fun current point => current.feed point.val) scan

/-- Characters that the scan passes over between tokens. -/
def Quiet (unit : Nat) : Prop :=
  unit ≠ 0x22 ∧ unit ≠ 0x7B ∧ unit ≠ 0x5B ∧ unit ≠ 0x7D ∧ unit ≠ 0x5D

/-- A quiet unit changes nothing between tokens. -/
theorem feed_quiet {unit : Nat} (quiet : Quiet unit) (depth maximum : Int) :
    (Scan.outside depth maximum).feed unit = Scan.outside depth maximum := by
  obtain ⟨quote, brace, bracket, braceEnd, bracketEnd⟩ := quiet
  simp [Scan.feed, Scan.outside, quote, brace, bracket, braceEnd, bracketEnd]

/-- A run of quiet characters changes nothing. -/
theorem scanText_quiet {part : Str} (quiet : ∀ point ∈ part, Quiet point.val)
    (depth maximum : Int) (rest : Str) :
    scanText (Scan.outside depth maximum) (part ++ rest) =
      scanText (Scan.outside depth maximum) rest := by
  induction part with
  | nil => rfl
  | cons point others inductionHypothesis =>
    have first := feed_quiet (quiet point List.mem_cons_self) depth maximum
    have remaining := inductionHypothesis (fun other member =>
      quiet other (List.mem_cons_of_mem _ member))
    simp only [List.cons_append, scanText, List.foldl_cons, first]
    exact remaining

/-- Blanks are quiet. -/
theorem quiet_of_isBlank {point : CodePoint} (blank : isBlank point = true) : Quiet point.val := by
  simp only [isBlank, decide_eq_true_eq] at blank
  unfold Quiet
  omega

/-- The scan passes over blanks. -/
theorem scanText_skipBlank (text : Str) (depth maximum : Int) :
    scanText (Scan.outside depth maximum) text =
      scanText (Scan.outside depth maximum) (skipBlank text) := by
  have split : text = text.takeWhile isBlank ++ skipBlank text :=
    List.takeWhile_append_dropWhile.symm
  have quiet : ∀ point ∈ text.takeWhile isBlank, Quiet point.val :=
    fun point member => quiet_of_isBlank (List.mem_takeWhile_imp member)
  rw [← scanText_quiet quiet depth maximum (skipBlank text), ← split]

/-- The characters of a number are quiet. -/
theorem quiet_of_isNumeric {point : CodePoint} (numeric : isNumeric point = true) :
    Quiet point.val := by
  simp only [isNumeric, isDigit, Bool.or_eq_true, decide_eq_true_eq] at numeric
  unfold Quiet
  omega

/-- The characters of words are quiet. -/
theorem quiet_of_word {word : Str} {value : Json} (member : (word, value) ∈ words) :
    ∀ point ∈ word, Quiet point.val := by
  have letters : words.all (fun word => word.1.all (fun point =>
      decide (0x2D ≤ point.val ∧ point.val ≤ 0x79 ∧ point.val ≠ 0x5B ∧ point.val ≠ 0x5D))) =
      true := by
    decide
  intro point inWord
  have letter := List.all_eq_true.mp (List.all_eq_true.mp letters _ member) point inWord
  have bounds := of_decide_eq_true letter
  unfold Quiet
  omega

/-! ## The scan of a string -/

/-- Inside a string only a quotation mark and a backslash matter. -/
theorem feed_inside {unit : Nat} (notQuote : unit ≠ 0x22) (notSlash : unit ≠ 0x5C)
    (depth maximum : Int) :
    (Scan.inside depth maximum).feed unit = Scan.inside depth maximum := by
  simp [Scan.feed, Scan.inside, notQuote, notSlash]

/-- The scan stays in a string over characters that do not matter. -/
theorem scanText_inside {part : Str}
    (plain : ∀ point ∈ part, point.val ≠ 0x22 ∧ point.val ≠ 0x5C) (depth maximum : Int)
    (rest : Str) :
    scanText (Scan.inside depth maximum) (part ++ rest) =
      scanText (Scan.inside depth maximum) rest := by
  induction part with
  | nil => rfl
  | cons point others inductionHypothesis =>
    obtain ⟨notQuote, notSlash⟩ := plain point List.mem_cons_self
    have remaining := inductionHypothesis (fun other member =>
      plain other (List.mem_cons_of_mem _ member))
    simp only [List.cons_append, scanText, List.foldl_cons, feed_inside notQuote notSlash]
    exact remaining

/-- A backslash hides the character after it. -/
theorem scanText_escaped {slash letter : CodePoint} (isSlash : slash.val = 0x5C)
    (depth maximum : Int) (rest : Str) :
    scanText (Scan.inside depth maximum) (slash :: letter :: rest) =
      scanText (Scan.inside depth maximum) rest := by
  have escaped : (Scan.inside depth maximum).feed slash.val = ⟨depth, maximum, true, true⟩ := by
    simp [Scan.feed, Scan.inside, isSlash]
  have hidden : (⟨depth, maximum, true, true⟩ : Scan).feed letter.val =
      Scan.inside depth maximum := by
    simp [Scan.feed, Scan.inside]
  simp only [scanText, List.foldl_cons, escaped, hidden]

/-- The scan passes over an escape as the reader does, a joined pair included. -/
theorem scanText_unescape {slash char : CodePoint} {rest after : Str} (isSlash : slash.val = 0x5C)
    (unescaped : unescape rest = some (char, after)) (depth maximum : Int) :
    scanText (Scan.inside depth maximum) (slash :: rest) =
      scanText (Scan.inside depth maximum) after := by
  obtain ⟨letter, digits, middle, rfl, plain, rfl | ⟨value, low⟩⟩ := unescape_consumes unescaped
  · rw [List.cons_append, scanText_escaped isSlash, scanText_inside plain]
  · obtain ⟨second, lowLetter, lowDigits, rfl, secondSlash, _, lowPlain⟩ := lowEscape_consumes low
    rw [List.cons_append, scanText_escaped isSlash, scanText_inside plain, List.cons_append,
      List.cons_append, scanText_escaped secondSlash, scanText_inside lowPlain]

/-- The scan leaves a string at the quotation mark that closes it. -/
theorem scanText_quoted {text chars after : Str} (quoted : Quoted text chars after)
    (depth maximum : Int) :
    scanText (Scan.inside depth maximum) text = scanText (Scan.outside depth maximum) after := by
  induction quoted with
  | close isQuote =>
    have left : (Scan.inside depth maximum).feed 0x22 = Scan.outside depth maximum := by
      simp [Scan.feed, Scan.inside, Scan.outside]
    simp only [scanText, List.foldl_cons, isQuote, left]
  | escape isSlash unescaped _ inductionHypothesis =>
    rw [scanText_unescape isSlash unescaped, inductionHypothesis]
  | plain notQuote notSlash _ _ inductionHypothesis =>
    simp only [scanText, List.foldl_cons, feed_inside notQuote notSlash]
    exact inductionHypothesis

/-- A string is entered by its opening quotation mark. -/
theorem scanText_string {quote : CodePoint} {rest chars after : Str} (isQuote : quote.val = 0x22)
    (quoted : Quoted rest chars after) (depth maximum : Int) :
    scanText (Scan.outside depth maximum) (quote :: rest) =
      scanText (Scan.outside depth maximum) after := by
  have entered : (Scan.outside depth maximum).feed 0x22 = Scan.inside depth maximum := by
    simp [Scan.feed, Scan.inside, Scan.outside]
  rw [← scanText_quoted quoted]
  simp only [scanText, List.foldl_cons, isQuote, entered]

/-! ## The scan of a derivation -/

/-- An opening bracket or brace. -/
theorem scanText_open {point : CodePoint} (opens : point.val = 0x5B ∨ point.val = 0x7B)
    (depth maximum : Int) (rest : Str) :
    scanText (Scan.outside depth maximum) (point :: rest) =
      scanText (Scan.outside (depth + 1) (max maximum (depth + 1))) rest := by
  rcases opens with opens | opens <;> simp [scanText, Scan.feed, Scan.outside, opens]

/-- A closing bracket or brace. -/
theorem scanText_close {point : CodePoint} (closes : point.val = 0x5D ∨ point.val = 0x7D)
    (depth maximum : Int) (rest : Str) :
    scanText (Scan.outside depth maximum) (point :: rest) =
      scanText (Scan.outside (depth - 1) maximum) rest := by
  rcases closes with closes | closes <;> simp [scanText, Scan.feed, Scan.outside, closes]

/-- A separator. -/
theorem scanText_separator {point : CodePoint} (separates : point.val = 0x2C ∨ point.val = 0x3A)
    (depth maximum : Int) (rest : Str) :
    scanText (Scan.outside depth maximum) (point :: rest) =
      scanText (Scan.outside depth maximum) rest := by
  have quiet : Quiet point.val := by
    unfold Quiet
    omega
  simp only [scanText, List.foldl_cons, feed_quiet quiet]

/-- Where the scan stands after a phrase that started at this depth. The closing
bracket of items and members belongs to them. -/
def depthAfter (depth : Int) : Phrase → Int
  | .value _ => depth
  | .items _ | .members _ => depth - 1

/-- The scan of a derivation counts the containers of its phrase.

Induction on the derivation. A list of items or members ends with the bracket
that the value around it opened, so its scan ends one level up. -/
theorem scanText_derives {reader : Reader} {text after : Str} {phrase : Phrase}
    (derived : Derives reader text phrase after) :
    ∀ depth maximum : Int, depth ≤ maximum →
      scanText (Scan.outside depth maximum) text =
        scanText (Scan.outside (depthAfter depth phrase) (max maximum (depth + phrase.depth)))
          after := by
  induction derived with
  | string isQuote quoted =>
    intro depth maximum below
    have same : max maximum (depth + 0) = maximum := by omega
    simp only [depthAfter, Phrase.depth, Json.depth, Nat.cast_zero, same]
    exact scanText_string isQuote quoted depth maximum
  | word read =>
    intro depth maximum below
    obtain ⟨word, member, rfl⟩ := readWord_part read
    have flat := (leaf_of_words member).2
    have same : max maximum (depth + 0) = maximum := by omega
    simp only [depthAfter, Phrase.depth, flat, Nat.cast_zero, same]
    exact scanText_quiet (quiet_of_word member) depth maximum _
  | number read valued =>
    intro depth maximum below
    obtain ⟨first, rest, rfl, numeric⟩ := readNumber_part read
    have flat := (leaf_of_number valued).2
    have same : max maximum (depth + 0) = maximum := by omega
    simp only [depthAfter, Phrase.depth, flat, Nat.cast_zero, same]
    exact scanText_quiet (fun point member => quiet_of_isNumeric (numeric point member))
      depth maximum _
  | emptyArray opens follows closes =>
    intro depth maximum below
    rw [scanText_open (.inl opens), scanText_skipBlank, follows, scanText_close (.inl closes)]
    simp [depthAfter, Phrase.depth, Json.depth, depthItems]
  | array opens _ inductionHypothesis =>
    intro depth maximum below
    rw [scanText_open (.inl opens), scanText_skipBlank,
      inductionHypothesis (depth + 1) (max maximum (depth + 1)) (le_max_right _ _)]
    simp only [depthAfter, Phrase.depth, Json.depth, Nat.cast_add, Nat.cast_one]
    congr 2 <;> omega
  | lastItem _ follows closes inductionHypothesis =>
    intro depth maximum below
    rw [inductionHypothesis depth maximum below, scanText_skipBlank, follows,
      scanText_close (.inl closes)]
    simp [depthAfter, Phrase.depth, depthItems]
  | nextItem _ follows separates _ firstScan restScan =>
    intro depth maximum below
    rw [firstScan depth maximum below, scanText_skipBlank, follows,
      scanText_separator (.inl separates), scanText_skipBlank,
      restScan _ _ (by simp only [depthAfter]; omega)]
    simp only [depthAfter, Phrase.depth, depthItems, Nat.cast_max]
    congr 2
    omega
  | emptyObject opens follows closes =>
    intro depth maximum below
    rw [scanText_open (.inr opens), scanText_skipBlank, follows, scanText_close (.inr closes)]
    simp [depthAfter, Phrase.depth, Json.depth, depthMembers]
  | object opens _ inductionHypothesis =>
    intro depth maximum below
    rw [scanText_open (.inr opens), scanText_skipBlank,
      inductionHypothesis (depth + 1) (max maximum (depth + 1)) (le_max_right _ _)]
    simp only [depthAfter, Phrase.depth, Json.depth, Nat.cast_add, Nat.cast_one]
    congr 2 <;> omega
  | lastMember isQuote quoted named isColon _ follows closes inductionHypothesis =>
    intro depth maximum below
    rw [scanText_string isQuote quoted, scanText_skipBlank, named,
      scanText_separator (.inr isColon), scanText_skipBlank, inductionHypothesis depth maximum below,
      scanText_skipBlank, follows, scanText_close (.inr closes)]
    simp [depthAfter, Phrase.depth, depthMembers]
  | nextMember isQuote quoted named isColon _ follows separates _ firstScan restScan =>
    intro depth maximum below
    rw [scanText_string isQuote quoted, scanText_skipBlank, named,
      scanText_separator (.inr isColon), scanText_skipBlank, firstScan depth maximum below,
      scanText_skipBlank, follows, scanText_separator (.inl separates), scanText_skipBlank,
      restScan _ _ (by simp only [depthAfter]; omega)]
    simp only [depthAfter, Phrase.depth, depthMembers, Nat.cast_max]
    congr 2
    omega

/-! ## UTF-8 -/

/-- The scan takes every unit above ASCII alike. -/
theorem feed_uniform (scan : Scan) (left right : Nat) (leftWide : 0x80 ≤ left)
    (rightWide : 0x80 ≤ right) : scan.feed left = scan.feed right := by
  have apart : ∀ unit, 0x80 ≤ unit → unit ≠ 0x5C ∧ unit ≠ 0x22 ∧ unit ≠ 0x7B ∧ unit ≠ 0x5B ∧
      unit ≠ 0x7D ∧ unit ≠ 0x5D := by omega
  simp [Scan.feed, apart left leftWide, apart right rightWide]

/-- A second unit above ASCII changes nothing more. -/
theorem feed_absorbs (scan : Scan) (left right : Nat) (leftWide : 0x80 ≤ left)
    (rightWide : 0x80 ≤ right) : (scan.feed left).feed right = scan.feed left := by
  have apart : ∀ unit, 0x80 ≤ unit → unit ≠ 0x5C ∧ unit ≠ 0x22 ∧ unit ≠ 0x7B ∧ unit ≠ 0x5B ∧
      unit ≠ 0x7D ∧ unit ≠ 0x5D := by omega
  obtain ⟨depth, maximum, inString, escaped⟩ := scan
  cases inString <;> cases escaped <;>
    simp [Scan.feed, apart left leftWide, apart right rightWide]

/-- On UTF-8 the scan of the bytes is the scan of the characters. -/
theorem nestingDepth_utf8 {raw : Bytes} {text : Str} (decoded : decodeUtf8 true raw = some text) :
    nestingDepth raw = (scanText Scan.start text).maximum := by
  have same := foldl_decodeUtf8 Scan.feed feed_uniform feed_absorbs decoded Scan.start
  rw [nestingDepth, same]
  rfl

/-- The scan of an accepted text counts the containers of its syntax tree. -/
theorem scanText_parse {reader : Reader} {text : Str} {value : Json}
    (parsed : parse reader text = .ok value) :
    (depth value : Int) ≤ (scanText Scan.start text).maximum := by
  obtain ⟨tree, after, derived, ended, rfl, _⟩ := parse_derives parsed
  have counted := scanText_derives derived 0 0 (le_refl 0)
  have finished : scanText Scan.start text =
      Scan.outside 0 (max 0 (0 + (depth tree : Int))) := by
    rw [show Scan.start = Scan.outside 0 0 from rfl, scanText_skipBlank, counted,
      scanText_skipBlank, ended]
    rfl
  have shallower := depth_merged_le tree
  rw [finished]
  simp only [Scan.outside]
  omega

/-- The bytes of the UTF-8 signature are quiet. -/
theorem nestingDepth_signature {raw : Bytes} (signed : detectEncoding raw = .utf8Sig) :
    nestingDepth raw = nestingDepth (raw.drop 3) := by
  have starts : [0xEF, 0xBB, 0xBF].isPrefixOf raw = true := by
    unfold detectEncoding at signed
    split at signed
    · cases signed
    split at signed
    · cases signed
    split at signed
    · assumption
    · split at signed
      · split at signed
        · cases signed
        · split at signed <;> cases signed
      · split at signed
        · split at signed <;> cases signed
        · split at signed
          · split at signed <;> cases signed
          · cases signed
      · cases signed
  obtain ⟨rest, rfl⟩ := List.isPrefixOf_iff_prefix.mp starts
  have quiet : ([0xEF, 0xBB, 0xBF] : Bytes).foldl (fun scan byte => scan.feed byte.toNat)
      Scan.start = Scan.start := by
    decide
  rw [nestingDepth, List.foldl_append, quiet]
  rfl

/-- What the guard lets through in UTF-8 is no deeper than the scan counted. -/
theorem loads_utf8 {reader : Reader} {raw : Bytes} {value : Json}
    (encoded : detectEncoding raw = .utf8 ∨ detectEncoding raw = .utf8Sig)
    (loaded : loads reader raw = .ok value) : (depth value : Int) ≤ nestingDepth raw := by
  rcases encoded with plain | signed
  · unfold loads at loaded
    rw [plain] at loaded
    simp only [decode] at loaded
    cases decoded : decodeUtf8 true raw with
    | none => simp [decoded] at loaded
    | some text =>
      simp only [decoded] at loaded
      rw [nestingDepth_utf8 decoded]
      exact scanText_parse loaded
  · unfold loads at loaded
    rw [signed] at loaded
    simp only [decode] at loaded
    cases decoded : decodeUtf8 true (raw.drop 3) with
    | none => simp [decoded] at loaded
    | some text =>
      simp only [decoded] at loaded
      rw [nestingDepth_signature signed, nestingDepth_utf8 decoded]
      exact scanText_parse loaded

/-! ## Wide encodings with a limit of zero -/

/-- The maximum of the scan never falls. -/
theorem feed_maximum (scan : Scan) (unit : Nat) : scan.maximum ≤ (scan.feed unit).maximum := by
  unfold Scan.feed
  split
  · split
    · exact le_refl _
    · split
      · exact le_refl _
      · split <;> exact le_refl _
  · split
    · exact le_refl _
    · split
      · exact le_max_left _ _
      · split <;> exact le_refl _

/-- Nor does it over several units. -/
theorem foldl_maximum (raw : Bytes) (scan : Scan) :
    scan.maximum ≤ (raw.foldl (fun current byte => current.feed byte.toNat) scan).maximum := by
  induction raw generalizing scan with
  | nil => exact le_refl _
  | cons byte rest inductionHypothesis =>
    exact (feed_maximum scan byte.toNat).trans (inductionHypothesis _)

/-- Zero bytes are quiet. -/
theorem foldl_zeros {zeros : Bytes} (isZero : ∀ byte ∈ zeros, byte.toNat = 0) :
    zeros.foldl (fun current byte => current.feed byte.toNat) Scan.start = Scan.start := by
  induction zeros with
  | nil => rfl
  | cons byte rest inductionHypothesis =>
    have first : Scan.start.feed byte.toNat = Scan.start := by
      rw [isZero byte List.mem_cons_self]
      rfl
    rw [List.foldl_cons, first]
    exact inductionHypothesis (fun other member => isZero other (List.mem_cons_of_mem _ member))

/-- A container that follows blanks is counted in every spread encoding. -/
theorem spread_open {decoder : Bytes → Option Str} (spread : Spread decoder) {raw : Bytes}
    {text rest : Str} {point : CodePoint} (decoded : decoder raw = some text)
    (starts : skipBlank text = point :: rest) (opens : point.val = 0x5B ∨ point.val = 0x7B) :
    1 ≤ nestingDepth raw := by
  have reaches : 1 ≤
      (raw.foldl (fun current byte => current.feed byte.toNat) Scan.start).maximum := by
    induction text generalizing raw with
    | nil => cases starts
    | cons first tail inductionHypothesis =>
      by_cases blank : isBlank first = true
      · have ascii : first.val < 0x80 := by
          simp only [isBlank, decide_eq_true_eq] at blank
          omega
        obtain ⟨before, byte, between, others, rfl, zeros, value, decodedRest⟩ :=
          spread raw first tail decoded ascii
        have quiet := quiet_of_isBlank blank
        have remaining : skipBlank tail = point :: rest := by
          simpa [skipBlank, List.dropWhile_cons, blank] using starts
        have step : Scan.start.feed byte.toNat = Scan.start := by
          rw [value]
          exact feed_quiet quiet 0 0
        rw [List.foldl_append, foldl_zeros (fun other member =>
            zeros other (List.mem_append_left _ member)), List.foldl_cons, step,
          List.foldl_append, foldl_zeros (fun other member =>
            zeros other (List.mem_append_right _ member))]
        exact inductionHypothesis decodedRest remaining
      · have same : first = point := by
          simp only [skipBlank, List.dropWhile_cons, blank, Bool.false_eq_true, ↓reduceIte,
            List.cons.injEq] at starts
          exact starts.1
        subst same
        have ascii : first.val < 0x80 := by omega
        obtain ⟨before, byte, between, others, rfl, zeros, value, _⟩ :=
          spread raw first tail decoded ascii
        have step : (Scan.start.feed byte.toNat).maximum = 1 := by
          rw [value]
          rcases opens with opens | opens <;> rw [opens] <;> rfl
        rw [List.foldl_append, foldl_zeros (fun other member =>
            zeros other (List.mem_append_left _ member)), List.foldl_cons, ← step]
        exact foldl_maximum _ _
  exact reaches

/-- A value that is not a container has depth zero; a container starts with its
opening bracket or brace. -/
theorem derives_open {reader : Reader} {text after : Str} {tree : Json}
    (derived : Derives reader text (.value tree) after) :
    depth tree = 0 ∨
      ∃ point rest, text = point :: rest ∧ (point.val = 0x5B ∨ point.val = 0x7B) := by
  cases derived with
  | string => exact .inl rfl
  | word read =>
    obtain ⟨word, member, _⟩ := readWord_part read
    exact .inl (leaf_of_words member).2
  | number _ valued => exact .inl (leaf_of_number valued).2
  | emptyArray opens => exact .inr ⟨_, _, rfl, .inl opens⟩
  | array opens => exact .inr ⟨_, _, rfl, .inl opens⟩
  | emptyObject opens => exact .inr ⟨_, _, rfl, .inr opens⟩
  | object opens => exact .inr ⟨_, _, rfl, .inr opens⟩

/-- A byte order mark is quiet. -/
theorem nestingDepth_mark {mark : Bytes} (rest : Bytes)
    (quiet : mark.foldl (fun scan byte => scan.feed byte.toNat) Scan.start = Scan.start) :
    nestingDepth (mark ++ rest) = nestingDepth rest := by
  rw [nestingDepth, List.foldl_append, quiet]
  rfl

/-- In a spread encoding the parser finds no container where the scan finds none. -/
theorem parse_flat {reader : Reader} {decoder : Bytes → Option Str} (spread : Spread decoder)
    {raw : Bytes} {text : Str} {value : Json} (decoded : decoder raw = some text)
    (parsed : parse reader text = .ok value) (flat : nestingDepth raw ≤ 0) : depth value = 0 := by
  obtain ⟨tree, after, derived, _, rfl, _⟩ := parse_derives parsed
  have shallower := depth_merged_le tree
  rcases derives_open derived with leaf | ⟨point, rest, starts, opens⟩
  · omega
  · have counted := spread_open spread decoded starts opens
    omega

/-- With a limit of zero the guard holds in every encoding. -/
theorem loads_flat {reader : Reader} {raw : Bytes} {value : Json}
    (loaded : loads reader raw = .ok value) (flat : nestingDepth raw ≤ 0) : depth value = 0 := by
  have ofUtf8 : detectEncoding raw = .utf8 ∨ detectEncoding raw = .utf8Sig → depth value = 0 := by
    intro narrow
    have counted := loads_utf8 narrow loaded
    omega
  unfold loads at loaded
  cases detected : detectEncoding raw with
  | utf8 => exact ofUtf8 (.inl detected)
  | utf8Sig => exact ofUtf8 (.inr detected)
  | utf16 =>
    obtain ⟨mark, rest, marked, rfl⟩ := detectEncoding_utf16 detected
    have quiet : nestingDepth (mark ++ rest) = nestingDepth rest := by
      rcases marked with rfl | rfl <;> exact nestingDepth_mark rest (by decide)
    have dropped : (mark ++ rest).drop 2 = rest := by
      rcases marked with rfl | rfl <;> rfl
    simp only [detected, decode, dropped] at loaded
    split at loaded
    · cases loaded
    · rename_i text decoded
      exact parse_flat (spread_utf16 _) decoded loaded (quiet ▸ flat)
  | utf32 =>
    obtain ⟨mark, rest, marked, rfl⟩ := detectEncoding_utf32 detected
    have quiet : nestingDepth (mark ++ rest) = nestingDepth rest := by
      rcases marked with rfl | rfl <;> exact nestingDepth_mark rest (by decide)
    have dropped : (mark ++ rest).drop 4 = rest := by
      rcases marked with rfl | rfl <;> rfl
    simp only [detected, decode, dropped] at loaded
    split at loaded
    · cases loaded
    · rename_i text decoded
      exact parse_flat (spread_utf32 _) decoded loaded (quiet ▸ flat)
  | utf16le | utf16be =>
    simp only [detected, decode] at loaded
    split at loaded
    · cases loaded
    · rename_i text decoded
      exact parse_flat (spread_utf16 _) decoded loaded flat
  | utf32le | utf32be =>
    simp only [detected, decode] at loaded
    split at loaded
    · cases loaded
    · rename_i text decoded
      exact parse_flat (spread_utf32 _) decoded loaded flat

/-! ## Wide encodings past the guard -/

/-- Empty brackets, this many deep. -/
def brackets : Nat → Str
  | 0 => []
  | count + 1 => 0x5B :: (brackets count ++ [0x5D])

/-- The value of one more pair of brackets than the number says. -/
def nested : Nat → Json
  | 0 => .arr []
  | count + 1 => .arr [nested count]

/-- `["∀",[[…]]]`: the byte of a quotation mark is a part of the first character
of the string. -/
def misleading (count : Nat) : Str :=
  [0x5B, 0x22, 0x2200, 0x22, 0x2C] ++ (brackets (count + 1) ++ [0x5D])

/-- The nested value is as deep as it says. -/
theorem depth_nested (count : Nat) : depth (nested count) = count + 1 := by
  induction count with
  | zero => rfl
  | succ count inductionHypothesis =>
    simp only [nested, depth, depthItems, inductionHypothesis]
    omega

/-- The reader accepts nested brackets within its limit. -/
theorem readValue_brackets (reader : Reader) (count : Nat) :
    ∀ fuel limit rest, 3 * count + 2 ≤ fuel → count + 1 ≤ limit →
      readValue reader fuel limit (brackets (count + 1) ++ rest) = .ok (nested count, rest) := by
  induction count with
  | zero =>
    intro fuel limit rest enough admitted
    obtain ⟨fuel, rfl⟩ : ∃ less, fuel = less + 2 := ⟨fuel - 2, by omega⟩
    have closed : readArray reader (fuel + 1) (limit - 1) (skipBlank (0x5D :: rest)) =
        .ok ([], rest) := readArray_empty rfl
    exact readValue_array rfl (by omega) closed
  | succ count inductionHypothesis =>
    intro fuel limit rest enough admitted
    obtain ⟨fuel, rfl⟩ : ∃ less, fuel = less + 3 := ⟨fuel - 3, by omega⟩
    have split : brackets (count + 1 + 1) ++ rest =
        0x5B :: (brackets (count + 1) ++ 0x5D :: rest) := by
      simp [brackets]
    have inner := inductionHypothesis fuel (limit - 1) (0x5D :: rest) (by omega) (by omega)
    have items : readItems reader (fuel + 1) (limit - 1) (brackets (count + 1) ++ 0x5D :: rest) =
        .ok ([nested count], rest) := readItems_last inner rfl rfl
    have listed : readArray reader (fuel + 2) (limit - 1)
        (skipBlank (brackets (count + 1) ++ 0x5D :: rest)) = .ok ([nested count], rest) :=
      (readArray_items (by decide)).trans items
    rw [split]
    exact readValue_array rfl (by omega) listed

/-- The length of brackets. -/
theorem length_brackets (count : Nat) : (brackets count).length = 2 * count := by
  induction count with
  | zero => rfl
  | succ count inductionHypothesis =>
    simp only [brackets, List.length_cons, List.length_append, List.length_nil,
      inductionHypothesis]
    omega

/-- The parser accepts the misleading text within its limit. -/
theorem parse_misleading {reader : Reader} {count : Nat} (admitted : count + 2 ≤ reader.recursionLimit) :
    parse reader (misleading count) = .ok (.arr [.str [0x2200], nested count]) := by
  have length : (misleading count).length = 2 * count + 8 := by
    simp only [misleading, List.length_append, List.length_cons, List.length_nil, length_brackets]
    omega
  obtain ⟨fuel, enough⟩ : ∃ less, 3 * (misleading count).length + 1 = less + 4 :=
    ⟨3 * (misleading count).length - 3, by omega⟩
  have inner : readValue reader fuel (reader.recursionLimit - 1) (brackets (count + 1) ++ [0x5D]) =
      .ok (nested count, [0x5D]) :=
    readValue_brackets reader count _ _ _ (by omega) (by omega)
  have last : readItems reader (fuel + 1) (reader.recursionLimit - 1)
      (brackets (count + 1) ++ [0x5D]) = .ok ([nested count], []) := readItems_last inner rfl rfl
  have chars : readString fuel (0x2200 :: 0x22 :: 0x2C :: (brackets (count + 1) ++ [0x5D])) =
      .ok ([0x2200], 0x2C :: (brackets (count + 1) ++ [0x5D])) := by
    obtain ⟨less, rfl⟩ : ∃ less, fuel = less + 2 := ⟨fuel - 2, by omega⟩
    rfl
  have first : readValue reader (fuel + 1) (reader.recursionLimit - 1)
      (0x22 :: 0x2200 :: 0x22 :: 0x2C :: (brackets (count + 1) ++ [0x5D])) =
        .ok (.str [0x2200], 0x2C :: (brackets (count + 1) ++ [0x5D])) :=
    readValue_string rfl chars
  have listed : readArray reader (fuel + 3) (reader.recursionLimit - 1)
      (skipBlank (0x22 :: 0x2200 :: 0x22 :: 0x2C :: (brackets (count + 1) ++ [0x5D]))) =
        .ok ([.str [0x2200], nested count], []) :=
    (readArray_items (by decide)).trans (readItems_next first rfl rfl last)
  have whole : readValue reader (fuel + 4) reader.recursionLimit (skipBlank (misleading count)) =
      .ok (.arr [.str [0x2200], nested count], []) := readValue_array rfl (by omega) listed
  rw [parse, enough, whole]
  rfl

/-- The scan passes over bytes that are no quotation mark and no backslash. -/
theorem foldl_inside {raw : Bytes} (plain : ∀ byte ∈ raw, byte.toNat ≠ 0x22 ∧ byte.toNat ≠ 0x5C)
    (depth maximum : Int) :
    raw.foldl (fun scan byte => scan.feed byte.toNat) (Scan.inside depth maximum) =
      Scan.inside depth maximum := by
  induction raw with
  | nil => rfl
  | cons byte rest inductionHypothesis =>
    obtain ⟨notQuote, notSlash⟩ := plain byte List.mem_cons_self
    rw [List.foldl_cons, feed_inside notQuote notSlash]
    exact inductionHypothesis (fun other member => plain other (List.mem_cons_of_mem _ member))

/-- Brackets are brackets. -/
theorem mem_brackets {count : Nat} {point : CodePoint} (member : point ∈ brackets count) :
    point = 0x5B ∨ point = 0x5D := by
  induction count with
  | zero => cases member
  | succ count inductionHypothesis =>
    simp only [brackets, List.mem_cons, List.mem_append, List.not_mem_nil, or_false] at member
    rcases member with opens | inner | closes
    · exact .inl opens
    · exact inductionHypothesis inner
    · exact .inr closes

/-- The bytes of a bracket are the bracket and zeros. -/
theorem unitBytes_bracket {codec : Codec} {point : CodePoint} (bracket : point = 0x5B ∨ point = 0x5D)
    {byte : UInt8} (member : byte ∈ unitBytes codec point.val) :
    byte.toNat ≠ 0x22 ∧ byte.toNat ≠ 0x5C := by
  have table : (unitBytes codec 0x5B ++ unitBytes codec 0x5D).all
      (fun byte => decide (byte.toNat ≠ 0x22 ∧ byte.toNat ≠ 0x5C)) = true := by
    cases codec <;> decide
  have either : byte ∈ unitBytes codec 0x5B ++ unitBytes codec 0x5D := by
    rcases bracket with rfl | rfl
    · exact List.mem_append_left _ member
    · exact List.mem_append_right _ member
  exact of_decide_eq_true (List.all_eq_true.mp table byte either)

/-- In a wide encoding the scan counts one container of the misleading text. -/
theorem nestingDepth_misleading {codec : Codec} (wide : codec ≠ .utf8 ∧ codec ≠ .utf8Sig)
    (count : Nat) : nestingDepth (encodeWide codec (misleading count)) = 1 := by
  have hidden : ∀ byte ∈ (brackets (count + 1) ++ [0x5D]).flatMap
      (fun point : CodePoint => unitBytes codec point.val), byte.toNat ≠ 0x22 ∧ byte.toNat ≠ 0x5C := by
    intro byte member
    obtain ⟨point, inText, inBytes⟩ := List.mem_flatMap.mp member
    refine unitBytes_bracket ?_ inBytes
    rcases List.mem_append.mp inText with inner | closes
    · exact mem_brackets inner
    · exact .inr (List.mem_singleton.mp closes)
  have entered : (mark codec ++ ([0x5B, 0x22, 0x2200, 0x22, 0x2C] : Str).flatMap
      (fun point : CodePoint => unitBytes codec point.val)).foldl (fun scan byte => scan.feed byte.toNat)
        Scan.start = Scan.inside 1 1 := by
    cases codec with
    | utf8 => exact absurd rfl wide.1
    | utf8Sig => exact absurd rfl wide.2
    | utf16 | utf16le | utf16be | utf32 | utf32le | utf32be => decide
  rw [nestingDepth, encodeWide, misleading, List.flatMap_append, ← List.append_assoc,
    List.foldl_append, entered, foldl_inside hidden]
  rfl

/-- The misleading text is detected as the encoding it is written in. -/
theorem detectEncoding_misleading {codec : Codec} (wide : codec ≠ .utf8 ∧ codec ≠ .utf8Sig)
    (count : Nat) : detectEncoding (encodeWide codec (misleading count)) = codec := by
  cases codec with
  | utf8 => exact absurd rfl wide.1
  | utf8Sig => exact absurd rfl wide.2
  | utf16 | utf16le | utf16be | utf32 | utf32le | utf32be => rfl

/-- In a wide encoding the parser accepts a text of any depth that the scan
counts as one. -/
theorem loads_misleading (reader : Reader) {codec : Codec}
    (wide : codec ≠ .utf8 ∧ codec ≠ .utf8Sig) {count : Nat}
    (admitted : count + 2 ≤ reader.recursionLimit) :
    loads reader (encodeWide codec (misleading count)) =
      .ok (.arr [.str [0x2200], nested count]) := by
  have plain : ∀ point ∈ misleading count, point.val < 0xD800 := by
    intro point member
    rcases List.mem_append.mp member with first | second
    · have bounded : ([0x5B, 0x22, 0x2200, 0x22, 0x2C] : Str).all
          (fun point => decide (point.val < 0xD800)) = true := by decide
      exact of_decide_eq_true (List.all_eq_true.mp bounded point first)
    · have bracket : point = 0x5B ∨ point = 0x5D := by
        rcases List.mem_append.mp second with inner | closes
        · exact mem_brackets inner
        · exact .inr (List.mem_singleton.mp closes)
      rcases bracket with rfl | rfl <;> decide
  rw [loads, detectEncoding_misleading wide, decode_encodeWide wide plain]
  exact parse_misleading admitted

/-! ## The guard -/

/-- What `parse_body` returns for JSON has passed the guard, or is nothing. -/
theorem parseBody_json {runtime : Runtime} {raw : Bytes} {contentType : Str} {maxDepth : Int}
    {value : Json} (json : isJson (mediaType runtime contentType) = true)
    (parsed : parseBody runtime raw contentType maxDepth = .ok value) :
    value = .null ∨ nestingDepth raw ≤ maxDepth ∧ loads runtime.reader raw = .ok value := by
  rcases parseBody_ok parsed with null | ⟨_, passed, loaded⟩ | ⟨other, _⟩
  · exact .inl null
  · exact .inr ⟨passed, loaded⟩
  · rw [json] at other
    cases other

/-- What passes the guard and parses is returned. -/
theorem parseBody_of_loads {runtime : Runtime} {raw : Bytes} {contentType : Str} (maxDepth : Int)
    {value : Json} (json : isJson (mediaType runtime contentType) = true) (nonempty : raw ≠ [])
    (passed : nestingDepth raw ≤ maxDepth) (loaded : loads runtime.reader raw = .ok value) :
    parseBody runtime raw contentType maxDepth = .ok value := by
  have notOver : ¬ maxDepth < nestingDepth raw := by omega
  simp only [parseBody, nonempty, ↓reduceIte, json, notOver, loaded]

/-- For which encodings and limits the guard holds: exactly for UTF-8, with a
limit of zero, and where the parser itself admits no more containers.

Proof: on UTF-8 the scan counts the containers of the syntax tree; with a limit
of zero it counts the first one in every encoding. Otherwise the misleading text
of the encoding passes with one container more than allowed. -/
theorem guard_exact (runtime : Runtime) (contentType : Str)
    (json : isJson (mediaType runtime contentType) = true) (codec : Codec) (maxDepth : Nat) :
    (∀ raw value, detectEncoding raw = codec →
      parseBody runtime raw contentType maxDepth = .ok value → depth value ≤ maxDepth) ↔
      codec = .utf8 ∨ codec = .utf8Sig ∨ maxDepth = 0 ∨
        runtime.reader.recursionLimit ≤ maxDepth := by
  constructor
  · intro guarded
    by_contra excluded
    push Not at excluded
    obtain ⟨notUtf8, notSig, positive, shallow⟩ := excluded
    obtain ⟨count, rfl⟩ : ∃ less, maxDepth = less + 1 := ⟨maxDepth - 1, by omega⟩
    have wide : codec ≠ .utf8 ∧ codec ≠ .utf8Sig := ⟨notUtf8, notSig⟩
    have nonempty : encodeWide codec (misleading count) ≠ [] := by
      cases codec <;> exact List.cons_ne_nil _ _
    have counted := nestingDepth_misleading wide count
    have returned := parseBody_of_loads ((count + 1 : Nat) : Int) json nonempty
      (by omega) (loads_misleading runtime.reader wide (by omega))
    have bounded := guarded _ _ (detectEncoding_misleading wide count) returned
    simp only [depth, depthItems, depth_nested] at bounded
    omega
  · intro condition raw value detected parsed
    rcases parseBody_json json parsed with rfl | ⟨passed, loaded⟩
    · exact Nat.zero_le _
    · rcases condition with rfl | rfl | rfl | deep
      · have counted := loads_utf8 (.inl detected) loaded
        omega
      · have counted := loads_utf8 (.inr detected) loaded
        omega
      · rw [loads_flat loaded (by simpa using passed)]
      · unfold loads at loaded
        split at loaded
        · cases loaded
        · exact (parse_depth loaded).trans deep

/-- An interpreter with the usual recursion limit that reads no floats. -/
def plainRuntime : Runtime := ⟨Casing.ascii, ⟨fun _ => .nan, 1000⟩⟩

/-- Under the default limit UTF-8 is guarded. -/
theorem guard_exact_utf8 :
    isJson (mediaType plainRuntime (lit "application/json")) = true ∧
      ∀ raw value, detectEncoding raw = .utf8 →
        parseBody plainRuntime raw (lit "application/json") (100 : Nat) = .ok value →
        depth value ≤ 100 := by
  have json : isJson (mediaType plainRuntime (lit "application/json")) = true := by decide
  exact ⟨json, (guard_exact plainRuntime (lit "application/json") json .utf8 100).mpr (.inl rfl)⟩

/-- Under the default limit a UTF-16 body of depth 101 is returned. -/
theorem guard_bypassed :
    ¬ ∀ (runtime : Runtime) (raw : Bytes) (contentType : Str) (maxDepth : Nat) (value : Json),
      isJson (mediaType runtime contentType) = true →
      parseBody runtime raw contentType maxDepth = .ok value → depth value ≤ maxDepth := by
  intro claimed
  have wide : Codec.utf16le ≠ .utf8 ∧ Codec.utf16le ≠ .utf8Sig := by decide
  have json : isJson (mediaType plainRuntime (lit "application/json")) = true := by decide
  have nonempty : encodeWide .utf16le (misleading 99) ≠ [] := List.cons_ne_nil _ _
  have counted := nestingDepth_misleading wide 99
  have loaded := loads_misleading plainRuntime.reader wide
    (show 99 + 2 ≤ plainRuntime.reader.recursionLimit by decide)
  have returned := parseBody_of_loads (100 : Nat) json nonempty (by omega) loaded
  have bounded := claimed plainRuntime _ (lit "application/json") 100 _ json returned
  simp only [depth, depthItems, depth_nested] at bounded
  omega

end WebhookInbox.Parser
