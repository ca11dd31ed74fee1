import WebhookInbox.Library.JsonWriter

/-!
# Reading what was written

`parse_dumps`: the reader gives back the value that the writer was given, if its numbers are
finite, its texts have no lone surrogates, its integers are not too long to be read and no
object has a key twice.
-/

namespace Library.JsonWriter

open Json JsonText

/-! ## Strings -/

/-- The four digits of a unit are read. -/
theorem hex4_fourDigits {unit : Nat} (small : unit < 0x10000) (rest : Str) :
    hex4 (fourDigits unit ++ rest) = some (unit, rest) := by
  have value : ((unit / 4096 % 16 * 16 + unit / 256 % 16) * 16 + unit / 16 % 16) * 16 + unit % 16 =
      unit := by omega
  simp only [fourDigits, List.cons_append, List.nil_append, hex4, hexValue_hexDigit, Option.bind_eq_bind,
    Option.bind_some, value, Option.pure_def]

/-- A unit that starts no pair is read by itself. -/
theorem unescape_escapeUnit {unit : Nat} (small : unit < 0x10000)
    (single : ¬ (0xD800 ≤ unit ∧ unit ≤ 0xDBFF)) (rest : Str) :
    unescape ((escapeUnit unit).drop 1 ++ rest) = some (Fin.ofNat _ unit, rest) := by
  have digits := hex4_fourDigits small rest
  rw [escapeUnit, List.drop_succ_cons, List.drop_zero, List.cons_append, unescape,
    if_pos (by decide), digits]
  simp only [Option.bind_eq_bind, Option.bind_some, Option.pure_def, single, ↓reduceIte]
  split <;> rfl

/-- Two units of a pair are read together. -/
theorem unescape_pair {high low : Nat} (isHigh : 0xD800 ≤ high ∧ high ≤ 0xDBFF)
    (isLow : 0xDC00 ≤ low ∧ low ≤ 0xDFFF) (rest : Str) :
    unescape ((escapeUnit high ++ escapeUnit low).drop 1 ++ rest) =
      some (Fin.ofNat _ (0x10000 + (high - 0xD800) * 1024 + (low - 0xDC00)), rest) := by
  have second : lowEscape (escapeUnit low ++ rest) = some (low, rest) := by
    have digits := hex4_fourDigits (by omega : low < 0x10000) rest
    rw [escapeUnit, List.cons_append, List.cons_append, lowEscape, if_pos (by decide), digits]
    simp [isLow]
  have first := hex4_fourDigits (by omega : high < 0x10000) (escapeUnit low ++ rest)
  rw [escapeUnit, List.cons_append, List.drop_succ_cons, List.drop_zero, List.append_assoc,
    List.cons_append, unescape, if_pos (by decide), first]
  simp only [Option.bind_eq_bind, Option.bind_some, Option.pure_def, second, isHigh, and_self,
    ↓reduceIte]

/-- A code point is the one of its number. -/
theorem codePoint_ofNat (point : CodePoint) : Fin.ofNat 0x110000 point.val = point :=
  Fin.ext (Nat.mod_eq_of_lt point.isLt)

/-- The escape of a character is read as it. -/
theorem readString_escapeChar {point : CodePoint} (scalar : point.isSurrogate = false)
    {fuel : Nat} {after chars final : Str} (tail : readString fuel after = .ok (chars, final)) :
    readString (fuel + 1) (escapeChar point ++ after) = .ok (point :: chars, final) := by
  have escape : ∀ {letters : Str}, unescape (letters.drop 1 ++ after) = some (point, after) →
      letters.head? = some backslash →
      readString (fuel + 1) (letters ++ after) = .ok (point :: chars, final) := by
    intro letters unescaped starts
    cases letters with
    | nil => cases starts
    | cons slash rest =>
      obtain rfl : slash = backslash := Option.some.inj starts
      rw [List.drop_succ_cons, List.drop_zero] at unescaped
      have isSlash : backslash.val = 0x5C := by decide
      simp only [List.cons_append, readString, isSlash, ↓reduceIte, unescaped, tail]
      rfl
  unfold escapeChar
  split
  · rename_i letter short
    refine escape ?_ rfl
    have known := escapeDct_known short
    have notUnit : letter.val ≠ 0x75 := by
      intro same
      simp [simpleEscape, same] at known
    rw [List.drop_succ_cons, List.drop_zero, List.singleton_append, unescape, if_neg notUnit, known]
    rfl
  · rename_i long
    have notQuote : point.val ≠ 0x22 := by
      intro same
      obtain rfl : point = 0x22 := Fin.ext same
      revert long
      decide
    have notSlash : point.val ≠ 0x5C := by
      intro same
      obtain rfl : point = 0x5C := Fin.ext same
      revert long
      decide
    split
    · rename_i printable
      have notControl : ¬ point.val < 0x20 := by omega
      simp only [List.singleton_append, readString, notQuote, notSlash, notControl, ↓reduceIte, tail]
      rfl
    · simp only [CodePoint.isSurrogate, decide_eq_false_iff_not] at scalar
      split
      · rename_i small
        refine escape ?_ rfl
        rw [unescape_escapeUnit small (by omega), codePoint_ofNat]
      · rename_i large
        have bound := point.isLt
        have together : 0x10000 + (point.val - 0x10000) / 1024 * 1024 +
            (point.val - 0x10000) % 1024 = point.val := by
          omega
        refine escape ?_ rfl
        rw [unescape_pair (by omega) (by omega), Nat.add_sub_cancel_left, Nat.add_sub_cancel_left,
          together, codePoint_ofNat]

/-- Escaped text is read as it was. -/
theorem readString_escapeText {text : Str} (scalar : Text.Scalar text) {fuel : Nat} {rest : Str}
    (enough : (escapeText text).length < fuel) :
    readString fuel (escapeText text ++ quote :: rest) = .ok (text, rest) := by
  induction text generalizing fuel with
  | nil =>
    cases fuel with
    | zero => exact absurd enough (Nat.not_lt_zero _)
    | succ fuel => rfl
  | cons point text inductionHypothesis =>
    have positive : 1 ≤ (escapeChar point).length := by
      unfold escapeChar
      split
      · exact Nat.le_add_left 1 1
      · split
        · exact Nat.le_refl 1
        · split <;> simp [escapeUnit]
    have whole : escapeText (point :: text) = escapeChar point ++ escapeText text := rfl
    rw [whole, List.length_append] at enough
    cases fuel with
    | zero => omega
    | succ fuel =>
      have tail := inductionHypothesis (fun other member => scalar other (List.mem_cons_of_mem _ member))
        (by omega : (escapeText text).length < fuel)
      rw [whole, List.append_assoc]
      exact readString_escapeChar (scalar point List.mem_cons_self) tail

/-! ## Numbers -/

/-- The text does not go on with such a character. -/
def Stops (goesOn : CodePoint → Bool) (text : Str) : Prop :=
  ∀ point ∈ text.head?, goesOn point = false

theorem stops_cons {goesOn : CodePoint → Bool} {point : CodePoint} (rest : Str)
    (other : goesOn point = false) : Stops goesOn (point :: rest) := by
  intro first starts
  rwa [← Option.some.inj starts]

/-- A text that does not go on with a number does not go on with a digit. -/
theorem Stops.digit {text : Str} (stops : Stops isNumeric text) : Stops isDigit text := by
  intro point starts
  have other := stops point starts
  simp only [isNumeric, Bool.or_eq_false_iff] at other
  exact other.1

/-- A run of digits ends where the text does not go on with one. -/
theorem digits_run {digits after : Str} (all : digits.all isDigit = true)
    (stops : Stops isDigit after) :
    (digits ++ after).takeWhile isDigit = digits ∧ (digits ++ after).dropWhile isDigit = after := by
  have own : ∀ point ∈ digits, isDigit point = true := List.all_eq_true.mp all
  rw [List.takeWhile_append_of_pos own, List.dropWhile_append_of_pos own]
  cases after with
  | nil => simp
  | cons point rest => simp [stops point rfl]

/-- The fraction of a number is read. -/
theorem readFraction_written {fraction after : Str}
    (written : fraction = [] ∨ ∃ digits, Digits digits ∧ fraction = 0x2E :: digits)
    (stops : Stops isDigit after) (noPoint : after.head? ≠ some 0x2E) :
    readFraction (fraction ++ after) = (fraction, after) := by
  rcases written with rfl | ⟨digits, isRun, rfl⟩
  · unfold readFraction
    rw [List.nil_append]
    split
    · rename_i point digit rest
      have other : ¬ (point.val = 0x2E ∧ isDigit digit = true) := by
        rintro ⟨same, _⟩
        exact noPoint (congrArg some (Fin.ext same))
      rw [if_neg other]
    · rfl
  · cases digits with
    | nil => exact absurd rfl isRun.1
    | cons digit rest =>
      have run := digits_run isRun.2 stops
      have first : isDigit digit = true := (Bool.and_eq_true_iff.mp (List.all_cons ▸ isRun.2)).1
      have starts : (0x2E : CodePoint).val = 0x2E ∧ isDigit digit = true := ⟨rfl, first⟩
      rw [List.cons_append] at run
      rw [List.cons_append, List.cons_append, readFraction, if_pos starts, run.1, run.2]

/-- The sign of an exponent is read. -/
theorem readSign_written {sign digits : Str} (isSign : sign = [] ∨ sign = [0x2B] ∨ sign = [0x2D])
    (run : Digits digits) (after : Str) :
    readSign (sign ++ digits ++ after) = (sign, digits ++ after) := by
  rcases isSign with rfl | rfl | rfl
  · cases digits with
    | nil => exact absurd rfl run.1
    | cons digit rest =>
      have first : isDigit digit = true := (Bool.and_eq_true_iff.mp (List.all_cons ▸ run.2)).1
      have range := of_decide_eq_true first
      have other : ¬ (digit.val = 0x2B ∨ digit.val = 0x2D) := by omega
      rw [List.nil_append, List.cons_append, readSign, if_neg other]
  · rfl
  · rfl

/-- The exponent of a number is read. -/
theorem readExponent_written {exponent after : Str}
    (written : exponent = [] ∨ ∃ letter sign digits, (letter = 0x65 ∨ letter = 0x45) ∧
      (sign = [] ∨ sign = [0x2B] ∨ sign = [0x2D]) ∧ Digits digits ∧
      exponent = letter :: sign ++ digits)
    (stops : Stops isNumeric after) : readExponent (exponent ++ after) = (exponent, after) := by
  rcases written with rfl | ⟨letter, sign, digits, isLetter, isSign, run, rfl⟩
  · rw [List.nil_append]
    cases after with
    | nil => rfl
    | cons point rest =>
      have other := stops point rfl
      simp only [isNumeric, Bool.or_eq_false_iff, decide_eq_false_iff_not, not_or] at other
      simp only [readExponent, other, or_self, false_and, ↓reduceIte]
  · have split := digits_run run.2 stops.digit
    have starts : (letter.val = 0x65 ∨ letter.val = 0x45) ∧ digits ≠ [] := by
      refine ⟨?_, run.1⟩
      rcases isLetter with rfl | rfl
      · exact .inl rfl
      · exact .inr rfl
    rw [List.cons_append, List.cons_append, readExponent, readSign_written isSign run]
    simp only [split, starts, ne_eq, not_false_eq_true, and_self, ↓reduceIte, List.cons_append]

/-- What follows the whole part of a number does not go on with a digit. -/
theorem stops_fraction {number : Number} (written : Written number) {after : Str}
    (stops : Stops isNumeric after) :
    Stops isDigit (number.fraction ++ (number.exponent ++ after)) ∧
      Stops isDigit (number.exponent ++ after) ∧ (number.exponent ++ after).head? ≠ some 0x2E := by
  have exponent : Stops isDigit (number.exponent ++ after) ∧
      (number.exponent ++ after).head? ≠ some 0x2E := by
    rcases written.exponent with absent | ⟨letter, sign, digits, isLetter, _, _, same⟩
    · rw [absent, List.nil_append]
      refine ⟨stops.digit, fun point => ?_⟩
      have other := stops 0x2E point
      revert other
      decide
    · rw [same, List.cons_append, List.cons_append]
      refine ⟨stops_cons _ ?_, fun point => ?_⟩
      · rcases isLetter with rfl | rfl <;> decide
      · rcases isLetter with rfl | rfl <;> cases point
  refine ⟨?_, exponent⟩
  rcases written.fraction with absent | ⟨digits, _, same⟩
  · rw [absent]
    exact exponent.1
  · rw [same]
    exact stops_cons _ (by decide)

/-- The first character of the whole part is a digit. -/
theorem written_first {number : Number} (written : Written number) :
    ∃ first rest, number.whole = first :: rest ∧ isDigit first = true := by
  rcases written.whole with zero | ⟨first, rest, same, digit, _⟩
  · exact ⟨_, _, zero, by decide⟩
  · exact ⟨first, rest, same, digit⟩

/-- A number starts with a digit, after its sign. -/
theorem text_starts {number : Number} (written : Written number) :
    ∃ first rest, number.text = (if number.negative then lit "-" else []) ++ first :: rest ∧
      isDigit first = true := by
  obtain ⟨first, rest, starts, digit⟩ := written_first written
  refine ⟨first, rest ++ (number.fraction ++ number.exponent), ?_, digit⟩
  rw [Number.text, starts]
  simp only [List.append_assoc, List.cons_append]

/-- No word starts with a digit, or with a sign and a digit. -/
theorem readWord_number {number : Number} (written : Written number) (after : Str) :
    readWord (number.text ++ after) = none := by
  have apart : ∀ word ∈ words, ∃ point next others, word.1 = point :: next :: others ∧
      isDigit point = false ∧ (point = 0x2D → isDigit next = false) := by
    simp only [words, List.forall_mem_cons, List.not_mem_nil, false_imp_iff, implies_true, and_true]
    exact ⟨⟨_, _, _, rfl, rfl, by decide⟩, ⟨_, _, _, rfl, rfl, by decide⟩,
      ⟨_, _, _, rfl, rfl, by decide⟩, ⟨_, _, _, rfl, rfl, by decide⟩,
      ⟨_, _, _, rfl, rfl, by decide⟩, ⟨_, _, _, rfl, rfl, by decide⟩⟩
  obtain ⟨first, rest, text, digit⟩ := text_starts written
  cases read : readWord (number.text ++ after) with
  | none => rfl
  | some result =>
    obtain ⟨word, member, whole⟩ := readWord_part read
    obtain ⟨point, next, others, same, notDigit, afterMinus⟩ := apart _ member
    obtain rfl : word = point :: next :: others := same
    rw [text] at whole
    cases signed : number.negative with
    | false =>
      rw [signed] at whole
      obtain rfl : first = point := (List.cons.inj whole).1
      rw [digit] at notDigit
      cases notDigit
    | true =>
      rw [signed] at whole
      obtain ⟨minus, tail⟩ := List.cons.inj whole
      obtain rfl : first = next := (List.cons.inj tail).1
      rw [afterMinus minus.symm] at digit
      cases digit

/-- A number is read as its parts. -/
theorem readNumber_text {number : Number} (written : Written number) {after : Str}
    (stops : Stops isNumeric after) : readNumber (number.text ++ after) = some (number, after) := by
  obtain ⟨noDigit, noDigit', noPoint⟩ := stops_fraction written stops
  have fraction := readFraction_written written.fraction noDigit' noPoint
  have exponent := readExponent_written written.exponent stops
  obtain ⟨first, rest, starts, digit⟩ := written_first written
  generalize unread : number.fraction ++ (number.exponent ++ after) = tail at noDigit fraction
  have whole : (if first.val = 0x30 then ([first], rest ++ tail)
      else (first :: (rest ++ tail).takeWhile isDigit, (rest ++ tail).dropWhile isDigit)) =
      (number.whole, tail) := by
    rcases written.whole with zero | ⟨first', rest', same, _, notZero, all⟩
    · obtain ⟨rfl, rfl⟩ := List.cons.inj (starts.symm.trans zero)
      rw [if_pos (by rfl), starts, List.nil_append]
    · obtain ⟨rfl, rfl⟩ := List.cons.inj (starts.symm.trans same)
      have other : ¬ first.val = 0x30 := fun zero => notZero (Fin.ext zero)
      have run := digits_run all noDigit
      rw [if_neg other, run.1, run.2, same]
  have unsigned : number.text ++ after =
      (if number.negative then lit "-" else []) ++ (first :: (rest ++ tail)) := by
    rw [← unread, Number.text, starts]
    simp only [List.append_assoc, List.cons_append]
  have signed : Text.startsWith (number.text ++ after) (lit "-") = number.negative := by
    rw [unsigned]
    cases number.negative with
    | true => rfl
    | false =>
      have range := of_decide_eq_true digit
      have other : ¬ (CodePoint.ofChar '-' = first) := by
        rintro rfl
        revert range
        decide
      have absent : ¬ lit "-" <+: first :: (rest ++ tail) := by
        rintro ⟨after, whole⟩
        exact other (List.cons.inj whole).1
      simpa [← Text.startsWith_iff] using absent
  have dropped : (if number.negative then (number.text ++ after).drop 1
      else number.text ++ after) = first :: (rest ++ tail) := by
    rw [unsigned]
    cases number.negative <;> rfl
  simp only [readNumber, signed, dropped, digit, whole, fraction, exponent, ↓reduceIte]

/-! ## Values -/

/-- A text is read as a value, whatever follows that does not go on with a number. It starts
neither with white space nor with the end of an array. -/
structure Reads (reader : Reader) (limit : Nat) (text : Str) (value : Json) : Prop where
  starts : ∃ first rest, text = first :: rest ∧ isBlank first = false ∧ first.val ≠ 0x5D
  read : ∀ {fuel rest}, 3 * text.length + 1 ≤ fuel → Stops isNumeric rest →
    readValue reader fuel limit (text ++ rest) = .ok (value, rest)

section
variable {reader : Reader} {limit : Nat}

/-- A number is read as its value. -/
theorem reads_number {number : Number} (written : Written number) {value : Json}
    (valued : numberValue reader number = .ok value) : Reads reader limit number.text value := by
  obtain ⟨first, rest, text, digit⟩ := text_starts written
  have range := of_decide_eq_true digit
  obtain ⟨head, others, starts, numeric⟩ : ∃ head others, number.text = head :: others ∧
      (head.val = 0x2D ∨ 0x30 ≤ head.val ∧ head.val ≤ 0x39) := by
    rw [text]
    cases number.negative with
    | false => exact ⟨_, _, rfl, .inr range⟩
    | true => exact ⟨_, _, rfl, .inl rfl⟩
  constructor
  · refine ⟨head, others, starts, ?_, by omega⟩
    simp only [isBlank, decide_eq_false_iff_not]
    omega
  · intro fuel rest enough stops
    have word := readWord_number written rest
    have parts := readNumber_text written stops
    rw [starts, List.cons_append] at word parts ⊢
    cases fuel with
    | zero => omega
    | succ fuel => exact readValue_number (by omega) word parts valued

/-- A word is read as its value. -/
theorem reads_word {word : Str} {value : Json}
    (known : (word, value) ∈ [(lit "null", .null), (lit "true", .bool true),
      (lit "false", .bool false)]) :
    Reads reader limit word value := by
  obtain ⟨head, tail, starts, letter, read⟩ : ∃ head tail, word = head :: tail ∧
      (head.val = 0x6E ∨ head.val = 0x74 ∨ head.val = 0x66) ∧
      ∀ rest, readWord (head :: (tail ++ rest)) = some (value, rest) := by
    simp only [List.mem_cons, Prod.mk.injEq, List.not_mem_nil, or_false] at known
    rcases known with ⟨rfl, rfl⟩ | ⟨rfl, rfl⟩ | ⟨rfl, rfl⟩
    · exact ⟨_, _, rfl, .inl rfl, fun rest => rfl⟩
    · exact ⟨_, _, rfl, .inr (.inl rfl), fun rest => rfl⟩
    · exact ⟨_, _, rfl, .inr (.inr rfl), fun rest => rfl⟩
  constructor
  · refine ⟨head, tail, starts, ?_, by omega⟩
    simp only [isBlank, decide_eq_false_iff_not]
    omega
  · intro fuel rest enough _
    cases fuel with
    | zero => omega
    | succ fuel =>
      rw [starts, List.cons_append]
      exact readValue_word (by omega) (read rest)

/-- An escaped text is read as it was. -/
theorem reads_string {text : Str} (scalar : Text.Scalar text) :
    Reads reader limit (encodeText text) (.str text) := by
  refine ⟨⟨_, _, rfl, by decide, by decide⟩, ?_⟩
  intro fuel rest enough _
  rw [encodeText, List.length_append, List.length_cons] at enough
  cases fuel with
  | zero => omega
  | succ fuel =>
    rw [encodeText, List.append_assoc, List.cons_append, List.singleton_append]
    exact readValue_string rfl (readString_escapeText scalar (by omega))

/-- White space before a character that is none is skipped. -/
theorem skipBlank_blank {blank : Str} (white : Blank blank) {point : CodePoint}
    (solid : isBlank point = false) (rest : Str) :
    skipBlank (blank ++ point :: rest) = point :: rest := by
  rw [skipBlank, List.dropWhile_append_of_pos white, List.dropWhile_cons_of_neg (by simp [solid])]

/-- White space does not go on with a number. -/
theorem stops_blank {blank : Str} (white : Blank blank) {point : CodePoint}
    (other : isNumeric point = false) (rest : Str) : Stops isNumeric (blank ++ point :: rest) := by
  cases blank with
  | nil => exact stops_cons rest other
  | cons first blank =>
    have isWhite := of_decide_eq_true (white first List.mem_cons_self)
    apply stops_cons
    simp only [isNumeric, isDigit, Bool.or_eq_false_iff, decide_eq_false_iff_not]
    omega

/-- The start of a text is the start of it and more. -/
theorem Reads.skipped {text : Str} {value : Json} (reads : Reads reader limit text value)
    {blank : Str} (white : Blank blank) (rest : Str) :
    skipBlank (blank ++ (text ++ rest)) = text ++ rest := by
  obtain ⟨first, others, starts, solid, _⟩ := reads.starts
  rw [starts, List.cons_append]
  exact skipBlank_blank white solid _

/-- Joined texts start with the first of them. -/
theorem intercalate_starts (separator text : Str) (texts : List Str) :
    ∃ more, List.intercalate separator (text :: texts) = text ++ more := by
  cases texts with
  | nil => exact ⟨[], by rw [List.intercalate_singleton, List.append_nil]⟩
  | cons next rest => exact ⟨_, by rw [List.intercalate_cons_cons, List.append_assoc]⟩

section
variable {opening blank closing : Str} (left : Blank opening) (between : Blank blank)
  (right : Blank closing)

include between right

/-- Joined texts are read as the items of an array. -/
theorem readItems_joined {texts : List Str} {values : List Json}
    (each : List.Forall₂ (Reads reader limit) texts values) (filled : texts ≠ []) {fuel : Nat}
    {rest : Str}
    (enough : 3 * (List.intercalate (0x2C :: blank) texts ++ closing).length + 2 ≤ fuel) :
    readItems reader fuel limit
      (List.intercalate (0x2C :: blank) texts ++ (closing ++ 0x5D :: rest)) =
        .ok (values, rest) := by
  induction each generalizing fuel with
  | nil => exact absurd rfl filled
  | @cons text value texts values first others inductionHypothesis =>
    cases fuel with
    | zero => omega
    | succ fuel =>
      cases others with
      | nil =>
        rw [List.intercalate_singleton, List.length_append] at enough
        rw [List.intercalate_singleton]
        exact readItems_last (first.read (by omega) (stops_blank right (by decide) rest))
          (skipBlank_blank right (by decide) rest) rfl
      | @cons next nextValue texts values second others =>
        rw [List.intercalate_cons_cons] at enough
        simp only [List.length_append, List.length_cons] at enough
        have fewer : 3 * (List.intercalate (0x2C :: blank) (next :: texts) ++ closing).length + 2 ≤
            fuel := by
          rw [List.length_append]
          omega
        obtain ⟨more, starts⟩ := intercalate_starts (0x2C :: blank) next texts
        rw [List.intercalate_cons_cons, List.append_assoc, List.append_assoc, List.cons_append]
        refine readItems_next (first.read (by omega) (stops_cons _ (by decide)))
          (skipBlank_blank (List.forall_mem_nil _) (by decide) _) rfl ?_
        rw [starts, List.append_assoc, second.skipped between, ← List.append_assoc, ← starts]
        exact inductionHypothesis (List.cons_ne_nil _ _) fewer

include left

/-- An array is read as its items. -/
theorem reads_array {texts : List Str} {values : List Json}
    (each : List.Forall₂ (Reads reader limit) texts values) :
    Reads reader (limit + 1)
      ([0x5B] ++ (opening ++ List.intercalate (0x2C :: blank) texts ++ closing) ++ [0x5D])
      (.arr values) := by
  refine ⟨⟨_, _, rfl, by decide, by decide⟩, ?_⟩
  intro fuel rest enough _
  simp only [List.length_append, List.length_singleton] at enough
  obtain ⟨fuel, rfl⟩ : ∃ less, fuel = less + 2 := ⟨fuel - 2, by omega⟩
  have inner : readArray reader (fuel + 1) limit (skipBlank (opening ++
      (List.intercalate (0x2C :: blank) texts ++ (closing ++ 0x5D :: rest)))) =
        .ok (values, rest) := by
    cases each with
    | nil =>
      have white : Blank (opening ++ closing) := List.forall_mem_append.mpr ⟨left, right⟩
      rw [List.intercalate_nil, List.nil_append, ← List.append_assoc,
        skipBlank_blank white (by decide)]
      exact readArray_empty rfl
    | @cons text value texts values first others =>
      have items : readItems reader fuel limit (List.intercalate (0x2C :: blank) (text :: texts) ++
          (closing ++ 0x5D :: rest)) = .ok (value :: values, rest) :=
        readItems_joined between right (.cons first others) (List.cons_ne_nil _ _)
          (by rw [List.length_append]; omega)
      obtain ⟨more, starts⟩ := intercalate_starts (0x2C :: blank) text texts
      obtain ⟨point, tail, begins, _, notClose⟩ := first.starts
      rw [starts, List.append_assoc] at items ⊢
      rw [first.skipped left]
      rw [begins, List.cons_append] at items ⊢
      rw [readArray_items notClose]
      exact items
  simp only [List.append_assoc, List.cons_append, List.nil_append]
  exact readValue_array rfl (Nat.succ_ne_zero limit) inner

end

/-- The text of a member, by the texts of values. -/
def memberText (render : Json → Str) (member : Str × Json) : Str :=
  encodeText member.1 ++ lit ": " ++ render member.2

/-- Joined texts are read as the members of an object. -/
theorem readMembers_joined {render : Json → Str} {members : List (Str × Json)}
    (each : ∀ member ∈ members, Text.Scalar member.1 ∧
      Reads reader limit (render member.2) member.2) (filled : members ≠ []) {fuel : Nat}
    {rest : Str}
    (enough : 3 * (List.intercalate [0x2C, 0x20] (members.map (memberText render))).length + 2 ≤
      fuel) :
    readMembers reader fuel limit
      (List.intercalate [0x2C, 0x20] (members.map (memberText render)) ++ 0x7D :: rest) =
        .ok (members, rest) := by
  have space : Blank [0x20] := by decide
  have spelled : ∀ (member : Str × Json) (after : Str), memberText render member ++ after =
      quote :: (escapeText member.1 ++ quote :: (0x3A :: ([0x20] ++ (render member.2 ++ after)))) := by
    intro member after
    have colon : lit ": " = [0x3A, 0x20] := by decide +kernel
    simp [memberText, encodeText, colon]
  have sized : ∀ member : Str × Json, (memberText render member).length =
      (escapeText member.1).length + (render member.2).length + 4 := by
    intro member
    have whole := congrArg List.length (spelled member [])
    simp only [List.append_nil, List.length_cons, List.length_append, List.length_nil] at whole
    omega
  have colon : ∀ after, skipBlank ((0x3A : CodePoint) :: after) = 0x3A :: after :=
    skipBlank_blank (List.forall_mem_nil _) (by decide)
  have close : ∀ after, skipBlank ((0x7D : CodePoint) :: after) = 0x7D :: after :=
    skipBlank_blank (List.forall_mem_nil _) (by decide)
  have comma : ∀ after, skipBlank ((0x2C : CodePoint) :: after) = 0x2C :: after :=
    skipBlank_blank (List.forall_mem_nil _) (by decide)
  induction members generalizing fuel with
  | nil => exact absurd rfl filled
  | cons member members inductionHypothesis =>
    obtain ⟨⟨scalar, first⟩, others⟩ := List.forall_mem_cons.mp each
    have size := sized member
    cases fuel with
    | zero => omega
    | succ fuel =>
      have named : ∀ after, (escapeText member.1).length < fuel → readString fuel
          (escapeText member.1 ++ quote :: after) = .ok (member.1, after) :=
        fun after => readString_escapeText scalar
      have valued : ∀ after, 3 * (render member.2).length + 1 ≤ fuel → Stops isNumeric after →
          readValue reader fuel limit (skipBlank ([0x20] ++ (render member.2 ++ after))) =
            .ok (member.2, after) := by
        intro after enough stops
        rw [first.skipped space]
        exact first.read enough stops
      cases members with
      | nil =>
        rw [List.map_singleton, List.intercalate_singleton] at enough ⊢
        rw [spelled]
        exact readMembers_last rfl (named _ (by omega)) (colon _) rfl
          (valued _ (by omega) (stops_cons rest (by decide))) (close rest) rfl
      | cons next members =>
        rw [List.map_cons, List.map_cons, List.intercalate_cons_cons] at enough ⊢
        simp only [List.length_append, List.length_cons, List.length_nil] at enough
        rw [List.append_assoc, List.append_assoc, spelled]
        refine readMembers_next rfl (named _ (by omega)) (colon _) rfl
          (valued _ (by omega) (stops_cons _ (by decide))) (comma _) rfl ?_
        have later := inductionHypothesis others (List.cons_ne_nil _ _)
          (by rw [List.map_cons]; omega : 3 * (List.intercalate [0x2C, 0x20]
            ((next :: members).map (memberText render))).length + 2 ≤ fuel)
        obtain ⟨more, starts⟩ := intercalate_starts [0x2C, 0x20] (memberText render next)
          (members.map (memberText render))
        rw [List.map_cons, starts, List.append_assoc, spelled] at later
        rw [starts, List.append_assoc, spelled]
        exact (congrArg _ (skipBlank_blank space (by decide) _)).trans later

/-- An object is read as its members, if no key is there twice. -/
theorem reads_object {render : Json → Str} {members : List (Str × Json)}
    (each : ∀ member ∈ members, Text.Scalar member.1 ∧
      Reads reader limit (render member.2) member.2)
    (distinct : (members.map Prod.fst).Nodup) :
    Reads reader (limit + 1)
      ([0x7B] ++ List.intercalate [0x2C, 0x20] (members.map (memberText render)) ++ [0x7D])
      (.obj members) := by
  refine ⟨⟨_, _, rfl, by decide, by decide⟩, ?_⟩
  intro fuel rest enough _
  simp only [List.length_append, List.length_singleton] at enough
  obtain ⟨fuel, rfl⟩ : ∃ less, fuel = less + 2 := ⟨fuel - 2, by omega⟩
  have inner : readObject reader (fuel + 1) limit (skipBlank
      (List.intercalate [0x2C, 0x20] (members.map (memberText render)) ++ 0x7D :: rest)) =
        .ok (members, rest) := by
    cases members with
    | nil =>
      rw [List.map_nil, List.intercalate_nil,
        skipBlank_blank (List.forall_mem_nil _) (by decide)]
      exact readObject_empty rfl
    | cons member members =>
      have listed : readMembers reader fuel limit (List.intercalate [0x2C, 0x20]
          ((member :: members).map (memberText render)) ++ 0x7D :: rest) = .ok (_, rest) :=
        readMembers_joined each (List.cons_ne_nil _ _) (by omega)
      obtain ⟨more, starts⟩ := intercalate_starts [0x2C, 0x20] (memberText render member)
        (members.map (memberText render))
      have quoted : ∃ tail, List.intercalate [0x2C, 0x20]
          ((member :: members).map (memberText render)) ++ 0x7D :: rest = quote :: tail := by
        rw [List.map_cons, starts]
        exact ⟨_, rfl⟩
      obtain ⟨tail, begins⟩ := quoted
      rw [begins] at listed ⊢
      have solid := skipBlank_blank (List.forall_mem_nil _) (by decide : isBlank quote = false) tail
      rw [List.nil_append] at solid
      rw [solid, readObject_members (by decide)]
      exact listed
  have whole := readValue_object (by decide : (0x7B : CodePoint).val = 0x7B)
    (Nat.succ_ne_zero limit) inner
  rw [Dict.ofPairs_of_nodup distinct] at whole
  simp only [List.append_assoc, List.cons_append, List.nil_append]
  exact whole

end

/-! ## The round trip -/

/-- The texts have no lone surrogates, the integers are not too long to be read, and no object
has a key twice. -/
def Faithful (value : Json) : Prop :=
  everywhere
    (fun leaf => match leaf with
      | .str text => decide (Text.Scalar text)
      | .int value => decide ((Text.ofInt value.natAbs).length ≤ maxStrDigits)
      | _ => true)
    (fun keys => decide keys.Nodup && keys.all (fun key => decide (Text.Scalar key))) value = true

instance faithfulDecidable (value : Json) : Decidable (Faithful value) :=
  inferInstanceAs (Decidable (_ = true))

theorem faithful_int (value : Int) :
    Faithful (.int value) ↔ (Text.ofInt value.natAbs).length ≤ maxStrDigits :=
  decide_eq_true_iff

theorem faithful_str (value : Str) : Faithful (.str value) ↔ Text.Scalar value :=
  decide_eq_true_iff

theorem faithful_arr (items : List Json) :
    Faithful (.arr items) ↔ ∀ item ∈ items, Faithful item :=
  everywhere_arr items

theorem faithful_obj (members : List (Str × Json)) :
    Faithful (.obj members) ↔ (members.map Prod.fst).Nodup ∧
      ∀ member ∈ members, Text.Scalar member.1 ∧ Faithful member.2 := by
  rw [Faithful, everywhere_obj]
  simp only [Bool.and_eq_true, decide_eq_true_eq, List.all_eq_true, List.forall_mem_map, and_assoc]
  refine and_congr_right (fun _ => ?_)
  exact ⟨fun both member inside => ⟨both.1 member inside, both.2 member inside⟩,
    fun each => ⟨fun member inside => (each member inside).1, fun member inside => (each member inside).2⟩⟩

/-- `float` reads what `float.__repr__` writes of a finite number. -/
def Rereads (reader : Reader) (floatText : PyFloat → Str) : Prop :=
  ∀ value : PyFloat, value.isFinite = true → reader.floatOfText (floatText value) = value

/-- The digits of a number have its value. -/
theorem decimal_ofInt (number : Nat) : decimal (Text.ofInt number) = number := by
  have same : ∀ (digits : Str) (start : Nat),
      ((digits.foldl (fun value digit => value * 10 + (digit.val - 0x30)) start : Nat) : Int) =
        digits.foldl (fun (value : Int) point => value * 10 + (point.val - 0x30 : Nat)) start := by
    intro digits
    induction digits with
    | nil => exact fun start => rfl
    | cons digit rest inductionHypothesis =>
      intro start
      rw [List.foldl_cons, List.foldl_cons, inductionHypothesis]
      push_cast
      rfl
  have value := Text.digitsValue_ofInt number
  rw [Text.digitsValue] at value
  rw [decimal]
  exact_mod_cast (same (Text.ofInt number) 0).trans value

/-- An integer is the value of its text, if the text is not too long. -/
theorem numberValue_numberOf (reader : Reader) {value : Int}
    (short : (Text.ofInt value.natAbs).length ≤ maxStrDigits) :
    numberValue reader (numberOf value) = .ok (.int value) := by
  have fits : ¬ maxStrDigits < (Text.ofInt value.natAbs).length := Nat.not_lt.mpr short
  simp only [numberValue, numberOf, and_self, ↓reduceIte, fits, decimal_ofInt, decide_eq_true_eq]
  congr 2
  split <;> omega

/-- An item is no deeper than all of them. -/
theorem depth_le_depthItems {items : List Json} {item : Json} (member : item ∈ items) :
    depth item ≤ depthItems items := by
  induction items with
  | nil => cases member
  | cons first rest inductionHypothesis =>
    simp only [depthItems]
    rcases List.mem_cons.mp member with rfl | later
    · exact Nat.le_max_left _ _
    · exact (inductionHypothesis later).trans (Nat.le_max_right _ _)

section
variable {reader : Reader} {floatText : PyFloat → Str} (repr : Repr floatText)
  (rereads : Rereads reader floatText)

include repr rereads

/-- What is written of a value is read as it, if the nesting is admitted.

Proof: by induction on the value. -/
theorem reads_dumps {value : Json} (finite : Finite value) (faithful : Faithful value)
    {limit : Nat} (shallow : depth value ≤ limit) :
    Reads reader limit (dumps floatText value) value := by
  have comma : lit ", " = 0x2C :: [0x20] := by decide +kernel
  have space : Blank [0x20] := by decide
  induction value using Json.inductionOn generalizing limit with
  | null => exact reads_word (by simp [dumps])
  | bool value => cases value <;> exact reads_word (by simp [dumps])
  | int value =>
    rw [dumps, ofInt_text]
    exact reads_number (written_numberOf value)
      (numberValue_numberOf reader (of_decide_eq_true faithful))
  | float value =>
    have own : value.isFinite = true := finite
    obtain ⟨number, written, broken, text⟩ := repr value own
    have again := rereads value own
    have notInteger : ¬ (number.fraction = [] ∧ number.exponent = []) :=
      fun both => broken.elim (· both.1) (· both.2)
    have valued : numberValue reader number = .ok (.float value) := by
      rw [numberValue, if_neg notInteger, ← text, again]
    rw [dumps, floatstr_finite floatText own, text]
    exact reads_number written valued
  | str value => exact reads_string (of_decide_eq_true faithful)
  | arr items inductionHypothesis =>
    rw [finite_arr] at finite
    rw [faithful_arr] at faithful
    rw [depth] at shallow
    obtain ⟨limit, rfl⟩ : ∃ less, limit = less + 1 := ⟨limit - 1, by omega⟩
    have each : List.Forall₂ (Reads reader limit) (items.map (dumps floatText)) items := by
      rw [List.forall₂_map_left_iff, List.forall₂_same]
      intro item member
      have inner := depth_le_depthItems member
      exact inductionHypothesis item member (finite item member) (faithful item member) (by omega)
    have whole := reads_array (List.forall_mem_nil _) space (List.forall_mem_nil _) each
    rw [dumps, dumpsItems_eq_map, comma]
    simpa only [List.nil_append, List.append_nil] using whole
  | obj members inductionHypothesis =>
    rw [finite_obj] at finite
    obtain ⟨distinct, faithful⟩ := (faithful_obj members).mp faithful
    rw [depth] at shallow
    obtain ⟨limit, rfl⟩ : ∃ less, limit = less + 1 := ⟨limit - 1, by omega⟩
    have each : ∀ member ∈ members, Text.Scalar member.1 ∧
        Reads reader limit (dumps floatText member.2) member.2 := by
      intro member inside
      have inner := depth_le_depthMembers inside
      exact ⟨(faithful member inside).1, inductionHypothesis member inside (finite member inside)
        (faithful member inside).2 (by omega)⟩
    have whole := reads_object each distinct
    rw [dumps, dumpsMembers_eq_map, comma]
    exact whole

omit repr rereads in
/-- A text that is read up to its end is the text of its value. -/
theorem Reads.parse {text : Str} {value : Json}
    (reads : Reads reader reader.recursionLimit text value) {after : Str} (white : Blank after) :
    Json.parse reader (text ++ after) = .ok value := by
  have ended : skipBlank after = [] := List.dropWhile_eq_nil_iff.mpr white
  have stops : Stops isNumeric after := by
    cases after with
    | nil => exact fun point starts => nomatch starts
    | cons point rest =>
      have isWhite := of_decide_eq_true (white point List.mem_cons_self)
      apply stops_cons
      simp only [isNumeric, isDigit, Bool.or_eq_false_iff, decide_eq_false_iff_not]
      omega
  have skipped := reads.skipped (List.forall_mem_nil _) after
  rw [List.nil_append] at skipped
  have first := reads.read (by rw [List.length_append]; omega :
    3 * text.length + 1 ≤ 3 * (text ++ after).length + 1) stops
  simp only [Json.parse, skipped, first, bind, Except.bind, ended, ↓reduceIte]
  rfl

/-- `json.loads(json.dumps(value))` -/
theorem parse_dumps {value : Json} (finite : Finite value) (faithful : Faithful value)
    (shallow : depth value ≤ reader.recursionLimit) :
    Json.parse reader (dumps floatText value) = .ok value := by
  have whole := (reads_dumps repr rereads finite faithful shallow).parse (List.forall_mem_nil _)
  rwa [List.append_nil] at whole

end

end Library.JsonWriter
