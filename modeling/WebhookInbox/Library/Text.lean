import Mathlib

/-!
# Python text

A string is a list of code points. Unlike a list of Unicode scalar values it can
hold lone surrogates, as a Python string can: a decoder that passes surrogates
through, or a JSON escape such as `\ud800`, produces them.

Trimming, prefixes and replacement follow the `str` methods of the same names.
Case conversion and the reading of digits depend on Unicode tables; each is a
parameter with the documented laws that its users need.
-/

namespace Library

/-- One element of a Python string, surrogates included. -/
abbrev CodePoint := Fin 0x110000

/-- A Python string. -/
abbrev Str := List CodePoint

instance codePointNonzero : NeZero 0x110000 := ⟨by decide⟩

instance codePointLawful : LawfulBEq CodePoint := inferInstance

instance strLawful : LawfulBEq Str := inferInstance

/-- A byte string. -/
abbrev Bytes := List UInt8

/-- A `Char` is a scalar value and names the same code point. -/
def CodePoint.ofChar (char : Char) : CodePoint :=
  ⟨char.val.toNat, by
    have valid := char.valid
    simp only [UInt32.isValidChar, Nat.isValidChar] at valid
    omega⟩

/-- The Python string with the code points of a literal. -/
def lit (literal : String) : Str := literal.toList.map CodePoint.ofChar

/-- The surrogate range U+D800 to U+DFFF, which no UTF-8 text encodes. -/
def CodePoint.isSurrogate (point : CodePoint) : Bool :=
  decide (0xD800 ≤ point.val ∧ point.val ≤ 0xDFFF)

namespace Text

/-- Without lone surrogates. Only such a string can be written as UTF-8. -/
def Scalar (text : Str) : Prop := ∀ point ∈ text, point.isSurrogate = false

instance (text : Str) : Decidable (Scalar text) :=
  List.decidableBAll (fun point : CodePoint => point.isSurrogate = false) text

/-- `str.isspace` of a single character. -/
def isSpace (point : CodePoint) : Bool :=
  decide ((9 ≤ point.val ∧ point.val ≤ 13) ∨ (0x1C ≤ point.val ∧ point.val ≤ 0x20) ∨
    point.val = 0x85 ∨ point.val = 0xA0 ∨ point.val = 0x1680 ∨
    (0x2000 ≤ point.val ∧ point.val ≤ 0x200A) ∨ point.val = 0x2028 ∨ point.val = 0x2029 ∨
    point.val = 0x202F ∨ point.val = 0x205F ∨ point.val = 0x3000)

/-- Drop the matching characters from both ends. -/
def stripBy (drops : CodePoint → Bool) (text : Str) : Str :=
  (text.dropWhile drops).rdropWhile drops

/-- `text.strip()` -/
def strip (text : Str) : Str := stripBy isSpace text

/-- `text.strip(char)` for a single character. -/
def stripChar (char : CodePoint) (text : Str) : Str := stripBy (fun point => point == char) text

/-- `text.startswith(start)` -/
def startsWith (text start : Str) : Bool := start.isPrefixOf text

/-- `text.endswith(ending)` -/
def endsWith (text ending : Str) : Bool := ending.isSuffixOf text

/-- `text.removeprefix(start)` -/
def removePrefix (text start : Str) : Str :=
  if startsWith text start then text.drop start.length else text

/-- `text.replace(old, new)` where both are single characters. -/
def replaceChar (old new : CodePoint) (text : Str) : Str :=
  text.map (fun point => if point = old then new else point)

/-- A text is as it was if the new character is not in it. -/
theorem replaceChar_unchanged {old new : CodePoint} {text : Str}
    (absent : new ∉ replaceChar old new text) : replaceChar old new text = text := by
  unfold replaceChar at absent ⊢
  conv_rhs => rw [← List.map_id text]
  apply List.map_congr_left
  intro point member
  by_cases same : point = old
  · have present : new ∈ text.map (fun point => if point = old then new else point) :=
      List.mem_map.mpr ⟨point, member, if_pos same⟩
    exact absurd present absent
  · exact if_neg same

/-- `part in text` -/
def contains (text part : Str) : Bool := decide (part <:+: text)

/-- `text.split(char)[0]` -/
def beforeChar (char : CodePoint) (text : Str) : Str :=
  text.takeWhile (fun point => decide (point ≠ char))

/-- `str(number)` for an integer. -/
def ofInt (number : Int) : Str := lit (toString number)

/-- The lower case of an ASCII character; other characters stay. -/
def asciiLower (point : CodePoint) : CodePoint :=
  if upper : 65 ≤ point.val ∧ point.val ≤ 90 then ⟨point.val + 32, by omega⟩ else point

/-- The upper case of an ASCII character; other characters stay. -/
def asciiUpper (point : CodePoint) : CodePoint :=
  if 97 ≤ point.val ∧ point.val ≤ 122 then ⟨point.val - 32, by omega⟩ else point

/-- Every character is ASCII. -/
def Ascii (text : Str) : Prop := ∀ point ∈ text, point.val < 128

instance asciiDecidable (text : Str) : Decidable (Ascii text) :=
  List.decidableBAll (fun point : CodePoint => point.val < 128) text

/-- Changing the case of an ASCII letter stays outside the surrogates. -/
@[simp] theorem asciiLower_isSurrogate (point : CodePoint) :
    (asciiLower point).isSurrogate = point.isSurrogate := by
  by_cases upper : 65 ≤ point.val ∧ point.val ≤ 90
  · have lower : (asciiLower point).val = point.val + 32 := by simp [asciiLower, upper]
    simp only [CodePoint.isSurrogate, lower, decide_eq_decide]
    omega
  · simp [asciiLower, upper]

/-- A prefix test is exactly membership in the extensions of the prefix. -/
@[simp] theorem startsWith_iff (text start : Str) : startsWith text start = true ↔ start <+: text :=
  List.isPrefixOf_iff_prefix

/-- A suffix test is exactly membership in the extensions of the suffix. -/
@[simp] theorem endsWith_iff (text ending : Str) : endsWith text ending = true ↔ ending <:+ text :=
  List.isSuffixOf_iff_suffix

/-- Removing a prefix that is there leaves what followed it. -/
theorem removePrefix_append (start rest : Str) : removePrefix (start ++ rest) start = rest := by
  simp [removePrefix]

/-- Text without the prefix is returned as it is. -/
theorem removePrefix_of_not {text start : Str} (absent : ¬ start <+: text) :
    removePrefix text start = text := by
  simp [removePrefix, absent]

/-- Stripped text does not start with a dropped character. -/
theorem stripBy_head (drops : CodePoint → Bool) (text : Str) (point : CodePoint) (rest : Str)
    (stripped : stripBy drops text = point :: rest) : drops point = false := by
  have kept : stripBy drops text <+: text.dropWhile drops := List.rdropWhile_prefix drops _
  rw [stripped] at kept
  obtain ⟨after, whole⟩ := kept
  have nonempty : text.dropWhile drops ≠ [] := by simp [← whole]
  have first := List.head_dropWhile_not drops nonempty
  simpa [← whole] using first

/-- Stripped text does not end with a dropped character. -/
theorem stripBy_last (drops : CodePoint → Bool) (text before : Str) (point : CodePoint)
    (stripped : stripBy drops text = before ++ [point]) : drops point = false := by
  have nonempty : (text.dropWhile drops).rdropWhile drops ≠ [] := by
    intro vacant
    simp [stripBy, vacant] at stripped
  have kept := List.rdropWhile_last_not drops (text.dropWhile drops) nonempty
  have last : ((text.dropWhile drops).rdropWhile drops).getLast nonempty = point := by
    simp only [stripBy] at stripped
    simp [stripped]
  simpa [last] using kept

/-- Stripping takes a part of the text. -/
theorem stripBy_sublist (drops : CodePoint → Bool) (text : Str) :
    (stripBy drops text).Sublist text :=
  (List.rdropWhile_prefix drops _).sublist.trans (List.dropWhile_suffix drops).sublist

/-- Text whose characters are taken from scalar text is scalar. -/
theorem Scalar.subset {part text : Str} (scalar : Scalar text) (taken : part ⊆ text) :
    Scalar part :=
  fun point member => scalar point (taken member)

/-- Two scalar texts together are scalar. -/
theorem Scalar.append {first second : Str} (left : Scalar first) (right : Scalar second) :
    Scalar (first ++ second) := by
  intro point member
  rcases List.mem_append.mp member with inFirst | inSecond
  · exact left point inFirst
  · exact right point inSecond

/-- The characters below the surrogates make scalar text. -/
theorem scalar_of_lt {text : Str} (small : ∀ point ∈ text, point.val < 0xD800) :
    Scalar text := by
  intro point member
  have below := small point member
  simp only [CodePoint.isSurrogate, decide_eq_false_iff_not]
  omega

/-- A literal is scalar, as every `Char` is. -/
theorem scalar_lit (literal : String) : Scalar (lit literal) := by
  intro point member
  obtain ⟨char, _, rfl⟩ := List.mem_map.mp member
  have valid := char.valid
  simp only [UInt32.isValidChar, Nat.isValidChar] at valid
  rw [CodePoint.isSurrogate, decide_eq_false_iff_not]
  change ¬ (0xD800 ≤ char.val.toNat ∧ char.val.toNat ≤ 0xDFFF)
  omega

/-- ASCII text is scalar. -/
theorem Ascii.scalar {text : Str} (ascii : Ascii text) : Scalar text :=
  scalar_of_lt (fun point member => Nat.lt_trans (ascii point member) (by decide))

/-- Text that neither starts nor ends with a dropped character is unchanged. -/
theorem stripBy_eq_self {drops : CodePoint → Bool} {text : Str}
    (start : ∀ point rest, text = point :: rest → drops point = false)
    (final : ∀ before point, text = before ++ [point] → drops point = false) :
    stripBy drops text = text := by
  have left : text.dropWhile drops = text := by
    cases text with
    | nil => rfl
    | cons point rest => simp [start point rest rfl]
  rw [stripBy, left, List.rdropWhile_eq_self_iff]
  intro nonempty
  simp [final text.dropLast (text.getLast nonempty) (List.dropLast_append_getLast nonempty).symm]

/-- Stripping twice strips no more. -/
theorem strip_strip (text : Str) : strip (strip text) = strip text :=
  stripBy_eq_self (stripBy_head _ text) (stripBy_last _ text)

/-- What is not dropped stays. -/
theorem mem_dropWhile {drops : CodePoint → Bool} {text : Str} {point : CodePoint}
    (solid : drops point = false) (member : point ∈ text) : point ∈ text.dropWhile drops := by
  induction text with
  | nil => cases member
  | cons first rest inductionHypothesis =>
    rw [List.dropWhile_cons]
    split
    · rename_i blank
      have later : point ∈ rest := by
        refine (List.mem_cons.mp member).resolve_left ?_
        rintro rfl
        rw [solid] at blank
        cases blank
      exact inductionHypothesis later
    · exact member

/-- A character that is no white space is not stripped. -/
theorem mem_strip {text : Str} {point : CodePoint} (solid : isSpace point = false)
    (member : point ∈ text) : point ∈ strip text := by
  have left : point ∈ text.dropWhile isSpace := mem_dropWhile solid member
  rw [strip, stripBy, List.rdropWhile, List.mem_reverse]
  exact mem_dropWhile solid (List.mem_reverse.mpr left)

/-- The lower case of a character is white space only if it is. -/
theorem asciiLower_space (point : CodePoint) :
    isSpace (asciiLower point) = isSpace point := by
  by_cases upper : 65 ≤ point.val ∧ point.val ≤ 90
  · have lower : (asciiLower point).val = point.val + 32 := by simp [asciiLower, upper]
    simp only [isSpace, lower, decide_eq_decide]
    omega
  · simp [asciiLower, upper]

/-- Lower case stays. -/
theorem asciiLower_asciiLower (point : CodePoint) :
    asciiLower (asciiLower point) = asciiLower point := by
  by_cases upper : 65 ≤ point.val ∧ point.val ≤ 90
  · have lower : (asciiLower point).val = point.val + 32 := by simp [asciiLower, upper]
    have done : ¬ (65 ≤ (asciiLower point).val ∧ (asciiLower point).val ≤ 90) := by omega
    rw [asciiLower, dif_neg done]
  · simp [asciiLower, upper]

end Text

/-- `str.lower` and `str.upper`. On ASCII text they change letters one by one;
a string that can be written as UTF-8 keeps that property. -/
structure Casing where
  lower : Str → Str
  upper : Str → Str
  lower_ascii : ∀ text, Text.Ascii text → lower text = text.map Text.asciiLower
  upper_ascii : ∀ text, Text.Ascii text → upper text = text.map Text.asciiUpper
  lower_scalar : ∀ text, Text.Scalar text → Text.Scalar (lower text)

/-- The tables restricted to ASCII letters are one admissible case conversion. -/
def Casing.ascii : Casing where
  lower := List.map Text.asciiLower
  upper := List.map Text.asciiUpper
  lower_ascii _ _ := rfl
  upper_ascii _ _ := rfl
  lower_scalar text scalar := by
    intro point member
    obtain ⟨source, sourceMember, rfl⟩ := List.mem_map.mp member
    rw [Text.asciiLower_isSurrogate]
    exact scalar source sourceMember

/-- Conversion to lower case leaves lower case as it is, and knows no difference between
white space and the ends of a text. -/
structure Casing.Stable (casing : Casing) : Prop where
  lower_lower : ∀ text, casing.lower (casing.lower text) = casing.lower text
  lower_strip : ∀ text, casing.lower (Text.strip text) = Text.strip (casing.lower text)

/-- The ASCII tables do so. -/
theorem Casing.stable_ascii : Casing.ascii.Stable where
  lower_lower text := by
    simp only [Casing.ascii, List.map_map]
    exact List.map_congr_left (fun point _ => Text.asciiLower_asciiLower point)
  lower_strip text := by
    have same : Text.isSpace ∘ Text.asciiLower = Text.isSpace := funext Text.asciiLower_space
    simp only [Casing.ascii, Text.strip, Text.stripBy, List.rdropWhile, List.dropWhile_map,
      ← List.map_reverse, same]

/-- Conversion to lower case makes no white space, and no dollar sign at the start. -/
structure Casing.Restrained (casing : Casing) : Prop where
  lower_space : ∀ text, ∀ point ∈ casing.lower text, Text.isSpace point = true → point ∈ text
  lower_dollar : ∀ text, (casing.lower text).head? = some 0x24 → text.head? = some 0x24

/-- The ASCII tables make neither. -/
theorem Casing.restrained_ascii : Casing.ascii.Restrained where
  lower_space text point member blank := by
    obtain ⟨source, inText, rfl⟩ := List.mem_map.mp member
    have same : Text.asciiLower source = source := by
      rw [Text.asciiLower_space] at blank
      have range := of_decide_eq_true blank
      have small : ¬ (65 ≤ source.val ∧ source.val ≤ 90) := by omega
      rw [Text.asciiLower, dif_neg small]
    rwa [same]
  lower_dollar text starts := by
    cases text with
    | nil => cases starts
    | cons first rest =>
      have lowered : Text.asciiLower first = 0x24 := Option.some.inj starts
      by_cases upper : 65 ≤ first.val ∧ first.val ≤ 90
      · have moved : (Text.asciiLower first).val = first.val + 32 := by
          simp [Text.asciiLower, upper]
        rw [lowered] at moved
        have dollar : (0x24 : CodePoint).val = 36 := rfl
        omega
      · rw [Text.asciiLower, dif_neg upper] at lowered
        rw [List.head?_cons, lowered]

/-- A decimal digit of ASCII. -/
def Text.isAsciiDigit (point : CodePoint) : Bool := decide (0x30 ≤ point.val ∧ point.val ≤ 0x39)

/-- The number that ASCII digits write. -/
def Text.digitsValue (text : Str) : Int :=
  text.foldl (fun value point => value * 10 + (point.val - 0x30 : Nat)) 0

/-- `str.isdigit` and `int`, whose result is missing when it raises. -/
structure Numerals where
  isDigit : Str → Bool
  toInt : Str → Option Int
  isDigit_ascii : ∀ text, Text.Ascii text →
    isDigit text = (decide (text ≠ []) && text.all Text.isAsciiDigit)
  toInt_ascii : ∀ text, text ≠ [] → text.all Text.isAsciiDigit → text.length ≤ 4300 →
    toInt text = some (Text.digitsValue text)

/-- The tables restricted to ASCII digits are one admissible reading. -/
def Numerals.ascii : Numerals where
  isDigit text := decide (text ≠ []) && text.all Text.isAsciiDigit
  toInt text :=
    if text ≠ [] ∧ text.all Text.isAsciiDigit ∧ text.length ≤ 4300 then
      some (Text.digitsValue text)
    else none
  isDigit_ascii _ _ := rfl
  toInt_ascii _ nonempty digits short := if_pos ⟨nonempty, digits, short⟩

end Library
