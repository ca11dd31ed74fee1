import WebhookInbox.Library.Forms
import WebhookInbox.Library.Utf8

/-!
# Writing query strings

`quotePlus` is Python's `urllib.parse.quote_plus` and `urlencode` is `urlencode` on pairs of
texts. What they write consists of ASCII characters that separate neither pairs nor names
from values, so `parseQsl` reads the pairs back (`parseQsl_urlencode`).
-/

namespace Library.Forms

/-- A byte that `quote` leaves: a letter, a digit, or one of `_`, `.`, `-` and `~`. -/
def isUnreserved (byte : UInt8) : Bool :=
  decide ((0x30 ≤ byte.toNat ∧ byte.toNat ≤ 0x39) ∨ (0x41 ≤ byte.toNat ∧ byte.toNat ≤ 0x5A) ∨
    (0x61 ≤ byte.toNat ∧ byte.toNat ≤ 0x7A) ∨ byte.toNat = 0x5F ∨ byte.toNat = 0x2E ∨
    byte.toNat = 0x2D ∨ byte.toNat = 0x7E)

/-- The digits are characters. -/
theorem digit_codePoint (value : Fin 16) : 0x30 + value.val < 0x110000 := by omega

/-- So are the letters that stand for digits. -/
theorem letter_codePoint (value : Fin 16) : 0x37 + value.val < 0x110000 := by omega

/-- And the bytes. -/
theorem byte_codePoint (byte : UInt8) : byte.toNat < 0x110000 := by
  have small := byte.toNat_lt
  omega

/-- There are sixteen digits. -/
theorem neZero_sixteen : NeZero 16 := ⟨by decide⟩

/-- The hexadecimal digit of a number below 16, in upper case. -/
def upperDigit (value : Fin 16) : CodePoint :=
  if value.val < 10 then ⟨0x30 + value.val, digit_codePoint value⟩
  else ⟨0x37 + value.val, letter_codePoint value⟩

/-- A byte in a query: itself, a plus sign for a space, or an escape. -/
def quoteByte (byte : UInt8) : Str :=
  if isUnreserved byte then [⟨byte.toNat, byte_codePoint byte⟩]
  else if byte = 0x20 then [0x2B]
  else
    [0x25, upperDigit (@Fin.ofNat 16 neZero_sixteen (byte.toNat / 16)),
      upperDigit (@Fin.ofNat 16 neZero_sixteen byte.toNat)]

/-- `quote_plus(text)`, missing when the text cannot be encoded. -/
def quotePlus (text : Str) : Option Str :=
  (Encoding.encodeUtf8 text).map (fun raw => raw.flatMap quoteByte)

/-- One pair of a query. -/
def quotePair (pair : Str × Str) : Option Str :=
  (quotePlus pair.1).bind (fun name =>
    (quotePlus pair.2).map (fun value => name ++ 0x3D :: value))

/-- `urlencode(pairs)` -/
def urlencode (pairs : List (Str × Str)) : Option Str :=
  (pairs.mapM quotePair).map (fun parts => ([0x26] : Str).intercalate parts)

example : urlencode [(lit "q", lit "a b&c"), (lit "to", lit "1+2")] =
    some (lit "q=a+b%26c&to=1%2B2") := by decide

/-! ## One byte -/

/-- A digit is read as the number it writes. -/
theorem hexDigit_upperDigit (value : Fin 16) : hexDigit (upperDigit value) = some value.val := by
  revert value
  decide

/-- Digits are digits or letters from A to F. -/
theorem upperDigit_bounds (value : Fin 16) :
    (0x30 ≤ (upperDigit value).val ∧ (upperDigit value).val ≤ 0x39) ∨
      (0x41 ≤ (upperDigit value).val ∧ (upperDigit value).val ≤ 0x46) := by
  revert value
  decide

/-- What a byte is quoted as is ASCII, and has no ampersand, equals sign or space. -/
theorem quoteByte_clean {byte : UInt8} {point : CodePoint} (member : point ∈ quoteByte byte) :
    point.val < 128 ∧ point.val ≠ 0x26 ∧ point.val ≠ 0x3D ∧ point.val ≠ 0x20 := by
  unfold quoteByte at member
  split at member
  · rename_i plain
    rw [List.mem_singleton] at member
    subst member
    simp only [isUnreserved, decide_eq_true_eq] at plain
    refine ⟨?_, ?_, ?_, ?_⟩ <;> dsimp only <;> omega
  · split at member
    · rw [List.mem_singleton] at member
      subst member
      decide
    · simp only [List.mem_cons, List.not_mem_nil, or_false] at member
      rcases member with rfl | rfl | rfl
      · decide
      · have bounds := upperDigit_bounds (Fin.ofNat 16 (byte.toNat / 16))
        omega
      · have bounds := upperDigit_bounds (Fin.ofNat 16 byte.toNat)
        omega

/-- A character that is no percent sign stands for its byte. -/
theorem unquoteToBytes_cons {point : CodePoint} (plain : point.val ≠ 0x25) (rest : Str) :
    unquoteToBytes (point :: rest) = UInt8.ofNat point.val :: unquoteToBytes rest := by
  cases rest with
  | nil => simp [unquoteToBytes]
  | cons second others =>
    cases others with
    | nil => simp [unquoteToBytes]
    | cons third later => simp [unquoteToBytes, plain]

/-- A quoted byte is read back after the plus signs were replaced. -/
theorem unquoteToBytes_quoteByte (byte : UInt8) (rest : Str) :
    unquoteToBytes (Text.replaceChar 0x2B 0x20 (quoteByte byte) ++ rest) =
      byte :: unquoteToBytes rest := by
  have size := byte.toNat_lt
  have whole : UInt8.ofNat byte.toNat = byte := UInt8.ofNat_toNat
  unfold quoteByte
  split
  · rename_i plain
    simp only [isUnreserved, decide_eq_true_eq] at plain
    have kept : (⟨byte.toNat, by omega⟩ : CodePoint) ≠ 0x2B := by
      rw [ne_eq, Fin.ext_iff]
      change ¬ byte.toNat = 0x2B
      omega
    simp only [Text.replaceChar, List.map_cons, List.map_nil, kept, ↓reduceIte, List.cons_append,
      List.nil_append]
    rw [unquoteToBytes_cons (by change byte.toNat ≠ 0x25; omega)]
    change UInt8.ofNat byte.toNat :: _ = _
    rw [whole]
  · split
    · rename_i space
      subst space
      simp only [Text.replaceChar, List.map_cons, List.map_nil, ↓reduceIte, List.cons_append,
        List.nil_append]
      exact unquoteToBytes_cons (by decide) rest
    · have kept : ∀ value, upperDigit value ≠ 0x2B := by decide
      have high : (Fin.ofNat 16 (byte.toNat / 16)).val = byte.toNat / 16 :=
        Nat.mod_eq_of_lt (by omega)
      have low : (Fin.ofNat 16 byte.toNat).val = byte.toNat % 16 := rfl
      have number : byte.toNat / 16 * 16 + byte.toNat % 16 = byte.toNat := by omega
      have percent : (0x25 : CodePoint) ≠ 0x2B := by decide
      simp only [Text.replaceChar, List.map_cons, List.map_nil, kept, percent, ↓reduceIte,
        List.cons_append, List.nil_append]
      rw [unquoteToBytes, if_pos (by rfl), hexDigit_upperDigit, hexDigit_upperDigit, high, low]
      dsimp only
      rw [number, whole]

/-! ## Whole texts -/

/-- The quoted bytes of a text are ASCII. -/
theorem quoted_clean {raw : Bytes} {point : CodePoint} (member : point ∈ raw.flatMap quoteByte) :
    point.val < 128 ∧ point.val ≠ 0x26 ∧ point.val ≠ 0x3D ∧ point.val ≠ 0x20 := by
  obtain ⟨byte, _, inside⟩ := List.mem_flatMap.mp member
  exact quoteByte_clean inside

/-- Quoted bytes are read back. -/
theorem unquoteToBytes_quoted (raw : Bytes) :
    unquoteToBytes (Text.replaceChar 0x2B 0x20 (raw.flatMap quoteByte)) = raw := by
  induction raw with
  | nil => rfl
  | cons byte rest inductionHypothesis =>
    rw [List.flatMap_cons, Text.replaceChar, List.map_append]
    exact (unquoteToBytes_quoteByte byte _).trans (congrArg (byte :: ·) inductionHypothesis)

/-- A text of ASCII characters is one run. -/
theorem runs_ascii {text : Str} (ascii : Text.Ascii text) (filled : text ≠ []) :
    runs text = [(true, text)] := by
  induction text with
  | nil => exact absurd rfl filled
  | cons point rest inductionHypothesis =>
    obtain ⟨here, later⟩ := List.forall_mem_cons.mp ascii
    cases rest with
    | nil => simp [runs, here]
    | cons second others =>
      rw [runs, inductionHypothesis later (List.cons_ne_nil _ _)]
      simp [here]

/-- What is ASCII and has no percent sign is read as its own bytes. -/
theorem unquoteToBytes_plain {text : Str} (plain : (0x25 : CodePoint) ∉ text) :
    unquoteToBytes text = text.map (fun point => UInt8.ofNat point.val) := by
  induction text with
  | nil => rfl
  | cons point rest inductionHypothesis =>
    obtain ⟨here, later⟩ := List.ne_and_not_mem_of_not_mem_cons plain
    have other : point.val ≠ 0x25 := fun same => here (Fin.ext same.symm)
    rw [unquoteToBytes_cons other, inductionHypothesis later, List.map_cons]

/-- ASCII text is read as UTF-8. -/
theorem items_ascii {text : Str} (ascii : Text.Ascii text) :
    Encoding.items false none (text.map (fun point => UInt8.ofNat point.val)) =
      text.map some := by
  have bytes : text.map (fun point => UInt8.ofNat point.val) =
      text.flatMap Encoding.encodeChar := by
    rw [List.map_eq_flatMap]
    refine List.flatMap_congr ?_
    intro point member
    rw [Encoding.encodeChar, if_pos (ascii point member)]
  rw [bytes, Encoding.items_encodeUtf8 ascii.scalar]

/-- Unquoting ASCII text decodes the bytes that its escapes stand for. -/
theorem unquotePlus_ascii {text : Str} (ascii : Text.Ascii text) :
    unquotePlus text =
      Encoding.decodeUtf8Replace (unquoteToBytes (Text.replaceChar 0x2B 0x20 text)) := by
  have spaced : Text.Ascii (Text.replaceChar 0x2B 0x20 text) := by
    intro point member
    obtain ⟨source, inText, rfl⟩ := List.mem_map.mp member
    split
    · decide
    · exact ascii source inText
  simp only [unquotePlus]
  split
  · rename_i escaped
    rw [runs_ascii spaced (List.ne_nil_of_mem escaped)]
    simp
  · rename_i plain
    rw [unquoteToBytes_plain plain, Encoding.decodeUtf8Replace, items_ascii spaced, List.map_map]
    exact (List.map_id _).symm

/-- A quoted text is read back. -/
theorem unquotePlus_quotePlus {text quoted : Str} (written : quotePlus text = some quoted) :
    unquotePlus quoted = text := by
  obtain ⟨raw, encoded, rfl⟩ := Option.map_eq_some_iff.mp written
  obtain ⟨scalar, same⟩ := Option.ite_none_right_eq_some.mp encoded
  obtain rfl := Option.some.inj same
  have clean : Text.Scalar text := by
    intro point member
    simpa using List.all_eq_true.mp scalar point member
  rw [unquotePlus_ascii (fun point member => (quoted_clean member).1), unquoteToBytes_quoted,
    Encoding.decodeUtf8Replace, Encoding.items_encodeUtf8 clean, List.map_map]
  exact List.map_id _

/-- A text without lone surrogates can be quoted. -/
theorem quotePlus_some {text : Str} (scalar : Text.Scalar text) :
    ∃ quoted, quotePlus text = some quoted := by
  have encoded : text.all (fun point => !point.isSurrogate) = true := by
    rw [List.all_eq_true]
    intro point member
    rw [scalar point member]
    rfl
  exact ⟨_, by rw [quotePlus, Encoding.encodeUtf8, if_pos encoded]; rfl⟩

/-- What was quoted is clean. -/
theorem quotePlus_clean {text quoted : Str} (written : quotePlus text = some quoted)
    {point : CodePoint} (member : point ∈ quoted) :
    point.val < 128 ∧ point.val ≠ 0x26 ∧ point.val ≠ 0x3D ∧ point.val ≠ 0x20 := by
  obtain ⟨raw, _, rfl⟩ := Option.map_eq_some_iff.mp written
  exact quoted_clean member

/-! ## Pairs -/

/-- The part before a character that does not occur in it. -/
theorem beforeChar_append {char : CodePoint} {text : Str} (clean : char ∉ text) (rest : Str) :
    Text.beforeChar char (text ++ char :: rest) = text := by
  have others : ∀ point ∈ text, decide (point ≠ char) = true :=
    fun point member => decide_eq_true (fun same => clean (same ▸ member))
  rw [Text.beforeChar, List.takeWhile_append_of_pos others,
    List.takeWhile_cons_of_neg (by simp), List.append_nil]

/-- A quoted pair is read back, and separates no pairs. -/
theorem pairOrBlank_quotePair {pair : Str × Str} {part : Str} (written : quotePair pair = some part) :
    pairOrBlank part = some pair ∧ (0x26 : CodePoint) ∉ part ∧ Text.Ascii part := by
  obtain ⟨name, quotedName, rest⟩ := Option.bind_eq_some_iff.mp written
  obtain ⟨value, quotedValue, rfl⟩ := Option.map_eq_some_iff.mp rest
  have cleanName : ∀ point ∈ name, _ := fun _ member => quotePlus_clean quotedName member
  have cleanValue : ∀ point ∈ value, _ := fun _ member => quotePlus_clean quotedValue member
  have free : (0x3D : CodePoint) ∉ name := fun member => (cleanName _ member).2.2.1 rfl
  refine ⟨?_, ?_, ?_⟩
  · have first := beforeChar_append free value
    have second : (name ++ 0x3D :: value).drop (name.length + 1) = value := by
      rw [← List.drop_drop, List.drop_left, List.drop_succ_cons, List.drop_zero]
    simp only [pairOrBlank, first, second, List.append_eq_nil_iff, reduceCtorEq, and_false,
      ↓reduceIte, unquotePlus_quotePlus quotedName, unquotePlus_quotePlus quotedValue]
  · rw [List.mem_append, List.mem_cons]
    rintro (inName | same | inValue)
    · exact (cleanName _ inName).2.1 rfl
    · exact absurd same (by decide)
    · exact (cleanValue _ inValue).2.1 rfl
  · intro point member
    rw [List.mem_append, List.mem_cons] at member
    rcases member with inName | rfl | inValue
    · exact (cleanName _ inName).1
    · decide
    · exact (cleanValue _ inValue).1

/-- Joined parts without the separator are split again. -/
theorem split_joined {separator : CodePoint} {first : Str} {parts : List Str}
    (clean : ∀ part ∈ first :: parts, separator ∉ part) :
    split separator (([separator] : Str).intercalate (first :: parts)) = first :: parts := by
  obtain ⟨here, later⟩ := List.forall_mem_cons.mp clean
  have parted := @split_intercalate separator [] first parts List.not_mem_nil here later
  simpa using parted

/-- Joined parts of ASCII text are ASCII text. -/
theorem joined_ascii {parts : List Str} (ascii : ∀ part ∈ parts, Text.Ascii part) :
    Text.Ascii (([0x26] : Str).intercalate parts) := by
  induction parts with
  | nil => exact fun point member => nomatch member
  | cons first rest inductionHypothesis =>
    obtain ⟨here, later⟩ := List.forall_mem_cons.mp ascii
    cases rest with
    | nil => rwa [List.intercalate_singleton]
    | cons second others =>
      rw [List.intercalate_cons_cons]
      intro point member
      simp only [List.mem_append, List.mem_singleton] at member
      rcases member with (inFirst | rfl) | inRest
      · exact here point inFirst
      · decide
      · exact inductionHypothesis later point inRest

/-- The parts that pairs are written as are read back one by one. -/
theorem mapM_quotePair {pairs : List (Str × Str)} {parts : List Str}
    (written : pairs.mapM quotePair = some parts) :
    parts.filterMap pairOrBlank = pairs ∧
      ∀ part ∈ parts, (0x26 : CodePoint) ∉ part ∧ Text.Ascii part := by
  induction pairs generalizing parts with
  | nil =>
    obtain rfl := Option.some.inj written
    exact ⟨rfl, fun part member => nomatch member⟩
  | cons pair rest inductionHypothesis =>
    rw [List.mapM_cons] at written
    simp only [Option.bind_eq_bind, Option.bind_eq_some_iff, Option.pure_def,
      Option.some.injEq] at written
    obtain ⟨part, own, others, later, rfl⟩ := written
    obtain ⟨read, clean⟩ := pairOrBlank_quotePair own
    obtain ⟨readLater, cleanLater⟩ := inductionHypothesis later
    exact ⟨by rw [List.filterMap_cons_some read, readLater],
      List.forall_mem_cons.mpr ⟨clean, cleanLater⟩⟩

/-- Written pairs are read back. -/
theorem parseQsl_urlencode {pairs : List (Str × Str)} {text : Str}
    (written : urlencode pairs = some text) : parseQsl text = pairs ∧ Text.Ascii text := by
  obtain ⟨parts, quoted, rfl⟩ := Option.map_eq_some_iff.mp written
  obtain ⟨read, clean⟩ := mapM_quotePair quoted
  constructor
  · cases parts with
    | nil => exact read
    | cons first others =>
      rw [parseQsl, split_joined (fun part member => (clean part member).1), read]
  · exact joined_ascii (fun part member => (clean part member).2)

/-- Pairs without lone surrogates can be written. -/
theorem urlencode_some {pairs : List (Str × Str)}
    (scalar : ∀ pair ∈ pairs, Text.Scalar pair.1 ∧ Text.Scalar pair.2) :
    ∃ text, urlencode pairs = some text := by
  have parts : ∃ parts, pairs.mapM quotePair = some parts := by
    induction pairs with
    | nil => exact ⟨[], rfl⟩
    | cons pair rest inductionHypothesis =>
      obtain ⟨⟨scalarName, scalarValue⟩, later⟩ := List.forall_mem_cons.mp scalar
      obtain ⟨name, quotedName⟩ := quotePlus_some scalarName
      obtain ⟨value, quotedValue⟩ := quotePlus_some scalarValue
      obtain ⟨parts, quoted⟩ := inductionHypothesis later
      exact ⟨(name ++ 0x3D :: value) :: parts, by
        simp [List.mapM_cons, quotePair, quotedName, quotedValue, quoted]⟩
  obtain ⟨parts, quoted⟩ := parts
  exact ⟨_, by rw [urlencode, quoted, Option.map_some]⟩

end Library.Forms
