import WebhookInbox.Library.Decimal
import WebhookInbox.Library.JsonText

/-!
# JSON as Python writes it

`dumps` follows the standard library's encoder with its default settings: text that is not
ASCII is escaped, and numbers that are not finite are written as the words that the reader
takes for them.

`valid_dumps_iff` says that the text is standard JSON exactly if no number in the value is
infinite or not a number, and `parse_dumps` that reading it gives such a value back.
-/

namespace Library

/-- `math.isnan(value)`: the bits of the exponent are set, and some below them. -/
def PyFloat.isNan (value : PyFloat) : Bool :=
  decide (0x7ff0000000000000 < value.bits.toNat % 0x8000000000000000)

/-- `math.isfinite(value)` -/
def PyFloat.isFinite (value : PyFloat) : Bool :=
  !value.isNan && decide (value ≠ .infinity false) && decide (value ≠ .infinity true)

namespace JsonWriter

open Json JsonText

/-! ## The encoder -/

/-- `'{0:04x}'`, one digit. -/
def hexDigit (value : Fin 16) : CodePoint :=
  if value.val < 10 then ⟨value.val + 0x30, by omega⟩ else ⟨value.val + 0x57, by omega⟩

/-- `'{0:04x}'.format(unit)` -/
def fourDigits (unit : Nat) : Str :=
  [hexDigit ⟨unit / 4096 % 16, by omega⟩, hexDigit ⟨unit / 256 % 16, by omega⟩,
    hexDigit ⟨unit / 16 % 16, by omega⟩, hexDigit ⟨unit % 16, by omega⟩]

/-- `'\\u{0:04x}'.format(unit)` -/
def escapeUnit (unit : Nat) : Str := backslash :: 0x75 :: fourDigits unit

/-- `ESCAPE_DCT`, by the letters of its escapes. -/
def escapeDct : Dict CodePoint CodePoint :=
  [(0x5C, 0x5C), (0x22, 0x22), (0x08, 0x62), (0x0C, 0x66), (0x0A, 0x6E), (0x0D, 0x72), (0x09, 0x74)]

/-- `replace(match)`, and the character itself if `ESCAPE_ASCII` does not match it. -/
def escapeChar (point : CodePoint) : Str :=
  match escapeDct.get point with
  | some letter => [backslash, letter]
  | none =>
      if 0x20 ≤ point.val ∧ point.val ≤ 0x7E then [point]
      else if point.val < 0x10000 then escapeUnit point.val
      else
        let rest := point.val - 0x10000
        escapeUnit (0xD800 + rest / 1024) ++ escapeUnit (0xDC00 + rest % 1024)

/-- `encode_basestring_ascii(text)` without its quotes. -/
def escapeText (text : Str) : Str := text.flatMap escapeChar

/-- `encode_basestring_ascii(text)` -/
def encodeText (text : Str) : Str := quote :: escapeText text ++ [quote]

section
variable (floatText : PyFloat → Str)

/-- `floatstr(value)` -/
def floatstr (value : PyFloat) : Str :=
  if value.isNan then lit "NaN"
  else if value = .infinity false then lit "Infinity"
  else if value = .infinity true then lit "-Infinity"
  else floatText value

mutual

/-- `json.dumps(value)` -/
def dumps : Json → Str
  | .null => lit "null"
  | .bool value => if value then lit "true" else lit "false"
  | .int value => Text.ofInt value
  | .float value => floatstr floatText value
  | .str value => encodeText value
  | .arr items => [0x5B] ++ List.intercalate (lit ", ") (dumpsItems items) ++ [0x5D]
  | .obj members => [0x7B] ++ List.intercalate (lit ", ") (dumpsMembers members) ++ [0x7D]

def dumpsItems : List Json → List Str
  | [] => []
  | item :: rest => dumps item :: dumpsItems rest

def dumpsMembers : List (Str × Json) → List Str
  | [] => []
  | (key, value) :: rest => (encodeText key ++ lit ": " ++ dumps value) :: dumpsMembers rest

end

end

/-- Every number of the value is finite. -/
def Finite (value : Json) : Prop :=
  everywhere (fun leaf => match leaf with | .float value => value.isFinite | _ => true)
    (fun _ => true) value = true

instance finiteDecidable (value : Json) : Decidable (Finite value) :=
  inferInstanceAs (Decidable (_ = true))

/-- What `float.__repr__` writes of a finite number: a number of the grammar with a fraction
or an exponent. -/
def Repr (floatText : PyFloat → Str) : Prop :=
  ∀ value : PyFloat, value.isFinite = true → ∃ number, Written number ∧
    (number.fraction ≠ [] ∨ number.exponent ≠ []) ∧ floatText value = number.text

/-! ## Numbers -/

/-- A finite number is written by `float.__repr__`. -/
theorem floatstr_finite (floatText : PyFloat → Str) {value : PyFloat}
    (finite : value.isFinite = true) : floatstr floatText value = floatText value := by
  simp only [PyFloat.isFinite, Bool.and_eq_true, Bool.not_eq_true', decide_eq_true_eq] at finite
  simp only [floatstr, finite, Bool.false_eq_true, ↓reduceIte]

/-- Any other number is written as a word. -/
theorem floatstr_infinite (floatText : PyFloat → Str) {value : PyFloat}
    (infinite : value.isFinite = false) :
    floatstr floatText value ∈ [lit "NaN", lit "Infinity", lit "-Infinity"] := by
  unfold floatstr
  split
  · exact List.mem_cons_self
  · rename_i number
    split
    · exact List.mem_cons_of_mem _ List.mem_cons_self
    · rename_i notPlus
      split
      · exact List.mem_cons_of_mem _ (List.mem_cons_of_mem _ List.mem_cons_self)
      · rename_i notMinus
        simp [PyFloat.isFinite, number, notPlus, notMinus] at infinite

/-- Digits of a positive number do not start with a zero. -/
theorem toDigits_first {number : Nat} (positive : 0 < number) :
    ∃ first rest, Nat.toDigits 10 number = first :: rest ∧ first ≠ '0' := by
  induction number using Nat.strong_induction_on with
  | _ number inductionHypothesis =>
    by_cases small : number < 10
    · refine ⟨number.digitChar, [], Nat.toDigits_of_lt_base small, ?_⟩
      intro zero
      interval_cases number <;> revert zero <;> decide
    · obtain ⟨first, rest, digits, notZero⟩ :=
        inductionHypothesis (number / 10) (by omega) (by omega)
      refine ⟨first, rest ++ [(number % 10).digitChar], ?_, notZero⟩
      rw [Nat.toDigits_of_base_le (by decide) (by omega), digits, List.cons_append]

/-- The parts of an integer: its sign and its digits. -/
def numberOf (value : Int) : Number := ⟨decide (value < 0), Text.ofInt value.natAbs, [], []⟩

theorem ofInt_text (value : Int) : Text.ofInt value = (numberOf value).text := by
  by_cases negative : value < 0
  · rw [Text.ofInt_negative negative, Number.text]
    simp only [numberOf, negative, decide_true, ↓reduceIte, List.append_nil]
    rfl
  · have magnitude : (value.natAbs : Int) = value := by omega
    rw [Number.text]
    simp [numberOf, negative, magnitude]

/-- Integers are numbers of the grammar. -/
theorem written_numberOf (value : Int) : Written (numberOf value) := by
  refine ⟨?_, .inl rfl, .inl rfl⟩
  by_cases zero : value.natAbs = 0
  · left
    rw [numberOf, zero]
    rfl
  · right
    obtain ⟨first, rest, digits, notZero⟩ := toDigits_first (Nat.pos_of_ne_zero zero)
    have whole : Text.ofInt value.natAbs = CodePoint.ofChar first :: rest.map CodePoint.ofChar := by
      rw [Text.ofInt_nat, digits, List.map_cons]
    have all := Text.ofInt_digits value.natAbs
    rw [whole, List.all_cons, Bool.and_eq_true] at all
    refine ⟨_, _, whole, all.1, ?_, all.2⟩
    intro same
    apply notZero
    have code := congrArg Fin.val same
    exact Char.ext (UInt32.toNat.inj code)

/-! ## Standard text -/

theorem hexValue_hexDigit (value : Fin 16) : hexValue (hexDigit value) = some value.val := by
  revert value
  decide

/-- What the encoder escapes is a string of the grammar. -/
theorem chars_escapeUnit (unit : Nat) {rest : Str} (tail : Chars rest) :
    Chars (escapeUnit unit ++ rest) := by
  refine Chars.unicode ?_ tail
  simp only [List.forall_mem_cons, hexValue_hexDigit, Option.isSome_some, List.not_mem_nil,
    false_imp_iff, implies_true, and_self]

theorem escapeDct_known {point letter : CodePoint} (short : escapeDct.get point = some letter) :
    simpleEscape letter = some point := by
  have known : ∀ pair ∈ escapeDct, simpleEscape pair.2 = some pair.1 := by
    simp only [escapeDct, List.forall_mem_cons, List.not_mem_nil, false_imp_iff, implies_true,
      and_true]
    decide
  exact known (point, letter) (Dict.get_mem short)

theorem chars_escapeChar (point : CodePoint) {rest : Str} (tail : Chars rest) :
    Chars (escapeChar point ++ rest) := by
  unfold escapeChar
  split
  · rename_i letter short
    exact .escaped (by rw [escapeDct_known short]; rfl) tail
  · rename_i long
    split
    · rename_i printable
      refine .unescaped printable.1 ?_ ?_ tail
      · rintro rfl
        revert long
        decide
      · rintro rfl
        revert long
        decide
    · split
      · exact chars_escapeUnit _ tail
      · dsimp only
        rw [List.append_assoc]
        exact chars_escapeUnit _ (chars_escapeUnit _ tail)

theorem chars_escapeText (text : Str) : Chars (escapeText text) := by
  induction text with
  | nil => exact .nil
  | cons point rest inductionHypothesis =>
    rw [escapeText, List.flatMap_cons]
    exact chars_escapeChar point inductionHypothesis

theorem dumpsItems_eq_map (floatText : PyFloat → Str) (items : List Json) :
    dumpsItems floatText items = items.map (dumps floatText) := by
  induction items with
  | nil => rfl
  | cons item rest inductionHypothesis => simp [dumpsItems, inductionHypothesis]

theorem dumpsMembers_eq_map (floatText : PyFloat → Str) (members : List (Str × Json)) :
    dumpsMembers floatText members = members.map (fun member =>
      encodeText member.1 ++ lit ": " ++ dumps floatText member.2) := by
  induction members with
  | nil => rfl
  | cons member rest inductionHypothesis => simp [dumpsMembers, inductionHypothesis]

/-- The parts of a finite array are finite, and so are those of an object. -/
theorem finite_arr (items : List Json) : Finite (.arr items) ↔ ∀ item ∈ items, Finite item :=
  everywhere_arr items

theorem finite_obj (members : List (Str × Json)) :
    Finite (.obj members) ↔ ∀ member ∈ members, Finite member.2 := by
  rw [Finite, everywhere_obj]
  exact ⟨And.right, fun values => ⟨rfl, values⟩⟩

section
variable {floatText : PyFloat → Str} (repr : Repr floatText)

include repr

/-- A value whose numbers are finite is written as standard JSON.

Proof: by induction on the value. -/
theorem valid_dumps {value : Json} (finite : Finite value) :
    Valid .value (dumps floatText value) := by
  have comma : lit ", " = 0x2C :: [0x20] := by decide +kernel
  have colon : lit ": " = 0x3A :: [0x20] := by decide +kernel
  have space : Blank [0x20] := by decide
  induction value using Json.inductionOn with
  | null => exact .word (by simp [dumps])
  | bool value => cases value <;> exact .word (by simp [dumps])
  | int value =>
    rw [dumps, ofInt_text]
    exact .number (written_numberOf value)
  | float value =>
    have own : value.isFinite = true := finite
    obtain ⟨number, written, _, text⟩ := repr value own
    rw [dumps, floatstr_finite floatText own, text]
    exact .number written
  | str value => exact .string (chars_escapeText value)
  | arr items inductionHypothesis =>
    rw [finite_arr] at finite
    rw [dumps, dumpsItems_eq_map, comma]
    cases items with
    | nil => exact .emptyArray (List.forall_mem_nil _)
    | cons first rest =>
      have valid : ∀ text ∈ (first :: rest).map (dumps floatText), Valid .value text := by
        rw [List.forall_mem_map]
        exact fun item member => inductionHypothesis item member (finite item member)
      have listed := elements_joined (List.forall_mem_nil _) space (List.forall_mem_nil _) valid
        (by simp)
      rw [List.nil_append, List.append_nil] at listed
      exact .array listed
  | obj members inductionHypothesis =>
    rw [finite_obj] at finite
    rw [dumps, dumpsMembers_eq_map, comma]
    cases members with
    | nil => exact .emptyObject (List.forall_mem_nil _)
    | cons first rest =>
      have valid : ∀ pair ∈ (first :: rest).map (fun member =>
          (escapeText member.1, dumps floatText member.2)),
          Chars pair.1 ∧ Valid .value pair.2 := by
        rw [List.forall_mem_map]
        exact fun member inside =>
          ⟨chars_escapeText _, inductionHypothesis member inside (finite member inside)⟩
      have listed := members_joined (List.forall_mem_nil _) space (List.forall_mem_nil _) space
        valid (by simp)
      rw [List.nil_append, List.append_nil, List.map_map] at listed
      rw [colon]
      exact Valid.object listed

end

/-! ## Text that is not standard -/

/-- One of the letters of `NaN` and `Infinity` stands outside the strings. -/
def Tainted (text : Str) : Prop := ∃ point ∈ bare text, point = 0x49 ∨ point = 0x4E

theorem Tainted.left {first second : Str} (closed : Closed first) (tainted : Tainted first) :
    Tainted (first ++ second) := by
  obtain ⟨point, member, letter⟩ := tainted
  exact ⟨point, by rw [closed]; exact List.mem_append_left _ member, letter⟩

theorem Tainted.right {first second : Str} (closed : Closed first) (tainted : Tainted second) :
    Tainted (first ++ second) := by
  obtain ⟨point, member, letter⟩ := tainted
  exact ⟨point, by rw [closed]; exact List.mem_append_right _ member, letter⟩

/-- Tainted text is not valid, whatever it is to be. -/
theorem Tainted.not_sober {text : Str} (tainted : Tainted text) : ¬ Sober text := by
  intro sober
  obtain ⟨point, member, letter⟩ := tainted
  exact letter.elim (sober.letters point member).1 (sober.letters point member).2

/-- The words for numbers that are not finite are tainted. -/
theorem tainted_words {word : Str} (unusual : word ∈ [lit "NaN", lit "Infinity", lit "-Infinity"]) :
    Closed word ∧ Tainted word := by
  obtain ⟨plain, point, member, letter⟩ : quote ∉ word ∧
      ∃ point ∈ word, point = 0x49 ∨ point = 0x4E := by
    simp only [List.mem_cons, List.not_mem_nil, or_false] at unusual
    rcases unusual with rfl | rfl | rfl
    · exact ⟨by decide +kernel, 0x4E, by decide +kernel, .inr rfl⟩
    · exact ⟨by decide +kernel, 0x49, by decide +kernel, .inl rfl⟩
    · exact ⟨by decide +kernel, 0x49, by decide +kernel, .inl rfl⟩
  exact ⟨closed_plain plain, point, (bare_of_plain plain).symm ▸ member, letter⟩

/-- Text between two characters is closed, and tainted if it is. -/
theorem closed_between {opening closing : CodePoint} {text : Str} (opens : opening ≠ quote)
    (closes : closing ≠ quote) (closed : Closed text) :
    Closed ([opening] ++ text ++ [closing]) ∧
      (Tainted text → Tainted ([opening] ++ text ++ [closing])) := by
  have single : ∀ {point : CodePoint}, point ≠ quote → Closed [point] := by
    intro point other
    apply closed_plain
    rw [List.mem_singleton]
    exact Ne.symm other
  have begun := (single opens).append closed
  exact ⟨begun.append (single closes), fun tainted => (tainted.right (single opens)).left begun⟩

/-- Joined texts are closed, and tainted if one of them is. -/
theorem closed_joined {separator : Str} (between : Closed separator) {texts : List Str}
    (closed : ∀ text ∈ texts, Closed text) :
    Closed (List.intercalate separator texts) ∧
      ((∃ text ∈ texts, Tainted text) → Tainted (List.intercalate separator texts)) := by
  induction texts with
  | nil =>
    refine ⟨fun rest => rfl, ?_⟩
    rintro ⟨text, member, _⟩
    cases member
  | cons text rest inductionHypothesis =>
    obtain ⟨first, others⟩ := List.forall_mem_cons.mp closed
    obtain ⟨restClosed, restTainted⟩ := inductionHypothesis others
    cases rest with
    | nil =>
      rw [List.intercalate_singleton]
      refine ⟨first, ?_⟩
      rintro ⟨other, member, tainted⟩
      rwa [← List.mem_singleton.mp member]
    | cons next rest =>
      rw [List.intercalate_cons_cons]
      refine ⟨(first.append between).append restClosed, ?_⟩
      rintro ⟨other, member, tainted⟩
      rcases List.mem_cons.mp member with rfl | later
      · exact Tainted.left (first.append between) (tainted.left first)
      · exact Tainted.right (first.append between) (restTainted ⟨other, later, tainted⟩)

/-- What holds of each character of joined texts and of their separator. -/
theorem forall_mem_joined {holds : CodePoint → Prop} {separator : Str} {texts : List Str}
    (between : ∀ point ∈ separator, holds point) (each : ∀ text ∈ texts, ∀ point ∈ text, holds point) :
    ∀ point ∈ List.intercalate separator texts, holds point := by
  induction texts with
  | nil => exact List.forall_mem_nil _
  | cons text rest inductionHypothesis =>
    obtain ⟨first, others⟩ := List.forall_mem_cons.mp each
    cases rest with
    | nil =>
      rw [List.intercalate_singleton]
      exact first
    | cons next rest =>
      rw [List.intercalate_cons_cons]
      simp only [List.forall_mem_append]
      exact ⟨⟨first, between⟩, inductionHypothesis others⟩

/-- An escape has no control characters. -/
theorem escapeUnit_line (unit : Nat) : ∀ point ∈ escapeUnit unit, 0x20 ≤ point.val := by
  have digit : ∀ value : Fin 16, 0x20 ≤ (hexDigit value).val := by decide
  simp only [escapeUnit, fourDigits, List.forall_mem_cons, digit, List.not_mem_nil, false_imp_iff,
    implies_true, and_true]
  decide

/-- Neither has a string. -/
theorem encodeText_line (text : Str) : ∀ point ∈ encodeText text, 0x20 ≤ point.val := by
  have char : ∀ point : CodePoint, ∀ written ∈ escapeChar point, 0x20 ≤ written.val := by
    intro point
    unfold escapeChar
    split
    · rename_i letter short
      have letters : ∀ pair ∈ escapeDct, 0x20 ≤ pair.2.val := by
        simp only [escapeDct, List.forall_mem_cons, List.not_mem_nil, false_imp_iff, implies_true,
          and_true]
        decide
      simp only [List.forall_mem_cons, List.not_mem_nil, false_imp_iff, implies_true, and_true]
      exact ⟨by decide, letters (point, letter) (Dict.get_mem short)⟩
    · split
      · rename_i printable
        rw [List.forall_mem_singleton]
        exact printable.1
      · split
        · exact escapeUnit_line _
        · exact List.forall_mem_append.mpr ⟨escapeUnit_line _, escapeUnit_line _⟩
  intro point member
  simp only [encodeText, escapeText, List.mem_append, List.mem_cons, List.mem_flatMap,
    List.not_mem_nil, or_false] at member
  rcases member with (rfl | ⟨source, _, written⟩) | rfl
  · decide
  · exact char source point written
  · decide

section
variable {floatText : PyFloat → Str} (repr : Repr floatText)

include repr

/-- Every value is written as closed text, and a value with a number that is not finite as
tainted text.

Proof: by induction on the value. The letters of the number's word stand outside the strings
around it. -/
theorem dumps_closed (value : Json) :
    Closed (dumps floatText value) ∧ (¬ Finite value → Tainted (dumps floatText value)) := by
  have comma : Closed (lit ", ") := closed_plain (by decide +kernel)
  induction value using Json.inductionOn with
  | null =>
    rw [dumps]
    exact ⟨closed_plain (by decide +kernel), fun infinite => absurd rfl infinite⟩
  | bool value =>
    refine ⟨?_, fun infinite => absurd rfl infinite⟩
    rw [dumps]
    cases value <;> exact closed_plain (by decide +kernel)
  | int value =>
    refine ⟨?_, fun infinite => absurd rfl infinite⟩
    rw [dumps, ofInt_text]
    exact (sober_numeric (written_numberOf value).numeric).closed
  | float value =>
    rw [dumps]
    cases finite : value.isFinite with
    | false =>
      obtain ⟨closed, tainted⟩ := tainted_words (floatstr_infinite floatText finite)
      exact ⟨closed, fun _ => tainted⟩
    | true =>
      obtain ⟨parts, written, _, text⟩ := repr value finite
      rw [floatstr_finite floatText finite, text]
      exact ⟨(sober_numeric written.numeric).closed, fun infinite => absurd finite infinite⟩
  | str value =>
    exact ⟨(sober_string (chars_escapeText value)).closed, fun infinite => absurd rfl infinite⟩
  | arr items inductionHypothesis =>
    rw [dumps, dumpsItems_eq_map, finite_arr]
    obtain ⟨closed, tainted⟩ := closed_joined comma (List.forall_mem_map.mpr
      (fun item member => (inductionHypothesis item member).1))
    obtain ⟨whole, carried⟩ := @closed_between 0x5B 0x5D _ (by decide) (by decide) closed
    refine ⟨whole, fun infinite => carried (tainted ?_)⟩
    push Not at infinite
    obtain ⟨item, member, infinite⟩ := infinite
    exact ⟨_, List.mem_map_of_mem member, (inductionHypothesis item member).2 infinite⟩
  | obj members inductionHypothesis =>
    rw [dumps, dumpsMembers_eq_map, finite_obj]
    have named : ∀ key : Str, Closed (encodeText key ++ lit ": ") :=
      fun key => (sober_string (chars_escapeText key)).closed.append
        (closed_plain (by decide +kernel))
    obtain ⟨closed, tainted⟩ := closed_joined comma (List.forall_mem_map.mpr
      (fun member inside => (named member.1).append (inductionHypothesis member inside).1))
    obtain ⟨whole, carried⟩ := @closed_between 0x7B 0x7D _ (by decide) (by decide) closed
    refine ⟨whole, fun infinite => carried (tainted ?_)⟩
    push Not at infinite
    obtain ⟨member, inside, infinite⟩ := infinite
    exact ⟨_, List.mem_map_of_mem inside,
      ((inductionHypothesis member inside).2 infinite).right (named member.1)⟩

/-- What is written is standard JSON exactly if all numbers are finite. -/
theorem valid_dumps_iff (value : Json) :
    Valid .value (dumps floatText value) ↔ Finite value := by
  constructor
  · intro valid
    by_contra infinite
    exact ((dumps_closed repr value).2 infinite).not_sober valid.sober
  · exact valid_dumps repr

/-- Nothing that is written is a control character: it stays on its line.

Proof: by induction on the value. -/
theorem dumps_line (value : Json) : ∀ point ∈ dumps floatText value, 0x20 ≤ point.val := by
  have word : ∀ {text : Str}, text.all (fun point => decide (0x20 ≤ point.val)) = true →
      ∀ point ∈ text, 0x20 ≤ point.val :=
    fun all point member => of_decide_eq_true (List.all_eq_true.mp all point member)
  have number : ∀ {number : Number}, Written number → ∀ point ∈ number.text, 0x20 ≤ point.val := by
    intro number written point member
    have numeric := written.numeric point member
    simp only [isNumeric, isDigit, Bool.or_eq_true, decide_eq_true_eq] at numeric
    omega
  have words : ∀ text ∈ [lit "NaN", lit "Infinity", lit "-Infinity"], ∀ point ∈ text,
      0x20 ≤ point.val := by
    simp only [List.forall_mem_cons, List.not_mem_nil, false_imp_iff, implies_true, and_true]
    exact ⟨word (by decide +kernel), word (by decide +kernel), word (by decide +kernel)⟩
  have comma : ∀ point ∈ lit ", ", 0x20 ≤ point.val := word (by decide +kernel)
  have colon : ∀ point ∈ lit ": ", 0x20 ≤ point.val := word (by decide +kernel)
  have enclosed : ∀ {opening closing : CodePoint} {texts : List Str}, 0x20 ≤ opening.val →
      0x20 ≤ closing.val → (∀ text ∈ texts, ∀ point ∈ text, 0x20 ≤ point.val) →
      ∀ point ∈ [opening] ++ List.intercalate (lit ", ") texts ++ [closing], 0x20 ≤ point.val := by
    intro opening closing texts opens closes each
    simp only [List.forall_mem_append, List.forall_mem_singleton]
    exact ⟨⟨opens, forall_mem_joined comma each⟩, closes⟩
  induction value using Json.inductionOn with
  | null => exact word (by rw [dumps]; decide +kernel)
  | bool value =>
    rw [dumps]
    cases value <;> exact word (by decide +kernel)
  | int value =>
    rw [dumps, ofInt_text]
    exact number (written_numberOf value)
  | float value =>
    rw [dumps]
    cases finite : value.isFinite with
    | false => exact words _ (floatstr_infinite floatText finite)
    | true =>
      obtain ⟨parts, written, _, text⟩ := repr value finite
      rw [floatstr_finite floatText finite, text]
      exact number written
  | str value =>
    rw [dumps]
    exact encodeText_line value
  | arr items inductionHypothesis =>
    rw [dumps, dumpsItems_eq_map]
    exact enclosed (by decide) (by decide) (List.forall_mem_map.mpr inductionHypothesis)
  | obj members inductionHypothesis =>
    rw [dumps, dumpsMembers_eq_map]
    refine enclosed (by decide) (by decide) (List.forall_mem_map.mpr (fun member inside => ?_))
    simp only [List.forall_mem_append]
    exact ⟨⟨encodeText_line member.1, colon⟩, inductionHypothesis member inside⟩

end

end JsonWriter

end Library
