import WebhookInbox.Library.Fallible
import WebhookInbox.Library.Json

/-!
# The grammar behind the reader

`Derives` relates a text to the syntax tree of the phrase it starts with and to
the text that is left. Its objects still list repeated keys; `merged` gives the
value. `readValue_derives` shows that whatever the reader accepts is derived, and
`parse_not_exhausted` that its fuel never runs out. A property of JSON text is
proved by induction on the derivation, without the reader.
-/

namespace Library.Json

open Fallible

/-! ## What the tokens consume -/

/-- The characters that numbers are made of. -/
def isNumeric (point : CodePoint) : Bool :=
  isDigit point || decide (point.val = 0x2B ∨ point.val = 0x2D ∨ point.val = 0x2E ∨
    point.val = 0x45 ∨ point.val = 0x65)

/-- A part of a number: the text is the part and what is left, and the part is
made of numeric characters. -/
def Part (text part after : Str) : Prop :=
  text = part ++ after ∧ ∀ point ∈ part, isNumeric point = true

/-- The part that is not there. -/
theorem Part.absent (text : Str) : Part text [] text :=
  ⟨rfl, by simp⟩

/-- Digits are numeric. -/
theorem isNumeric_of_isDigit {point : CodePoint} (digit : isDigit point = true) :
    isNumeric point = true := by
  simp [isNumeric, digit]

/-- A run of digits is a part. -/
theorem digits_part (text : Str) :
    Part text (text.takeWhile isDigit) (text.dropWhile isDigit) :=
  ⟨List.takeWhile_append_dropWhile.symm, fun _ member =>
    isNumeric_of_isDigit (List.mem_takeWhile_imp member)⟩

/-- Parts that follow each other make one part. -/
theorem Part.append {text first middle second after : Str} (left : Part text first middle)
    (right : Part middle second after) : Part text (first ++ second) after := by
  refine ⟨by rw [left.1, right.1, List.append_assoc], ?_⟩
  intro point member
  rcases List.mem_append.mp member with early | late
  · exact left.2 point early
  · exact right.2 point late

/-- A numeric character is a part. -/
theorem Part.single {point : CodePoint} (numeric : isNumeric point = true) (rest : Str) :
    Part (point :: rest) [point] rest :=
  ⟨rfl, by simpa using numeric⟩

/-- A fraction is a part. -/
theorem readFraction_part (text : Str) :
    Part text (readFraction text).1 (readFraction text).2 := by
  unfold readFraction
  split
  · rename_i point digit rest
    split
    · rename_i starts
      have numeric : isNumeric point = true := by simp [isNumeric, starts.1]
      exact (Part.single numeric _).append (digits_part _)
    · exact Part.absent _
  · exact Part.absent _

/-- The sign of an exponent is a part. -/
theorem readSign_part (text : Str) : Part text (readSign text).1 (readSign text).2 := by
  unfold readSign
  split
  · rename_i sign rest
    split
    · rename_i isSign
      have numeric : isNumeric sign = true := by
        rcases isSign with plus | minus
        · simp [isNumeric, plus]
        · simp [isNumeric, minus]
      exact Part.single numeric rest
    · exact Part.absent _
  · exact Part.absent _

/-- An exponent is a part. -/
theorem readExponent_part (text : Str) :
    Part text (readExponent text).1 (readExponent text).2 := by
  unfold readExponent
  split
  · rename_i letter rest
    simp only
    split
    · rename_i starts
      have numeric : isNumeric letter = true := by
        rcases starts.1 with lower | upper
        · simp [isNumeric, lower]
        · simp [isNumeric, upper]
      exact ((Part.single numeric rest).append (readSign_part rest)).append (digits_part _)
    · exact Part.absent _
  · exact Part.absent _

/-- A number consumes a nonempty run of numeric characters. -/
theorem readNumber_part {text after : Str} {number : Number}
    (read : readNumber text = some (number, after)) :
    ∃ first rest, Part text (first :: rest) after := by
  have signed : ∃ sign, Part text sign
      (if Text.startsWith text (lit "-") = true then text.drop 1 else text) := by
    by_cases minus : Text.startsWith text (lit "-") = true
    · obtain ⟨unsigned, whole⟩ := (Text.startsWith_iff _ _).mp minus
      refine ⟨[CodePoint.ofChar '-'], ?_⟩
      rw [if_pos minus]
      subst whole
      exact Part.single (by decide) unsigned
    · exact ⟨[], by rw [if_neg minus]; exact Part.absent text⟩
  obtain ⟨sign, signPart⟩ := signed
  simp only [readNumber] at read
  split at read
  · cases read
  · rename_i first rest unsigned
    rw [unsigned] at signPart
    split at read
    · rename_i digit
      obtain ⟨whole, middle, wholeRead, wholePart⟩ : ∃ whole middle,
          (if first.val = 0x30 then ([first], rest)
            else (first :: rest.takeWhile isDigit, rest.dropWhile isDigit)) = (whole, middle) ∧
          Part (first :: rest) (first :: whole.drop 1) middle := by
        by_cases zero : first.val = 0x30
        · exact ⟨_, _, if_pos zero, Part.single (isNumeric_of_isDigit digit) rest⟩
        · refine ⟨_, _, if_neg zero, ?_⟩
          exact (Part.single (isNumeric_of_isDigit digit) rest).append (digits_part rest)
      rw [wholeRead] at read
      obtain ⟨_, rfl⟩ := Prod.mk.inj (Option.some.inj read)
      have whole := ((signPart.append wholePart).append (readFraction_part middle)).append
        (readExponent_part _)
      cases consumed : sign with
      | nil => exact ⟨_, _, by simpa [consumed] using whole⟩
      | cons head tail => exact ⟨_, _, by simpa [consumed] using whole⟩
    · cases read

/-- A word consumes its own characters. -/
theorem readWord_part {text after : Str} {value : Json}
    (read : readWord text = some (value, after)) :
    ∃ word, (word, value) ∈ words ∧ text = word ++ after := by
  obtain ⟨⟨word, meaning⟩, found, same⟩ := Option.map_eq_some_iff.mp read
  obtain ⟨rfl, rfl⟩ := Prod.mk.inj same
  have starts : Text.startsWith text word = true := by simpa using List.find?_some found
  obtain ⟨rest, whole⟩ := (Text.startsWith_iff _ _).mp starts
  refine ⟨word, List.mem_of_find?_eq_some found, ?_⟩
  rw [← whole]
  simp

/-- Four hexadecimal digits, none of which is a quote or a backslash. -/
theorem hex4_consumes {text after : Str} {value : Nat} (read : hex4 text = some (value, after)) :
    ∃ digits, text = digits ++ after ∧
      ∀ point ∈ digits, point.val ≠ 0x22 ∧ point.val ≠ 0x5C := by
  have plain : ∀ {point : CodePoint} {digit : Nat}, hexValue point = some digit →
      point.val ≠ 0x22 ∧ point.val ≠ 0x5C := by
    intro point digit isDigit
    constructor <;> intro same <;> simp [hexValue, same] at isDigit
  unfold hex4 at read
  split at read
  · rename_i a b c d rest
    cases first : hexValue a with
    | none => simp [first] at read
    | some x =>
      cases second : hexValue b with
      | none => simp [first, second] at read
      | some y =>
        cases third : hexValue c with
        | none => simp [first, second, third] at read
        | some z =>
          cases fourth : hexValue d with
          | none => simp [first, second, third, fourth] at read
          | some w =>
            simp only [first, second, third, fourth, Option.bind_eq_bind, Option.bind_some,
              Option.pure_def, Option.some.injEq, Prod.mk.injEq] at read
            obtain ⟨_, rfl⟩ := read
            refine ⟨[a, b, c, d], rfl, ?_⟩
            intro point member
            simp only [List.mem_cons, List.not_mem_nil, or_false] at member
            rcases member with rfl | rfl | rfl | rfl
            · exact plain first
            · exact plain second
            · exact plain third
            · exact plain fourth
  · cases read

/-- A second escape consumes a backslash, its letter and four digits. -/
theorem lowEscape_consumes {text after : Str} {value : Nat}
    (read : lowEscape text = some (value, after)) :
    ∃ slash letter digits, text = slash :: letter :: digits ++ after ∧ slash.val = 0x5C ∧
      letter.val = 0x75 ∧ ∀ point ∈ digits, point.val ≠ 0x22 ∧ point.val ≠ 0x5C := by
  unfold lowEscape at read
  split at read
  · rename_i slash letter rest
    split at read
    · rename_i marked
      obtain ⟨digits, rfl, plain⟩ := hex4_consumes (Option.filter_eq_some_iff.mp read).1
      exact ⟨slash, letter, digits, rfl, marked.1, marked.2, plain⟩
    · cases read
  · cases read

/-- What follows a backslash: one letter, the digits that belong to it, and for a
surrogate pair the second escape. -/
theorem unescape_consumes {text after : Str} {char : CodePoint}
    (read : unescape text = some (char, after)) :
    ∃ letter digits middle, text = letter :: digits ++ middle ∧
      (∀ point ∈ digits, point.val ≠ 0x22 ∧ point.val ≠ 0x5C) ∧
      (middle = after ∨ ∃ value, lowEscape middle = some (value, after)) := by
  unfold unescape at read
  split at read
  · cases read
  · rename_i letter rest
    split at read
    · cases unit : hex4 rest with
      | none =>
        simp only [unit, Option.bind_eq_bind, Option.bind_none] at read
        cases read
      | some result =>
        obtain ⟨value, middle⟩ := result
        obtain ⟨digits, rfl, plain⟩ := hex4_consumes unit
        refine ⟨letter, digits, middle, rfl, plain, ?_⟩
        cases low : lowEscape middle with
        | none =>
          simp only [unit, low, Option.bind_eq_bind, Option.bind_some, Option.pure_def,
            Option.some.injEq, Prod.mk.injEq] at read
          exact .inl read.2
        | some result =>
          obtain ⟨lowValue, final⟩ := result
          by_cases high : 0xD800 ≤ value ∧ value ≤ 0xDBFF
          · simp only [unit, low, Option.bind_eq_bind, Option.bind_some, Option.pure_def, high,
              and_self, ↓reduceIte, Option.some.injEq, Prod.mk.injEq] at read
            exact .inr ⟨lowValue, by rw [read.2]⟩
          · simp only [unit, low, Option.bind_eq_bind, Option.bind_some, Option.pure_def, high,
              ↓reduceIte, Option.some.injEq, Prod.mk.injEq] at read
            exact .inl read.2
    · obtain ⟨point, _, same⟩ := Option.map_eq_some_iff.mp read
      obtain ⟨_, rfl⟩ := Prod.mk.inj same
      exact ⟨letter, [], rest, rfl, by simp, .inl rfl⟩

/-- An escape consumes at least its letter. -/
theorem unescape_shorter {text after : Str} {char : CodePoint}
    (read : unescape text = some (char, after)) : after.length < text.length := by
  obtain ⟨letter, digits, middle, rfl, _, rfl | ⟨value, low⟩⟩ := unescape_consumes read
  · simp only [List.length_append, List.length_cons]
    omega
  · obtain ⟨slash, second, others, rfl, _⟩ := lowEscape_consumes low
    simp only [List.length_append, List.length_cons]
    omega

/-! ## Derivations -/

/-- A string from after its opening quote: its characters and what is left. -/
inductive Quoted : Str → Str → Str → Prop where
  | close {quote : CodePoint} {rest : Str} (isQuote : quote.val = 0x22) :
      Quoted (quote :: rest) [] rest
  | escape {slash char : CodePoint} {rest after chars final : Str} (isSlash : slash.val = 0x5C)
      (unescaped : unescape rest = some (char, after)) (tail : Quoted after chars final) :
      Quoted (slash :: rest) (char :: chars) final
  | plain {point : CodePoint} {rest chars final : Str} (notQuote : point.val ≠ 0x22)
      (notSlash : point.val ≠ 0x5C) (notControl : 0x20 ≤ point.val)
      (tail : Quoted rest chars final) : Quoted (point :: rest) (point :: chars) final

/-- What a text can start with: a value, the items of an array with its closing
bracket, or the members of an object with its closing brace. -/
inductive Phrase where
  | value (tree : Json)
  | items (trees : List Json)
  | members (pairs : List (Str × Json))

/-- The most containers around any place of a phrase, its own not counted. -/
def Phrase.depth : Phrase → Nat
  | .value tree => tree.depth
  | .items trees => depthItems trees
  | .members pairs => depthMembers pairs

/-- The grammar. Text, phrase, and the text that is left after it. -/
inductive Derives (reader : Reader) : Str → Phrase → Str → Prop where
  | string {quote : CodePoint} {rest chars after : Str} (isQuote : quote.val = 0x22)
      (quoted : Quoted rest chars after) : Derives reader (quote :: rest) (.value (.str chars)) after
  | word {text after : Str} {tree : Json} (read : readWord text = some (tree, after)) :
      Derives reader text (.value tree) after
  | number {text after : Str} {number : Number} {tree : Json}
      (read : readNumber text = some (number, after))
      (valued : numberValue reader number = .ok tree) : Derives reader text (.value tree) after
  | emptyArray {bracket close : CodePoint} {rest after : Str} (opens : bracket.val = 0x5B)
      (follows : skipBlank rest = close :: after) (closes : close.val = 0x5D) :
      Derives reader (bracket :: rest) (.value (.arr [])) after
  | array {bracket : CodePoint} {rest after : Str} {trees : List Json} (opens : bracket.val = 0x5B)
      (listed : Derives reader (skipBlank rest) (.items trees) after) :
      Derives reader (bracket :: rest) (.value (.arr trees)) after
  | lastItem {text middle after : Str} {close : CodePoint} {tree : Json}
      (first : Derives reader text (.value tree) middle)
      (follows : skipBlank middle = close :: after) (closes : close.val = 0x5D) :
      Derives reader text (.items [tree]) after
  | nextItem {text middle rest after : Str} {comma : CodePoint} {tree : Json} {trees : List Json}
      (first : Derives reader text (.value tree) middle)
      (follows : skipBlank middle = comma :: rest) (separates : comma.val = 0x2C)
      (listed : Derives reader (skipBlank rest) (.items trees) after) :
      Derives reader text (.items (tree :: trees)) after
  | emptyObject {brace close : CodePoint} {rest after : Str} (opens : brace.val = 0x7B)
      (follows : skipBlank rest = close :: after) (closes : close.val = 0x7D) :
      Derives reader (brace :: rest) (.value (.obj [])) after
  | object {brace : CodePoint} {rest after : Str} {pairs : List (Str × Json)}
      (opens : brace.val = 0x7B) (listed : Derives reader (skipBlank rest) (.members pairs) after) :
      Derives reader (brace :: rest) (.value (.obj pairs)) after
  | lastMember {quote colon close : CodePoint} {rest key afterKey afterColon middle after : Str}
      {tree : Json} (isQuote : quote.val = 0x22) (quoted : Quoted rest key afterKey)
      (named : skipBlank afterKey = colon :: afterColon) (isColon : colon.val = 0x3A)
      (first : Derives reader (skipBlank afterColon) (.value tree) middle)
      (follows : skipBlank middle = close :: after) (closes : close.val = 0x7D) :
      Derives reader (quote :: rest) (.members [(key, tree)]) after
  | nextMember {quote colon comma : CodePoint}
      {rest key afterKey afterColon middle next after : Str} {tree : Json}
      {pairs : List (Str × Json)} (isQuote : quote.val = 0x22) (quoted : Quoted rest key afterKey)
      (named : skipBlank afterKey = colon :: afterColon) (isColon : colon.val = 0x3A)
      (first : Derives reader (skipBlank afterColon) (.value tree) middle)
      (follows : skipBlank middle = comma :: next) (separates : comma.val = 0x2C)
      (listed : Derives reader (skipBlank next) (.members pairs) after) :
      Derives reader (quote :: rest) (.members ((key, tree) :: pairs)) after

/-- Accepted strings are derived. -/
theorem readString_quoted {fuel : Nat} {text chars after : Str}
    (read : readString fuel text = .ok (chars, after)) : Quoted text chars after := by
  induction fuel generalizing text chars after with
  | zero => cases read
  | succ fuel inductionHypothesis =>
    cases text with
    | nil => cases read
    | cons point rest =>
      simp only [readString] at read
      by_cases isQuote : point.val = 0x22
      · rw [if_pos isQuote] at read
        obtain ⟨rfl, rfl⟩ := Prod.mk.inj (Except.ok.inj read)
        exact .close isQuote
      · rw [if_neg isQuote] at read
        by_cases isSlash : point.val = 0x5C
        · rw [if_pos isSlash] at read
          cases unescaped : unescape rest with
          | none => simp [unescaped] at read
          | some result =>
            obtain ⟨char, next⟩ := result
            simp only [unescaped] at read
            obtain ⟨⟨tail, final⟩, readTail, result⟩ := bind_ok read
            obtain ⟨rfl, rfl⟩ := Prod.mk.inj (Except.ok.inj result)
            exact .escape isSlash unescaped (inductionHypothesis readTail)
        · rw [if_neg isSlash] at read
          by_cases control : point.val < 0x20
          · rw [if_pos control] at read
            cases read
          · rw [if_neg control] at read
            obtain ⟨⟨tail, final⟩, readTail, result⟩ := bind_ok read
            obtain ⟨rfl, rfl⟩ := Prod.mk.inj (Except.ok.inj result)
            exact .plain isQuote isSlash (Nat.le_of_not_lt control) (inductionHypothesis readTail)

/-- A word or a number is a value without containers, equal to its own tree. -/
theorem leaf_of_words {word : Str} {value : Json} (member : (word, value) ∈ words) :
    merged value = value ∧ depth value = 0 := by
  simp only [words, List.mem_cons, Prod.mk.injEq, List.not_mem_nil, or_false] at member
  rcases member with ⟨_, rfl⟩ | ⟨_, rfl⟩ | ⟨_, rfl⟩ | ⟨_, rfl⟩ | ⟨_, rfl⟩ | ⟨_, rfl⟩ <;>
    exact ⟨rfl, rfl⟩

theorem leaf_of_number {reader : Reader} {number : Number} {value : Json}
    (valued : numberValue reader number = .ok value) : merged value = value ∧ depth value = 0 := by
  unfold numberValue at valued
  split at valued
  · split at valued
    · cases valued
    · obtain rfl := Except.ok.inj valued
      exact ⟨rfl, rfl⟩
  · obtain rfl := Except.ok.inj valued
    exact ⟨rfl, rfl⟩

/-- What the five readers accept with some fuel is derived. The value is that of
the derived tree, and the tree has no more containers than the limit admits. -/
structure Sound (reader : Reader) (fuel : Nat) : Prop where
  value : ∀ {limit text value after}, readValue reader fuel limit text = .ok (value, after) →
    ∃ tree, Derives reader text (.value tree) after ∧ merged tree = value ∧ depth tree ≤ limit
  items : ∀ {limit text values after}, readItems reader fuel limit text = .ok (values, after) →
    ∃ trees, Derives reader text (.items trees) after ∧ mergedItems trees = values ∧
      depthItems trees ≤ limit
  array : ∀ {limit text values after}, readArray reader fuel limit text = .ok (values, after) →
    (∃ close, text = close :: after ∧ close.val = 0x5D ∧ values = []) ∨
      ∃ trees, Derives reader text (.items trees) after ∧ mergedItems trees = values ∧
        depthItems trees ≤ limit
  members : ∀ {limit text pairs after}, readMembers reader fuel limit text = .ok (pairs, after) →
    ∃ trees, Derives reader text (.members trees) after ∧ mergedMembers trees = pairs ∧
      depthMembers trees ≤ limit
  object : ∀ {limit text pairs after}, readObject reader fuel limit text = .ok (pairs, after) →
    (∃ close, text = close :: after ∧ close.val = 0x7D ∧ pairs = []) ∨
      ∃ trees, Derives reader text (.members trees) after ∧ mergedMembers trees = pairs ∧
        depthMembers trees ≤ limit

/-- With one more unit of fuel the value reader stays sound. -/
theorem Sound.succ_value {reader : Reader} {fuel : Nat} (sound : Sound reader fuel)
    {limit : Nat} {text after : Str} {value : Json}
    (read : readValue reader (fuel + 1) limit text = .ok (value, after)) :
    ∃ tree, Derives reader text (.value tree) after ∧ merged tree = value ∧ depth tree ≤ limit := by
  cases text with
  | nil =>
    simp only [readValue] at read
    cases read
  | cons point rest =>
    simp only [readValue] at read
    by_cases isQuote : point.val = 0x22
    · rw [if_pos isQuote] at read
      obtain ⟨⟨chars, final⟩, readChars, result⟩ := bind_ok read
      obtain ⟨rfl, rfl⟩ := Prod.mk.inj (Except.ok.inj result)
      exact ⟨.str chars, .string isQuote (readString_quoted readChars), rfl, Nat.zero_le _⟩
    rw [if_neg isQuote] at read
    by_cases isBrace : point.val = 0x7B
    · rw [if_pos isBrace] at read
      by_cases spent : limit = 0
      · rw [if_pos spent] at read
        cases read
      · rw [if_neg spent] at read
        obtain ⟨⟨pairs, final⟩, readPairs, result⟩ := bind_ok read
        obtain ⟨rfl, rfl⟩ := Prod.mk.inj (Except.ok.inj result)
        rcases sound.object readPairs with ⟨close, follows, closes, rfl⟩ | ⟨trees, derived, rfl, deep⟩
        · refine ⟨.obj [], .emptyObject isBrace follows closes, rfl, ?_⟩
          simp only [depth, depthMembers]
          omega
        · refine ⟨.obj trees, .object isBrace derived, rfl, ?_⟩
          simp only [depth]
          omega
    rw [if_neg isBrace] at read
    by_cases isBracket : point.val = 0x5B
    · rw [if_pos isBracket] at read
      by_cases spent : limit = 0
      · rw [if_pos spent] at read
        cases read
      · rw [if_neg spent] at read
        obtain ⟨⟨values, final⟩, readValues, result⟩ := bind_ok read
        obtain ⟨rfl, rfl⟩ := Prod.mk.inj (Except.ok.inj result)
        rcases sound.array readValues with ⟨close, follows, closes, rfl⟩ | ⟨trees, derived, rfl, deep⟩
        · refine ⟨.arr [], .emptyArray isBracket follows closes, rfl, ?_⟩
          simp only [depth, depthItems]
          omega
        · refine ⟨.arr trees, .array isBracket derived, rfl, ?_⟩
          simp only [depth]
          omega
    rw [if_neg isBracket] at read
    cases isWord : readWord (point :: rest) with
    | some result =>
      simp only [isWord, Except.ok.injEq] at read
      subst read
      obtain ⟨word, member, _⟩ := readWord_part isWord
      obtain ⟨same, flat⟩ := leaf_of_words member
      exact ⟨value, .word isWord, same, by omega⟩
    | none =>
      simp only [isWord] at read
      cases isNumber : readNumber (point :: rest) with
      | none => simp [isNumber] at read
      | some result =>
        obtain ⟨number, final⟩ := result
        simp only [isNumber] at read
        obtain ⟨numeric, valued, result⟩ := bind_ok read
        obtain ⟨rfl, rfl⟩ := Prod.mk.inj (Except.ok.inj result)
        obtain ⟨same, flat⟩ := leaf_of_number valued
        exact ⟨numeric, .number isNumber valued, same, by omega⟩

/-- So do the items of an array. -/
theorem Sound.succ_items {reader : Reader} {fuel : Nat} (sound : Sound reader fuel)
    {limit : Nat} {text after : Str} {values : List Json}
    (read : readItems reader (fuel + 1) limit text = .ok (values, after)) :
    ∃ trees, Derives reader text (.items trees) after ∧ mergedItems trees = values ∧
      depthItems trees ≤ limit := by
  simp only [readItems] at read
  obtain ⟨⟨value, middle⟩, readFirst, read⟩ := bind_ok read
  obtain ⟨tree, first, rfl, deep⟩ := sound.value readFirst
  cases follows : skipBlank middle with
  | nil => simp [follows] at read
  | cons point rest =>
    simp only [follows] at read
    by_cases closes : point.val = 0x5D
    · rw [if_pos closes] at read
      obtain ⟨rfl, rfl⟩ := Prod.mk.inj (Except.ok.inj read)
      refine ⟨[tree], .lastItem first follows closes, rfl, ?_⟩
      simpa [depthItems] using deep
    rw [if_neg closes] at read
    by_cases separates : point.val = 0x2C
    · rw [if_pos separates] at read
      obtain ⟨⟨others, final⟩, readRest, result⟩ := bind_ok read
      obtain ⟨rfl, rfl⟩ := Prod.mk.inj (Except.ok.inj result)
      obtain ⟨trees, listed, rfl, deepRest⟩ := sound.items readRest
      refine ⟨tree :: trees, .nextItem first follows separates listed, rfl, ?_⟩
      simp only [depthItems]
      omega
    · rw [if_neg separates] at read
      cases read

/-- An array is empty or lists items. -/
theorem Sound.succ_array {reader : Reader} {fuel : Nat} (sound : Sound reader fuel)
    {limit : Nat} {text after : Str} {values : List Json}
    (read : readArray reader (fuel + 1) limit text = .ok (values, after)) :
    (∃ close, text = close :: after ∧ close.val = 0x5D ∧ values = []) ∨
      ∃ trees, Derives reader text (.items trees) after ∧ mergedItems trees = values ∧
        depthItems trees ≤ limit := by
  cases text with
  | nil =>
    simp only [readArray] at read
    cases read
  | cons point rest =>
    simp only [readArray] at read
    by_cases closes : point.val = 0x5D
    · rw [if_pos closes] at read
      obtain ⟨rfl, rfl⟩ := Prod.mk.inj (Except.ok.inj read)
      exact .inl ⟨point, rfl, closes, rfl⟩
    · rw [if_neg closes] at read
      exact .inr (sound.items read)

/-- The members of an object are derived one by one. -/
theorem Sound.succ_members {reader : Reader} {fuel : Nat} (sound : Sound reader fuel)
    {limit : Nat} {text after : Str} {pairs : List (Str × Json)}
    (read : readMembers reader (fuel + 1) limit text = .ok (pairs, after)) :
    ∃ trees, Derives reader text (.members trees) after ∧ mergedMembers trees = pairs ∧
      depthMembers trees ≤ limit := by
  cases text with
  | nil =>
    simp only [readMembers] at read
    cases read
  | cons quote text =>
    simp only [readMembers] at read
    by_cases isQuote : quote.val = 0x22
    case neg =>
      rw [if_neg isQuote] at read
      cases read
    rw [if_pos isQuote] at read
    obtain ⟨⟨key, afterKey⟩, readKey, read⟩ := bind_ok read
    have quoted := readString_quoted readKey
    cases named : skipBlank afterKey with
    | nil => simp [named] at read
    | cons colon afterColon =>
      simp only [named] at read
      by_cases isColon : colon.val = 0x3A
      case neg =>
        rw [if_neg isColon] at read
        cases read
      rw [if_pos isColon] at read
      obtain ⟨⟨value, middle⟩, readFirst, read⟩ := bind_ok read
      obtain ⟨tree, first, rfl, deep⟩ := sound.value readFirst
      cases follows : skipBlank middle with
      | nil => simp [follows] at read
      | cons point rest =>
        simp only [follows] at read
        by_cases closes : point.val = 0x7D
        · rw [if_pos closes] at read
          obtain ⟨rfl, rfl⟩ := Prod.mk.inj (Except.ok.inj read)
          refine ⟨[(key, tree)], .lastMember isQuote quoted named isColon first follows closes,
            rfl, ?_⟩
          simpa [depthMembers] using deep
        rw [if_neg closes] at read
        by_cases separates : point.val = 0x2C
        · rw [if_pos separates] at read
          obtain ⟨⟨others, final⟩, readRest, result⟩ := bind_ok read
          obtain ⟨rfl, rfl⟩ := Prod.mk.inj (Except.ok.inj result)
          obtain ⟨trees, listed, rfl, deepRest⟩ := sound.members readRest
          refine ⟨(key, tree) :: trees,
            .nextMember isQuote quoted named isColon first follows separates listed, rfl, ?_⟩
          simp only [depthMembers]
          omega
        · rw [if_neg separates] at read
          cases read

/-- An object is empty or lists members. -/
theorem Sound.succ_object {reader : Reader} {fuel : Nat} (sound : Sound reader fuel)
    {limit : Nat} {text after : Str} {pairs : List (Str × Json)}
    (read : readObject reader (fuel + 1) limit text = .ok (pairs, after)) :
    (∃ close, text = close :: after ∧ close.val = 0x7D ∧ pairs = []) ∨
      ∃ trees, Derives reader text (.members trees) after ∧ mergedMembers trees = pairs ∧
        depthMembers trees ≤ limit := by
  cases text with
  | nil =>
    simp only [readObject] at read
    cases read
  | cons point rest =>
    simp only [readObject] at read
    by_cases closes : point.val = 0x7D
    · rw [if_pos closes] at read
      obtain ⟨rfl, rfl⟩ := Prod.mk.inj (Except.ok.inj read)
      exact .inl ⟨point, rfl, closes, rfl⟩
    · rw [if_neg closes] at read
      exact .inr (sound.members read)

/-- The readers are sound with any fuel. -/
theorem sound (reader : Reader) (fuel : Nat) : Sound reader fuel := by
  induction fuel with
  | zero =>
    constructor
    · intro limit text value after read
      simp only [readValue] at read
      cases read
    · intro limit text values after read
      simp only [readItems] at read
      cases read
    · intro limit text values after read
      simp only [readArray] at read
      cases read
    · intro limit text pairs after read
      simp only [readMembers] at read
      cases read
    · intro limit text pairs after read
      simp only [readObject] at read
      cases read
  | succ fuel inductionHypothesis =>
    exact ⟨inductionHypothesis.succ_value, inductionHypothesis.succ_items,
      inductionHypothesis.succ_array, inductionHypothesis.succ_members,
      inductionHypothesis.succ_object⟩

/-- Accepted text is derived, up to blanks around it, and is the value of its
tree. The tree has no more containers than the interpreter admits. -/
theorem parse_derives {reader : Reader} {text : Str} {value : Json}
    (parsed : parse reader text = .ok value) :
    ∃ tree after, Derives reader (skipBlank text) (.value tree) after ∧ skipBlank after = [] ∧
      merged tree = value ∧ depth tree ≤ reader.recursionLimit := by
  unfold parse at parsed
  obtain ⟨⟨read, after⟩, readFirst, parsed⟩ := bind_ok parsed
  obtain ⟨tree, derived, rfl, deep⟩ := (sound reader _).value readFirst
  by_cases ended : skipBlank after = []
  · simp only [ended, ↓reduceIte] at parsed
    exact ⟨tree, after, derived, ended, Except.ok.inj parsed, deep⟩
  · simp only [ended, ↓reduceIte] at parsed
    cases parsed

/-! ## The value is no deeper than its tree -/

/-- A member is no deeper than all of them. -/
theorem depth_le_depthMembers {pairs : List (Str × Json)} {pair : Str × Json}
    (member : pair ∈ pairs) : depth pair.2 ≤ depthMembers pairs := by
  induction pairs with
  | nil => cases member
  | cons first rest inductionHypothesis =>
    obtain ⟨key, value⟩ := first
    simp only [depthMembers]
    rcases List.mem_cons.mp member with rfl | later
    · exact Nat.le_max_left _ _
    · exact (inductionHypothesis later).trans (Nat.le_max_right _ _)

/-- Members chosen among others are no deeper than those. -/
theorem depthMembers_le {pairs chosen : List (Str × Json)}
    (among : ∀ pair ∈ chosen, pair ∈ pairs) : depthMembers chosen ≤ depthMembers pairs := by
  induction chosen with
  | nil => exact Nat.zero_le _
  | cons first rest inductionHypothesis =>
    have firstInside := depth_le_depthMembers (among first List.mem_cons_self)
    have restInside := inductionHypothesis (fun pair member =>
      among pair (List.mem_cons_of_mem _ member))
    obtain ⟨key, value⟩ := first
    exact Nat.max_le.mpr ⟨firstInside, restInside⟩

mutual

/-- Merging repeated keys drops members and so never adds depth. -/
theorem depth_merged_le : (tree : Json) → depth (merged tree) ≤ depth tree
  | .null | .bool _ | .int _ | .float _ | .str _ => Nat.le_refl _
  | .arr trees => by
      have inner := depthItems_merged_le trees
      simp only [merged, depth]
      omega
  | .obj pairs => by
      have inner := depthMembers_merged_le pairs
      have chosen : depthMembers (Dict.ofPairs (mergedMembers pairs)) ≤
          depthMembers (mergedMembers pairs) := depthMembers_le (fun _ => Dict.mem_ofPairs)
      simp only [merged, depth]
      omega

theorem depthItems_merged_le : (trees : List Json) → depthItems (mergedItems trees) ≤ depthItems trees
  | [] => Nat.le_refl _
  | tree :: rest => by
      have first := depth_merged_le tree
      have others := depthItems_merged_le rest
      simp only [mergedItems, depthItems]
      omega

theorem depthMembers_merged_le : (pairs : List (Str × Json)) →
    depthMembers (mergedMembers pairs) ≤ depthMembers pairs
  | [] => Nat.le_refl _
  | (key, tree) :: rest => by
      have first := depth_merged_le tree
      have others := depthMembers_merged_le rest
      simp only [mergedMembers, depthMembers]
      omega

end

/-- No accepted value is deeper than the interpreter admits. -/
theorem parse_depth {reader : Reader} {text : Str} {value : Json}
    (parsed : parse reader text = .ok value) : depth value ≤ reader.recursionLimit := by
  obtain ⟨tree, _, _, _, rfl, deep⟩ := parse_derives parsed
  exact (depth_merged_le tree).trans deep

/-- No accepted value has a key twice. -/
theorem parse_distinct {reader : Reader} {text : Str} {value : Json}
    (parsed : parse reader text = .ok value) : distinct value = true := by
  obtain ⟨tree, _, _, _, rfl, _⟩ := parse_derives parsed
  exact distinct_merged tree

/-- Nor has one that is read from bytes. -/
theorem loads_distinct {reader : Reader} {raw : Bytes} {value : Json}
    (loaded : loads reader raw = .ok value) : distinct value = true := by
  unfold loads at loaded
  split at loaded
  · cases loaded
  · exact parse_distinct loaded

/-! ## The fuel never runs out -/

/-- A string consumes at least its closing quote. -/
theorem Quoted.shorter {text chars after : Str} (quoted : Quoted text chars after) :
    after.length < text.length := by
  induction quoted with
  | close => simp
  | escape _ unescaped _ inductionHypothesis =>
    have shorter := unescape_shorter unescaped
    simp only [List.length_cons]
    omega
  | plain _ _ _ _ inductionHypothesis =>
    simp only [List.length_cons]
    omega

/-- Skipping blanks does not lengthen a text. -/
theorem skipBlank_length (text : Str) : (skipBlank text).length ≤ text.length :=
  (List.dropWhile_sublist isBlank).length_le

/-- What follows the first character after blanks is shorter. -/
theorem skipBlank_shorter {text rest : Str} {point : CodePoint}
    (follows : skipBlank text = point :: rest) : rest.length < text.length := by
  have bound := skipBlank_length text
  rw [follows, List.length_cons] at bound
  omega

/-- Every phrase consumes some of its text. -/
theorem Derives.shorter {reader : Reader} {text after : Str} {phrase : Phrase}
    (derived : Derives reader text phrase after) : after.length < text.length := by
  induction derived with
  | string _ quoted =>
    have shorter := quoted.shorter
    simp only [List.length_cons]
    omega
  | word read =>
    obtain ⟨word, member, rfl⟩ := readWord_part read
    have nonempty : word ≠ [] := by
      rintro rfl
      revert member
      simp [words, lit]
    have positive := List.length_pos_iff.mpr nonempty
    simp only [List.length_append]
    omega
  | number read _ =>
    obtain ⟨first, rest, rfl, _⟩ := readNumber_part read
    simp only [List.length_append, List.length_cons]
    omega
  | emptyArray _ follows _ =>
    have shorter := skipBlank_shorter follows
    simp only [List.length_cons]
    omega
  | array _ _ inductionHypothesis =>
    have shorter := inductionHypothesis.trans_le (skipBlank_length _)
    simp only [List.length_cons]
    omega
  | lastItem _ follows _ inductionHypothesis =>
    have shorter := skipBlank_shorter follows
    omega
  | nextItem _ follows _ _ firstShorter restShorter =>
    have commaShorter := skipBlank_shorter follows
    have shorter := restShorter.trans_le (skipBlank_length _)
    omega
  | emptyObject _ follows _ =>
    have shorter := skipBlank_shorter follows
    simp only [List.length_cons]
    omega
  | object _ _ inductionHypothesis =>
    have shorter := inductionHypothesis.trans_le (skipBlank_length _)
    simp only [List.length_cons]
    omega
  | lastMember _ quoted named _ _ follows _ inductionHypothesis =>
    have keyShorter := quoted.shorter
    have colonShorter := skipBlank_shorter named
    have valueShorter := inductionHypothesis.trans_le (skipBlank_length _)
    have closeShorter := skipBlank_shorter follows
    simp only [List.length_cons]
    omega
  | nextMember _ quoted named _ _ follows _ _ firstShorter restShorter =>
    have keyShorter := quoted.shorter
    have colonShorter := skipBlank_shorter named
    have valueShorter := firstShorter.trans_le (skipBlank_length _)
    have commaShorter := skipBlank_shorter follows
    have shorter := restShorter.trans_le (skipBlank_length _)
    simp only [List.length_cons]
    omega

/-- A string needs one unit of fuel for each of its characters. -/
theorem readString_not_exhausted {fuel : Nat} {text : Str} (enough : text.length < fuel) :
    readString fuel text ≠ .error .exhausted := by
  induction fuel generalizing text with
  | zero => omega
  | succ fuel inductionHypothesis =>
    intro failed
    cases text with
    | nil =>
      simp only [readString] at failed
      cases failed
    | cons point rest =>
      simp only [List.length_cons] at enough
      simp only [readString] at failed
      split at failed
      · cases failed
      split at failed
      · split at failed
        · cases failed
        · rename_i char after unescaped
          have shorter := unescape_shorter unescaped
          rcases bind_error failed with tail | ⟨_, _, done⟩
          · exact inductionHypothesis (by omega) tail
          · cases done
      split at failed
      · cases failed
      · rcases bind_error failed with tail | ⟨_, _, done⟩
        · exact inductionHypothesis (by omega) tail
        · cases done

/-- The fuel suffices for texts of up to this length. Up to three readers call
each other before a character is consumed, so each character takes three units. -/
structure Enough (reader : Reader) (fuel : Nat) : Prop where
  value : ∀ {limit text}, 3 * text.length + 1 ≤ fuel →
    readValue reader fuel limit text ≠ .error .exhausted
  items : ∀ {limit text}, 3 * text.length + 2 ≤ fuel →
    readItems reader fuel limit text ≠ .error .exhausted
  array : ∀ {limit text}, 3 * text.length + 3 ≤ fuel →
    readArray reader fuel limit text ≠ .error .exhausted
  members : ∀ {limit text}, 3 * text.length + 2 ≤ fuel →
    readMembers reader fuel limit text ≠ .error .exhausted
  object : ∀ {limit text}, 3 * text.length + 3 ≤ fuel →
    readObject reader fuel limit text ≠ .error .exhausted

/-- What was read of a value leaves a shorter text. -/
theorem readValue_shorter {reader : Reader} {fuel limit : Nat} {text after : Str} {value : Json}
    (read : readValue reader fuel limit text = .ok (value, after)) : after.length < text.length := by
  obtain ⟨_, derived, _⟩ := (sound reader fuel).value read
  exact derived.shorter

/-- More fuel suffices for longer texts: the value reader. -/
theorem Enough.succ_value {reader : Reader} {fuel limit : Nat} {text : Str}
    (enough : Enough reader fuel) (bound : 3 * text.length + 1 ≤ fuel + 1) :
    readValue reader (fuel + 1) limit text ≠ .error .exhausted := by
  intro failed
  cases text with
  | nil =>
    simp only [readValue] at failed
    cases failed
  | cons point rest =>
    simp only [List.length_cons] at bound
    have blanks := skipBlank_length rest
    simp only [readValue] at failed
    split at failed
    · rcases bind_error failed with chars | ⟨_, _, done⟩
      · exact readString_not_exhausted (by omega) chars
      · cases done
    split at failed
    · split at failed
      · cases failed
      · rcases bind_error failed with inner | ⟨_, _, done⟩
        · exact enough.object (by omega) inner
        · cases done
    split at failed
    · split at failed
      · cases failed
      · rcases bind_error failed with inner | ⟨_, _, done⟩
        · exact enough.array (by omega) inner
        · cases done
    split at failed
    · cases failed
    split at failed
    · cases failed
    · rcases bind_error failed with valued | ⟨_, _, done⟩
      · unfold numberValue at valued
        split at valued
        · split at valued <;> cases valued
        · cases valued
      · cases done

/-- The same for the items of an array. -/
theorem Enough.succ_items {reader : Reader} {fuel limit : Nat} {text : Str}
    (enough : Enough reader fuel) (bound : 3 * text.length + 2 ≤ fuel + 1) :
    readItems reader (fuel + 1) limit text ≠ .error .exhausted := by
  intro failed
  simp only [readItems] at failed
  rcases bind_error failed with first | ⟨⟨value, middle⟩, readFirst, failed⟩
  · exact enough.value (by omega) first
  have shorter := readValue_shorter readFirst
  cases follows : skipBlank middle with
  | nil => simp [follows] at failed
  | cons point rest =>
    have commaShorter := skipBlank_shorter follows
    have blanks := skipBlank_length rest
    simp only [follows] at failed
    split at failed
    · cases failed
    split at failed
    · rcases bind_error failed with inner | ⟨_, _, done⟩
      · exact enough.items (by omega) inner
      · cases done
    · cases failed

/-- The same for the members of an object. -/
theorem Enough.succ_members {reader : Reader} {fuel limit : Nat} {text : Str}
    (enough : Enough reader fuel) (bound : 3 * text.length + 2 ≤ fuel + 1) :
    readMembers reader (fuel + 1) limit text ≠ .error .exhausted := by
  intro failed
  cases text with
  | nil =>
    simp only [readMembers] at failed
    cases failed
  | cons quote text =>
    simp only [List.length_cons] at bound
    simp only [readMembers] at failed
    split at failed
    case isFalse => cases failed
    rcases bind_error failed with chars | ⟨⟨key, afterKey⟩, readKey, failed⟩
    · exact readString_not_exhausted (by omega) chars
    have keyShorter := (readString_quoted readKey).shorter
    cases named : skipBlank afterKey with
    | nil => simp [named] at failed
    | cons colon afterColon =>
      have colonShorter := skipBlank_shorter named
      have blanks := skipBlank_length afterColon
      simp only [named] at failed
      split at failed
      case isFalse => cases failed
      rcases bind_error failed with first | ⟨⟨value, middle⟩, readFirst, failed⟩
      · exact enough.value (by omega) first
      have valueShorter := readValue_shorter readFirst
      cases follows : skipBlank middle with
      | nil => simp [follows] at failed
      | cons point rest =>
        have commaShorter := skipBlank_shorter follows
        have restBlanks := skipBlank_length rest
        simp only [follows] at failed
        split at failed
        · cases failed
        split at failed
        · rcases bind_error failed with inner | ⟨_, _, done⟩
          · exact enough.members (by omega) inner
          · cases done
        · cases failed

/-- Three units of fuel for each character are enough. -/
theorem enough (reader : Reader) (fuel : Nat) : Enough reader fuel := by
  induction fuel with
  | zero => constructor <;> intro limit text bound <;> omega
  | succ fuel inductionHypothesis =>
    refine ⟨inductionHypothesis.succ_value, inductionHypothesis.succ_items, ?_,
      inductionHypothesis.succ_members, ?_⟩
    · intro limit text bound failed
      cases text with
      | nil =>
        simp only [readArray] at failed
        cases failed
      | cons point rest =>
        simp only [readArray] at failed
        split at failed
        · cases failed
        · exact inductionHypothesis.items (by omega) failed
    · intro limit text bound failed
      cases text with
      | nil =>
        simp only [readObject] at failed
        cases failed
      | cons point rest =>
        simp only [readObject] at failed
        split at failed
        · cases failed
        · exact inductionHypothesis.members (by omega) failed

/-- The fuel that `parse` provides never runs out. -/
theorem parse_not_exhausted (reader : Reader) (text : Str) :
    parse reader text ≠ .error .exhausted := by
  intro failed
  have blanks := skipBlank_length text
  rcases bind_error failed with first | ⟨⟨value, after⟩, _, ended⟩
  · exact (enough reader _).value (by omega) first
  · simp only at ended
    split at ended <;> cases ended

/-! ## Reading forward -/

section
variable {reader : Reader} {fuel limit : Nat} {point : CodePoint}

/-- A string is read by reading its characters. -/
theorem readValue_string {rest chars after : Str} (isQuote : point.val = 0x22)
    (inner : readString fuel rest = .ok (chars, after)) :
    readValue reader (fuel + 1) limit (point :: rest) = .ok (.str chars, after) := by
  simp only [readValue, if_pos isQuote, inner]
  rfl

/-- A text that starts neither a string nor a container is read as a word. -/
theorem readValue_word {rest after : Str} {value : Json}
    (plain : point.val ≠ 0x22 ∧ point.val ≠ 0x7B ∧ point.val ≠ 0x5B)
    (word : readWord (point :: rest) = some (value, after)) :
    readValue reader (fuel + 1) limit (point :: rest) = .ok (value, after) := by
  obtain ⟨notQuote, notBrace, notBracket⟩ := plain
  simp only [readValue, if_neg notQuote, if_neg notBrace, if_neg notBracket, word]

/-- If it starts with no word, it is read as a number. -/
theorem readValue_number {rest after : Str} {number : Number} {value : Json}
    (plain : point.val ≠ 0x22 ∧ point.val ≠ 0x7B ∧ point.val ≠ 0x5B)
    (noWord : readWord (point :: rest) = none)
    (parts : readNumber (point :: rest) = some (number, after))
    (valued : numberValue reader number = .ok value) :
    readValue reader (fuel + 1) limit (point :: rest) = .ok (value, after) := by
  obtain ⟨notQuote, notBrace, notBracket⟩ := plain
  simp only [readValue, if_neg notQuote, if_neg notBrace, if_neg notBracket, noWord, parts, valued]
  rfl

/-- An array is read by reading its items, if the limit admits one more container. -/
theorem readValue_array {rest after : Str} {values : List Json} (opens : point.val = 0x5B)
    (admitted : limit ≠ 0)
    (inner : readArray reader fuel (limit - 1) (skipBlank rest) = .ok (values, after)) :
    readValue reader (fuel + 1) limit (point :: rest) = .ok (.arr values, after) := by
  have notQuote : point.val ≠ 0x22 := by omega
  have notBrace : point.val ≠ 0x7B := by omega
  simp only [readValue, if_neg notQuote, if_neg notBrace, if_pos opens, if_neg admitted, inner]
  rfl

/-- The empty array. -/
theorem readArray_empty {rest : Str} (closes : point.val = 0x5D) :
    readArray reader (fuel + 1) limit (point :: rest) = .ok ([], rest) := by
  simp only [readArray, if_pos closes]

/-- An array that does not close at once has items. -/
theorem readArray_items {rest : Str} (continues : point.val ≠ 0x5D) :
    readArray reader (fuel + 1) limit (point :: rest) =
      readItems reader fuel limit (point :: rest) := by
  simp only [readArray, if_neg continues]

/-- The last item. -/
theorem readItems_last {text middle rest : Str} {value : Json}
    (first : readValue reader fuel limit text = .ok (value, middle))
    (follows : skipBlank middle = point :: rest) (closes : point.val = 0x5D) :
    readItems reader (fuel + 1) limit text = .ok ([value], rest) := by
  simp only [readItems, first, bind, Except.bind, follows, if_pos closes]
  rfl

/-- An item before others. -/
theorem readItems_next {text middle rest after : Str} {value : Json} {values : List Json}
    (first : readValue reader fuel limit text = .ok (value, middle))
    (follows : skipBlank middle = point :: rest) (separates : point.val = 0x2C)
    (others : readItems reader fuel limit (skipBlank rest) = .ok (values, after)) :
    readItems reader (fuel + 1) limit text = .ok (value :: values, after) := by
  have notClose : point.val ≠ 0x5D := by omega
  simp only [readItems, first, bind, Except.bind, follows, if_neg notClose, if_pos separates, others]
  rfl

/-- An object is read by reading its members, if the limit admits one more container. -/
theorem readValue_object {rest after : Str} {pairs : List (Str × Json)} (opens : point.val = 0x7B)
    (admitted : limit ≠ 0)
    (inner : readObject reader fuel (limit - 1) (skipBlank rest) = .ok (pairs, after)) :
    readValue reader (fuel + 1) limit (point :: rest) = .ok (.obj (Dict.ofPairs pairs), after) := by
  have notQuote : point.val ≠ 0x22 := by omega
  simp only [readValue, if_neg notQuote, if_pos opens, if_neg admitted, inner]
  rfl

/-- The empty object. -/
theorem readObject_empty {rest : Str} (closes : point.val = 0x7D) :
    readObject reader (fuel + 1) limit (point :: rest) = .ok ([], rest) := by
  simp only [readObject, if_pos closes]

/-- An object that does not close at once has members. -/
theorem readObject_members {rest : Str} (continues : point.val ≠ 0x7D) :
    readObject reader (fuel + 1) limit (point :: rest) =
      readMembers reader fuel limit (point :: rest) := by
  simp only [readObject, if_neg continues]

section
variable {quote colon : CodePoint} {text key afterKey afterColon middle rest : Str} {value : Json}
  (isQuote : quote.val = 0x22) (named : readString fuel text = .ok (key, afterKey))
  (valued : skipBlank afterKey = colon :: afterColon) (isColon : colon.val = 0x3A)
  (first : readValue reader fuel limit (skipBlank afterColon) = .ok (value, middle))
  (follows : skipBlank middle = point :: rest)

include isQuote named valued isColon first follows

/-- The last member. -/
theorem readMembers_last (closes : point.val = 0x7D) :
    readMembers reader (fuel + 1) limit (quote :: text) = .ok ([(key, value)], rest) := by
  simp only [readMembers, if_pos isQuote, named, bind, Except.bind, valued, if_pos isColon, first,
    follows, if_pos closes]
  rfl

/-- A member before others. -/
theorem readMembers_next {after : Str} {pairs : List (Str × Json)} (separates : point.val = 0x2C)
    (others : readMembers reader fuel limit (skipBlank rest) = .ok (pairs, after)) :
    readMembers reader (fuel + 1) limit (quote :: text) = .ok ((key, value) :: pairs, after) := by
  have notClose : point.val ≠ 0x7D := by omega
  simp only [readMembers, if_pos isQuote, named, bind, Except.bind, valued, if_pos isColon, first,
    follows, if_neg notClose, if_pos separates, others]
  rfl

end

end

end Library.Json
