import WebhookInbox.Library.Encoding
import WebhookInbox.Library.Dict

/-!
# JSON as Python reads it

`loads` follows the standard library's scanner: the grammar of JSON extended by
`NaN` and the infinities, strings without raw control characters, surrogate
escapes joined in pairs and otherwise kept, integers of unbounded size up to the
digit limit of the interpreter, and a repeated key taking its last value at its
first position.

The readers take fuel; `parse` gives them enough for the length of the text.
-/

namespace Library

/-- A binary64 number by its bits. -/
structure PyFloat where
  bits : BitVec 64
deriving DecidableEq

/-- `float("nan")` -/
def PyFloat.nan : PyFloat := ⟨0x7ff8000000000000⟩

/-- `float("inf")` and `float("-inf")` -/
def PyFloat.infinity (negative : Bool) : PyFloat :=
  ⟨if negative then 0xfff0000000000000 else 0x7ff0000000000000⟩

/-- The values that JSON text denotes in Python. Objects keep insertion order. -/
inductive Json where
  | null
  | bool (value : Bool)
  | int (value : Int)
  | float (value : PyFloat)
  | str (value : Str)
  | arr (items : List Json)
  | obj (members : List (Str × Json))

namespace Json

section
variable {motive : Json → Prop} (null : motive .null) (bool : ∀ value, motive (.bool value))
  (int : ∀ value, motive (.int value)) (float : ∀ value, motive (.float value))
  (str : ∀ value, motive (.str value))
  (arr : ∀ items, (∀ item ∈ items, motive item) → motive (.arr items))
  (obj : ∀ members, (∀ member ∈ members, motive member.2) → motive (.obj members))

include null bool int float str arr obj in
/-- Induction on a value, with the hypothesis for every item of an array and for every
value of an object. -/
theorem inductionOn (value : Json) : motive value :=
  @Json.rec motive (fun items => ∀ item ∈ items, motive item)
    (fun members => ∀ member ∈ members, motive member.2) (fun member => motive member.2)
    null bool int float str arr obj
    (List.forall_mem_nil _) (fun _ _ first rest => List.forall_mem_cons.mpr ⟨first, rest⟩)
    (List.forall_mem_nil _) (fun _ _ first rest => List.forall_mem_cons.mpr ⟨first, rest⟩)
    (fun _ _ held => held) value

end

mutual

/-- Greatest number of containers around any place of the value. -/
def depth : Json → Nat
  | .arr items => 1 + depthItems items
  | .obj members => 1 + depthMembers members
  | _ => 0

def depthItems : List Json → Nat
  | [] => 0
  | item :: rest => max (depth item) (depthItems rest)

def depthMembers : List (Str × Json) → Nat
  | [] => 0
  | (_, value) :: rest => max (depth value) (depthMembers rest)

end

mutual

/-- The value of a syntax tree: a repeated key takes its last value. -/
def merged : Json → Json
  | .arr items => .arr (mergedItems items)
  | .obj members => .obj (Dict.ofPairs (mergedMembers members))
  | .null => .null
  | .bool value => .bool value
  | .int value => .int value
  | .float value => .float value
  | .str value => .str value

def mergedItems : List Json → List Json
  | [] => []
  | item :: rest => merged item :: mergedItems rest

def mergedMembers : List (Str × Json) → List (Str × Json)
  | [] => []
  | (key, value) :: rest => (key, merged value) :: mergedMembers rest

end

mutual

/-- One check holds of every value that is no container, and one of the keys of every
object. -/
def everywhere (leaf : Json → Bool) (keys : List Str → Bool) : Json → Bool
  | .arr items => everywhereItems leaf keys items
  | .obj members => keys (members.map Prod.fst) && everywhereMembers leaf keys members
  | .null => leaf .null
  | .bool value => leaf (.bool value)
  | .int value => leaf (.int value)
  | .float value => leaf (.float value)
  | .str value => leaf (.str value)

def everywhereItems (leaf : Json → Bool) (keys : List Str → Bool) : List Json → Bool
  | [] => true
  | item :: rest => everywhere leaf keys item && everywhereItems leaf keys rest

def everywhereMembers (leaf : Json → Bool) (keys : List Str → Bool) : List (Str × Json) → Bool
  | [] => true
  | (_, value) :: rest => everywhere leaf keys value && everywhereMembers leaf keys rest

end

/-- No object has a key twice. -/
def distinct (value : Json) : Bool :=
  everywhere (fun _ => true) (fun keys => decide keys.Nodup) value

section
variable {leaf : Json → Bool} {keys : List Str → Bool}

/-- The checks hold of an array if they hold of each item. -/
theorem everywhere_arr (items : List Json) :
    everywhere leaf keys (.arr items) = true ↔
      ∀ item ∈ items, everywhere leaf keys item = true := by
  rw [everywhere]
  induction items with
  | nil => simp [everywhereItems]
  | cons item rest inductionHypothesis => simp [everywhereItems, inductionHypothesis]

/-- They hold of an object if they hold of its keys and of each value. -/
theorem everywhere_obj (members : List (Str × Json)) :
    everywhere leaf keys (.obj members) = true ↔
      keys (members.map Prod.fst) = true ∧
        ∀ member ∈ members, everywhere leaf keys member.2 = true := by
  have values : everywhereMembers leaf keys members = true ↔
      ∀ member ∈ members, everywhere leaf keys member.2 = true := by
    induction members with
    | nil => simp [everywhereMembers]
    | cons member rest inductionHypothesis => simp [everywhereMembers, inductionHypothesis]
  rw [everywhere, Bool.and_eq_true, values]

end

/-- Merging an array merges its items. -/
theorem mergedItems_eq_map (items : List Json) : mergedItems items = items.map merged := by
  induction items with
  | nil => rfl
  | cons item rest inductionHypothesis => simp [mergedItems, inductionHypothesis]

/-- Merging an object merges its values first. -/
theorem mergedMembers_eq_map (members : List (Str × Json)) :
    mergedMembers members = members.map (fun member => (member.1, merged member.2)) := by
  induction members with
  | nil => rfl
  | cons member rest inductionHypothesis => simp [mergedMembers, inductionHypothesis]

/-- A merged value has no key twice. -/
theorem distinct_merged (tree : Json) : distinct (merged tree) = true := by
  induction tree using inductionOn with
  | null => rfl
  | bool value => rfl
  | int value => rfl
  | float value => rfl
  | str value => rfl
  | arr items inductionHypothesis =>
    rw [merged, mergedItems_eq_map, distinct, everywhere_arr, List.forall_mem_map]
    exact inductionHypothesis
  | obj members inductionHypothesis =>
    rw [merged, mergedMembers_eq_map, distinct, everywhere_obj]
    refine ⟨decide_eq_true (Dict.nodup_keys_ofPairs _), fun member inDict => ?_⟩
    obtain ⟨source, stored, rfl⟩ := List.mem_map.mp (Dict.mem_ofPairs inDict)
    exact inductionHypothesis source stored

/-! ## Tokens -/

/-- The whitespace of JSON: space, tab, line feed, carriage return. -/
def isBlank (point : CodePoint) : Bool :=
  decide (point.val = 0x20 ∨ point.val = 0x09 ∨ point.val = 0x0A ∨ point.val = 0x0D)

def skipBlank (text : Str) : Str := text.dropWhile isBlank

def isDigit (point : CodePoint) : Bool := decide (0x30 ≤ point.val ∧ point.val ≤ 0x39)

/-- The value of a hexadecimal digit. -/
def hexValue (point : CodePoint) : Option Nat :=
  if 0x30 ≤ point.val ∧ point.val ≤ 0x39 then some (point.val - 0x30)
  else if 0x41 ≤ point.val ∧ point.val ≤ 0x46 then some (point.val - 0x37)
  else if 0x61 ≤ point.val ∧ point.val ≤ 0x66 then some (point.val - 0x57)
  else none

/-- Four hexadecimal digits and the text after them. -/
def hex4 : Str → Option (Nat × Str)
  | a :: b :: c :: d :: rest => do
      let a ← hexValue a
      let b ← hexValue b
      let c ← hexValue c
      let d ← hexValue d
      pure (((a * 16 + b) * 16 + c) * 16 + d, rest)
  | _ => none

/-- The character that a one-letter escape stands for. -/
def simpleEscape (point : CodePoint) : Option CodePoint :=
  if point.val = 0x22 ∨ point.val = 0x5C ∨ point.val = 0x2F then some point
  else if point.val = 0x62 then some 0x08
  else if point.val = 0x66 then some 0x0C
  else if point.val = 0x6E then some 0x0A
  else if point.val = 0x72 then some 0x0D
  else if point.val = 0x74 then some 0x09
  else none

/-- A second `\u` escape with a low surrogate, and the text after it. -/
def lowEscape : Str → Option (Nat × Str)
  | slash :: letter :: rest =>
      if slash.val = 0x5C ∧ letter.val = 0x75 then
        (hex4 rest).filter (fun read => decide (0xDC00 ≤ read.1 ∧ read.1 ≤ 0xDFFF))
      else none
  | _ => none

/-- The character of an escape, from the text after its backslash. A high
surrogate joins with a low one that follows at once; other surrogates stay. -/
def unescape : Str → Option (CodePoint × Str)
  | [] => none
  | letter :: rest =>
      if letter.val = 0x75 then do
        let (unit, after) ← hex4 rest
        match lowEscape after with
        | some (low, final) =>
            if 0xD800 ≤ unit ∧ unit ≤ 0xDBFF then
              pure (Fin.ofNat _ (0x10000 + (unit - 0xD800) * 1024 + (low - 0xDC00)), final)
            else pure (Fin.ofNat _ unit, after)
        | none => pure (Fin.ofNat _ unit, after)
      else (simpleEscape letter).map (fun point => (point, rest))

/-- The parts of a number: sign, whole part, fraction with its point, exponent
with its letter and sign. Absent parts are empty. -/
structure Number where
  negative : Bool
  whole : Str
  fraction : Str
  exponent : Str

/-- The text that a number was written as. -/
def Number.text (number : Number) : Str :=
  (if number.negative then lit "-" else []) ++ number.whole ++ number.fraction ++ number.exponent

/-- The fraction that starts a text, if a digit follows its point. -/
def readFraction : Str → Str × Str
  | point :: digit :: rest =>
      if point.val = 0x2E ∧ isDigit digit then
        (point :: (digit :: rest).takeWhile isDigit, (digit :: rest).dropWhile isDigit)
      else ([], point :: digit :: rest)
  | text => ([], text)

/-- The sign of an exponent. -/
def readSign : Str → Str × Str
  | sign :: rest => if sign.val = 0x2B ∨ sign.val = 0x2D then ([sign], rest) else ([], sign :: rest)
  | [] => ([], [])

/-- The exponent that starts a text, if it has a digit. -/
def readExponent : Str → Str × Str
  | letter :: rest =>
      let (sign, after) := readSign rest
      let digits := after.takeWhile isDigit
      if (letter.val = 0x65 ∨ letter.val = 0x45) ∧ digits ≠ [] then
        (letter :: sign ++ digits, after.dropWhile isDigit)
      else ([], letter :: rest)
  | [] => ([], [])

/-- The number that starts a text, and the text after it. -/
def readNumber (text : Str) : Option (Number × Str) :=
  let negative := Text.startsWith text (lit "-")
  let unsigned := if negative then text.drop 1 else text
  match unsigned with
  | [] => none
  | first :: rest =>
      if isDigit first then
        let (whole, after) :=
          if first.val = 0x30 then ([first], rest)
          else (first :: rest.takeWhile isDigit, rest.dropWhile isDigit)
        let (fraction, after) := readFraction after
        let (exponent, after) := readExponent after
        some (⟨negative, whole, fraction, exponent⟩, after)
      else none

/-- The value of decimal digits. -/
def decimal (digits : Str) : Nat := digits.foldl (fun value digit => value * 10 + (digit.val - 0x30)) 0

/-! ## The reader -/

/-- What `json.loads` raises. `exhausted` is the model's own: the fuel ran out. -/
inductive LoadsError where
  | jsonDecodeError
  | unicodeDecodeError
  | recursionError
  | valueError
  | exhausted
deriving DecidableEq

/-- The interpreter a text is read in: `float` of a number's text, and how many
nested containers the remaining stack admits. -/
structure Reader where
  floatOfText : Str → PyFloat
  recursionLimit : Nat

/-- The interpreter's limit on the digits of a converted integer. -/
def maxStrDigits : Nat := 4300

/-- The value of a number. Only a number without fraction and exponent is an
integer, and only an integer has a digit limit. -/
def numberValue (reader : Reader) (number : Number) : Except LoadsError Json :=
  if number.fraction = [] ∧ number.exponent = [] then
    if maxStrDigits < number.whole.length then .error .valueError
    else .ok (.int (if number.negative then -decimal number.whole else decimal number.whole))
  else .ok (.float (reader.floatOfText number.text))

/-- The words of the reader and their values. -/
def words : List (Str × Json) :=
  [(lit "null", .null), (lit "true", .bool true), (lit "false", .bool false),
    (lit "NaN", .float .nan), (lit "Infinity", .float (.infinity false)),
    (lit "-Infinity", .float (.infinity true))]

/-- The word that starts a text. -/
def readWord (text : Str) : Option (Json × Str) :=
  (words.find? (fun word => Text.startsWith text word.1)).map
    (fun word => (word.2, text.drop word.1.length))

/-- The characters of a string from the text after its opening quote. -/
def readString : Nat → Str → Except LoadsError (Str × Str)
  | 0, _ => .error .exhausted
  | _ + 1, [] => .error .jsonDecodeError
  | fuel + 1, point :: rest =>
      if point.val = 0x22 then .ok ([], rest)
      else if point.val = 0x5C then
        match unescape rest with
        | none => .error .jsonDecodeError
        | some (char, after) => do
            let (chars, final) ← readString fuel after
            pure (char :: chars, final)
      else if point.val < 0x20 then .error .jsonDecodeError
      else do
        let (chars, final) ← readString fuel rest
        pure (point :: chars, final)

mutual

/-- A value from the first character of its text. The limit counts the
containers that may still be opened around it. -/
def readValue (reader : Reader) : Nat → Nat → Str → Except LoadsError (Json × Str)
  | 0, _, _ => .error .exhausted
  | _ + 1, _, [] => .error .jsonDecodeError
  | fuel + 1, limit, point :: rest =>
      if point.val = 0x22 then do
        let (chars, after) ← readString fuel rest
        pure (.str chars, after)
      else if point.val = 0x7B then
        if limit = 0 then .error .recursionError
        else do
          let (members, after) ← readObject reader fuel (limit - 1) (skipBlank rest)
          pure (.obj (Dict.ofPairs members), after)
      else if point.val = 0x5B then
        if limit = 0 then .error .recursionError
        else do
          let (items, after) ← readArray reader fuel (limit - 1) (skipBlank rest)
          pure (.arr items, after)
      else
        match readWord (point :: rest) with
        | some read => .ok read
        | none =>
            match readNumber (point :: rest) with
            | none => .error .jsonDecodeError
            | some (number, after) => do
                let value ← numberValue reader number
                pure (value, after)

termination_by structural x => x

/-- The items of an array from its first item or its closing bracket. -/
def readArray (reader : Reader) : Nat → Nat → Str → Except LoadsError (List Json × Str)
  | 0, _, _ => .error .exhausted
  | _ + 1, _, [] => .error .jsonDecodeError
  | fuel + 1, limit, point :: rest =>
      if point.val = 0x5D then .ok ([], rest) else readItems reader fuel limit (point :: rest)

termination_by structural x => x

/-- One or more items and the closing bracket. -/
def readItems (reader : Reader) : Nat → Nat → Str → Except LoadsError (List Json × Str)
  | 0, _, _ => .error .exhausted
  | fuel + 1, limit, text => do
      let (item, after) ← readValue reader fuel limit text
      match skipBlank after with
      | [] => .error .jsonDecodeError
      | point :: rest =>
          if point.val = 0x5D then pure ([item], rest)
          else if point.val = 0x2C then do
            let (items, final) ← readItems reader fuel limit (skipBlank rest)
            pure (item :: items, final)
          else .error .jsonDecodeError

termination_by structural x => x

/-- The members of an object from its first key or its closing brace. -/
def readObject (reader : Reader) : Nat → Nat → Str → Except LoadsError (List (Str × Json) × Str)
  | 0, _, _ => .error .exhausted
  | _ + 1, _, [] => .error .jsonDecodeError
  | fuel + 1, limit, point :: rest =>
      if point.val = 0x7D then .ok ([], rest) else readMembers reader fuel limit (point :: rest)

termination_by structural x => x

/-- One or more members and the closing brace. -/
def readMembers (reader : Reader) : Nat → Nat → Str → Except LoadsError (List (Str × Json) × Str)
  | 0, _, _ => .error .exhausted
  | _ + 1, _, [] => .error .jsonDecodeError
  | fuel + 1, limit, quote :: text =>
      if quote.val = 0x22 then do
        let (key, afterKey) ← readString fuel text
        match skipBlank afterKey with
        | [] => .error .jsonDecodeError
        | colon :: afterColon =>
            if colon.val = 0x3A then do
              let (value, after) ← readValue reader fuel limit (skipBlank afterColon)
              match skipBlank after with
              | [] => .error .jsonDecodeError
              | point :: rest =>
                  if point.val = 0x7D then pure ([(key, value)], rest)
                  else if point.val = 0x2C then do
                    let (members, final) ← readMembers reader fuel limit (skipBlank rest)
                    pure ((key, value) :: members, final)
                  else .error .jsonDecodeError
            else .error .jsonDecodeError
      else .error .jsonDecodeError
termination_by structural x => x

end

/-- A whole text: one value with blanks around it. -/
def parse (reader : Reader) (text : Str) : Except LoadsError Json := do
  let (value, after) ← readValue reader (3 * text.length + 1) reader.recursionLimit (skipBlank text)
  if skipBlank after = [] then pure value else .error .jsonDecodeError

/-- `json.loads(raw)` on bytes. -/
def loads (reader : Reader) (raw : Bytes) : Except LoadsError Json :=
  match Encoding.decode (Encoding.detectEncoding raw) raw with
  | none => .error .unicodeDecodeError
  | some text => parse reader text

end Json

end Library
