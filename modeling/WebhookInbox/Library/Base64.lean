import WebhookInbox.Library.Text

/-!
# Base64

Encoding with padding, and the lenient decoding of Python's `b64decode`: it skips
characters outside the alphabet, stops at the padding that completes a group, and
refuses a group that is left incomplete. What `encode` writes is read back.
-/

namespace Library.Base64

/-- The character of a value below 64. -/
def digit (value : Nat) : CodePoint :=
  if value < 26 then Fin.ofNat _ (0x41 + value)
  else if value < 52 then Fin.ofNat _ (0x61 + (value - 26))
  else if value < 62 then Fin.ofNat _ (0x30 + (value - 52))
  else if value = 62 then 0x2B
  else 0x2F

/-- The value of a character of the alphabet. -/
def digitValue (point : CodePoint) : Option Nat :=
  if 0x41 ≤ point.val ∧ point.val ≤ 0x5A then some (point.val - 0x41)
  else if 0x61 ≤ point.val ∧ point.val ≤ 0x7A then some (point.val - 0x61 + 26)
  else if 0x30 ≤ point.val ∧ point.val ≤ 0x39 then some (point.val - 0x30 + 52)
  else if point.val = 0x2B then some 62
  else if point.val = 0x2F then some 63
  else none

/-- The padding character. -/
def pad : CodePoint := 0x3D

/-- `base64.b64encode(raw)` as text. -/
def encode : Bytes → Str
  | [] => []
  | [a] => [digit (a.toNat / 4), digit (a.toNat % 4 * 16), pad, pad]
  | [a, b] =>
      [digit (a.toNat / 4), digit (a.toNat % 4 * 16 + b.toNat / 16), digit (b.toNat % 16 * 4), pad]
  | a :: b :: c :: rest =>
      digit (a.toNat / 4) :: digit (a.toNat % 4 * 16 + b.toNat / 16) ::
        digit (b.toNat % 16 * 4 + c.toNat / 64) :: digit (c.toNat % 64) :: encode rest

/-- The reader of the lenient decoder. It knows its place in the group of four,
the bits left over from the last character, and how much padding it has met. -/
def decodeFrom (place left pads : Nat) : Str → Option Bytes
  | [] => if place = 0 then some [] else none
  | point :: rest =>
      if point = pad then
        if 2 ≤ place then
          if 4 ≤ place + (pads + 1) then some [] else decodeFrom place left (pads + 1) rest
        else decodeFrom place left pads rest
      else
        match digitValue point with
        | none => decodeFrom place left pads rest
        | some value =>
            if place = 0 then decodeFrom 1 value 0 rest
            else if place = 1 then
              (decodeFrom 2 (value % 16) 0 rest).map (UInt8.ofNat (left * 4 + value / 16) :: ·)
            else if place = 2 then
              (decodeFrom 3 (value % 4) 0 rest).map (UInt8.ofNat (left * 16 + value / 4) :: ·)
            else (decodeFrom 0 0 0 rest).map (UInt8.ofNat (left * 64 + value) :: ·)

/-- `base64.b64decode(text)`. Text outside ASCII is refused. -/
def decode (text : Str) : Option Bytes :=
  if text.all (fun point => decide (point.val < 128)) then decodeFrom 0 0 0 text else none

/-- The reader recognises every character that the writer uses. -/
theorem digitValue_digit {value : Nat} (inside : value < 64) : digitValue (digit value) = some value := by
  have table : ∀ value < 64, digitValue (digit value) = some value := by decide
  exact table value inside

/-- Digits are ASCII and none of them is the padding. -/
theorem digit_plain (value : Nat) : (digit value).val < 128 ∧ digit value ≠ pad := by
  have table : ∀ value < 64, (digit value).val < 128 ∧ digit value ≠ pad := by decide
  by_cases inside : value < 64
  · exact table value inside
  · have last : digit value = digit 63 := by
      have notLess : ¬ value < 26 ∧ ¬ value < 52 ∧ ¬ value < 62 ∧ ¬ value = 62 := by omega
      simp [digit, notLess]
    rw [last]
    exact table 63 (by omega)

/-- One step of the reader on a digit. -/
theorem decodeFrom_digit {value : Nat} (inside : value < 64) (place left pads : Nat) (rest : Str) :
    decodeFrom place left pads (digit value :: rest) =
      if place = 0 then decodeFrom 1 value 0 rest
      else if place = 1 then
        (decodeFrom 2 (value % 16) 0 rest).map (UInt8.ofNat (left * 4 + value / 16) :: ·)
      else if place = 2 then
        (decodeFrom 3 (value % 4) 0 rest).map (UInt8.ofNat (left * 16 + value / 4) :: ·)
      else (decodeFrom 0 0 0 rest).map (UInt8.ofNat (left * 64 + value) :: ·) := by
  rw [decodeFrom, if_neg (digit_plain value).2, digitValue_digit inside]

section
variable {value : Nat} (inside : value < 64) (left pads : Nat) (rest : Str)
include inside

/-- The first character of a group is kept. -/
theorem decodeFrom_first :
    decodeFrom 0 left pads (digit value :: rest) = decodeFrom 1 value 0 rest := by
  rw [decodeFrom_digit inside, if_pos rfl]

/-- The second one completes a byte. -/
theorem decodeFrom_second : decodeFrom 1 left pads (digit value :: rest) =
    (decodeFrom 2 (value % 16) 0 rest).map (UInt8.ofNat (left * 4 + value / 16) :: ·) := by
  rw [decodeFrom_digit inside, if_neg one_ne_zero, if_pos rfl]

/-- So does the third one. -/
theorem decodeFrom_third : decodeFrom 2 left pads (digit value :: rest) =
    (decodeFrom 3 (value % 4) 0 rest).map (UInt8.ofNat (left * 16 + value / 4) :: ·) := by
  rw [decodeFrom_digit inside, if_neg two_ne_zero, if_neg (by omega), if_pos rfl]

/-- The fourth one ends the group. -/
theorem decodeFrom_fourth : decodeFrom 3 left pads (digit value :: rest) =
    (decodeFrom 0 0 0 rest).map (UInt8.ofNat (left * 64 + value) :: ·) := by
  rw [decodeFrom_digit inside, if_neg three_ne_zero, if_neg (by omega), if_neg (by omega)]

end

/-- Padding completes a group of two or of three characters. -/
theorem decodeFrom_pad (left : Nat) :
    decodeFrom 2 left 0 [pad, pad] = some [] ∧ decodeFrom 3 left 0 [pad] = some [] := by
  constructor <;> simp [decodeFrom]

/-- A byte is given by its number. -/
theorem ofNat_eq {value : Nat} {byte : UInt8} (same : value = byte.toNat) :
    UInt8.ofNat value = byte := by
  rw [same, UInt8.ofNat_toNat]

/-- The reader returns the bytes that were written, group by group. -/
theorem decodeFrom_encode (raw : Bytes) : decodeFrom 0 0 0 (encode raw) = some raw := by
  have split : ∀ a b : UInt8, UInt8.ofNat (a.toNat / 4 * 4 + (a.toNat % 4 * 16 + b.toNat / 16) / 16) =
      a := by
    intro a b
    have small := b.toNat_lt
    exact ofNat_eq (by omega)
  induction raw using encode.induct with
  | case1 => rfl
  | case2 a =>
    have small := a.toNat_lt
    have first : UInt8.ofNat (a.toNat / 4 * 4 + a.toNat % 4 * 16 / 16) = a := ofNat_eq (by omega)
    rw [encode, decodeFrom_first (by omega), decodeFrom_second (by omega), (decodeFrom_pad _).1,
      Option.map_some, first]
  | case3 a b =>
    have smallA := a.toNat_lt
    have smallB := b.toNat_lt
    have second : UInt8.ofNat ((a.toNat % 4 * 16 + b.toNat / 16) % 16 * 16 +
        b.toNat % 16 * 4 / 4) = b := ofNat_eq (by omega)
    rw [encode, decodeFrom_first (by omega), decodeFrom_second (by omega),
      decodeFrom_third (by omega), (decodeFrom_pad _).2, Option.map_some, Option.map_some,
      split, second]
  | case4 a b c rest inductionHypothesis =>
    have smallA := a.toNat_lt
    have smallB := b.toNat_lt
    have smallC := c.toNat_lt
    have second : UInt8.ofNat ((a.toNat % 4 * 16 + b.toNat / 16) % 16 * 16 +
        (b.toNat % 16 * 4 + c.toNat / 64) / 4) = b := ofNat_eq (by omega)
    have third : UInt8.ofNat ((b.toNat % 16 * 4 + c.toNat / 64) % 4 * 64 + c.toNat % 64) = c :=
      ofNat_eq (by omega)
    rw [encode, decodeFrom_first (by omega), decodeFrom_second (by omega),
      decodeFrom_third (by omega), decodeFrom_fourth (by omega), inductionHypothesis,
      Option.map_some, Option.map_some, Option.map_some, split, second, third]

/-- Encoded text is ASCII. -/
theorem encode_ascii (raw : Bytes) : Text.Ascii (encode raw) := by
  induction raw using encode.induct with
  | case1 =>
    intro point member
    cases member
  | case2 a => simp [encode, Text.Ascii, (digit_plain _).1, pad]
  | case3 a b => simp [encode, Text.Ascii, (digit_plain _).1, pad]
  | case4 a b c rest inductionHypothesis =>
    simpa [encode, Text.Ascii, (digit_plain _).1] using inductionHypothesis

/-- What was encoded decodes to itself. -/
theorem decode_encode (raw : Bytes) : decode (encode raw) = some raw := by
  have ascii : (encode raw).all (fun point => decide (point.val < 128)) = true := by
    rw [List.all_eq_true]
    intro point member
    exact decide_eq_true (encode_ascii raw point member)
  rw [decode, if_pos ascii]
  exact decodeFrom_encode raw

end Library.Base64
