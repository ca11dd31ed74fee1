import WebhookInbox.Library.Encoding

/-!
# Encodings with units of several bytes

In UTF-16 and UTF-32 an ASCII character occupies its own byte and zeros. `Spread`
states this of a decoder, for the first character of a text. In the other
direction, text without surrogates is read back from its units.
-/

namespace Library.Encoding

/-- The first character of a decoded text, if it is ASCII, is one byte among
zeros, and the rest of the text is decoded from the bytes after them. -/
def Spread (decoder : Bytes → Option Str) : Prop :=
  ∀ raw point tail, decoder raw = some (point :: tail) → point.val < 0x80 →
    ∃ before byte between rest, raw = before ++ byte :: (between ++ rest) ∧
      (∀ other ∈ before ++ between, other.toNat = 0) ∧ byte.toNat = point.val ∧
      decoder rest = some tail

/-- A small unit of two bytes is one byte and a zero. -/
theorem unit16_small {big : Bool} {first second : UInt8}
    (small : unit16 big first second < 0x80) :
    (first.toNat = 0 ∧ second.toNat = unit16 big first second) ∨
      (first.toNat = unit16 big first second ∧ second.toNat = 0) := by
  cases big <;> simp only [unit16] at small ⊢ <;> simp at small ⊢ <;> omega

/-- A number below the bound is the value of its code point. -/
theorem ofNat_val {value : Nat} (inside : value < 0x110000) :
    ((Fin.ofNat 0x110000 value : CodePoint)).val = value :=
  Nat.mod_eq_of_lt inside

/-- A joined text starts with its first unit, unless that is a surrogate. -/
theorem joinSurrogates_cons {units : List Nat} {point : CodePoint} {tail : Str}
    (bounded : ∀ unit ∈ units, unit < 0x10000) (joined : joinSurrogates units = point :: tail)
    (ascii : point.val < 0x80) :
    ∃ rest, units = point.val :: rest ∧ joinSurrogates rest = tail := by
  cases units with
  | nil => cases joined
  | cons unit others =>
    have unitBounded := bounded unit List.mem_cons_self
    cases others with
    | nil =>
      simp only [joinSurrogates, List.cons.injEq] at joined
      obtain ⟨rfl, rfl⟩ := joined
      exact ⟨[], by rw [ofNat_val (by omega)], rfl⟩
    | cons next rest =>
      have nextBounded := bounded next (List.mem_cons_of_mem _ List.mem_cons_self)
      simp only [joinSurrogates] at joined
      split at joined
      · rename_i paired
        obtain ⟨rfl, _⟩ := List.cons.inj joined
        rw [ofNat_val (by omega)] at ascii
        omega
      · obtain ⟨rfl, rfl⟩ := List.cons.inj joined
        exact ⟨next :: rest, by rw [ofNat_val (by omega)], rfl⟩

/-- Units of two bytes are below 65536. -/
theorem units16_bounded {big : Bool} {raw : Bytes} {units : List Nat}
    (read : units16 big raw = some units) : ∀ unit ∈ units, unit < 0x10000 := by
  induction raw using units16.induct generalizing units with
  | case1 =>
    obtain rfl := Option.some.inj read
    simp
  | case2 => cases read
  | case3 first second rest inductionHypothesis =>
    obtain ⟨others, readRest, rfl⟩ := Option.map_eq_some_iff.mp read
    have firstSmall := first.toNat_lt
    have secondSmall := second.toNat_lt
    intro unit member
    rcases List.mem_cons.mp member with rfl | later
    · cases big <;> simp only [unit16] <;> simp <;> omega
    · exact inductionHypothesis readRest unit later

/-- UTF-16 spreads its ASCII characters. -/
theorem spread_utf16 (big : Bool) : Spread (decodeUtf16 big) := by
  intro raw point tail decoded ascii
  obtain ⟨units, read, joined⟩ := Option.map_eq_some_iff.mp decoded
  obtain ⟨rest, rfl, joinedRest⟩ := joinSurrogates_cons (units16_bounded read) joined ascii
  match raw with
  | [] => cases read
  | [_] => cases read
  | first :: second :: others =>
    obtain ⟨units, readRest, same⟩ := Option.map_eq_some_iff.mp read
    obtain ⟨unit, rfl⟩ := List.cons.inj same
    have remaining : decodeUtf16 big others = some tail := by
      rw [decodeUtf16, readRest, Option.map_some, joinedRest]
    rw [← unit] at ascii
    rcases unit16_small ascii with ⟨zero, value⟩ | ⟨value, zero⟩
    · exact ⟨[first], second, [], others, rfl, by simpa using zero, value.trans unit, remaining⟩
    · exact ⟨[], first, [second], others, rfl, by simpa using zero, value.trans unit, remaining⟩

/-- UTF-32 spreads its ASCII characters. -/
theorem spread_utf32 (big : Bool) : Spread (decodeUtf32 big) := by
  intro raw point tail decoded ascii
  match raw with
  | [] => cases decoded
  | [_] => cases decoded
  | [_, _] => cases decoded
  | [_, _, _] => cases decoded
  | a :: b :: c :: d :: rest =>
    simp only [decodeUtf32] at decoded
    obtain ⟨first, made, read⟩ := Option.bind_eq_some_iff.mp decoded
    obtain ⟨others, readRest, same⟩ := Option.map_eq_some_iff.mp read
    obtain ⟨rfl, rfl⟩ := List.cons.inj same
    have value := codePoint?_val made
    cases big with
    | true =>
      simp only [↓reduceIte] at value
      refine ⟨[a, b, c], d, [], rest, rfl, ?_, by omega, readRest⟩
      simp only [List.append_nil, List.forall_mem_cons, List.not_mem_nil, false_imp_iff,
        implies_true, and_true]
      omega
    | false =>
      simp only [Bool.false_eq_true, ↓reduceIte] at value
      refine ⟨[], a, [b, c, d], rest, rfl, ?_, by omega, readRest⟩
      simp only [List.nil_append, List.forall_mem_cons, List.not_mem_nil, false_imp_iff,
        implies_true, and_true]
      omega

/-- The two bytes of a unit. -/
def bytes16 (big : Bool) (unit : Nat) : Bytes :=
  if big then [UInt8.ofNat (unit / 256), UInt8.ofNat (unit % 256)]
  else [UInt8.ofNat (unit % 256), UInt8.ofNat (unit / 256)]

/-- The four bytes of a code point below 65536. -/
def bytes32 (big : Bool) (value : Nat) : Bytes :=
  if big then [0, 0, UInt8.ofNat (value / 256), UInt8.ofNat (value % 256)]
  else [UInt8.ofNat (value % 256), UInt8.ofNat (value / 256), 0, 0]

/-- Units below the surrogates are joined one by one. -/
theorem joinSurrogates_plain {text : Str} (plain : ∀ point ∈ text, point.val < 0xD800) :
    joinSurrogates (text.map Fin.val) = text := by
  induction text with
  | nil => rfl
  | cons point rest inductionHypothesis =>
    have small := plain point List.mem_cons_self
    have others := inductionHypothesis (fun other member =>
      plain other (List.mem_cons_of_mem _ member))
    have same : (Fin.ofNat 0x110000 point.val : CodePoint) = point :=
      Fin.ext (ofNat_val point.isLt)
    cases rest with
    | nil => simp only [List.map_cons, List.map_nil, joinSurrogates, same]
    | cons next final =>
      have unpaired : ¬ (0xD800 ≤ point.val ∧ point.val ≤ 0xDBFF ∧ 0xDC00 ≤ next.val ∧
          next.val ≤ 0xDFFF) := by omega
      simp only [List.map_cons] at others
      simp only [List.map_cons, joinSurrogates, unpaired, ↓reduceIte, same, others]

/-- Text below the surrogates is read back from UTF-16. -/
theorem decodeUtf16_bytes (big : Bool) {text : Str} (plain : ∀ point ∈ text, point.val < 0xD800) :
    decodeUtf16 big (text.flatMap (fun point => bytes16 big point.val)) = some text := by
  have units : units16 big (text.flatMap (fun point => bytes16 big point.val)) =
      some (text.map Fin.val) := by
    induction text with
    | nil => rfl
    | cons point rest inductionHypothesis =>
      have small := plain point List.mem_cons_self
      have others := inductionHypothesis (fun other member =>
        plain other (List.mem_cons_of_mem _ member))
      have low : (UInt8.ofNat (point.val % 256)).toNat = point.val % 256 := by
        simp
      have high : (UInt8.ofNat (point.val / 256)).toNat = point.val / 256 := by
        simp only [UInt8.toNat_ofNat']
        omega
      have unit : unit16 big (UInt8.ofNat (if big then point.val / 256 else point.val % 256))
          (UInt8.ofNat (if big then point.val % 256 else point.val / 256)) = point.val := by
        cases big <;> simp only [unit16, low, high, Bool.false_eq_true, ↓reduceIte] <;> omega
      have bytes : bytes16 big point.val =
          [UInt8.ofNat (if big then point.val / 256 else point.val % 256),
            UInt8.ofNat (if big then point.val % 256 else point.val / 256)] := by
        cases big <;> rfl
      rw [List.flatMap_cons, bytes]
      simp only [List.cons_append, List.nil_append, units16, others, Option.map_some, unit,
        List.map_cons]
  rw [decodeUtf16, units, Option.map_some, joinSurrogates_plain plain]

/-- Text below 65536 is read back from UTF-32. -/
theorem decodeUtf32_bytes (big : Bool) {text : Str} (plain : ∀ point ∈ text, point.val < 0xD800) :
    decodeUtf32 big (text.flatMap (fun point => bytes32 big point.val)) = some text := by
  induction text with
  | nil => rfl
  | cons point rest inductionHypothesis =>
    have small := plain point List.mem_cons_self
    have others := inductionHypothesis (fun other member =>
      plain other (List.mem_cons_of_mem _ member))
    have low : (UInt8.ofNat (point.val % 256)).toNat = point.val % 256 := by
      simp
    have high : (UInt8.ofNat (point.val / 256)).toNat = point.val / 256 := by
      simp only [UInt8.toNat_ofNat']
      omega
    have made : codePoint? (point.val / 256 * 256 + point.val % 256) = some point := by
      have whole : point.val / 256 * 256 + point.val % 256 = point.val := by omega
      rw [whole, codePoint?, dif_pos point.isLt]
    have zero : (0 : UInt8).toNat = 0 := rfl
    rw [List.flatMap_cons]
    cases big with
    | true =>
      simp only [bytes32, ↓reduceIte, List.cons_append, List.nil_append, decodeUtf32, low, high,
        zero, Nat.zero_mul, Nat.zero_add, made, Option.bind_some]
      simp only [bytes32, ↓reduceIte] at others
      rw [others, Option.map_some]
    | false =>
      simp only [bytes32, Bool.false_eq_true, ↓reduceIte, List.cons_append, List.nil_append,
        decodeUtf32, low, high, zero, Nat.zero_mul, Nat.zero_add, made, Option.bind_some]
      simp only [bytes32, Bool.false_eq_true, ↓reduceIte] at others
      rw [others, Option.map_some]

/-- A text that is detected as marked UTF-16 starts with one of the two marks. -/
theorem detectEncoding_utf16 {raw : Bytes} (detected : detectEncoding raw = .utf16) :
    ∃ mark rest, (mark = [0xFE, 0xFF] ∨ mark = [0xFF, 0xFE]) ∧ raw = mark ++ rest := by
  unfold detectEncoding at detected
  split at detected
  · cases detected
  split at detected
  · rename_i marked
    rcases Bool.or_eq_true_iff.mp marked with big | little
    · obtain ⟨rest, rfl⟩ := List.isPrefixOf_iff_prefix.mp big
      exact ⟨_, rest, .inl rfl, rfl⟩
    · obtain ⟨rest, rfl⟩ := List.isPrefixOf_iff_prefix.mp little
      exact ⟨_, rest, .inr rfl, rfl⟩
  split at detected
  · cases detected
  split at detected
  · split at detected
    · cases detected
    · split at detected <;> cases detected
  · split at detected
    · split at detected <;> cases detected
    · split at detected
      · split at detected <;> cases detected
      · cases detected
  · cases detected

/-- The same for UTF-32. -/
theorem detectEncoding_utf32 {raw : Bytes} (detected : detectEncoding raw = .utf32) :
    ∃ mark rest, (mark = [0x00, 0x00, 0xFE, 0xFF] ∨ mark = [0xFF, 0xFE, 0x00, 0x00]) ∧
      raw = mark ++ rest := by
  unfold detectEncoding at detected
  split at detected
  · rename_i marked
    rcases Bool.or_eq_true_iff.mp marked with big | little
    · obtain ⟨rest, rfl⟩ := List.isPrefixOf_iff_prefix.mp big
      exact ⟨_, rest, .inl rfl, rfl⟩
    · obtain ⟨rest, rfl⟩ := List.isPrefixOf_iff_prefix.mp little
      exact ⟨_, rest, .inr rfl, rfl⟩
  split at detected
  · cases detected
  split at detected
  · cases detected
  split at detected
  · split at detected
    · cases detected
    · split at detected <;> cases detected
  · split at detected
    · split at detected <;> cases detected
    · split at detected
      · split at detected <;> cases detected
      · cases detected
  · cases detected

/-- The byte order mark of an encoding that has one. -/
def mark : Codec → Bytes
  | .utf16 => [0xFF, 0xFE]
  | .utf32 => [0xFF, 0xFE, 0x00, 0x00]
  | .utf8Sig => [0xEF, 0xBB, 0xBF]
  | _ => []

/-- The bytes of a code point below 65536 in a wide encoding. -/
def unitBytes : Codec → Nat → Bytes
  | .utf16 | .utf16le => bytes16 false
  | .utf16be => bytes16 true
  | .utf32 | .utf32le => bytes32 false
  | .utf32be => bytes32 true
  | .utf8 | .utf8Sig => fun value => [UInt8.ofNat value]

/-- Text in a wide encoding. -/
def encodeWide (codec : Codec) (text : Str) : Bytes :=
  mark codec ++ text.flatMap (fun point => unitBytes codec point.val)

/-- Text below the surrogates is read back from every wide encoding. -/
theorem decode_encodeWide {codec : Codec} {text : Str}
    (wide : codec ≠ .utf8 ∧ codec ≠ .utf8Sig) (plain : ∀ point ∈ text, point.val < 0xD800) :
    decode codec (encodeWide codec text) = some text := by
  cases codec with
  | utf8 => exact absurd rfl wide.1
  | utf8Sig => exact absurd rfl wide.2
  | utf16 => exact decodeUtf16_bytes false plain
  | utf16le => exact decodeUtf16_bytes false plain
  | utf16be => exact decodeUtf16_bytes true plain
  | utf32 => exact decodeUtf32_bytes false plain
  | utf32le => exact decodeUtf32_bytes false plain
  | utf32be => exact decodeUtf32_bytes true plain

end Library.Encoding
