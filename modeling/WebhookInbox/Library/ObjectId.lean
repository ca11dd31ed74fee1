import WebhookInbox.Library.Text

/-!
# Object identifiers

Twelve bytes that name a document. Their text is 24 hexadecimal digits.
-/

namespace Library

/-- A document identifier by its bits. -/
structure ObjectId where
  bits : BitVec 96
deriving DecidableEq

namespace ObjectId

/-- The lower-case hexadecimal digit of a number below 16. -/
def digit (value : Fin 16) : CodePoint :=
  if value.val < 10 then ⟨0x30 + value.val, by omega⟩ else ⟨0x57 + value.val, by omega⟩

/-- `str(id)` -/
def text (id : ObjectId) : Str :=
  (List.finRange 24).map (fun place =>
    digit (Fin.ofNat 16 (id.bits.toNat / 16 ^ (23 - place.val))))

/-- The number that hexadecimal digits in lower case write. -/
def digitsNumber (text : Str) : Nat :=
  text.foldl (fun value point =>
    value * 16 + if point.val < 0x61 then point.val - 0x30 else point.val - 0x57) 0

/-- The identifier that a text names, if it is the text of one. -/
def ofText (text : Str) : Option ObjectId :=
  let id : ObjectId := ⟨BitVec.ofNat 96 (digitsNumber text)⟩
  if id.text = text then some id else none

/-- A digit is read as the number it writes. -/
theorem digit_number (value : Fin 16) :
    (if (digit value).val < 0x61 then (digit value).val - 0x30 else (digit value).val - 0x57) =
      value.val := by
  revert value
  decide

/-- The digits of a number, from the highest place down, make up the number. -/
theorem digitsNumber_places (places value : Nat) :
    digitsNumber ((List.range places).map (fun place =>
      digit (Fin.ofNat 16 (value / 16 ^ (places - 1 - place))))) = value % 16 ^ places := by
  induction places generalizing value with
  | zero => simp [digitsNumber, Nat.mod_one]
  | succ places inductionHypothesis =>
    have front : (List.range places).map (fun place =>
        digit (Fin.ofNat 16 (value / 16 ^ (places + 1 - 1 - place)))) =
        (List.range places).map (fun place =>
          digit (Fin.ofNat 16 (value / 16 / 16 ^ (places - 1 - place)))) := by
      refine List.map_congr_left ?_
      intro place member
      have within := List.mem_range.mp member
      have more : places + 1 - 1 - place = places - 1 - place + 1 := by omega
      rw [more, Nat.pow_succ', Nat.div_div_eq_div_mul]
    have last : value / 16 ^ (places + 1 - 1 - places) = value := by simp
    have higher := inductionHypothesis (value / 16)
    rw [digitsNumber] at higher
    rw [List.range_succ, List.map_append, front, List.map_singleton, last, digitsNumber,
      List.foldl_append, higher, List.foldl_cons, List.foldl_nil, digit_number]
    change value / 16 % 16 ^ places * 16 + value % 16 = value % 16 ^ (places + 1)
    rw [Nat.pow_succ', Nat.mod_mul]
    omega

/-- Identifiers are read from their texts. -/
theorem ofText_text (id : ObjectId) : ofText id.text = some id := by
  have places : id.text = (List.range 24).map (fun place =>
      digit (Fin.ofNat 16 (id.bits.toNat / 16 ^ (24 - 1 - place)))) := by
    rw [text, ← List.map_coe_finRange_eq_range, List.map_map]
    rfl
  have number : digitsNumber id.text = id.bits.toNat := by
    rw [places, digitsNumber_places 24]
    exact Nat.mod_eq_of_lt id.bits.isLt
  have same : (⟨BitVec.ofNat 96 (digitsNumber id.text)⟩ : ObjectId) = id := by
    rw [number, BitVec.ofNat_toNat, BitVec.setWidth_eq]
  rw [ofText, same, if_pos rfl]

/-- An identifier is written with digits and the letters a to f. -/
theorem text_hex (id : ObjectId) : ∀ point ∈ id.text,
    (0x30 ≤ point.val ∧ point.val ≤ 0x39) ∨ (0x61 ≤ point.val ∧ point.val ≤ 0x66) := by
  have hex : ∀ value : Fin 16, (0x30 ≤ (digit value).val ∧ (digit value).val ≤ 0x39) ∨
      (0x61 ≤ (digit value).val ∧ (digit value).val ≤ 0x66) := by decide
  intro point member
  obtain ⟨place, _, rfl⟩ := List.mem_map.mp member
  exact hex _

/-- It has no lone surrogates. -/
theorem text_scalar (id : ObjectId) : Text.Scalar id.text := by
  refine Text.scalar_of_lt (fun point member => ?_)
  have hex := text_hex id point member
  omega

end ObjectId

end Library
