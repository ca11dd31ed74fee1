import WebhookInbox.Ingest.Depth
import WebhookInbox.Library.JsonComplete

/-!
# When parsing a body raises

`parse_body` catches the errors of the JSON syntax, of the codecs and of the nesting. An
integer with more digits than the interpreter converts raises a plain `ValueError`, which it
does not catch.

`parseBody_returns_iff` says that nothing else is raised.
-/

namespace WebhookInbox.Parser

open Library

/-- The body is JSON that the guard lets through and that is read up to an integer with too
many digits. -/
def OverlongBody (runtime : Runtime) (raw : Bytes) (contentType : Str) (maxDepth : Int) : Prop :=
  raw ≠ [] ∧ isJson (mediaType runtime contentType) = true ∧ nestingDepth raw ≤ maxDepth ∧
    ∃ text, Encoding.decode (Encoding.detectEncoding raw) raw = some text ∧
      Json.Overlong runtime.reader runtime.reader.recursionLimit .value (Json.skipBlank text)

/-- Which bytes raise a `ValueError` that is neither of the syntax nor of the codec. -/
theorem loads_valueError_iff {reader : Json.Reader} {raw : Bytes} :
    Json.loads reader raw = .error .valueError ↔
      ∃ text, Encoding.decode (Encoding.detectEncoding raw) raw = some text ∧
        Json.Overlong reader reader.recursionLimit .value (Json.skipBlank text) := by
  unfold Json.loads
  cases decoded : Encoding.decode (Encoding.detectEncoding raw) raw with
  | none =>
    constructor
    · intro failed
      cases failed
    · rintro ⟨text, same, _⟩
      cases same
  | some text =>
    constructor
    · intro failed
      exact ⟨text, rfl, Json.parse_valueError_iff.mp failed⟩
    · rintro ⟨other, same, overlong⟩
      obtain rfl := Option.some.inj same
      exact Json.parse_valueError_iff.mpr overlong

/-- The fuel of the reader does not run out. -/
theorem loads_not_exhausted (reader : Json.Reader) (raw : Bytes) :
    Json.loads reader raw ≠ .error .exhausted := by
  unfold Json.loads
  split
  · intro failed
    cases failed
  · exact Json.parse_not_exhausted reader _

/-- JSON that the guard lets through is returned, or nothing in its place, unless it raises a
`ValueError`. -/
theorem parseBody_json_returns {runtime : Runtime} {raw : Bytes} {contentType : Str} {maxDepth : Int}
    (nonempty : raw ≠ []) (json : isJson (mediaType runtime contentType) = true)
    (passed : ¬ maxDepth < nestingDepth raw) :
    (∃ body, parseBody runtime raw contentType maxDepth = .ok body) ↔
      Json.loads runtime.reader raw ≠ .error .valueError := by
  simp only [parseBody, if_neg nonempty, if_pos json, if_neg passed]
  cases loaded : Json.loads runtime.reader raw with
  | ok value => simp
  | error error =>
    cases error with
    | jsonDecodeError => simp
    | unicodeDecodeError => simp
    | recursionError => simp
    | valueError => simp
    | exhausted => exact absurd loaded (loads_not_exhausted runtime.reader raw)

/-- Other bodies are always returned, or nothing in their place. -/
theorem parseBody_other_returns {runtime : Runtime} (raw : Bytes) {contentType : Str}
    (maxDepth : Int) (other : isJson (mediaType runtime contentType) = false) :
    ∃ body, parseBody runtime raw contentType maxDepth = .ok body := by
  unfold parseBody
  simp only [other, Bool.false_eq_true, ↓reduceIte]
  split
  · exact ⟨_, rfl⟩
  · split
    · split <;> exact ⟨_, rfl⟩
    · split
      · split <;> exact ⟨_, rfl⟩
      · exact ⟨_, rfl⟩

/-- `parse_body` returns for every body but the overlong ones. -/
theorem parseBody_returns_iff (runtime : Runtime) (raw : Bytes) (contentType : Str)
    (maxDepth : Int) :
    (∃ body, parseBody runtime raw contentType maxDepth = .ok body) ↔
      ¬ OverlongBody runtime raw contentType maxDepth := by
  cases json : isJson (mediaType runtime contentType) with
  | false =>
    refine ⟨fun _ overlong => ?_, fun _ => parseBody_other_returns raw maxDepth json⟩
    have own := overlong.2.1
    rw [json] at own
    cases own
  | true =>
    by_cases empty : raw = []
    · exact ⟨fun _ overlong => overlong.1 empty, fun _ => ⟨.null, by rw [parseBody, if_pos empty]⟩⟩
    · by_cases tooDeep : maxDepth < nestingDepth raw
      · refine ⟨fun _ overlong => absurd overlong.2.2.1 (not_le.mpr tooDeep), fun _ => ⟨.null, ?_⟩⟩
        simp only [parseBody, if_neg empty, if_pos json, if_pos tooDeep]
      · rw [parseBody_json_returns empty json tooDeep, ne_eq, loads_valueError_iff]
        exact not_congr
          ⟨fun found => ⟨empty, json, not_lt.mp tooDeep, found⟩, fun overlong => overlong.2.2.2⟩

/-! ## An overlong body -/

/-- An integer of this many ones. -/
def ones (count : Nat) : Bytes := List.replicate count 0x31

theorem decodeUtf8_ones (count : Nat) :
    Encoding.decodeUtf8 true (ones count) = some (List.replicate count 0x31) := by
  induction count with
  | zero => rfl
  | succ count inductionHypothesis =>
    have first : Encoding.decodeUtf8 true (ones (count + 1)) =
        (Encoding.decodeUtf8 true (ones count)).map ((0x31 : CodePoint) :: ·) := rfl
    rw [first, inductionHypothesis]
    rfl

theorem nestingDepth_ones (count : Nat) : nestingDepth (ones count) = 0 := by
  have quiet : (ones count).foldl (fun scan byte => scan.feed byte.toNat) Scan.start =
      Scan.start := by
    induction count with
    | zero => rfl
    | succ count inductionHypothesis => exact inductionHypothesis
  rw [nestingDepth, quiet]
  rfl

theorem readNumber_ones (count : Nat) :
    Json.readNumber (List.replicate (count + 1) 0x31) =
      some (⟨false, List.replicate (count + 1) 0x31, [], []⟩, []) := by
  have one : Json.isDigit 0x31 = true := by decide
  have run : (List.replicate count (0x31 : CodePoint)).takeWhile Json.isDigit =
      List.replicate count 0x31 := by rw [List.takeWhile_replicate, if_pos one]
  have rest : (List.replicate count (0x31 : CodePoint)).dropWhile Json.isDigit = [] := by
    rw [List.dropWhile_replicate, if_pos one]
  have signless : Text.startsWith (0x31 :: List.replicate count 0x31) (lit "-") = false := rfl
  have notZero : ¬ (0x31 : CodePoint).val = 0x30 := by decide
  have fraction : Json.readFraction [] = ([], []) := rfl
  have exponent : Json.readExponent [] = ([], []) := rfl
  simp only [Json.readNumber, List.replicate_succ, signless, Bool.false_eq_true, ↓reduceIte, one,
    notZero, run, rest, fraction, exponent]

/-- An integer of more digits than are converted raises, although it is well-formed JSON. -/
theorem parseBody_raises :
    ¬ ∀ (runtime : Runtime) (raw : Bytes) (contentType : Str) (maxDepth : Int),
      ∃ body, parseBody runtime raw contentType maxDepth = .ok body := by
  intro claimed
  have returns := claimed plainRuntime (ones (4300 + 1)) (lit "application/json") 100
  rw [parseBody_returns_iff] at returns
  have json : isJson (mediaType plainRuntime (lit "application/json")) = true := by decide
  have utf8 : Encoding.detectEncoding (ones (4300 + 1)) = .utf8 := rfl
  have decoded := decodeUtf8_ones (4300 + 1)
  refine returns ⟨?_, json, ?_, _, by rw [utf8]; exact decoded, ?_⟩
  · exact List.cons_ne_nil _ _
  · rw [nestingDepth_ones]
    decide
  · have solid : Json.skipBlank (List.replicate (4300 + 1) 0x31) = List.replicate (4300 + 1) 0x31 :=
      List.dropWhile_cons_of_neg (by decide)
    rw [solid]
    refine .integer (readNumber_ones 4300) rfl rfl ?_
    rw [List.length_replicate]
    decide

end WebhookInbox.Parser
