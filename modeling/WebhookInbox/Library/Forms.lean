import WebhookInbox.Library.Dict
import WebhookInbox.Library.Encoding

/-!
# URL-encoded forms

`parseQs` is Python's `urllib.parse.parse_qs` with its defaults: pairs separated
by `&`, pairs without a value dropped, `+` for a space, and percent escapes read
as UTF-8 with replacement characters. Text outside ASCII is kept as it is.
`parseQsl` lists the pairs, including those without a value.
-/

namespace Library.Forms

/-- `text.split(separator)` for a single character. -/
def split (separator : CodePoint) : Str → List Str
  | [] => [[]]
  | point :: rest =>
      if point = separator then [] :: split separator rest
      else
        match split separator rest with
        | [] => [[point]]
        | first :: others => (point :: first) :: others

/-- The value of a hexadecimal digit, in either case. -/
def hexDigit (point : CodePoint) : Option Nat :=
  if 0x30 ≤ point.val ∧ point.val ≤ 0x39 then some (point.val - 0x30)
  else if 0x41 ≤ point.val ∧ point.val ≤ 0x46 then some (point.val - 0x37)
  else if 0x61 ≤ point.val ∧ point.val ≤ 0x66 then some (point.val - 0x57)
  else none

/-- `unquote_to_bytes(text)` for ASCII text. A percent sign that two hexadecimal
digits do not follow stands for itself. -/
def unquoteToBytes : Str → Bytes
  | [] => []
  | percent :: first :: second :: rest =>
      if percent.val = 0x25 then
        match hexDigit first, hexDigit second with
        | some high, some low => UInt8.ofNat (high * 16 + low) :: unquoteToBytes rest
        | _, _ => 0x25 :: unquoteToBytes (first :: second :: rest)
      else UInt8.ofNat percent.val :: unquoteToBytes (first :: second :: rest)
  | point :: rest => UInt8.ofNat point.val :: unquoteToBytes rest

/-- The text in maximal runs of ASCII characters and of others. The flag tells
whether a run is ASCII. -/
def runs : Str → List (Bool × Str)
  | [] => []
  | point :: rest =>
      match runs rest with
      | (ascii, run) :: others =>
          if ascii = decide (point.val < 128) then (ascii, point :: run) :: others
          else (decide (point.val < 128), [point]) :: (ascii, run) :: others
      | [] => [(decide (point.val < 128), [point])]

/-- `unquote_plus(text)` -/
def unquotePlus (text : Str) : Str :=
  let spaced := Text.replaceChar 0x2B 0x20 text
  if (0x25 : CodePoint) ∈ spaced then
    (runs spaced).flatMap (fun run =>
      if run.1 then Encoding.decodeUtf8Replace (unquoteToBytes run.2) else run.2)
  else spaced

/-- The name and the value of one pair, if it has a value. -/
def pair (text : Str) : Option (Str × Str) :=
  let name := Text.beforeChar 0x3D text
  let value := text.drop (name.length + 1)
  if value = [] then none else some (unquotePlus name, unquotePlus value)

/-- The name and the value of one pair, which may be empty. -/
def pairOrBlank (text : Str) : Option (Str × Str) :=
  let name := Text.beforeChar 0x3D text
  if text = [] then none
  else some (unquotePlus name, unquotePlus (text.drop (name.length + 1)))

/-- `parse_qsl(text, keep_blank_values=True)` -/
def parseQsl (text : Str) : List (Str × Str) := (split 0x26 text).filterMap pairOrBlank

/-- Append a value to those of its name. -/
def append (fields : Dict Str (List Str)) (name value : Str) : Dict Str (List Str) :=
  Dict.set fields name ((Dict.get fields name).getD [] ++ [value])

/-- `parse_qs(text)` -/
def parseQs (text : Str) : Dict Str (List Str) :=
  ((split 0x26 text).filterMap pair).foldl (fun fields item => append fields item.1 item.2) []

example : parseQs (lit "a=1&b=%41+c&a=2&d=") =
    [(lit "a", [lit "1", lit "2"]), (lit "b", [lit "A c"])] := by decide

/-! ## Splitting what was joined -/

/-- A text without the separator is one part. -/
theorem split_of_not_mem {separator : CodePoint} {text : Str} (clean : separator ∉ text) :
    split separator text = [text] := by
  induction text with
  | nil => rfl
  | cons point rest inductionHypothesis =>
    obtain ⟨different, cleanRest⟩ := List.ne_and_not_mem_of_not_mem_cons clean
    rw [split, if_neg (Ne.symm different), inductionHypothesis cleanRest]

/-- There is at least one part. -/
theorem split_ne_nil (separator : CodePoint) (text : Str) : split separator text ≠ [] := by
  cases text with
  | nil => exact List.cons_ne_nil _ _
  | cons point rest =>
    rw [split]
    split
    · exact List.cons_ne_nil _ _
    · split <;> exact List.cons_ne_nil _ _

/-- A separator divides the parts before it from those after it. -/
theorem split_append_cons (separator : CodePoint) (first rest : Str) :
    split separator (first ++ separator :: rest) = split separator first ++ split separator rest := by
  induction first with
  | nil => simp only [List.nil_append, split, ↓reduceIte, List.singleton_append]
  | cons point others inductionHypothesis =>
    rw [List.cons_append, split, split, inductionHypothesis]
    split
    · rfl
    · cases parts : split separator others with
      | nil => exact absurd parts (split_ne_nil separator others)
      | cons part remaining => rfl

/-- The first part ends at the first separator. -/
theorem split_append {separator : CodePoint} {first : Str} (clean : separator ∉ first)
    (rest : Str) :
    split separator (first ++ separator :: rest) = first :: split separator rest := by
  rw [split_append_cons, split_of_not_mem clean, List.singleton_append]

/-- Parts that were joined are split again, each but the first after the gap. -/
theorem split_intercalate {separator : CodePoint} {gap first : Str} {parts : List Str}
    (cleanGap : separator ∉ gap) (cleanFirst : separator ∉ first)
    (clean : ∀ part ∈ parts, separator ∉ part) :
    split separator ((separator :: gap).intercalate (first :: parts)) =
      first :: parts.map (gap ++ ·) := by
  induction parts generalizing first with
  | nil => rw [List.intercalate_singleton, split_of_not_mem cleanFirst, List.map_nil]
  | cons second others inductionHypothesis =>
    have cleanSecond := clean second List.mem_cons_self
    have joined : separator ∉ gap ++ second := by
      rw [List.mem_append]
      exact not_or.mpr ⟨cleanGap, cleanSecond⟩
    have tail := inductionHypothesis joined
      (fun part member => clean part (List.mem_cons_of_mem _ member))
    rw [List.intercalate_cons_cons, List.append_assoc, List.cons_append, split_append cleanFirst,
      List.map_cons, ← tail]
    cases others with
    | nil => simp
    | cons third later => simp [List.intercalate_cons_cons]

/-! ## Forms without lone surrogates -/

/-- The parts of a split consist of characters of the whole. -/
theorem split_subset {separator : CodePoint} {text part : Str}
    (member : part ∈ split separator text) : part ⊆ text := by
  induction text generalizing part with
  | nil =>
    obtain rfl : part = [] := by simpa [split] using member
    exact List.nil_subset _
  | cons point rest inductionHypothesis =>
    simp only [split] at member
    split at member
    · rcases List.mem_cons.mp member with rfl | later
      · exact List.nil_subset _
      · exact List.subset_cons_of_subset _ (inductionHypothesis later)
    · split at member
      · obtain rfl : part = [point] := by simpa using member
        simp
      · rename_i first others parts
        rw [parts] at inductionHypothesis
        rcases List.mem_cons.mp member with rfl | later
        · exact List.cons_subset_cons _ (inductionHypothesis List.mem_cons_self)
        · exact List.subset_cons_of_subset _
            (inductionHypothesis (List.mem_cons_of_mem _ later))

/-- The runs of a text consist of its characters. -/
theorem runs_subset {text : Str} {run : Bool × Str} (member : run ∈ runs text) :
    run.2 ⊆ text := by
  induction text generalizing run with
  | nil => cases member
  | cons point rest inductionHypothesis =>
    simp only [runs] at member
    split at member
    · rename_i ascii first others parts
      rw [parts] at inductionHypothesis
      have earlier : (ascii, first).2 ⊆ rest := inductionHypothesis List.mem_cons_self
      split at member
      · rcases List.mem_cons.mp member with rfl | later
        · exact List.cons_subset_cons _ earlier
        · exact List.subset_cons_of_subset _
            (inductionHypothesis (List.mem_cons_of_mem _ later))
      · rcases List.mem_cons.mp member with rfl | later
        · simp
        · exact List.subset_cons_of_subset _ (inductionHypothesis later)
    · obtain rfl := List.mem_singleton.mp member
      simp

/-- Unquoting scalar text gives scalar text: the escapes are read as UTF-8. -/
theorem unquotePlus_scalar {text : Str} (scalar : Text.Scalar text) :
    Text.Scalar (unquotePlus text) := by
  have spaced : Text.Scalar (Text.replaceChar 0x2B 0x20 text) := by
    intro point member
    obtain ⟨source, inText, rfl⟩ := List.mem_map.mp member
    split
    · decide
    · exact scalar source inText
  simp only [unquotePlus]
  split
  · intro point member
    obtain ⟨run, inRuns, inRun⟩ := List.mem_flatMap.mp member
    split at inRun
    · exact Encoding.decodeUtf8Replace_scalar _ point inRun
    · exact spaced point (runs_subset inRuns inRun)
  · exact spaced

/-- What is unquoted from a part of a scalar query is scalar. -/
theorem unquotePart_scalar {text part taken : Str} (scalar : Text.Scalar text)
    (inParts : part ∈ split 0x26 text) (inPart : taken ⊆ part) :
    Text.Scalar (unquotePlus taken) :=
  unquotePlus_scalar (scalar.subset (List.Subset.trans inPart (split_subset inParts)))

/-- The pairs of a scalar query are scalar. -/
theorem parseQsl_scalar {text : Str} (scalar : Text.Scalar text) {item : Str × Str}
    (member : item ∈ parseQsl text) : Text.Scalar item.1 ∧ Text.Scalar item.2 := by
  obtain ⟨part, inParts, made⟩ := List.mem_filterMap.mp member
  simp only [pairOrBlank] at made
  split at made
  · cases made
  · obtain rfl := Option.some.inj made
    constructor
    · exact unquotePart_scalar scalar inParts (List.takeWhile_subset _)
    · exact unquotePart_scalar scalar inParts (List.drop_subset _ _)

/-- No two fields of a form have one name. -/
theorem parseQs_nodup (text : Str) : ((parseQs text).map Prod.fst).Nodup := by
  have kept : ∀ (items : List (Str × Str)) (fields : Dict Str (List Str)),
      (fields.map Prod.fst).Nodup →
      ((items.foldl (fun fields item => append fields item.1 item.2) fields).map
        Prod.fst).Nodup := by
    intro items
    induction items with
    | nil => exact fun fields distinct => distinct
    | cons item rest inductionHypothesis =>
      intro fields distinct
      exact inductionHypothesis _ (Dict.nodup_keys_set distinct item.1 _)
  exact kept _ [] List.nodup_nil

end Library.Forms
