import WebhookInbox.Library.JsonGrammar

/-!
# What the reader does with every text

`Derives.accepts` is the other direction of `readValue_derives`: whatever is derived, the
reader accepts, if the limit admits its containers. `parse_valueError_iff` says for which texts
it raises a `ValueError` that is no syntax error: those that it can read up to an integer with
too many digits.
-/

namespace Library.Json

open Fallible

/-! ## Tokens -/

/-- No number starts with a word. -/
theorem readWord_of_readNumber {text : Str} {result : Number × Str}
    (read : readNumber text = some result) : readWord text = none := by
  cases isWord : readWord text with
  | none => rfl
  | some found =>
    obtain ⟨word, member, rfl⟩ := readWord_part isWord
    simp only [words, List.mem_cons, Prod.mk.injEq, List.not_mem_nil, or_false] at member
    rcases member with ⟨rfl, _⟩ | ⟨rfl, _⟩ | ⟨rfl, _⟩ | ⟨rfl, _⟩ | ⟨rfl, _⟩ | ⟨rfl, _⟩ <;>
      cases read

/-- A text that starts with a character that opens no string and no container, and closes no
array. -/
def Plain (text : Str) : Prop :=
  ∃ point rest, text = point :: rest ∧ point.val ≠ 0x22 ∧ point.val ≠ 0x7B ∧ point.val ≠ 0x5B ∧
    point.val ≠ 0x5D

theorem plain_of_readWord {text : Str} {result : Json × Str}
    (read : readWord text = some result) : Plain text := by
  obtain ⟨word, member, rfl⟩ := readWord_part read
  simp only [words, List.mem_cons, Prod.mk.injEq, List.not_mem_nil, or_false] at member
  rcases member with ⟨rfl, _⟩ | ⟨rfl, _⟩ | ⟨rfl, _⟩ | ⟨rfl, _⟩ | ⟨rfl, _⟩ | ⟨rfl, _⟩ <;>
    exact ⟨_, _, rfl, by decide, by decide, by decide, by decide⟩

theorem plain_of_readNumber {text : Str} {result : Number × Str}
    (read : readNumber text = some result) : Plain text := by
  obtain ⟨first, rest, whole, numeric⟩ := readNumber_part read
  have own := numeric first List.mem_cons_self
  simp only [isNumeric, isDigit, Bool.or_eq_true, decide_eq_true_eq] at own
  exact ⟨first, rest ++ result.2, whole, by omega, by omega, by omega, by omega⟩

/-- A string that is derived is read, with one unit of fuel for each of its characters. -/
theorem Quoted.read {text chars after : Str} (quoted : Quoted text chars after) {fuel : Nat}
    (enough : text.length < fuel) : readString fuel text = .ok (chars, after) := by
  induction quoted generalizing fuel with
  | close isQuote =>
    cases fuel with
    | zero => omega
    | succ fuel => simp only [readString, if_pos isQuote]
  | @escape slash char rest after chars final isSlash unescaped _ inductionHypothesis =>
    cases fuel with
    | zero => omega
    | succ fuel =>
      have shorter := unescape_shorter unescaped
      have notQuote : ¬ slash.val = 0x22 := by omega
      rw [List.length_cons] at enough
      simp only [readString, if_neg notQuote, if_pos isSlash, unescaped,
        inductionHypothesis (by omega : _ < fuel)]
      rfl
  | plain notQuote notSlash notControl _ inductionHypothesis =>
    cases fuel with
    | zero => omega
    | succ fuel =>
      rw [List.length_cons] at enough
      simp only [readString, if_neg notQuote, if_neg notSlash, if_neg (Nat.not_lt.mpr notControl),
        inductionHypothesis (by omega : _ < fuel)]
      rfl

/-! ## What is derived is accepted -/

/-- A value does not start with the end of an array. -/
theorem Derives.starts {reader : Reader} {text after : Str} {tree : Json}
    (derived : Derives reader text (.value tree) after) :
    ∃ point rest, text = point :: rest ∧ point.val ≠ 0x5D := by
  cases derived with
  | string isQuote _ => exact ⟨_, _, rfl, by omega⟩
  | word read =>
    obtain ⟨point, rest, starts, _, _, _, notEnd⟩ := plain_of_readWord read
    exact ⟨point, rest, starts, notEnd⟩
  | number read _ =>
    obtain ⟨point, rest, starts, _, _, _, notEnd⟩ := plain_of_readNumber read
    exact ⟨point, rest, starts, notEnd⟩
  | emptyArray opens _ _ => exact ⟨_, _, rfl, by omega⟩
  | array opens _ => exact ⟨_, _, rfl, by omega⟩
  | emptyObject opens _ _ => exact ⟨_, _, rfl, by omega⟩
  | object opens _ => exact ⟨_, _, rfl, by omega⟩

/-- Neither do items. -/
theorem Derives.items_start {reader : Reader} {text after : Str} {trees : List Json}
    (derived : Derives reader text (.items trees) after) :
    ∃ point rest, text = point :: rest ∧ point.val ≠ 0x5D := by
  cases derived with
  | lastItem first _ _ => exact first.starts
  | nextItem first _ _ _ => exact first.starts

/-- Members start with a quote. -/
theorem Derives.members_start {reader : Reader} {text after : Str} {pairs : List (Str × Json)}
    (derived : Derives reader text (.members pairs) after) :
    ∃ point rest, text = point :: rest ∧ point.val ≠ 0x7D := by
  cases derived with
  | lastMember isQuote _ _ _ _ _ _ => exact ⟨_, _, rfl, by omega⟩
  | nextMember isQuote _ _ _ _ _ _ _ => exact ⟨_, _, rfl, by omega⟩

/-- The reader accepts the phrase, with fuel for its length and a limit for its depth. -/
def Accepts (reader : Reader) (text : Str) (phrase : Phrase) (after : Str) : Prop :=
  match phrase with
  | .value tree => ∀ {fuel limit}, 3 * text.length + 1 ≤ fuel → depth tree ≤ limit →
      readValue reader fuel limit text = .ok (merged tree, after)
  | .items trees => ∀ {fuel limit}, 3 * text.length + 2 ≤ fuel → depthItems trees ≤ limit →
      readItems reader fuel limit text = .ok (mergedItems trees, after)
  | .members pairs => ∀ {fuel limit}, 3 * text.length + 2 ≤ fuel → depthMembers pairs ≤ limit →
      readMembers reader fuel limit text = .ok (mergedMembers pairs, after)

section
variable {reader : Reader}

theorem Accepts.string {quote : CodePoint} {rest chars after : Str} (isQuote : quote.val = 0x22)
    (quoted : Quoted rest chars after) :
    Accepts reader (quote :: rest) (.value (.str chars)) after := by
  intro fuel limit enough _
  rw [List.length_cons] at enough
  cases fuel with
  | zero => omega
  | succ fuel => exact readValue_string isQuote (quoted.read (by omega))

theorem Accepts.word {text after : Str} {tree : Json} (read : readWord text = some (tree, after)) :
    Accepts reader text (.value tree) after := by
  intro fuel limit enough _
  obtain ⟨word, member, _⟩ := readWord_part read
  obtain ⟨point, rest, rfl, notQuote, notBrace, notBracket, _⟩ := plain_of_readWord read
  cases fuel with
  | zero => omega
  | succ fuel =>
    rw [(leaf_of_words member).1]
    exact readValue_word ⟨notQuote, notBrace, notBracket⟩ read

theorem Accepts.number {text after : Str} {number : Number} {tree : Json}
    (read : readNumber text = some (number, after))
    (valued : numberValue reader number = .ok tree) : Accepts reader text (.value tree) after := by
  intro fuel limit enough _
  have noWord := readWord_of_readNumber read
  obtain ⟨point, rest, rfl, notQuote, notBrace, notBracket, _⟩ := plain_of_readNumber read
  cases fuel with
  | zero => omega
  | succ fuel =>
    rw [(leaf_of_number valued).1]
    exact readValue_number ⟨notQuote, notBrace, notBracket⟩ noWord read valued

theorem Accepts.emptyArray {bracket close : CodePoint} {rest after : Str}
    (opens : bracket.val = 0x5B) (follows : skipBlank rest = close :: after)
    (closes : close.val = 0x5D) :
    Accepts reader (bracket :: rest) (.value (.arr [])) after := by
  intro fuel limit enough deep
  rw [List.length_cons] at enough
  rw [depth] at deep
  obtain ⟨fuel, rfl⟩ : ∃ less, fuel = less + 1 + 1 := ⟨fuel - 2, by omega⟩
  refine readValue_array opens (by omega) ?_
  rw [follows]
  exact readArray_empty closes

theorem Accepts.array {bracket : CodePoint} {rest after : Str} {trees : List Json}
    (opens : bracket.val = 0x5B) (listed : Derives reader (skipBlank rest) (.items trees) after)
    (items : Accepts reader (skipBlank rest) (.items trees) after) :
    Accepts reader (bracket :: rest) (.value (.arr trees)) after := by
  intro fuel limit enough deep
  have blanks := skipBlank_length rest
  rw [List.length_cons] at enough
  rw [depth] at deep
  obtain ⟨fuel, rfl⟩ : ∃ less, fuel = less + 1 + 1 := ⟨fuel - 2, by omega⟩
  obtain ⟨point, others, starts, continues⟩ := listed.items_start
  refine readValue_array opens (by omega) ?_
  rw [starts, readArray_items continues, ← starts]
  exact items (by omega) (by omega)

theorem Accepts.lastItem {text middle after : Str} {close : CodePoint} {tree : Json}
    (value : Accepts reader text (.value tree) middle)
    (follows : skipBlank middle = close :: after) (closes : close.val = 0x5D) :
    Accepts reader text (.items [tree]) after := by
  intro fuel limit enough deep
  simp only [depthItems] at deep
  cases fuel with
  | zero => omega
  | succ fuel => exact readItems_last (value (by omega) (by omega)) follows closes

theorem Accepts.nextItem {text middle rest after : Str} {comma : CodePoint} {tree : Json}
    {trees : List Json} (first : Derives reader text (.value tree) middle)
    (value : Accepts reader text (.value tree) middle)
    (follows : skipBlank middle = comma :: rest) (separates : comma.val = 0x2C)
    (items : Accepts reader (skipBlank rest) (.items trees) after) :
    Accepts reader text (.items (tree :: trees)) after := by
  intro fuel limit enough deep
  have valueShorter := first.shorter
  have commaShorter := skipBlank_shorter follows
  have blanks := skipBlank_length rest
  simp only [depthItems] at deep
  cases fuel with
  | zero => omega
  | succ fuel =>
    exact readItems_next (value (by omega) (by omega)) follows separates
      (items (by omega) (by omega))

theorem Accepts.emptyObject {brace close : CodePoint} {rest after : Str} (opens : brace.val = 0x7B)
    (follows : skipBlank rest = close :: after) (closes : close.val = 0x7D) :
    Accepts reader (brace :: rest) (.value (.obj [])) after := by
  intro fuel limit enough deep
  rw [List.length_cons] at enough
  rw [depth] at deep
  obtain ⟨fuel, rfl⟩ : ∃ less, fuel = less + 1 + 1 := ⟨fuel - 2, by omega⟩
  refine readValue_object opens (by omega) ?_
  rw [follows]
  exact readObject_empty closes

theorem Accepts.object {brace : CodePoint} {rest after : Str} {pairs : List (Str × Json)}
    (opens : brace.val = 0x7B) (listed : Derives reader (skipBlank rest) (.members pairs) after)
    (members : Accepts reader (skipBlank rest) (.members pairs) after) :
    Accepts reader (brace :: rest) (.value (.obj pairs)) after := by
  intro fuel limit enough deep
  have blanks := skipBlank_length rest
  rw [List.length_cons] at enough
  rw [depth] at deep
  obtain ⟨fuel, rfl⟩ : ∃ less, fuel = less + 1 + 1 := ⟨fuel - 2, by omega⟩
  obtain ⟨point, others, starts, continues⟩ := listed.members_start
  refine readValue_object opens (by omega) ?_
  rw [starts, readObject_members continues, ← starts]
  exact members (by omega) (by omega)

section
variable {quote colon : CodePoint} {rest key afterKey afterColon middle : Str} {tree : Json}
  (isQuote : quote.val = 0x22) (quoted : Quoted rest key afterKey)
  (named : skipBlank afterKey = colon :: afterColon) (isColon : colon.val = 0x3A)
  (value : Accepts reader (skipBlank afterColon) (.value tree) middle)

include isQuote quoted named isColon value

theorem Accepts.lastMember {close : CodePoint} {after : Str}
    (follows : skipBlank middle = close :: after) (closes : close.val = 0x7D) :
    Accepts reader (quote :: rest) (.members [(key, tree)]) after := by
  intro fuel limit enough deep
  have keyShorter := quoted.shorter
  have colonShorter := skipBlank_shorter named
  have blanks := skipBlank_length afterColon
  rw [List.length_cons] at enough
  simp only [depthMembers] at deep
  cases fuel with
  | zero => omega
  | succ fuel =>
    exact readMembers_last isQuote (quoted.read (by omega)) named isColon
      (value (by omega) (by omega)) follows closes

theorem Accepts.nextMember {comma : CodePoint} {next after : Str} {pairs : List (Str × Json)}
    (first : Derives reader (skipBlank afterColon) (.value tree) middle)
    (follows : skipBlank middle = comma :: next) (separates : comma.val = 0x2C)
    (members : Accepts reader (skipBlank next) (.members pairs) after) :
    Accepts reader (quote :: rest) (.members ((key, tree) :: pairs)) after := by
  intro fuel limit enough deep
  have keyShorter := quoted.shorter
  have colonShorter := skipBlank_shorter named
  have blanks := skipBlank_length afterColon
  have valueShorter := first.shorter
  have commaShorter := skipBlank_shorter follows
  have nextBlanks := skipBlank_length next
  rw [List.length_cons] at enough
  simp only [depthMembers] at deep
  cases fuel with
  | zero => omega
  | succ fuel =>
    exact readMembers_next isQuote (quoted.read (by omega)) named isColon
      (value (by omega) (by omega)) follows separates (members (by omega) (by omega))

end

/-- Whatever is derived is accepted.

Proof: by induction on the derivation, with one step of the reader for each rule. -/
theorem Derives.accepts {text after : Str} {phrase : Phrase}
    (derived : Derives reader text phrase after) : Accepts reader text phrase after := by
  induction derived with
  | string isQuote quoted => exact Accepts.string isQuote quoted
  | word read => exact Accepts.word read
  | number read valued => exact Accepts.number read valued
  | emptyArray opens follows closes => exact Accepts.emptyArray opens follows closes
  | array opens listed items => exact Accepts.array opens listed items
  | lastItem _ follows closes value => exact Accepts.lastItem value follows closes
  | nextItem first follows separates _ value items =>
    exact Accepts.nextItem first value follows separates items
  | emptyObject opens follows closes => exact Accepts.emptyObject opens follows closes
  | object opens listed members => exact Accepts.object opens listed members
  | lastMember isQuote quoted named isColon _ follows closes value =>
    exact Accepts.lastMember isQuote quoted named isColon value follows closes
  | nextMember isQuote quoted named isColon first follows separates _ value members =>
    exact Accepts.nextMember isQuote quoted named isColon value first follows separates members

end

/-! ## Integers with too many digits -/

/-- What the reader is about to read. -/
inductive Spot where
  | value
  | items
  | members

/-- The text can be read, from this spot and within this limit, up to an integer with more
digits than are converted. What is read before it is derived. -/
inductive Overlong (reader : Reader) : Nat → Spot → Str → Prop where
  | integer {limit : Nat} {text after : Str} {number : Number}
      (read : readNumber text = some (number, after)) (noFraction : number.fraction = [])
      (noExponent : number.exponent = []) (long : maxStrDigits < number.whole.length) :
      Overlong reader limit .value text
  | array {limit : Nat} {bracket point : CodePoint} {rest others : Str} (opens : bracket.val = 0x5B)
      (starts : skipBlank rest = point :: others) (continues : point.val ≠ 0x5D)
      (inner : Overlong reader limit .items (skipBlank rest)) :
      Overlong reader (limit + 1) .value (bracket :: rest)
  | object {limit : Nat} {brace : CodePoint} {rest : Str} (opens : brace.val = 0x7B)
      (inner : Overlong reader limit .members (skipBlank rest)) :
      Overlong reader (limit + 1) .value (brace :: rest)
  | firstItem {limit : Nat} {text : Str} (inner : Overlong reader limit .value text) :
      Overlong reader limit .items text
  | laterItem {limit : Nat} {text middle rest : Str} {comma : CodePoint} {tree : Json}
      (first : Derives reader text (.value tree) middle) (shallow : depth tree ≤ limit)
      (follows : skipBlank middle = comma :: rest) (separates : comma.val = 0x2C)
      (inner : Overlong reader limit .items (skipBlank rest)) : Overlong reader limit .items text
  | firstMember {limit : Nat} {quote colon : CodePoint} {rest key afterKey afterColon : Str}
      (isQuote : quote.val = 0x22) (quoted : Quoted rest key afterKey)
      (named : skipBlank afterKey = colon :: afterColon) (isColon : colon.val = 0x3A)
      (inner : Overlong reader limit .value (skipBlank afterColon)) :
      Overlong reader limit .members (quote :: rest)
  | laterMember {limit : Nat} {quote colon comma : CodePoint}
      {rest key afterKey afterColon middle next : Str} {tree : Json} (isQuote : quote.val = 0x22)
      (quoted : Quoted rest key afterKey) (named : skipBlank afterKey = colon :: afterColon)
      (isColon : colon.val = 0x3A) (first : Derives reader (skipBlank afterColon) (.value tree) middle)
      (shallow : depth tree ≤ limit) (follows : skipBlank middle = comma :: next)
      (separates : comma.val = 0x2C) (inner : Overlong reader limit .members (skipBlank next)) :
      Overlong reader limit .members (quote :: rest)

/-- Members start with a quote. -/
theorem Overlong.members_start {reader : Reader} {limit : Nat} {text : Str}
    (overlong : Overlong reader limit .members text) :
    ∃ point rest, text = point :: rest ∧ point.val ≠ 0x7D := by
  cases overlong with
  | firstMember isQuote _ _ _ _ => exact ⟨_, _, rfl, by omega⟩
  | laterMember isQuote _ _ _ _ _ _ _ _ => exact ⟨_, _, rfl, by omega⟩

/-- An integer raises exactly if it has too many digits. -/
theorem numberValue_error {reader : Reader} {number : Number} {error : LoadsError} :
    numberValue reader number = .error error ↔
      error = .valueError ∧ number.fraction = [] ∧ number.exponent = [] ∧
        maxStrDigits < number.whole.length := by
  unfold numberValue
  split
  · rename_i integer
    split
    · rename_i long
      constructor
      · intro failed
        exact ⟨(Except.error.inj failed).symm, integer.1, integer.2, long⟩
      · rintro ⟨rfl, _⟩
        rfl
    · rename_i short
      constructor
      · intro failed
        cases failed
      · rintro ⟨_, _, _, long⟩
        exact absurd long short
  · rename_i other
    constructor
    · intro failed
      cases failed
    · rintro ⟨_, noFraction, noExponent, _⟩
      exact absurd ⟨noFraction, noExponent⟩ other

/-- A string raises no error but those of the syntax. -/
theorem readString_not_valueError (fuel : Nat) (text : Str) :
    readString fuel text ≠ .error .valueError := by
  induction fuel generalizing text with
  | zero =>
    intro failed
    cases failed
  | succ fuel inductionHypothesis =>
    intro failed
    cases text with
    | nil => cases failed
    | cons point rest =>
      simp only [readString] at failed
      split at failed
      · cases failed
      split at failed
      · split at failed
        · cases failed
        · rcases bind_error failed with tail | ⟨_, _, done⟩
          · exact inductionHypothesis _ tail
          · cases done
      split at failed
      · cases failed
      · rcases bind_error failed with tail | ⟨_, _, done⟩
        · exact inductionHypothesis _ tail
        · cases done

/-- The five readers reach a long integer when they raise the error of one. -/
structure Reached (reader : Reader) (fuel : Nat) : Prop where
  value : ∀ {limit text}, readValue reader fuel limit text = .error .valueError →
    Overlong reader limit .value text
  items : ∀ {limit text}, readItems reader fuel limit text = .error .valueError →
    Overlong reader limit .items text
  array : ∀ {limit text}, readArray reader fuel limit text = .error .valueError →
    Overlong reader limit .items text ∧ ∃ point rest, text = point :: rest ∧ point.val ≠ 0x5D
  members : ∀ {limit text}, readMembers reader fuel limit text = .error .valueError →
    Overlong reader limit .members text
  object : ∀ {limit text}, readObject reader fuel limit text = .error .valueError →
    Overlong reader limit .members text

section
variable {reader : Reader} {fuel limit : Nat}

theorem Reached.succ_value (reached : Reached reader fuel) {text : Str}
    (failed : readValue reader (fuel + 1) limit text = .error .valueError) :
    Overlong reader limit .value text := by
  cases text with
  | nil => cases failed
  | cons point rest =>
    simp only [readValue] at failed
    split at failed
    · rcases bind_error failed with chars | ⟨_, _, done⟩
      · exact absurd chars (readString_not_valueError _ _)
      · cases done
    split at failed
    · rename_i opens
      cases limit with
      | zero => cases failed
      | succ limit =>
        rcases bind_error failed with inner | ⟨_, _, done⟩
        · exact .object opens (reached.object inner)
        · cases done
    split at failed
    · rename_i opens
      cases limit with
      | zero => cases failed
      | succ limit =>
        rcases bind_error failed with inner | ⟨_, _, done⟩
        · obtain ⟨overlong, next, others, starts, continues⟩ := reached.array inner
          exact .array opens starts continues overlong
        · cases done
    split at failed
    · cases failed
    split at failed
    · cases failed
    · rename_i number after read
      rcases bind_error failed with valued | ⟨_, _, done⟩
      · obtain ⟨_, noFraction, noExponent, long⟩ := numberValue_error.mp valued
        exact .integer read noFraction noExponent long
      · cases done

theorem Reached.succ_items (reached : Reached reader fuel) {text : Str}
    (failed : readItems reader (fuel + 1) limit text = .error .valueError) :
    Overlong reader limit .items text := by
  simp only [readItems] at failed
  rcases bind_error failed with first | ⟨⟨value, middle⟩, readFirst, failed⟩
  · exact .firstItem (reached.value first)
  obtain ⟨tree, first, _, shallow⟩ := (sound reader fuel).value readFirst
  cases follows : skipBlank middle with
  | nil => simp [follows] at failed
  | cons point rest =>
    simp only [follows] at failed
    split at failed
    · cases failed
    split at failed
    · rename_i separates
      rcases bind_error failed with inner | ⟨_, _, done⟩
      · exact .laterItem first shallow follows separates (reached.items inner)
      · cases done
    · cases failed

theorem Reached.succ_members (reached : Reached reader fuel) {text : Str}
    (failed : readMembers reader (fuel + 1) limit text = .error .valueError) :
    Overlong reader limit .members text := by
  cases text with
  | nil => cases failed
  | cons quote text =>
    simp only [readMembers] at failed
    split at failed
    case isFalse => cases failed
    rename_i isQuote
    rcases bind_error failed with chars | ⟨⟨key, afterKey⟩, readKey, failed⟩
    · exact absurd chars (readString_not_valueError _ _)
    have quoted := readString_quoted readKey
    cases named : skipBlank afterKey with
    | nil => simp [named] at failed
    | cons colon afterColon =>
      simp only [named] at failed
      split at failed
      case isFalse => cases failed
      rename_i isColon
      rcases bind_error failed with first | ⟨⟨value, middle⟩, readFirst, failed⟩
      · exact .firstMember isQuote quoted named isColon (reached.value first)
      obtain ⟨tree, first, _, shallow⟩ := (sound reader fuel).value readFirst
      cases follows : skipBlank middle with
      | nil => simp [follows] at failed
      | cons point rest =>
        simp only [follows] at failed
        split at failed
        · cases failed
        split at failed
        · rename_i separates
          rcases bind_error failed with inner | ⟨_, _, done⟩
          · exact .laterMember isQuote quoted named isColon first shallow follows separates
              (reached.members inner)
          · cases done
        · cases failed

/-- So it is with any fuel. -/
theorem reached (reader : Reader) (fuel : Nat) : Reached reader fuel := by
  induction fuel with
  | zero =>
    constructor
    · intro limit text failed
      cases failed
    · intro limit text failed
      cases failed
    · intro limit text failed
      cases failed
    · intro limit text failed
      cases failed
    · intro limit text failed
      cases failed
  | succ fuel inductionHypothesis =>
    refine ⟨inductionHypothesis.succ_value, inductionHypothesis.succ_items, ?_,
      inductionHypothesis.succ_members, ?_⟩
    · intro limit text failed
      cases text with
      | nil => cases failed
      | cons point rest =>
        simp only [readArray] at failed
        split at failed
        · cases failed
        · rename_i continues
          exact ⟨inductionHypothesis.items failed, point, rest, rfl, continues⟩
    · intro limit text failed
      cases text with
      | nil => cases failed
      | cons point rest =>
        simp only [readObject] at failed
        split at failed
        · cases failed
        · exact inductionHypothesis.members failed

end

/-- The reader raises the error of a long integer, with fuel for the length of the text. -/
def Raises (reader : Reader) (limit : Nat) (spot : Spot) (text : Str) : Prop :=
  match spot with
  | .value => ∀ {fuel}, 3 * text.length + 1 ≤ fuel →
      readValue reader fuel limit text = .error .valueError
  | .items => ∀ {fuel}, 3 * text.length + 2 ≤ fuel →
      readItems reader fuel limit text = .error .valueError
  | .members => ∀ {fuel}, 3 * text.length + 2 ≤ fuel →
      readMembers reader fuel limit text = .error .valueError

section
variable {reader : Reader} {limit : Nat}

theorem Raises.integer {text after : Str} {number : Number}
    (read : readNumber text = some (number, after)) (noFraction : number.fraction = [])
    (noExponent : number.exponent = []) (long : maxStrDigits < number.whole.length) :
    Raises reader limit .value text := by
  intro fuel enough
  have noWord := readWord_of_readNumber read
  have valued : numberValue reader number = .error .valueError :=
    numberValue_error.mpr ⟨rfl, noFraction, noExponent, long⟩
  obtain ⟨point, rest, rfl, notQuote, notBrace, notBracket, _⟩ := plain_of_readNumber read
  cases fuel with
  | zero => omega
  | succ fuel =>
    simp only [readValue, if_neg notQuote, if_neg notBrace, if_neg notBracket, noWord, read,
      valued]
    rfl

theorem Raises.array {bracket point : CodePoint} {rest others : Str} (opens : bracket.val = 0x5B)
    (starts : skipBlank rest = point :: others) (continues : point.val ≠ 0x5D)
    (items : Raises reader limit .items (skipBlank rest)) :
    Raises reader (limit + 1) .value (bracket :: rest) := by
  intro fuel enough
  have notQuote : bracket.val ≠ 0x22 := by omega
  have notBrace : bracket.val ≠ 0x7B := by omega
  have blanks := skipBlank_length rest
  rw [List.length_cons] at enough
  obtain ⟨fuel, rfl⟩ : ∃ less, fuel = less + 1 + 1 := ⟨fuel - 2, by omega⟩
  have inner : readArray reader (fuel + 1) limit (skipBlank rest) = .error .valueError := by
    rw [starts, readArray_items continues, ← starts]
    exact items (by omega)
  simp only [readValue, if_neg notQuote, if_neg notBrace, if_pos opens, Nat.add_one_ne_zero,
    ↓reduceIte, Nat.add_sub_cancel, inner]
  rfl

theorem Raises.object {brace : CodePoint} {rest : Str} (opens : brace.val = 0x7B)
    (overlong : Overlong reader limit .members (skipBlank rest))
    (members : Raises reader limit .members (skipBlank rest)) :
    Raises reader (limit + 1) .value (brace :: rest) := by
  intro fuel enough
  have notQuote : brace.val ≠ 0x22 := by omega
  have blanks := skipBlank_length rest
  rw [List.length_cons] at enough
  obtain ⟨fuel, rfl⟩ : ∃ less, fuel = less + 1 + 1 := ⟨fuel - 2, by omega⟩
  have inner : readObject reader (fuel + 1) limit (skipBlank rest) = .error .valueError := by
    obtain ⟨point, others, starts, continues⟩ := overlong.members_start
    rw [starts, readObject_members continues, ← starts]
    exact members (by omega)
  simp only [readValue, if_neg notQuote, if_pos opens, Nat.add_one_ne_zero, ↓reduceIte,
    Nat.add_sub_cancel, inner]
  rfl

theorem Raises.firstItem {text : Str} (value : Raises reader limit .value text) :
    Raises reader limit .items text := by
  intro fuel enough
  cases fuel with
  | zero => omega
  | succ fuel =>
    simp only [readItems, value (by omega : _ ≤ fuel)]
    rfl

theorem Raises.laterItem {text middle rest : Str} {comma : CodePoint} {tree : Json}
    (first : Derives reader text (.value tree) middle) (shallow : depth tree ≤ limit)
    (follows : skipBlank middle = comma :: rest) (separates : comma.val = 0x2C)
    (items : Raises reader limit .items (skipBlank rest)) : Raises reader limit .items text := by
  intro fuel enough
  have valueShorter := first.shorter
  have commaShorter := skipBlank_shorter follows
  have blanks := skipBlank_length rest
  have notClose : comma.val ≠ 0x5D := by omega
  cases fuel with
  | zero => omega
  | succ fuel =>
    have read : readValue reader fuel limit text = .ok (merged tree, middle) :=
      first.accepts (by omega) shallow
    simp only [readItems, read, bind, Except.bind, follows, if_neg notClose, if_pos separates,
      items (by omega : _ ≤ fuel)]

section
variable {quote colon : CodePoint} {rest key afterKey afterColon : Str}
  (isQuote : quote.val = 0x22) (quoted : Quoted rest key afterKey)
  (named : skipBlank afterKey = colon :: afterColon) (isColon : colon.val = 0x3A)

include isQuote quoted named isColon

theorem Raises.firstMember (value : Raises reader limit .value (skipBlank afterColon)) :
    Raises reader limit .members (quote :: rest) := by
  intro fuel enough
  have keyShorter := quoted.shorter
  have colonShorter := skipBlank_shorter named
  have blanks := skipBlank_length afterColon
  rw [List.length_cons] at enough
  cases fuel with
  | zero => omega
  | succ fuel =>
    have readKey : readString fuel rest = .ok (key, afterKey) := quoted.read (by omega)
    simp only [readMembers, if_pos isQuote, readKey, bind, Except.bind, named, if_pos isColon,
      value (by omega : _ ≤ fuel)]

theorem Raises.laterMember {comma : CodePoint} {middle next : Str} {tree : Json}
    (first : Derives reader (skipBlank afterColon) (.value tree) middle)
    (shallow : depth tree ≤ limit) (follows : skipBlank middle = comma :: next)
    (separates : comma.val = 0x2C) (members : Raises reader limit .members (skipBlank next)) :
    Raises reader limit .members (quote :: rest) := by
  intro fuel enough
  have keyShorter := quoted.shorter
  have colonShorter := skipBlank_shorter named
  have blanks := skipBlank_length afterColon
  have valueShorter := first.shorter
  have commaShorter := skipBlank_shorter follows
  have nextBlanks := skipBlank_length next
  have notClose : comma.val ≠ 0x7D := by omega
  rw [List.length_cons] at enough
  cases fuel with
  | zero => omega
  | succ fuel =>
    have readKey : readString fuel rest = .ok (key, afterKey) := quoted.read (by omega)
    have read : readValue reader fuel limit (skipBlank afterColon) = .ok (merged tree, middle) :=
      first.accepts (by omega) shallow
    simp only [readMembers, if_pos isQuote, readKey, bind, Except.bind, named, if_pos isColon,
      read, follows, if_neg notClose, if_pos separates, members (by omega : _ ≤ fuel)]

end

/-- A text that can be read up to a long integer raises its error.

Proof: by induction on what is read; what precedes the integer is accepted. -/
theorem Overlong.raises {spot : Spot} {text : Str} (overlong : Overlong reader limit spot text) :
    Raises reader limit spot text := by
  induction overlong with
  | integer read noFraction noExponent long =>
    exact Raises.integer read noFraction noExponent long
  | array opens starts continues _ inductionHypothesis =>
    exact Raises.array opens starts continues inductionHypothesis
  | object opens inside inductionHypothesis => exact Raises.object opens inside inductionHypothesis
  | firstItem _ inductionHypothesis => exact Raises.firstItem inductionHypothesis
  | laterItem first shallow follows separates _ inductionHypothesis =>
    exact Raises.laterItem first shallow follows separates inductionHypothesis
  | firstMember isQuote quoted named isColon _ inductionHypothesis =>
    exact Raises.firstMember isQuote quoted named isColon inductionHypothesis
  | laterMember isQuote quoted named isColon first shallow follows separates _
      inductionHypothesis =>
    exact Raises.laterMember isQuote quoted named isColon first shallow follows separates
      inductionHypothesis

end

/-- Which texts raise a `ValueError` that is no syntax error. -/
theorem parse_valueError_iff {reader : Reader} {text : Str} :
    parse reader text = .error .valueError ↔
      Overlong reader reader.recursionLimit .value (skipBlank text) := by
  have blanks := skipBlank_length text
  constructor
  · intro failed
    rcases bind_error failed with first | ⟨⟨value, after⟩, _, ended⟩
    · exact (reached reader _).value first
    · simp only at ended
      split at ended <;> cases ended
  · intro overlong
    have failed : readValue reader (3 * text.length + 1) reader.recursionLimit (skipBlank text) =
        .error .valueError := overlong.raises (by omega)
    simp only [parse, failed]
    rfl

end Library.Json
