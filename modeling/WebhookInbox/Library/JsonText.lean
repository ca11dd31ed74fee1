import WebhookInbox.Library.JsonGrammar

/-!
# JSON as the standard has it

The grammar of RFC 8259 over whole texts. It knows three words, and numbers that start with a
minus sign or a digit: the words for numbers that are not finite, which Python reads and
writes as well, are not in it.

`Valid.sober` recognises a text that is not valid. Outside its strings, a valid text has
neither of the letters `I` and `N`.
-/

namespace Library.JsonText

open Json

/-! ## The grammar -/

def quote : CodePoint := 0x22

def backslash : CodePoint := 0x5C

/-- `ws` -/
def Blank (text : Str) : Prop := ∀ point ∈ text, isBlank point = true

instance blankDecidable (text : Str) : Decidable (Blank text) :=
  List.decidableBAll (fun point => isBlank point = true) text

/-- `*char` -/
inductive Chars : Str → Prop where
  | nil : Chars []
  | unescaped {point : CodePoint} {rest : Str} (notControl : 0x20 ≤ point.val)
      (notQuote : point ≠ quote) (notSlash : point ≠ backslash) (tail : Chars rest) :
      Chars (point :: rest)
  | escaped {letter : CodePoint} {rest : Str} (known : (simpleEscape letter).isSome)
      (tail : Chars rest) : Chars (backslash :: letter :: rest)
  | unicode {first second third fourth : CodePoint} {rest : Str}
      (digits : ∀ point ∈ [first, second, third, fourth], (hexValue point).isSome)
      (tail : Chars rest) : Chars (backslash :: 0x75 :: first :: second :: third :: fourth :: rest)

/-- A run of digits that is not empty. -/
def Digits (text : Str) : Prop := text ≠ [] ∧ text.all isDigit = true

/-- The parts of a number are `int`, `frac` and `exp`. -/
structure Written (number : Number) : Prop where
  whole : number.whole = [0x30] ∨
    ∃ first rest, number.whole = first :: rest ∧ isDigit first = true ∧ first ≠ 0x30 ∧
      rest.all isDigit = true
  fraction : number.fraction = [] ∨ ∃ digits, Digits digits ∧ number.fraction = 0x2E :: digits
  exponent : number.exponent = [] ∨
    ∃ letter sign digits, (letter = 0x65 ∨ letter = 0x45) ∧
      (sign = [] ∨ sign = [0x2B] ∨ sign = [0x2D]) ∧ Digits digits ∧
      number.exponent = letter :: sign ++ digits

/-- What a text can be: a value, the elements of an array with these texts, or the members
of an object with these names and values. -/
inductive Part where
  | value
  | elements (values : List Str)
  | members (pairs : List (Str × Str))

/-- `value`, and what stands between the brackets of an array and the braces of an object. -/
inductive Valid : Part → Str → Prop where
  | word {text : Str} (known : text ∈ [lit "false", lit "null", lit "true"]) : Valid .value text
  | number {number : Number} (written : Written number) : Valid .value number.text
  | string {chars : Str} (quoted : Chars chars) : Valid .value (quote :: chars ++ [quote])
  | emptyArray {blank : Str} (between : Blank blank) : Valid .value ([0x5B] ++ blank ++ [0x5D])
  | array {values : List Str} {text : Str} (listed : Valid (.elements values) text) :
      Valid .value ([0x5B] ++ text ++ [0x5D])
  | lastElement {before value after : Str} (left : Blank before) (right : Blank after)
      (first : Valid .value value) : Valid (.elements [value]) (before ++ value ++ after)
  | nextElement {before value after text : Str} {values : List Str} (left : Blank before)
      (right : Blank after) (first : Valid .value value) (listed : Valid (.elements values) text) :
      Valid (.elements (value :: values)) (before ++ value ++ after ++ [0x2C] ++ text)
  | emptyObject {blank : Str} (between : Blank blank) : Valid .value ([0x7B] ++ blank ++ [0x7D])
  | object {pairs : List (Str × Str)} {text : Str} (listed : Valid (.members pairs) text) :
      Valid .value ([0x7B] ++ text ++ [0x7D])
  | lastMember {before name middle between value after : Str} (left : Blank before)
      (quoted : Chars name) (named : Blank middle) (valued : Blank between) (right : Blank after)
      (first : Valid .value value) :
      Valid (.members [(name, value)]) (before ++ (quote :: name ++ [quote]) ++ middle ++ [0x3A] ++
        between ++ value ++ after)
  | nextMember {before name middle between value after text : Str} {pairs : List (Str × Str)}
      (left : Blank before) (quoted : Chars name) (named : Blank middle) (valued : Blank between)
      (right : Blank after) (first : Valid .value value) (listed : Valid (.members pairs) text) :
      Valid (.members ((name, value) :: pairs)) (before ++ (quote :: name ++ [quote]) ++ middle ++
        [0x3A] ++ between ++ value ++ after ++ [0x2C] ++ text)

/-- A text is an array with elements of these texts, up to white space around it. -/
def IsArray (values : List Str) (text : Str) : Prop :=
  ∃ before inner after, Blank before ∧ Blank after ∧
    text = before ++ ([0x5B] ++ inner ++ [0x5D]) ++ after ∧
    (values = [] ∧ Blank inner ∨ Valid (.elements values) inner)

/-- A text is an object with members of these names and values. -/
def IsObject (pairs : List (Str × Str)) (text : Str) : Prop :=
  ∃ before inner after, Blank before ∧ Blank after ∧
    text = before ++ ([0x7B] ++ inner ++ [0x7D]) ++ after ∧
    (pairs = [] ∧ Blank inner ∨ Valid (.members pairs) inner)

/-! ## Joined texts -/

section
variable {opening blank closing : Str} (left : Blank opening) (between : Blank blank)
  (right : Blank closing)

include left between right

/-- Values that are joined by commas are the elements of an array. -/
theorem elements_joined {texts : List Str} (valid : ∀ text ∈ texts, Valid .value text)
    (filled : texts ≠ []) :
    Valid (.elements texts)
      (opening ++ List.intercalate (0x2C :: blank) texts ++ closing) := by
  induction texts generalizing opening with
  | nil => exact absurd rfl filled
  | cons text rest inductionHypothesis =>
    obtain ⟨first, others⟩ := List.forall_mem_cons.mp valid
    cases rest with
    | nil =>
      rw [List.intercalate_singleton]
      exact .lastElement left right first
    | cons next rest =>
      have listed := inductionHypothesis between others (List.cons_ne_nil _ _)
      have whole := Valid.nextElement left (List.forall_mem_nil _) first listed
      simpa [List.intercalate_cons_cons] using whole

/-- Names and values that are joined by commas are the members of an object. -/
theorem members_joined {gap : Str} (space : Blank gap) {pairs : List (Str × Str)}
    (valid : ∀ pair ∈ pairs, Chars pair.1 ∧ Valid .value pair.2) (filled : pairs ≠ []) :
    Valid (.members pairs) (opening ++ List.intercalate (0x2C :: blank)
      (pairs.map (fun pair => quote :: pair.1 ++ [quote] ++ 0x3A :: gap ++ pair.2)) ++
        closing) := by
  induction pairs generalizing opening with
  | nil => exact absurd rfl filled
  | cons pair rest inductionHypothesis =>
    obtain ⟨first, others⟩ := List.forall_mem_cons.mp valid
    cases rest with
    | nil =>
      have whole := Valid.lastMember left first.1 (List.forall_mem_nil _) space right first.2
      simpa [List.intercalate_singleton] using whole
    | cons next rest =>
      have listed := inductionHypothesis between others (List.cons_ne_nil _ _)
      have whole := Valid.nextMember left first.1 (List.forall_mem_nil _) space
        (List.forall_mem_nil _) first.2 listed
      simpa [List.intercalate_cons_cons] using whole

end

/-! ## Outside the strings -/

/-- Where a scan of a text is. -/
inductive Place where
  | outside
  | inside
  | escaped

/-- The characters of a text outside its strings. -/
def bareFrom : Place → Str → Str
  | _, [] => []
  | .outside, point :: rest =>
      if point = quote then bareFrom .inside rest else point :: bareFrom .outside rest
  | .inside, point :: rest =>
      if point = quote then bareFrom .outside rest
      else if point = backslash then bareFrom .escaped rest
      else bareFrom .inside rest
  | .escaped, _ :: rest => bareFrom .inside rest

def bare (text : Str) : Str := bareFrom .outside text

theorem bare_nil : bare [] = [] := rfl

/-- A scan that starts outside a string ends there. -/
def Closed (text : Str) : Prop := ∀ rest, bare (text ++ rest) = bare text ++ bare rest

/-- Closed texts follow each other. -/
theorem Closed.append {first second : Str} (left : Closed first) (right : Closed second) :
    Closed (first ++ second) := by
  intro rest
  rw [List.append_assoc, left, right, left, List.append_assoc]

/-- Text without quotes. -/
theorem bare_plain {text : Str} (plain : quote ∉ text) (rest : Str) :
    bare (text ++ rest) = text ++ bare rest := by
  induction text with
  | nil => rfl
  | cons point text inductionHypothesis =>
    have notQuote : point ≠ quote := fun same => plain (same ▸ List.mem_cons_self)
    have later := inductionHypothesis (fun member => plain (List.mem_cons_of_mem _ member))
    rw [bare, List.cons_append, bareFrom, if_neg notQuote]
    exact congrArg (point :: ·) later

theorem bare_of_plain {text : Str} (plain : quote ∉ text) : bare text = text := by
  have whole := bare_plain plain []
  rwa [bare_nil, List.append_nil] at whole

theorem closed_plain {text : Str} (plain : quote ∉ text) : Closed text := by
  intro rest
  rw [bare_plain plain, bare_of_plain plain]

/-- The characters of a string are skipped. -/
theorem Chars.skipped {chars : Str} (quoted : Chars chars) (rest : Str) :
    bareFrom .inside (chars ++ quote :: rest) = bare rest := by
  induction quoted with
  | nil => rw [List.nil_append, bareFrom, if_pos rfl, bare]
  | unescaped _ notQuote notSlash _ inductionHypothesis =>
    rw [List.cons_append, bareFrom, if_neg notQuote, if_neg notSlash, inductionHypothesis]
  | escaped _ _ inductionHypothesis =>
    rw [List.cons_append, List.cons_append, bareFrom, if_neg (by decide), if_pos rfl, bareFrom,
      inductionHypothesis]
  | unicode digits _ inductionHypothesis =>
    have plain : ∀ point : CodePoint, (hexValue point).isSome →
        point ≠ quote ∧ point ≠ backslash := by
      intro point digit
      constructor <;> rintro rfl <;> revert digit <;> decide
    have apart := fun point member => plain point (digits point member)
    simp only [List.forall_mem_cons, List.not_mem_nil, false_imp_iff, implies_true,
      and_true] at apart
    obtain ⟨first, second, third, fourth⟩ := apart
    simp only [List.cons_append, bareFrom, first.1, first.2, second.1, second.2, third.1, third.2,
      fourth.1, fourth.2, inductionHypothesis, ↓reduceIte]
    rfl

/-- A string has no character outside. -/
theorem bare_string {chars : Str} (quoted : Chars chars) (rest : Str) :
    bare (quote :: chars ++ [quote] ++ rest) = bare rest := by
  rw [bare, List.append_assoc, List.cons_append, bareFrom, if_pos rfl, List.singleton_append,
    quoted.skipped]

/-- The text is closed, and neither `I` nor `N` stands outside its strings. -/
structure Sober (text : Str) : Prop where
  closed : Closed text
  letters : ∀ point ∈ bare text, point ≠ 0x49 ∧ point ≠ 0x4E

/-- Such texts follow each other. -/
theorem Sober.append {first second : Str} (left : Sober first) (right : Sober second) :
    Sober (first ++ second) := by
  refine ⟨left.closed.append right.closed, ?_⟩
  intro point member
  rw [left.closed, List.mem_append] at member
  exact member.elim (left.letters point) (right.letters point)

/-- Text without quotes and without the two letters. -/
theorem sober_plain {text : Str}
    (plain : ∀ point ∈ text, point ≠ quote ∧ point ≠ 0x49 ∧ point ≠ 0x4E) : Sober text := by
  have noQuote : quote ∉ text := fun member => (plain quote member).1 rfl
  refine ⟨closed_plain noQuote, ?_⟩
  rw [bare_of_plain noQuote]
  exact fun point member => (plain point member).2

/-- One other character. -/
theorem sober_single {point : CodePoint}
    (other : point ≠ quote ∧ point ≠ 0x49 ∧ point ≠ 0x4E) : Sober [point] := by
  apply sober_plain
  intro single member
  rw [List.mem_singleton.mp member]
  exact other

/-- A string. -/
theorem sober_string {chars : Str} (quoted : Chars chars) : Sober (quote :: chars ++ [quote]) := by
  have none : bare (quote :: chars ++ [quote]) = [] := by
    have whole := bare_string quoted []
    rwa [bare_nil, List.append_nil] at whole
  constructor
  · intro rest
    rw [bare_string quoted, none, List.nil_append]
  · rw [none]
    exact fun point member => absurd member List.not_mem_nil

/-- White space. -/
theorem Blank.sober {text : Str} (blank : Blank text) : Sober text := by
  apply sober_plain
  intro point member
  have white := blank point member
  refine ⟨?_, ?_, ?_⟩ <;> rintro rfl <;> revert white <;> decide

/-- Numbers consist of numeric characters. -/
theorem Written.numeric {number : Number} (written : Written number) :
    ∀ point ∈ number.text, isNumeric point = true := by
  have digits : ∀ {text : Str}, text.all isDigit = true → ∀ point ∈ text,
      isNumeric point = true :=
    fun all point member => isNumeric_of_isDigit (List.all_eq_true.mp all point member)
  have sign : ∀ point ∈ (if number.negative then lit "-" else []), isNumeric point = true := by
    rw [← List.all_eq_true]
    cases number.negative <;> decide +kernel
  have whole : ∀ point ∈ number.whole, isNumeric point = true := by
    rcases written.whole with zero | ⟨first, rest, same, digit, _, others⟩
    · rw [zero, List.forall_mem_singleton]
      decide
    · rw [same]
      exact List.forall_mem_cons.mpr ⟨isNumeric_of_isDigit digit, digits others⟩
  have fraction : ∀ point ∈ number.fraction, isNumeric point = true := by
    rcases written.fraction with absent | ⟨run, isRun, same⟩
    · rw [absent]
      exact List.forall_mem_nil _
    · rw [same]
      exact List.forall_mem_cons.mpr ⟨by decide, digits isRun.2⟩
  have exponent : ∀ point ∈ number.exponent, isNumeric point = true := by
    rcases written.exponent with absent | ⟨letter, signs, run, isLetter, isSign, isRun, same⟩
    · rw [absent]
      exact List.forall_mem_nil _
    · rw [same, List.cons_append]
      have letterNumeric : isNumeric letter = true := by rcases isLetter with rfl | rfl <;> decide +kernel
      have signNumeric : ∀ point ∈ signs, isNumeric point = true := by
        rw [← List.all_eq_true]
        rcases isSign with rfl | rfl | rfl <;> decide
      refine List.forall_mem_cons.mpr ⟨letterNumeric, ?_⟩
      exact List.forall_mem_append.mpr ⟨signNumeric, digits isRun.2⟩
  simp only [Number.text, List.forall_mem_append]
  exact ⟨⟨⟨sign, whole⟩, fraction⟩, exponent⟩

/-- Numeric text. -/
theorem sober_numeric {text : Str} (numeric : ∀ point ∈ text, isNumeric point = true) :
    Sober text := by
  apply sober_plain
  intro point member
  have own := numeric point member
  refine ⟨?_, ?_, ?_⟩ <;> rintro rfl <;> revert own <;> decide

/-- Outside its strings a valid text has neither of the two letters.

Proof: by induction on the grammar, piece by piece. -/
theorem Valid.sober {part : Part} {text : Str} (valid : Valid part text) : Sober text := by
  have opens : Sober [0x5B] := sober_single (by decide)
  have closes : Sober [0x5D] := sober_single (by decide)
  have begins : Sober [0x7B] := sober_single (by decide)
  have ends : Sober [0x7D] := sober_single (by decide)
  have comma : Sober [0x2C] := sober_single (by decide)
  have colon : Sober [0x3A] := sober_single (by decide)
  induction valid with
  | @word text known =>
    have plain : text.all (fun point =>
        decide (point ≠ quote ∧ point ≠ 0x49 ∧ point ≠ 0x4E)) = true := by
      simp only [List.mem_cons, List.not_mem_nil, or_false] at known
      rcases known with rfl | rfl | rfl <;> decide +kernel
    exact sober_plain (fun point member => of_decide_eq_true (List.all_eq_true.mp plain point member))
  | number written => exact sober_numeric written.numeric
  | string quoted => exact sober_string quoted
  | emptyArray between =>
    exact (opens.append between.sober).append closes
  | array _ inductionHypothesis => exact (opens.append inductionHypothesis).append closes
  | lastElement left right _ inductionHypothesis =>
    exact (left.sober.append inductionHypothesis).append right.sober
  | nextElement left right _ _ firstHypothesis restHypothesis =>
    exact (((left.sober.append firstHypothesis).append right.sober).append comma).append
      restHypothesis
  | emptyObject between =>
    exact (begins.append between.sober).append ends
  | object _ inductionHypothesis => exact (begins.append inductionHypothesis).append ends
  | lastMember left quoted named valued right _ inductionHypothesis =>
    have name := (left.sober.append (sober_string quoted)).append named.sober
    exact (((name.append colon).append valued.sober).append
      inductionHypothesis).append right.sober
  | nextMember left quoted named valued right _ _ firstHypothesis restHypothesis =>
    have name := (left.sober.append (sober_string quoted)).append named.sober
    have first := (((name.append colon).append valued.sober).append
      firstHypothesis).append right.sober
    exact (first.append comma).append restHypothesis

/-- So has the text of an object. -/
theorem IsObject.sober {pairs : List (Str × Str)} {text : Str} (object : IsObject pairs text) :
    Sober text := by
  obtain ⟨before, inner, after, left, right, rfl, held⟩ := object
  have valid : Valid .value ([0x7B] ++ inner ++ [0x7D]) := by
    rcases held with ⟨_, blank⟩ | listed
    · exact .emptyObject blank
    · exact .object listed
  exact (left.sober.append valid.sober).append right.sober

/-- A valid text that starts with a brace is an object. -/
theorem Valid.isObject {text : Str} (valid : Valid .value text) (starts : text.head? = some 0x7B) :
    ∃ pairs, IsObject pairs text := by
  have none : Blank [] := List.forall_mem_nil _
  cases valid with
  | word known =>
    simp only [List.mem_cons, List.not_mem_nil, or_false] at known
    rcases known with rfl | rfl | rfl <;> cases starts
  | number written =>
    exact absurd (written.numeric 0x7B (List.mem_of_head? starts)) (by decide)
  | string quoted => cases starts
  | emptyArray between => cases starts
  | array listed => cases starts
  | @emptyObject blank between =>
    exact ⟨[], [], blank, [], none, none, by simp, .inl ⟨rfl, between⟩⟩
  | @object pairs inner listed => exact ⟨pairs, [], inner, [], none, none, by simp, .inr listed⟩

end Library.JsonText
