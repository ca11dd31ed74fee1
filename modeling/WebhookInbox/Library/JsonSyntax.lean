import WebhookInbox.Library.JsonText

/-!
# Syntax trees of JSON and their texts

A syntax tree keeps what a text says and how it is nested: its objects may repeat a key, and
its numbers are the texts they were written as. `Renders` relates a tree to each of its
texts, with any white space, and any escapes in its strings.
-/

namespace Library.JsonText

open Json

/-- A syntax tree. -/
inductive Tree where
  | word (text : Str)
  | number (number : Number)
  | string (content : Str)
  | array (items : List Tree)
  | object (members : List (Str × Tree))

mutual

/-- The most containers around any place of a tree. -/
def Tree.depth : Tree → Nat
  | .word _ => 0
  | .number _ => 0
  | .string _ => 0
  | .array items => depthItems items + 1
  | .object members => depthMembers members + 1

def Tree.depthItems : List Tree → Nat
  | [] => 0
  | item :: rest => max item.depth (depthItems rest)

def Tree.depthMembers : List (Str × Tree) → Nat
  | [] => 0
  | (_, value) :: rest => max value.depth (depthMembers rest)

end

/-! ## The texts of a string -/

/-- The code unit that four hexadecimal digits write. -/
def Digits4 (unit : Nat) (digits : Str) : Prop := hex4 digits = some (unit, [])

/-- The texts of the content of a string: each character as it is, by its letter, or by one
or two code units. -/
inductive Spells : Str → Str → Prop where
  | nil : Spells [] []
  | plain {point : CodePoint} {content text : Str} (notControl : 0x20 ≤ point.val)
      (notQuote : point ≠ quote) (notSlash : point ≠ backslash) (tail : Spells content text) :
      Spells (point :: content) (point :: text)
  | letter {letter point : CodePoint} {content text : Str} (known : simpleEscape letter = some point)
      (tail : Spells content text) : Spells (point :: content) (backslash :: letter :: text)
  | unit {point : CodePoint} {digits content text : Str} (unit : Digits4 point.val digits)
      (tail : Spells content text) :
      Spells (point :: content) (backslash :: 0x75 :: digits ++ text)
  | pair {point : CodePoint} {high low : Nat} {digits lowDigits content text : Str}
      (isHigh : 0xD800 ≤ high ∧ high ≤ 0xDBFF) (isLow : 0xDC00 ≤ low ∧ low ≤ 0xDFFF)
      (joined : point.val = 0x10000 + (high - 0xD800) * 1024 + (low - 0xDC00))
      (unit : Digits4 high digits) (lowUnit : Digits4 low lowDigits)
      (tail : Spells content text) :
      Spells (point :: content)
        (backslash :: 0x75 :: digits ++ (backslash :: 0x75 :: lowDigits ++ text))

/-- The digits of a code unit are four. -/
theorem Digits4.split {unit : Nat} {digits : Str} (written : Digits4 unit digits) :
    ∃ first second third fourth, digits = [first, second, third, fourth] ∧
      ∀ point ∈ [first, second, third, fourth], (hexValue point).isSome := by
  unfold Digits4 hex4 at written
  split at written
  · rename_i first second third fourth rest
    simp only [Option.bind_eq_bind, Option.bind_eq_some_iff, Option.pure_def, Option.some.injEq,
      Prod.mk.injEq] at written
    obtain ⟨_, one, _, two, _, three, _, four, _, rfl⟩ := written
    refine ⟨first, second, third, fourth, rfl, ?_⟩
    simp only [List.forall_mem_cons, List.not_mem_nil, false_imp_iff, implies_true, and_true]
    exact ⟨by rw [one]; rfl, by rw [two]; rfl, by rw [three]; rfl, by rw [four]; rfl⟩
  · cases written

/-- An escaped code unit before the characters of a string. -/
theorem Chars.unit {unit : Nat} {digits text : Str} (written : Digits4 unit digits)
    (tail : Chars text) : Chars (backslash :: 0x75 :: digits ++ text) := by
  obtain ⟨first, second, third, fourth, rfl, hexadecimal⟩ := written.split
  exact .unicode hexadecimal tail

/-- Such texts are characters of a string. -/
theorem Spells.chars {content text : Str} (spelled : Spells content text) : Chars text := by
  induction spelled with
  | nil => exact .nil
  | plain notControl notQuote notSlash _ inductionHypothesis =>
    exact .unescaped notControl notQuote notSlash inductionHypothesis
  | letter known _ inductionHypothesis =>
    exact .escaped (by rw [known]; rfl) inductionHypothesis
  | unit written _ inductionHypothesis => exact .unit written inductionHypothesis
  | pair _ _ _ written lowWritten _ inductionHypothesis =>
    exact .unit written (.unit lowWritten inductionHypothesis)

/-! ## The texts of a tree -/

/-- What a text can stand for: a value, or what is between the brackets of an array or the
braces of an object. -/
inductive Phrase where
  | value (tree : Tree)
  | items (trees : List Tree)
  | members (pairs : List (Str × Tree))

/-- The most containers around any place of a phrase. -/
def Phrase.depth : Phrase → Nat
  | .value tree => tree.depth
  | .items trees => Tree.depthItems trees
  | .members pairs => Tree.depthMembers pairs

/-- The texts of a phrase. -/
inductive Renders : Phrase → Str → Prop where
  | word {text : Str} {value : Json} (known : (text, value) ∈ words) :
      Renders (.value (.word text)) text
  | number {number : Number} (written : Written number) :
      Renders (.value (.number number)) number.text
  | string {content chars : Str} (spelled : Spells content chars) :
      Renders (.value (.string content)) (quote :: chars ++ [quote])
  | emptyArray {blank : Str} (between : Blank blank) :
      Renders (.value (.array [])) ([0x5B] ++ blank ++ [0x5D])
  | array {trees : List Tree} {text : Str} (listed : Renders (.items trees) text) :
      Renders (.value (.array trees)) ([0x5B] ++ text ++ [0x5D])
  | lastItem {tree : Tree} {before text after : Str} (left : Blank before) (right : Blank after)
      (item : Renders (.value tree) text) : Renders (.items [tree]) (before ++ text ++ after)
  | nextItem {tree : Tree} {trees : List Tree} {before text after rest : Str} (left : Blank before)
      (right : Blank after) (item : Renders (.value tree) text)
      (listed : Renders (.items trees) rest) :
      Renders (.items (tree :: trees)) (before ++ text ++ after ++ [0x2C] ++ rest)
  | emptyObject {blank : Str} (between : Blank blank) :
      Renders (.value (.object [])) ([0x7B] ++ blank ++ [0x7D])
  | object {pairs : List (Str × Tree)} {text : Str} (listed : Renders (.members pairs) text) :
      Renders (.value (.object pairs)) ([0x7B] ++ text ++ [0x7D])
  | lastMember {tree : Tree} {key before chars middle between text after : Str}
      (left : Blank before) (spelled : Spells key chars) (named : Blank middle)
      (valued : Blank between) (right : Blank after) (item : Renders (.value tree) text) :
      Renders (.members [(key, tree)]) (before ++ (quote :: chars ++ [quote]) ++ middle ++ [0x3A] ++
        between ++ text ++ after)
  | nextMember {tree : Tree} {pairs : List (Str × Tree)}
      {key before chars middle between text after rest : Str} (left : Blank before)
      (spelled : Spells key chars) (named : Blank middle) (valued : Blank between)
      (right : Blank after) (item : Renders (.value tree) text)
      (listed : Renders (.members pairs) rest) :
      Renders (.members ((key, tree) :: pairs)) (before ++ (quote :: chars ++ [quote]) ++ middle ++
        [0x3A] ++ between ++ text ++ after ++ [0x2C] ++ rest)

/-- A text of a tree, with white space around it. -/
def Document (tree : Tree) (text : Str) : Prop :=
  ∃ before inner after, Blank before ∧ Blank after ∧ Renders (.value tree) inner ∧
    text = before ++ inner ++ after

end Library.JsonText
