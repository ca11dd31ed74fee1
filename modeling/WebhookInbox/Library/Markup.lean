import WebhookInbox.Library.Scanner
import WebhookInbox.Library.Text

/-!
# Markup

A text of HTML is read as tags and characters between them. Escaped text has no tag, and
unescaping gives back what was escaped.

The reader is the tokeniser of the standard as far as tags, values of attributes and
comments are concerned; what a browser makes of the tags is not modelled.
-/

namespace Library.Markup

open Scanner

def less : CodePoint := 0x3C

def greater : CodePoint := 0x3E

/-! ## Escaping -/

/-- The characters that are escaped, and their references. -/
def references : List (CodePoint × Str) :=
  [(0x26, lit "&amp;"), (greater, lit "&gt;"), (less, lit "&lt;"), (0x27, lit "&#39;"),
    (0x22, lit "&#34;")]

/-- A character, or the reference that stands for it. -/
def escapeChar (point : CodePoint) : Str :=
  ((references.find? (fun reference => decide (reference.1 = point))).map Prod.snd).getD [point]

/-- `markupsafe.escape(text)` -/
def escape (text : Str) : Str := text.flatMap escapeChar

/-- `html.unescape`, as far as these references go: each is replaced, and characters that
begin no reference stay. -/
structure Unescaping where
  unescape : Str → Str
  unescape_nil : unescape [] = []
  unescape_plain : ∀ point rest, point ≠ 0x26 → unescape (point :: rest) = point :: unescape rest
  unescape_reference : ∀ reference ∈ references, ∀ rest,
    unescape (reference.2 ++ rest) = reference.1 :: unescape rest

/-- Each reference is replaced where it starts; the count says how many characters of one are
still to be passed over. -/
def unescapeFrom : Nat → Str → Str
  | _, [] => []
  | count + 1, _ :: rest => unescapeFrom count rest
  | 0, point :: rest =>
      match references.find? (fun reference => reference.2.isPrefixOf (point :: rest)) with
      | some reference => reference.1 :: unescapeFrom (reference.2.length - 1) rest
      | none => point :: unescapeFrom 0 rest

/-- The table of these references alone is one admissible unescaping. -/
def Unescaping.table : Unescaping where
  unescape := unescapeFrom 0
  unescape_nil := rfl
  unescape_plain point rest notAmpersand := by
    have none : references.find? (fun reference => reference.2.isPrefixOf (point :: rest)) =
        none := by
      have starts : references.all (fun reference => decide (reference.2.head? = some 0x26)) =
          true := by decide +kernel
      rw [List.find?_eq_none]
      intro reference member begins
      have first := of_decide_eq_true (List.all_eq_true.mp starts reference member)
      obtain ⟨later, whole⟩ := List.isPrefixOf_iff_prefix.mp begins
      cases text : reference.2 with
      | nil =>
        rw [text] at first
        cases first
      | cons head tail =>
        rw [text, List.cons_append] at whole
        rw [text, List.head?_cons] at first
        exact notAmpersand ((List.cons.inj whole).1.symm.trans (Option.some.inj first))
    rw [unescapeFrom, none]
  unescape_reference reference member rest := by
    simp only [references, List.mem_cons, List.not_mem_nil, or_false] at member
    rcases member with rfl | rfl | rfl | rfl | rfl <;> rfl

/-- A character that is not escaped. -/
theorem escapeChar_plain {point : CodePoint}
    (plain : ∀ reference ∈ references, reference.1 ≠ point) : escapeChar point = [point] := by
  have absent : references.find? (fun reference => decide (reference.1 = point)) = none := by
    rw [List.find?_eq_none]
    intro reference member
    simpa using plain reference member
  rw [escapeChar, absent]
  rfl

/-- A character is escaped by its reference, or is not escaped and is no ampersand. -/
theorem escapeChar_cases (point : CodePoint) :
    (∃ reference ∈ references, reference.1 = point ∧ escapeChar point = reference.2) ∨
      (escapeChar point = [point] ∧ ∀ reference ∈ references, reference.1 ≠ point) := by
  by_cases listed : ∃ reference ∈ references, reference.1 = point
  · obtain ⟨reference, member, rfl⟩ := listed
    refine .inl ⟨reference, member, rfl, ?_⟩
    have table : references.all (fun reference =>
        decide (escapeChar reference.1 = reference.2)) = true := by decide +kernel
    exact of_decide_eq_true (List.all_eq_true.mp table reference member)
  · have plain : ∀ reference ∈ references, reference.1 ≠ point :=
      fun reference member same => listed ⟨reference, member, same⟩
    exact .inr ⟨escapeChar_plain plain, plain⟩

/-- Unescaping gives back what was escaped. -/
theorem unescape_escape (unescaping : Unescaping) (text rest : Str) :
    unescaping.unescape (escape text ++ rest) = text ++ unescaping.unescape rest := by
  induction text with
  | nil => rfl
  | cons point later inductionHypothesis =>
    rw [escape, List.flatMap_cons, ← escape, List.append_assoc, List.cons_append]
    rcases escapeChar_cases point with ⟨reference, member, same, escaped⟩ | ⟨escaped, plain⟩
    · rw [escaped, unescaping.unescape_reference reference member, same, inductionHypothesis]
    · have notAmpersand : point ≠ 0x26 := by
        rintro rfl
        exact plain _ List.mem_cons_self rfl
      rw [escaped, List.singleton_append, unescaping.unescape_plain point _ notAmpersand,
        inductionHypothesis]

/-- Escaped text opens no tag. -/
theorem less_not_mem_escape (text : Str) : less ∉ escape text := by
  intro member
  obtain ⟨point, _, inside⟩ := List.mem_flatMap.mp member
  rcases escapeChar_cases point with ⟨reference, listed, _, escaped⟩ | ⟨escaped, plain⟩
  · rw [escaped] at inside
    have table : references.all (fun reference => decide (less ∉ reference.2)) = true := by
      decide +kernel
    exact of_decide_eq_true (List.all_eq_true.mp table reference listed) inside
  · rw [escaped, List.mem_singleton] at inside
    exact plain (less, lit "&lt;") (by decide) inside

/-! ## Reading -/

/-- A character outside of tags, or what stands between the angle brackets of a tag. -/
inductive Token where
  | character (point : CodePoint)
  | tag (source : Str)
deriving DecidableEq

/-- Where the reader is: between tags, after `<` or `</`, in a tag outside of values, before a
value, in one with or without quotation marks, or in a comment. -/
inductive State where
  | data
  | opened
  | ended
  | tag (source : Str)
  | value (source : Str)
  | quoted (mark : CodePoint) (source : Str)
  | unquoted (source : Str)
  | comment
deriving DecidableEq

/-- An ASCII letter. -/
def isLetter (point : CodePoint) : Bool :=
  decide ((0x41 ≤ point.val ∧ point.val ≤ 0x5A) ∨ (0x61 ≤ point.val ∧ point.val ≤ 0x7A))

/-- White space between attributes. -/
def isBlank (point : CodePoint) : Bool :=
  decide (point ∈ [0x20, 0x09, 0x0A, 0x0C, 0x0D])

/-- One character is read. -/
def step : State → CodePoint → State × List Token
  | .data, point => if point = less then (.opened, []) else (.data, [.character point])
  | .opened, point =>
      if isLetter point then (.tag [point], [])
      else if point = 0x2F then (.ended, [])
      else if point = 0x21 ∨ point = 0x3F then (.comment, [])
      else if point = less then (.opened, [.character less])
      else (.data, [.character less, .character point])
  | .ended, point =>
      if isLetter point then (.tag [0x2F, point], [])
      else if point = greater then (.data, [])
      else (.comment, [])
  | .tag source, point =>
      if point = greater then (.data, [.tag source])
      else if point = 0x3D then (.value (source ++ [point]), [])
      else (.tag (source ++ [point]), [])
  | .value source, point =>
      if point = greater then (.data, [.tag source])
      else if isBlank point then (.value (source ++ [point]), [])
      else if point = 0x22 ∨ point = 0x27 then (.quoted point (source ++ [point]), [])
      else (.unquoted (source ++ [point]), [])
  | .quoted mark source, point =>
      if point = mark then (.tag (source ++ [point]), [])
      else (.quoted mark (source ++ [point]), [])
  | .unquoted source, point =>
      if point = greater then (.data, [.tag source])
      else if isBlank point then (.tag (source ++ [point]), [])
      else (.unquoted (source ++ [point]), [])
  | .comment, point => if point = greater then (.data, []) else (.comment, [])

/-- The tags and characters of a text. -/
def tokens (text : Str) : List Token := (scan step .data text).1

/-- The text can be read by itself. -/
def Whole (text : Str) : Prop := Returns step .data text

instance wholeDecidable (text : Str) : Decidable (Whole text) :=
  inferInstanceAs (Decidable (_ = _))

/-- What stands between the angle brackets of a token, if it is a tag. -/
def Token.source : Token → Option Str
  | .character _ => none
  | .tag source => some source

/-- The tags of a text. -/
def tags (text : Str) : List Str := (tokens text).filterMap Token.source

/-- Text without `<` is characters. -/
theorem scan_plain {text : Str} (plain : less ∉ text) :
    scan step .data text = (text.map Token.character, .data) := by
  refine scan_of_stays ?_
  intro point member
  have other : point ≠ less := fun same => plain (same ▸ member)
  rw [step, if_neg other]

theorem whole_plain {text : Str} (plain : less ∉ text) : Whole text := by
  rw [Whole, Returns, scan_plain plain]

theorem tokens_plain {text : Str} (plain : less ∉ text) :
    tokens text = text.map Token.character := by
  rw [tokens, scan_plain plain]

/-- It has no tags. -/
theorem tags_plain {text : Str} (plain : less ∉ text) : tags text = [] := by
  rw [tags, tokens_plain plain, List.filterMap_map]
  exact List.filterMap_eq_nil_iff.mpr (fun _ _ => rfl)

theorem tokens_append {first : Str} (whole : Whole first) (second : Str) :
    tokens (first ++ second) = tokens first ++ tokens second :=
  whole.written second

theorem tags_append {first : Str} (whole : Whole first) (second : Str) :
    tags (first ++ second) = tags first ++ tags second := by
  rw [tags, tokens_append whole, List.filterMap_append]
  rfl

/-! ## Elements -/

/-- The name of a tag, without the slash of an end tag. -/
def name (source : Str) : Str :=
  (if Text.startsWith source [0x2F] then source.drop 1 else source).takeWhile isLetter

/-- The elements that are open after the tags, the innermost first, if every end tag ends
the innermost one. -/
def unwind : List Str → List Str → Option (List Str)
  | opened, [] => some opened
  | opened, source :: rest =>
      if Text.startsWith source [0x2F] then
        match opened with
        | [] => none
        | innermost :: outer => if innermost = name source then unwind outer rest else none
      else unwind (name source :: opened) rest

/-- Every element that is opened is ended, in the right order. -/
def Balanced (sources : List Str) : Prop := ∀ opened, unwind opened sources = some opened

theorem unwind_append (opened first second : List Str) :
    unwind opened (first ++ second) = (unwind opened first).bind (unwind · second) := by
  induction first generalizing opened with
  | nil => rfl
  | cons source rest inductionHypothesis =>
    simp only [List.cons_append, unwind]
    split
    · cases opened with
      | nil => rfl
      | cons innermost outer =>
        simp only
        split
        · exact inductionHypothesis outer
        · rfl
    · exact inductionHypothesis _

theorem Balanced.nil : Balanced [] := fun _ => rfl

theorem Balanced.append {first second : List Str} (left : Balanced first)
    (right : Balanced second) : Balanced (first ++ second) := by
  intro opened
  rw [unwind_append, left opened, Option.bind_some, right opened]

/-- An element around balanced tags. -/
theorem Balanced.element {opening ending : Str} {inner : List Str} (balanced : Balanced inner)
    (opens : Text.startsWith opening [0x2F] = false) (ends : Text.startsWith ending [0x2F] = true)
    (same : name opening = name ending) : Balanced (opening :: (inner ++ [ending])) := by
  intro opened
  have inside : unwind (name ending :: opened) (inner ++ [ending]) =
      unwind (name ending :: opened) [ending] := by
    rw [unwind_append, balanced]
    rfl
  simp only [unwind, opens, ends, inside, same, Bool.false_eq_true, ↓reduceIte]

/-! ## What elements say -/

/-- The element that is being read, with the characters so far, if it is one of the wanted
ones. A tag ends it. -/
def collect (wanted : List Str) : Option (Str × Str) → Token → Option (Str × Str) × List (Str × Str)
  | none, .character _ => (none, [])
  | some (source, read), .character point => (some (source, read ++ [point]), [])
  | current, .tag source => (if source ∈ wanted then some (source, []) else none, current.toList)

/-- The wanted elements of a text, each with the characters up to the next tag. -/
def elements (wanted : List Str) (text : Str) : List (Str × Str) :=
  (scan (collect wanted) none (tokens text)).1

/-- The text can be read by itself, and no wanted element goes on after it. -/
structure Fragment (wanted : List Str) (text : Str) : Prop where
  whole : Whole text
  ended : Returns (collect wanted) none (tokens text)

instance fragmentDecidable (wanted : List Str) (text : Str) : Decidable (Fragment wanted text) :=
  decidable_of_iff (Whole text ∧ (scan (collect wanted) none (tokens text)).2 = none)
    ⟨fun both => ⟨both.1, both.2⟩, fun fragment => ⟨fragment.whole, fragment.ended⟩⟩

section
variable {wanted : List Str}

theorem Fragment.nil : Fragment wanted [] := ⟨rfl, rfl⟩

/-- Fragments follow each other. -/
theorem Fragment.append {first second : Str} (left : Fragment wanted first)
    (right : Fragment wanted second) : Fragment wanted (first ++ second) := by
  refine ⟨left.whole.append right.whole, ?_⟩
  rw [tokens_append left.whole]
  exact left.ended.append right.ended

/-- Their elements too. -/
theorem elements_append {first : Str} (left : Fragment wanted first) (second : Str) :
    elements wanted (first ++ second) = elements wanted first ++ elements wanted second := by
  rw [elements, tokens_append left.whole, left.ended.written]
  rfl

/-- Characters continue the element that is being read. -/
theorem scan_characters (source read text : Str) :
    scan (collect wanted) (some (source, read)) (text.map Token.character) =
      ([], some (source, read ++ text)) := by
  induction text generalizing read with
  | nil => rw [List.map_nil, scan_nil, List.append_nil]
  | cons point rest inductionHypothesis =>
    rw [List.map_cons, scan_cons]
    simp only [collect, inductionHypothesis, List.append_assoc, List.singleton_append,
      List.nil_append]

/-- Characters outside the wanted elements are skipped. -/
theorem scan_skipped (text : Str) :
    scan (collect wanted) none (text.map Token.character) = ([], none) := by
  induction text with
  | nil => rfl
  | cons point rest inductionHypothesis =>
    rw [List.map_cons, scan_cons]
    simp only [collect, inductionHypothesis, List.nil_append]

theorem fragment_plain {text : Str} (plain : less ∉ text) : Fragment wanted text := by
  refine ⟨whole_plain plain, ?_⟩
  rw [tokens_plain plain, Returns, scan_skipped]

theorem elements_plain {text : Str} (plain : less ∉ text) : elements wanted text = [] := by
  rw [elements, tokens_plain plain, scan_skipped]

/-- The text is a fragment with these tags and these wanted elements. -/
structure Reads (wanted : List Str) (text : Str) (sources : List Str)
    (found : List (Str × Str)) : Prop where
  fragment : Fragment wanted text
  tags : tags text = sources
  elements : elements wanted text = found

instance readsDecidable (wanted : List Str) (text : Str) (sources : List Str)
    (found : List (Str × Str)) : Decidable (Reads wanted text sources found) :=
  decidable_of_iff (Fragment wanted text ∧ Markup.tags text = sources ∧
      Markup.elements wanted text = found)
    ⟨fun all => ⟨all.1, all.2.1, all.2.2⟩, fun reads => ⟨reads.fragment, reads.tags, reads.elements⟩⟩

theorem Reads.nil : Reads wanted [] [] [] := ⟨.nil, rfl, rfl⟩

/-- Such texts follow each other. -/
theorem Reads.append {first second : Str} {sources others : List Str}
    {found more : List (Str × Str)} (left : Reads wanted first sources found)
    (right : Reads wanted second others more) :
    Reads wanted (first ++ second) (sources ++ others) (found ++ more) := by
  refine ⟨left.fragment.append right.fragment, ?_, ?_⟩
  · rw [tags_append left.fragment.whole, left.tags, right.tags]
  · rw [elements_append left.fragment, left.elements, right.elements]

/-- Text without `<`. -/
theorem Reads.plain {text : Str} (plain : less ∉ text) : Reads wanted text [] [] :=
  ⟨fragment_plain plain, tags_plain plain, elements_plain plain⟩

/-- A wanted element of text without `<`. -/
theorem Reads.element {opening text ending source final : Str}
    (opens : scan step .data opening = ([.tag source], .data)) (wants : source ∈ wanted)
    (plain : less ∉ text) (ends : scan step .data ending = ([.tag final], .data))
    (unwanted : final ∉ wanted) :
    Reads wanted (opening ++ text ++ ending) [source, final] [(source, text)] := by
  have read : scan step .data (opening ++ text ++ ending) =
      (.tag source :: (text.map Token.character ++ [.tag final]), .data) := by
    rw [List.append_assoc, scan_append, opens, scan_append, scan_plain plain, ends]
    rfl
  have collected : scan (collect wanted) none
      (.tag source :: (text.map Token.character ++ [.tag final])) = ([(source, text)], none) := by
    rw [scan_cons]
    simp only [collect, wants, ↓reduceIte, Option.toList_none, List.nil_append]
    rw [scan_append, scan_characters, scan_cons]
    simp [collect, unwanted]
  have characters : (text.map Token.character).filterMap Token.source = [] := by
    rw [List.filterMap_map]
    exact List.filterMap_eq_nil_iff.mpr (fun _ _ => rfl)
  refine ⟨⟨?_, ?_⟩, ?_, ?_⟩
  · rw [Whole, Returns, read]
  · rw [tokens, read, Returns, collected]
  · rw [Markup.tags, tokens, read]
    simp only [List.filterMap_cons, List.filterMap_append, characters, Token.source,
      List.filterMap_nil, List.nil_append]
  · rw [Markup.elements, tokens, read, collected]

end

end Library.Markup
