import WebhookInbox.Library.Text

/-!
# Decoding bytes to text

UTF-8 is read by a machine that takes one byte at a time. It either completes a
character, starts or continues one, or reports the longest invalid part, so one
definition serves strict decoding and decoding with replacement characters.
With surrogates admitted it is the decoder of the `surrogatepass` handler.

UTF-16 and UTF-32 follow, and the detection that `json.loads` applies to bytes.
A fold that treats every unit above ASCII alike sees the same in UTF-8 bytes as
in the decoded characters; `foldl_decodeUtf8` states this once for any such fold.
-/

namespace Library.Encoding

universe u

/-- A character that some bytes have started: how many bytes it still owes, the
bits read so far, and the range of the next byte. -/
structure Pending where
  owed : Nat
  value : Nat
  low : Nat
  high : Nat

/-- A number as a code point, missing when it is too large. -/
def codePoint? (value : Nat) : Option CodePoint :=
  if inside : value < 0x110000 then some ⟨value, inside⟩ else none

/-- The first byte of a character. It completes an ASCII character, starts a
longer one, or is invalid. -/
def start (surrogates : Bool) (byte : Nat) : List (Option CodePoint) × Option Pending :=
  if byte < 0x80 then ([codePoint? byte], none)
  else if 0xC2 ≤ byte ∧ byte ≤ 0xDF then ([], some ⟨1, byte % 32, 0x80, 0xBF⟩)
  else if byte = 0xE0 then ([], some ⟨2, 0, 0xA0, 0xBF⟩)
  else if byte = 0xED then ([], some ⟨2, 13, 0x80, if surrogates then 0xBF else 0x9F⟩)
  else if 0xE1 ≤ byte ∧ byte ≤ 0xEF then ([], some ⟨2, byte % 16, 0x80, 0xBF⟩)
  else if byte = 0xF0 then ([], some ⟨3, 0, 0x90, 0xBF⟩)
  else if byte = 0xF4 then ([], some ⟨3, 4, 0x80, 0x8F⟩)
  else if 0xF1 ≤ byte ∧ byte ≤ 0xF3 then ([], some ⟨3, byte % 8, 0x80, 0xBF⟩)
  else ([none], none)

/-- One byte. A byte that cannot continue the started character ends it as
invalid and is read again as a first byte. -/
def feed (surrogates : Bool) : Option Pending → Nat → List (Option CodePoint) × Option Pending
  | none, byte => start surrogates byte
  | some pending, byte =>
      if pending.low ≤ byte ∧ byte ≤ pending.high then
        let value := pending.value * 64 + byte % 64
        if pending.owed = 1 then ([codePoint? value], none)
        else ([], some ⟨pending.owed - 1, value, 0x80, 0xBF⟩)
      else (none :: (start surrogates byte).1, (start surrogates byte).2)

/-- The characters of a byte string in order, with a hole for each invalid part. -/
def items (surrogates : Bool) : Option Pending → Bytes → List (Option CodePoint)
  | none, [] => []
  | some _, [] => [none]
  | pending, byte :: rest =>
      (feed surrogates pending byte.toNat).1 ++
        items surrogates (feed surrogates pending byte.toNat).2 rest

/-- The values of a list without holes. -/
def complete {α : Type u} : List (Option α) → Option (List α)
  | [] => some []
  | none :: _ => none
  | some value :: rest => (complete rest).map (value :: ·)

/-- Strict UTF-8, or UTF-8 that also admits encoded surrogates. Missing where
Python raises `UnicodeDecodeError`. -/
def decodeUtf8 (surrogates : Bool) (raw : Bytes) : Option Str :=
  complete (items surrogates none raw)

/-- `raw.decode("utf-8", "replace")` -/
def decodeUtf8Replace (raw : Bytes) : Str :=
  (items false none raw).map (fun item => item.getD 0xFFFD)

/-- The UTF-8 bytes of one character. -/
def encodeChar (point : CodePoint) : Bytes :=
  let value := point.val
  if value < 0x80 then [UInt8.ofNat value]
  else if value < 0x800 then [UInt8.ofNat (0xC0 + value / 64), UInt8.ofNat (0x80 + value % 64)]
  else if value < 0x10000 then
    [UInt8.ofNat (0xE0 + value / 4096), UInt8.ofNat (0x80 + value / 64 % 64),
      UInt8.ofNat (0x80 + value % 64)]
  else
    [UInt8.ofNat (0xF0 + value / 262144), UInt8.ofNat (0x80 + value / 4096 % 64),
      UInt8.ofNat (0x80 + value / 64 % 64), UInt8.ofNat (0x80 + value % 64)]

/-- `text.encode()`, which raises on a lone surrogate. -/
def encodeUtf8 (text : Str) : Option Bytes :=
  if text.all (fun point => !point.isSurrogate) then some (text.flatMap encodeChar) else none

/-- Two bytes as a 16-bit unit. -/
def unit16 (big : Bool) (first second : UInt8) : Nat :=
  if big then first.toNat * 256 + second.toNat else second.toNat * 256 + first.toNat

/-- The 16-bit units of a byte string; an odd byte is left over. -/
def units16 (big : Bool) : Bytes → Option (List Nat)
  | [] => some []
  | [_] => none
  | first :: second :: rest => (units16 big rest).map (unit16 big first second :: ·)

/-- Join surrogate pairs; unpaired surrogates pass through. -/
def joinSurrogates : List Nat → Str
  | [] => []
  | [unit] => [Fin.ofNat _ unit]
  | unit :: next :: rest =>
      if 0xD800 ≤ unit ∧ unit ≤ 0xDBFF ∧ 0xDC00 ≤ next ∧ next ≤ 0xDFFF then
        Fin.ofNat _ (0x10000 + (unit - 0xD800) * 1024 + (next - 0xDC00)) :: joinSurrogates rest
      else Fin.ofNat _ unit :: joinSurrogates (next :: rest)

/-- UTF-16 without a byte order mark, surrogates admitted. -/
def decodeUtf16 (big : Bool) (raw : Bytes) : Option Str := (units16 big raw).map joinSurrogates

/-- UTF-32 without a byte order mark, surrogates admitted. -/
def decodeUtf32 (big : Bool) : Bytes → Option Str
  | [] => some []
  | a :: b :: c :: d :: rest =>
      let value :=
        if big then ((a.toNat * 256 + b.toNat) * 256 + c.toNat) * 256 + d.toNat
        else ((d.toNat * 256 + c.toNat) * 256 + b.toNat) * 256 + a.toNat
      (codePoint? value).bind (fun point => (decodeUtf32 big rest).map (point :: ·))
  | _ => none

/-- The encodings that `json.detect_encoding` names. `utf16` and `utf32` start
with a byte order mark, and `utf8Sig` with the UTF-8 signature. -/
inductive Codec where
  | utf8
  | utf8Sig
  | utf16
  | utf16le
  | utf16be
  | utf32
  | utf32le
  | utf32be
deriving DecidableEq, Repr

/-- `json.detect_encoding(raw)` -/
def detectEncoding (raw : Bytes) : Codec :=
  if [0x00, 0x00, 0xFE, 0xFF].isPrefixOf raw || [0xFF, 0xFE, 0x00, 0x00].isPrefixOf raw then .utf32
  else if [0xFE, 0xFF].isPrefixOf raw || [0xFF, 0xFE].isPrefixOf raw then .utf16
  else if [0xEF, 0xBB, 0xBF].isPrefixOf raw then .utf8Sig
  else
    match raw with
    | [b0, b1] => if b0 = 0 then .utf16be else if b1 = 0 then .utf16le else .utf8
    | b0 :: b1 :: b2 :: b3 :: _ =>
        if b0 = 0 then if b1 = 0 then .utf32be else .utf16be
        else if b1 = 0 then if b2 = 0 ∧ b3 = 0 then .utf32le else .utf16le
        else .utf8
    | _ => .utf8

/-- `raw.decode(encoding, "surrogatepass")` for a detected encoding, whose byte
order mark or signature is consumed. -/
def decode (codec : Codec) (raw : Bytes) : Option Str :=
  match codec with
  | .utf8 => decodeUtf8 true raw
  | .utf8Sig => decodeUtf8 true (raw.drop 3)
  | .utf16 => decodeUtf16 ([0xFE, 0xFF].isPrefixOf raw) (raw.drop 2)
  | .utf16le => decodeUtf16 false raw
  | .utf16be => decodeUtf16 true raw
  | .utf32 => decodeUtf32 ([0x00, 0x00, 0xFE, 0xFF].isPrefixOf raw) (raw.drop 4)
  | .utf32le => decodeUtf32 false raw
  | .utf32be => decodeUtf32 true raw

/-! ## What a started character can complete to -/

/-- The least value that a started character can complete to. -/
def Pending.least (pending : Pending) : Nat :=
  pending.value * 64 ^ pending.owed + (pending.low - 0x80) * 64 ^ (pending.owed - 1)

/-- The first value above all that a started character can complete to. -/
def Pending.bound (pending : Pending) : Nat :=
  pending.value * 64 ^ pending.owed + (pending.high + 1 - 0x80) * 64 ^ (pending.owed - 1)

/-- The values of characters outside ASCII; a surrogate only where admitted. -/
def Wide (surrogates : Bool) (value : Nat) : Prop :=
  0x80 ≤ value ∧ value < 0x110000 ∧
    (surrogates = false → ¬ (0xD800 ≤ value ∧ value ≤ 0xDFFF))

/-- What every started character satisfies: it owes at most three bytes, each in
the continuation range, and whatever they are, it completes outside ASCII. -/
structure Pending.Started (surrogates : Bool) (pending : Pending) : Prop where
  owes : 1 ≤ pending.owed
  most : pending.owed ≤ 3
  low : 0x80 ≤ pending.low
  high : pending.high ≤ 0xBF
  spans : ∀ value, pending.least ≤ value → value < pending.bound → Wide surrogates value

/-- A code point made from a number is that number. -/
theorem codePoint?_val {value : Nat} {point : CodePoint} (made : codePoint? value = some point) :
    point.val = value := by
  unfold codePoint? at made
  split at made
  · exact congrArg Fin.val (Option.some.inj made).symm
  · cases made

/-- A completed list starts with a value and completes after it. -/
theorem complete_cons {α : Type u} {item : Option α} {rest : List (Option α)} {values : List α}
    (completed : complete (item :: rest) = some values) :
    ∃ value tail, item = some value ∧ complete rest = some tail ∧ values = value :: tail := by
  cases item with
  | none => cases completed
  | some value =>
    obtain ⟨tail, completedRest, rfl⟩ := Option.map_eq_some_iff.mp completed
    exact ⟨value, tail, rfl, completedRest, rfl⟩

/-- A pending character is started when its interval is. The bounds of the
interval are linear once the number of owed bytes is known. -/
theorem started_of_interval {surrogates : Bool} {pending : Pending} (least bound : Nat)
    (owes : 1 ≤ pending.owed) (most : pending.owed ≤ 3) (low : 0x80 ≤ pending.low)
    (high : pending.high ≤ 0xBF) (least_eq : least ≤ pending.least)
    (bound_eq : pending.bound ≤ bound)
    (inside : ∀ value, least ≤ value → value < bound → Wide surrogates value) :
    pending.Started surrogates :=
  ⟨owes, most, low, high, fun value above below =>
    inside value (least_eq.trans above) (below.trans_le bound_eq)⟩

/-- What a first byte can start: a character of two, three or four bytes. The range of its
second byte leaves out longer encodings than needed, surrogates where they are not
admitted, and values above the last code point. -/
inductive Leads (surrogates : Bool) (byte : Nat) : Pending → Prop
  | two (first : 0xC2 ≤ byte) (last : byte ≤ 0xDF) :
      Leads surrogates byte ⟨1, byte % 32, 0x80, 0xBF⟩
  | three {low high : Nat} (first : 0xE0 ≤ byte) (last : byte ≤ 0xEF) (least : 0x80 ≤ low)
      (most : high ≤ 0xBF) (overlong : byte = 0xE0 → 0xA0 ≤ low)
      (surrogate : byte = 0xED → surrogates = false → high ≤ 0x9F) :
      Leads surrogates byte ⟨2, byte % 16, low, high⟩
  | four {low high : Nat} (first : 0xF0 ≤ byte) (last : byte ≤ 0xF4) (least : 0x80 ≤ low)
      (most : high ≤ 0xBF) (overlong : byte = 0xF0 → 0x90 ≤ low)
      (large : byte = 0xF4 → high ≤ 0x8F) :
      Leads surrogates byte ⟨3, byte % 8, low, high⟩

/-- A first byte is an ASCII character, invalid, or leads a longer character. -/
theorem start_leads (surrogates : Bool) (byte : Nat) :
    (byte < 0x80 ∧ start surrogates byte = ([codePoint? byte], none)) ∨
      (0x80 ≤ byte ∧ start surrogates byte = ([none], none)) ∨
      ∃ pending, start surrogates byte = ([], some pending) ∧ Leads surrogates byte pending := by
  unfold start
  split
  · rename_i ascii
    exact .inl ⟨ascii, rfl⟩
  refine .inr ?_
  split
  · rename_i inside
    exact .inr ⟨_, rfl, .two inside.1 inside.2⟩
  split
  · rename_i same
    subst same
    exact .inr ⟨_, rfl, .three (by decide) (by decide) (by decide) (by decide)
      (fun _ => by decide) (fun other => absurd other (by decide))⟩
  split
  · rename_i same
    subst same
    refine .inr ⟨_, rfl, .three (by decide) (by decide) (by decide) ?_ (by decide) ?_⟩
    · cases surrogates <;> decide
    · intro _ refused
      rw [refused]
      decide
  split
  · rename_i inside
    exact .inr ⟨_, rfl, .three (by omega) inside.2 (by decide) (by decide) (by omega) (by omega)⟩
  split
  · rename_i same
    subst same
    exact .inr ⟨_, rfl, .four (by decide) (by decide) (by decide) (by decide)
      (fun _ => by decide) (fun other => absurd other (by decide))⟩
  split
  · rename_i same
    subst same
    exact .inr ⟨_, rfl, .four (by decide) (by decide) (by decide) (by decide)
      (fun other => absurd other (by decide)) (fun _ => by decide)⟩
  split
  · rename_i inside
    exact .inr ⟨_, rfl, .four (by omega) (by omega) (by decide) (by decide) (by omega) (by omega)⟩
  · exact .inl ⟨by omega, rfl⟩

/-- What a first byte leads is started. -/
theorem Leads.started {surrogates : Bool} {byte : Nat} {pending : Pending}
    (leads : Leads surrogates byte pending) : pending.Started surrogates := by
  cases leads with
  | two first last =>
    refine ⟨by simp, by simp, by simp, by simp, ?_⟩
    simp only [Pending.least, Pending.bound, Wide]
    omega
  | three first last least most overlong surrogate =>
    refine ⟨by simp, by simp, least, most, ?_⟩
    simp only [Pending.least, Pending.bound, Wide]
    intro value above below
    refine ⟨by omega, by omega, ?_⟩
    intro refused
    have kept := fun same => surrogate same refused
    omega
  | four first last least most overlong large =>
    refine ⟨by simp, by simp, least, most, ?_⟩
    simp only [Pending.least, Pending.bound, Wide]
    omega

/-- A first byte is an ASCII character, invalid, or starts a longer character. -/
theorem start_cases (surrogates : Bool) (byte : Nat) :
    (byte < 0x80 ∧ start surrogates byte = ([codePoint? byte], none)) ∨
      (0x80 ≤ byte ∧ start surrogates byte = ([none], none)) ∨
      ∃ pending, 0x80 ≤ byte ∧ start surrogates byte = ([], some pending) ∧
        pending.Started surrogates := by
  rcases start_leads surrogates byte with ascii | invalid | ⟨pending, started, leads⟩
  · exact .inl ascii
  · exact .inr (.inl invalid)
  · refine .inr (.inr ⟨pending, ?_, started, leads.started⟩)
    cases leads <;> omega

/-- A byte after a started character completes it outside ASCII, continues it,
or shows it to be invalid. A continued character spans a part of the interval
that it spanned before. -/
theorem feed_cases {surrogates : Bool} {pending : Pending} (started : pending.Started surrogates)
    (byte : Nat) :
    (∃ value, 0x80 ≤ byte ∧ Wide surrogates value ∧
        feed surrogates (some pending) byte = ([codePoint? value], none)) ∨
      (∃ next, 0x80 ≤ byte ∧ feed surrogates (some pending) byte = ([], some next) ∧
        next.Started surrogates) ∨
      feed surrogates (some pending) byte =
        (none :: (start surrogates byte).1, (start surrogates byte).2) := by
  have low := started.low
  have high := started.high
  have spans := started.spans
  by_cases inside : pending.low ≤ byte ∧ byte ≤ pending.high
  · by_cases final : pending.owed = 1
    · have wide : Wide surrogates (pending.value * 64 + byte % 64) := by
        apply spans <;> simp only [Pending.least, Pending.bound, final] <;> omega
      exact .inl ⟨_, by omega, wide, by simp only [feed, final, ↓reduceIte, inside, and_self]⟩
    · have owes := started.owes
      have most := started.most
      refine .inr (.inl ⟨⟨pending.owed - 1, pending.value * 64 + byte % 64, 0x80, 0xBF⟩,
        by omega, by simp only [feed, final, ↓reduceIte, inside, and_self], ?_⟩)
      refine started_of_interval pending.least pending.bound (by simp only; omega)
        (by simp only; omega) (by simp) (by simp) ?_ ?_ spans
      all_goals
        have remaining : pending.owed = 2 ∨ pending.owed = 3 := by omega
        rcases remaining with two | three
        · simp only [Pending.least, Pending.bound, two]
          omega
        · simp only [Pending.least, Pending.bound, three]
          omega
  · refine .inr (.inr ?_)
    simp only [feed, inside, ↓reduceIte]

/-- Without admitted surrogates no item is one.

Induction on the bytes, for every started character. -/
theorem items_scalar (raw : Bytes) (pending : Option Pending)
    (started : ∀ present, pending = some present → present.Started false) (point : CodePoint)
    (member : some point ∈ items false pending raw) : point.isSurrogate = false := by
  have ofWide : ∀ {value : Nat}, Wide false value → codePoint? value = some point →
      point.isSurrogate = false := by
    intro value wide made
    simpa [CodePoint.isSurrogate, codePoint?_val made] using wide.2.2 rfl
  have ofStart : ∀ (byte : Nat) (rest : List (Option CodePoint)),
      some point ∈ (start false byte).1 ++ rest → point.isSurrogate = false ∨ some point ∈ rest := by
    intro byte rest present
    rcases List.mem_append.mp present with first | later
    · rcases start_cases false byte with ⟨ascii, read⟩ | ⟨_, read⟩ | ⟨_, _, read, _⟩
      · have made : codePoint? byte = some point := by simpa [read, eq_comm] using first
        refine .inl ?_
        simp only [CodePoint.isSurrogate, codePoint?_val made, decide_eq_false_iff_not]
        omega
      · simp [read] at first
      · simp [read] at first
    · exact .inr later
  have nextStarted : ∀ (byte : Nat) (present : Pending), (start false byte).2 = some present →
      present.Started false := by
    intro byte present follows
    rcases start_cases false byte with ⟨_, read⟩ | ⟨_, read⟩ | ⟨next, _, read, nextStarted⟩
    · simp [read] at follows
    · simp [read] at follows
    · obtain rfl : next = present := by simpa [read] using follows
      exact nextStarted
  induction raw generalizing pending with
  | nil => cases pending <;> simp [items] at member
  | cons byte rest inductionHypothesis =>
    cases pending with
    | none =>
      rcases ofStart byte.toNat _ member with settled | later
      · exact settled
      · exact inductionHypothesis _ (nextStarted byte.toNat) later
    | some present =>
      rcases feed_cases (started present rfl) byte.toNat with
        ⟨value, _, wide, fed⟩ | ⟨next, _, fed, nextPending⟩ | fed
      · simp only [items, fed, List.singleton_append, List.mem_cons] at member
        rcases member with made | later
        · exact ofWide wide made.symm
        · exact inductionHypothesis none (by rintro _ ⟨⟩) later
      · simp only [items, fed, List.nil_append] at member
        exact inductionHypothesis (some next) (by rintro _ ⟨⟩; exact nextPending) member
      · simp only [items, fed, List.cons_append, List.mem_cons, reduceCtorEq, false_or] at member
        rcases ofStart byte.toNat _ member with settled | later
        · exact settled
        · exact inductionHypothesis _ (nextStarted byte.toNat) later

/-- The values of a completed list are its items. -/
theorem mem_complete {α : Type u} {list : List (Option α)} {values : List α}
    (completed : complete list = some values) {value : α} (member : value ∈ values) :
    some value ∈ list := by
  induction list generalizing values with
  | nil =>
    obtain rfl := Option.some.inj completed
    cases member
  | cons item rest inductionHypothesis =>
    obtain ⟨first, tail, rfl, completedRest, rfl⟩ := complete_cons completed
    rcases List.mem_cons.mp member with rfl | later
    · exact List.mem_cons_self
    · exact List.mem_cons_of_mem _ (inductionHypothesis completedRest later)

/-- Strictly decoded text has no surrogates. -/
theorem decodeUtf8_scalar {raw : Bytes} {text : Str} (decoded : decodeUtf8 false raw = some text) :
    Text.Scalar text := by
  intro point member
  exact items_scalar raw none (by rintro _ ⟨⟩) point (mem_complete decoded member)

/-- Text decoded with replacement characters has no surrogates. -/
theorem decodeUtf8Replace_scalar (raw : Bytes) : Text.Scalar (decodeUtf8Replace raw) := by
  intro point member
  obtain ⟨item, present, rfl⟩ := List.mem_map.mp member
  cases item with
  | none => decide
  | some decoded => exact items_scalar raw none (by rintro _ ⟨⟩) decoded present

/-! ## Folds that see UTF-8 bytes and characters alike -/

section Fold

variable {σ : Type u} (scan : σ → Nat → σ)

/-- The state of a scan while a character is started: its bytes so far count as
one unit above ASCII. -/
def entered (state : σ) : Option Pending → σ
  | none => state
  | some _ => scan state 0x80

/-- A scan that takes every unit above ASCII alike, and a run of them as one,
ends in the same state on the bytes and on the decoded characters.

Induction on the bytes, for every started character. A byte that completes a
character is absorbed by the unit that its first byte already counted as. -/
theorem foldl_items
    (uniform : ∀ state left right, 0x80 ≤ left → 0x80 ≤ right →
      scan state left = scan state right)
    (absorbs : ∀ state left right, 0x80 ≤ left → 0x80 ≤ right →
      scan (scan state left) right = scan state left)
    (surrogates : Bool) (raw : Bytes) (pending : Option Pending)
    (started : ∀ present, pending = some present → present.Started surrogates) (chars : Str) (state : σ)
    (completed : complete (items surrogates pending raw) = some chars) :
    raw.foldl (fun current byte => scan current byte.toNat) (entered scan state pending) =
      chars.foldl (fun current point => scan current point.val) state := by
  induction raw generalizing pending chars state with
  | nil =>
    cases pending with
    | none =>
      obtain rfl := Option.some.inj completed
      rfl
    | some present => cases completed
  | cons byte rest inductionHypothesis =>
    have vacant : ∀ present, (none : Option Pending) = some present →
        present.Started surrogates := by
      intro present impossible
      cases impossible
    cases pending with
    | none =>
      rcases start_cases surrogates byte.toNat with
        ⟨_, first⟩ | ⟨_, first⟩ | ⟨next, above, first, nextStarted⟩
      · simp only [items, feed, first, List.singleton_append] at completed
        obtain ⟨point, tail, made, completedRest, rfl⟩ := complete_cons completed
        simp only [List.foldl_cons, entered, codePoint?_val made]
        exact inductionHypothesis none vacant tail _ completedRest
      · simp only [items, feed, first, List.singleton_append] at completed
        cases completed
      · simp only [items, feed, first, List.nil_append] at completed
        simp only [List.foldl_cons, entered, uniform state _ 0x80 above (le_refl _)]
        exact inductionHypothesis (some next) (by rintro _ ⟨⟩; exact nextStarted) chars state
          completed
    | some present =>
      rcases feed_cases (started present rfl) byte.toNat with
        ⟨value, above, wide, fed⟩ | ⟨next, above, fed, nextStarted⟩ | fed
      · simp only [items, fed, List.singleton_append] at completed
        obtain ⟨point, tail, made, completedRest, rfl⟩ := complete_cons completed
        simp only [List.foldl_cons, entered, absorbs state 0x80 _ (le_refl _) above,
          codePoint?_val made, uniform state value 0x80 wide.1 (le_refl _)]
        exact inductionHypothesis none vacant tail _ completedRest
      · simp only [items, fed, List.nil_append] at completed
        simp only [List.foldl_cons, entered, absorbs state 0x80 _ (le_refl _) above]
        exact inductionHypothesis (some next) (by rintro _ ⟨⟩; exact nextStarted) chars state
          completed
      · simp only [items, fed, List.cons_append] at completed
        cases completed

/-- The whole-string form of `foldl_items`. -/
theorem foldl_decodeUtf8
    (uniform : ∀ state left right, 0x80 ≤ left → 0x80 ≤ right →
      scan state left = scan state right)
    (absorbs : ∀ state left right, 0x80 ≤ left → 0x80 ≤ right →
      scan (scan state left) right = scan state left)
    {surrogates : Bool} {raw : Bytes} {chars : Str}
    (decoded : decodeUtf8 surrogates raw = some chars) (state : σ) :
    raw.foldl (fun current byte => scan current byte.toNat) state =
      chars.foldl (fun current point => scan current point.val) state :=
  foldl_items scan uniform absorbs surrogates raw none (by rintro _ ⟨⟩) chars state decoded

end Fold

end Library.Encoding
