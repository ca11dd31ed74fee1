import WebhookInbox.Library.Encoding

/-!
# Encoding undoes strict decoding

A started character fixes the bytes that were read for it: every value that it can
still complete to has these bytes at the start of its encoding. A byte that continues
the character adds the next one, so a decoded text encodes to the bytes it was read
from. The bytes of a text without lone surrogates are read as that text.
-/

namespace Library.Encoding

/-- The last continuation bytes of a value. -/
def tailBytes : Nat → Nat → Bytes
  | 0, _ => []
  | count + 1, value => UInt8.ofNat (0x80 + value / 64 ^ count % 64) :: tailBytes count value

/-- Every value that a started character can complete to is encoded by the bytes that
were read, and the bytes that are owed. -/
def Pending.Reads (read : Bytes) (pending : Pending) : Prop :=
  ∀ point : CodePoint, pending.least ≤ point.val → point.val < pending.bound →
    encodeChar point = read ++ tailBytes pending.owed point.val

/-- A character is encoded by a first byte and its continuation bytes. -/
theorem encodeChar_eq (point : CodePoint) :
    encodeChar point =
      if point.val < 0x80 then [UInt8.ofNat point.val]
      else if point.val < 0x800 then UInt8.ofNat (0xC0 + point.val / 64) :: tailBytes 1 point.val
      else if point.val < 0x10000 then
        UInt8.ofNat (0xE0 + point.val / 4096) :: tailBytes 2 point.val
      else UInt8.ofNat (0xF0 + point.val / 262144) :: tailBytes 3 point.val := by
  simp [encodeChar, tailBytes]

section
variable (point : CodePoint) {lead : Nat}

/-- A value of two bytes with the given first byte. -/
theorem encodeChar_two (small : 0x80 ≤ point.val) (large : point.val < 0x800)
    (first : 0xC0 + point.val / 64 = lead) :
    encodeChar point = [UInt8.ofNat lead] ++ tailBytes 1 point.val := by
  rw [encodeChar_eq, if_neg (by omega), if_pos large, first, List.singleton_append]

/-- A value of three bytes with the given first byte. -/
theorem encodeChar_three (small : 0x800 ≤ point.val) (large : point.val < 0x10000)
    (first : 0xE0 + point.val / 4096 = lead) :
    encodeChar point = [UInt8.ofNat lead] ++ tailBytes 2 point.val := by
  rw [encodeChar_eq, if_neg (by omega), if_neg (by omega), if_pos large, first,
    List.singleton_append]

/-- A value of four bytes with the given first byte. -/
theorem encodeChar_four (small : 0x10000 ≤ point.val)
    (first : 0xF0 + point.val / 262144 = lead) :
    encodeChar point = [UInt8.ofNat lead] ++ tailBytes 3 point.val := by
  rw [encodeChar_eq, if_neg (by omega), if_neg (by omega), if_neg (by omega), first,
    List.singleton_append]

end

/-- What a first byte leads is encoded with this byte first. -/
theorem Leads.reads {surrogates : Bool} {byte : Nat} {pending : Pending}
    (leads : Leads surrogates byte pending) : pending.Reads [UInt8.ofNat byte] := by
  intro point
  cases leads with
  | two first last =>
    simp only [Pending.least, Pending.bound]
    intro least bound
    exact encodeChar_two point (by omega) (by omega) (by omega)
  | three first last low high overlong _ =>
    simp only [Pending.least, Pending.bound]
    intro least bound
    exact encodeChar_three point (by omega) (by omega) (by omega)
  | four first last low high overlong _ =>
    simp only [Pending.least, Pending.bound]
    intro least bound
    exact encodeChar_four point (by omega) (by omega)

/-- A first byte that starts a character is the first byte of all its encodings. -/
theorem start_reads {surrogates : Bool} {byte : Nat} {pending : Pending}
    (started : start surrogates byte = ([], some pending)) :
    pending.Reads [UInt8.ofNat byte] := by
  rcases start_leads surrogates byte with ⟨_, ascii⟩ | ⟨_, invalid⟩ | ⟨led, same, leads⟩
  · cases ascii.symm.trans started
  · cases invalid.symm.trans started
  · obtain rfl := Option.some.inj (Prod.mk.inj (same.symm.trans started)).2
    exact leads.reads

/-- A byte that continues a character is the next byte of all encodings that are left. -/
theorem feed_reads {surrogates : Bool} {pending next : Pending} {byte : Nat} {read : Bytes}
    (reads : pending.Reads read) (started : pending.Started surrogates)
    (fed : feed surrogates (some pending) byte = ([], some next)) :
    next.Reads (read ++ [UInt8.ofNat byte]) := by
  have low := started.low
  have high := started.high
  have most := started.most
  have owes := started.owes
  simp only [feed] at fed
  split at fed
  · rename_i inside
    split at fed
    · cases fed
    · rename_i several
      obtain rfl := Option.some.inj (Prod.mk.inj fed).2
      intro point least bound
      have owed : pending.owed = 2 ∨ pending.owed = 3 := by omega
      simp only [Pending.Reads, Pending.least, Pending.bound] at reads least bound
      rcases owed with two | three
      · simp only [two, Nat.reduceSub, Nat.reducePow] at reads least bound
        have whole := reads point (by omega) (by omega)
        have next : 0x80 + point.val / 64 ^ 1 % 64 = byte := by omega
        simp only [two, tailBytes, next] at whole ⊢
        simpa using whole
      · simp only [three, Nat.reduceSub, Nat.reducePow] at reads least bound
        have above : pending.low - 0x80 ≤ byte % 64 := by omega
        have below : byte % 64 + 1 ≤ pending.high + 1 - 0x80 := by omega
        have whole := reads point (by linarith) (by linarith)
        have next : 0x80 + point.val / 64 ^ 2 % 64 = byte := by omega
        simp only [three, tailBytes, next] at whole ⊢
        simpa using whole
  · cases fed

/-- A byte that completes a character completes the encoding of its value. -/
theorem feed_completes {surrogates : Bool} {pending : Pending} {byte : Nat} {read : Bytes}
    {point : CodePoint} (reads : pending.Reads read) (started : pending.Started surrogates)
    (fed : feed surrogates (some pending) byte = ([some point], none)) :
    encodeChar point = read ++ [UInt8.ofNat byte] := by
  have low := started.low
  have high := started.high
  simp only [feed] at fed
  split at fed
  · rename_i inside
    split at fed
    · rename_i one
      have made := (List.cons.inj (Prod.mk.inj fed).1).1
      have value := codePoint?_val made
      have least : pending.least ≤ point.val := by
        simp only [Pending.least, one, Nat.sub_self, Nat.pow_zero, Nat.pow_one]
        omega
      have bound : point.val < pending.bound := by
        simp only [Pending.bound, one, Nat.sub_self, Nat.pow_zero, Nat.pow_one]
        omega
      have whole := reads point least bound
      have last : 0x80 + point.val / 64 ^ 0 % 64 = byte := by omega
      simpa only [one, tailBytes, last] using whole
    · cases fed
  · cases fed

/-- Nothing is present in a missing value. -/
theorem none_present {α : Type} {holds : α → Prop} : ∀ present, none = some present → holds present :=
  fun _ absent => absurd absent.symm (Option.some_ne_none _)

/-- The decoded characters encode to the bytes that they were read from.

Induction on the bytes, for every started character and the bytes already read for it. -/
theorem items_encode (surrogates : Bool) (raw read : Bytes) (pending : Option Pending)
    (started : ∀ present, pending = some present → present.Started surrogates)
    (reads : ∀ present, pending = some present → present.Reads read)
    (vacant : pending = none → read = []) {text : Str}
    (decoded : complete (items surrogates pending raw) = some text) :
    text.flatMap encodeChar = read ++ raw := by
  induction raw generalizing pending read text with
  | nil =>
    cases pending with
    | none =>
      obtain rfl := Option.some.inj decoded
      simp [vacant rfl]
    | some present => cases decoded
  | cons byte rest inductionHypothesis =>
    have same : UInt8.ofNat byte.toNat = byte := UInt8.ofNat_toNat
    cases pending with
    | none =>
      obtain rfl := vacant rfl
      rcases start_cases surrogates byte.toNat with
        ⟨ascii, first⟩ | ⟨_, first⟩ | ⟨next, _, first, nextStarted⟩
      · simp only [items, feed, first, List.singleton_append] at decoded
        obtain ⟨point, tail, made, decodedRest, rfl⟩ := complete_cons decoded
        have value := codePoint?_val made
        have later := inductionHypothesis [] none none_present none_present (fun _ => rfl)
          decodedRest
        rw [List.flatMap_cons, later, encodeChar_eq, if_pos (by omega), value, same]
        rfl
      · simp only [items, feed, first, List.singleton_append] at decoded
        cases decoded
      · simp only [items, feed, first, List.nil_append] at decoded
        have nextReads := start_reads first
        rw [same] at nextReads
        exact inductionHypothesis [byte] (some next) (by rintro _ ⟨⟩; exact nextStarted)
          (by rintro _ ⟨⟩; exact nextReads) (fun vacant => absurd vacant (Option.some_ne_none _))
          decoded
    | some present =>
      have presentReads := reads present rfl
      have presentStarted := started present rfl
      rcases feed_cases presentStarted byte.toNat with
        ⟨value, _, _, fed⟩ | ⟨next, _, fed, nextStarted⟩ | fed
      · simp only [items, fed, List.singleton_append] at decoded
        obtain ⟨point, tail, made, decodedRest, rfl⟩ := complete_cons decoded
        rw [made] at fed
        have later := inductionHypothesis [] none none_present none_present (fun _ => rfl)
          decodedRest
        rw [List.flatMap_cons, later, feed_completes presentReads presentStarted fed, same]
        simp
      · simp only [items, fed, List.nil_append] at decoded
        have nextReads := feed_reads presentReads presentStarted fed
        rw [same] at nextReads
        have later := inductionHypothesis (read ++ [byte]) (some next)
          (by rintro _ ⟨⟩; exact nextStarted) (by rintro _ ⟨⟩; exact nextReads)
          (fun vacant => absurd vacant (Option.some_ne_none _)) decoded
        simpa using later
      · simp only [items, fed, List.cons_append] at decoded
        cases decoded

/-- Strictly decoded text encodes to the bytes that it was decoded from. -/
theorem encodeUtf8_decodeUtf8 {raw : Bytes} {text : Str}
    (decoded : decodeUtf8 false raw = some text) : encodeUtf8 text = some raw := by
  have scalar : text.all (fun point => !point.isSurrogate) = true := by
    rw [List.all_eq_true]
    intro point member
    rw [decodeUtf8_scalar decoded point member]
    rfl
  have whole := items_encode false raw [] none none_present none_present (fun _ => rfl) decoded
  rw [encodeUtf8, if_pos scalar, whole, List.nil_append]

/-! ## Reading what was encoded -/

/-- One byte of an encoded character. -/
theorem items_cons (surrogates : Bool) (pending : Option Pending) {byte : Nat} (small : byte < 256)
    (rest : Bytes) :
    items surrogates pending (UInt8.ofNat byte :: rest) =
      (feed surrogates pending byte).1 ++ items surrogates (feed surrogates pending byte).2 rest := by
  have same : (UInt8.ofNat byte).toNat = byte := UInt8.toNat_ofNat_of_lt' small
  rw [items, same]

/-- The last byte of a character completes it. -/
theorem items_tail_one {surrogates : Bool} {pending : Pending} {point : CodePoint}
    (owed : pending.owed = 1) (low : pending.low = 0x80) (high : pending.high = 0xBF)
    (value : pending.value = point.val / 64) (rest : Bytes) :
    items surrogates (some pending) (tailBytes 1 point.val ++ rest) =
      some point :: items surrogates none rest := by
  have size := point.isLt
  have whole : point.val / 64 * 64 + (0x80 + point.val % 64) % 64 = point.val := by omega
  have inside : 0x80 ≤ 0x80 + point.val % 64 ∧ 0x80 + point.val % 64 ≤ 0xBF := by omega
  simp only [tailBytes, pow_zero, Nat.div_one, List.cons_append, List.nil_append]
  rw [items_cons surrogates _ (by omega)]
  simp only [feed, owed, low, high, inside, value, whole, and_self, ↓reduceIte, codePoint?, size,
    ↓reduceDIte, List.singleton_append]

/-- An earlier one leaves one owed byte less. -/
theorem items_tail_succ {surrogates : Bool} {pending : Pending} {point : CodePoint} {count : Nat}
    (positive : 1 ≤ count) (owed : pending.owed = count + 1)
    (least : pending.low ≤ 0x80 + point.val / 64 ^ count % 64)
    (most : 0x80 + point.val / 64 ^ count % 64 ≤ pending.high)
    (value : pending.value = point.val / 64 ^ (count + 1)) (rest : Bytes) :
    items surrogates (some pending) (tailBytes (count + 1) point.val ++ rest) =
      items surrogates (some ⟨count, point.val / 64 ^ count, 0x80, 0xBF⟩)
        (tailBytes count point.val ++ rest) := by
  have whole : point.val / 64 ^ (count + 1) * 64 + (0x80 + point.val / 64 ^ count % 64) % 64 =
      point.val / 64 ^ count := by
    rw [pow_succ, ← Nat.div_div_eq_div_mul]
    omega
  have several : ¬ count + 1 = 1 := by omega
  rw [tailBytes, List.cons_append, items_cons surrogates _ (by omega)]
  simp only [feed, owed, least, most, and_self, ↓reduceIte, several, value, whole,
    Nat.add_sub_cancel, List.nil_append]

/-- An encoded character is read back, whatever follows it. -/
theorem items_encodeChar {point : CodePoint} (scalar : point.isSurrogate = false) (rest : Bytes) :
    items false none (encodeChar point ++ rest) = some point :: items false none rest := by
  have size := point.isLt
  have apart : ¬ (0xD800 ≤ point.val ∧ point.val ≤ 0xDFFF) := by
    simpa [CodePoint.isSurrogate] using scalar
  rw [encodeChar_eq]
  split
  · rename_i ascii
    rw [List.singleton_append, items_cons false none (by omega)]
    simp [feed, start, ascii, codePoint?]
  · rename_i wide
    split
    · rename_i two
      rw [List.cons_append, items_cons false none (by omega)]
      have lead : start false (0xC0 + point.val / 64) = ([], some ⟨1, point.val / 64, 0x80, 0xBF⟩) := by
        have first : (0xC0 + point.val / 64) % 32 = point.val / 64 := by omega
        simp only [start, first]
        rw [if_neg (by omega), if_pos (by omega)]
      rw [feed, lead, List.nil_append]
      exact items_tail_one rfl rfl rfl rfl rest
    · split
      · rename_i three
        rw [List.cons_append, items_cons false none (by omega)]
        have lead : ∃ low high, start false (0xE0 + point.val / 4096) =
            ([], some ⟨2, point.val / 64 ^ 2, low, high⟩) ∧
            low ≤ 0x80 + point.val / 64 ^ 1 % 64 ∧ 0x80 + point.val / 64 ^ 1 % 64 ≤ high := by
          have first : point.val / 64 ^ 2 = point.val / 4096 := rfl
          simp only [first, pow_one]
          rcases Nat.eq_zero_or_pos (point.val / 4096) with zero | positive
          · refine ⟨0xA0, 0xBF, ?_, by omega, by omega⟩
            rw [zero, start, if_neg (by omega), if_neg (by omega), if_pos rfl]
          · by_cases below : point.val / 4096 = 13
            · refine ⟨0x80, 0x9F, ?_, by omega, by omega⟩
              rw [below, start, if_neg (by omega), if_neg (by omega), if_neg (by omega), if_pos rfl]
              rfl
            · refine ⟨0x80, 0xBF, ?_, by omega, by omega⟩
              have rest : (0xE0 + point.val / 4096) % 16 = point.val / 4096 := by omega
              rw [start, if_neg (by omega), if_neg (by omega), if_neg (by omega),
                if_neg (by omega), if_pos (by omega), rest]
        obtain ⟨low, high, lead, least, most⟩ := lead
        rw [feed, lead, List.nil_append, items_tail_succ (by decide) rfl least most rfl]
        exact items_tail_one rfl rfl rfl (by simp) rest
      · rename_i four
        rw [List.cons_append, items_cons false none (by omega)]
        have lead : ∃ low high, start false (0xF0 + point.val / 262144) =
            ([], some ⟨3, point.val / 64 ^ 3, low, high⟩) ∧
            low ≤ 0x80 + point.val / 64 ^ 2 % 64 ∧ 0x80 + point.val / 64 ^ 2 % 64 ≤ high := by
          have first : point.val / 64 ^ 3 = point.val / 262144 := rfl
          have second : point.val / 64 ^ 2 = point.val / 4096 := rfl
          simp only [first, second]
          rcases Nat.eq_zero_or_pos (point.val / 262144) with zero | positive
          · refine ⟨0x90, 0xBF, ?_, by omega, by omega⟩
            rw [zero, start, if_neg (by omega), if_neg (by omega), if_neg (by omega),
              if_neg (by omega), if_neg (by omega), if_pos rfl]
          · by_cases last : point.val / 262144 = 4
            · refine ⟨0x80, 0x8F, ?_, by omega, by omega⟩
              rw [last, start, if_neg (by omega), if_neg (by omega), if_neg (by omega),
                if_neg (by omega), if_neg (by omega), if_neg (by omega), if_pos rfl]
            · refine ⟨0x80, 0xBF, ?_, by omega, by omega⟩
              have rest : (0xF0 + point.val / 262144) % 8 = point.val / 262144 := by omega
              rw [start, if_neg (by omega), if_neg (by omega), if_neg (by omega),
                if_neg (by omega), if_neg (by omega), if_neg (by omega), if_neg (by omega),
                if_pos (by omega), rest]
        obtain ⟨low, high, lead, least, most⟩ := lead
        rw [feed, lead, List.nil_append, items_tail_succ (by decide) rfl least most rfl,
          items_tail_succ (by decide) rfl (by simp only; omega) (by simp only; omega) rfl]
        exact items_tail_one rfl rfl rfl (by simp) rest

/-- Text without lone surrogates is read back from its bytes. -/
theorem items_encodeUtf8 {text : Str} (scalar : Text.Scalar text) :
    items false none (text.flatMap encodeChar) = text.map some := by
  induction text with
  | nil => rfl
  | cons point rest inductionHypothesis =>
    obtain ⟨here, later⟩ := List.forall_mem_cons.mp scalar
    rw [List.flatMap_cons, items_encodeChar here, inductionHypothesis later, List.map_cons]

end Library.Encoding
