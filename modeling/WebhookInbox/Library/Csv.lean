import WebhookInbox.Library.Fallible
import WebhookInbox.Library.Text

/-!
# Comma separated values

Rows of texts are written with a delimiter between two cells and a line break after a row. A
cell with a delimiter, a quote or a line break in it is put in quotes, and its own quotes are
doubled. The reader goes through the lines of a text, one character at a time, and a row has
ended when a line has and no quote is open.

`read_written` says that rows are read as they were written, unless a cell is longer than the
reader allows. That limit is a setting of the reader and no part of a dialect.
-/

namespace Library.Csv

open Fallible

def lineFeed : CodePoint := 0x0A

def carriageReturn : CodePoint := 0x0D

/-- A character of a line break. -/
def isBreak (point : CodePoint) : Bool :=
  decide (point = lineFeed) || decide (point = carriageReturn)

/-- What the rows are written with: the delimiter and the quote are different, and neither
breaks a line. Quotes are doubled, and rows end in CR LF. -/
structure Dialect where
  delimiter : CodePoint
  quote : CodePoint
  delimiter_plain : isBreak delimiter = false
  quote_plain : isBreak quote = false
  distinct : delimiter ≠ quote

/-- `csv.excel` -/
def excel : Dialect where
  delimiter := 0x2C
  quote := 0x22
  delimiter_plain := by decide
  quote_plain := by decide
  distinct := by decide

/-! ## Writing -/

section
variable (dialect : Dialect)

/-- A field with such a character is quoted. -/
def isSpecial (point : CodePoint) : Bool :=
  decide (point = dialect.delimiter) || decide (point = dialect.quote) || isBreak point

/-- A character in quotes. -/
def doubled (point : CodePoint) : Str :=
  if point = dialect.quote then [point, point] else [point]

def quoted (field : Str) : Str :=
  dialect.quote :: (field.flatMap (doubled dialect) ++ [dialect.quote])

/-- `join_append`, where only the fields that need quotes have them. -/
def fieldText (field : Str) : Str :=
  if field.any (isSpecial dialect) then quoted dialect field else field

/-- `writer.writerow(row)`, for a row of texts. An empty field is quoted if it is alone. -/
def rowText (row : List Str) : Str :=
  (if row = [[]] then quoted dialect []
    else [dialect.delimiter].intercalate (row.map (fieldText dialect))) ++
    [carriageReturn, lineFeed]

/-- The rows, one after another. -/
def written (rows : List (List Str)) : Str := rows.flatMap (rowText dialect)

end

/-! ## Reading -/

inductive State where
  | startRecord
  | startField
  | inField
  | inQuotedField
  | quoteInQuotedField
  | eatCrnl
  deriving DecidableEq

/-- The reader in the middle of a text: the field and the fields of the row that it reads, and
the rows that it has read. -/
structure Reader where
  state : State := .startRecord
  field : Str := []
  fields : List Str := []
  rows : List (List Str) := []

/-- A field is too long, or a line goes on after its end. -/
inductive Error where
  | fieldLimit
  | newLine
  deriving DecidableEq

/-- `parse_save_field` -/
def Reader.save (next : State) (reader : Reader) : Reader :=
  ⟨next, [], reader.fields ++ [reader.field], reader.rows⟩

/-- The row is handed out, and the next one begins. -/
def Reader.record (reader : Reader) : Reader := { rows := reader.rows ++ [reader.fields] }

section
variable (dialect : Dialect) (limit : Option Nat)

/-- The field is not longer than `csv.field_size_limit()`, if there is one. -/
def fits (field : Str) : Bool := limit.all (fun bound => decide (field.length ≤ bound))

/-- `parse_add_char` -/
def Reader.add (point : CodePoint) (next : State) (reader : Reader) : Except Error Reader :=
  if fits limit (reader.field ++ [point]) then
    .ok { reader with state := next, field := reader.field ++ [point] }
  else .error .fieldLimit

/-- `parse_process_char` at the beginning of a field. -/
def beginField (reader : Reader) (point : CodePoint) : Except Error Reader :=
  if isBreak point then .ok (reader.save .eatCrnl)
  else if point = dialect.quote then .ok { reader with state := .inQuotedField }
  else if point = dialect.delimiter then .ok (reader.save .startField)
  else reader.add limit point .inField

/-- `parse_process_char` -/
def processChar (reader : Reader) (point : CodePoint) : Except Error Reader :=
  match reader.state with
  | .startRecord =>
      if isBreak point then .ok { reader with state := .eatCrnl }
      else beginField dialect limit reader point
  | .startField => beginField dialect limit reader point
  | .inField =>
      if isBreak point then .ok (reader.save .eatCrnl)
      else if point = dialect.delimiter then .ok (reader.save .startField)
      else reader.add limit point .inField
  | .inQuotedField =>
      if point = dialect.quote then .ok { reader with state := .quoteInQuotedField }
      else reader.add limit point .inQuotedField
  | .quoteInQuotedField =>
      -- the first of two quotes, or the end of the quoted part
      if point = dialect.quote then reader.add limit point .inQuotedField
      else if point = dialect.delimiter then .ok (reader.save .startField)
      else if isBreak point then .ok (reader.save .eatCrnl)
      else reader.add limit point .inField
  | .eatCrnl => if isBreak point then .ok reader else .error .newLine

/-- `parse_process_char` at the end of a line. The row goes on in a quoted field. -/
def endLine (reader : Reader) : Reader :=
  match reader.state with
  | .startRecord => reader.record
  | .startField => (reader.save .startRecord).record
  | .inField => (reader.save .startRecord).record
  | .inQuotedField => reader
  | .quoteInQuotedField => (reader.save .startRecord).record
  | .eatCrnl => reader.record

/-- One line. -/
def readLine (reader : Reader) (line : Str) : Except Error Reader := do
  let reader ← line.foldlM (processChar dialect limit) reader
  pure (endLine reader)

end

/-- The lines of `io.StringIO(text)`, each with its line feed. -/
def lines : Str → List Str
  | [] => []
  | point :: rest =>
      if point = lineFeed then [point] :: lines rest
      else
        match lines rest with
        | [] => [[point]]
        | line :: later => (point :: line) :: later

/-- The rows, and a last one if the text ends in the middle of it. -/
def Reader.finish (reader : Reader) : List (List Str) :=
  if reader.field ≠ [] ∨ reader.state = .inQuotedField then
    reader.rows ++ [reader.fields ++ [reader.field]]
  else reader.rows

/-- `list(csv.reader(io.StringIO(text)))`. Quotes in the wrong place are no errors. -/
def read (dialect : Dialect) (limit : Option Nat) (text : Str) :
    Except Error (List (List Str)) := do
  let reader ← (lines text).foldlM (readLine dialect limit) {}
  pure reader.finish

/-! ## Lines one character at a time -/

section
variable {dialect : Dialect} {limit : Option Nat}

/-- One character, and the end of the line after a line feed. -/
def feed (dialect : Dialect) (limit : Option Nat) (reader : Reader) (point : CodePoint) :
    Except Error Reader := do
  let reader ← processChar dialect limit reader point
  pure (if point = lineFeed then endLine reader else reader)

theorem feed_inside {point : CodePoint} (inside : point ≠ lineFeed) (reader : Reader) :
    feed dialect limit reader point = processChar dialect limit reader point := by
  simp [feed, if_neg inside]

/-- The first character of a line with others. -/
theorem readLines_cons {point : CodePoint} {rest : Str} (inside : point ≠ lineFeed)
    (more : lines rest ≠ []) (reader : Reader) :
    (lines (point :: rest)).foldlM (readLine dialect limit) reader =
      processChar dialect limit reader point >>=
        fun reader => (lines rest).foldlM (readLine dialect limit) reader := by
  obtain ⟨line, later, split⟩ := List.exists_cons_of_ne_nil more
  rw [lines, if_neg inside, split]
  simp [readLine]

/-- The line feeds in a text that ends in one are the ends of its lines. -/
theorem readLines_eq_feed (front : Str) (reader : Reader) :
    (lines (front ++ [lineFeed])).foldlM (readLine dialect limit) reader =
      (front ++ [lineFeed]).foldlM (feed dialect limit) reader := by
  induction front generalizing reader with
  | nil => simp [lines, readLine, feed]
  | cons point rest inductionHypothesis =>
    rw [List.cons_append, List.foldlM_cons]
    by_cases last : point = lineFeed
    · subst last
      simp only [lines, if_true, List.foldlM_cons, inductionHypothesis]
      simp [readLine, feed]
    · have more : lines (rest ++ [lineFeed]) ≠ [] := by
        cases rest with
        | nil => simp [lines]
        | cons second rest =>
          rw [List.cons_append, lines]
          split
          · exact List.cons_ne_nil _ _
          · split <;> exact List.cons_ne_nil _ _
      rw [readLines_cons last more, feed_inside last]
      simp only [inductionHypothesis]

/-! ## Fields -/

theorem fits_nil : fits limit [] = true := by
  cases limit <;> simp [fits]

/-- What is too long stays too long. -/
theorem fits_of_append {front rest : Str} (fitting : fits limit (front ++ rest) = true) :
    fits limit front = true := by
  cases limit with
  | none => rfl
  | some bound =>
    have short : (front ++ rest).length ≤ bound := of_decide_eq_true fitting
    rw [List.length_append] at short
    exact decide_eq_true (by omega)

/-- Characters that are added one by one, each written in its own way. -/
theorem feed_each {state : State} {code : CodePoint → Str} {fields : List Str}
    {rows : List (List Str)} {field : Str}
    (each : ∀ point ∈ field, ∀ start,
      (code point).foldlM (feed dialect limit) ⟨state, start, fields, rows⟩ =
        if fits limit (start ++ [point]) then .ok ⟨state, start ++ [point], fields, rows⟩
        else .error .fieldLimit)
    (start : Str) (fitting : fits limit start = true) :
    (field.flatMap code).foldlM (feed dialect limit) ⟨state, start, fields, rows⟩ =
      if fits limit (start ++ field) then .ok ⟨state, start ++ field, fields, rows⟩
      else .error .fieldLimit := by
  induction field generalizing start with
  | nil => simp [fitting, pure, Except.pure]
  | cons point rest inductionHypothesis =>
    have later := inductionHypothesis
      (fun other member => each other (List.mem_cons_of_mem _ member))
    have whole : start ++ point :: rest = start ++ [point] ++ rest := by simp
    rw [List.flatMap_cons, List.foldlM_append, each point List.mem_cons_self, whole]
    by_cases room : fits limit (start ++ [point]) = true
    · rw [if_pos room]
      exact later _ room
    · have full : ¬ fits limit (start ++ [point] ++ rest) = true :=
        fun fitting => room (fits_of_append fitting)
      rw [if_neg room, if_neg full]
      rfl

/-- Nothing is special about the characters of a field that is not quoted. -/
theorem plain_of_not_special {point : CodePoint} (plain : ¬ isSpecial dialect point = true) :
    point ≠ dialect.delimiter ∧ point ≠ dialect.quote ∧ isBreak point = false := by
  simpa [isSpecial, and_assoc] using plain

theorem ne_lineFeed {point : CodePoint} (plain : isBreak point = false) : point ≠ lineFeed := by
  rintro rfl
  cases plain

/-- Where a field may begin. -/
def Begins (state : State) : Prop := state = .startRecord ∨ state = .startField

variable {state : State} {fields : List Str} {rows : List (List Str)}

/-- A quoted field, up to its last quote. -/
theorem feed_quoted (begins : Begins state) (field : Str) :
    (quoted dialect field).foldlM (feed dialect limit) ⟨state, [], fields, rows⟩ =
      if fits limit field then .ok ⟨.quoteInQuotedField, field, fields, rows⟩
      else .error .fieldLimit := by
  have notLast := ne_lineFeed dialect.quote_plain
  have opened : feed dialect limit ⟨state, [], fields, rows⟩ dialect.quote =
      .ok ⟨.inQuotedField, [], fields, rows⟩ := by
    rw [feed_inside notLast]
    rcases begins with rfl | rfl <;> simp [processChar, beginField, dialect.quote_plain]
  have each : ∀ point ∈ field, ∀ start,
      (doubled dialect point).foldlM (feed dialect limit) ⟨.inQuotedField, start, fields, rows⟩ =
        if fits limit (start ++ [point]) then .ok ⟨.inQuotedField, start ++ [point], fields, rows⟩
        else .error .fieldLimit := by
    intro point _ start
    by_cases isQuote : point = dialect.quote
    · -- two quotes are read as one
      subst isQuote
      have first : feed dialect limit ⟨.inQuotedField, start, fields, rows⟩ dialect.quote =
          .ok ⟨.quoteInQuotedField, start, fields, rows⟩ := by
        simp [feed_inside notLast, processChar]
      rw [doubled, if_pos rfl, List.foldlM_cons, first, ok_bind]
      simp [feed_inside notLast, processChar, Reader.add]
    · rw [doubled, if_neg isQuote]
      by_cases room : fits limit (start ++ [point]) = true <;>
        simp [feed, processChar, isQuote, Reader.add, room, endLine, bind, Except.bind, pure,
          Except.pure]
  rw [quoted, List.foldlM_cons, opened]
  change ((field.flatMap (doubled dialect)) ++ [dialect.quote]).foldlM (feed dialect limit)
    ⟨.inQuotedField, [], fields, rows⟩ = _
  rw [List.foldlM_append, feed_each each [] fits_nil, List.nil_append]
  by_cases room : fits limit field = true
  · rw [if_pos room, if_pos room]
    simp [feed_inside notLast, processChar, bind, Except.bind, pure, Except.pure]
  · rw [if_neg room, if_neg room]
    rfl

/-- The state after a field that began in another. -/
def stateAfter (dialect : Dialect) (state : State) (field : Str) : State :=
  if field.any (isSpecial dialect) then .quoteInQuotedField
  else if field = [] then state
  else .inField

/-- A field as it is written. -/
theorem feed_field (begins : Begins state) (field : Str) :
    (fieldText dialect field).foldlM (feed dialect limit) ⟨state, [], fields, rows⟩ =
      if fits limit field then .ok ⟨stateAfter dialect state field, field, fields, rows⟩
      else .error .fieldLimit := by
  by_cases special : field.any (isSpecial dialect) = true
  · rw [fieldText, if_pos special, feed_quoted begins, stateAfter, if_pos special]
  · have plain : ∀ point ∈ field, point ≠ dialect.delimiter ∧ point ≠ dialect.quote ∧
        isBreak point = false := by
      intro point member
      apply plain_of_not_special
      exact fun found => special (List.any_eq_true.mpr ⟨point, member, found⟩)
    rw [fieldText, if_neg special, stateAfter, if_neg special]
    cases field with
    | nil => simp [fits_nil, pure, Except.pure]
    | cons point rest =>
      obtain ⟨notDelimiter, notQuote, noBreak⟩ := plain point List.mem_cons_self
      have first : feed dialect limit ⟨state, [], fields, rows⟩ point =
          if fits limit [point] then .ok ⟨.inField, [point], fields, rows⟩
          else .error .fieldLimit := by
        rw [feed_inside (ne_lineFeed noBreak)]
        rcases begins with rfl | rfl <;>
          simp [processChar, beginField, noBreak, notDelimiter, notQuote, Reader.add]
      have each : ∀ other ∈ rest, ∀ start,
          [other].foldlM (feed dialect limit) ⟨.inField, start, fields, rows⟩ =
            if fits limit (start ++ [other]) then .ok ⟨.inField, start ++ [other], fields, rows⟩
            else .error .fieldLimit := by
        intro other member start
        obtain ⟨notDelimiter, notQuote, noBreak⟩ := plain other (List.mem_cons_of_mem _ member)
        simp [feed_inside (ne_lineFeed noBreak), processChar, noBreak, notDelimiter, Reader.add]
      rw [List.foldlM_cons, first, if_neg (List.cons_ne_nil _ _)]
      by_cases room : fits limit [point] = true
      · have later := feed_each each [point] room
        rw [List.flatMap_singleton', List.singleton_append] at later
        rw [if_pos room]
        exact later
      · have full : ¬ fits limit ([point] ++ rest) = true :=
          fun fitting => room (fits_of_append fitting)
        rw [List.singleton_append] at full
        rw [if_neg room, if_neg full]
        rfl

/-- A delimiter ends the field. -/
theorem feed_delimiter (begins : Begins state) (field : Str) :
    feed dialect limit ⟨stateAfter dialect state field, field, fields, rows⟩ dialect.delimiter =
      .ok ⟨.startField, [], fields ++ [field], rows⟩ := by
  have noBreak := dialect.delimiter_plain
  have notQuote := dialect.distinct
  rw [feed_inside (ne_lineFeed noBreak), stateAfter]
  split
  · simp [processChar, notQuote, Reader.save]
  · split
    · rcases begins with rfl | rfl <;>
        simp [processChar, beginField, noBreak, notQuote, Reader.save]
    · simp [processChar, noBreak, Reader.save]

/-- Where a field may end. -/
def Ends (state : State) : Prop :=
  state = .startField ∨ state = .inField ∨ state = .quoteInQuotedField

/-- A field has ended unless it is empty and the first one. -/
theorem ends_stateAfter {field : Str} (present : state = .startField ∨ field ≠ []) :
    Ends (stateAfter dialect state field) := by
  rw [stateAfter]
  split
  · exact .inr (.inr rfl)
  · split
    · next isEmpty => exact .inl (present.resolve_right (not_not_intro isEmpty))
    · exact .inr (.inl rfl)

/-- CR LF ends the row after a line break. -/
theorem feed_lineBreak {reader ended : Reader}
    (broken : processChar dialect limit reader carriageReturn = .ok ended)
    (eaten : ended.state = .eatCrnl) :
    [carriageReturn, lineFeed].foldlM (feed dialect limit) reader = .ok ended.record := by
  have inside : carriageReturn ≠ lineFeed := by decide
  have rest : feed dialect limit ended lineFeed = .ok ended.record := by
    have isFeed : isBreak lineFeed = true := by decide
    rw [feed, processChar, eaten]
    simp only [isFeed, if_true, ok_bind]
    rw [endLine, eaten]
    rfl
  rw [List.foldlM_cons, feed_inside inside, broken, ok_bind, List.foldlM_cons, rest]
  rfl

/-- CR LF ends the field and the row. -/
theorem feed_end (ended : Ends state) (field : Str) :
    [carriageReturn, lineFeed].foldlM (feed dialect limit) ⟨state, field, fields, rows⟩ =
      .ok { rows := rows ++ [fields ++ [field]] } := by
  have isReturn : isBreak carriageReturn = true := by decide
  have notQuote : carriageReturn ≠ dialect.quote :=
    fun same => Bool.false_ne_true (dialect.quote_plain.symm.trans (same ▸ isReturn))
  have notDelimiter : carriageReturn ≠ dialect.delimiter :=
    fun same => Bool.false_ne_true (dialect.delimiter_plain.symm.trans (same ▸ isReturn))
  have broken : processChar dialect limit ⟨state, field, fields, rows⟩ carriageReturn =
      .ok ⟨.eatCrnl, [], fields ++ [field], rows⟩ := by
    rcases ended with rfl | rfl | rfl
    · simp [processChar, beginField, isReturn, Reader.save]
    · simp [processChar, isReturn, Reader.save]
    · simp [processChar, isReturn, notQuote, notDelimiter, Reader.save]
  exact feed_lineBreak broken rfl

/-! ## Rows -/

/-- The rest of a row with a field. The fields before it are read. -/
theorem feed_fields (rest : List Str) (field : Str) (begins : Begins state)
    (several : state = .startField ∨ field ≠ [] ∨ rest ≠ []) :
    ([dialect.delimiter].intercalate ((field :: rest).map (fieldText dialect)) ++
        [carriageReturn, lineFeed]).foldlM (feed dialect limit) ⟨state, [], fields, rows⟩ =
      if (field :: rest).all (fits limit) then .ok { rows := rows ++ [fields ++ field :: rest] }
      else .error .fieldLimit := by
  induction rest generalizing state fields field with
  | nil =>
    have present : state = .startField ∨ field ≠ [] :=
      several.imp_right (fun other => other.resolve_right (not_not_intro rfl))
    rw [List.map_singleton, List.intercalate_singleton, List.foldlM_append, feed_field begins]
    by_cases room : fits limit field = true
    · rw [if_pos room, ok_bind, feed_end (ends_stateAfter present), List.all_cons, room]
      rfl
    · rw [if_neg room, error_bind, List.all_cons, eq_false_of_ne_true room]
      rfl
  | cons second rest inductionHypothesis =>
    rw [List.map_cons, List.map_cons, List.intercalate_cons_cons, List.append_assoc,
      List.append_assoc, List.foldlM_append, feed_field begins, List.all_cons]
    by_cases room : fits limit field = true
    · have later := @inductionHypothesis .startField (fields ++ [field]) second (.inr rfl)
        (.inl rfl)
      rw [List.map_cons, List.append_assoc, List.singleton_append] at later
      rw [if_pos room, ok_bind, List.singleton_append, List.foldlM_cons, feed_delimiter begins,
        ok_bind, later, room, Bool.true_and]
    · rw [if_neg room, error_bind, eq_false_of_ne_true room]
      rfl

/-- A row as it is written. -/
theorem feed_rowText (row : List Str) :
    (rowText dialect row).foldlM (feed dialect limit) { rows := rows } =
      if row.all (fits limit) then .ok { rows := rows ++ [row] } else .error .fieldLimit := by
  cases row with
  | nil =>
    have broken : processChar dialect limit { rows := rows } carriageReturn =
        .ok { state := .eatCrnl, rows := rows } := rfl
    exact feed_lineBreak broken rfl
  | cons field rest =>
    by_cases alone : field :: rest = [[]]
    · -- the quotes tell a row with an empty field from a row without fields
      obtain ⟨rfl, rfl⟩ := List.cons.inj alone
      rw [rowText, if_pos rfl, List.foldlM_append, feed_quoted (.inl rfl), if_pos fits_nil, ok_bind,
        feed_end (.inr (.inr rfl)), List.all_cons, fits_nil]
      rfl
    · have several : field ≠ [] ∨ rest ≠ [] := by
        by_contra both
        push Not at both
        exact alone (by rw [both.1, both.2])
      rw [rowText, if_neg alone]
      exact feed_fields rest field (.inl rfl) (.inr several)

/-- Rows as they are written. The rows before them are read. -/
theorem feed_written (later : List (List Str)) :
    (written dialect later).foldlM (feed dialect limit) { rows := rows } =
      if later.all (fun row => row.all (fits limit)) then .ok { rows := rows ++ later }
      else .error .fieldLimit := by
  induction later generalizing rows with
  | nil => simp [written, pure, Except.pure]
  | cons row rest inductionHypothesis =>
    rw [written, List.flatMap_cons, ← written, List.foldlM_append, feed_rowText, List.all_cons]
    by_cases room : row.all (fits limit) = true
    · rw [if_pos room, ok_bind, inductionHypothesis, room, Bool.true_and, List.append_assoc,
        List.singleton_append]
    · rw [if_neg room, error_bind, eq_false_of_ne_true room]
      rfl

/-- Rows are read as they were written, unless a cell is too long. -/
theorem read_written (rows : List (List Str)) :
    read dialect limit (written dialect rows) =
      if rows.all (fun row => row.all (fits limit)) then .ok rows else .error .fieldLimit := by
  rcases List.eq_nil_or_concat rows with rfl | ⟨front, last, rfl⟩
  · rfl
  · have ends : ∃ text, written dialect (front.concat last) = text ++ [lineFeed] := by
      rw [List.concat_eq_append, written, List.flatMap_append, List.flatMap_singleton, rowText]
      exact ⟨_, by rw [← List.append_assoc, List.append_cons]⟩
    obtain ⟨text, same⟩ := ends
    have fed := @feed_written dialect limit [] (front.concat last)
    rw [same] at fed
    rw [read, same, readLines_eq_feed, fed]
    split
    · rw [ok_bind]
      simp [Reader.finish, pure, Except.pure]
    · rfl

/-- They are read exactly if no cell is too long. -/
theorem read_written_iff (rows : List (List Str)) :
    read dialect limit (written dialect rows) = .ok rows ↔
      ∀ row ∈ rows, ∀ field ∈ row, fits limit field = true := by
  have each : rows.all (fun row => row.all (fits limit)) = true ↔
      ∀ row ∈ rows, ∀ field ∈ row, fits limit field = true := by
    simp only [List.all_eq_true]
  rw [read_written, ← each]
  split
  · next fitting => exact iff_of_true rfl fitting
  · next full => exact iff_of_false (fun same => nomatch same) full

end

example : written excel [[lit "a,\"b\"\n", []], [[]]] =
    lit "\"a,\"\"b\"\"\n\",\r\n\"\"\r\n" := by decide +kernel

end Library.Csv
