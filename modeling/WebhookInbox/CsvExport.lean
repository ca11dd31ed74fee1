import WebhookInbox.Export
import WebhookInbox.Library.Csv

/-!
# The CSV export

One row is written for each event, into a buffer that is emptied after every row. A text that a
spreadsheet would take for a formula gets a quote in front.

`csv_exact` says what a reader of CSV makes of the chunks.
-/

namespace WebhookInbox.Export

open Library Calendar IsoFormat WebhookInbox.Receiver WebhookInbox.Backfill

/-! ## The buffer -/

/-- `io.StringIO()`: what it holds, and where the next text is written. -/
structure Buffer where
  value : Str := []
  position : Nat := 0

/-- `buffer.write(text)`, over what is there. A gap before it is filled with zeros. -/
def Buffer.write (text : Str) (buffer : Buffer) : Buffer where
  value := buffer.value.take buffer.position ++
    List.replicate (buffer.position - buffer.value.length) 0 ++ text ++
    buffer.value.drop (buffer.position + text.length)
  position := buffer.position + text.length

/-- `buffer.seek(position)` -/
def Buffer.seek (position : Nat) (buffer : Buffer) : Buffer := { buffer with position := position }

/-- `buffer.truncate(size)`, which leaves the position. -/
def Buffer.truncate (size : Nat) (buffer : Buffer) : Buffer :=
  { buffer with value := buffer.value.take size }

/-- `flush()` -/
def flush (buffer : Buffer) : Str × Buffer := (buffer.value, (buffer.seek 0).truncate 0)

/-- What is flushed is the text that was written into an empty buffer, which is empty again. -/
theorem flush_write (text : Str) : flush (Buffer.write text {}) = (text, {}) := by
  simp [flush, Buffer.write, Buffer.seek, Buffer.truncate]

/-! ## The stream -/

/-- `CSV_COLUMNS` -/
def csvColumns : List Str :=
  [lit "id", lit "received_at", lit "endpoint", lit "event_type", lit "method", lit "status",
    lit "response_status", lit "content_type", lit "body_size", lit "source_ip", lit "user_agent",
    lit "body"]

/-- `FORMULA_PREFIXES` -/
def formulaPrefixes : List Str := [lit "=", lit "+", lit "-", lit "@", lit "\t", lit "\r"]

/-- `csv_safe(value)` -/
def csvSafe : Bson → Bson
  | .str text => if text.take 1 ∈ formulaPrefixes then .str (0x27 :: text) else .str text
  | value => value

/-- `fields.get(name)` -/
def fieldOf (fields : Dict Str Bson) (name : Str) : Bson := (fields.get name).getD .null

section
variable (otherText : Bson → Str)

/-- `str(value)`. What it makes of dates, numbers with a fraction, arrays and documents is a
parameter. -/
def strOf : Bson → Str
  | .null => lit "None"
  | .bool value => if value then lit "True" else lit "False"
  | .int value => Text.ofInt value
  | .str text => text
  | .objectId id => id.text
  | value => otherText value

/-- `_encode(value)`. A time that no `datetime` can hold is never read. -/
def encode : Bson → Option Str
  | .date value => (stampOf value).map isoformat
  | value => some (strOf otherText value)

/-- `csv_row(document)`. It raises without a time, and where a value has no fields to read. -/
def csvRow (document : Stored) : Option (List Bson) := do
  let request ← mapping (document.fields.get (lit "request"))
  let processing ← mapping (document.fields.get (lit "processing"))
  let metadata ← mapping (document.fields.get (lit "metadata"))
  let receivedAt ← document.fields.get (lit "received_at")
  let receivedAt ← encode otherText receivedAt
  let endpoint ← mapping (document.fields.get (lit "endpoint"))
  let cells := [
    .str document.id.text,
    .str receivedAt,
    fieldOf endpoint (lit "name"),
    fieldOf document.fields (lit "event_type"),
    fieldOf request (lit "method"),
    fieldOf processing (lit "status"),
    fieldOf processing (lit "response_status"),
    fieldOf request (lit "content_type"),
    fieldOf request (lit "body_size"),
    fieldOf metadata (lit "source_ip"),
    fieldOf metadata (lit "user_agent"),
    fieldOf request (lit "raw_body")]
  pure (cells.map csvSafe)

/-- The text that `csv.writer` writes for a value. -/
def cellText : Bson → Str
  | .null => []
  | value => strOf otherText value

/-- `writer.writerow(row)` -/
def writeRow (row : List Bson) (buffer : Buffer) : Buffer :=
  buffer.write (Csv.rowText Csv.excel (row.map (cellText otherText)))

/-- The loop of `stream_csv(rows)`. -/
def csvChunks (buffer : Buffer) : List Stored → Option (List Str)
  | [] => some []
  | document :: rest => do
      let row ← csvRow otherText document
      let (chunk, buffer) := flush (writeRow otherText row buffer)
      let later ← csvChunks buffer rest
      pure (chunk :: later)

/-- The chunks of `stream_csv(rows)`, if it ends. -/
def streamCsv (rows : List Stored) : Option (List Str) :=
  let (header, buffer) := flush (writeRow otherText (csvColumns.map .str) {})
  (csvChunks otherText buffer rows).map (header :: ·)

end

/-! ## What a reader of it reads -/

section
variable {otherText : Bson → Str}

/-- The rows of documents that have them. -/
def Formed (otherText : Bson → Str) : List Stored → List (List Bson) → Prop :=
  List.Forall₂ (fun document row => csvRow otherText document = some row)

/-- Each chunk is one row, as the buffer is empty before it. -/
theorem csvChunks_eq {rows : List Stored} {table : List (List Bson)}
    (formed : Formed otherText rows table) :
    csvChunks otherText {} rows =
      some (table.map (fun row => Csv.rowText Csv.excel (row.map (cellText otherText)))) := by
  induction formed with
  | nil => rfl
  | @cons document row rest later made _ inductionHypothesis =>
    have flushed := flush_write (Csv.rowText Csv.excel (row.map (cellText otherText)))
    rw [csvChunks, made, Option.bind_eq_bind, Option.bind_some, writeRow, flushed]
    simp only [inductionHypothesis]
    rfl

/-- The chunks together are the header and the rows. -/
theorem streamCsv_eq {rows : List Stored} {table : List (List Bson)}
    (formed : Formed otherText rows table) :
    ∃ chunks, streamCsv otherText rows = some chunks ∧
      chunks.flatten = Csv.written Csv.excel
        (csvColumns :: table.map (fun row => row.map (cellText otherText))) := by
  have header : (csvColumns.map Bson.str).map (cellText otherText) = csvColumns := by
    rw [List.map_map]
    exact List.map_id' csvColumns
  have flushed := flush_write (Csv.rowText Csv.excel csvColumns)
  refine ⟨Csv.rowText Csv.excel csvColumns ::
    table.map (fun row => Csv.rowText Csv.excel (row.map (cellText otherText))), ?_, ?_⟩
  · rw [streamCsv, writeRow, header, flushed]
    exact congrArg (Option.map _) (csvChunks_eq formed)
  · rw [List.flatten_cons, Csv.written, List.flatMap_cons, List.flatMap_map, ← List.flatMap_def]

end

/-! ## Stored events -/

/-- The characters that begin a formula. -/
def formulaChars : List CodePoint := [0x3D, 0x2B, 0x2D, 0x40, 0x09, 0x0D]

/-- A spreadsheet takes the text for a formula. -/
def OpensFormula (text : Str) : Prop := ∃ point ∈ formulaChars, ∃ rest, text = point :: rest

/-- What a value is shown as: its text, with a quote in front if it is a text that opens a
formula, and nothing without a value. -/
inductive Shows : Bson → Str → Prop
  | null : Shows .null []
  | number (value : Nat) : Shows (.int value) (Text.ofInt value)
  | plain {text : Str} (harmless : ¬ OpensFormula text) : Shows (.str text) text
  | defused {text : Str} (opens : OpensFormula text) : Shows (.str text) (0x27 :: text)

/-- No cell that is shown opens a formula. -/
theorem Shows.harmless {value : Bson} {cell : Str} (shown : Shows value cell) :
    ¬ OpensFormula cell := by
  rintro ⟨point, formula, rest, same⟩
  cases shown with
  | null => cases same
  | number value =>
    have digit := List.all_eq_true.mp (Text.ofInt_digits value) point (same ▸ List.mem_cons_self)
    have noDigits : formulaChars.all (fun point => !Text.isAsciiDigit point) = true := by decide
    have other := List.all_eq_true.mp noDigits point formula
    rw [digit] at other
    cases other
  | plain harmless => exact harmless ⟨point, formula, rest, same⟩
  | defused opens =>
    obtain rfl := (List.cons.inj same).1
    revert formula
    decide

/-- The guard is for these characters. -/
theorem take_mem_formulaPrefixes (text : Str) :
    text.take 1 ∈ formulaPrefixes ↔ OpensFormula text := by
  have each : formulaPrefixes = formulaChars.map (fun point => [point]) := by decide +kernel
  rw [each]
  constructor
  · intro found
    obtain ⟨point, formula, same⟩ := List.mem_map.mp found
    cases text with
    | nil => cases same
    | cons first rest =>
      obtain rfl := (List.cons.inj same).1
      exact ⟨point, formula, rest, rfl⟩
  · rintro ⟨point, formula, rest, rfl⟩
    exact List.mem_map_of_mem formula

section
variable {otherText : Bson → Str}

/-- The cell of a text. -/
theorem shows_str (text : Str) : Shows (.str text) (cellText otherText (csvSafe (.str text))) := by
  rw [csvSafe]
  split
  · next found => exact .defused ((take_mem_formulaPrefixes text).mp found)
  · next absent => exact .plain (fun opens => absent ((take_mem_formulaPrefixes text).mpr opens))

/-- The cell of a text that may be missing. -/
theorem shows_ofOption (text : Option Str) :
    Shows (.ofOption .str text) (cellText otherText (csvSafe (.ofOption .str text))) := by
  cases text with
  | none => exact .null
  | some text => exact shows_str text

/-- The cell of a natural number. -/
theorem shows_number (value : Nat) :
    Shows (.int value) (cellText otherText (csvSafe (.int value))) := .number value

/-- The values of the cells of a stored event. -/
def cellsOf (id : ObjectId) (doc : EventDoc) (receivedAt : Stamp) : List Bson :=
  [.str id.text, .str (isoformat receivedAt), .str doc.endpointName, .ofOption .str doc.eventType,
    .str doc.method, .str (lit "received"), .int (202 : Nat), .str doc.contentType,
    .int doc.bodySize, .ofOption .str doc.sourceIp, .ofOption .str doc.userAgent, .str doc.rawBody]

/-- The row of a stored event. -/
theorem csvRow_stored (id : ObjectId) {doc : EventDoc} {receivedAt : Stamp}
    (held : stampOf (toMillis doc.receivedAt) = some receivedAt) :
    csvRow otherText (stored id doc) = some ((cellsOf id doc receivedAt).map csvSafe) := by
  obtain ⟨request, endpoint, eventType, _⟩ := stored_fields id doc
  have receivedField : (stored id doc).fields.get (lit "received_at") =
      some (.date (toMillis doc.receivedAt)) := rfl
  have processing : (stored id doc).fields.get (lit "processing") = some (.doc [
      (lit "status", .str (lit "received")), (lit "response_status", .int 202)]) := rfl
  have metadata : (stored id doc).fields.get (lit "metadata") = some (.doc [
      (lit "source_ip", .ofOption .str doc.sourceIp),
      (lit "user_agent", .ofOption .str doc.userAgent)]) := rfl
  have time : encode otherText (.date (toMillis doc.receivedAt)) = some (isoformat receivedAt) := by
    rw [encode, held]
    rfl
  simp only [csvRow, request, processing, metadata, receivedField, time, endpoint, mapping,
    Option.bind_eq_bind, Option.bind_some, Option.pure_def, fieldOf, eventType]
  rfl

/-- What is shown of a stored event, a cell for each column. -/
theorem shows_cellsOf (id : ObjectId) (doc : EventDoc) (receivedAt : Stamp) :
    List.Forall₂ Shows (cellsOf id doc receivedAt)
      (((cellsOf id doc receivedAt).map csvSafe).map (cellText otherText)) := by
  rw [List.map_map, List.forall₂_map_right_iff, List.forall₂_same, cellsOf]
  simp only [List.forall_mem_cons, List.not_mem_nil, false_imp_iff, implies_true, and_true,
    Function.comp_apply]
  exact ⟨shows_str _, shows_str _, shows_str _, shows_ofOption _, shows_str _, shows_str _,
    shows_number 202, shows_str _, shows_number _, shows_ofOption _, shows_ofOption _, shows_str _⟩

/-- The rows of stored events, whose times are times of `datetime`. -/
theorem formed_stored {events : List (ObjectId × EventDoc)}
    (held : ∀ event ∈ events, minInstant ≤ event.2.receivedAt ∧ event.2.receivedAt ≤ maxInstant) :
    ∃ table, Formed otherText (rowsOf events) table ∧
      List.Forall₂ (fun event row => ∃ receivedAt,
        stampOf (toMillis event.2.receivedAt) = some receivedAt ∧
          row = (cellsOf event.1 event.2 receivedAt).map csvSafe) events table := by
  induction events with
  | nil => exact ⟨[], .nil, .nil⟩
  | cons event rest inductionHypothesis =>
    rw [List.forall_mem_cons] at held
    obtain ⟨table, formed, each⟩ := inductionHypothesis held.2
    obtain ⟨receivedAt, time⟩ := stampOf_toMillis held.1.1 held.1.2
    exact ⟨(cellsOf event.1 event.2 receivedAt).map csvSafe :: table,
      .cons (csvRow_stored event.1 time) formed, .cons ⟨receivedAt, time, rfl⟩ each⟩

end

/-- The row shows the event, a cell for each column. -/
def ShownIn (event : ObjectId × EventDoc) (row : List Str) : Prop :=
  ∃ receivedAt, stampOf (toMillis event.2.receivedAt) = some receivedAt ∧
    List.Forall₂ Shows (cellsOf event.1 event.2 receivedAt) row

theorem ShownIn.width {event : ObjectId × EventDoc} {row : List Str} (shown : ShownIn event row) :
    row.length = 12 := by
  obtain ⟨receivedAt, _, cells⟩ := shown
  exact cells.length_eq.symm

theorem ShownIn.harmless {event : ObjectId × EventDoc} {row : List Str}
    (shown : ShownIn event row) : ∀ cell ∈ row, ¬ OpensFormula cell := by
  obtain ⟨receivedAt, _, cells⟩ := shown
  exact forall_carried cells (fun _ _ shown (_ : True) => shown.harmless) (fun _ _ => trivial)

/-- The export of the events is read as the header and one row for each of them, in their
order. A reader with a limit on the length of a cell reads it if no cell is longer. -/
structure Sheet (otherText : Bson → Str) (events : List (ObjectId × EventDoc))
    (chunks : List Str) (rows : List (List Str)) : Prop where
  streamed : streamCsv otherText (rowsOf events) = some chunks
  whole : Csv.read Csv.excel none chunks.flatten = .ok (csvColumns :: rows)
  limited : ∀ limit, Csv.read Csv.excel (some limit) chunks.flatten = .ok (csvColumns :: rows) ↔
    ∀ row ∈ csvColumns :: rows, ∀ cell ∈ row, cell.length ≤ limit
  shown : List.Forall₂ ShownIn events rows
  widths : ∀ row ∈ rows, row.length = 12
  harmless : ∀ row ∈ rows, ∀ cell ∈ row, ¬ OpensFormula cell

/-- The export of stored events is such a sheet. -/
theorem csv_exact (otherText : Bson → Str) {events : List (ObjectId × EventDoc)}
    (held : ∀ event ∈ events, minInstant ≤ event.2.receivedAt ∧ event.2.receivedAt ≤ maxInstant) :
    ∃ chunks rows, Sheet otherText events chunks rows := by
  obtain ⟨table, formed, each⟩ := @formed_stored otherText _ held
  obtain ⟨chunks, streamed, whole⟩ := streamCsv_eq formed
  have shown : List.Forall₂ ShownIn events
      (table.map (fun row => row.map (cellText otherText))) := by
    apply List.forall₂_map_right_iff.mpr
    apply each.imp
    rintro event row ⟨receivedAt, time, rfl⟩
    exact ⟨receivedAt, time, shows_cellsOf event.1 event.2 receivedAt⟩
  refine ⟨chunks, table.map (fun row => row.map (cellText otherText)), streamed, ?_, ?_, shown,
    forall_carried shown (fun _ _ shown (_ : True) => shown.width) (fun _ _ => trivial),
    forall_carried shown (fun _ _ shown (_ : True) => shown.harmless) (fun _ _ => trivial)⟩
  · rw [whole]
    exact (Csv.read_written_iff _).mpr (fun _ _ _ _ => rfl)
  · intro limit
    rw [whole, Csv.read_written_iff]
    simp only [Csv.fits, Option.all_some, decide_eq_true_eq]

/-- An event whose type is a formula, and whose body has quotes and a line break in it. -/
def smuggled : EventDoc :=
  { ratioDoc with
    eventType := some (lit "=cmd|'/c calc'!A1"),
    rawBody := lit "a,b\n\"quoted\"" }

/-- It is exported twice. -/
theorem csv_exact_smuggled :
    ∃ chunks rows, Sheet (fun _ => []) [(⟨1⟩, smuggled), (⟨2⟩, smuggled)] chunks rows := by
  have time : minInstant ≤ smuggled.receivedAt ∧ smuggled.receivedAt ≤ maxInstant := by
    decide +kernel
  exact csv_exact _ (by simpa using time)

end WebhookInbox.Export
