import WebhookInbox.Ingest.Receiver
import WebhookInbox.Library.Decimal
import WebhookInbox.Library.Markup

/-!
# The JSON viewer

The body of an event is shown as HTML that is put together from templates and from the
keys and values of the body, and is marked as safe as a whole. `renderJson_inert` says that
what a sender chooses never becomes a tag: the tags are those of the shape of the body, and
every key and every string is read back from between them.
-/

namespace WebhookInbox.JsonView

open Library Markup Scanner

/-! ## Rendering -/

/-- `AUTO_OPEN_DEPTH` -/
def autoOpenDepth : Nat := 2

section
variable (floatText : PyFloat → Str)

/-- `_scalar(value)`. Containers are not passed to it. -/
def scalar : Json → Str
  | .null => lit "<span class=\"j-null\">null</span>"
  | .bool value =>
      lit "<span class=\"j-bool\">" ++ (if value then lit "true" else lit "false") ++ lit "</span>"
  | .int value => lit "<span class=\"j-num\">" ++ escape (Text.ofInt value) ++ lit "</span>"
  | .float value => lit "<span class=\"j-num\">" ++ escape (floatText value) ++ lit "</span>"
  | .str value => lit "<span class=\"j-str\">\"" ++ escape value ++ lit "\"</span>"
  | .arr _ => []
  | .obj _ => []

/-- `_wrap(summary, rows, depth)` -/
def wrap (summary rows : Str) (depth : Nat) : Str :=
  let openAttr := if depth < autoOpenDepth then lit " open" else []
  lit "<details class='j-node'" ++ openAttr ++ lit ">" ++
    (lit "<summary class=\"j-summary\">" ++ escape summary ++ lit "</summary>") ++
    (lit "<div class=\"j-children\">" ++ rows ++ lit "</div>") ++ lit "</details>"

mutual

/-- `_render(value, depth)` -/
def render (depth : Nat) : Json → Str
  | .obj members =>
      if members.isEmpty then lit "<span class=\"j-punct\">\x7b\x7d</span>"
      else
        wrap (lit "\x7b" ++ Text.ofInt members.length ++ lit "\x7d")
          (renderMembers (depth + 1) members) depth
  | .arr items =>
      if items.isEmpty then lit "<span class=\"j-punct\">[]</span>"
      else
        wrap (lit "[" ++ Text.ofInt items.length ++ lit "]") (renderItems (depth + 1) 0 items) depth
  | .null => scalar floatText .null
  | .bool value => scalar floatText (.bool value)
  | .int value => scalar floatText (.int value)
  | .float value => scalar floatText (.float value)
  | .str value => scalar floatText (.str value)

/-- The rows of an object. -/
def renderMembers (depth : Nat) : List (Str × Json) → Str
  | [] => []
  | (key, item) :: rest =>
      lit "<div class=\"j-row\">" ++ (lit "<span class=\"j-key\">" ++ escape key ++ lit "</span>") ++
        lit "<span class=\"j-punct\">:</span> " ++ render depth item ++ lit "</div>" ++
        renderMembers depth rest

/-- The rows of a list from an index. -/
def renderItems (depth index : Nat) : List Json → Str
  | [] => []
  | item :: rest =>
      lit "<div class=\"j-row\">" ++
        (lit "<span class=\"j-index\">" ++ Text.ofInt index ++ lit "</span>") ++
        lit "<span class=\"j-punct\">:</span> " ++ render depth item ++ lit "</div>" ++
        renderItems depth (index + 1) rest

end

/-- `render_json(value)` -/
def renderJson (value : Json) : Str :=
  lit "<div class=\"json-view\">" ++ render floatText 0 value ++ lit "</div>"

end

/-! ## Shapes -/

/-- The shape of a value: its containers, their sizes, and the kinds of its scalars. -/
inductive Shape where
  | null
  | bool
  | number
  | string
  | array (items : List Shape)
  | object (values : List Shape)

mutual

def shape : Json → Shape
  | .null => .null
  | .bool _ => .bool
  | .int _ => .number
  | .float _ => .number
  | .str _ => .string
  | .arr items => .array (shapeItems items)
  | .obj members => .object (shapeMembers members)

def shapeItems : List Json → List Shape
  | [] => []
  | item :: rest => shape item :: shapeItems rest

def shapeMembers : List (Str × Json) → List Shape
  | [] => []
  | (_, value) :: rest => shape value :: shapeMembers rest

end

/-- The tag before a key. -/
def keyTag : Str := lit "span class=\"j-key\""

/-- The tag before a string. -/
def stringTag : Str := lit "span class=\"j-str\""

/-- A `span` of a class. -/
def spanTags (kind : String) : List Str := [lit "span class=\"" ++ lit kind ++ lit "\"", lit "/span"]

/-- The tags of a container at a depth, with its rows. -/
def wrapTags (depth : Nat) (rows : List Str) : List Str :=
  (lit "details class='j-node'" ++ if depth < autoOpenDepth then lit " open" else []) ::
    ([lit "summary class=\"j-summary\"", lit "/summary"] ++
      (lit "div class=\"j-children\"" :: (rows ++ [lit "/div"])) ++ [lit "/details"])

/-- The tags of a row. -/
def rowTags (kind : String) (value : List Str) : List Str :=
  lit "div class=\"j-row\"" :: (spanTags kind ++ spanTags "j-punct" ++ value ++ [lit "/div"])

mutual

/-- The tags of a value of this shape. -/
def Shape.tags (depth : Nat) : Shape → List Str
  | .null => spanTags "j-null"
  | .bool => spanTags "j-bool"
  | .number => spanTags "j-num"
  | .string => spanTags "j-str"
  | .array items =>
      if items.isEmpty then spanTags "j-punct"
      else wrapTags depth (Shape.rows "j-index" (depth + 1) items)
  | .object values =>
      if values.isEmpty then spanTags "j-punct"
      else wrapTags depth (Shape.rows "j-key" (depth + 1) values)

def Shape.rows (kind : String) (depth : Nat) : List Shape → List Str
  | [] => []
  | value :: rest => rowTags kind (value.tags depth) ++ Shape.rows kind depth rest

end

/-! ## Keys and strings -/

mutual

/-- The keys and strings of a value in the order of the document, as they are written after
their tags. A string stands between quotation marks. -/
def contents (write : Str → Str) : Json → List (Str × Str)
  | .str value => [(stringTag, lit "\"" ++ write value ++ lit "\"")]
  | .arr items => contentsItems write items
  | .obj members => contentsMembers write members
  | .null => []
  | .bool _ => []
  | .int _ => []
  | .float _ => []

def contentsItems (write : Str → Str) : List Json → List (Str × Str)
  | [] => []
  | item :: rest => contents write item ++ contentsItems write rest

def contentsMembers (write : Str → Str) : List (Str × Json) → List (Str × Str)
  | [] => []
  | (key, value) :: rest =>
      (keyTag, write key) :: contents write value ++ contentsMembers write rest

end

/-- The elements that hold keys and strings. -/
def wanted : List Str := [keyTag, stringTag]

/-! ## What is read -/

theorem less_not_mem_append {first second : Str} (left : less ∉ first) (right : less ∉ second) :
    less ∉ first ++ second := by
  rw [List.mem_append]
  exact fun either => either.elim left right

/-- An element that holds a key or a string. -/
theorem reads_wanted {source text : Str} (wants : source ∈ wanted) (plain : less ∉ text) :
    Reads wanted ([less] ++ source ++ [greater] ++ text ++ lit "</span>") [source, lit "/span"]
      [(source, text)] := by
  have table : wanted.all (fun known => decide (scan step .data ([less] ++ known ++ [greater]) =
      ([Token.tag known], State.data))) = true := by decide +kernel
  have opened := of_decide_eq_true (List.all_eq_true.mp table source wants)
  exact Reads.element opened wants plain (by decide +kernel) (by decide +kernel)

/-- An element with text that is not collected. -/
theorem reads_span {opening text source : Str} (opens : Reads wanted opening [source] [])
    (plain : less ∉ text) :
    Reads wanted (opening ++ text ++ lit "</span>") [source, lit "/span"] [] := by
  have ends : Reads wanted (lit "</span>") [lit "/span"] [] := by decide +kernel
  exact (opens.append (.plain plain)).append ends

/-- A string. -/
theorem reads_string (floatText : PyFloat → Str) (value : Str) :
    Reads wanted (scalar floatText (.str value)) (spanTags "j-str")
      (contents escape (.str value)) := by
  have mark : less ∉ lit "\"" := by decide +kernel
  have plain : less ∉ lit "\"" ++ escape value ++ lit "\"" :=
    less_not_mem_append (less_not_mem_append mark (less_not_mem_escape value)) mark
  have listed : stringTag ∈ wanted := by decide
  have element := reads_wanted listed plain
  have opening : lit "<span class=\"j-str\">\"" = [less] ++ stringTag ++ [greater] ++ lit "\"" := by
    decide +kernel
  have ending : lit "\"</span>" = lit "\"" ++ lit "</span>" := by decide +kernel
  have same : spanTags "j-str" = [stringTag, lit "/span"] := by decide +kernel
  rw [scalar, opening, ending, same, contents]
  simpa only [List.append_assoc] using element

/-- A key. -/
theorem reads_key (key : Str) :
    Reads wanted (lit "<span class=\"j-key\">" ++ escape key ++ lit "</span>") (spanTags "j-key")
      [(keyTag, escape key)] := by
  have listed : keyTag ∈ wanted := by decide
  have element := reads_wanted listed (less_not_mem_escape key)
  have opening : lit "<span class=\"j-key\">" = [less] ++ keyTag ++ [greater] := by decide +kernel
  have same : spanTags "j-key" = [keyTag, lit "/span"] := by decide +kernel
  rw [opening, same]
  exact element

/-- An index. -/
theorem reads_index (index : Nat) :
    Reads wanted (lit "<span class=\"j-index\">" ++ Text.ofInt index ++ lit "</span>")
      (spanTags "j-index") [] := by
  have opens : Reads wanted (lit "<span class=\"j-index\">") [lit "span class=\"j-index\""] [] := by
    decide +kernel
  have plain : less ∉ Text.ofInt index := by
    intro member
    have digit := List.all_eq_true.mp (Text.ofInt_digits index) less member
    revert digit
    decide
  have same : spanTags "j-index" = [lit "span class=\"j-index\"", lit "/span"] := by decide +kernel
  rw [same]
  exact reads_span opens plain

/-- A row: a key or an index, a colon and a value. -/
theorem reads_row {label value : Str} {kind : String} {tags : List Str}
    {labelled found : List (Str × Str)} (labels : Reads wanted label (spanTags kind) labelled)
    (valued : Reads wanted value tags found) :
    Reads wanted (lit "<div class=\"j-row\">" ++ label ++ lit "<span class=\"j-punct\">:</span> " ++
      value ++ lit "</div>") (rowTags kind tags) (labelled ++ found) := by
  have opens : Reads wanted (lit "<div class=\"j-row\">") [lit "div class=\"j-row\""] [] := by
    decide +kernel
  have colon : Reads wanted (lit "<span class=\"j-punct\">:</span> ") (spanTags "j-punct") [] := by
    decide +kernel
  have ends : Reads wanted (lit "</div>") [lit "/div"] [] := by decide +kernel
  have whole := (((opens.append labels).append colon).append valued).append ends
  simpa [rowTags] using whole

/-- A container around its rows. -/
theorem reads_wrap {rows : Str} {tags : List Str} {found : List (Str × Str)}
    (inner : Reads wanted rows tags found) (summary : Str) (depth : Nat) :
    Reads wanted (wrap summary rows depth) (wrapTags depth tags) found := by
  have node : Reads wanted (lit "<details class='j-node'" ++
      (if depth < autoOpenDepth then lit " open" else []) ++ lit ">")
      [lit "details class='j-node'" ++ if depth < autoOpenDepth then lit " open" else []] [] := by
    split <;> decide +kernel
  have opens : Reads wanted (lit "<summary class=\"j-summary\">")
      [lit "summary class=\"j-summary\""] [] := by decide +kernel
  have closes : Reads wanted (lit "</summary>") [lit "/summary"] [] := by decide +kernel
  have children : Reads wanted (lit "<div class=\"j-children\">")
      [lit "div class=\"j-children\""] [] := by decide +kernel
  have ends : Reads wanted (lit "</div>") [lit "/div"] [] := by decide +kernel
  have final : Reads wanted (lit "</details>") [lit "/details"] [] := by decide +kernel
  have title := (opens.append (.plain (less_not_mem_escape summary))).append closes
  have body := (children.append inner).append ends
  have whole := ((node.append title).append body).append final
  simpa [wrap, wrapTags] using whole

/-- The shapes of rows are as many as the rows. -/
theorem shapeItems_isEmpty (items : List Json) : (shapeItems items).isEmpty = items.isEmpty := by
  cases items <;> rfl

theorem shapeMembers_isEmpty (members : List (Str × Json)) :
    (shapeMembers members).isEmpty = members.isEmpty := by
  cases members <;> rfl

section
variable (floatText : PyFloat → Str)

/-- A number. -/
theorem reads_number (text : Str) :
    Reads wanted (lit "<span class=\"j-num\">" ++ escape text ++ lit "</span>") (spanTags "j-num")
      [] := by
  have opens : Reads wanted (lit "<span class=\"j-num\">") [lit "span class=\"j-num\""] [] := by
    decide +kernel
  have same : spanTags "j-num" = [lit "span class=\"j-num\"", lit "/span"] := by decide +kernel
  rw [same]
  exact reads_span opens (less_not_mem_escape text)

mutual

/-- A rendered value has the tags of its shape, and its keys and strings between them.

Induction on the value. -/
theorem reads_render : (value : Json) → ∀ depth,
    Reads wanted (render floatText depth value) ((shape value).tags depth) (contents escape value)
  | .null, depth => by
      rw [render, scalar, shape, Shape.tags, contents]
      decide +kernel
  | .bool value, depth => by
      rw [render, scalar, shape, Shape.tags, contents]
      cases value <;> decide +kernel
  | .int value, depth => by
      rw [render, scalar, shape, Shape.tags, contents]
      exact reads_number (Text.ofInt value)
  | .float value, depth => by
      rw [render, scalar, shape, Shape.tags, contents]
      exact reads_number (floatText value)
  | .str value, depth => by
      rw [render, shape, Shape.tags]
      exact reads_string floatText value
  | .arr items, depth => by
      rw [render, shape, Shape.tags, shapeItems_isEmpty, contents]
      cases items with
      | nil =>
        have empty : Reads wanted (lit "<span class=\"j-punct\">[]</span>") (spanTags "j-punct")
            [] := by decide +kernel
        exact empty
      | cons first rest => exact reads_wrap (reads_renderItems (first :: rest) (depth + 1) 0) _ depth
  | .obj members, depth => by
      rw [render, shape, Shape.tags, shapeMembers_isEmpty, contents]
      cases members with
      | nil =>
        have empty : Reads wanted (lit "<span class=\"j-punct\">\x7b\x7d</span>")
            (spanTags "j-punct") [] := by decide +kernel
        exact empty
      | cons first rest => exact reads_wrap (reads_renderMembers (first :: rest) (depth + 1)) _ depth

theorem reads_renderItems : (items : List Json) → ∀ depth index,
    Reads wanted (renderItems floatText depth index items)
      (Shape.rows "j-index" depth (shapeItems items)) (contentsItems escape items)
  | [], depth, index => .nil
  | item :: rest, depth, index => by
      have row := reads_row (reads_index index) (reads_render item depth)
      exact row.append (reads_renderItems rest depth (index + 1))

theorem reads_renderMembers : (members : List (Str × Json)) → ∀ depth,
    Reads wanted (renderMembers floatText depth members)
      (Shape.rows "j-key" depth (shapeMembers members)) (contentsMembers escape members)
  | [], depth => .nil
  | (key, value) :: rest, depth => by
      have row := reads_row (reads_key key) (reads_render value depth)
      exact row.append (reads_renderMembers rest depth)

end

end

/-! ## Balance -/

theorem balanced_span (kind : String) : Balanced (spanTags kind) :=
  Balanced.element .nil rfl rfl rfl

theorem balanced_row (kind : String) {tags : List Str} (balanced : Balanced tags) :
    Balanced (rowTags kind tags) :=
  Balanced.element (((balanced_span kind).append (balanced_span "j-punct")).append balanced) rfl rfl
    rfl

theorem balanced_wrap (depth : Nat) {rows : List Str} (balanced : Balanced rows) :
    Balanced (wrapTags depth rows) := by
  have summary : Balanced [lit "summary class=\"j-summary\"", lit "/summary"] :=
    Balanced.element .nil rfl rfl rfl
  have children : Balanced (lit "div class=\"j-children\"" :: (rows ++ [lit "/div"])) :=
    Balanced.element balanced rfl rfl rfl
  exact Balanced.element (summary.append children) rfl rfl rfl

mutual

/-- The tags of a shape are balanced. -/
theorem balanced_tags : (kind : Shape) → ∀ depth, Balanced (kind.tags depth)
  | .null, _ => balanced_span _
  | .bool, _ => balanced_span _
  | .number, _ => balanced_span _
  | .string, _ => balanced_span _
  | .array items, depth => by
      rw [Shape.tags]
      split
      · exact balanced_span _
      · exact balanced_wrap depth (balanced_rows "j-index" items (depth + 1))
  | .object values, depth => by
      rw [Shape.tags]
      split
      · exact balanced_span _
      · exact balanced_wrap depth (balanced_rows "j-key" values (depth + 1))

theorem balanced_rows (kind : String) : (shapes : List Shape) → ∀ depth,
    Balanced (Shape.rows kind depth shapes)
  | [], _ => .nil
  | value :: rest, depth =>
      (balanced_row kind (balanced_tags value depth)).append (balanced_rows kind rest depth)

end

/-! ## Unescaping -/

/-- An escaped string between quotation marks. -/
theorem unescape_quoted (unescaping : Unescaping) (value : Str) :
    unescaping.unescape (lit "\"" ++ escape value ++ lit "\"") = lit "\"" ++ value ++ lit "\"" := by
  have mark : lit "\"" = [0x22] := by decide +kernel
  have final : unescaping.unescape [0x22] = [0x22] := by
    rw [unescaping.unescape_plain 0x22 [] (by decide), unescaping.unescape_nil]
  rw [mark, List.append_assoc, List.singleton_append,
    unescaping.unescape_plain 0x22 _ (by decide), unescape_escape, final]
  rfl

/-- An escaped key. -/
theorem unescape_key (unescaping : Unescaping) (key : Str) :
    unescaping.unescape (escape key) = key := by
  have whole := unescape_escape unescaping key []
  rwa [List.append_nil, unescaping.unescape_nil, List.append_nil] at whole

section
variable (unescaping : Unescaping)

mutual

/-- What is written escaped is read back. -/
theorem contents_unescaped : (value : Json) →
    (contents escape value).map (fun found => (found.1, unescaping.unescape found.2)) =
      contents id value
  | .null => rfl
  | .bool _ => rfl
  | .int _ => rfl
  | .float _ => rfl
  | .str value => by
      rw [contents, contents, List.map_singleton, unescape_quoted]
      rfl
  | .arr items => by
      rw [contents, contents]
      exact contentsItems_unescaped items
  | .obj members => by
      rw [contents, contents]
      exact contentsMembers_unescaped members

theorem contentsItems_unescaped : (items : List Json) →
    (contentsItems escape items).map (fun found => (found.1, unescaping.unescape found.2)) =
      contentsItems id items
  | [] => rfl
  | item :: rest => by
      rw [contentsItems, contentsItems, List.map_append, contents_unescaped item,
        contentsItems_unescaped rest]

theorem contentsMembers_unescaped : (members : List (Str × Json)) →
    (contentsMembers escape members).map (fun found => (found.1, unescaping.unescape found.2)) =
      contentsMembers id members
  | [] => rfl
  | (key, value) :: rest => by
      rw [contentsMembers, contentsMembers, List.map_append, List.map_cons,
        contents_unescaped value, contentsMembers_unescaped rest, unescape_key]
      rfl

end

end

/-! ## The view -/

/-- A whole view. -/
theorem reads_renderJson (floatText : PyFloat → Str) (value : Json) :
    Reads wanted (renderJson floatText value)
      (lit "div class=\"json-view\"" :: ((shape value).tags 0 ++ [lit "/div"]))
      (contents escape value) := by
  have opens : Reads wanted (lit "<div class=\"json-view\">") [lit "div class=\"json-view\""]
      [] := by decide +kernel
  have ends : Reads wanted (lit "</div>") [lit "/div"] [] := by decide +kernel
  have whole := (opens.append (reads_render floatText value 0)).append ends
  simpa [renderJson] using whole

/-- The view of a value has the tags of its shape and no others, they are balanced, and its
keys and strings are read back, in their order, by unescaping what stands in the elements
for keys and strings.

Proof: every part of the view ends where the reader of tags is between tags; the templates
have their tags, and what is escaped has none. -/
theorem renderJson_inert (floatText : PyFloat → Str) (unescaping : Unescaping) (value : Json) :
    (∀ other, shape other = shape value →
      tags (renderJson floatText other) = tags (renderJson floatText value)) ∧
    Balanced (tags (renderJson floatText value)) ∧
    (elements wanted (renderJson floatText value)).map
        (fun found => (found.1, unescaping.unescape found.2)) = contents id value := by
  have view := reads_renderJson floatText value
  refine ⟨?_, ?_, ?_⟩
  · intro other same
    rw [view.tags, (reads_renderJson floatText other).tags, same]
  · rw [view.tags]
    exact Balanced.element (balanced_tags (shape value) 0) rfl rfl rfl
  · rw [view.elements, contents_unescaped]

/-- A key and a string that look like tags. -/
example : (elements wanted (renderJson (fun _ => [])
      (.obj [(lit "<b>", .str (lit "</span>&lt;"))]))).map
        (fun found => (found.1, Unescaping.table.unescape found.2)) =
    [(keyTag, lit "<b>"), (stringTag, lit "\"</span>&lt;\"")] := by
  decide +kernel

end WebhookInbox.JsonView
