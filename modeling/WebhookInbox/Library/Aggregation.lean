import WebhookInbox.Library.Documents
import Mathlib.Algebra.Field.Rat

/-!
# Expressions of an aggregation

Inside an expression a text is data only if it does not begin with a dollar sign. One
dollar sign makes it a path into the document, two make it a variable; a text of that form
that is neither is an error, before any document is looked at.

An expression evaluates to nothing where the evaluation is an error. A value may also be
missing, which is no error. Results of arithmetic are rounded, in a way left open here.
-/

namespace Library.Aggregation

open Documents

/-! ## Texts in expressions -/

def dollar : CodePoint := 0x24

def dot : CodePoint := 0x2E

/-- What a text in an expression is. -/
inductive Operand where
  | literal (text : Str)
  | path (names : List Str)
  | variable (name : Str) (names : List Str)
deriving DecidableEq

/-- A field name in a path: not empty, without a dollar sign in front and without NUL. -/
def validName (name : Str) : Bool :=
  decide (name ≠ []) && decide (name.head? ≠ some dollar) &&
    name.all (fun point => decide (point.val ≠ 0))

/-- Read a text in an expression. The result is missing if it is neither data nor a path
nor a variable. -/
def readOperand (text : Str) : Option Operand :=
  match text with
  | [] => some (.literal [])
  | first :: rest =>
      if first = dollar then
        if rest.head? = some dollar then
          match rest.tail.splitOn dot with
          | [] => none
          | name :: names =>
              if validName name && names.all validName then some (.variable name names) else none
        else if (rest.splitOn dot).all validName then some (.path (rest.splitOn dot))
        else none
      else some (.literal (first :: rest))

/-- The value of a path in a document. An array on the way is looked into, and gives an
array. -/
def fieldPath : List Str → Bson → Option Bson
  | [], value => some value
  | name :: rest, .doc fields => (Dict.get fields name).bind (fieldPath rest)
  | name :: rest, .arr items =>
      some (.arr (items.filterMap (fun item => (item.field name).bind (fieldPath rest))))
  | _, _ => none

/-- The variables that the server defines. -/
structure Server where
  names : List Str
  value : Str → Bson → Option Bson

/-- Where an expression is evaluated: the document, and the variables that the expressions
around it bind. -/
structure Scope where
  server : Server
  document : Bson
  bound : List (Str × Bson)

/-- The value of a text, which may be missing. A variable that is not defined has none. -/
def Scope.value (scope : Scope) : Operand → Option (Option Bson)
  | .literal text => some (some (.str text))
  | .path names => some (fieldPath names scope.document)
  | .variable name names =>
      match Dict.get scope.bound name with
      | some value => some (fieldPath names value)
      | none =>
          if name ∈ scope.server.names then
            some ((scope.server.value name scope.document).bind (fieldPath names))
          else none

/-- A text is read before evaluation, and its variables have to be defined. -/
def validOperand (server : Server) (bound : List Str) (text : Str) : Bool :=
  match readOperand text with
  | none => false
  | some (.variable name _) => decide (name ∈ bound ∨ name ∈ server.names)
  | some _ => true

/-! ## Equality -/

mutual

/-- Two values are equal. A number equals numbers of its own kind. -/
def same : Bson → Bson → Bool
  | .null, .null => true
  | .bool first, .bool second => decide (first = second)
  | .int first, .int second => decide (first = second)
  | .double first, .double second => decide (first = second)
  | .str first, .str second => decide (first = second)
  | .date first, .date second => decide (first = second)
  | .objectId first, .objectId second => decide (first = second)
  | .arr first, .arr second => sameItems first second
  | .doc first, .doc second => sameFields first second
  | _, _ => false

def sameItems : List Bson → List Bson → Bool
  | [], [] => true
  | first :: rest, second :: others => same first second && sameItems rest others
  | _, _ => false

def sameFields : List (Str × Bson) → List (Str × Bson) → Bool
  | [], [] => true
  | (name, first) :: rest, (other, second) :: others =>
      decide (name = other) && same first second && sameFields rest others
  | _, _ => false

end

/-- Two values that may be missing are equal. -/
def sameValue : Option Bson → Option Bson → Bool
  | none, none => true
  | some first, some second => same first second
  | _, _ => false

/-- A text equals itself only. -/
theorem same_str (value : Bson) (text : Str) : same value (.str text) = isText text value := by
  cases value <;> simp [same, isText]

/-- A missing value is no text. -/
theorem sameValue_str (value : Option Bson) (text : Str) :
    sameValue value (some (.str text)) = value.any (isText text) := by
  cases value with
  | none => simp [sameValue]
  | some value => simp [sameValue, same_str]

/-- The same the other way round. -/
theorem str_sameValue (value : Option Bson) (text : Str) :
    sameValue (some (.str text)) value = value.any (isText text) := by
  cases value with
  | none => simp [sameValue]
  | some value => cases value <;> simp [sameValue, same, isText, eq_comm]

/-! ## Expressions -/

/-- Expressions for a value: a text, and `$substrCP`. -/
inductive ValueExpr where
  | operand (text : Str)
  | substrCP (source : ValueExpr) (start length : Nat)

/-- Expressions for an array: `{"$ifNull": [text, []]}`, a list of texts, and
`$setIntersection`. -/
inductive ArrayExpr where
  | orEmpty (text : Str)
  | texts (items : List Str)
  | setIntersection (first second : ArrayExpr)

/-- Expressions for a truth value: `$in`, `$eq`, `$setIsSubset`, and `$anyElementTrue` of a
`$map`. -/
inductive BoolExpr where
  | isIn (value : ValueExpr) (array : ArrayExpr)
  | eq (first second : ValueExpr)
  | setIsSubset (first second : ArrayExpr)
  | anyElementTrue (input : ArrayExpr) (name : Str) (body : BoolExpr)

/-- Expressions for a number: a constant, `$size`, `$divide` and `$multiply`. -/
inductive NumberExpr where
  | constant (value : ℚ)
  | size (array : ArrayExpr)
  | divide (dividend divisor : NumberExpr)
  | multiply (first second : NumberExpr)

/-- `$switch` over cases with constant results, and a default. -/
structure SwitchExpr where
  branches : List (BoolExpr × ℚ)
  default : NumberExpr

/-! ## Reading before evaluation -/

section
variable (server : Server)

def ValueExpr.valid (bound : List Str) : ValueExpr → Bool
  | .operand text => validOperand server bound text
  | .substrCP source _ _ => source.valid bound

def ArrayExpr.valid (bound : List Str) : ArrayExpr → Bool
  | .orEmpty text => validOperand server bound text
  | .texts items => items.all (validOperand server bound)
  | .setIntersection first second => first.valid bound && second.valid bound

def BoolExpr.valid (bound : List Str) : BoolExpr → Bool
  | .isIn value array => value.valid server bound && array.valid server bound
  | .eq first second => first.valid server bound && second.valid server bound
  | .setIsSubset first second => first.valid server bound && second.valid server bound
  | .anyElementTrue input name body => input.valid server bound && body.valid (name :: bound)

def NumberExpr.valid (bound : List Str) : NumberExpr → Bool
  | .constant _ => true
  | .size array => array.valid server bound
  | .divide dividend divisor => dividend.valid bound && divisor.valid bound
  | .multiply first second => first.valid bound && second.valid bound

/-- The expression is accepted, whatever document it may be evaluated on. -/
def SwitchExpr.valid (switch : SwitchExpr) : Bool :=
  switch.branches.all (fun branch => branch.1.valid server []) && switch.default.valid server []

end

/-! ## Evaluation -/

/-- The value of a text in an expression. -/
def Scope.text (scope : Scope) (text : Str) : Option (Option Bson) :=
  (readOperand text).bind scope.value

/-- `$substrCP` takes a text; of a value that is missing or null it makes an empty one. -/
def ValueExpr.eval (scope : Scope) : ValueExpr → Option (Option Bson)
  | .operand text => scope.text text
  | .substrCP source start length =>
      match source.eval scope with
      | some (some (.str text)) => some (some (.str ((text.drop start).take length)))
      | some (some .null) | some none => some (some (.str []))
      | _ => none

/-- The members of an array. Sets are arrays in which each value occurs once. -/
def ArrayExpr.eval (scope : Scope) : ArrayExpr → Option (List Bson)
  | .orEmpty text =>
      match scope.text text with
      | some none | some (some .null) => some []
      | some (some (.arr items)) => some items
      | _ => none
  | .texts items =>
      items.mapM (fun text => (scope.text text).map (fun value => value.getD .null))
  | .setIntersection first second =>
      match first.eval scope, second.eval scope with
      | some members, some others =>
          some ((members.filter (fun member => others.any (same member))).pwFilter
            (fun first second => same first second = false))
      | _, _ => none

def BoolExpr.eval (scope : Scope) : BoolExpr → Option Bool
  | .isIn value array =>
      match value.eval scope, array.eval scope with
      | some value, some items => some (items.any (fun item => sameValue value (some item)))
      | _, _ => none
  | .eq first second =>
      match first.eval scope, second.eval scope with
      | some first, some second => some (sameValue first second)
      | _, _ => none
  | .setIsSubset first second =>
      match first.eval scope, second.eval scope with
      | some members, some others =>
          some (members.all (fun member => others.any (same member)))
      | _, _ => none
  | .anyElementTrue input name body =>
      match input.eval scope with
      | some items =>
          (items.mapM (fun item =>
            body.eval { scope with bound := (name, item) :: scope.bound })).map
              (fun results => results.any id)
      | none => none

section
variable (round : ℚ → ℚ)

def NumberExpr.eval (scope : Scope) : NumberExpr → Option ℚ
  | .constant value => some value
  | .size array => (array.eval scope).map (fun items => (items.length : ℚ))
  | .divide dividend divisor =>
      match dividend.eval scope, divisor.eval scope with
      | some first, some second => if second = 0 then none else some (round (first / second))
      | _, _ => none
  | .multiply first second =>
      match first.eval scope, second.eval scope with
      | some first, some second => some (round (first * second))
      | _, _ => none

/-- The result of the first case that is true. -/
def evalBranches (scope : Scope) (default : NumberExpr) : List (BoolExpr × ℚ) → Option ℚ
  | [] => default.eval round scope
  | (condition, result) :: rest =>
      match condition.eval scope with
      | none => none
      | some true => some result
      | some false => evalBranches scope default rest

def SwitchExpr.eval (scope : Scope) (switch : SwitchExpr) : Option ℚ :=
  evalBranches round scope switch.default switch.branches

end

/-! ## Expressions on arrays of texts -/

/-- A list on which every step succeeds is taken over. -/
theorem mapM_of_some {α β : Type} {next : α → Option β} {result : α → β} {items : List α}
    (each : ∀ item ∈ items, next item = some (result item)) :
    items.mapM next = some (items.map result) := by
  induction items with
  | nil => rfl
  | cons item rest inductionHypothesis =>
    have later := inductionHypothesis (fun other member => each other (List.mem_cons_of_mem _ member))
    rw [List.mapM_cons, each item List.mem_cons_self, later]
    rfl

/-- What can be read is data as it stands, the path after a dollar sign, or the variable
after two of them. -/
theorem readOperand_cases {text : Str} {operand : Operand} (read : readOperand text = some operand) :
    (operand = .literal text ∧ text.head? ≠ some dollar) ∨
    (∃ rest, text = dollar :: rest ∧ operand = .path (rest.splitOn dot)) ∨
    ∃ (rest name : Str) (names : List Str), text = dollar :: dollar :: rest ∧
      rest.splitOn dot = name :: names ∧ operand = .variable name names := by
  cases text with
  | nil =>
    obtain rfl := Option.some.inj read
    exact .inl ⟨rfl, (Option.some_ne_none dollar).symm⟩
  | cons first rest =>
    simp only [readOperand] at read
    by_cases starts : first = dollar
    · subst starts
      rw [if_pos rfl] at read
      by_cases twice : rest.head? = some dollar
      · obtain ⟨tail, rfl⟩ := List.head?_eq_some_iff.mp twice
        rw [if_pos twice, List.tail_cons] at read
        cases parts : tail.splitOn dot with
        | nil => simp [parts] at read
        | cons name names =>
          simp only [parts] at read
          obtain ⟨_, same⟩ := Option.ite_none_right_eq_some.mp read
          exact .inr (.inr ⟨tail, name, names, rfl, parts, (Option.some.inj same).symm⟩)
      · rw [if_neg twice] at read
        obtain ⟨_, same⟩ := Option.ite_none_right_eq_some.mp read
        exact .inr (.inl ⟨rest, rfl, (Option.some.inj same).symm⟩)
    · rw [if_neg starts] at read
      exact .inl ⟨(Option.some.inj read).symm, fun again => starts (Option.some.inj again)⟩

/-- A text that does not begin with a dollar sign is data. -/
theorem readOperand_data {text : Str} (data : text.head? ≠ some dollar) :
    readOperand text = some (.literal text) := by
  cases text with
  | nil => rfl
  | cons first rest =>
    have other : first ≠ dollar := by
      rintro rfl
      exact data rfl
    simp [readOperand, other]

/-- Its value is the text, in every scope. -/
theorem Scope.text_data (scope : Scope) {text : Str} (data : text.head? ≠ some dollar) :
    scope.text text = some (some (.str text)) := by
  rw [Scope.text, readOperand_data data]
  rfl

/-- Data needs no variable. -/
theorem validOperand_data (server : Server) (bound : List Str) {text : Str}
    (data : text.head? ≠ some dollar) : validOperand server bound text = true := by
  rw [validOperand, readOperand_data data]

/-- A list of data is an array of these texts. -/
theorem texts_eval (scope : Scope) {items : List Str}
    (data : ∀ text ∈ items, text.head? ≠ some dollar) :
    (ArrayExpr.texts items).eval scope = some (items.map Bson.str) := by
  refine mapM_of_some ?_
  intro text member
  rw [scope.text_data (data text member)]
  rfl

/-- A path to an array of texts or to nothing gives the texts that are there. -/
theorem orEmpty_eval {scope : Scope} {written : Str} {names : List Str} {texts : Option (List Str)}
    (read : readOperand written = some (.path names))
    (leads : fieldPath names scope.document = texts.map Bson.strings) :
    (ArrayExpr.orEmpty written).eval scope = some ((texts.getD []).map Bson.str) := by
  have value : scope.text written = some (texts.map Bson.strings) := by
    rw [Scope.text, read]
    exact congrArg some leads
  rw [ArrayExpr.eval, value]
  cases texts <;> rfl

/-- A text is among texts if it is one of them. -/
theorem any_same_str (texts : List Str) (text : Str) :
    (texts.map Bson.str).any (same (.str text)) = decide (text ∈ texts) := by
  rw [List.any_map, Bool.eq_iff_iff, List.any_eq_true, decide_eq_true_eq]
  constructor
  · rintro ⟨other, member, equal⟩
    obtain rfl : text = other := of_decide_eq_true equal
    exact member
  · intro member
    exact ⟨text, member, decide_eq_true rfl⟩

/-- `$in` of a value that may be missing. -/
theorem isIn_eval {scope : Scope} {value : ValueExpr} {array : ArrayExpr} {found : Option Bson}
    {texts : List Str} (evaluated : value.eval scope = some found)
    (members : array.eval scope = some (texts.map Bson.str)) :
    (BoolExpr.isIn value array).eval scope =
      some (texts.any (fun text => found.any (isText text))) := by
  simp only [BoolExpr.eval, evaluated, members, List.any_map, Function.comp_def, sameValue_str]

/-- `$setIsSubset` of texts. -/
theorem setIsSubset_eval {scope : Scope} {first second : ArrayExpr} {texts others : List Str}
    (one : first.eval scope = some (texts.map Bson.str))
    (two : second.eval scope = some (others.map Bson.str)) :
    (BoolExpr.setIsSubset first second).eval scope =
      some (texts.all (fun text => decide (text ∈ others))) := by
  simp only [BoolExpr.eval, one, two, List.all_map, Function.comp_def, any_same_str]

/-- `$anyElementTrue` of a `$map` over texts whose body has a value on each of them. -/
theorem anyElementTrue_eval {scope : Scope} {input : ArrayExpr} {name : Str} {body : BoolExpr}
    {texts : List Str} {result : Str → Bool}
    (members : input.eval scope = some (texts.map Bson.str))
    (each : ∀ text ∈ texts,
      body.eval { scope with bound := (name, .str text) :: scope.bound } = some (result text)) :
    (BoolExpr.anyElementTrue input name body).eval scope = some (texts.any result) := by
  have evaluated : (texts.map Bson.str).mapM (fun item =>
      body.eval { scope with bound := (name, item) :: scope.bound }) =
      some (texts.map result) := by
    rw [List.mapM_map]
    exact mapM_of_some each
  rw [BoolExpr.eval, members]
  change Option.map (fun results : List Bool => results.any id) (List.mapM _ _) = _
  rw [evaluated, Option.map_some, List.any_map]
  rfl

/-- A case that has a value is taken if it is true. -/
theorem evalBranches_cons {round : ℚ → ℚ} {scope : Scope} {condition : BoolExpr} {holds : Bool}
    (evaluated : condition.eval scope = some holds) (default : NumberExpr) (result : ℚ)
    (rest : List (BoolExpr × ℚ)) :
    evalBranches round scope default ((condition, result) :: rest) =
      if holds then some result else evalBranches round scope default rest := by
  rw [evalBranches, evaluated]
  cases holds <;> rfl

/-- `$size` of a `$setIntersection` of texts counts the distinct ones that are in both. -/
theorem size_eval {round : ℚ → ℚ} {scope : Scope} {first second : ArrayExpr}
    {texts others : List Str} (one : first.eval scope = some (texts.map Bson.str))
    (two : second.eval scope = some (others.map Bson.str)) :
    (NumberExpr.size (.setIntersection first second)).eval round scope =
      some ((texts.filter (fun text => decide (text ∈ others))).dedup.length : ℚ) := by
  have kept : (texts.map Bson.str).filter (fun member => (others.map Bson.str).any (same member)) =
      (texts.filter (fun text => decide (text ∈ others))).map Bson.str := by
    rw [List.filter_map]
    simp only [Function.comp_def, any_same_str]
  have distinct : ∀ texts : List Str, (texts.map Bson.str).pwFilter
      (fun first second => same first second = false) = texts.dedup.map Bson.str := by
    intro texts
    rw [List.pwFilter_map, List.dedup]
    congr 2
    funext first second
    simp [same]
  simp only [NumberExpr.eval, ArrayExpr.eval, one, two, kept, distinct, Option.map_some,
    List.length_map]

end Library.Aggregation
