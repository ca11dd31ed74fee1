import WebhookInbox.Ingest.Storable

/-!
# Keys in the database and back

The keys of a body are escaped before it is stored, and unescaped when it is read. A key
that holds a lookalike itself does not come back as it was.

`unescape_stored` says that all others do: a value whose keys hold no lookalike of the full
stop and do not start with one of the dollar sign is what its stored form is read as.
`escape_lossless` adds that its escaped keys are legal and that no entry is lost.
-/

namespace WebhookInbox.Parser

open Library

/-- Replace every lookalike of the full stop, and one of the dollar sign at the start. -/
def unescapeKey (key : Str) : Str :=
  match Text.replaceChar dot 0x2E key with
  | [] => []
  | first :: rest => if first = dollar then 0x24 :: rest else first :: rest

mutual

/-- `unescape_keys(value)` on a value that was read from the database. -/
def unescapeKeys : Bson → Bson
  | .doc fields => .doc (Dict.ofPairs (unescapeFields fields))
  | .arr items => .arr (unescapeItems items)
  | .null => .null
  | .bool value => .bool value
  | .int value => .int value
  | .double value => .double value
  | .str value => .str value
  | .date value => .date value
  | .objectId value => .objectId value

def unescapeItems : List Bson → List Bson
  | [] => []
  | item :: rest => unescapeKeys item :: unescapeItems rest

def unescapeFields : List (Str × Bson) → List (Str × Bson)
  | [] => []
  | (key, value) :: rest => (unescapeKey key, unescapeKeys value) :: unescapeFields rest

end

/-- The key holds no lookalike of the full stop and starts with none of the dollar sign. -/
def unmarked (key : Str) : Bool := decide (dot ∉ key) && decide (key.head? ≠ some dollar)

/-- So do all keys of the value, at every depth. -/
def Unmarked (value : Json) : Prop :=
  Json.everywhere (fun _ => true) (fun keys => keys.all unmarked) value = true

instance unmarkedDecidable (value : Json) : Decidable (Unmarked value) :=
  inferInstanceAs (Decidable (_ = true))

/-! ## Keys -/

/-- Replacing a character that is not there and back changes nothing. -/
theorem replaceChar_back {old new : CodePoint} {text : Str} (absent : new ∉ text) :
    Text.replaceChar new old (Text.replaceChar old new text) = text := by
  rw [Text.replaceChar, Text.replaceChar, List.map_map]
  conv_rhs => rw [← List.map_id text]
  apply List.map_congr_left
  intro point member
  have different : point ≠ new := fun same => absent (same ▸ member)
  by_cases isOld : point = old
  · simp [isOld]
  · simp [isOld, different]

/-- A key without lookalikes comes back. -/
theorem unescapeKey_escapeKey {key : Str} (plain : unmarked key = true) :
    unescapeKey (escapeKey key) = key := by
  simp only [unmarked, Bool.and_eq_true, decide_eq_true_eq] at plain
  obtain ⟨noDot, noDollar⟩ := plain
  have back : Text.replaceChar dot 0x2E (Text.replaceChar 0x2E dot key) = key :=
    replaceChar_back noDot
  unfold escapeKey
  cases replaced : Text.replaceChar 0x2E dot key with
  | nil =>
    rw [replaced] at back
    exact back
  | cons head tail =>
    rw [replaced] at back
    by_cases isDollar : head = 0x24
    · subst isDollar
      have kept : Text.replaceChar dot 0x2E (0x24 :: tail) =
          0x24 :: Text.replaceChar dot 0x2E tail := rfl
      have marked : Text.replaceChar dot 0x2E (dollar :: tail) =
          dollar :: Text.replaceChar dot 0x2E tail := rfl
      simp only [↓reduceIte, unescapeKey, marked]
      rw [← back, kept]
    · simp only [isDollar, ↓reduceIte, unescapeKey, back]
      cases key with
      | nil => rfl
      | cons first rest =>
        have different : first ≠ dollar := by
          rintro rfl
          exact noDollar rfl
        simp only [different, ↓reduceIte]

/-- Unescaping the fields unescapes each key and each value. -/
theorem unescapeFields_eq_map (fields : List (Str × Bson)) :
    unescapeFields fields = fields.map (fun field => (unescapeKey field.1, unescapeKeys field.2)) := by
  induction fields with
  | nil => rfl
  | cons field rest inductionHypothesis => simp [unescapeFields, inductionHypothesis]

/-- Unescaping the items unescapes each item. -/
theorem unescapeItems_eq_map (items : List Bson) : unescapeItems items = items.map unescapeKeys := by
  induction items with
  | nil => rfl
  | cons item rest inductionHypothesis => simp [unescapeItems, inductionHypothesis]

/-- Escaping gives no two different keys without lookalikes one name. -/
theorem nodup_escapeKey {keys : List Str} (distinct : keys.Nodup)
    (plain : keys.all unmarked = true) : (keys.map escapeKey).Nodup := by
  refine List.Nodup.map_on ?_ distinct
  intro first firstMember second secondMember same
  have firstBack := unescapeKey_escapeKey (List.all_eq_true.mp plain first firstMember)
  have secondBack := unescapeKey_escapeKey (List.all_eq_true.mp plain second secondMember)
  rw [← firstBack, ← secondBack, same]

/-- The escaped members of an object have different keys. -/
theorem escapeMembers_nodup {members : List (Str × Json)}
    (distinct : (members.map Prod.fst).Nodup)
    (plain : (members.map Prod.fst).all unmarked = true) :
    ((escapeMembers members).map Prod.fst).Nodup := by
  have escaped := nodup_escapeKey distinct plain
  rw [List.map_map] at escaped
  rw [Receiver.escapeMembers_eq_map, List.map_map]
  exact escaped

/-! ## Values -/

/-- A value without lookalikes in its keys is what its stored form is read as. -/
theorem unescape_stored {value : Json} (distinct : value.distinct = true)
    (plain : Unmarked value) :
    unescapeKeys (Receiver.ofJson (escapeKeys value)) = Receiver.ofJson value := by
  induction value using Json.inductionOn with
  | null => rfl
  | bool value => rfl
  | int value => rfl
  | float value => rfl
  | str value => rfl
  | arr items inductionHypothesis =>
    rw [Json.distinct, Json.everywhere_arr] at distinct
    rw [Unmarked, Json.everywhere_arr] at plain
    simp only [escapeKeys, Receiver.escapeItems_eq_map, Receiver.ofJson, Receiver.ofItems_eq_map,
      unescapeKeys, unescapeItems_eq_map, List.map_map, Bson.arr.injEq]
    apply List.map_congr_left
    intro item stored
    exact inductionHypothesis item stored (distinct item stored) (plain item stored)
  | obj members inductionHypothesis =>
    rw [Json.distinct, Json.everywhere_obj, decide_eq_true_eq] at distinct
    rw [Unmarked, Json.everywhere_obj] at plain
    have apart := escapeMembers_nodup distinct.1 plain.1
    have read : unescapeFields (Receiver.ofMembers (escapeMembers members)) =
        Receiver.ofMembers members := by
      simp only [Receiver.escapeMembers_eq_map, Receiver.ofMembers_eq_map, unescapeFields_eq_map,
        List.map_map]
      apply List.map_congr_left
      intro member stored
      have key := unescapeKey_escapeKey
        (List.all_eq_true.mp plain.1 member.1 (List.mem_map_of_mem stored))
      have held := inductionHypothesis member stored (distinct.2 member stored)
        (plain.2 member stored)
      simp only [Function.comp_apply, key, held]
    have keys : ((Receiver.ofMembers members).map Prod.fst).Nodup := by
      rw [Receiver.ofMembers_eq_map, List.map_map]
      exact distinct.1
    rw [escapeKeys, Dict.ofPairs_of_nodup apart, Receiver.ofJson, unescapeKeys, read,
      Dict.ofPairs_of_nodup keys, Receiver.ofJson]

/-! ## Stored bodies -/

/-- An escaped value has no key twice. -/
theorem escapeKeys_distinct (value : Json) : (escapeKeys value).distinct = true := by
  induction value using Json.inductionOn with
  | null => rfl
  | bool value => rfl
  | int value => rfl
  | float value => rfl
  | str value => rfl
  | arr items inductionHypothesis =>
    rw [escapeKeys, Receiver.escapeItems_eq_map, Json.distinct, Json.everywhere_arr,
      List.forall_mem_map]
    exact inductionHypothesis
  | obj members inductionHypothesis =>
    rw [escapeKeys, Json.distinct, Json.everywhere_obj]
    refine ⟨decide_eq_true (Dict.nodup_keys_ofPairs _), fun member inDict => ?_⟩
    have inMembers := Dict.mem_ofPairs inDict
    rw [Receiver.escapeMembers_eq_map] at inMembers
    obtain ⟨source, stored, rfl⟩ := List.mem_map.mp inMembers
    exact inductionHypothesis source stored

/-- A plain key is what its unescaped form is escaped to. -/
theorem escapeKey_unescapeKey {key : Str} (plain : Receiver.plain key = true) :
    escapeKey (unescapeKey key) = key := by
  simp only [Receiver.plain, Bool.and_eq_true, List.all_eq_true, decide_eq_true_eq] at plain
  obtain ⟨points, noDollar⟩ := plain
  have back : Text.replaceChar 0x2E dot (Text.replaceChar dot 0x2E key) = key :=
    replaceChar_back (fun member => (points 0x2E member).2 rfl)
  unfold unescapeKey
  cases replaced : Text.replaceChar dot 0x2E key with
  | nil =>
    rw [replaced] at back
    exact back
  | cons head tail =>
    rw [replaced] at back
    by_cases isDollar : head = dollar
    · subst isDollar
      have kept : Text.replaceChar 0x2E dot (dollar :: tail) =
          dollar :: Text.replaceChar 0x2E dot tail := rfl
      have marked : Text.replaceChar 0x2E dot (0x24 :: tail) =
          0x24 :: Text.replaceChar 0x2E dot tail := rfl
      simp only [↓reduceIte, escapeKey, marked]
      rw [← back, kept]
    · simp only [isDollar, ↓reduceIte, escapeKey, back]
      cases key with
      | nil => rfl
      | cons first rest =>
        have different : first ≠ 0x24 := by
          rintro rfl
          exact noDollar rfl
        simp only [different, ↓reduceIte]

/-- Unescaping gives no two plain keys one name. -/
theorem nodup_unescapeKey {keys : List Str} (distinct : keys.Nodup)
    (plain : ∀ key ∈ keys, Receiver.plain key = true) : (keys.map unescapeKey).Nodup := by
  refine List.Nodup.map_on ?_ distinct
  intro first firstMember second secondMember same
  rw [← escapeKey_unescapeKey (plain first firstMember),
    ← escapeKey_unescapeKey (plain second secondMember), same]

/-- An unescaped key has no lone surrogate if the key has none. -/
theorem unescapeKey_scalar {key : Str} (scalar : Text.Scalar key) :
    Text.Scalar (unescapeKey key) := by
  have replaced : Text.Scalar (Text.replaceChar dot 0x2E key) := by
    intro point member
    obtain ⟨source, stored, rfl⟩ := List.mem_map.mp member
    split
    · decide
    · exact scalar source stored
  unfold unescapeKey
  split
  · exact List.forall_mem_nil _
  · rename_i first rest same
    rw [same] at replaced
    obtain ⟨head, tail⟩ := List.forall_mem_cons.mp replaced
    split
    · exact List.forall_mem_cons.mpr ⟨by decide, tail⟩
    · exact List.forall_mem_cons.mpr ⟨head, tail⟩

mutual

/-- A value with unescaped keys. -/
def unescaped : Json → Json
  | .obj members => .obj (unescapedMembers members)
  | .arr items => .arr (unescapedItems items)
  | .null => .null
  | .bool value => .bool value
  | .int value => .int value
  | .float value => .float value
  | .str value => .str value

def unescapedItems : List Json → List Json
  | [] => []
  | item :: rest => unescaped item :: unescapedItems rest

def unescapedMembers : List (Str × Json) → List (Str × Json)
  | [] => []
  | (key, value) :: rest => (unescapeKey key, unescaped value) :: unescapedMembers rest

end

/-- Unescaping an array unescapes its items. -/
theorem unescapedItems_eq_map (items : List Json) : unescapedItems items = items.map unescaped := by
  induction items with
  | nil => rfl
  | cons item rest inductionHypothesis => simp [unescapedItems, inductionHypothesis]

/-- Unescaping an object unescapes its keys and its values. -/
theorem unescapedMembers_eq_map (members : List (Str × Json)) :
    unescapedMembers members = members.map (fun member =>
      (unescapeKey member.1, unescaped member.2)) := by
  induction members with
  | nil => rfl
  | cons member rest inductionHypothesis => simp [unescapedMembers, inductionHypothesis]

/-- A stored value with plain keys is read with its keys unescaped, and no two of them become
one. -/
theorem unescapeKeys_ofJson {value : Json} (distinct : value.distinct = true)
    (plain : Receiver.plainNames (Receiver.ofJson value) = true) :
    unescapeKeys (Receiver.ofJson value) = Receiver.ofJson (unescaped value) ∧
      (unescaped value).distinct = true := by
  induction value using Json.inductionOn with
  | null => exact ⟨rfl, rfl⟩
  | bool value => exact ⟨rfl, rfl⟩
  | int value => exact ⟨rfl, rfl⟩
  | float value => exact ⟨rfl, rfl⟩
  | str value => exact ⟨rfl, rfl⟩
  | arr items inductionHypothesis =>
    rw [Json.distinct, Json.everywhere_arr] at distinct
    simp only [Receiver.ofJson, Receiver.plainNames, Receiver.plainItems_iff,
      Receiver.ofItems_eq_map, List.forall_mem_map] at plain
    have each := fun item stored => inductionHypothesis item stored (distinct item stored)
      (plain item stored)
    constructor
    · simp only [Receiver.ofJson, Receiver.ofItems_eq_map, unescapeKeys, unescapeItems_eq_map,
        unescaped, unescapedItems_eq_map, List.map_map, Bson.arr.injEq]
      exact List.map_congr_left (fun item stored => (each item stored).1)
    · rw [unescaped, unescapedItems_eq_map, Json.distinct, Json.everywhere_arr,
        List.forall_mem_map]
      exact fun item stored => (each item stored).2
  | obj members inductionHypothesis =>
    rw [Json.distinct, Json.everywhere_obj, decide_eq_true_eq] at distinct
    simp only [Receiver.ofJson, Receiver.plainNames, Receiver.plainFields_iff,
      Receiver.ofMembers_eq_map, List.forall_mem_map] at plain
    have each := fun member stored => inductionHypothesis member stored (distinct.2 member stored)
      (plain member stored).2
    have apart : ((members.map (fun member => (unescapeKey member.1,
        unescaped member.2))).map Prod.fst).Nodup := by
      have keys := nodup_unescapeKey distinct.1
        (List.forall_mem_map.mpr (fun member stored => (plain member stored).1))
      rw [List.map_map] at keys ⊢
      exact keys
    constructor
    · have read : unescapeFields (Receiver.ofMembers members) =
          Receiver.ofMembers (unescapedMembers members) := by
        simp only [Receiver.ofMembers_eq_map, unescapeFields_eq_map, unescapedMembers_eq_map,
          List.map_map]
        apply List.map_congr_left
        intro member stored
        simp only [Function.comp_apply, (each member stored).1]
      have names : ((Receiver.ofMembers (unescapedMembers members)).map Prod.fst).Nodup := by
        rw [Receiver.ofMembers_eq_map, unescapedMembers_eq_map, List.map_map]
        rw [List.map_map] at apart
        rw [List.map_map]
        exact apart
      rw [Receiver.ofJson, unescapeKeys, read, Dict.ofPairs_of_nodup names, unescaped,
        Receiver.ofJson]
    · rw [unescaped, unescapedMembers_eq_map, Json.distinct, Json.everywhere_obj,
        decide_eq_true_eq, List.forall_mem_map]
      exact ⟨apart, fun member stored => (each member stored).2⟩

/-! ## Nothing is lost -/

/-- The key has no full stop and does not start with a dollar sign. -/
def legalKey (key : Str) : Bool := decide (0x2E ∉ key) && decide (key.head? ≠ some 0x24)

mutual

/-- How many entries each object of a value has, from the outside in. -/
def entries : Json → List Nat
  | .obj members => members.length :: entriesOfMembers members
  | .arr items => entriesOfItems items
  | .null => []
  | .bool _ => []
  | .int _ => []
  | .float _ => []
  | .str _ => []

def entriesOfItems : List Json → List Nat
  | [] => []
  | item :: rest => entries item ++ entriesOfItems rest

def entriesOfMembers : List (Str × Json) → List Nat
  | [] => []
  | (_, value) :: rest => entries value ++ entriesOfMembers rest

end

/-- The value is escaped without loss: its keys become legal at every depth, no object loses an
entry, and unescaping gives it back with its keys in their order. -/
structure Lossless (value : Json) : Prop where
  legal : Json.everywhere (fun _ => true) (fun keys => keys.all legalKey) (escapeKeys value) = true
  entries : entries (escapeKeys value) = entries value
  back : unescapeKeys (Receiver.ofJson (escapeKeys value)) = Receiver.ofJson value

/-- An escaped key is legal. -/
theorem escapeKey_legal (key : Str) : legalKey (escapeKey key) = true := by
  have replaced : 0x2E ∉ Text.replaceChar 0x2E dot key := by
    intro member
    obtain ⟨point, _, same⟩ := List.mem_map.mp member
    split at same
    · revert same
      decide
    · rename_i other
      exact other same
  simp only [legalKey, Bool.and_eq_true, decide_eq_true_eq]
  unfold escapeKey
  cases whole : Text.replaceChar 0x2E dot key with
  | nil => exact ⟨List.not_mem_nil, by simp⟩
  | cons first rest =>
    rw [whole, List.mem_cons, not_or] at replaced
    by_cases isDollar : first = 0x24
    · simp only [isDollar, ↓reduceIte, List.mem_cons, not_or]
      have different : dollar ≠ 0x24 := by decide
      exact ⟨⟨by decide, replaced.2⟩, fun starts => different (Option.some.inj starts)⟩
    · simp only [isDollar, ↓reduceIte, List.mem_cons, not_or]
      exact ⟨replaced, fun starts => isDollar (Option.some.inj starts)⟩

/-- So is each key of an escaped value. -/
theorem escapeKeys_legal (value : Json) :
    Json.everywhere (fun _ => true) (fun keys => keys.all legalKey) (escapeKeys value) = true := by
  induction value using Json.inductionOn with
  | null => rfl
  | bool value => rfl
  | int value => rfl
  | float value => rfl
  | str value => rfl
  | arr items inductionHypothesis =>
    rw [escapeKeys, Receiver.escapeItems_eq_map, Json.everywhere_arr, List.forall_mem_map]
    exact inductionHypothesis
  | obj members inductionHypothesis =>
    have each : ∀ member ∈ Dict.ofPairs (escapeMembers members), ∃ source ∈ members,
        (escapeKey source.1, escapeKeys source.2) = member := by
      intro member inDict
      have inMembers := Dict.mem_ofPairs inDict
      rw [Receiver.escapeMembers_eq_map] at inMembers
      exact List.mem_map.mp inMembers
    rw [escapeKeys, Json.everywhere_obj, List.all_eq_true, List.forall_mem_map]
    constructor
    · intro member inDict
      obtain ⟨source, _, rfl⟩ := each member inDict
      exact escapeKey_legal source.1
    · intro member inDict
      obtain ⟨source, stored, rfl⟩ := each member inDict
      exact inductionHypothesis source stored

/-- Unescaping keys, and keeping what becomes equal, leaves the numbers of entries. -/
theorem entries_unescaped (value : Json) : entries (unescaped value) = entries value := by
  induction value using Json.inductionOn with
  | null => rfl
  | bool value => rfl
  | int value => rfl
  | float value => rfl
  | str value => rfl
  | arr items inductionHypothesis =>
    rw [unescaped, entries, entries]
    induction items with
    | nil => rfl
    | cons item rest restHypothesis =>
      rw [unescapedItems, entriesOfItems, entriesOfItems,
        inductionHypothesis item List.mem_cons_self,
        restHypothesis (fun other member => inductionHypothesis other
          (List.mem_cons_of_mem _ member))]
  | obj members inductionHypothesis =>
    have length : (unescapedMembers members).length = members.length := by
      rw [unescapedMembers_eq_map, List.length_map]
    rw [unescaped, entries, entries, length]
    congr 1
    clear length
    induction members with
    | nil => rfl
    | cons member rest restHypothesis =>
      obtain ⟨key, value⟩ := member
      rw [unescapedMembers, entriesOfMembers, entriesOfMembers,
        inductionHypothesis (key, value) List.mem_cons_self,
        restHypothesis (fun other inside => inductionHypothesis other
          (List.mem_cons_of_mem _ inside))]

/-- Escaped keys without lookalikes do not become equal, and come back. -/
theorem unescaped_escapeKeys {value : Json} (distinct : value.distinct = true)
    (plain : Unmarked value) : unescaped (escapeKeys value) = value := by
  induction value using Json.inductionOn with
  | null => rfl
  | bool value => rfl
  | int value => rfl
  | float value => rfl
  | str value => rfl
  | arr items inductionHypothesis =>
    rw [Json.distinct, Json.everywhere_arr] at distinct
    rw [Unmarked, Json.everywhere_arr] at plain
    have each : items.map (unescaped ∘ escapeKeys) = items.map id :=
      List.map_congr_left (fun item stored =>
        inductionHypothesis item stored (distinct item stored) (plain item stored))
    rw [escapeKeys, unescaped, unescapedItems_eq_map, Receiver.escapeItems_eq_map, List.map_map,
      each, List.map_id]
  | obj members inductionHypothesis =>
    rw [Json.distinct, Json.everywhere_obj, decide_eq_true_eq] at distinct
    rw [Unmarked, Json.everywhere_obj] at plain
    have apart := escapeMembers_nodup distinct.1 plain.1
    have each : members.map (fun member =>
        (unescapeKey (escapeKey member.1), unescaped (escapeKeys member.2))) = members.map id := by
      apply List.map_congr_left
      intro member stored
      have key := unescapeKey_escapeKey
        (List.all_eq_true.mp plain.1 member.1 (List.mem_map_of_mem stored))
      have held := inductionHypothesis member stored (distinct.2 member stored)
        (plain.2 member stored)
      rw [key, held]
      rfl
    rw [escapeKeys, Dict.ofPairs_of_nodup apart, unescaped, unescapedMembers_eq_map,
      Receiver.escapeMembers_eq_map, List.map_map]
    exact congrArg Json.obj (each.trans (List.map_id members))

/-- A value whose keys hold no lookalike of the full stop, and do not start with one of the
dollar sign, is escaped without loss. -/
theorem escape_lossless {value : Json} (distinct : value.distinct = true)
    (plain : Unmarked value) : Lossless value where
  legal := escapeKeys_legal value
  entries := by
    rw [← entries_unescaped (escapeKeys value), unescaped_escapeKeys distinct plain]
  back := unescape_stored distinct plain

/-- A value with keys of full stops and dollar signs, one below the other. -/
def dottedValue : Json :=
  .obj [(lit "$.", .arr [.obj [(lit ".", .null), (lit "$", .int 1)]]), (lit "a.b", .bool true)]

/-- It is escaped without loss. -/
theorem escape_lossless_dotted : Lossless dottedValue :=
  escape_lossless (by decide +kernel) (by decide +kernel)

end WebhookInbox.Parser
