import Mathlib.Data.List.Nodup

/-!
# Insertion-ordered dictionaries

A Python `dict` iterates in insertion order, and assigning to a key that is
present replaces the value in place. The representation is the list of its
items; every dictionary built here starts empty and grows by assignment.
-/

namespace Library

universe u v

/-- The items of a dictionary in iteration order. -/
abbrev Dict (κ : Type u) (α : Type v) := List (κ × α)

namespace Dict

variable {κ : Type u} {α : Type v} [DecidableEq κ]

/-- `items.get(key)` -/
def get (items : Dict κ α) (key : κ) : Option α :=
  (items.find? (fun item => decide (item.1 = key))).map Prod.snd

/-- `items[key] = value` -/
def set : Dict κ α → κ → α → Dict κ α
  | [], key, value => [(key, value)]
  | item :: rest, key, value =>
      if item.1 = key then (key, value) :: rest else item :: set rest key value

/-- `items | later` -/
def union (items later : Dict κ α) : Dict κ α :=
  later.foldl (fun current item => set current item.1 item.2) items

/-- The dictionary that assigning the pairs in order builds. -/
def ofPairs (pairs : List (κ × α)) : Dict κ α := union [] pairs

/-- The items before shadow those after them. -/
theorem get_append (first second : Dict κ α) (key : κ) :
    get (first ++ second) key = (get first key).or (get second key) := by
  rw [get, get, get, List.find?_append]
  cases List.find? (fun item => decide (item.1 = key)) first <;> rfl

/-- A key that is not there has no value. -/
theorem get_of_absent {items : Dict κ α} {key : κ} (absent : ∀ item ∈ items, item.1 ≠ key) :
    get items key = none := by
  have missing : List.find? (fun item => decide (item.1 = key)) items = none := by
    refine List.find?_eq_none.mpr ?_
    intro item member
    simpa using absent item member
  rw [get, missing, Option.map_none]

/-- Assignment stores the given item and keeps only items that were there. -/
theorem mem_set {items : Dict κ α} {key : κ} {value : α} {item : κ × α}
    (member : item ∈ set items key value) : item = (key, value) ∨ item ∈ items := by
  induction items with
  | nil => exact .inl (List.mem_singleton.mp member)
  | cons first rest inductionHypothesis =>
    by_cases same : first.1 = key
    · simp only [set, same, ↓reduceIte, List.mem_cons] at member
      rcases member with rfl | old
      · exact .inl rfl
      · exact .inr (List.mem_cons_of_mem _ old)
    · simp only [set, same, ↓reduceIte, List.mem_cons] at member
      rcases member with rfl | later
      · exact .inr List.mem_cons_self
      · rcases inductionHypothesis later with rfl | old
        · exact .inl rfl
        · exact .inr (List.mem_cons_of_mem _ old)

/-- A union invents no items. -/
theorem mem_union {items later : Dict κ α} {item : κ × α} (member : item ∈ union items later) :
    item ∈ items ∨ item ∈ later := by
  induction later generalizing items with
  | nil => exact .inl member
  | cons first rest inductionHypothesis =>
    rcases inductionHypothesis member with assigned | old
    · rcases mem_set assigned with rfl | old
      · exact .inr List.mem_cons_self
      · exact .inl old
    · exact .inr (List.mem_cons_of_mem _ old)

/-- A dictionary built from pairs holds only those pairs. -/
theorem mem_ofPairs {pairs : List (κ × α)} {item : κ × α} (member : item ∈ ofPairs pairs) :
    item ∈ pairs := by
  rcases mem_union member with impossible | present
  · cases impossible
  · exact present

/-- Assignment adds its key to the keys. -/
theorem mem_keys_set (items : Dict κ α) (key : κ) (value : α) (wanted : κ) :
    wanted ∈ (set items key value).map Prod.fst ↔ wanted = key ∨ wanted ∈ items.map Prod.fst := by
  induction items with
  | nil => simp [set]
  | cons first rest inductionHypothesis =>
    by_cases same : first.1 = key
    · simp [set, same]
    · simp only [set, same, ↓reduceIte, List.map_cons, List.mem_cons, inductionHypothesis]
      exact or_left_comm

/-- The keys of a union are those of its parts. -/
theorem mem_keys_union (items later : Dict κ α) (wanted : κ) :
    wanted ∈ (union items later).map Prod.fst ↔
      wanted ∈ items.map Prod.fst ∨ wanted ∈ later.map Prod.fst := by
  induction later generalizing items with
  | nil => simp [union]
  | cons first rest inductionHypothesis =>
    have split := inductionHypothesis (set items first.1 first.2)
    simp only [mem_keys_set] at split
    simp only [List.map_cons, List.mem_cons]
    change wanted ∈ (union (set items first.1 first.2) rest).map Prod.fst ↔ _
    rw [split]
    exact or_assoc.trans or_left_comm

/-- The keys of a dictionary built from pairs are those of the pairs. -/
theorem mem_keys_ofPairs (pairs : List (κ × α)) (wanted : κ) :
    wanted ∈ (ofPairs pairs).map Prod.fst ↔ wanted ∈ pairs.map Prod.fst := by
  simp [ofPairs, mem_keys_union]

/-- A pair is kept if no other has its key. -/
theorem mem_ofPairs_of_unique {pairs : List (κ × α)} {item : κ × α} (member : item ∈ pairs)
    (unique : ∀ other ∈ pairs, other.1 = item.1 → other = item) : item ∈ ofPairs pairs := by
  have named := (mem_keys_ofPairs pairs item.1).mpr (List.mem_map_of_mem member)
  obtain ⟨other, kept, sameKey⟩ := List.mem_map.mp named
  exact unique other (mem_ofPairs kept) sameKey ▸ kept

/-- Assignment to a new key appends. -/
theorem set_of_not_mem {items : Dict κ α} {key : κ} (value : α)
    (fresh : key ∉ items.map Prod.fst) : set items key value = items ++ [(key, value)] := by
  induction items with
  | nil => rfl
  | cons first rest inductionHypothesis =>
    have different : first.1 ≠ key := by
      rintro rfl
      exact fresh List.mem_cons_self
    rw [set, if_neg different, inductionHypothesis (fun later => fresh (List.mem_cons_of_mem _ later)),
      List.cons_append]

/-- A union with new and different keys appends. -/
theorem union_of_nodup {items later : Dict κ α}
    (distinct : ((items ++ later).map Prod.fst).Nodup) : union items later = items ++ later := by
  induction later generalizing items with
  | nil => simp [union]
  | cons first rest inductionHypothesis =>
    have fresh : first.1 ∉ items.map Prod.fst := by
      rw [List.map_append, List.nodup_append] at distinct
      intro member
      exact distinct.2.2 _ member _ List.mem_cons_self rfl
    change union (set items first.1 first.2) rest = _
    rw [set_of_not_mem _ fresh, inductionHypothesis (by simpa using distinct)]
    simp

/-- Assignment keeps the keys different. -/
theorem nodup_keys_set {items : Dict κ α} (distinct : (items.map Prod.fst).Nodup) (key : κ)
    (value : α) : ((set items key value).map Prod.fst).Nodup := by
  by_cases present : key ∈ items.map Prod.fst
  · have same : (set items key value).map Prod.fst = items.map Prod.fst := by
      clear distinct
      induction items with
      | nil => cases present
      | cons first rest inductionHypothesis =>
        by_cases here : first.1 = key
        · simp [set, here]
        · have later : key ∈ rest.map Prod.fst := by
            simpa [Ne.symm here] using present
          simp [set, here, inductionHypothesis later]
    rw [same]
    exact distinct
  · rw [set_of_not_mem value present, List.map_append]
    exact List.nodup_append.mpr ⟨distinct, List.nodup_singleton _, by
      intro first member second last
      rw [List.mem_singleton.mp last]
      rintro rfl
      exact present member⟩

/-- The keys of a union are different if those of its first part are. -/
theorem nodup_keys_union {items later : Dict κ α} (distinct : (items.map Prod.fst).Nodup) :
    ((union items later).map Prod.fst).Nodup := by
  induction later generalizing items with
  | nil => exact distinct
  | cons first rest inductionHypothesis =>
    exact inductionHypothesis (nodup_keys_set distinct first.1 first.2)

/-- The keys of a dictionary built from pairs are different. -/
theorem nodup_keys_ofPairs (pairs : List (κ × α)) : ((ofPairs pairs).map Prod.fst).Nodup :=
  nodup_keys_union List.nodup_nil

/-- Pairs with different keys are the items of the dictionary they build. -/
theorem ofPairs_of_nodup {pairs : List (κ × α)} (distinct : (pairs.map Prod.fst).Nodup) :
    ofPairs pairs = pairs := by
  rw [ofPairs, union_of_nodup (by simpa using distinct), List.nil_append]

/-- A value that is read back is stored under the key it was read from. -/
theorem get_mem {items : Dict κ α} {key : κ} {value : α} (found : items.get key = some value) :
    (key, value) ∈ items := by
  obtain ⟨item, located, rfl⟩ := Option.map_eq_some_iff.mp found
  have same : item.1 = key := by simpa using List.find?_some located
  exact same ▸ List.mem_of_find?_eq_some located

/-- After an assignment its key has the value, and every other key what it had. -/
theorem get_set (items : Dict κ α) (key : κ) (value : α) (wanted : κ) :
    (items.set key value).get wanted = if wanted = key then some value else items.get wanted := by
  induction items with
  | nil =>
    by_cases same : wanted = key
    · simp [set, get, same]
    · simp [set, get, same, Ne.symm same]
  | cons first rest inductionHypothesis =>
    by_cases here : first.1 = key
    · by_cases same : wanted = key
      · simp [set, get, here, same]
      · simp [set, get, here, same, Ne.symm same]
    · rw [set, if_neg here]
      by_cases found : first.1 = wanted
      · have other : wanted ≠ key := fun same => here (found.trans same)
        simp [get, found, other]
      · simp only [get, List.find?_cons, found, decide_false] at inductionHypothesis ⊢
        exact inductionHypothesis

/-- Assigning the value that is there changes nothing. -/
theorem set_get {items : Dict κ α} {key : κ} {value : α} (found : items.get key = some value) :
    items.set key value = items := by
  induction items with
  | nil => cases found
  | cons first rest inductionHypothesis =>
    obtain ⟨firstKey, firstValue⟩ := first
    by_cases here : firstKey = key
    · subst here
      simp only [get, List.find?_cons, decide_true, Option.map_some, Option.some.injEq] at found
      simp only [set, ↓reduceIte, found]
    · have later : get rest key = some value := by
        simpa [get, here] using found
      simp only [set, here, ↓reduceIte, inductionHypothesis later]

/-- Of different keys, one that is left by a filter has the value it had. -/
theorem get_filter {items : Dict κ α} (distinct : (items.map Prod.fst).Nodup)
    (keeps : κ × α → Bool) (wanted : κ) :
    get (items.filter keeps) wanted = (items.get wanted).filter (fun value => keeps (wanted, value)) := by
  induction items with
  | nil => rfl
  | cons first rest inductionHypothesis =>
    obtain ⟨key, value⟩ := first
    obtain ⟨fresh, distinctRest⟩ := List.nodup_cons.mp distinct
    have later := inductionHypothesis distinctRest
    by_cases found : key = wanted
    · subst found
      have absent : get (rest.filter keeps) key = none := by
        apply get_of_absent
        rintro item member rfl
        exact fresh (List.mem_map.mpr ⟨item, List.mem_of_mem_filter member, rfl⟩)
      by_cases kept : keeps (key, value) = true
      · simp [get, kept, Option.filter_some]
      · rw [List.filter_cons_of_neg kept, absent]
        simp [get, kept, Option.filter_some]
    · have skipped : get ((key, value) :: rest) wanted = get rest wanted := by
        simp [get, found]
      rw [skipped, ← later]
      by_cases kept : keeps (key, value) = true
      · rw [List.filter_cons_of_pos kept]
        simp [get, found]
      · rw [List.filter_cons_of_neg kept]

/-! ## Removal -/

/-- The items under other keys than those that a test names. -/
def without (named : κ → Bool) (items : Dict κ α) : Dict κ α :=
  items.filter (fun item => !named item.1)

/-- `items.pop(key, None)` -/
def erase (items : Dict κ α) (key : κ) : Dict κ α :=
  items.without (fun other => decide (other = key))

/-- A key that is not named has the value it had. -/
theorem get_without (items : Dict κ α) {named : κ → Bool} {key : κ} (other : named key = false) :
    (items.without named).get key = items.get key := by
  have kept : (fun item : κ × α => decide ((!named item.1) = true ∧ decide (item.1 = key) = true)) =
      fun item => decide (item.1 = key) := by
    funext item
    by_cases found : item.1 = key
    · simp [found, other]
    · simp [found]
  rw [get, get, without, List.find?_filter, kept]

/-- After a removal its key has no value, and every other key what it had. -/
theorem get_erase (items : Dict κ α) (key wanted : κ) :
    (items.erase key).get wanted = if wanted = key then none else items.get wanted := by
  split
  · rename_i same
    subst same
    exact get_of_absent (fun item member => by simpa using (List.mem_filter.mp member).2)
  · rename_i other
    exact get_without items (decide_eq_false other)

/-- An assignment to a named key does not change the rest. -/
theorem without_set (items : Dict κ α) {named : κ → Bool} {key : κ} (name : named key = true)
    (value : α) : (items.set key value).without named = items.without named := by
  induction items with
  | nil => simp [set, without, name]
  | cons first rest inductionHypothesis =>
    unfold without at inductionHypothesis ⊢
    by_cases here : first.1 = key
    · simp [set, here, name]
    · rw [set, if_neg here, List.filter_cons, List.filter_cons, inductionHypothesis]

/-- Nor does a removal. -/
theorem without_erase (items : Dict κ α) {named : κ → Bool} {key : κ} (name : named key = true) :
    (items.erase key).without named = items.without named := by
  rw [without, without, erase, without, List.filter_filter]
  refine List.filter_congr ?_
  intro item _
  by_cases same : item.1 = key
  · simp [same, name]
  · simp [same]

/-! ## Changed values -/

section
variable {β : Type v}

/-- The items with changed values, under the same keys. -/
def mapValues (change : κ → α → β) (items : Dict κ α) : Dict κ β :=
  items.map (fun item => (item.1, change item.1 item.2))

variable (change : κ → α → β)

/-- Assigning a changed value is changing the assigned one. -/
theorem set_mapValues (items : Dict κ α) (key : κ) (value : α) :
    set (mapValues change items) key (change key value) = mapValues change (set items key value) := by
  induction items with
  | nil => rfl
  | cons first rest inductionHypothesis =>
    by_cases here : first.1 = key
    · simp only [mapValues, List.map_cons, set, here, ↓reduceIte]
    · simp only [mapValues, List.map_cons, set, here, ↓reduceIte] at inductionHypothesis ⊢
      rw [inductionHypothesis]

/-- The dictionary of changed pairs has the changed values. -/
theorem ofPairs_mapValues (pairs : List (κ × α)) :
    ofPairs (mapValues change pairs) = mapValues change (ofPairs pairs) := by
  have assigned : ∀ items : Dict κ α,
      union (mapValues change items) (mapValues change pairs) =
        mapValues change (union items pairs) := by
    induction pairs with
    | nil => exact fun _ => rfl
    | cons first rest inductionHypothesis =>
      intro items
      have step := inductionHypothesis (set items first.1 first.2)
      rw [← set_mapValues] at step
      exact step
  exact assigned []

/-- A changed value is read back changed. -/
theorem get_mapValues (items : Dict κ α) (key : κ) :
    get (mapValues change items) key = (get items key).map (change key) := by
  induction items with
  | nil => rfl
  | cons first rest inductionHypothesis =>
    by_cases here : first.1 = key
    · subst here
      simp [get, mapValues]
    · simp only [get, mapValues, List.map_cons, List.find?_cons, here, decide_false]
        at inductionHypothesis ⊢
      exact inductionHypothesis

end

end Dict

end Library
