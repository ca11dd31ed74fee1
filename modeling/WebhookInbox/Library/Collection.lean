import Mathlib.Algebra.GroupWithZero.Nat
import Mathlib.Data.List.Forall2
import Mathlib.Data.List.Nodup
import Mathlib.Data.Option.Basic

/-!
# A document collection with unique keys

Documents stand in natural order, and no two share a key. The uniqueness proof
is part of the value, so a lookup by key never has two answers. Updates that
keep every key, deletions and insertions of a fresh key rebuild it; each comes
with the lookup it leaves behind, which is how their users reason about them.
-/

namespace Library

universe u v

/-- Documents in natural order, with at most one document under each key. -/
structure Collection {δ : Type u} {κ : Type v} (key : δ → κ) where
  docs : List δ
  unique : (docs.map key).Nodup

namespace Collection

variable {δ : Type u} {κ : Type v} {key : δ → κ}

/-- The collection without documents. -/
def empty : Collection key := ⟨[], List.nodup_nil⟩

variable [DecidableEq κ]

/-- The document stored under a key. -/
def find (stored : Collection key) (wanted : κ) : Option δ :=
  stored.docs.find? (fun doc => decide (key doc = wanted))

/-- Insertion refuses a key that is taken. -/
def insert (stored : Collection key) (doc : δ) : Option (Collection key) :=
  if fresh : key doc ∈ stored.docs.map key then none
  else some ⟨stored.docs ++ [doc], by
    rw [List.map_append, List.map_singleton]
    exact List.nodup_append.mpr ⟨stored.unique, List.nodup_singleton _, by
      intro other member last same
      rw [List.mem_singleton] at same
      rintro rfl
      exact fresh (same ▸ member)⟩⟩

/-- Change every document the filter selects. A change keeps the key, as an
update of other fields does. -/
def updateMany (stored : Collection key) (selects : δ → Bool) (change : δ → δ)
    (keeps : ∀ doc, key (change doc) = key doc) : Collection key :=
  ⟨stored.docs.map (fun doc => if selects doc then change doc else doc), by
    have same : (stored.docs.map (fun doc => if selects doc then change doc else doc)).map key =
        stored.docs.map key := by
      rw [List.map_map]
      apply List.map_congr_left
      intro doc _
      by_cases selected : selects doc <;> simp [selected, keeps]
    rw [same]
    exact stored.unique⟩

/-- Change the document under one key, if it is there. -/
def updateOne (stored : Collection key) (wanted : κ) (change : δ → δ)
    (keeps : ∀ doc, key (change doc) = key doc) : Collection key :=
  stored.updateMany (fun doc => decide (key doc = wanted)) change keeps

/-- Remove the document under one key, if it is there. -/
def deleteOne (stored : Collection key) (wanted : κ) : Collection key :=
  ⟨stored.docs.filter (fun doc => decide (key doc ≠ wanted)),
    (List.filter_sublist.map key).nodup stored.unique⟩

/-- Nothing is stored under any key of the empty collection. -/
@[simp] theorem find_empty (wanted : κ) : (empty : Collection key).find wanted = none := rfl

/-- A found document is stored and carries the key it was found under. -/
theorem find_some {stored : Collection key} {wanted : κ} {doc : δ}
    (found : stored.find wanted = some doc) : doc ∈ stored.docs ∧ key doc = wanted :=
  ⟨List.mem_of_find?_eq_some found, by simpa using List.find?_some found⟩

/-- Every stored document is the one found under its key. -/
theorem find_of_mem {stored : Collection key} {doc : δ} (member : doc ∈ stored.docs) :
    stored.find (key doc) = some doc := by
  cases found : stored.find (key doc) with
  | none =>
    have absent := List.find?_eq_none.mp found doc member
    simp at absent
  | some other =>
    obtain ⟨otherMember, same⟩ := find_some found
    rw [List.inj_on_of_nodup_map stored.unique otherMember member same]

/-- An update leaves under each key the changed document when the filter
selects it, and the old document otherwise. -/
@[simp] theorem find_updateMany (stored : Collection key) (selects : δ → Bool) (change : δ → δ)
    (keeps : ∀ doc, key (change doc) = key doc) (wanted : κ) :
    (stored.updateMany selects change keeps).find wanted =
      (stored.find wanted).map (fun doc => if selects doc then change doc else doc) := by
  have sameKey : ∀ doc, key (if selects doc then change doc else doc) = key doc := by
    intro doc
    by_cases selected : selects doc <;> simp [selected, keeps]
  simp only [find, updateMany, List.find?_map]
  congr 1
  congr 1
  funext doc
  simp [sameKey]

/-- An update by key changes that document and no other. -/
theorem find_updateOne (stored : Collection key) (target wanted : κ) (change : δ → δ)
    (keeps : ∀ doc, key (change doc) = key doc) :
    (stored.updateOne target change keeps).find wanted =
      if wanted = target then (stored.find wanted).map change else stored.find wanted := by
  rw [updateOne, find_updateMany]
  cases found : stored.find wanted with
  | none => simp
  | some doc =>
    obtain ⟨_, rfl⟩ := find_some found
    by_cases same : key doc = target <;> simp [same]

/-- An insertion adds its document and no other. -/
theorem mem_insert {stored grown : Collection key} {doc : δ}
    (inserted : stored.insert doc = some grown) (other : δ) :
    other ∈ grown.docs ↔ other ∈ stored.docs ∨ other = doc := by
  unfold insert at inserted
  split at inserted
  · cases inserted
  · rw [← Option.some.inj inserted]
    simp

/-- An update changes the documents of its key and no other. -/
theorem mem_updateOne (stored : Collection key) (target : κ) (change : δ → δ)
    (keeps : ∀ doc, key (change doc) = key doc) (other : δ) :
    other ∈ (stored.updateOne target change keeps).docs ↔
      ∃ doc ∈ stored.docs, other = if key doc = target then change doc else doc := by
  simp [updateOne, updateMany, eq_comm]

/-- A deletion adds no document. -/
theorem mem_deleteOne {stored : Collection key} {target : κ} {other : δ}
    (member : other ∈ (stored.deleteOne target).docs) : other ∈ stored.docs :=
  List.mem_of_mem_filter member

/-- An insertion succeeds exactly under a free key, and only adds its document. -/
theorem find_insert {stored grown : Collection key} {doc : δ}
    (inserted : stored.insert doc = some grown) (wanted : κ) :
    grown.find wanted = if wanted = key doc then some doc else stored.find wanted := by
  unfold insert at inserted
  split at inserted
  · cases inserted
  · rename_i fresh
    obtain rfl := Option.some.inj inserted
    by_cases same : wanted = key doc
    · subst same
      have absent : stored.docs.find? (fun other => decide (key other = key doc)) = none := by
        simp only [List.find?_eq_none, decide_eq_true_eq]
        intro other member equal
        exact fresh (equal ▸ List.mem_map_of_mem member)
      simp [find, List.find?_append, absent]
    · have other : ¬ key doc = wanted := fun equal => same equal.symm
      simp [find, List.find?_append, same, other]

/-- The key of an inserted document was free. -/
theorem insert_fresh {stored grown : Collection key} {doc : δ}
    (inserted : stored.insert doc = some grown) : stored.find (key doc) = none := by
  unfold insert at inserted
  split at inserted
  · cases inserted
  · rename_i fresh
    simp only [find, List.find?_eq_none, decide_eq_true_eq]
    intro other member equal
    exact fresh (equal ▸ List.mem_map_of_mem member)

/-- An insertion puts its document last. -/
theorem insert_docs {stored grown : Collection key} {doc : δ}
    (inserted : stored.insert doc = some grown) : grown.docs = stored.docs ++ [doc] := by
  unfold insert at inserted
  split at inserted
  · cases inserted
  · exact congrArg docs (Option.some.inj inserted).symm

/-! ## Removal by a test -/

/-- Keep the documents with a property. -/
def retain (stored : Collection key) (keeps : δ → Bool) : Collection key :=
  ⟨stored.docs.filter keeps, (List.filter_sublist.map key).nodup stored.unique⟩

/-- Under each key there is the document that was there, if it is kept. -/
theorem find_retain (stored : Collection key) (keeps : δ → Bool) (wanted : κ) :
    (stored.retain keeps).find wanted = (stored.find wanted).filter keeps := by
  cases found : stored.find wanted with
  | some doc =>
    obtain ⟨member, rfl⟩ := find_some found
    by_cases kept : keeps doc = true
    · have left : doc ∈ (stored.retain keeps).docs := List.mem_filter.mpr ⟨member, kept⟩
      rw [find_of_mem left, Option.filter_some, if_pos kept]
    · rw [Option.filter_some, if_neg kept]
      cases other : (stored.retain keeps).find (key doc) with
      | none => rfl
      | some second =>
        obtain ⟨secondMember, same⟩ := find_some other
        obtain ⟨old, secondKept⟩ := List.mem_filter.mp secondMember
        rw [List.inj_on_of_nodup_map stored.unique old member same] at secondKept
        exact absurd secondKept kept
  | none =>
    cases other : (stored.retain keeps).find wanted with
    | none => rfl
    | some second =>
      obtain ⟨member, rfl⟩ := find_some other
      rw [find_of_mem (List.mem_of_mem_filter member)] at found
      cases found

/-! ## Updates that may fail -/

/-- Change the selected documents one after the other. A change that fails ends this, and
those before it stay changed. The flag tells whether it got to the end. -/
def changeEach {δ : Type u} (selects : δ → Bool) (change : δ → Option δ) :
    List δ → List δ × Bool
  | [] => ([], true)
  | doc :: rest =>
      if selects doc then
        match change doc with
        | none => (doc :: rest, false)
        | some changed =>
            (changed :: (changeEach selects change rest).1, (changeEach selects change rest).2)
      else (doc :: (changeEach selects change rest).1, (changeEach selects change rest).2)

/-- Each document is as it was, or was selected and is changed. -/
theorem changeEach_changed (selects : δ → Bool) (change : δ → Option δ) (docs : List δ) :
    List.Forall₂ (fun before after =>
      after = before ∨ selects before = true ∧ change before = some after) docs
        (changeEach selects change docs).1 := by
  have same : ∀ docs : List δ, List.Forall₂ (fun before after =>
      after = before ∨ selects before = true ∧ change before = some after) docs docs :=
    fun docs => List.forall₂_same.mpr (fun _ _ => .inl rfl)
  induction docs with
  | nil => exact .nil
  | cons doc rest inductionHypothesis =>
    rw [changeEach]
    split
    · rename_i selected
      cases changes : change doc with
      | none => exact same (doc :: rest)
      | some changed => exact .cons (.inr ⟨selected, changes⟩) inductionHypothesis
    · exact .cons (.inl rfl) inductionHypothesis

/-- Changes that correspond leave documents that do. -/
theorem changeEach_related {δ' : Type*} {related : δ → δ' → Prop} {selects : δ → Bool}
    {selects' : δ' → Bool} {change : δ → Option δ} {change' : δ' → Option δ'}
    (selected : ∀ doc doc', related doc doc' → selects doc = selects' doc')
    (changed : ∀ doc doc', related doc doc' → Option.Rel related (change doc) (change' doc'))
    {docs : List δ} {docs' : List δ'} (corresponding : List.Forall₂ related docs docs') :
    List.Forall₂ related (changeEach selects change docs).1 (changeEach selects' change' docs').1 ∧
      (changeEach selects change docs).2 = (changeEach selects' change' docs').2 := by
  induction corresponding with
  | nil => exact ⟨.nil, rfl⟩
  | @cons doc doc' rest rest' first others inductionHypothesis =>
    have outcome := changed doc doc' first
    rw [changeEach, changeEach, selected doc doc' first]
    split
    · cases one : change doc with
      | none =>
        cases two : change' doc' with
        | none => exact ⟨.cons first others, rfl⟩
        | some _ =>
          rw [one, two] at outcome
          cases outcome
      | some _ =>
        cases two : change' doc' with
        | none =>
          rw [one, two] at outcome
          cases outcome
        | some _ =>
          rw [one, two] at outcome
          cases outcome with
          | some here => exact ⟨.cons here inductionHypothesis.1, inductionHypothesis.2⟩
    · exact ⟨.cons first inductionHypothesis.1, inductionHypothesis.2⟩

/-- `update_many` with a change that may fail and keeps the key. -/
def updateEach (stored : Collection key) (selects : δ → Bool) (change : δ → Option δ)
    (keeps : ∀ doc changed, change doc = some changed → key changed = key doc) :
    Collection key × Bool :=
  ⟨⟨(changeEach selects change stored.docs).1, by
    have keys : stored.docs.map key = (changeEach selects change stored.docs).1.map key := by
      refine List.forall₂_eq_eq_eq ▸ List.forall₂_map_left_iff.mpr (List.forall₂_map_right_iff.mpr ?_)
      refine (changeEach_changed selects change stored.docs).imp ?_
      rintro before after (rfl | ⟨_, changed⟩)
      · rfl
      · exact (keeps before after changed).symm
    exact keys ▸ stored.unique⟩, (changeEach selects change stored.docs).2⟩

/-- It leaves under each key the document that was there, or what was made of it. -/
theorem find_updateEach (stored : Collection key) (selects : δ → Bool) (change : δ → Option δ)
    (keeps : ∀ doc changed, change doc = some changed → key changed = key doc) (wanted : κ) :
    (stored.updateEach selects change keeps).1.find wanted = stored.find wanted ∨
      ∃ before after, stored.find wanted = some before ∧ selects before = true ∧
        change before = some after ∧
        (stored.updateEach selects change keeps).1.find wanted = some after := by
  have located : ∀ {docs changed : List δ}, List.Forall₂ (fun before after =>
      after = before ∨ selects before = true ∧ change before = some after) docs changed →
      changed.find? (fun doc => decide (key doc = wanted)) =
          docs.find? (fun doc => decide (key doc = wanted)) ∨
        ∃ before after, docs.find? (fun doc => decide (key doc = wanted)) = some before ∧
          selects before = true ∧ change before = some after ∧
          changed.find? (fun doc => decide (key doc = wanted)) = some after := by
    intro docs changed corresponding
    induction corresponding with
    | nil => exact .inl rfl
    | @cons before after rest rest' first _ inductionHypothesis =>
      have sameKey : key after = key before := by
        rcases first with rfl | ⟨_, changes⟩
        · rfl
        · exact keeps before after changes
      rw [List.find?_cons, List.find?_cons, sameKey]
      by_cases found : key before = wanted
      · rw [decide_eq_true found]
        rcases first with rfl | ⟨selected, changes⟩
        · exact .inl rfl
        · exact .inr ⟨before, after, rfl, selected, changes, rfl⟩
      · rw [decide_eq_false found]
        exact inductionHypothesis
  exact located (changeEach_changed selects change stored.docs)

/-! ## Sums over the documents -/

/-- An update by key replaces the share of its document in a sum. -/
theorem sum_updateOne (stored : Collection key) {wanted : κ} {doc : δ} (change : δ → δ)
    (keeps : ∀ doc, key (change doc) = key doc) (measure : δ → Nat)
    (found : stored.find wanted = some doc) :
    ((stored.updateOne wanted change keeps).docs.map measure).sum + measure doc =
      (stored.docs.map measure).sum + measure (change doc) := by
  have split : ∀ docs : List δ, (docs.map key).Nodup →
      docs.find? (fun other => decide (key other = wanted)) = some doc →
      ((docs.map (fun other => if decide (key other = wanted) then change other else other)).map
          measure).sum + measure doc = (docs.map measure).sum + measure (change doc) := by
    intro docs
    induction docs with
    | nil => exact fun _ none => nomatch none
    | cons first rest inductionHypothesis =>
      intro distinct located
      obtain ⟨fresh, distinctRest⟩ := List.nodup_cons.mp distinct
      by_cases here : key first = wanted
      · rw [List.find?_cons, decide_eq_true here] at located
        obtain rfl := Option.some.inj located
        have others : rest.map (fun other =>
            if decide (key other = wanted) then change other else other) = rest := by
          refine (List.map_congr_left ?_).trans (List.map_id rest)
          intro other member
          have different : key other ≠ wanted :=
            fun same => fresh (here.trans same.symm ▸ List.mem_map_of_mem member)
          simp [different]
        simp only [List.map_cons, List.sum_cons, others, here, decide_true, ↓reduceIte]
        omega
      · rw [List.find?_cons, decide_eq_false here] at located
        have later := inductionHypothesis distinctRest located
        simp only [List.map_cons, List.sum_cons, here, decide_false, Bool.false_eq_true,
          ↓reduceIte]
        omega
  exact split stored.docs stored.unique found

omit [DecidableEq κ] in
/-- A change that leaves every share leaves the sum. -/
theorem sum_updateMany (stored : Collection key) (selects : δ → Bool) (change : δ → δ)
    (keeps : ∀ doc, key (change doc) = key doc) (measure : δ → Nat)
    (same : ∀ doc, selects doc = true → measure (change doc) = measure doc) :
    ((stored.updateMany selects change keeps).docs.map measure).sum =
      (stored.docs.map measure).sum := by
  rw [updateMany, List.map_map]
  refine congrArg List.sum (List.map_congr_left ?_)
  intro doc _
  by_cases selected : selects doc = true
  · simp [selected, same doc selected]
  · simp [selected]

/-- An insertion adds the share of its document. -/
theorem sum_insert {stored grown : Collection key} {doc : δ}
    (inserted : stored.insert doc = some grown) (measure : δ → Nat) :
    (grown.docs.map measure).sum = (stored.docs.map measure).sum + measure doc := by
  rw [insert_docs inserted, List.map_append, List.sum_append_nat, List.map_singleton,
    List.sum_singleton]

end Collection

end Library
