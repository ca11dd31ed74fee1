import WebhookInbox.Library.KeysetPaging

/-!
# Paging while the rows change

Between two pages rows may be added, removed and changed. Each page is then cut from another
listing, the one of the state in which it is fetched. The link still bounds the key, so the
pages descend, and what has a name and is in every listing with the same key is met, unless
it shares the key with something else.
-/

namespace Library.KeysetPaging

universe u v w
variable {α : Type u} {κ : Type v} {ι σ : Type w} [LinearOrder κ] (key : α → κ) (name : α → ι)

/-- Fetch a page in each state, by the link that the last row of the page before gives, until
one is not full or no state is left. -/
def wander {τ : Type*} (fetch : σ → Option τ → Option (List α)) (link : α → τ) (size : Nat) :
    List σ → Option τ → Option (List (List α))
  | [], _ => some []
  | state :: later, cursor =>
      (fetch state cursor).bind (fun page =>
        if page.length = size then
          match page.getLast? with
          | none => some [page]
          | some last =>
              (wander fetch link size later (some (link last))).map (fun pages => page :: pages)
        else some [page])

/-- The rows below a bound, or all of them. -/
def below (bound : Option κ) (rows : List α) : List α :=
  bound.elim rows (fun last => after key last rows)

/-- Some row has this key, and all that have it are known by this name. -/
def Holds (place : κ) (own : ι) (rows : List α) : Prop :=
  (∃ row ∈ rows, key row = place) ∧ ∀ row ∈ rows, key row = place → name row = own

/-- One of the pages is not full. -/
def Ended (size : Nat) (pages : List (List α)) : Prop := ∃ page ∈ pages, page.length < size

/-- What the pages of a walk have to do with the listings that they are fetched from. -/
structure Wandered (listings : σ → List α) (size : Nat) (bound : Option κ) (states : List σ)
    (pages : List (List α)) : Prop where
  /-- Each page is part of the listing that stood then. -/
  shown : List.Forall₂ (fun page state => page.Sublist (listings state)) pages
    (states.take pages.length)
  bounded : ∀ page ∈ pages, ∀ row ∈ page, ∀ last ∈ bound, key row < last
  descending : pages.Pairwise (fun first second =>
    ∀ row ∈ first, ∀ other ∈ second, key other < key row)
  /-- At the end, what was in all listings under its key, and had that for itself, was met. -/
  complete : Ended size pages → ∀ place own,
    (∀ state ∈ states.take pages.length, Holds key name place own (listings state)) →
      (∀ last ∈ bound, place < last) → ∃ row ∈ pages.flatten, key row = place ∧ name row = own
  stopped : Ended size pages ∨
    pages.length = states.length ∧ ∀ page ∈ pages, page.length = size

section
variable {key} {name} {listings : σ → List α} {size : Nat} {bound : Option κ}

theorem below_sublist (bound : Option κ) (rows : List α) : (below key bound rows).Sublist rows := by
  cases bound with
  | none => exact List.Sublist.refl rows
  | some last => exact List.filter_sublist

theorem mem_below {bound : Option κ} {row : α} {rows : List α} :
    row ∈ below key bound rows ↔ row ∈ rows ∧ ∀ last ∈ bound, key row < last := by
  cases bound with
  | none => simp [below]
  | some last => simp [below, after]

/-- No rows in a page of a listing stand below its last one. -/
theorem page_last {rows page : List α} {last : α} (listed : Listed key rows)
    (part : page.Sublist rows) (ended : page.getLast? = some last) :
    ∀ row ∈ page, key last ≤ key row := by
  obtain ⟨front, rfl⟩ := List.getLast?_eq_some_iff.mp ended
  have inOrder : Listed key (front ++ [last]) := listed.sublist part
  intro row member
  cases List.mem_append.mp member with
  | inl inFront => exact (List.pairwise_append.mp inOrder).2.2 row inFront last List.mem_cons_self
  | inr isLast => rw [List.mem_singleton.mp isLast]

/-- A row that a full page leaves out is below its last row, unless they share a key. -/
theorem below_page {rows : List α} {row last : α} (listed : Listed key rows)
    (ended : (rows.take size).getLast? = some last) (member : row ∈ rows)
    (missing : row ∉ rows.take size) : key row ≤ key last := by
  rw [← List.take_append_drop size rows] at listed member
  have inDrop : row ∈ rows.drop size := (List.mem_append.mp member).resolve_left missing
  exact (List.pairwise_append.mp listed).2.2 last (List.mem_of_getLast? ended) row inDrop

/-- The walk stops at a page that is not full. -/
theorem wandered_short {state : σ} {later : List σ}
    (short : ((below key bound (listings state)).take size).length < size) :
    Wandered key name listings size bound (state :: later)
      [(below key bound (listings state)).take size] := by
  have whole : (below key bound (listings state)).take size = below key bound (listings state) := by
    refine List.take_of_length_le ?_
    rw [List.length_take] at short
    omega
  rw [whole] at short ⊢
  constructor
  case shown => exact .cons (below_sublist _ _) .nil
  case bounded =>
    intro page member row inPage
    rw [List.mem_singleton.mp member] at inPage
    exact (mem_below.mp inPage).2
  case descending => exact List.pairwise_singleton _ _
  case complete =>
    intro _ place own stays within
    obtain ⟨⟨row, inListing, rfl⟩, named⟩ := stays state List.mem_cons_self
    rw [List.flatten_singleton]
    exact ⟨row, mem_below.mpr ⟨inListing, within⟩, rfl, named row inListing rfl⟩
  case stopped => exact .inl ⟨_, List.mem_singleton_self _, short⟩

/-- A full page goes before the walk from its last row on. -/
theorem wandered_full {state : σ} {later : List σ} {pages : List (List α)} {last : α}
    (listed : Listed key (listings state))
    (full : ((below key bound (listings state)).take size).length = size)
    (ended : ((below key bound (listings state)).take size).getLast? = some last)
    (rest : Wandered key name listings size (some (key last)) later pages) :
    Wandered key name listings size bound (state :: later)
      ((below key bound (listings state)).take size :: pages) := by
  have inOrder : Listed key (below key bound (listings state)) :=
    listed.sublist (below_sublist _ _)
  have lastMember : last ∈ below key bound (listings state) :=
    List.mem_of_mem_take (List.mem_of_getLast? ended)
  have notFirst : Ended size ((below key bound (listings state)).take size :: pages) →
      Ended size pages := by
    rintro ⟨page, member, short⟩
    refine ⟨page, (List.mem_cons.mp member).resolve_left ?_, short⟩
    rintro rfl
    omega
  constructor
  case shown => exact .cons ((List.take_sublist _ _).trans (below_sublist _ _)) rest.shown
  case bounded =>
    intro page member row inPage bounding stands
    cases List.mem_cons.mp member with
    | inl same =>
      rw [same] at inPage
      exact (mem_below.mp (List.mem_of_mem_take inPage)).2 bounding stands
    | inr inLater =>
      have less := rest.bounded page inLater row inPage _ rfl
      exact less.trans ((mem_below.mp lastMember).2 bounding stands)
  case descending =>
    refine List.pairwise_cons.mpr ⟨?_, rest.descending⟩
    intro page inLater row inFirst other inPage
    have least := page_last inOrder (List.take_sublist _ _) ended row inFirst
    exact lt_of_lt_of_le (rest.bounded page inLater other inPage _ rfl) least
  case complete =>
    intro short place own stays within
    rw [List.length_cons, List.take_succ_cons] at stays
    rw [List.flatten_cons]
    obtain ⟨⟨row, inListing, rfl⟩, named⟩ := stays state List.mem_cons_self
    by_cases met : row ∈ (below key bound (listings state)).take size
    · exact ⟨row, List.mem_append_left _ met, rfl, named row inListing rfl⟩
    · have notAbove : key row ≤ key last :=
        below_page inOrder ended (mem_below.mpr ⟨inListing, within⟩) met
      rcases notAbove.eq_or_lt with same | less
      -- The page was cut at this very key, which nothing else has: the last row is it.
      · exact ⟨last, List.mem_append_left _ (List.mem_of_getLast? ended), same.symm,
          named last (mem_below.mp lastMember).1 same.symm⟩
      · obtain ⟨other, inLater, alike⟩ := rest.complete (notFirst short) (key row) own
          (fun next member => stays next (List.mem_cons_of_mem _ member))
          (by rintro _ ⟨⟩; exact less)
        exact ⟨other, List.mem_append_right _ inLater, alike⟩
  case stopped =>
    rcases rest.stopped with ⟨page, member, short⟩ | ⟨same, allFull⟩
    · exact .inl ⟨page, List.mem_cons_of_mem _ member, short⟩
    · refine .inr ⟨by rw [List.length_cons, List.length_cons, same], ?_⟩
      exact List.forall_mem_cons.mpr ⟨full, allFull⟩

section
variable {τ : Type*} {fetch : σ → Option τ → Option (List α)} {link : α → τ}

/-- A walk from a bound on, if links lead below the keys of their rows in every state.

Induction on the states: a full page moves the bound to the key of its last row. -/
theorem wander_below (positive : 1 ≤ size) (states : List σ) (cursor : Option τ)
    (bound : Option κ) (listed : ∀ state ∈ states, Listed key (listings state))
    (fetched : ∀ state ∈ states,
      fetch state cursor = some ((below key bound (listings state)).take size))
    (linked : ∀ state ∈ states, ∀ other ∈ states, ∀ row ∈ listings other,
      fetch state (some (link row)) = some ((after key (key row) (listings state)).take size)) :
    ∃ pages, wander fetch link size states cursor = some pages ∧
      Wandered key name listings size bound states pages := by
  induction states generalizing cursor bound with
  | nil =>
    refine ⟨[], rfl, .nil, by simp, .nil, ?_, .inr ⟨rfl, by simp⟩⟩
    rintro ⟨page, member, _⟩
    cases member
  | cons state later inductionHypothesis =>
    have own := fetched state List.mem_cons_self
    by_cases full : ((below key bound (listings state)).take size).length = size
    · have filled : (below key bound (listings state)).take size ≠ [] := by
        intro empty
        rw [empty, List.length_nil] at full
        omega
      have ended := List.getLast?_eq_some_getLast filled
      generalize ((below key bound (listings state)).take size).getLast filled = last at ended
      have inListing : last ∈ listings state :=
        (mem_below.mp (List.mem_of_mem_take (List.mem_of_getLast? ended))).1
      obtain ⟨pages, walked, rest⟩ := inductionHypothesis (some (link last)) (some (key last))
        (fun other member => listed other (List.mem_cons_of_mem _ member))
        (fun other member => linked other (List.mem_cons_of_mem _ member) state
          List.mem_cons_self last inListing)
        (fun other member next inLater => linked other (List.mem_cons_of_mem _ member) next
          (List.mem_cons_of_mem _ inLater))
      refine ⟨_, ?_, wandered_full (listed state List.mem_cons_self) full ended rest⟩
      rw [wander, own, Option.bind_some, if_pos full, ended]
      simp only [walked, Option.map_some]
    · refine ⟨_, ?_, wandered_short ?_⟩
      · rw [wander, own, Option.bind_some, if_neg full]
      · exact lt_of_le_of_ne (List.length_take_le _ _) full

/-- A walk from the first page on. -/
theorem wander_pages (positive : 1 ≤ size) {states : List σ}
    (listed : ∀ state ∈ states, Listed key (listings state))
    (first : ∀ state ∈ states, fetch state none = some ((listings state).take size))
    (linked : ∀ state ∈ states, ∀ other ∈ states, ∀ row ∈ listings other,
      fetch state (some (link row)) = some ((after key (key row) (listings state)).take size)) :
    ∃ pages, wander fetch link size states none = some pages ∧
      Wandered key name listings size none states pages :=
  wander_below positive states none none listed first linked

end

namespace Wandered

variable {states : List σ} {pages : List (List α)}

/-- A page and the state that it was fetched in. -/
theorem fetched (walked : Wandered key name listings size bound states pages) {page : List α}
    (member : page ∈ pages) :
    ∃ state ∈ states.take pages.length, page.Sublist (listings state) := by
  obtain ⟨place, here, rfl⟩ := List.getElem_of_mem member
  have there : place < (states.take pages.length).length := walked.shown.length_eq ▸ here
  exact ⟨_, List.getElem_mem there, walked.shown.get here there⟩

/-- What holds from each row of a listing to the later ones, and from a row to those with
lesser keys, holds along the whole walk. -/
theorem ordered (walked : Wandered key name listings size bound states pages) {leads : α → α → Prop}
    (less : ∀ {first second}, key second < key first → leads first second)
    (within : ∀ state ∈ states, (listings state).Pairwise leads) :
    pages.flatten.Pairwise leads := by
  refine List.pairwise_flatten.mpr ⟨?_, ?_⟩
  · intro page member
    obtain ⟨state, visited, part⟩ := walked.fetched member
    exact (within state (List.mem_of_mem_take visited)).sublist part
  · exact walked.descending.imp
      (fun apart row inFirst other inSecond => less (apart row inFirst other inSecond))

/-- Rows with one label are met at most once, if they all have one key.

Proof: on one page they would be in one listing, and from page to page keys descend. -/
theorem label_once {β : Type*} [DecidableEq β] (label : α → β)
    (walked : Wandered key name listings size bound states pages) {wanted : β}
    (different : ∀ state ∈ states, ((listings state).map label).Nodup)
    (kept : ∀ state ∈ states, ∀ other ∈ states, ∀ row ∈ listings state,
      ∀ twin ∈ listings other, label row = wanted → label twin = wanted → key row = key twin) :
    (pages.flatten.map label).count wanted ≤ 1 := by
  have origin : ∀ page ∈ pages, ∃ state ∈ states, page.Sublist (listings state) := by
    intro page member
    obtain ⟨state, visited, part⟩ := walked.fetched member
    exact ⟨state, List.mem_of_mem_take visited, part⟩
  have apart : pages.flatten.Pairwise
      (fun first second => ¬ (label first = wanted ∧ label second = wanted)) := by
    refine List.pairwise_flatten.mpr ⟨?_, ?_⟩
    · intro page member
      obtain ⟨state, visited, part⟩ := origin page member
      have own := (List.pairwise_map.mp (different state visited)).sublist part
      exact own.imp (fun differs both => differs (both.1.trans both.2.symm))
    · refine walked.descending.imp_of_mem ?_
      rintro first second inPages inLater less row inFirst twin inSecond ⟨rowHas, twinHas⟩
      obtain ⟨state, visited, part⟩ := origin first inPages
      obtain ⟨other, next, rest⟩ := origin second inLater
      have equal := kept state visited other next row (part.subset inFirst) twin
        (rest.subset inSecond) rowHas twinHas
      exact absurd (less row inFirst twin inSecond) (equal ▸ lt_irrefl _)
  by_contra more
  have twice : (List.replicate 2 wanted).Sublist (pages.flatten.map label) :=
    List.replicate_sublist_iff.mpr (Nat.not_le.mp more)
  have inOrder : (pages.flatten.map label).Pairwise
      (fun first second => ¬ (first = wanted ∧ second = wanted)) := List.pairwise_map.mpr apart
  have pair := inOrder.sublist twice
  exact (List.pairwise_cons.mp pair).1 wanted List.mem_cons_self ⟨rfl, rfl⟩

/-- No label is met twice, if a row that is known by its label never changes its key. -/
theorem labels_differ {β : Type*} (label : α → β)
    (walked : Wandered key name listings size bound states pages)
    (different : ∀ state ∈ states, ((listings state).map label).Nodup)
    (kept : ∀ state ∈ states, ∀ other ∈ states, ∀ row ∈ listings state,
      ∀ twin ∈ listings other, label row = label twin → key row = key twin) :
    (pages.flatten.map label).Nodup := by
  classical
  refine List.nodup_iff_count_le_one.mpr (fun wanted => walked.label_once label different ?_)
  intro state visited other next row inListing twin inOther rowHas twinHas
  exact kept state visited other next row inListing twin inOther (rowHas.trans twinHas.symm)

/-- A walk through more states than its rows can fill comes to an end. -/
theorem ends (walked : Wandered key name listings size bound states pages)
    (different : ∀ state ∈ states, (listings state).Nodup) {pool : List α}
    (inside : ∀ state ∈ states, listings state ⊆ pool)
    (enough : pool.length < states.length * size) : Ended size pages := by
  rcases walked.stopped with ended | ⟨same, allFull⟩
  · exact ended
  · have apart := walked.labels_differ id (fun state visited => by
      rw [List.map_id]
      exact different state visited) (fun _ _ _ _ _ _ _ _ same => congrArg key same)
    rw [List.map_id] at apart
    have pooled : pages.flatten ⊆ pool := by
      intro row member
      obtain ⟨page, inPages, inPage⟩ := List.mem_flatten.mp member
      obtain ⟨state, visited, part⟩ := walked.fetched inPages
      exact inside state (List.mem_of_mem_take visited) (part.subset inPage)
    have few := (List.subperm_of_subset apart pooled).length_le
    have lengths : pages.map List.length = List.replicate pages.length size := by
      refine List.eq_replicate_iff.mpr ⟨List.length_map _, ?_⟩
      intro length member
      obtain ⟨page, inPages, rfl⟩ := List.mem_map.mp member
      exact allFull page inPages
    rw [List.length_flatten, lengths, List.sum_replicate_nat, same] at few
    omega

end Wandered

end

end Library.KeysetPaging
