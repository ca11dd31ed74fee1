import Mathlib.Data.List.Sort
import Mathlib.Order.Basic

/-!
# Paging by a key

Rows are listed by descending key, a page at a time. The next page begins after the key
of the last row seen. If keys differ, the pages together are the listing. If several rows
share a key and a page ends among them, the rest of them is skipped: `follow_perm_iff` says
that this is the only way to lose rows.
-/

namespace Library.KeysetPaging

universe u v
variable {α : Type u} {κ : Type v} [LinearOrder κ] (key : α → κ)

/-! ## Listings -/

/-- The first row stands before the second in a listing, or may do so. -/
def Before (first second : α) : Prop := key second ≤ key first

instance decidableBefore : DecidableRel (Before key) :=
  fun first second => inferInstanceAs (Decidable (key second ≤ key first))

instance totalBefore : Std.Total (Before key) := ⟨fun _ _ => le_total _ _⟩

instance transBefore : IsTrans α (Before key) := ⟨fun _ _ _ one two => le_trans two one⟩

/-- Rows by descending key. Rows with equal keys keep their order. -/
def listing (rows : List α) : List α := rows.insertionSort (Before key)

/-- The rows come in the order of a listing. -/
def Listed (rows : List α) : Prop := rows.Pairwise (Before key)

theorem listing_perm (rows : List α) : (listing key rows).Perm rows :=
  List.perm_insertionSort _ rows

theorem listing_listed (rows : List α) : Listed key (listing key rows) :=
  List.pairwise_insertionSort _ rows

/-- Rows after one that stands before them all are inserted after it. -/
theorem orderedInsert_head {row : α} {rows : List α} (first : ∀ other ∈ rows, Before key row other) :
    rows.orderedInsert (Before key) row = row :: rows := by
  cases rows with
  | nil => rfl
  | cons head tail => exact List.orderedInsert_cons_of_le _ tail (first head List.mem_cons_self)

/-- Selecting rows from a listing and inserting one can be done in either order. -/
theorem filter_orderedInsert (selects : α → Bool) (row : α) {rows : List α}
    (listed : Listed key rows) :
    (rows.orderedInsert (Before key) row).filter selects =
      if selects row then (rows.filter selects).orderedInsert (Before key) row
      else rows.filter selects := by
  induction rows with
  | nil => simp [List.filter_cons]
  | cons head tail inductionHypothesis =>
    obtain ⟨first, rest⟩ := List.pairwise_cons.mp listed
    by_cases before : Before key row head
    · rw [List.orderedInsert_cons_of_le _ tail before, List.filter_cons]
      by_cases selected : selects row = true
      · rw [if_pos selected, if_pos selected, orderedInsert_head]
        intro other member
        have inRows := List.mem_of_mem_filter member
        cases List.mem_cons.mp inRows with
        | inl same => exact same ▸ before
        | inr later => exact (first other later).trans before
      · rw [if_neg selected, if_neg selected]
    · rw [List.orderedInsert_of_not_le _ tail before, List.filter_cons, inductionHypothesis rest]
      by_cases kept : selects head = true
      · rw [if_pos kept, List.filter_cons, if_pos kept]
        by_cases selected : selects row = true
        · rw [if_pos selected, if_pos selected, List.orderedInsert_of_not_le _ _ before]
        · rw [if_neg selected, if_neg selected]
      · rw [if_neg kept, List.filter_cons, if_neg kept]

/-- Selected rows are listed as they are in the whole listing. -/
theorem filter_listing (selects : α → Bool) (rows : List α) :
    (listing key rows).filter selects = listing key (rows.filter selects) := by
  induction rows with
  | nil => rfl
  | cons row rest inductionHypothesis =>
    have step := filter_orderedInsert key selects row (listing_listed key rest)
    rw [inductionHypothesis] at step
    rw [List.filter_cons]
    by_cases selected : selects row = true
    · rw [if_pos selected] at step ⊢
      exact step
    · rw [if_neg selected] at step ⊢
      exact step

/-! ## Pages -/

/-- The rows that come after a key. -/
def after (last : κ) (rows : List α) : List α := rows.filter (fun row => decide (key row < last))

/-- No page ends between two rows with one key. -/
def Uncut (size : Nat) (rows : List α) : Prop :=
  ∀ page first second, rows[page * size + size - 1]? = some first →
    rows[page * size + size]? = some second → key second < key first

/-- Fetch pages of this size, each by the link that the last row of the one before gives,
until one is not full. A page that fails is no result, and neither is running out of
fuel. -/
def follow {τ : Type*} (fetch : Option τ → Option (List α)) (link : α → τ) (size : Nat) :
    Nat → Option τ → Option (List α)
  | 0, _ => none
  | fuel + 1, cursor =>
      (fetch cursor).bind (fun page =>
        if page.length = size then
          match page.getLast? with
          | none => some page
          | some last =>
              (follow fetch link size fuel (some (link last))).map (fun later => page ++ later)
        else some page)

/-- What comes after a later key comes after an earlier one. -/
theorem after_after {first second : κ} (later : second < first) (rows : List α) :
    after key second (after key first rows) = after key second rows := by
  rw [after, after, after, List.filter_filter]
  refine List.filter_congr ?_
  intro row _
  by_cases below : key row < second
  · simp [below, below.trans later]
  · simp [below]

/-- After the last row of a full page come rows of the later pages only. -/
theorem after_take {size : Nat} {rows : List α} {last : α} (listed : Listed key rows)
    (full : (rows.take size).getLast? = some last) :
    after key (key last) rows = after key (key last) (rows.drop size) := by
  have none : after key (key last) (rows.take size) = [] := by
    obtain ⟨front, split⟩ := List.getLast?_eq_some_iff.mp full
    have inOrder : Listed key (front ++ [last]) := by
      rw [← split]
      exact listed.sublist (List.take_sublist size rows)
    refine List.filter_eq_nil_iff.mpr ?_
    intro row member
    rw [split] at member
    have notBelow : key last ≤ key row := by
      cases List.mem_append.mp member with
      | inl inFront =>
        exact (List.pairwise_append.mp inOrder).2.2 row inFront last List.mem_cons_self
      | inr isLast => rw [List.mem_singleton.mp isLast]
    simp [notBelow]
  have parts := congrArg (after key (key last)) (List.take_append_drop size rows)
  rw [← parts, after, List.filter_append]
  change after key (key last) (rows.take size) ++ _ = _
  rw [none, List.nil_append]
  rfl

/-- The last row of a page stands at its end. -/
theorem getElem?_of_getLast? {size : Nat} {rows : List α} {last : α}
    (full : (rows.take size).length = size) (ended : (rows.take size).getLast? = some last) :
    rows[size - 1]? = some last := by
  rw [List.getLast?_eq_getElem?, full, List.getElem?_take] at ended
  split at ended
  · exact ended
  · cases ended

/-- A full page is cut off cleanly if what follows has lesser keys, and then the others
have to be. -/
theorem uncut_step {size : Nat} {rows : List α} {last : α} (positive : 1 ≤ size)
    (listed : Listed key rows) (full : (rows.take size).length = size)
    (ended : (rows.take size).getLast? = some last) :
    Uncut key size rows ↔
      after key (key last) (rows.drop size) = rows.drop size ∧ Uncut key size (rows.drop size) := by
  have stands := getElem?_of_getLast? full ended
  have shifted : ∀ page, (page + 1) * size + size = size + (page * size + size) := by
    intro page
    rw [Nat.succ_mul]
    omega
  constructor
  · intro uncut
    constructor
    · refine List.filter_eq_self.mpr ?_
      intro row member
      cases dropped : rows.drop size with
      | nil =>
        rw [dropped] at member
        cases member
      | cons next rest =>
        have second : rows[0 * size + size]? = some next := by
          have head := congrArg List.head? dropped
          rw [List.head?_drop] at head
          rw [Nat.zero_mul, Nat.zero_add]
          exact head
        have less : key next < key last :=
          uncut 0 last next (by rw [Nat.zero_mul, Nat.zero_add]; exact stands) second
        have inOrder : Listed key (next :: rest) := dropped ▸ listed.sublist (List.drop_sublist _ _)
        rw [dropped] at member
        cases List.mem_cons.mp member with
        | inl same => simpa [same] using less
        | inr later => simpa using lt_of_le_of_lt (List.rel_of_pairwise_cons inOrder later) less
    · intro page first second one two
      rw [List.getElem?_drop] at one two
      have before : size + (page * size + size - 1) = (page + 1) * size + size - 1 := by
        rw [shifted page]
        omega
      exact uncut (page + 1) first second (before ▸ one) (by rw [shifted page]; exact two)
  · rintro ⟨below, uncut⟩ page first second one two
    cases page with
    | zero =>
      rw [Nat.zero_mul, Nat.zero_add] at one two
      obtain rfl := Option.some.inj (stands.symm.trans one)
      have member : second ∈ rows.drop size := by
        have located : (rows.drop size)[0]? = some second := by
          rw [List.getElem?_drop]
          exact two
        exact List.mem_of_getElem? located
      rw [← below] at member
      exact of_decide_eq_true (List.mem_filter.mp member).2
    | succ page =>
      refine uncut page first second ?_ ?_
      · rw [List.getElem?_drop, ← one, shifted page]
        congr 1
        omega
      · rw [List.getElem?_drop, ← two, shifted page]

/-- A page that is not full is the last one. -/
theorem follow_short {τ : Type*} {fetch : Option τ → Option (List α)} {link : α → τ} {size : Nat}
    {cursor : Option τ} {page : List α} (fetched : fetch cursor = some page)
    (short : page.length ≠ size) (fuel : Nat) :
    follow fetch link size (fuel + 1) cursor = some page := by
  rw [follow, fetched, Option.bind_some, if_neg short]

/-- A full page is followed by the one that its last row leads to. -/
theorem follow_full {τ : Type*} {fetch : Option τ → Option (List α)} {link : α → τ} {size : Nat}
    {cursor : Option τ} {page : List α} {last : α} (fetched : fetch cursor = some page)
    (full : page.length = size) (ended : page.getLast? = some last) (fuel : Nat) :
    follow fetch link size (fuel + 1) cursor =
      (follow fetch link size fuel (some (link last))).map (fun later => page ++ later) := by
  rw [follow, fetched, Option.bind_some, if_pos full, ended]

/-- Pages make up the rows if the first page is a start of them and the others are the rest. -/
theorem take_append_iff {size : Nat} {rows pages : List α} :
    rows.take size ++ pages = rows ↔ pages = rows.drop size := by
  constructor
  · intro same
    exact List.append_cancel_left (same.trans (List.take_append_drop size rows).symm)
  · rintro rfl
    exact List.take_append_drop size rows

/-- Following the links from some page on returns rows in order, and all of them exactly if
no page is cut among equal keys.

Induction on the fuel. The rows that are left come after a key, and links to them lead as
far in these rows as in all. -/
theorem follow_rest {τ : Type*} {fetch : Option τ → Option (List α)} {link : α → τ} {size : Nat}
    {rows : List α} (positive : 1 ≤ size)
    (linked : ∀ row ∈ rows, fetch (some (link row)) = some ((after key (key row) rows).take size))
    (fuel : Nat) (cursor : Option τ) (rest : List α)
    (fetched : fetch cursor = some (rest.take size)) (listed : Listed key rest)
    (inside : ∀ row ∈ rest, row ∈ rows ∧ after key (key row) rows = after key (key row) rest)
    (enough : rest.length < fuel) :
    ∃ pages, follow fetch link size fuel cursor = some pages ∧ pages.Sublist rest ∧
      (pages = rest ↔ Uncut key size rest) := by
  induction fuel generalizing cursor rest with
  | zero => omega
  | succ fuel inductionHypothesis =>
    by_cases full : (rest.take size).length = size
    · obtain ⟨last, ended⟩ : ∃ last, (rest.take size).getLast? = some last := by
        have filled : rest.take size ≠ [] := by
          intro empty
          rw [empty, List.length_nil] at full
          omega
        exact ⟨_, List.getLast?_eq_some_getLast filled⟩
      have member : last ∈ rest := List.mem_of_mem_take (List.mem_of_getLast? ended)
      have dropped := after_take key listed ended
      have shorter : (rest.drop size).length + size = rest.length := by
        rw [List.length_take] at full
        rw [List.length_drop]
        omega
      have later : (after key (key last) rest).length ≤ (rest.drop size).length := by
        rw [dropped]
        exact List.length_filter_le _ _
      obtain ⟨pages, followed, sub, exact⟩ := inductionHypothesis (some (link last))
        (after key (key last) rest)
        (by rw [linked last (inside last member).1, (inside last member).2])
        (listed.sublist List.filter_sublist)
        (by
          intro row inAfter
          obtain ⟨inRest, below⟩ := List.mem_filter.mp inAfter
          refine ⟨(inside row inRest).1, ?_⟩
          rw [(inside row inRest).2, after_after key (of_decide_eq_true below)])
        (by omega)
      rw [dropped] at sub exact
      refine ⟨rest.take size ++ pages, ?_, ?_, ?_⟩
      · rw [follow_full fetched full ended, followed, Option.map_some]
      · have whole := (List.Sublist.refl (rest.take size)).append (sub.trans List.filter_sublist)
        rwa [List.take_append_drop] at whole
      · rw [uncut_step key positive listed full ended, take_append_iff]
        constructor
        · intro same
          have clean : after key (key last) (rest.drop size) = rest.drop size :=
            List.filter_sublist.eq_of_length_le (same ▸ sub.length_le)
          rw [clean] at exact
          exact ⟨clean, exact.mp same⟩
        · rintro ⟨clean, uncut⟩
          rw [clean] at exact
          exact exact.mpr uncut
    · have short : rest.length < size := by
        rw [List.length_take] at full
        omega
      have whole : rest.take size = rest := List.take_of_length_le (Nat.le_of_lt short)
      refine ⟨rest.take size, follow_short fetched full fuel, List.take_sublist _ _,
        iff_of_true whole ?_⟩
      intro page first second _ two
      have within := (List.getElem?_eq_some_iff.mp two).1
      omega

section
variable {τ : Type*} {fetch : Option τ → Option (List α)} {link : α → τ} {size : Nat}
  {rows : List α}

/-- Following the links from the first page on returns the rows of a listing up to some
that are skipped, and skips none exactly if no page is cut among equal keys. -/
theorem follow_perm_iff (positive : 1 ≤ size) (listed : Listed key rows)
    (first : fetch none = some (rows.take size))
    (linked : ∀ row ∈ rows, fetch (some (link row)) = some ((after key (key row) rows).take size))
    {fuel : Nat} (enough : rows.length < fuel) :
    ∃ pages, follow fetch link size fuel none = some pages ∧ pages.Sublist rows ∧
      (pages.Perm rows ↔ Uncut key size rows) := by
  obtain ⟨pages, followed, sub, exact⟩ := follow_rest key positive linked fuel none rows first
    listed (fun row member => ⟨member, rfl⟩) enough
  refine ⟨pages, followed, sub, ?_⟩
  rw [← exact]
  constructor
  · exact fun permuted => sub.eq_of_length permuted.length_eq
  · rintro rfl
    exact List.Perm.refl _

/-- If keys differ the pages together are the listing. -/
theorem follow_distinct (positive : 1 ≤ size)
    (descending : rows.Pairwise (fun first second => key second < key first))
    (first : fetch none = some (rows.take size))
    (linked : ∀ row ∈ rows, fetch (some (link row)) = some ((after key (key row) rows).take size))
    {fuel : Nat} (enough : rows.length < fuel) :
    follow fetch link size fuel none = some rows := by
  have listed : Listed key rows := descending.imp (fun less => le_of_lt less)
  obtain ⟨pages, followed, _, exact⟩ := follow_rest key positive linked fuel none rows first
    listed (fun row member => ⟨member, rfl⟩) enough
  have uncut : Uncut key size rows := by
    intro page one two before next
    obtain ⟨within, rfl⟩ := List.getElem?_eq_some_iff.mp before
    obtain ⟨inside, rfl⟩ := List.getElem?_eq_some_iff.mp next
    exact List.pairwise_iff_getElem.mp descending _ _ within inside (by omega)
  rw [followed, exact.mpr uncut]

/-- A first page that fails ends the pages with a failure. -/
theorem follow_failed (failed : fetch none = none) (fuel : Nat) :
    follow fetch link size fuel none = none := by
  cases fuel with
  | zero => rfl
  | succ fuel => rw [follow, failed, Option.bind_none]

end

/-! ## Pages by counts -/

/-- In a listing the rows with a property that earlier rows share come first, so a place
is among them if it is below their number. -/
theorem lt_countP_iff {rows : List α} {row : α} {place : Nat} (has : α → Bool)
    (shared : ∀ first second, Before key first second → has second = true → has first = true)
    (listed : Listed key rows) (located : rows[place]? = some row) :
    place < rows.countP has ↔ has row = true := by
  induction rows generalizing place with
  | nil => cases located
  | cons head tail inductionHypothesis =>
    obtain ⟨first, rest⟩ := List.pairwise_cons.mp listed
    cases held : has head with
    | true =>
      rw [List.countP_cons_of_pos held]
      cases place with
      | zero =>
        obtain rfl : head = row := Option.some.inj located
        simp [held]
      | succ place =>
        rw [Nat.succ_lt_succ_iff]
        exact inductionHypothesis rest located
    | false =>
      have never : ∀ other ∈ head :: tail, has other = false := by
        intro other member
        cases List.mem_cons.mp member with
        | inl same => rw [same, held]
        | inr later =>
          cases other' : has other with
          | false => rfl
          | true =>
            rw [shared head other (first other later) other'] at held
            cases held
      have empty : (head :: tail).countP has = 0 := by
        rw [List.countP_eq_zero]
        intro other member
        simp [never other member]
      rw [empty, never row (List.mem_of_getElem? located)]
      simp

/-- The number of rows with a greater key than this one. -/
def above (rows : List α) (bound : κ) : Nat := rows.countP (fun row => decide (bound < key row))

/-- The number of rows with at least this key. -/
def upTo (rows : List α) (bound : κ) : Nat := rows.countP (fun row => decide (bound ≤ key row))

/-- No page is cut among equal keys exactly if no multiple of the page size lies strictly
between the number of rows before a key and the number up to it. -/
theorem uncut_iff {size : Nat} {rows : List α} (positive : 1 ≤ size) (listed : Listed key rows) :
    Uncut key size rows ↔ ∀ row ∈ rows, ∀ page,
      ¬ (above key rows (key row) < page * size ∧ page * size < upTo key rows (key row)) := by
  have upToPlace : ∀ bound {place row}, rows[place]? = some row →
      (place < upTo key rows bound ↔ bound ≤ key row) := by
    intro bound place row located
    rw [upTo, lt_countP_iff key _ ?_ listed located, decide_eq_true_eq]
    intro first second before has
    exact decide_eq_true ((of_decide_eq_true has).trans before)
  have abovePlace : ∀ bound {place row}, rows[place]? = some row →
      (place < above key rows bound ↔ bound < key row) := by
    intro bound place row located
    rw [above, lt_countP_iff key _ ?_ listed located, decide_eq_true_eq]
    intro first second before has
    exact decide_eq_true ((of_decide_eq_true has).trans_le before)
  constructor
  · rintro uncut row member page ⟨later, cut⟩
    have most : upTo key rows (key row) ≤ rows.length := List.countP_le_length
    cases page with
    | zero => omega
    | succ page =>
      rw [Nat.succ_mul] at later cut
      have inside : page * size + size < rows.length := by omega
      have before : page * size + size - 1 < rows.length := by omega
      have second := List.getElem?_eq_getElem inside
      have first := List.getElem?_eq_getElem before
      have less := uncut page _ _ first second
      have notLater := (upToPlace (key row) second).mp cut
      have within := (abovePlace (key row) first).mpr (lt_of_le_of_lt notLater less)
      omega
  · intro counts page first second one two
    by_contra tied
    have inside : second ∈ rows := List.mem_of_getElem? two
    refine counts second inside (page + 1) ?_
    rw [Nat.succ_mul]
    constructor
    · have notAbove := mt (abovePlace (key second) one).mp tied
      omega
    · exact (upToPlace (key second) two).mpr (le_refl _)

end Library.KeysetPaging
