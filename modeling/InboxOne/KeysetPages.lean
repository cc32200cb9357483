import Mathlib.Data.List.Sort
import Mathlib.Order.Basic

/-!
Keyset pagination over a linear order. A page holds the largest keys under the cursor,
and its cursor is its last key when more rows follow. The table may be another one for
each page: what a walk returns depends only on what stays.
-/
namespace KeysetPages
variable {R K : Type*} [LinearOrder K] (key : R → K)

def Under (cursor : Option K) (k : K) : Prop :=
  match cursor with
  | none => True
  | some c => k < c

instance (cursor : Option K) (k : K) : Decidable (Under cursor k) :=
  match cursor with
  | none => isTrue trivial
  | some c => inferInstanceAs (Decidable (k < c))

def descending (rows : List R) : List R := rows.insertionSort fun a b => key b ≤ key a

/-- The rows under the cursor, largest key first. -/
def candidates (cursor : Option K) (rows : List R) : List R :=
  descending key (rows.filter fun r => decide (Under cursor (key r)))

/-- One row more than the limit is read to see whether a next page exists. -/
def page (limit : Nat) (cursor : Option K) (rows : List R) : List R × Option K :=
  let found := (candidates key cursor rows).take (limit + 1)
  let items := found.take limit
  (items, if limit < found.length then items.getLast?.map key else none)

theorem page_nil (limit : Nat) (cursor : Option K) : page key limit cursor [] = ([], none) := by
  simp [page, candidates, descending]

theorem mem_candidates {cursor : Option K} {rows : List R} {r : R} :
    r ∈ candidates key cursor rows ↔ r ∈ rows ∧ Under cursor (key r) := by
  rw [candidates, descending, List.mem_insertionSort, List.mem_filter, decide_eq_true_eq]

theorem candidates_descending (cursor : Option K) {rows : List R}
    (distinct : (rows.map key).Nodup) :
    (candidates key cursor rows).Pairwise fun a b => key b < key a := by
  have sorted : (candidates key cursor rows).Pairwise fun a b => key b ≤ key a := by
    have total : Std.Total fun a b : R => key b ≤ key a := ⟨fun a b => le_total (key b) (key a)⟩
    have transitive : IsTrans R fun a b => key b ≤ key a := ⟨fun a b c ab bc => le_trans bc ab⟩
    exact List.pairwise_insertionSort _ _
  have nodup : ((candidates key cursor rows).map key).Nodup := by
    have perm : (candidates key cursor rows).Perm
        (rows.filter fun r => decide (Under cursor (key r))) := List.perm_insertionSort _ _
    exact ((perm.map key).nodup_iff).mpr (distinct.sublist (List.filter_sublist.map _))
  rw [List.Nodup, List.pairwise_map] at nodup
  exact (sorted.and nodup).imp fun both => lt_of_le_of_ne both.1 (Ne.symm both.2)

theorem page_items (limit : Nat) (cursor : Option K) (rows : List R) :
    (page key limit cursor rows).1 = (candidates key cursor rows).take limit := by
  simp only [page, List.take_take]
  congr 1
  omega

/- Without a next cursor the page holds every candidate. -/
theorem page_last {limit : Nat} {cursor : Option K} {rows : List R} (positive : 0 < limit)
    (last : (page key limit cursor rows).2 = none) :
    (page key limit cursor rows).1 = candidates key cursor rows := by
  rw [page_items]
  by_cases more : limit < (candidates key cursor rows).length
  · exfalso
    simp only [page, List.length_take, List.take_take] at last
    rw [if_pos (by omega), Option.map_eq_none_iff, List.getLast?_eq_none_iff,
      List.take_eq_nil_iff] at last
    rcases last with zero | empty
    · omega
    · rw [empty, List.length_nil] at more
      omega
  · exact List.take_of_length_le (Nat.le_of_not_lt more)

/- With a next cursor, the candidates left out are those under it. -/
theorem page_next {limit : Nat} {cursor : Option K} {rows : List R} {next : K}
    (distinct : (rows.map key).Nodup) (more : (page key limit cursor rows).2 = some next) :
    (∃ r ∈ (page key limit cursor rows).1, key r = next) ∧
      (∀ r ∈ (page key limit cursor rows).1, next ≤ key r) ∧
      ∀ r ∈ candidates key cursor rows, ¬ key r < next →
        r ∈ (page key limit cursor rows).1 := by
  have sorted := candidates_descending key cursor distinct
  have items := page_items key limit cursor rows
  have last : ((page key limit cursor rows).1.getLast?).map key = some next := by
    simp only [page] at more ⊢
    split at more
    · exact more
    · contradiction
  obtain ⟨r, isLast, same⟩ := Option.map_eq_some_iff.mp last
  obtain ⟨front, shape⟩ := List.getLast?_eq_some_iff.mp isLast
  have whole : candidates key cursor rows =
      front ++ r :: (candidates key cursor rows).drop limit := by
    rw [← List.singleton_append, ← List.append_assoc, ← shape, items, List.take_append_drop]
  rw [whole, List.pairwise_append, List.pairwise_cons] at sorted
  obtain ⟨_, ⟨after, _⟩, before⟩ := sorted
  refine ⟨⟨r, List.mem_of_getLast? isLast, same⟩, ?_, ?_⟩
  · intro x mem
    rw [shape] at mem
    rcases List.mem_append.mp mem with early | single
    · exact same ▸ le_of_lt (before x early r List.mem_cons_self)
    · rw [List.mem_singleton.mp single, same]
  · intro x mem notUnder
    rw [whole] at mem
    rw [shape]
    rcases List.mem_append.mp mem with early | late
    · exact List.mem_append_left _ early
    · rcases List.mem_cons.mp late with here | rest
      · exact List.mem_append_right _ (here ▸ List.mem_cons_self)
      · exact absurd (same ▸ after x rest) notUnder

/-- The pages that follow each other's cursors, each read from the table of its time. -/
inductive Walk (limit : Nat) : Option K → List (List R) → List (List R) → Prop where
  | last {cursor : Option K} {rows : List R}
      (ends : (page key limit cursor rows).2 = none) :
      Walk limit cursor [rows] [(page key limit cursor rows).1]
  | more {cursor : Option K} {rows : List R} {next : K} {tables pages : List (List R)}
      (continues : (page key limit cursor rows).2 = some next)
      (rest : Walk limit (some next) tables pages) :
      Walk limit cursor (rows :: tables) ((page key limit cursor rows).1 :: pages)

theorem walk_last_iff {limit : Nat} {cursor : Option K} {rows : List R}
    {tables pages : List (List R)} (ends : (page key limit cursor rows).2 = none) :
    Walk key limit cursor (rows :: tables) pages ↔
      tables = [] ∧ pages = [(page key limit cursor rows).1] := by
  constructor
  · intro walk
    cases walk with
    | last _ => exact ⟨rfl, rfl⟩
    | more continues _ => rw [ends] at continues; contradiction
  · intro shape
    obtain ⟨noTables, same⟩ := shape
    rw [noTables, same]
    exact Walk.last ends

theorem walk_more_iff {limit : Nat} {cursor : Option K} {rows : List R} {next : K}
    {tables pages : List (List R)} (continues : (page key limit cursor rows).2 = some next) :
    Walk key limit cursor (rows :: tables) pages ↔
      ∃ later, Walk key limit (some next) tables later ∧
        (page key limit cursor rows).1 :: later = pages := by
  constructor
  · intro walk
    cases walk with
    | last ends => rw [ends] at continues; contradiction
    | more other rest =>
      rw [continues, Option.some.injEq] at other
      subst other
      exact ⟨_, rest, rfl⟩
  · intro there
    obtain ⟨later, rest, same⟩ := there
    rw [← same]
    exact Walk.more continues rest

theorem page_under {limit : Nat} {cursor : Option K} {rows : List R} {r : R}
    (mem : r ∈ (page key limit cursor rows).1) : r ∈ rows ∧ Under cursor (key r) := by
  rw [page_items] at mem
  exact (mem_candidates key).mp (List.mem_of_mem_take mem)

/- What a walk returns was in some table, under the cursor, in strictly falling order. -/
theorem walk_descending {limit : Nat} {cursor : Option K} {tables pages : List (List R)}
    (walk : Walk key limit cursor tables pages)
    (distinct : ∀ rows ∈ tables, (rows.map key).Nodup) :
    (pages.flatten.Pairwise fun a b => key b < key a) ∧
      ∀ r ∈ pages.flatten, Under cursor (key r) ∧ ∃ rows ∈ tables, r ∈ rows := by
  induction walk with
  | last ends =>
    rename_i cursor rows
    have sorted := candidates_descending key cursor (distinct rows List.mem_cons_self)
    constructor
    · rw [List.flatten_singleton, page_items]
      exact sorted.sublist (List.take_sublist _ _)
    · intro r mem
      rw [List.flatten_singleton] at mem
      obtain ⟨inside, under⟩ := page_under key mem
      exact ⟨under, rows, List.mem_cons_self, inside⟩
  | more continues rest ih =>
    rename_i cursor rows next tables pages
    have sorted := candidates_descending key cursor (distinct rows List.mem_cons_self)
    obtain ⟨⟨lastRow, lastMem, lastKey⟩, above, _⟩ :=
      page_next key (distinct rows List.mem_cons_self) continues
    obtain ⟨later, laterUnder⟩ := ih fun t mem => distinct t (List.mem_cons_of_mem _ mem)
    have nextUnder := (page_under key lastMem).2
    rw [lastKey] at nextUnder
    constructor
    · rw [List.flatten_cons, List.pairwise_append]
      refine ⟨?_, later, ?_⟩
      · rw [page_items]
        exact sorted.sublist (List.take_sublist _ _)
      · intro a first b second
        exact lt_of_lt_of_le (laterUnder b second).1 (above a first)
    · intro r mem
      rw [List.flatten_cons, List.mem_append] at mem
      rcases mem with first | second
      · obtain ⟨inside, under⟩ := page_under key first
        exact ⟨under, rows, List.mem_cons_self, inside⟩
      · obtain ⟨under, t, tMem, inside⟩ := laterUnder r second
        refine ⟨?_, t, List.mem_cons_of_mem _ tMem, inside⟩
        cases cursor with
        | none => trivial
        | some c => exact lt_trans under nextUnder

/- A key that stays in the table throughout the walk is returned. -/
theorem walk_complete {limit : Nat} {cursor : Option K} {tables pages : List (List R)}
    (positive : 0 < limit) (walk : Walk key limit cursor tables pages)
    (distinct : ∀ rows ∈ tables, (rows.map key).Nodup) {k : K} (under : Under cursor k)
    (stays : ∀ rows ∈ tables, ∃ r ∈ rows, key r = k) : ∃ r ∈ pages.flatten, key r = k := by
  induction walk with
  | last ends =>
    rename_i cursor rows
    obtain ⟨r, mem, same⟩ := stays rows List.mem_cons_self
    refine ⟨r, ?_, same⟩
    rw [List.flatten_singleton, page_last key positive ends]
    exact (mem_candidates key).mpr ⟨mem, same ▸ under⟩
  | more continues rest ih =>
    rename_i cursor rows next tables pages
    obtain ⟨_, _, leftOut⟩ := page_next key (distinct rows List.mem_cons_self) continues
    rw [List.flatten_cons]
    by_cases later : k < next
    · obtain ⟨r, mem, same⟩ := ih (fun t mem => distinct t (List.mem_cons_of_mem _ mem)) later
        fun t mem => stays t (List.mem_cons_of_mem _ mem)
      exact ⟨r, List.mem_append_right _ mem, same⟩
    · obtain ⟨r, mem, same⟩ := stays rows List.mem_cons_self
      have inPage := leftOut r ((mem_candidates key).mpr ⟨mem, same ▸ under⟩) (same ▸ later)
      exact ⟨r, List.mem_append_left _ inPage, same⟩

/- On a table that does not change, each next cursor leaves fewer candidates. -/
theorem walk_ends (limit : Nat) {rows : List R} (distinct : (rows.map key).Nodup) (fuel : Nat) :
    ∀ cursor : Option K, (candidates key cursor rows).length ≤ fuel →
      ∃ n pages, Walk key limit cursor (List.replicate n rows) pages := by
  induction fuel with
  | zero =>
    intro cursor none
    have empty : candidates key cursor rows = [] :=
      List.length_eq_zero_iff.mp (Nat.le_zero.mp none)
    refine ⟨1, _, Walk.last ?_⟩
    simp [page, empty]
  | succ fuel ih =>
    intro cursor few
    cases next : (page key limit cursor rows).2 with
    | none => exact ⟨1, _, Walk.last next⟩
    | some k =>
      obtain ⟨⟨lastRow, lastMem, lastKey⟩, _, _⟩ := page_next key distinct next
      obtain ⟨lastInside, lastUnder⟩ := page_under key lastMem
      have under : ∀ r, Under (some k) (key r) → Under cursor (key r) := by
        intro r less
        cases cursor with
        | none => trivial
        | some c => exact lt_trans less (lastKey ▸ lastUnder)
      have lengths : ∀ c : Option K, (candidates key c rows).length =
          (rows.filter fun r => decide (Under c (key r))).length := by
        intro c
        exact List.length_insertionSort _ _
      have fewer : (candidates key (some k) rows).length <
          (candidates key cursor rows).length := by
        have again : (rows.filter fun r => decide (Under (some k) (key r))) =
            (rows.filter fun r => decide (Under cursor (key r))).filter
              fun r => decide (Under (some k) (key r)) := by
          rw [List.filter_filter]
          apply List.filter_congr
          intro r _
          rw [Bool.eq_iff_iff, Bool.and_eq_true, decide_eq_true_eq, decide_eq_true_eq]
          exact ⟨fun less => ⟨less, under r less⟩, fun both => both.1⟩
        rw [lengths, lengths, again, List.length_filter_lt_length_iff_exists]
        refine ⟨lastRow, List.mem_filter.mpr ⟨lastInside, decide_eq_true lastUnder⟩, ?_⟩
        rw [lastKey, decide_eq_true_eq]
        exact lt_irrefl k
      obtain ⟨n, pages, walk⟩ := ih (some k) (by omega)
      exact ⟨n + 1, _, Walk.more next walk⟩

end KeysetPages
