import Mathlib.Algebra.BigOperators.Group.List.Basic
import Mathlib.Algebra.GroupWithZero.Nat

/-!
Rows taken apart by a key. Going through the keys one by one finds every row whose key is
among them, once; the sizes add up and a table of the keys finds each of its entries.
-/
namespace RowsByKey
variable {R K B : Type} [BEq K] [LawfulBEq K]

def rowsOf (key : R → K) (rows : List R) (k : K) : List R := rows.filter fun r => key r == k

theorem rows_of_others {key : R → K} {k other : K} (different : other ≠ k) (rows : List R) :
    rowsOf key (rows.filter fun r => !(key r == k)) other = rowsOf key rows other := by
  unfold rowsOf
  rw [List.filter_filter]
  apply List.filter_congr
  intro r _
  by_cases same : key r = other
  · simp [same, different]
  · simp [same]

theorem rows_of_keys {keys : List K} (distinct : keys.Nodup) (key : R → K) (rows : List R) :
    (keys.flatMap (rowsOf key rows)).Perm (rows.filter fun r => keys.contains (key r)) := by
  induction keys generalizing rows with
  | nil => simp
  | cons k keys ih =>
    obtain ⟨new, rest⟩ := List.nodup_cons.mp distinct
    have others : keys.flatMap (rowsOf key rows) =
        keys.flatMap (rowsOf key (rows.filter fun r => !(key r == k))) := by
      apply List.flatMap_congr
      intro other mem
      have different : other ≠ k := by
        intro same
        rw [same] at mem
        exact new mem
      exact (rows_of_others different rows).symm
    -- the rows of k, and those of the other keys among the rest
    have first : rowsOf key rows k =
        (rows.filter fun r => (k :: keys).contains (key r)).filter fun r => key r == k := by
      unfold rowsOf
      rw [List.filter_filter]
      apply List.filter_congr
      intro r _
      by_cases same : key r = k <;> simp [same]
    have later : ((rows.filter fun r => !(key r == k)).filter fun r => keys.contains (key r)) =
        (rows.filter fun r => (k :: keys).contains (key r)).filter fun r => !(key r == k) := by
      rw [List.filter_filter, List.filter_filter]
      apply List.filter_congr
      intro r _
      by_cases same : key r = k
      · simp [same]
      · simp [same, Bool.and_comm]
    rw [List.flatMap_cons, others, first]
    refine ((ih rest _).append_left _).trans ?_
    rw [later]
    exact List.filter_append_perm _ _

theorem total_of_keys {keys : List K} (distinct : keys.Nodup) (key : R → K) (rows : List R) :
    (keys.map fun k => (rowsOf key rows k).length).sum =
      (rows.filter fun r => keys.contains (key r)).length := by
  rw [← (rows_of_keys distinct key rows).length_eq, List.length_flatMap]

theorem lookup_of_keys (keys : List K) (entry : K → B) (k : K) :
    (keys.map fun k => (k, entry k)).lookup k =
      if keys.contains k then some (entry k) else none := by
  induction keys with
  | nil => rfl
  | cons first keys ih =>
    rw [List.map_cons, List.lookup_cons, List.contains_cons]
    by_cases same : k = first
    · simp [same]
    · rw [beq_false_of_ne same, Bool.false_or]
      exact ih

end RowsByKey
