import Mathlib.Data.List.Sort

/- Walking a sorted list in batches: what is left after a batch is exactly what lies
   beyond the last key of the batch. -/
namespace SortedBatches
variable {α : Type*}

theorem take_before_drop {r : α → α → Prop} {l : List α} (sorted : l.Pairwise r) (n : Nat)
    {a b : α} (ha : a ∈ l.take n) (hb : b ∈ l.drop n) : r a b := by
  rw [← List.take_append_drop n l] at sorted
  exact (List.pairwise_append.mp sorted).2.2 a ha b hb

theorem take_upto_last {r : α → α → Prop} {l : List α} (sorted : l.Pairwise r) {a last : α}
    (mem : a ∈ l) (isLast : l.getLast? = some last) : a = last ∨ r a last := by
  obtain ⟨init, rfl⟩ := List.getLast?_eq_some_iff.mp isLast
  rcases List.mem_append.mp mem with early | late
  · exact Or.inr ((List.pairwise_append.mp sorted).2.2 a early last (by simp))
  · exact Or.inl (List.mem_singleton.mp late)

theorem take_last_exists {l : List α} {n : Nat} (positive : 0 < n) (nonempty : l ≠ []) :
    ∃ last, (l.take n).getLast? = some last ∧ last ∈ l := by
  have ne : l.take n ≠ [] := by
    intro empty
    rcases List.take_eq_nil_iff.mp empty with zero | nil
    · omega
    · exact nonempty nil
  refine ⟨(l.take n).getLast ne, List.getLast?_eq_getLast_of_ne_nil ne, ?_⟩
  exact List.mem_of_mem_take (List.getLast_mem ne)

/- The batches of an ascending list of numbers are the sections above the last number
   handled so far. -/
theorem drop_eq_filter_above {l : List Nat} (ascending : l.Pairwise (· < ·)) {n last : Nat}
    (isLast : (l.take n).getLast? = some last) :
    l.drop n = l.filter fun x => last < x := by
  have early : (l.take n).filter (fun x => decide (last < x)) = [] := by
    rw [List.filter_eq_nil_iff]
    intro x mem above
    have above : last < x := by simpa using above
    rcases take_upto_last (ascending.sublist (List.take_sublist n l)) mem isLast with eq | lt
    · omega
    · omega
  have late : (l.drop n).filter (fun x => decide (last < x)) = l.drop n := by
    rw [List.filter_eq_self]
    intro x mem
    have inBatch : last ∈ l.take n := List.mem_of_getLast? isLast
    simpa using take_before_drop ascending n inBatch mem
  calc l.drop n = (l.take n).filter (fun x => decide (last < x)) ++
        (l.drop n).filter (fun x => decide (last < x)) := by rw [early, late, List.nil_append]
    _ = l.filter fun x => last < x := by rw [← List.filter_append, List.take_append_drop]

/- Of what lies above a position, a batch is the section up to its last number. -/
theorem batch_section {all new : List Nat} {seen last n : Nat} (ascending : all.Pairwise (· < ·))
    (above : new = all.filter fun x => seen < x) (isLast : (new.take n).getLast? = some last) :
    (∀ x, x ∈ new.take n ↔ x ∈ all ∧ seen < x ∧ x ≤ last) ∧
      new.drop n = all.filter fun x => last < x := by
  have sorted : new.Pairwise (· < ·) := above ▸ ascending.filter _
  have mem_new : ∀ x, x ∈ new ↔ x ∈ all ∧ seen < x := by
    intro x
    rw [above, List.mem_filter, decide_eq_true_eq]
  have lastNew := (mem_new last).mp (List.mem_of_mem_take (List.mem_of_getLast? isLast))
  have rest := drop_eq_filter_above sorted isLast
  constructor
  · intro x
    constructor
    · intro mem
      obtain ⟨inside, beyond⟩ := (mem_new x).mp (List.mem_of_mem_take mem)
      rcases take_upto_last (sorted.sublist (List.take_sublist _ _)) mem isLast with eq | lt
      · exact ⟨inside, beyond, Nat.le_of_eq eq⟩
      · exact ⟨inside, beyond, Nat.le_of_lt lt⟩
    · intro both
      obtain ⟨inside, beyond, upto⟩ := both
      have mem := (mem_new x).mpr ⟨inside, beyond⟩
      rw [← List.take_append_drop n new, rest, List.mem_append, List.mem_filter,
        decide_eq_true_eq] at mem
      rcases mem with batch | later
      · exact batch
      · omega
  · rw [rest, above, List.filter_filter]
    congr 1
    funext x
    simp only [← Bool.decide_and, decide_eq_decide]
    omega

/- A page of the first n rows of a sorted list, with the key of its last row as the new
   position, misses no row up to that position. -/
theorem take_complete_upto_last {key : α → Nat} {l : List α}
    (sorted : l.Pairwise fun a b => key a ≤ key b)
    (distinct : ∀ a ∈ l, ∀ b ∈ l, key a = key b → a = b) {n : Nat} {last a : α}
    (isLast : (l.take n).getLast? = some last) (mem : a ∈ l) (upto : key a ≤ key last) :
    a ∈ l.take n := by
  by_contra missing
  have later : a ∈ l.drop n := by
    rw [← List.take_append_drop n l] at mem
    exact (List.mem_append.mp mem).resolve_left missing
  have inBatch : last ∈ l.take n := List.mem_of_getLast? isLast
  have order := take_before_drop sorted n inBatch later
  have same := distinct a (List.mem_of_mem_drop later) last (List.mem_of_mem_take inBatch)
    (by omega)
  exact missing (same ▸ inBatch)

theorem take_below_last {key : α → Nat} {l : List α}
    (sorted : l.Pairwise fun a b => key a ≤ key b) {n : Nat} {last a : α}
    (isLast : (l.take n).getLast? = some last) (mem : a ∈ l.take n) : key a ≤ key last := by
  rcases take_upto_last (sorted.sublist (List.take_sublist n l)) mem isLast with eq | le
  · rw [eq]
  · exact le

theorem sort_by_key (key : α → Nat) (l : List α) :
    (l.insertionSort fun a b => key a ≤ key b).Pairwise fun a b => key a ≤ key b := by
  have total : Std.Total fun a b : α => key a ≤ key b := ⟨fun a b => Nat.le_total _ _⟩
  have trans : IsTrans α fun a b => key a ≤ key b := ⟨fun _ _ _ => Nat.le_trans⟩
  exact List.pairwise_insertionSort (fun a b : α => key a ≤ key b) l

end SortedBatches
