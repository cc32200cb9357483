import Mathlib.Data.Finset.Max
import Mathlib.Data.List.Nodup

/-!
Ids that are open as long as somebody must still close them. Every open id has one place
that holds it; a place opens an id, closes it or hands it to another place. An id may be
nested in one that was opened before it.
-/
namespace OwnedIds
variable {Id Place : Type*}

/-- The open ids are listed once each, and each is held by exactly one place. -/
structure Exact (holds : Place → Id → Prop) (ids : List Id) : Prop where
  nodup : ids.Nodup
  held : ∀ id, id ∈ ids ↔ ∃ place, holds place id
  unique : ∀ id first second, holds first id → holds second id → first = second

variable {holds holds' : Place → Id → Prop} {ids : List Id} {place : Place} {id : Id}

theorem exact_congr (exact : Exact holds ids) (same : ∀ p x, holds' p x ↔ holds p x) :
    Exact holds' ids := by
  constructor
  · exact exact.nodup
  · intro x
    rw [exact.held x]
    exact exists_congr fun p => (same p x).symm
  · intro x first second one two
    exact exact.unique x first second ((same first x).mp one) ((same second x).mp two)

theorem exact_open (exact : Exact holds ids) (fresh : id ∉ ids)
    (own : ∀ x, holds' place x ↔ holds place x ∨ x = id)
    (others : ∀ p, p ≠ place → ∀ x, holds' p x ↔ holds p x) : Exact holds' (ids ++ [id]) := by
  have unheld : ∀ p, ¬ holds p id := fun p hold => fresh ((exact.held id).mpr ⟨p, hold⟩)
  have holder : ∀ p x, holds' p x ↔ holds p x ∨ (p = place ∧ x = id) := by
    intro p x
    by_cases here : p = place
    · subst here
      simpa using own x
    · simpa [here] using others p here x
  constructor
  · exact List.Nodup.append exact.nodup (List.nodup_singleton id)
      (List.disjoint_singleton.mpr fresh)
  · intro x
    rw [List.mem_append, exact.held x, List.mem_singleton]
    constructor
    · intro cases
      rcases cases with ⟨p, hold⟩ | eq
      · exact ⟨p, (holder p x).mpr (Or.inl hold)⟩
      · exact ⟨place, (holder place x).mpr (Or.inr ⟨rfl, eq⟩)⟩
    · intro found
      obtain ⟨p, hold⟩ := found
      rcases (holder p x).mp hold with old | ⟨_, eq⟩
      · exact Or.inl ⟨p, old⟩
      · exact Or.inr eq
  · intro x first second one two
    rcases (holder first x).mp one with oldOne | ⟨newOne, eqOne⟩ <;>
      rcases (holder second x).mp two with oldTwo | ⟨newTwo, eqTwo⟩
    · exact exact.unique x first second oldOne oldTwo
    · exact absurd oldOne (eqTwo ▸ unheld first)
    · exact absurd oldTwo (eqOne ▸ unheld second)
    · exact newOne.trans newTwo.symm

theorem exact_close [DecidableEq Id] (exact : Exact holds ids) (hold : holds place id)
    (own : ∀ x, holds' place x ↔ holds place x ∧ x ≠ id)
    (others : ∀ p, p ≠ place → ∀ x, holds' p x ↔ holds p x) :
    Exact holds' (ids.filter fun x => x ≠ id) := by
  have holder : ∀ p x, holds' p x ↔ holds p x ∧ x ≠ id := by
    intro p x
    by_cases here : p = place
    · exact here ▸ own x
    · rw [others p here x]
      constructor
      · intro old
        exact ⟨old, fun eq => here (exact.unique id p place (eq ▸ old) hold)⟩
      · exact And.left
  constructor
  · exact exact.nodup.filter _
  · intro x
    rw [List.mem_filter, exact.held x, decide_eq_true_iff]
    constructor
    · intro both
      obtain ⟨⟨p, old⟩, other⟩ := both
      exact ⟨p, (holder p x).mpr ⟨old, other⟩⟩
    · intro found
      obtain ⟨p, new⟩ := found
      obtain ⟨old, other⟩ := (holder p x).mp new
      exact ⟨⟨p, old⟩, other⟩
  · intro x first second one two
    exact exact.unique x first second ((holder first x).mp one).1 ((holder second x).mp two).1

/-- Another place takes an id over. -/
theorem exact_hand {taker : Place} (exact : Exact holds ids) (hold : holds place id)
    (apart : taker ≠ place)
    (own : ∀ x, holds' place x ↔ holds place x ∧ x ≠ id)
    (taken : ∀ x, holds' taker x ↔ holds taker x ∨ x = id)
    (others : ∀ p, p ≠ place → p ≠ taker → ∀ x, holds' p x ↔ holds p x) :
    Exact holds' ids := by
  have holder : ∀ p x, holds' p x ↔ (holds p x ∧ x ≠ id) ∨ (p = taker ∧ x = id) := by
    intro p x
    by_cases giver : p = place
    · subst giver
      simpa [Ne.symm apart] using own x
    have kept : holds p x → x ≠ id :=
      fun old eq => giver (exact.unique id p place (eq ▸ old) hold)
    by_cases here : p = taker
    · subst here
      rw [taken x]
      constructor
      · intro cases
        rcases cases with old | eq
        · exact Or.inl ⟨old, kept old⟩
        · exact Or.inr ⟨rfl, eq⟩
      · intro cases
        rcases cases with ⟨old, _⟩ | ⟨_, eq⟩
        · exact Or.inl old
        · exact Or.inr eq
    · rw [others p giver here x]
      constructor
      · exact fun old => Or.inl ⟨old, kept old⟩
      · intro cases
        rcases cases with ⟨old, _⟩ | ⟨eq, _⟩
        · exact old
        · exact absurd eq here
  constructor
  · exact exact.nodup
  · intro x
    rw [exact.held x]
    constructor
    · intro found
      obtain ⟨p, old⟩ := found
      by_cases same : x = id
      · exact ⟨taker, (holder taker x).mpr (Or.inr ⟨rfl, same⟩)⟩
      · exact ⟨p, (holder p x).mpr (Or.inl ⟨old, same⟩)⟩
    · intro found
      obtain ⟨p, new⟩ := found
      rcases (holder p x).mp new with ⟨old, _⟩ | ⟨_, eq⟩
      · exact ⟨p, old⟩
      · exact ⟨place, eq ▸ hold⟩
  · intro x first second one two
    rcases (holder first x).mp one with ⟨oldOne, otherOne⟩ | ⟨newOne, eqOne⟩ <;>
      rcases (holder second x).mp two with ⟨oldTwo, otherTwo⟩ | ⟨newTwo, eqTwo⟩
    · exact exact.unique x first second oldOne oldTwo
    · exact absurd eqTwo otherOne
    · exact absurd eqOne otherTwo
    · exact newOne.trans newTwo.symm

/-- Among open ids that are nested in smaller ones only, one has nothing nested in it. -/
theorem innermost_exists {ids : List Nat} {parent : Nat → Option Nat} (some_open : ids ≠ [])
    (ordered : ∀ id ∈ ids, ∀ p, parent id = some p → p < id) :
    ∃ id ∈ ids, ∀ other ∈ ids, parent other ≠ some id := by
  have nonempty : ids.toFinset.Nonempty := List.toFinset_nonempty_iff ids |>.mpr some_open
  obtain ⟨last, mem, largest⟩ := Finset.exists_max_image ids.toFinset (fun id => id) nonempty
  rw [List.mem_toFinset] at mem
  refine ⟨last, mem, ?_⟩
  intro other om nested
  have below := ordered other om last nested
  have above := largest other (List.mem_toFinset.mpr om)
  omega

end OwnedIds
