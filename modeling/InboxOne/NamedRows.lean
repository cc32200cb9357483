import Mathlib.Data.List.Nodup

/-!
Rows that are matched with a listing by their names, where several names may denote one
thing. Matching by name agrees with matching by what is denoted exactly when no two names
of one thing meet.
-/
namespace NamedRows
variable {R N I : Type*} {name : R → N} {canon : N → I} {before after : List R} {listed : List N}

/-- The rows after matching: one for each listed name, the earlier one where there is one. -/
structure ByName (name : R → N) (before after : List R) (listed : List N) : Prop where
  names : (after.map name).Nodup
  only : ∀ r ∈ after, name r ∈ listed
  every : ∀ n ∈ listed, ∃ r ∈ after, name r = n
  stays : ∀ r ∈ before, name r ∈ listed → r ∈ after

/-- Of each listed thing only one name occurs, in the listing and among the rows. -/
def Unambiguous (name : R → N) (canon : N → I) (before : List R) (listed : List N) : Prop :=
  ∀ n ∈ listed, (∀ m ∈ listed, canon m = canon n → m = n) ∧
    ∀ r ∈ before, canon (name r) = canon n → name r = n

def OneRowEach (name : R → N) (canon : N → I) (after : List R) (listed : List N) : Prop :=
  ∀ n ∈ listed, ∃ r ∈ after, canon (name r) = canon n ∧
    ∀ s ∈ after, canon (name s) = canon n → s = r

def KeepsListed (name : R → N) (canon : N → I) (before after : List R) (listed : List N) : Prop :=
  ∀ r ∈ before, (∃ n ∈ listed, canon (name r) = canon n) → r ∈ after

theorem one_row_of_unambiguous (by_name : ByName name before after listed)
    (clear : Unambiguous name canon before listed) : OneRowEach name canon after listed := by
  intro n mem
  obtain ⟨r, row, same⟩ := by_name.every n mem
  refine ⟨r, row, by rw [same], ?_⟩
  intro s row' canonical
  have named : name s = n := (clear n mem).1 (name s) (by_name.only s row') canonical
  exact List.inj_on_of_nodup_map by_name.names row' row (named.trans same.symm)

theorem keeps_of_unambiguous (by_name : ByName name before after listed)
    (clear : Unambiguous name canon before listed) :
    KeepsListed name canon before after listed := by
  intro r row found
  obtain ⟨n, mem, canonical⟩ := found
  have named := (clear n mem).2 r row canonical
  exact by_name.stays r row (named ▸ mem)

theorem unambiguous_of_both (by_name : ByName name before after listed)
    (one : OneRowEach name canon after listed)
    (keeps : KeepsListed name canon before after listed) :
    Unambiguous name canon before listed := by
  have unique : ∀ n ∈ listed, ∀ m ∈ listed, canon m = canon n → m = n := by
    intro n mem m mem' canonical
    obtain ⟨r, _, _, only⟩ := one n mem
    obtain ⟨s, row, named⟩ := by_name.every n mem
    obtain ⟨s', row', named'⟩ := by_name.every m mem'
    have first := only s row (by rw [named])
    have second := only s' row' (by rw [named', canonical])
    rw [← named, ← named', first, second]
  intro n mem
  refine ⟨unique n mem, ?_⟩
  intro r row canonical
  have kept := keeps r row ⟨n, mem, canonical⟩
  exact unique n mem (name r) (by_name.only r kept) canonical

end NamedRows
