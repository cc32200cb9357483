import Mathlib.Data.List.Perm.Basic
import Mathlib.Order.Lattice

/-!
A queue with at most one merged entry for each key. Requests are joined in a
semilattice, so the entry is a bound for the requests it stands for, whatever their
order. The history is newest first; a queue is exact when everything it handed out was
the join of what had been waiting.
-/
namespace CoalescingQueue
variable {K S T : Type*}

inductive Event (K S T : Type*) where
  | requested (key : K) (scope : S)
  | dropped (key : K)
  | taken (taker : T) (key : K) (scope : S)
  deriving DecidableEq

section Joins
variable [SemilatticeSup S]

/-- The entry after one more request. -/
def join (entry : Option S) (scope : S) : S :=
  match entry with
  | none => scope
  | some earlier => earlier ⊔ scope

def joinAll : List S → Option S
  | [] => none
  | scope :: older => some (join (joinAll older) scope)

theorem joinAll_eq_foldr (scopes : List S) :
    joinAll scopes = scopes.foldr (fun scope entry => some (join entry scope)) none := by
  induction scopes with
  | nil => rfl
  | cons scope older ih => rw [joinAll, ih, List.foldr_cons]

/-- The merged entry does not depend on the order of the requests. -/
theorem joinAll_perm {first second : List S} (perm : first.Perm second) :
    joinAll first = joinAll second := by
  rw [joinAll_eq_foldr, joinAll_eq_foldr]
  apply perm.foldr_eq'
  intro a _ b _ entry
  cases entry with
  | none => exact congrArg some (sup_comm a b)
  | some earlier => exact congrArg some (sup_right_comm earlier a b)

theorem joinAll_nonempty {scopes : List S} {scope : S} (mem : scope ∈ scopes) :
    ∃ entry, joinAll scopes = some entry ∧ scope ≤ entry := by
  induction scopes with
  | nil => simp at mem
  | cons latest older ih =>
    refine ⟨_, rfl, ?_⟩
    cases entry : joinAll older with
    | none =>
      rcases List.mem_cons.mp mem with same | earlier
      · exact le_of_eq same
      · obtain ⟨bound, some, _⟩ := ih earlier
        rw [some] at entry
        contradiction
    | some bound =>
      rcases List.mem_cons.mp mem with same | earlier
      · exact same ▸ le_sup_right
      · obtain ⟨bound', some, below⟩ := ih earlier
        rw [some, Option.some.injEq] at entry
        exact le_trans (entry ▸ below) le_sup_left

end Joins

section Histories
variable [DecidableEq K]

/-- The requests for a key that were neither dropped nor handed out. -/
def waiting (key : K) : List (Event K S T) → List S
  | [] => []
  | .requested k scope :: older => if k = key then scope :: waiting key older else waiting key older
  | .dropped k :: older => if k = key then [] else waiting key older
  | .taken _ k _ :: older => if k = key then [] else waiting key older

variable [SemilatticeSup S]

def Exact : List (Event K S T) → Prop
  | [] => True
  | .taken _ key scope :: older => joinAll (waiting key older) = some scope ∧ Exact older
  | _ :: older => Exact older

/-- No request is lost: it waits, or an entry that covers it was handed out later. -/
theorem waiting_or_taken {newer older : List (Event K S T)} {key : K} {scope : S}
    (exact : Exact (newer ++ .requested key scope :: older)) (kept : .dropped key ∉ newer) :
    scope ∈ waiting key (newer ++ .requested key scope :: older) ∨
      ∃ taker entry, .taken taker key entry ∈ newer ∧ scope ≤ entry := by
  induction newer with
  | nil =>
    left
    simp [waiting]
  | cons event newer ih =>
    have rest : Exact (newer ++ .requested key scope :: older) := by
      cases event with
      | requested => exact exact
      | dropped => exact exact
      | taken => exact exact.2
    rcases ih rest (fun mem => kept (List.mem_cons_of_mem _ mem)) with waits | served
    · cases event with
      | requested k s =>
        left
        by_cases same : k = key
        · simp [waiting, same, waits]
        · simp [waiting, same, waits]
      | dropped k =>
        left
        have other : k ≠ key := fun same => kept (same ▸ List.mem_cons_self)
        simp [waiting, other, waits]
      | taken t k entry =>
        by_cases same : k = key
        · subst same
          obtain ⟨entry', all, below⟩ := joinAll_nonempty waits
          have eq : entry = entry' := Option.some.inj (exact.1.symm.trans all)
          exact Or.inr ⟨t, entry, List.mem_cons_self, eq ▸ below⟩
        · left
          simp [waiting, same, waits]
    · obtain ⟨t, entry, mem, below⟩ := served
      exact Or.inr ⟨t, entry, List.mem_cons_of_mem _ mem, below⟩

end Histories

end CoalescingQueue
