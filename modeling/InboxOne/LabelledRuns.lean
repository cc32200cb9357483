import Mathlib.Data.List.Induction
import Mathlib.Logic.Function.Basic

/- Runs of a deterministic labelled machine. Every choice of the environment is
   a label, so a schedule is a list of labels and replaying it is a fold. -/
namespace LabelledRuns
variable {State Label : Type*}

def replay (next : State → Label → Option State) (s : State) (labels : List Label) :
    Option State :=
  labels.foldlM next s

@[simp] theorem replay_nil (next : State → Label → Option State) (s : State) :
    replay next s [] = some s := rfl

@[simp] theorem replay_cons (next : State → Label → Option State) (s : State) (l : Label)
    (labels : List Label) :
    replay next s (l :: labels) = (next s l).bind fun t => replay next t labels := rfl

theorem replay_append (next : State → Label → Option State) (s : State)
    (first second : List Label) :
    replay next s (first ++ second) =
      (replay next s first).bind fun t => replay next t second := by
  simp only [replay, List.foldlM_append]
  rfl

theorem replay_snoc {next : State → Label → Option State} {s u : State}
    {labels : List Label} {l : Label} (run : replay next s (labels ++ [l]) = some u) :
    ∃ t, replay next s labels = some t ∧ next t l = some u := by
  rw [replay_append] at run
  obtain ⟨t, before, last⟩ := Option.bind_eq_some_iff.mp run
  rw [replay_cons] at last
  obtain ⟨u', step, done⟩ := Option.bind_eq_some_iff.mp last
  rw [replay_nil, Option.some.injEq] at done
  exact ⟨t, before, done ▸ step⟩

/- The induction rule for a property of a state together with the labels that
   led to it. The step case may use that the prefix is itself a run. -/
theorem replay_history_invariant {next : State → Label → Option State} {s : State}
    (Inv : List Label → State → Prop) (initial : Inv [] s)
    (step : ∀ labels t l u, replay next s labels = some t → Inv labels t →
      next t l = some u → Inv (labels ++ [l]) u)
    {labels : List Label} {t : State} (run : replay next s labels = some t) :
    Inv labels t := by
  induction labels using List.reverseRecOn generalizing t with
  | nil =>
    rw [replay_nil, Option.some.injEq] at run
    exact run ▸ initial
  | append_singleton labels l ih =>
    obtain ⟨m, before, last⟩ := replay_snoc run
    exact step labels m l t before (ih before) last

theorem replay_invariant {next : State → Label → Option State} {s : State}
    (Inv : State → Prop) (initial : Inv s)
    (step : ∀ t l u, Inv t → next t l = some u → Inv u)
    {labels : List Label} {t : State} (run : replay next s labels = some t) : Inv t :=
  replay_history_invariant (fun _ => Inv) initial
    (fun _ m l u _ inv last => step m l u inv last) run

/- A relation between two states that every step respects holds between the ends
   of a run. -/
theorem replay_relates {next : State → Label → Option State}
    (Rel : State → State → Prop) (refl : ∀ s, Rel s s)
    (step : ∀ s t l u, Rel s t → next t l = some u → Rel s u)
    {s t : State} {labels : List Label} (run : replay next s labels = some t) : Rel s t :=
  replay_invariant (Rel s) (refl s) (fun m l u rel last => step s m l u rel last) run

/- What a table of the state holds after one of its cells was written. -/
theorem written_cell {Key Value : Type*} [DecidableEq Key] {table : Key → Option Value}
    {key k : Key} {v x : Value} (found : Function.update table key (some v) k = some x) :
    (k = key ∧ x = v) ∨ (k ≠ key ∧ table k = some x) := by
  by_cases same : k = key
  · subst same
    rw [Function.update_self, Option.some.injEq] at found
    exact Or.inl ⟨rfl, found.symm⟩
  · rw [Function.update_of_ne same] at found
    exact Or.inr ⟨same, found⟩

/- In a log that grew by one record, a record is the new one or lies in the rest. -/
theorem cons_split {Record : Type*} {r a : Record} {log newer older : List Record}
    (eq : r :: log = newer ++ a :: older) :
    (newer = [] ∧ r = a ∧ log = older) ∨ ∃ newer', newer = r :: newer' ∧
      log = newer' ++ a :: older := by
  cases newer with
  | nil =>
    obtain ⟨same, rest⟩ := List.cons.inj eq
    exact Or.inl ⟨rfl, same, rest⟩
  | cons b newer' =>
    obtain ⟨same, rest⟩ := List.cons.inj eq
    exact Or.inr ⟨newer', by rw [same], rest⟩

/- A record that is not among the newest ones of a log lies in what was there before. -/
theorem past_split {Record : Type*} {records log newer older : List Record} {r : Record}
    (split : records ++ log = newer ++ r :: older) (absent : r ∉ records) :
    ∃ later, newer = records ++ later ∧ log = later ++ r :: older := by
  rcases List.append_eq_append_iff.mp split with ⟨later, new, old⟩ | ⟨part, new, old⟩
  · exact ⟨later, new, old⟩
  · cases part with
    | nil => exact ⟨[], by rw [new, List.append_nil, List.append_nil], old.symm⟩
    | cons first part =>
      rw [List.cons_append, List.cons.injEq] at old
      refine absurd ?_ absent
      rw [new, old.1]
      exact List.mem_append_right _ List.mem_cons_self

/-- The machine without the steps that are not allowed. -/
def restrict (allowed : State → Label → Bool) (next : State → Label → Option State) (s : State)
    (l : Label) : Option State :=
  if allowed s l then next s l else none

theorem restrict_step {allowed : State → Label → Bool} {next : State → Label → Option State}
    {s t : State} {l : Label} (step : restrict allowed next s l = some t) :
    allowed s l = true ∧ next s l = some t := by
  unfold restrict at step
  split at step
  · rename_i ok
    exact ⟨ok, step⟩
  · contradiction

end LabelledRuns
