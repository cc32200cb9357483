import InboxOne.FaultyCalls

/-!
One program from two configurations, or two programs that make the same calls: a relation
of the configurations that both runs keep, with the same answer or the same exception.
-/
namespace PairedRuns
open FaultyCalls
variable {S S' E A B : Type}

/-- From related configurations both sides answer alike or raise alike. -/
def Paired (R : Config S → Config S' → Prop) (x : Program S E A) (y : Program S' E A)
    (Q : A → Config S → Config S' → Prop) (F : Config S → Config S' → Prop) : Prop :=
  ∀ c c', R c c' →
    (∃ a, (x c).1 = .ok a ∧ (y c').1 = .ok a ∧ Q a (x c).2 (y c').2) ∨
      ∃ e, (x c).1 = .error e ∧ (y c').1 = .error e ∧ F (x c).2 (y c').2

section Rules
variable {R F : Config S → Config S' → Prop}
variable {Q : A → Config S → Config S' → Prop}

theorem run_bind_ok {x : Program S E A} {f : A → Program S E B} {c : Config S} {a : A}
    (ok : (x c).1 = .ok a) : (x >>= f) c = f a (x c).2 := by
  show Program.bind x f c = f a (x c).2
  unfold Program.bind
  cases eq : x c with
  | mk r d =>
    rw [eq] at ok
    have same : r = .ok a := ok
    subst same
    rfl

theorem run_bind_error {x : Program S E A} {f : A → Program S E B} {c : Config S} {e : E}
    (fails : (x c).1 = .error e) : (x >>= f) c = (.error e, (x c).2) := by
  show Program.bind x f c = (.error e, (x c).2)
  unfold Program.bind
  cases eq : x c with
  | mk r d =>
    rw [eq] at fails
    have same : r = .error e := fails
    subst same
    rfl

theorem bind_answers {x : Program S E A} {f : A → Program S E B} {c : Config S} {b : B}
    (ok : ((x >>= f) c).1 = .ok b) : ∃ a, (x c).1 = .ok a ∧ (x >>= f) c = f a (x c).2 := by
  cases first : (x c).1 with
  | ok a => exact ⟨a, rfl, run_bind_ok first⟩
  | error e =>
    rw [run_bind_error first] at ok
    contradiction

/- One side answers, so the other does. -/
theorem paired_answer {x : Program S E A} {y : Program S' E A} {c : Config S} {c' : Config S'}
    {a : A} (paired : Paired R x y Q F) (related : R c c') (ok : (y c').1 = .ok a) :
    (x c).1 = .ok a ∧ Q a (x c).2 (y c').2 := by
  rcases paired c c' related with ⟨b, left, right, post⟩ | ⟨e, _, fails, _⟩
  · have same : b = a := Except.ok.inj (right.symm.trans ok)
    exact ⟨same ▸ left, same ▸ post⟩
  · rw [fails] at ok
    contradiction

/- An answer gets through a cleanup that succeeds. -/
theorem run_ensuring (x : Program S E A) (cleanup : Program S E Unit) (c : Config S) (a : A) :
    ((ensuring x cleanup c).1 = .ok a ↔ (x c).1 = .ok a ∧ (cleanup (x c).2).1 = .ok ()) ∧
      (ensuring x cleanup c).2 = (cleanup (x c).2).2 := by
  have attempted : (attempt x c).1 = .ok (x c).1 := rfl
  have after : (attempt x c).2 = (x c).2 := rfl
  unfold ensuring
  rw [run_bind_ok attempted, after]
  cases closed : (cleanup (x c).2).1 with
  | error e =>
    rw [run_bind_error closed]
    exact ⟨by simp, rfl⟩
  | ok u =>
    rw [run_bind_ok closed]
    cases (x c).1 with
    | ok b => exact ⟨by simp [rethrow, Pure.pure, Program.pure], rfl⟩
    | error e => exact ⟨by simp [rethrow, raise], rfl⟩

theorem paired_pure {a : A} (post : ∀ c c', R c c' → Q a c c') :
    Paired R (Pure.pure a : Program S E A) (Pure.pure a : Program S' E A) Q F :=
  fun c c' related => Or.inl ⟨a, rfl, rfl, post c c' related⟩

theorem paired_modify {f : S → S} {g : S' → S'} {T : Unit → Config S → Config S' → Prop}
    (post : ∀ c c', R c c' → T () { c with state := f c.state } { c' with state := g c'.state }) :
    Paired R (modify f : Program S E Unit) (modify g : Program S' E Unit) T F :=
  fun c c' related => Or.inl ⟨(), rfl, rfl, post c c' related⟩

theorem paired_bind {x : Program S E A} {y : Program S' E A} {f : A → Program S E B}
    {g : A → Program S' E B} {T : B → Config S → Config S' → Prop} (first : Paired R x y Q F)
    (second : ∀ a, Paired (Q a) (f a) (g a) T F) : Paired R (x >>= f) (y >>= g) T F := by
  intro c c' related
  rcases first c c' related with ⟨a, ok, ok', post⟩ | ⟨e, fails, fails', post⟩
  · rw [run_bind_ok ok, run_bind_ok ok']
    exact second a _ _ post
  · rw [run_bind_error fails, run_bind_error fails']
    exact Or.inr ⟨e, rfl, rfl, post⟩

/- One invariant carries a loop whose steps agree. -/
theorem paired_fold_each {xs : List A} {f : B → A → Program S E B} {g : B → A → Program S' E B}
    (each : ∀ x ∈ xs, ∀ b, Paired R (f b x) (g b x) (fun _ => R) F) :
    ∀ b, Paired R (foldEach xs b f) (foldEach xs b g) (fun _ => R) F := by
  induction xs with
  | nil => exact fun b => paired_pure fun c c' related => related
  | cons x rest ih =>
    intro b
    apply paired_bind (each x List.mem_cons_self b)
    exact ih fun y mem => each y (List.mem_cons_of_mem _ mem)

/- Calls that meet the same outcome, with effects that agree on related states. -/
theorem paired_call {lost : E} {effect : S → Except E (A × S)} {effect' : S' → Except E (A × S')}
    (outcomes : ∀ c c', R c c' → c.outcomes = c'.outcomes)
    (effects : ∀ c c', R c c' →
      (∃ a s s', effect c.state = .ok (a, s) ∧ effect' c'.state = .ok (a, s') ∧
        Q a ⟨s, c.outcomes.tail⟩ ⟨s', c'.outcomes.tail⟩ ∧
        F ⟨s, c.outcomes.tail⟩ ⟨s', c'.outcomes.tail⟩) ∨
      ∃ e, effect c.state = .error e ∧ effect' c'.state = .error e)
    (failed : ∀ c c', R c c' → F ⟨c.state, c.outcomes.tail⟩ ⟨c'.state, c'.outcomes.tail⟩) :
    Paired R (call lost effect : Program S E A) (call lost effect' : Program S' E A) Q F := by
  intro c c' related
  have same := outcomes c c' related
  unfold call
  rw [← same]
  rcases effects c c' related with ⟨a, s, s', ok, ok', post, lostPost⟩ | ⟨e, fails, fails'⟩
  · rw [ok, ok']
    rw [← same] at post lostPost
    cases c.outcomes.headD .done with
    | done => exact Or.inl ⟨a, rfl, rfl, post⟩
    | failed applied =>
      cases applied with
      | true => exact Or.inr ⟨lost, rfl, rfl, lostPost⟩
      | false => exact Or.inr ⟨lost, rfl, rfl, same ▸ failed c c' related⟩
  · rw [fails, fails']
    have kept := failed c c' related
    rw [← same] at kept
    cases c.outcomes.headD .done with
    | done => exact Or.inr ⟨e, rfl, rfl, kept⟩
    | failed applied =>
      cases applied with
      | true => exact Or.inr ⟨lost, rfl, rfl, kept⟩
      | false => exact Or.inr ⟨lost, rfl, rfl, kept⟩

end Rules

end PairedRuns
