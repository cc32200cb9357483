import InboxOne.FaultyCalls

/-!
Programs whose calls work on a state that others change too: after every command, whether
it was answered or failed, one of their changes may take place.
-/
namespace SharedCalls
open FaultyCalls
variable {S C E A B : Type}

structure Shared (S C : Type) where
  own : S
  elsewhere : List C

def Shared.changed (change : C → S → S) (s : Shared S C) : Shared S C :=
  match s.elsewhere with
  | [] => s
  | d :: later => ⟨change d s.own, later⟩

/-- What runs without leaving room for the others. -/
def within (x : Program S E A) : Program (Shared S C) E A := fun c =>
  let run := x ⟨c.state.own, c.outcomes⟩
  (run.1, ⟨⟨run.2.state, c.state.elsewhere⟩, run.2.outcomes⟩)

def command (change : C → S → S) (x : Program S E A) : Program (Shared S C) E A := do
  let result ← attempt (within x)
  modify (Shared.changed change)
  rethrow result

section Rules
variable {change : C → S → S} {allowed : C → Prop} {P F : S → Prop} {Q : A → S → Prop}

/-- P holds now, and whatever still happens elsewhere is allowed. -/
def Beside (allowed : C → Prop) (P : S → Prop) (c : Config (Shared S C)) : Prop :=
  P c.state.own ∧ ∀ d ∈ c.state.elsewhere, allowed d

/-- No allowed change can end P. -/
def Steady (change : C → S → S) (allowed : C → Prop) (P : S → Prop) : Prop :=
  ∀ d s, allowed d → P s → P (change d s)

theorem beside_changed (steady : Steady change allowed P) {c : Config (Shared S C)}
    (holds : Beside allowed P c) :
    Beside allowed P { c with state := c.state.changed change } := by
  obtain ⟨⟨own, elsewhere⟩, outcomes⟩ := c
  cases elsewhere with
  | nil => exact holds
  | cons d later =>
    have first := holds.2 d List.mem_cons_self
    exact ⟨steady d own first holds.1, fun e mem => holds.2 e (List.mem_cons_of_mem d mem)⟩

theorem meets_within {x : Program S E A}
    (meets : Meets (When false P) x (fun a => When false (Q a)) (When false F)) :
    Meets (Beside allowed P) (within x : Program (Shared S C) E A) (fun a => Beside allowed (Q a))
      (Beside allowed F) := by
  intro c holds
  have here := meets ⟨c.state.own, c.outcomes⟩ ⟨fun quiet => by contradiction, holds.1⟩
  unfold within
  cases run : x ⟨c.state.own, c.outcomes⟩ with
  | mk result d =>
    rw [run] at here
    cases result with
    | ok a => exact ⟨here.2, holds.2⟩
    | error e => exact ⟨here.2, holds.2⟩

/- What a command establishes is still there after the change that follows it. -/
theorem meets_command {x : Program S E A}
    (meets : Meets (When false P) x (fun a => When false (Q a)) (When false F))
    (steady : ∀ a, Steady change allowed (Q a)) (steadyF : Steady change allowed F) :
    Meets (Beside allowed P) (command change x) (fun a => Beside allowed (Q a))
      (Beside allowed F) := by
  apply meets_bind (meets_attempt (meets_within meets))
  intro result
  cases result with
  | ok a =>
    apply meets_bind (Q := fun _ => Beside allowed (Q a))
    · exact meets_modify fun c holds => beside_changed (steady a) holds
    · exact fun _ => meets_pure fun c holds => holds
  | error e =>
    apply meets_bind (Q := fun _ => Beside allowed F)
    · exact meets_modify fun c holds => beside_changed steadyF holds
    · exact fun _ => meets_raise fun c holds => holds

theorem meets_beside_given {x : Program (Shared S C) E A} {K : Prop}
    {Q : A → Config (Shared S C) → Prop} {F : Config (Shared S C) → Prop}
    (meets : K → Meets (Beside allowed P) x Q F) :
    Meets (Beside allowed fun s => K ∧ P s) x Q F :=
  fun c holds => meets holds.1.1 c ⟨holds.1.2, holds.2⟩

end Rules

end SharedCalls
