import Mathlib.Data.List.Basic

/-!
Programs that change a state through calls, each of which may fail: before it takes
effect, or after it and before its answer arrives. The outcomes of the calls still to
come are a list; beyond its end every call is answered. An exception keeps the state it
was raised in.
-/
namespace FaultyCalls
variable {S E A B : Type}

inductive Outcome where
  | done
  | failed (applied : Bool)
  deriving DecidableEq, Repr

structure Config (S : Type) where
  state : S
  outcomes : List Outcome

def Program (S E A : Type) : Type := Config S → Except E A × Config S

namespace Program

def pure (a : A) : Program S E A := fun c => (.ok a, c)

def bind (x : Program S E A) (f : A → Program S E B) : Program S E B := fun c =>
  match x c with
  | (.ok a, c') => f a c'
  | (.error e, c') => (.error e, c')

instance : Monad (Program S E) where
  pure := Program.pure
  bind := Program.bind

end Program

def raise (e : E) : Program S E A := fun c => (.error e, c)

def read (f : S → A) : Program S E A := fun c => (.ok (f c.state), c)

def modify (f : S → S) : Program S E Unit := fun c => (.ok (), { c with state := f c.state })

/-- One call. The other side may refuse it, which leaves the state alone; `lost` is what
the caller sees when the connection breaks. -/
def call (lost : E) (effect : S → Except E (A × S)) : Program S E A := fun c =>
  match c.outcomes.headD .done, effect c.state with
  | .done, .ok (a, s) => (.ok a, ⟨s, c.outcomes.tail⟩)
  | .done, .error e => (.error e, ⟨c.state, c.outcomes.tail⟩)
  | .failed true, .ok (_, s) => (.error lost, ⟨s, c.outcomes.tail⟩)
  | .failed _, _ => (.error lost, ⟨c.state, c.outcomes.tail⟩)

/-- The exception as a value, as a handler sees it. -/
def attempt (x : Program S E A) : Program S E (Except E A) := fun c => (.ok (x c).1, (x c).2)

def rethrow : Except E A → Program S E A
  | .ok a => Pure.pure a
  | .error e => raise e

/-- The cleanup runs in either case; its own exception replaces that of the body. -/
def ensuring (x : Program S E A) (cleanup : Program S E Unit) : Program S E A := do
  let result ← attempt x
  cleanup
  rethrow result

/-- A loop that carries a local variable. -/
def foldEach (xs : List A) (b : B) (f : B → A → Program S E B) : Program S E B :=
  match xs with
  | [] => Pure.pure b
  | x :: rest => do
      let b ← f b x
      foldEach rest b f

theorem bind_assoc {C : Type} (x : Program S E A) (f : A → Program S E B)
    (g : B → Program S E C) : (x >>= f) >>= g = x >>= fun a => f a >>= g := by
  funext c
  show Program.bind (Program.bind x f) g c = Program.bind x (fun a => Program.bind (f a) g) c
  unfold Program.bind
  rcases x c with ⟨e | a, d⟩ <;> rfl

theorem fold_each_append (xs ys : List A) (b : B) (f : B → A → Program S E B) :
    foldEach (xs ++ ys) b f = foldEach xs b f >>= fun b => foldEach ys b f := by
  induction xs generalizing b with
  | nil => rfl
  | cons x rest ih =>
    have next : (fun b => foldEach (rest ++ ys) b f) =
        fun b => foldEach rest b f >>= fun b => foldEach ys b f := funext ih
    rw [List.cons_append, foldEach, foldEach, bind_assoc, next]

theorem fold_each_map {C : Type} (g : C → A) (xs : List C) (b : B) (f : B → A → Program S E B) :
    foldEach (xs.map g) b f = foldEach xs b fun b x => f b (g x) := by
  induction xs generalizing b with
  | nil => rfl
  | cons x rest ih => rw [List.map_cons, foldEach, foldEach, funext ih]

/-- From P the program ends in Q with its answer, or in F with an exception. -/
def Meets (P : Config S → Prop) (x : Program S E A) (Q : A → Config S → Prop)
    (F : Config S → Prop) : Prop :=
  ∀ c, P c → match x c with
    | (.ok a, c') => Q a c'
    | (.error _, c') => F c'

section Rules
variable {P P' : Config S → Prop} {Q Q' : A → Config S → Prop} {F F' : Config S → Prop}

/- What a rule says of one run, where it says the same of both ends. -/
theorem meets_run {x : Program S E A} {c : Config S} (meets : Meets P x (fun _ => F) F)
    (start : P c) : F (x c).2 := by
  have here := meets c start
  cases eq : x c with
  | mk r d =>
    rw [eq] at here
    cases r with
    | ok a => exact here
    | error e => exact here

theorem meets_answer {x : Program S E A} {c : Config S} {a : A} (meets : Meets P x Q F)
    (start : P c) (ok : (x c).1 = .ok a) : Q a (x c).2 := by
  have here := meets c start
  cases eq : x c with
  | mk r d =>
    rw [eq] at here ok
    have same : r = .ok a := ok
    subst same
    exact here

theorem meets_exception {x : Program S E A} {c : Config S} {e : E} (meets : Meets P x Q F)
    (start : P c) (fails : (x c).1 = .error e) : F (x c).2 := by
  have here := meets c start
  cases eq : x c with
  | mk r d =>
    rw [eq] at here fails
    have same : r = .error e := fails
    subst same
    exact here

theorem meets_weaken {x : Program S E A} (meets : Meets P x Q F) (pre : ∀ c, P' c → P c)
    (post : ∀ a c, Q a c → Q' a c) (failed : ∀ c, F c → F' c) : Meets P' x Q' F' := by
  intro c holds
  have here := meets c (pre c holds)
  cases eq : x c with
  | mk r c' =>
    rw [eq] at here
    cases r with
    | ok a => exact post a c' here
    | error e => exact failed c' here

theorem meets_post {x : Program S E A} (meets : Meets P x Q F) (post : ∀ a c, Q a c → Q' a c) :
    Meets P x Q' F :=
  meets_weaken meets (fun _ holds => holds) post fun _ holds => holds

theorem meets_pure {a : A} (post : ∀ c, P c → Q a c) :
    Meets P (Pure.pure a : Program S E A) Q F := post

theorem meets_raise {e : E} (failed : ∀ c, P c → F c) :
    Meets P (raise e : Program S E A) Q F := failed

theorem meets_read {f : S → A} (post : ∀ c, P c → Q (f c.state) c) :
    Meets P (read f : Program S E A) Q F := post

theorem meets_modify {f : S → S} {Q : Unit → Config S → Prop}
    (post : ∀ c, P c → Q () { c with state := f c.state }) :
    Meets P (modify f : Program S E Unit) Q F := post

theorem meets_bind {x : Program S E A} {f : A → Program S E B} {R : B → Config S → Prop}
    (first : Meets P x Q F) (second : ∀ a, Meets (Q a) (f a) R F) : Meets P (x >>= f) R F := by
  intro c holds
  have here := first c holds
  show match Program.bind x f c with
    | (.ok a, c') => R a c'
    | (.error _, c') => F c'
  unfold Program.bind
  cases eq : x c with
  | mk r c' =>
    rw [eq] at here
    cases r with
    | ok a => exact second a c' here
    | error e => exact here

theorem meets_given {x : Program S E A} {K : Prop} (meets : K → Meets P x Q F) :
    Meets (fun c => K ∧ P c) x Q F := fun c holds => meets holds.1 c holds.2

theorem meets_bind_known {x : Program S E A} {a : A} {f : A → Program S E B}
    {R : Config S → Prop} {Q : B → Config S → Prop} (first : Meets P x (fun b c => b = a ∧ R c) F)
    (second : Meets R (f a) Q F) : Meets P (x >>= f) Q F := by
  apply meets_bind first
  intro b c holds
  rw [holds.1]
  exact second c holds.2

theorem meets_discard {x : Program S E A} {R : Config S → Prop} (meets : Meets P x (fun _ => R) F) :
    Meets P (x >>= fun _ => (Pure.pure () : Program S E Unit)) (fun _ => R) F := by
  apply meets_bind meets
  exact fun _ => meets_pure fun _ holds => holds

/- An answered call takes effect; a failed one may or may not have. -/
theorem meets_call {lost : E} {effect : S → Except E (A × S)}
    (answered : ∀ s os a s', P ⟨s, os⟩ → os.headD .done = .done → effect s = .ok (a, s') →
      Q a ⟨s', os.tail⟩)
    (refused : ∀ s os e, P ⟨s, os⟩ → effect s = .error e → F ⟨s, os.tail⟩)
    (dropped : ∀ s os, P ⟨s, os⟩ → os.headD .done ≠ .done → F ⟨s, os.tail⟩)
    (unseen : ∀ s os a s', P ⟨s, os⟩ → os.headD .done = .failed true → effect s = .ok (a, s') →
      F ⟨s', os.tail⟩) : Meets P (call lost effect) Q F := by
  intro c holds
  obtain ⟨s, os⟩ := c
  unfold call
  cases outcome : os.headD .done with
  | done =>
    cases result : effect s with
    | ok answer => exact answered s os answer.1 answer.2 holds outcome result
    | error e => exact refused s os e holds result
  | failed applied =>
    cases applied with
    | false => exact dropped s os holds (by rw [outcome]; decide)
    | true =>
      cases result : effect s with
      | ok answer => exact unseen s os answer.1 answer.2 holds outcome result
      | error e => exact dropped s os holds (by rw [outcome]; decide)

/-- What holds of a result that is still a value. -/
def Either (Q : A → Config S → Prop) (F : Config S → Prop) : Except E A → Config S → Prop
  | .ok a => Q a
  | .error _ => F

theorem meets_attempt {x : Program S E A} (meets : Meets P x Q F) :
    Meets P (attempt x) (Either Q F) F' := by
  intro c holds
  have here := meets c holds
  show Either Q F (x c).1 (x c).2
  cases eq : x c with
  | mk r c' =>
    rw [eq] at here
    cases r with
    | ok a => exact here
    | error e => exact here

/- A handler that goes on alike in both cases. -/
theorem meets_attempt_same {x : Program S E A} {R : Config S → Prop}
    (meets : Meets P x (fun _ => R) R) : Meets P (attempt x) (fun _ => R) F := by
  have handled : Meets P (attempt x) (Either (fun _ => R) R) F := meets_attempt meets
  apply meets_weaken handled
  · exact fun c holds => holds
  · intro result c holds
    cases result with
    | ok _ => exact holds
    | error _ => exact holds
  · exact fun c holds => holds

theorem meets_ensuring {x : Program S E A} {cleanup : Program S E Unit} (body : Meets P x Q F)
    (after : ∀ a, Meets (Q a) cleanup (fun _ => Q' a) F') (failed : Meets F cleanup (fun _ => F') F') :
    Meets P (ensuring x cleanup) Q' F' := by
  apply meets_bind (meets_attempt body)
  intro result
  cases result with
  | ok a => exact meets_bind (after a) fun _ => meets_pure fun _ holds => holds
  | error e => exact meets_bind failed fun _ => meets_raise fun _ holds => holds

theorem meets_both {x : Program S E A} (left : Meets P x Q F) (right : Meets P' x Q' F') :
    Meets (fun c => P c ∧ P' c) x (fun a c => Q a c ∧ Q' a c) (fun c => F c ∧ F' c) := by
  intro c holds
  have first := left c holds.1
  have second := right c holds.2
  cases eq : x c with
  | mk r c' =>
    rw [eq] at first second
    cases r with
    | ok a => exact ⟨first, second⟩
    | error e => exact ⟨first, second⟩

theorem meets_and {I : Type} {x : Program S E A} {R : I → A → Config S → Prop} (meets : Meets P x Q F)
    (each : ∀ i, Meets P x (R i) F) : Meets P x (fun a c => Q a c ∧ ∀ i, R i a c) F := by
  intro c holds
  have here := meets c holds
  have all := fun i => each i c holds
  cases eq : x c with
  | mk r c' =>
    rw [eq] at here
    simp only [eq] at all
    cases r with
    | ok a => exact ⟨here, all⟩
    | error e => exact here

/- One invariant carries a loop. -/
theorem meets_fold_each {I : Config S → Prop} {xs : List A} {f : B → A → Program S E B}
    (each : ∀ x ∈ xs, ∀ b, Meets I (f b x) (fun _ => I) F) :
    ∀ b, Meets I (foldEach xs b f) (fun _ => I) F := by
  induction xs with
  | nil =>
    intro b
    exact meets_pure fun _ holds => holds
  | cons x rest ih =>
    intro b
    apply meets_bind (each x List.mem_cons_self b)
    exact ih fun y mem => each y (List.mem_cons_of_mem _ mem)

/- Where every step of a loop keeps I, the step of one element establishes M and every
   step keeps M from then on, the loop establishes M. -/
theorem meets_fold_each_mem {I M : Config S → Prop} {xs : List A} {f : B → A → Program S E B}
    {y : A} (mem : y ∈ xs) (each : ∀ x ∈ xs, ∀ b, Meets I (f b x) (fun _ => I) F)
    (here : ∀ b, Meets I (f b y) (fun _ c => I c ∧ M c) F)
    (later : ∀ x ∈ xs, ∀ b, Meets (fun c => I c ∧ M c) (f b x) (fun _ c => I c ∧ M c) F) :
    ∀ b, Meets I (foldEach xs b f) (fun _ c => I c ∧ M c) F := by
  induction xs with
  | nil => contradiction
  | cons x rest ih =>
    intro b
    have others : ∀ z ∈ rest, ∀ b, Meets (fun c => I c ∧ M c) (f b z) (fun _ c => I c ∧ M c) F :=
      fun z zMem => later z (List.mem_cons_of_mem _ zMem)
    rcases List.mem_cons.mp mem with head | tail
    · subst head
      exact meets_bind (here b) (meets_fold_each others)
    · apply meets_bind (each x List.mem_cons_self b)
      exact ih tail (fun z zMem => each z (List.mem_cons_of_mem _ zMem)) others

/- An invariant that grows with the elements the loop has been through. -/
theorem meets_fold_each_done {I : List A → Config S → Prop} {xs : List A}
    {f : B → A → Program S E B}
    (each : ∀ x ∈ xs, ∀ past b, Meets (I past) (f b x) (fun _ => I (x :: past)) F) :
    ∀ past b, Meets (I past) (foldEach xs b f) (fun _ => I (xs.reverse ++ past)) F := by
  induction xs with
  | nil =>
    intro past b
    exact meets_pure fun _ holds => holds
  | cons x rest ih =>
    intro past b
    rw [List.reverse_cons, List.append_assoc, List.singleton_append]
    apply meets_bind (each x List.mem_cons_self past b)
    exact ih (fun y mem => each y (List.mem_cons_of_mem _ mem)) (x :: past)

end Rules

/-- A predicate of the state; with `quiet` also that no further call fails. -/
def When (quiet : Bool) (P : S → Prop) (c : Config S) : Prop :=
  (quiet = true → ∀ o ∈ c.outcomes, o = .done) ∧ P c.state

theorem meets_call_when {quiet : Bool} {P F : S → Prop} {Q : A → S → Prop} {lost : E}
    {effect : S → Except E (A × S)}
    (answered : ∀ s a s', P s → effect s = .ok (a, s') → Q a s' ∧ (quiet = false → F s'))
    (refused : ∀ s e, P s → effect s = .error e → F s)
    (failed : quiet = false → ∀ s, P s → F s) :
    Meets (When quiet P) (call lost effect) (fun a => When quiet (Q a)) (When quiet F) := by
  have rest : ∀ s os, When quiet P ⟨s, os⟩ → quiet = true → ∀ o ∈ os.tail, o = .done :=
    fun s os holds still o mem => holds.1 still o (List.mem_of_mem_tail mem)
  have loud : ∀ s os, When quiet P ⟨s, os⟩ → os.headD .done ≠ .done → quiet = false := by
    intro s os holds fails
    cases quiet with
    | false => rfl
    | true =>
      cases os with
      | nil => exact absurd rfl fails
      | cons o os => exact absurd (holds.1 rfl o List.mem_cons_self) fails
  apply meets_call
  · intro s os a s' holds _ ok
    exact ⟨rest s os holds, (answered s a s' holds.2 ok).1⟩
  · intro s os e holds error
    exact ⟨rest s os holds, refused s e holds.2 error⟩
  · intro s os holds fails
    exact ⟨rest s os holds, failed (loud s os holds fails) s holds.2⟩
  · intro s os a s' holds fails ok
    have unsteady := loud s os holds (by rw [fails]; nofun)
    exact ⟨rest s os holds, (answered s a s' holds.2 ok).2 unsteady⟩

theorem meets_modify_when {quiet : Bool} {P : S → Prop} {Q : Unit → S → Prop}
    {F : Config S → Prop} {f : S → S} (post : ∀ s, P s → Q () (f s)) :
    Meets (When quiet P) (modify f : Program S E Unit) (fun a => When quiet (Q a)) F := by
  apply meets_modify
  intro c holds
  exact ⟨holds.1, post c.state holds.2⟩

/-- The outcomes that a program leaves were there when it began. -/
def Consumes (x : Program S E A) : Prop := ∀ c, ∀ o ∈ (x c).2.outcomes, o ∈ c.outcomes

theorem consumes_pure (a : A) : Consumes (Pure.pure a : Program S E A) := fun _ _ mem => mem

theorem consumes_modify (f : S → S) : Consumes (modify f : Program S E Unit) := fun _ _ mem => mem

theorem call_outcomes (lost : E) (effect : S → Except E (A × S)) (c : Config S) :
    (call lost effect c).2.outcomes = c.outcomes.tail := by
  unfold call
  split <;> rfl

theorem consumes_call (lost : E) (effect : S → Except E (A × S)) : Consumes (call lost effect) := by
  intro c o mem
  rw [call_outcomes] at mem
  exact List.mem_of_mem_tail mem

theorem consumes_bind {x : Program S E A} {f : A → Program S E B} (first : Consumes x)
    (second : ∀ a, Consumes (f a)) : Consumes (x >>= f) := by
  intro c o mem
  have before := first c
  have bound : (x >>= f) c = Program.bind x f c := rfl
  rw [bound] at mem
  unfold Program.bind at mem
  cases eq : x c with
  | mk r d =>
    rw [eq] at before mem
    cases r with
    | ok a => exact before o (second a d o mem)
    | error e => exact before o mem

/-- A predicate of the state, while every outcome still to come is an allowed one. -/
def Amid (allowed : Outcome → Prop) (P : S → Prop) (c : Config S) : Prop :=
  (∀ o ∈ c.outcomes, allowed o) ∧ P c.state

section Allowed
variable {allowed : Outcome → Prop} {P F : S → Prop}

/- A rule for any outcome, or for none but `done`, among the allowed ones. -/
theorem meets_amid (quiet : Bool) {Q : A → S → Prop} {x : Program S E A} (consumes : Consumes x)
    (still : quiet = true → ∀ o, allowed o → o = .done)
    (meets : Meets (When quiet P) x (fun a => When quiet (Q a)) (When quiet F)) :
    Meets (Amid allowed P) x (fun a => Amid allowed (Q a)) (Amid allowed F) := by
  intro c holds
  have left := fun o mem => holds.1 o (consumes c o mem)
  have here := meets c ⟨fun done o mem => still done o (holds.1 o mem), holds.2⟩
  cases eq : x c with
  | mk r d =>
    rw [eq] at left here
    cases r with
    | ok a => exact ⟨left, here.2⟩
    | error e => exact ⟨left, here.2⟩

/- A call that fails without effect: what P says is still so. -/
theorem meets_call_amid {Q : A → S → Prop} {lost : E} {effect : S → Except E (A × S)}
    (idle : ∀ o, allowed o → o ≠ .failed true)
    (answered : Meets (When true P) (call lost effect) (fun a => When true (Q a)) (When true F))
    (failed : ∀ o, allowed o → o ≠ .done → ∀ s, P s → F s) :
    Meets (Amid allowed P) (call lost effect) (fun a => Amid allowed (Q a)) (Amid allowed F) := by
  rintro ⟨s, outcomes⟩ ⟨may, holds⟩
  -- as the call goes when its outcome is `done`
  have here := answered ⟨s, []⟩ ⟨fun _ o mem => by contradiction, holds⟩
  unfold call at here ⊢
  cases outcomes with
  | nil =>
    simp only [List.headD_nil] at here ⊢
    cases result : effect s with
    | ok answer => rw [result] at here; exact ⟨may, here.2⟩
    | error e => rw [result] at here; exact ⟨may, here.2⟩
  | cons o later =>
    have rest : ∀ o' ∈ later, allowed o' := fun o' mem => may o' (List.mem_cons_of_mem o mem)
    have this := may o List.mem_cons_self
    simp only [List.headD_nil, List.headD_cons, List.tail_cons] at here ⊢
    cases o with
    | done =>
      cases result : effect s with
      | ok answer => rw [result] at here; exact ⟨rest, here.2⟩
      | error e => rw [result] at here; exact ⟨rest, here.2⟩
    | failed applied =>
      cases applied with
      | true => exact absurd rfl (idle _ this)
      | false => exact ⟨rest, failed _ this (by decide) s holds⟩

end Allowed

end FaultyCalls
