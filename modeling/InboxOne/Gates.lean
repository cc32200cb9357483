import Mathlib.Data.List.Nodup
import Mathlib.Data.List.TakeWhile
import Mathlib.Logic.Function.Basic
import Mathlib.Logic.Relation
import Mathlib.Order.WellFounded

/- Gates that let a bounded number of tasks in, first come first served, and tasks that
   pass through several of them in ascending order. -/
namespace Gates

section Gate
variable {Task : Type*}

/-- Who came and has not left, in the order of arrival; the first ones are inside. -/
structure Gate (Task : Type*) where
  capacity : Nat
  queue : List Task

def Gate.inside (g : Gate Task) : List Task := g.queue.take g.capacity

def Gate.enter (g : Gate Task) (t : Task) : Gate Task := { g with queue := g.queue ++ [t] }

variable {g : Gate Task} {t t' : Task}

theorem mem_enter {x : Task} : x ∈ (g.enter t).queue ↔ x = t ∨ x ∈ g.queue := by
  simp [Gate.enter, or_comm]

theorem enter_once (once : g.queue.Nodup) (new : t ∉ g.queue) : (g.enter t).queue.Nodup :=
  once.append (List.nodup_singleton t) (List.disjoint_singleton.mpr new)

theorem inside_bounded (g : Gate Task) : g.inside.length ≤ g.capacity := List.length_take_le _ _

theorem inside_queue (inside : t ∈ g.inside) : t ∈ g.queue := List.mem_of_mem_take inside

/- Whoever waits finds the gate full. -/
theorem someone_inside (room : 0 < g.capacity) (present : t ∈ g.queue) : ∃ x, x ∈ g.inside := by
  obtain ⟨x, rest, eq⟩ := List.exists_cons_of_ne_nil (List.ne_nil_of_mem present)
  refine ⟨x, ?_⟩
  unfold Gate.inside
  rw [eq]
  obtain ⟨n, full⟩ := Nat.exists_eq_succ_of_ne_zero (Nat.ne_of_gt room)
  rw [full]
  exact List.mem_cons_self

variable [DecidableEq Task]

def Gate.leave (g : Gate Task) (t : Task) : Gate Task := { g with queue := g.queue.erase t }

/-- Who came before t. -/
def Gate.ahead (g : Gate Task) (t : Task) : List Task := g.queue.takeWhile fun x => x ≠ t

theorem mem_leave (once : g.queue.Nodup) {x : Task} :
    x ∈ (g.leave t).queue ↔ x ≠ t ∧ x ∈ g.queue := once.mem_erase_iff

theorem leave_once (once : g.queue.Nodup) : (g.leave t).queue.Nodup := once.erase t

/- Inside are those who have fewer tasks ahead than the gate has room for. -/
theorem inside_iff (present : t ∈ g.queue) :
    t ∈ g.inside ↔ (g.ahead t).length < g.capacity := by
  obtain ⟨capacity, queue⟩ := g
  simp only [Gate.inside, Gate.ahead] at present ⊢
  induction queue generalizing capacity with
  | nil => simp at present
  | cons x rest ih =>
    cases capacity with
    | zero => simp
    | succ room =>
      by_cases first : x = t
      · simp [first]
      · have later : t ∈ rest := by
          rcases List.mem_cons.mp present with same | later
          · exact absurd same.symm first
          · exact later
        simp [first, Ne.symm first, ih room later]

theorem ahead_enter (present : t ∈ g.queue) : (g.enter t').ahead t = g.ahead t := by
  obtain ⟨capacity, queue⟩ := g
  simp only [Gate.enter, Gate.ahead] at present ⊢
  induction queue with
  | nil => simp at present
  | cons x rest ih =>
    by_cases first : x = t
    · simp [first]
    · have later : t ∈ rest := by
        rcases List.mem_cons.mp present with same | later
        · exact absurd same.symm first
        · exact later
      simp only [List.cons_append, List.takeWhile_cons, decide_eq_true_eq, if_pos first, ih later]

theorem ahead_leave (other : t' ≠ t) : (g.leave t').ahead t = (g.ahead t).erase t' := by
  obtain ⟨capacity, queue⟩ := g
  simp only [Gate.leave, Gate.ahead]
  induction queue with
  | nil => rfl
  | cons x rest ih =>
    by_cases gone : x = t'
    · subst gone
      simp [other]
    · by_cases own : x = t
      · subst own
        simp [Ne.symm other]
      · simpa [gone, own] using ih

theorem leave_ahead_sublist (other : t' ≠ t) : ((g.leave t').ahead t).Sublist (g.ahead t) := by
  rw [ahead_leave other]
  exact List.erase_sublist

theorem stays_inside_enter (inside : t ∈ g.inside) : t ∈ (g.enter t').inside := by
  have present := inside_queue inside
  rw [inside_iff (mem_enter.mpr (Or.inr present)), ahead_enter present]
  exact (inside_iff present).mp inside

theorem stays_inside_leave (once : g.queue.Nodup) (other : t' ≠ t) (inside : t ∈ g.inside) :
    t ∈ (g.leave t').inside := by
  have present := inside_queue inside
  rw [inside_iff ((mem_leave once).mpr ⟨other.symm, present⟩)]
  exact Nat.lt_of_le_of_lt (leave_ahead_sublist other).length_le ((inside_iff present).mp inside)

end Gate

section Blocking
variable {Task Resource Rank : Type*} [Preorder Rank] [WellFoundedGT Rank]
variable (waits : Task → Option Resource) (holds : Task → Resource → Prop)

/-- t waits for something that t' has. -/
def Blocks (t t' : Task) : Prop := ∃ r, waits t = some r ∧ holds t' r

/-- Tasks that take resources in ascending order wait, in the end, for one that does not
    wait. -/
theorem blocked_by_running (rank : Resource → Rank)
    (held : ∀ t r, waits t = some r → ∃ t', holds t' r)
    (ascending : ∀ t r q, waits t = some r → holds t q → rank q < rank r)
    {t : Task} {r : Resource} (waiting : waits t = some r) :
    ∃ t', Relation.TransGen (Blocks waits holds) t t' ∧ waits t' = none := by
  induction place : rank r using WellFoundedGT.induction generalizing t r with
  | ind place ih =>
    obtain ⟨holder, has⟩ := held t r waiting
    have blocked : Blocks waits holds t holder := ⟨r, waiting, has⟩
    cases next : waits holder with
    | none => exact ⟨holder, .single blocked, next⟩
    | some q =>
      have higher := ascending holder q r next has
      obtain ⟨last, chain, runs⟩ := ih (rank q) (by rw [← place]; exact higher) next rfl
      exact ⟨last, .head blocked chain, runs⟩

end Blocking

section Hall
variable {Task Resource Rank : Type*}

/-- How far a task is with its resources: it has none, or asks for one more, or works with
    those it has. -/
inductive Stage (Resource : Type*) where
  | outside
  | asking (held : List Resource) (next : Resource)
  | holding (held : List Resource)

def Stage.has : Stage Resource → List Resource
  | .outside => []
  | .asking held _ => held
  | .holding held => held

def Stage.claims : Stage Resource → List Resource
  | .outside => []
  | .asking held next => held ++ [next]
  | .holding held => held

theorem has_claimed {s : Stage Resource} {r : Resource} (has : r ∈ s.has) : r ∈ s.claims := by
  cases s with
  | outside => exact has
  | asking held next => exact List.mem_append_left _ has
  | holding held => exact has

/-- Tasks and the gates of the resources they pass through. -/
structure Hall (Task Resource : Type*) where
  gates : Resource → Gate Task
  stage : Task → Stage Resource

def Hall.holds (h : Hall Task Resource) (t : Task) (r : Resource) : Prop :=
  t ∈ (h.gates r).inside

variable [Preorder Rank] (rank : Resource → Rank)

/-- What a task may do next: it is let in only when the gate has room for it, and it asks
    for resources in ascending order. -/
inductive Hall.Legal (h : Hall Task Resource) (t : Task) : Stage Resource → Stage Resource → Prop
  | stays (s : Stage Resource) : Legal h t s s
  | asks (r : Resource) : Legal h t .outside (.asking [] r)
  | admitted {held : List Resource} {r : Resource} (inside : t ∈ (h.gates r).inside) :
      Legal h t (.asking held r) (.holding (held ++ [r]))
  | further {held : List Resource} {r r' : Resource} (inside : t ∈ (h.gates r).inside)
      (higher : ∀ q ∈ held ++ [r], rank q < rank r') :
      Legal h t (.asking held r) (.asking (held ++ [r]) r')
  | leaves (s : Stage Resource) : Legal h t s .outside

structure Hall.Orderly (h : Hall Task Resource) : Prop where
  once : ∀ r, (h.gates r).queue.Nodup
  queued : ∀ r t, t ∈ (h.gates r).queue ↔ r ∈ (h.stage t).claims
  admitted : ∀ r t, r ∈ (h.stage t).has → t ∈ (h.gates r).inside
  ascending : ∀ t held r, h.stage t = .asking held r → ∀ q ∈ held, rank q < rank r

variable {rank} {h : Hall Task Resource} {t : Task}

/-- No more tasks have a resource than its gate has room for. -/
theorem has_bounded (orderly : h.Orderly rank) (r : Resource) {tasks : List Task}
    (once : tasks.Nodup) (owners : ∀ t ∈ tasks, r ∈ (h.stage t).has) :
    tasks.length ≤ (h.gates r).capacity := by
  have inside : tasks ⊆ (h.gates r).inside := fun t mem => orderly.admitted r t (owners t mem)
  exact (once.length_le_of_subset inside).trans (inside_bounded _)

variable [DecidableEq Task]

/-- The resource whose gate keeps the task waiting. -/
def Hall.waits (h : Hall Task Resource) (t : Task) : Option Resource :=
  match h.stage t with
  | .asking _ r => if t ∈ (h.gates r).inside then none else some r
  | _ => none

/-- Whoever is kept waiting waits, in the end, for a task that can go on. -/
theorem never_deadlocked [WellFoundedGT Rank] (orderly : h.Orderly rank)
    (room : ∀ r, 0 < (h.gates r).capacity) {r : Resource} (waiting : h.waits t = some r) :
    ∃ t', Relation.TransGen (Blocks h.waits h.holds) t t' ∧ h.waits t' = none := by
  have asks : ∀ t r, h.waits t = some r →
      ∃ held, h.stage t = .asking held r ∧ t ∉ (h.gates r).inside := by
    intro t r waits
    unfold Hall.waits at waits
    split at waits
    · rename_i held q stage
      split at waits
      · contradiction
      · rename_i outside
        cases waits
        exact ⟨held, stage, outside⟩
    · contradiction
  have claimed : ∀ t r held, h.stage t = .asking held r → t ∈ (h.gates r).queue := by
    intro t r held stage
    rw [orderly.queued, stage]
    exact List.mem_append_right _ List.mem_cons_self
  refine blocked_by_running h.waits h.holds rank ?_ ?_ waiting
  · intro t r waits
    obtain ⟨held, stage, _⟩ := asks t r waits
    exact someone_inside (room r) (claimed t r held stage)
  · intro t r q waits holds
    obtain ⟨held, stage, outside⟩ := asks t r waits
    have mem := (orderly.queued q t).mp (inside_queue holds)
    rw [stage] at mem
    rcases List.mem_append.mp mem with has | same
    · exact orderly.ascending t held r stage q has
    · rw [List.mem_singleton.mp same] at holds
      exact absurd holds outside

variable [DecidableEq Resource] {next : Stage Resource}

/-- A task goes on to another stage; it enters and leaves the gates accordingly. -/
def Hall.move (h : Hall Task Resource) (t : Task) (next : Stage Resource) :
    Hall Task Resource where
  gates r :=
    if r ∈ (h.stage t).claims then
      if r ∈ next.claims then h.gates r else (h.gates r).leave t
    else if r ∈ next.claims then (h.gates r).enter t else h.gates r
  stage := Function.update h.stage t next

theorem move_capacity (r : Resource) :
    ((h.move t next).gates r).capacity = (h.gates r).capacity := by
  simp only [Hall.move]
  split
  · split <;> rfl
  · split <;> rfl

theorem move_self : (h.move t next).stage t = next := Function.update_self ..

theorem move_other {t' : Task} (other : t' ≠ t) : (h.move t next).stage t' = h.stage t' :=
  Function.update_of_ne other ..

/- Somebody else's place in a queue is only lost by what he does himself. -/
theorem move_inside (orderly : h.Orderly rank) {r : Resource} {t' : Task} (other : t' ≠ t)
    (inside : t' ∈ (h.gates r).inside) : t' ∈ ((h.move t next).gates r).inside := by
  simp only [Hall.move]
  split
  · split
    · exact inside
    · exact stays_inside_leave (orderly.once r) other.symm inside
  · split
    · exact stays_inside_enter inside
    · exact inside

theorem move_queued (orderly : h.Orderly rank) (r : Resource) (t' : Task) :
    t' ∈ ((h.move t next).gates r).queue ↔ r ∈ ((h.move t next).stage t').claims := by
  have before := orderly.queued r t'
  by_cases own : t' = t
  · subst own
    rw [move_self]
    simp only [Hall.move]
    split
    · rename_i claimed
      split
      · rename_i keeps
        exact ⟨fun _ => keeps, fun _ => before.mpr claimed⟩
      · rename_i drops
        rw [mem_leave (orderly.once r)]
        simp [drops]
    · rename_i unclaimed
      split
      · rename_i asks
        simp [mem_enter, asks]
      · rename_i silent
        rw [before]
        exact iff_of_false unclaimed silent
  · rw [move_other own, ← before]
    simp only [Hall.move]
    split
    · split
      · exact Iff.rfl
      · rw [mem_leave (orderly.once r)]
        simp [own]
    · split
      · simp [mem_enter, own]
      · exact Iff.rfl

theorem move_once (orderly : h.Orderly rank) (r : Resource) :
    ((h.move t next).gates r).queue.Nodup := by
  simp only [Hall.move]
  split
  · split
    · exact orderly.once r
    · exact leave_once (orderly.once r)
  · rename_i unclaimed
    split
    · exact enter_once (orderly.once r) fun mem => unclaimed ((orderly.queued r t).mp mem)
    · exact orderly.once r

/- What the moving task has afterwards it had before, or its gate had let it in. -/
theorem legal_has (orderly : h.Orderly rank) (legal : h.Legal rank t (h.stage t) next)
    {r : Resource} (has : r ∈ next.has) : t ∈ ((h.move t next).gates r).inside := by
  have kept : r ∈ (h.stage t).claims → t ∈ (h.gates r).inside →
      t ∈ ((h.move t next).gates r).inside := by
    intro claimed inside
    simp only [Hall.move, if_pos claimed, if_pos (has_claimed has)]
    exact inside
  generalize stage : h.stage t = s at legal
  cases legal with
  | stays =>
    rw [← stage] at has
    exact kept (has_claimed has) (orderly.admitted r t has)
  | asks => contradiction
  | leaves => contradiction
  | admitted inside | further inside higher =>
    have claimed : r ∈ (h.stage t).claims := by
      rw [stage]
      exact has
    apply kept claimed
    rcases List.mem_append.mp has with old | new
    · apply orderly.admitted r t
      rw [stage]
      exact old
    · rw [List.mem_singleton.mp new]
      exact inside

theorem move_orderly (orderly : h.Orderly rank) (legal : h.Legal rank t (h.stage t) next) :
    (h.move t next).Orderly rank where
  once := move_once orderly
  queued := move_queued orderly
  admitted r t' has := by
    by_cases own : t' = t
    · subst own
      rw [move_self] at has
      exact legal_has orderly legal has
    · rw [move_other own] at has
      exact move_inside orderly own (orderly.admitted r t' has)
  ascending t' held r asking := by
    by_cases own : t' = t
    · subst own
      rw [move_self] at asking
      subst asking
      generalize stage : h.stage t' = s at legal
      cases legal with
      | stays => exact orderly.ascending t' held r stage
      | asks => simp
      | further inside higher => exact higher
    · rw [move_other own] at asking
      exact orderly.ascending t' held r asking

/-- Whoever is ahead of a task stays ahead until he leaves, and nobody else gets there. -/
theorem move_ahead (orderly : h.Orderly rank) (next : Stage Resource) {t' : Task} (other : t ≠ t')
    {r : Resource} (present : t' ∈ (h.gates r).queue) :
    ((h.move t next).gates r).ahead t' =
      if t ∈ (h.gates r).queue ∧ r ∉ next.claims then ((h.gates r).ahead t').filter (· ≠ t)
      else (h.gates r).ahead t' := by
  simp only [Hall.move, orderly.queued]
  by_cases claimed : r ∈ (h.stage t).claims <;> by_cases keeps : r ∈ next.claims
  · simp [claimed, keeps]
  · have once : ((h.gates r).ahead t').Nodup :=
      (orderly.once r).sublist (List.takeWhile_sublist _)
    simp only [claimed, keeps, if_true, if_false, not_false_eq_true, and_true, ahead_leave other]
    rw [once.erase_eq_filter]
    exact List.filter_congr fun x _ => by rw [Bool.eq_iff_iff]; simp
  · simp only [claimed, keeps, if_true, if_false, false_and, ahead_enter present]
  · simp [claimed, keeps]

end Hall

end Gates
