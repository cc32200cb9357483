import Mathlib.Data.List.MinMax
import Mathlib.Data.List.Nodup
import Mathlib.Order.Basic

/- The timers of an event loop. A timer is armed with a delay and runs when its time has
   come, perhaps late, but never before one that was due earlier. -/
namespace Timers
variable {Action : Type*}

structure Timer (Action : Type*) where
  id : Nat
  due : Nat
  action : Action

/-- The armed timers, in the order in which they were set. -/
structure Clock (Action : Type*) where
  now : Nat
  issued : Nat
  timers : List (Timer Action)
  older : ∀ t ∈ timers, t.id < issued
  distinct : (timers.map Timer.id).Nodup

def Clock.initial : Clock Action := ⟨0, 0, [], by simp, by simp⟩

/- The number of the new timer is the one issued next. -/
def Clock.set (c : Clock Action) (delay : Nat) (action : Action) : Clock Action where
  now := c.now
  issued := c.issued + 1
  timers := c.timers ++ [⟨c.issued, c.now + delay, action⟩]
  older := by
    intro t mem
    rcases List.mem_append.mp mem with old | new
    · exact Nat.lt_succ_of_lt (c.older t old)
    · rw [List.mem_singleton.mp new]
      exact Nat.lt_succ_self _
  distinct := by
    rw [List.map_append, List.map_singleton]
    refine c.distinct.append (List.nodup_singleton _) (List.disjoint_singleton.mpr fun old => ?_)
    obtain ⟨t, mem, same⟩ := List.mem_map.mp old
    exact absurd (c.older t mem) (by simp [same])

def Clock.clear (c : Clock Action) (id : Nat) : Clock Action where
  now := c.now
  issued := c.issued
  timers := c.timers.filter fun t => t.id ≠ id
  older := fun t mem => c.older t (List.mem_of_mem_filter mem)
  distinct := c.distinct.sublist (List.filter_sublist.map _)

def Clock.advance (c : Clock Action) (elapsed : Nat) : Clock Action :=
  { c with now := c.now + elapsed }

/-- The timer that runs next, if its time has come, and the clock without it. -/
def Clock.fire (c : Clock Action) : Option (Timer Action × Clock Action) :=
  (c.timers.argmin Timer.due).bind fun t =>
    if t.due ≤ c.now then some (t, c.clear t.id) else none

variable {c c' : Clock Action} {t u : Timer Action}

theorem mem_set {delay : Nat} {action : Action} :
    t ∈ (c.set delay action).timers ↔ t ∈ c.timers ∨ t = ⟨c.issued, c.now + delay, action⟩ := by
  simp [Clock.set]

theorem mem_clear {id : Nat} : t ∈ (c.clear id).timers ↔ t ∈ c.timers ∧ t.id ≠ id := by
  simp [Clock.clear]

@[simp] theorem clear_now (id : Nat) : (c.clear id).now = c.now := rfl

@[simp] theorem clear_issued (id : Nat) : (c.clear id).issued = c.issued := rfl

@[simp] theorem set_now (delay : Nat) (action : Action) : (c.set delay action).now = c.now := rfl

@[simp] theorem set_issued (delay : Nat) (action : Action) :
    (c.set delay action).issued = c.issued + 1 := rfl

@[simp] theorem advance_timers (elapsed : Nat) : (c.advance elapsed).timers = c.timers := rfl

@[simp] theorem advance_issued (elapsed : Nat) : (c.advance elapsed).issued = c.issued := rfl

@[simp] theorem advance_now (elapsed : Nat) : (c.advance elapsed).now = c.now + elapsed := rfl

theorem same_timer (first : t ∈ c.timers) (second : u ∈ c.timers) (same : t.id = u.id) : t = u :=
  List.inj_on_of_nodup_map c.distinct first second same

/- The timer that runs is due, and no armed timer was due before it. -/
theorem fire_first (fires : c.fire = some (t, c')) : t ∈ c.timers ∧ t.due ≤ c.now ∧
    (∀ u ∈ c.timers, t.due ≤ u.due) ∧ c' = c.clear t.id := by
  obtain ⟨first, least, ready⟩ := Option.bind_eq_some_iff.mp fires
  split at ready
  · rename_i due
    obtain ⟨rfl, rfl⟩ := Prod.mk.inj (Option.some.inj ready)
    exact ⟨List.argmin_mem least, due, fun u mem => List.le_of_mem_argmin mem least, rfl⟩
  · contradiction

/- A loop without a timer to run has none whose time has come. -/
theorem idle_not_due (idle : c.fire = none) (mem : t ∈ c.timers) : c.now < t.due := by
  unfold Clock.fire at idle
  cases least : c.timers.argmin Timer.due with
  | none =>
    rw [List.argmin_eq_none.mp least] at mem
    contradiction
  | some first =>
    rw [least, Option.bind_some] at idle
    split at idle
    · contradiction
    · rename_i early
      exact Nat.lt_of_lt_of_le (Nat.lt_of_not_le early) (List.le_of_mem_argmin mem least)

end Timers
