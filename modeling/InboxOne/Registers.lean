import Mathlib.Data.List.Basic

/- Registers read off a log of events, newest first. An event may leave a register alone,
   fill it while it is empty, or write it. -/
namespace Registers
variable {Event V : Type*}

inductive Effect (V : Type*) where
  | keep
  | fill (v : V)
  | write (v : V)

def latest (effect : Event → Effect V) : List Event → Option V
  | [] => none
  | e :: log => match effect e with
      | .keep => latest effect log
      | .fill v => some ((latest effect log).getD v)
      | .write v => some v

variable {effect : Event → Effect V} {e mark : Event} {log newer : List Event} {v : V}
  {P Q : List Event → Prop}

theorem latest_keep (kept : effect e = .keep) : latest effect (e :: log) = latest effect log := by
  rw [latest, kept]

theorem latest_fill (fills : effect e = .fill v) (empty : latest effect log = none) :
    latest effect (e :: log) = some v := by
  rw [latest, fills, empty]
  rfl

theorem latest_write (writes : effect e = .write v) : latest effect (e :: log) = some v := by
  rw [latest, writes]

/- A register that has a value keeps it, unless another value is written. -/
theorem latest_stays (same : ∀ u, effect e = .write u → u = v)
    (found : latest effect log = some v) : latest effect (e :: log) = some v := by
  rw [latest]
  cases what : effect e with
  | keep => exact found
  | fill u => simp only [found, Option.getD_some]
  | write u => simp only [same u what]

theorem latest_grows (found : latest effect log ≠ none) : latest effect (e :: log) ≠ none := by
  rw [latest]
  cases effect e with
  | keep => exact found
  | fill u => exact Option.some_ne_none _
  | write u => exact Option.some_ne_none _

/-- At some moment since the mark. -/
def Since (mark : Event) (P : List Event → Prop) (log : List Event) : Prop :=
  ∃ newer older, log = newer ++ older ∧ mark ∈ older ∧ P older

theorem since_now (marked : mark ∈ log) (here : P log) : Since mark P log :=
  ⟨[], log, rfl, marked, here⟩

theorem Since.grows (since : Since mark P log) (newer : List Event) :
    Since mark P (newer ++ log) := by
  obtain ⟨recent, older, rfl, marked, here⟩ := since
  exact ⟨newer ++ recent, older, (List.append_assoc ..).symm, marked, here⟩

theorem Since.mono (since : Since mark P log) (weaker : ∀ older, P older → Q older) :
    Since mark Q log := by
  obtain ⟨recent, older, split, marked, here⟩ := since
  exact ⟨recent, older, split, marked, weaker older here⟩

theorem kept_through (kept : ∀ e ∈ newer, ∀ log, P log → P (e :: log)) (here : P log) :
    P (newer ++ log) := by
  induction newer with
  | nil => exact here
  | cons e newer ih =>
    exact kept e List.mem_cons_self _ (ih fun e mem => kept e (List.mem_cons_of_mem _ mem))

/- The moment lies between the mark and the end of the log. -/
theorem since_split {before : List Event} (once : mark ∉ before)
    (since : Since mark P (newer ++ mark :: before)) :
    ∃ recent part, newer = recent ++ part ∧ P (part ++ mark :: before) := by
  obtain ⟨recent, older, split, marked, here⟩ := since
  rcases List.append_eq_append_iff.mp split.symm with ⟨part, eq, tail⟩ | ⟨part, eq, tail⟩
  · exact ⟨recent, part, eq, tail ▸ here⟩
  · cases part with
    | nil =>
      rw [List.append_nil] at eq
      exact ⟨recent, [], by rw [eq, List.append_nil], tail ▸ here⟩
    | cons first part =>
      rw [List.cons_append, List.cons.injEq] at tail
      exact absurd (tail.2 ▸ List.mem_append_right _ marked) once

/- What held at some moment since the mark still holds, if every event since keeps it. -/
theorem since_settled {before : List Event} (once : mark ∉ before)
    (kept : ∀ e ∈ newer, ∀ log, P log → P (e :: log))
    (since : Since mark P (newer ++ mark :: before)) : P (newer ++ mark :: before) := by
  obtain ⟨recent, part, rfl, here⟩ := since_split once since
  rw [List.append_assoc]
  exact kept_through (fun e mem => kept e (List.mem_append_left _ mem)) here

end Registers
