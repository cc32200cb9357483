import Mathlib.Data.List.Basic

/-!
Writers that each work on a copy of one record. A writer reads the whole record, changes
one field of its copy and writes the whole copy back; between the two, others write too,
and the record may be replaced as a whole. The commits of a run are listed newest first.
-/
namespace ReadModifyWrite
variable {R K V : Type*}

inductive Commit (R K : Type*) where
  | write (key : K) (record : R)
  | replace (record : R)
  deriving DecidableEq, Repr

def Commit.key : Commit R K → Option K
  | .write key _ => some key
  | .replace _ => none

/-- A record, and how many replacements there were when the one it derives from was
    stored. -/
structure Version (R : Type*) where
  record : R
  origin : Nat
  deriving DecidableEq, Repr

/-- The value that was committed last for a field. -/
def latest [DecidableEq K] (get : R → K → V) (start : R) : List (Commit R K) → K → V
  | [], k => get start k
  | .write key record :: older, k => if k = key then get record k else latest get start older k
  | .replace record :: _, k => get record k

def replacements (log : List (Commit R K)) : Nat :=
  log.countP fun commit => commit.key.isNone

/-- Nothing was committed since `seen` commits but the same field. -/
def undisturbed [DecidableEq K] (key : K) (seen : Nat) (log : List (Commit R K)) : Bool :=
  (log.take (log.length - seen)).all fun commit => commit.key = some key

variable [DecidableEq K]

/-- Every field has the value committed last for it, and the record derives from the last
    replacement. -/
structure Current (get : R → K → V) (start : R) (log : List (Commit R K)) (v : Version R) :
    Prop where
  latest : ∀ k, get v.record k = latest get start log k
  origin : v.origin = replacements log

/-- A copy was the current record after `seen` commits. -/
def Copied (get : R → K → V) (start : R) (log : List (Commit R K)) (seen : Nat)
    (v : Version R) : Prop :=
  ∃ newer older, log = newer ++ older ∧ older.length = seen ∧ Current get start older v

variable {get : R → K → V} {start : R} {log : List (Commit R K)} {v : Version R}

theorem current_start : Current get start [] ⟨start, 0⟩ := ⟨fun _ => rfl, rfl⟩

theorem current_copied (current : Current get start log v) :
    Copied get start log log.length v :=
  ⟨[], log, rfl, rfl, current⟩

theorem copied_grows {seen : Nat} (copied : Copied get start log seen v) (commit : Commit R K) :
    Copied get start (commit :: log) seen v := by
  obtain ⟨newer, older, eq, length, current⟩ := copied
  exact ⟨commit :: newer, older, by rw [eq, List.cons_append], length, current⟩

theorem latest_undisturbed {newer older : List (Commit R K)} {key : K}
    (same : ∀ commit ∈ newer, commit.key = some key) {k : K} (other : k ≠ key) :
    latest get start (newer ++ older) k = latest get start older k := by
  induction newer with
  | nil => rfl
  | cons commit newer ih =>
    have first := same commit List.mem_cons_self
    cases commit with
    | write key' record =>
      have here : k ≠ key' := fun eq => other (eq.trans (Option.some.inj first))
      rw [List.cons_append, latest, if_neg here]
      exact ih fun c mem => same c (List.mem_cons_of_mem _ mem)
    | replace record => contradiction

omit [DecidableEq K] in
theorem replacements_undisturbed {newer older : List (Commit R K)} {key : K}
    (same : ∀ commit ∈ newer, commit.key = some key) :
    replacements (newer ++ older) = replacements older := by
  have none_new : newer.countP (fun commit => commit.key.isNone) = 0 := by
    rw [List.countP_eq_zero]
    intro commit mem
    simp [same commit mem]
  rw [replacements, List.countP_append, none_new, Nat.zero_add]
  rfl

/-- Writing a copy back keeps the record current when nothing but the same field was
    committed since the copy was read. -/
theorem current_write {key : K} {seen : Nat} {record : R}
    (copied : Copied get start log seen v) (alone : undisturbed key seen log = true)
    (frame : ∀ k, k ≠ key → get record k = get v.record k) :
    Current get start (.write key record :: log) ⟨record, v.origin⟩ := by
  obtain ⟨newer, older, eq, length, current⟩ := copied
  have since : log.take (log.length - seen) = newer := by
    rw [eq, List.length_append, length, Nat.add_sub_cancel, List.take_left]
  have same : ∀ commit ∈ newer, commit.key = some key := by
    intro commit mem
    have all := List.all_eq_true.mp alone commit (by rw [since]; exact mem)
    exact of_decide_eq_true all
  constructor
  · intro k
    by_cases here : k = key
    · simp only [latest, if_pos here]
    · simp only [latest, if_neg here]
      rw [frame k here, current.latest k, eq, latest_undisturbed same here]
  · have counted : replacements (.write key record :: log) = replacements log := by
      simp [replacements, Commit.key]
    rw [counted, eq, replacements_undisturbed same]
    exact current.origin

theorem current_replace (record : R) :
    Current get start (.replace record :: log) ⟨record, replacements log + 1⟩ := by
  constructor
  · intro k
    rfl
  · simp [replacements, Commit.key]

end ReadModifyWrite
