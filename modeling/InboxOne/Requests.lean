import Mathlib.Data.Finset.Sort
import Mathlib.Logic.Function.Basic
import InboxOne.Activity
import InboxOne.CoalescingQueue
import InboxOne.LabelledRuns

/-!
`request_sync`, `_drain` and `cancel_account` over the module's dictionaries, together
with the event loop that steps the drain tasks. A task is suspended only inside
`sync_account`, so one step runs from the end of a pass to the next one or to the end
of the task. The field `log` only observes the run.
-/
namespace InboxRequests
open CoalescingQueue InboxActivity LabelledRuns

/-- The folders of a request, none meaning all of them, and whether to discover. -/
structure Scope where
  folders : Option (Finset Nat)
  discover : Bool
  deriving DecidableEq

def mergeFolders (previous folders : Option (Finset Nat)) : Option (Finset Nat) :=
  match previous, folders with
  | some p, some f => some (p ∪ f)
  | _, _ => none

def Scope.merge (previous scope : Scope) : Scope :=
  ⟨mergeFolders previous.folders scope.folders, scope.discover || previous.discover⟩

def FoldersWithin (a b : Option (Finset Nat)) : Prop :=
  match a, b with
  | _, none => True
  | none, some _ => False
  | some x, some y => x ⊆ y

def Scope.Within (a b : Scope) : Prop :=
  FoldersWithin a.folders b.folders ∧ (a.discover = true → b.discover = true)

theorem folders_within_trans {a b c : Option (Finset Nat)} (first : FoldersWithin a b)
    (second : FoldersWithin b c) : FoldersWithin a c := by
  cases c with
  | none =>
    cases a <;> trivial
  | some z =>
    cases b with
    | none => exact second.elim
    | some y =>
      cases a with
      | none => exact first.elim
      | some x => exact Finset.Subset.trans first second

theorem folders_within_antisymm {a b : Option (Finset Nat)} (first : FoldersWithin a b)
    (second : FoldersWithin b a) : a = b := by
  cases a with
  | none =>
    cases b with
    | none => rfl
    | some y => exact first.elim
  | some x =>
    cases b with
    | none => exact second.elim
    | some y => exact congrArg some (Finset.Subset.antisymm first second)

theorem merge_folders_least {a b c : Option (Finset Nat)} :
    FoldersWithin (mergeFolders a b) c ↔ FoldersWithin a c ∧ FoldersWithin b c := by
  cases c with
  | none => simp [FoldersWithin]
  | some z =>
    cases a with
    | none => simp [FoldersWithin, mergeFolders]
    | some x =>
      cases b with
      | none => simp [FoldersWithin, mergeFolders]
      | some y => exact Finset.union_subset_iff

theorem folders_within_refl (a : Option (Finset Nat)) : FoldersWithin a a := by
  cases a with
  | none => trivial
  | some x => exact Finset.Subset.refl x

theorem merge_within {a b c : Scope} : (a.merge b).Within c ↔ a.Within c ∧ b.Within c := by
  unfold Scope.Within Scope.merge
  rw [merge_folders_least, Bool.or_eq_true]
  tauto

/-- Scopes ordered by what they ask for; merging is the join. -/
instance : SemilatticeSup Scope where
  le := Scope.Within
  le_refl a := ⟨folders_within_refl a.folders, id⟩
  le_trans a b c first second :=
    ⟨folders_within_trans first.1 second.1, fun asked => second.2 (first.2 asked)⟩
  le_antisymm a b first second := by
    obtain ⟨folders, discover⟩ := a
    obtain ⟨folders', discover'⟩ := b
    have sameFolders := folders_within_antisymm first.1 second.1
    have sameDiscover : discover = discover' :=
      Bool.eq_iff_iff.mpr ⟨first.2, second.2⟩
    simp only at sameFolders
    rw [sameFolders, sameDiscover]
  sup := Scope.merge
  le_sup_left a b := (merge_within.mp ⟨folders_within_refl _, id⟩).1
  le_sup_right a b := (merge_within.mp ⟨folders_within_refl _, id⟩).2
  sup_le a b c first second := merge_within.mpr ⟨first, second⟩

inductive Phase where
  | created
  | inPass (scope : Scope) (activity : Nat)
  | done
  deriving DecidableEq

/-- A drain task; `cancelled` while a cancellation waits to be thrown into it. -/
structure Drain where
  account : Nat
  phase : Phase
  cancelled : Bool
  deriving DecidableEq

structure Requests where
  running : Nat → Option Nat
  pending : Nat → Option Scope
  pendingActivity : Nat → Option Nat
  retired : Finset Nat
  activities : Activities
  tasks : Nat → Option Drain
  spawned : Nat
  log : List (Event Nat Scope Nat)

def Requests.initial : Requests where
  running := fun _ => none
  pending := fun _ => none
  pendingActivity := fun _ => none
  retired := ∅
  activities := .empty
  tasks := fun _ => none
  spawned := 0
  log := []

def sortedFolders (folders : Option (Finset Nat)) : Option (List Nat) :=
  folders.map fun ids => ids.sort (· ≤ ·)

def singleFolder (folders : Option (Finset Nat)) : Option Nat :=
  match folders with
  | some ids => if ids.card = 1 then (ids.sort (· ≤ ·)).head? else none
  | none => none

def queuedItem (account : Nat) (folders : Option (Finset Nat)) (parent : Option Nat)
    (now : Nat) : Item where
  label := "Refreshing account…"
  kind := .sync
  state := .queued
  startedAt := now
  accountId := some account
  folderId := singleFolder folders
  messageId := none
  folderIds := sortedFolders folders
  parentId := parent

def queueActivity (s : Requests) (account : Nat) (folders : Option (Finset Nat))
    (parent : Option Nat) (now : Nat) : Activities × Nat :=
  match s.pendingActivity account with
  | some id =>
      (s.activities.update id fun item =>
        { item with folderIds := sortedFolders folders, folderId := singleFolder folders }, id)
  | none => s.activities.begin (queuedItem account folders parent now)

/-- The scope that request_sync leaves pending. -/
def pendingScope (previous : Option Scope) (folders : Option (Finset Nat)) (discover : Bool) :
    Scope :=
  match previous with
  | some previous => ⟨mergeFolders previous.folders folders, discover || previous.discover⟩
  | none => ⟨folders, discover⟩

def enqueue (s : Requests) (account : Nat) (folders : Option (Finset Nat)) (discover : Bool)
    (parent : Option Nat) (now : Nat) : Requests :=
  let scope := pendingScope (s.pending account) folders discover
  let queued := queueActivity s account scope.folders parent now
  { s with
    activities := queued.1
    pendingActivity := Function.update s.pendingActivity account (some queued.2)
    pending := Function.update s.pending account (some scope)
    log := .requested account ⟨folders, discover⟩ :: s.log }

def ensureDrain (s : Requests) (account : Nat) : Requests × Nat :=
  match s.running account with
  | some task => (s, task)
  | none =>
      ({ s with
        running := Function.update s.running account (some s.spawned)
        tasks := Function.update s.tasks s.spawned (some ⟨account, .created, false⟩)
        spawned := s.spawned + 1 }, s.spawned)

/-- `request_sync`: the task it returns is the registered one. -/
def requestSync (s : Requests) (account : Nat) (folders : Option (Finset Nat))
    (discover : Bool) (parent : Option Nat) (now : Nat) : Requests × Nat :=
  ensureDrain (enqueue s account folders discover parent now) account

/-- The end of `_drain`: its outer finally. -/
def exitDrain (s : Requests) (task account : Nat) : Requests :=
  { s with
    running :=
      if s.running account = some task then Function.update s.running account none else s.running
    tasks := Function.update s.tasks task (some ⟨account, .done, false⟩) }

/- CancelledError at the first step: the body of the coroutine never runs. -/
def abandonDrain (s : Requests) (task account : Nat) : Requests :=
  { s with tasks := Function.update s.tasks task (some ⟨account, .done, false⟩) }

/-- The loop test of `_drain`, up to the call of `sync_account` or the end of the task.
    A missing activity would raise KeyError there. -/
def drainLoop (s : Requests) (task account : Nat) : Requests :=
  match s.pending account with
  | none => exitDrain s task account
  | some scope =>
    let s := { s with pending := Function.update s.pending account none }
    match s.pendingActivity account with
    | none => exitDrain s task account
    | some activity =>
        { s with
          pendingActivity := Function.update s.pendingActivity account none
          tasks := Function.update s.tasks task (some ⟨account, .inPass scope activity, false⟩)
          log := .taken task account scope :: s.log }

def dropPending (s : Requests) (account : Nat) : Requests :=
  { s with
    pending := Function.update s.pending account none
    pendingActivity := Function.update s.pendingActivity account none
    activities := match s.pendingActivity account with
      | some activity => s.activities.finish activity
      | none => s.activities
    log := .dropped account :: s.log }

def retireDrain (s : Requests) (account : Nat) : Requests :=
  match s.running account with
  | none => s
  | some task =>
      { s with
        running := Function.update s.running account none
        retired := insert task s.retired
        tasks := Function.update s.tasks task
          ((s.tasks task).map fun drain => { drain with cancelled := true }) }

def cancelAccount (s : Requests) (account : Nat) : Requests :=
  retireDrain (dropPending s account) account

/-- How `sync_account` may end; only a cancelled task ends it with CancelledError. -/
inductive Outcome where
  | normal
  | exception
  | cancelledError
  deriving DecidableEq

inductive Label where
  | request (account : Nat) (folders : Option (Finset Nat)) (discover : Bool)
      (parent : Option Nat) (now : Nat)
  | cancel (account : Nat)
  | start (task : Nat)
  | passEnds (task : Nat) (outcome : Outcome)
  | doneCallback (task : Nat)

/- The task that a label steps. -/
def Label.task : Label → Option Nat
  | .start task | .passEnds task _ => some task
  | _ => none

def next (s : Requests) : Label → Option Requests
  | .request account folders discover parent now =>
      some (requestSync s account folders discover parent now).1
  | .cancel account => some (cancelAccount s account)
  | .start task =>
      match s.tasks task with
      | some ⟨account, .created, false⟩ => some (drainLoop s task account)
      | some ⟨account, .created, true⟩ => some (abandonDrain s task account)
      | _ => none
  | .passEnds task outcome =>
      match s.tasks task with
      | some ⟨account, .inPass _ activity, cancelled⟩ =>
          let finished := { s with activities := s.activities.finish activity }
          match outcome with
          | .normal | .exception => some (drainLoop finished task account)
          | .cancelledError => if cancelled then some (exitDrain finished task account) else none
      | _ => none
  | .doneCallback task =>
      match s.tasks task with
      | some ⟨_, .done, _⟩ => some { s with retired := s.retired.erase task }
      | _ => none

/- What every reachable state of the module satisfies. Between the two halves of
   request_sync the account may lack its task. -/
structure SoundBut (s : Requests) (exempt : Option Nat) : Prop where
  exact : Exact s.log
  merged : ∀ account, s.pending account = joinAll (waiting account s.log)
  labelled : ∀ account scope, s.pending account = some scope →
    ∃ activity, s.pendingActivity account = some activity
  queued : ∀ account scope, s.pending account = some scope → exempt ≠ some account →
    ∃ task, s.running account = some task
  registered : ∀ account task, s.running account = some task →
    ∃ phase, s.tasks task = some ⟨account, phase, false⟩ ∧ phase ≠ .done
  unspawned : ∀ task, s.spawned ≤ task → s.tasks task = none

abbrev Sound (s : Requests) : Prop := SoundBut s none

theorem initial_sound : Sound .initial := by
  constructor
  · trivial
  · intro account
    rfl
  · intro account scope some
    contradiction
  · intro account scope some
    contradiction
  · intro account task some
    contradiction
  · intro task _
    rfl

theorem pending_scope_join (previous : Option Scope) (folders : Option (Finset Nat))
    (discover : Bool) : pendingScope previous folders discover = join previous ⟨folders, discover⟩ := by
  cases previous with
  | none => rfl
  | some previous => rfl

theorem enqueue_sound {s : Requests} (sound : Sound s) (account : Nat)
    (folders : Option (Finset Nat)) (discover : Bool) (parent : Option Nat) (now : Nat) :
    SoundBut (enqueue s account folders discover parent now) (some account) := by
  unfold enqueue
  constructor
  · exact sound.exact
  · intro a
    simp only
    rw [pending_scope_join]
    by_cases same : a = account
    · subst same
      rw [Function.update_self, waiting, if_pos rfl, joinAll, sound.merged]
    · rw [Function.update_of_ne same, waiting, if_neg (Ne.symm same)]
      exact sound.merged a
  · intro a scope queued
    simp only at queued ⊢
    by_cases same : a = account
    · subst same
      exact ⟨_, Function.update_self ..⟩
    · rw [Function.update_of_ne same] at queued ⊢
      exact sound.labelled a scope queued
  · intro a scope queued other
    simp only at queued
    have differs : a ≠ account := fun same => other (congrArg some same.symm)
    rw [Function.update_of_ne differs] at queued
    exact sound.queued a scope queued (by simp)
  · exact sound.registered
  · exact sound.unspawned

theorem ensure_drain_sound {s : Requests} {account : Nat} (sound : SoundBut s (some account)) :
    Sound (ensureDrain s account).1 := by
  unfold ensureDrain
  cases present : s.running account with
  | some task =>
    refine ⟨sound.exact, sound.merged, sound.labelled, ?_, sound.registered, sound.unspawned⟩
    intro a scope queued _
    by_cases same : a = account
    · exact ⟨task, same ▸ present⟩
    · exact sound.queued a scope queued fun eq => same (Option.some.inj eq).symm
  | none =>
    refine ⟨sound.exact, sound.merged, sound.labelled, ?_, ?_, ?_⟩
    · intro a scope queued _
      simp only at queued ⊢
      by_cases same : a = account
      · subst same
        exact ⟨_, Function.update_self ..⟩
      · rw [Function.update_of_ne same]
        exact sound.queued a scope queued fun eq => same (Option.some.inj eq).symm
    · intro a task running
      simp only at running ⊢
      rcases written_cell running with ⟨rfl, rfl⟩ | ⟨_, running⟩
      · exact ⟨.created, Function.update_self .., by simp⟩
      · obtain ⟨phase, found, active⟩ := sound.registered a task running
        have other : task ≠ s.spawned := by
          intro eq
          rw [sound.unspawned task (Nat.le_of_eq eq.symm)] at found
          contradiction
        exact ⟨phase, (Function.update_of_ne other ..).trans found, active⟩
    · intro task above
      simp only at above ⊢
      have other : task ≠ s.spawned := by omega
      rw [Function.update_of_ne other]
      exact sound.unspawned task (by omega)

theorem request_sound {s : Requests} (sound : Sound s) (account : Nat)
    (folders : Option (Finset Nat)) (discover : Bool) (parent : Option Nat) (now : Nat) :
    Sound (requestSync s account folders discover parent now).1 :=
  ensure_drain_sound (enqueue_sound sound account folders discover parent now)

/- A task of another account, or one that is not registered, is none of the others. -/
theorem registered_other {s : Requests} (sound : Sound s) {task : Nat} {drain : Drain}
    (found : s.tasks task = some drain)
    (unregistered : s.running drain.account ≠ some task) {account other : Nat}
    (running : s.running account = some other) : other ≠ task := by
  intro same
  subst same
  obtain ⟨phase, found', _⟩ := sound.registered account other running
  rw [found'] at found
  have drainEq := Option.some.inj found
  subst drainEq
  exact unregistered running

theorem exit_sound {s : Requests} (sound : Sound s) {task : Nat} {drain : Drain}
    (found : s.tasks task = some drain)
    (idle : s.pending drain.account = none ∨ s.running drain.account ≠ some task) :
    Sound (exitDrain s task drain.account) := by
  have spawned : task < s.spawned := by
    by_contra above
    rw [sound.unspawned task (by omega)] at found
    contradiction
  have running : ∀ {a t : Nat}, (exitDrain s task drain.account).running a = some t →
      s.running a = some t ∧ t ≠ task := by
    intro a t eq
    simp only [exitDrain] at eq
    split at eq
    · rename_i own
      by_cases same : a = drain.account
      · subst same
        rw [Function.update_self] at eq
        contradiction
      · rw [Function.update_of_ne same] at eq
        refine ⟨eq, ?_⟩
        intro sameTask
        subst sameTask
        obtain ⟨phase, found', _⟩ := sound.registered a t eq
        rw [found'] at found
        exact same (congrArg Drain.account (Option.some.inj found))
    · rename_i other
      exact ⟨eq, registered_other sound found other eq⟩
  refine ⟨sound.exact, sound.merged, sound.labelled, ?_, ?_, ?_⟩
  · intro a scope queued _
    obtain ⟨t, registered⟩ := sound.queued a scope queued (by simp)
    simp only [exitDrain]
    split
    · rename_i own
      have other : a ≠ drain.account := by
        intro same
        rcases idle with none | unregistered
        · rw [← same] at none
          exact absurd (none.symm.trans queued) (by simp)
        · exact unregistered own
      rw [Function.update_of_ne other]
      exact ⟨t, registered⟩
    · exact ⟨t, registered⟩
  · intro a t eq
    obtain ⟨old, other⟩ := running eq
    obtain ⟨phase, found', active⟩ := sound.registered a t old
    exact ⟨phase, (Function.update_of_ne other ..).trans found', active⟩
  · intro t above
    have other : t ≠ task := by
      have : s.spawned ≤ t := above
      omega
    exact (Function.update_of_ne other ..).trans (sound.unspawned t above)

theorem drain_loop_sound {s : Requests} (sound : Sound s) {task : Nat} {drain : Drain}
    (found : s.tasks task = some drain) : Sound (drainLoop s task drain.account) := by
  unfold drainLoop
  cases queued : s.pending drain.account with
  | none => exact exit_sound sound found (Or.inl queued)
  | some scope =>
    obtain ⟨activity, labelled⟩ := sound.labelled drain.account scope queued
    simp only [labelled]
    constructor
    · exact ⟨(sound.merged drain.account).symm.trans queued, sound.exact⟩
    · intro a
      simp only
      by_cases same : a = drain.account
      · subst same
        rw [Function.update_self, waiting, if_pos rfl, joinAll]
      · rw [Function.update_of_ne same, waiting, if_neg (Ne.symm same)]
        exact sound.merged a
    · intro a scope' still
      simp only at still ⊢
      by_cases same : a = drain.account
      · subst same
        rw [Function.update_self] at still
        contradiction
      · rw [Function.update_of_ne same] at still ⊢
        exact sound.labelled a scope' still
    · intro a scope' still _
      simp only at still
      by_cases same : a = drain.account
      · subst same
        rw [Function.update_self] at still
        contradiction
      · rw [Function.update_of_ne same] at still
        exact sound.queued a scope' still (by simp)
    · intro a t running
      simp only
      obtain ⟨phase, found', active⟩ := sound.registered a t running
      by_cases same : t = task
      · subst same
        rw [found'] at found
        obtain rfl : a = drain.account := congrArg Drain.account (Option.some.inj found)
        exact ⟨.inPass scope activity, Function.update_self .., by simp⟩
      · exact ⟨phase, (Function.update_of_ne same ..).trans found', active⟩
    · intro t above
      have other : t ≠ task := by
        intro same
        have none := sound.unspawned t above
        rw [same, found] at none
        contradiction
      exact (Function.update_of_ne other ..).trans (sound.unspawned t above)

theorem drop_sound {s : Requests} (sound : Sound s) (account : Nat) :
    Sound (dropPending s account) := by
  unfold dropPending
  refine ⟨sound.exact, ?_, ?_, ?_, sound.registered, sound.unspawned⟩
  · intro a
    simp only
    by_cases same : a = account
    · subst same
      rw [Function.update_self, waiting, if_pos rfl, joinAll]
    · rw [Function.update_of_ne same, waiting, if_neg (Ne.symm same)]
      exact sound.merged a
  · intro a scope queued
    simp only at queued ⊢
    by_cases same : a = account
    · subst same
      rw [Function.update_self] at queued
      contradiction
    · rw [Function.update_of_ne same] at queued ⊢
      exact sound.labelled a scope queued
  · intro a scope queued _
    simp only at queued
    by_cases same : a = account
    · subst same
      rw [Function.update_self] at queued
      contradiction
    · rw [Function.update_of_ne same] at queued
      exact sound.queued a scope queued (by simp)

theorem retire_sound {s : Requests} (sound : Sound s) {account : Nat}
    (idle : s.pending account = none) : Sound (retireDrain s account) := by
  unfold retireDrain
  cases present : s.running account with
  | none => exact sound
  | some task =>
    obtain ⟨phase, found, _⟩ := sound.registered account task present
    refine ⟨sound.exact, sound.merged, sound.labelled, ?_, ?_, ?_⟩
    · intro a scope queued _
      have other : a ≠ account := by
        intro same
        rw [same] at queued
        exact absurd (idle.symm.trans queued) (by simp)
      simp only
      rw [Function.update_of_ne other]
      exact sound.queued a scope queued (by simp)
    · intro a t running
      simp only at running ⊢
      by_cases same : a = account
      · subst same
        rw [Function.update_self] at running
        contradiction
      · rw [Function.update_of_ne same] at running
        obtain ⟨phase', found', active⟩ := sound.registered a t running
        have other : t ≠ task := by
          intro sameTask
          rw [sameTask, found] at found'
          exact same (congrArg Drain.account (Option.some.inj found')).symm
        exact ⟨phase', (Function.update_of_ne other ..).trans found', active⟩
    · intro t above
      have other : t ≠ task := by
        intro sameTask
        have none := sound.unspawned t above
        rw [sameTask, found] at none
        contradiction
      exact (Function.update_of_ne other ..).trans (sound.unspawned t above)

theorem cancel_sound {s : Requests} (sound : Sound s) (account : Nat) :
    Sound (cancelAccount s account) :=
  retire_sound (drop_sound sound account) (Function.update_self ..)

/- The activity table is not read by any other part of the module. -/
theorem activities_sound {s : Requests} (sound : Sound s) (activities : Activities)
    (retired : Finset Nat) : Sound { s with activities := activities, retired := retired } :=
  ⟨sound.exact, sound.merged, sound.labelled, sound.queued, sound.registered, sound.unspawned⟩

/- What a step of a task can be. -/
theorem task_step_cases {s s' : Requests} {l : Label} {task : Nat} (own : l.task = some task)
    (step : next s l = some s') : ∃ drain activities, s.tasks task = some drain ∧
      drain.phase ≠ .done ∧
      (s' = drainLoop { s with activities := activities } task drain.account ∨
        (drain.cancelled = true ∧
          (s' = exitDrain { s with activities := activities } task drain.account ∨
            s' = abandonDrain s task drain.account))) := by
  cases l with
  | request => contradiction
  | cancel => contradiction
  | doneCallback => contradiction
  | start t =>
    obtain rfl : t = task := Option.some.inj own
    rw [next] at step
    split at step
    · rename_i account found
      exact ⟨_, s.activities, found, by simp, Or.inl (Option.some.inj step).symm⟩
    · rename_i account found
      exact ⟨_, s.activities, found, by simp, Or.inr ⟨rfl, Or.inr (Option.some.inj step).symm⟩⟩
    · contradiction
  | passEnds t outcome =>
    obtain rfl : t = task := Option.some.inj own
    rw [next] at step
    split at step
    · rename_i account scope activity cancelled found
      refine ⟨_, s.activities.finish activity, found, by simp, ?_⟩
      cases outcome with
      | normal => exact Or.inl (Option.some.inj step).symm
      | exception => exact Or.inl (Option.some.inj step).symm
      | cancelledError =>
        simp only at step
        split at step
        · rename_i thrown
          exact Or.inr ⟨thrown, Or.inl (Option.some.inj step).symm⟩
        · contradiction
    · contradiction

/- A cancelled task is not registered. -/
theorem cancelled_unregistered {s : Requests} (sound : Sound s) {task : Nat} {drain : Drain}
    (found : s.tasks task = some drain) (cancelled : drain.cancelled = true) (account : Nat) :
    s.running account ≠ some task := by
  intro running
  obtain ⟨phase, found', _⟩ := sound.registered account task running
  rw [found'] at found
  have drainEq := Option.some.inj found
  subst drainEq
  contradiction

theorem task_step_sound {s s' : Requests} {l : Label} {task : Nat} (sound : Sound s)
    (own : l.task = some task) (step : next s l = some s') : Sound s' := by
  obtain ⟨drain, activities, found, _, looped | ⟨cancelled, exited | never⟩⟩ :=
    task_step_cases own step
  · subst looped
    exact drain_loop_sound (activities_sound sound activities s.retired) found
  · subst exited
    exact exit_sound (activities_sound sound activities s.retired) found
      (Or.inr (cancelled_unregistered sound found cancelled drain.account))
  · subst never
    have spawned : ∀ t, s.spawned ≤ t → t ≠ task := by
      intro t above same
      have none := sound.unspawned t above
      rw [same, found] at none
      contradiction
    refine ⟨sound.exact, sound.merged, sound.labelled, sound.queued, ?_, ?_⟩
    · intro a t running
      have other : t ≠ task := by
        intro same
        exact cancelled_unregistered sound found cancelled a (same ▸ running)
      obtain ⟨phase, found', active⟩ := sound.registered a t running
      exact ⟨phase, (Function.update_of_ne other ..).trans found', active⟩
    · intro t above
      exact (Function.update_of_ne (spawned t above) ..).trans (sound.unspawned t above)

theorem next_sound {s s' : Requests} {l : Label} (sound : Sound s)
    (step : next s l = some s') : Sound s' := by
  cases l with
  | request account folders discover parent now =>
    rw [next, Option.some.injEq] at step
    exact step ▸ request_sound sound account folders discover parent now
  | cancel account =>
    rw [next, Option.some.injEq] at step
    exact step ▸ cancel_sound sound account
  | start task => exact task_step_sound sound rfl step
  | passEnds task outcome => exact task_step_sound sound rfl step
  | doneCallback task =>
    rw [next] at step
    split at step
    · rw [Option.some.injEq] at step
      exact step ▸ activities_sound sound s.activities _
    · contradiction

theorem run_sound {s : Requests} {labels : List Label}
    (run : replay next .initial labels = some s) : Sound s :=
  replay_invariant Sound initial_sound (fun _ _ _ sound step => next_sound sound step) run

/-- The task can step, and whatever its next step is, it calls `sync_account` with the
    entry. -/
def WillServe (s : Requests) (task account : Nat) (entry : Scope) : Prop :=
  (∃ l s', l.task = some task ∧ next s l = some s') ∧
    ∀ l s', l.task = some task → next s l = some s' →
      s'.log = .taken task account entry :: s.log

theorem registered_serves {s : Requests} (sound : Sound s) {account task : Nat} {entry : Scope}
    (running : s.running account = some task) (queued : s.pending account = some entry) :
    WillServe s task account entry := by
  obtain ⟨phase, found, active⟩ := sound.registered account task running
  obtain ⟨activity, labelled⟩ := sound.labelled account entry queued
  constructor
  · cases phase with
    | created => exact ⟨.start task, _, rfl, by rw [next, found]⟩
    | inPass scope current => exact ⟨.passEnds task .normal, _, rfl, by rw [next, found]⟩
    | done => contradiction
  · intro l s' own step
    obtain ⟨drain, activities, found', _, looped | ⟨cancelled, _⟩⟩ := task_step_cases own step
    · rw [found, Option.some.injEq] at found'
      subst found' looped
      simp only [drainLoop, queued, labelled]
    · rw [found, Option.some.injEq] at found'
      subst found'
      contradiction

/- Every request since the last cancellation of its account waits in the one pending
   scope, which a registered task will hand out, or was handed out by a later call. The
   pending scope is the join of what waits, in any order. -/
theorem no_request_lost {s : Requests} {labels : List Label}
    (run : replay next .initial labels = some s) :
    (∀ account scope newer older, s.log = newer ++ .requested account scope :: older →
      .dropped account ∉ newer →
      (∃ entry task, s.pending account = some entry ∧ scope.Within entry ∧
        s.running account = some task ∧ WillServe s task account entry) ∨
      ∃ task entry, .taken task account entry ∈ newer ∧ scope.Within entry) ∧
    ∀ account scopes, scopes.Perm (waiting account s.log) →
      s.pending account = joinAll scopes := by
  have sound := run_sound run
  constructor
  · intro account scope newer older eq kept
    rcases waiting_or_taken (eq ▸ sound.exact) kept with waits | ⟨task, entry, mem, below⟩
    · rw [← eq] at waits
      obtain ⟨entry, all, below⟩ := joinAll_nonempty waits
      have queued := (sound.merged account).trans all
      obtain ⟨task, running⟩ := sound.queued account entry queued (by simp)
      exact Or.inl ⟨entry, task, queued, below, running, registered_serves sound running queued⟩
    · exact Or.inr ⟨task, entry, mem, below⟩
  · intro account scopes perm
    rw [joinAll_perm perm]
    exact sound.merged account

/- A burst during a pass merges, a cancelled task that outlives its cancellation takes
   the request made after it, and the new task finds nothing left. -/
def restartLabels : List Label :=
  [.request 1 (some {10}) false none 0, .start 0, .request 1 (some {11}) true none 1,
    .cancel 1, .request 1 none false none 2, .request 2 (some {20}) false none 3,
    .passEnds 0 .normal, .start 1]

theorem restart_log : (replay next .initial restartLabels).map Requests.log =
    some [.taken 0 1 ⟨none, false⟩, .requested 2 ⟨some {20}, false⟩,
      .requested 1 ⟨none, false⟩, .dropped 1, .requested 1 ⟨some {11}, true⟩,
      .taken 0 1 ⟨some {10}, false⟩, .requested 1 ⟨some {10}, false⟩] := by
  rfl

theorem no_request_lost_restart : ∃ s, replay next .initial restartLabels = some s ∧
    ∃ entry task, s.pending 2 = some entry ∧ (Scope.mk (some {20}) false).Within entry ∧
      s.running 2 = some task ∧ WillServe s task 2 entry := by
  obtain ⟨s, run, log⟩ := Option.map_eq_some_iff.mp restart_log
  refine ⟨s, run, ?_⟩
  rcases (no_request_lost run).1 2 ⟨some {20}, false⟩ [.taken 0 1 ⟨none, false⟩] _ log
    (by simp) with queued | ⟨task, entry, mem, _⟩
  · exact queued
  · simp at mem

end InboxRequests
