import InboxOne.Gates
import InboxOne.SyncTask
import Mathlib.Order.Fin.Basic

/-!
The lock of each account and the semaphore of all passes. `sync_account` takes both, a
watcher the lock while it connects, and `_refresh_all_oauth_tokens` the lock of one
account after the other. A task whose acquire was granted goes on with its next step; a
cancelled one keeps its place until it runs. The field `departed` only records who gave up
his place at a gate, inside or while he waited.
-/
namespace InboxSyncLocks
open LabelledRuns Gates InboxRequests
open InboxSyncTask (Sync)
open InboxWatcher (Watch)

inductive Resource where
  | lock (account : Nat)
  | semaphore
  deriving DecidableEq, Repr

def rank : Resource → Fin 2
  | .lock _ => 0
  | .semaphore => 1

inductive RefreshPc where
  | loadIds
  | nextId
  | lock
  | work
  | closeSession (cancelled : Bool)
  | ended
  deriving DecidableEq, Repr

/-- `_refresh_all_oauth_tokens`; in `work` it reads the account and renews its tokens.
    `nextId` is the top of the loop, where it awaits nothing. -/
structure Refresh where
  account : Nat
  pc : RefreshPc
  todo : List Nat
  mustCancel : Bool
  deriving DecidableEq, Repr

inductive RefreshAnswer where
  | ids (accounts : List Nat)
  | ok
  | fail (exception : String)
  | cancelled
  deriving DecidableEq, Repr

def Refresh.start : Refresh := ⟨0, .loadIds, [], false⟩

def refreshCancelled (r : Refresh) : Refresh :=
  let r := { r with mustCancel := false }
  match r.pc with
  | .work => { r with pc := .closeSession true }
  | _ => { r with pc := .ended }

/- An exception is only logged, also one that takes the place of the cancellation. -/
def resumeRefresh (r : Refresh) (answer : RefreshAnswer) : Option Refresh :=
  if r.mustCancel then
    if answer = .cancelled then some (refreshCancelled r) else none
  else
    match r.pc, answer with
    | .loadIds, .ids accounts => some { r with pc := .nextId, todo := accounts }
    | .loadIds, .fail _ => some { r with pc := .ended }
    | .nextId, .ok =>
        match r.todo with
        | [] => some { r with pc := .ended }
        | account :: rest => some { r with account := account, pc := .lock, todo := rest }
    | .lock, .ok => some { r with pc := .work }
    | .work, .ok | .work, .fail _ => some { r with pc := .closeSession false }
    | .closeSession true, .ok => some { r with pc := .ended }
    | .closeSession _, .ok | .closeSession _, .fail _ => some { r with pc := .nextId }
    | _, _ => none

inductive Task where
  | pass (account : Nat) (s : Sync)
  | watcher (w : Watch)
  | refresh (r : Refresh)

def passStage (account : Nat) (s : Sync) : Stage Resource :=
  match s.pc with
  | .lock => .asking [] (.lock account)
  | .semaphore => .asking [.lock account] .semaphore
  | .ended _ => .outside
  | _ => .holding [.lock account, .semaphore]

def watcherStage (w : Watch) : Stage Resource :=
  match w.pc with
  | .lock => .asking [] (.lock w.account)
  | .loadAccount | .opening | .awaitOpening | .closeSession _ => .holding [.lock w.account]
  | _ => .outside

def refreshStage (r : Refresh) : Stage Resource :=
  match r.pc with
  | .lock => .asking [] (.lock r.account)
  | .work | .closeSession _ => .holding [.lock r.account]
  | _ => .outside

def Task.stage : Task → Stage Resource
  | .pass account s => passStage account s
  | .watcher w => watcherStage w
  | .refresh r => refreshStage r

def Task.mustCancel : Task → Bool
  | .pass _ s => s.mustCancel
  | .watcher w => w.mustCancel
  | .refresh r => r.mustCancel

def Task.cancel : Task → Task
  | .pass account s => .pass account { s with mustCancel := true }
  | .watcher w => .watcher { w with mustCancel := true, cancelling := true }
  | .refresh r => .refresh { r with mustCancel := true }

structure World where
  tasks : Nat → Option Task
  spawned : Nat
  gates : Resource → Gate Nat
  departed : Resource → List Nat

def World.initial (maxConcurrentSyncs : Nat) : World where
  tasks := fun _ => none
  spawned := 0
  gates
    | .lock _ => ⟨1, []⟩
    | .semaphore => ⟨maxConcurrentSyncs, []⟩
  departed := fun _ => []

def stageOf (tasks : Nat → Option Task) (task : Nat) : Stage Resource :=
  (tasks task).elim .outside Task.stage

def World.hall (w : World) : Hall Nat Resource := ⟨w.gates, stageOf w.tasks⟩

/- The step of a task, with what it takes and gives back. -/
def World.put (w : World) (task : Nat) (t : Task) : World :=
  { w with
    tasks := Function.update w.tasks task (some t)
    gates := (w.hall.move task t.stage).gates
    departed := fun r =>
      if task ∈ (w.gates r).queue ∧ r ∉ t.stage.claims then w.departed r ++ [task]
      else w.departed r }

/- Nothing keeps the task from its next step. -/
def World.ready (w : World) (task : Nat) (t : Task) : Bool :=
  t.mustCancel || (w.hall.waits task).isNone

inductive Label where
  | startPass (account : Nat) (scope : Scope)
  | startWatcher (account folder : Nat) (path : String)
  | startRefresh
  | pass (task : Nat) (answer : InboxSyncTask.Answer)
  | watcher (task : Nat) (answer : InboxWatcher.Answer)
  | refresh (task : Nat) (answer : RefreshAnswer)
  | cancel (task : Nat)

def World.start (w : World) (t : Task) : World :=
  { w.put w.spawned t with spawned := w.spawned + 1 }

def World.step (w : World) (task : Nat) (t : Task) (t' : Option Task) : Option World :=
  if w.ready task t then t'.map (w.put task) else none

def next (w : World) : Label → Option World
  | .startPass account scope => some (w.start (.pass account (.start scope)))
  | .startWatcher account folder path =>
      some (w.start (.watcher ⟨account, folder, path, .created, none, [], false, false⟩))
  | .startRefresh => some (w.start (.refresh .start))
  | .pass task answer =>
      match w.tasks task with
      | some (.pass account s) => w.step task (.pass account s)
          ((InboxSyncTask.resume s answer).map fun out => .pass account out.1)
      | _ => none
  | .watcher task answer =>
      match w.tasks task with
      | some (.watcher watch) => w.step task (.watcher watch)
          ((InboxWatcher.resume watch answer).map fun out => .watcher out.1)
      | _ => none
  | .refresh task answer =>
      match w.tasks task with
      | some (.refresh r) => w.step task (.refresh r) ((resumeRefresh r answer).map .refresh)
      | _ => none
  | .cancel task => (w.tasks task).map fun t => w.put task t.cancel

/- The pass has both resources, or has given them back. -/
def Past (s : Sync) : Prop := s.pc ≠ .lock ∧ s.pc ≠ .semaphore

theorem finally_past (s : Sync) (leave : InboxSyncTask.Leave) :
    Past (InboxSyncTask.finallyBlock s leave).1 := by
  unfold InboxSyncTask.finallyBlock InboxSyncTask.afterLogout
  split
  · simp [Past]
  · split <;> simp [Past]

theorem next_folder_past (s : Sync) : Past (InboxSyncTask.nextFolder s).1 := by
  unfold InboxSyncTask.nextFolder
  split
  · exact finally_past s .returned
  · simp [Past]

theorem cancel_handler_past (s : Sync) : Past (InboxSyncTask.cancelHandler s).1 := by
  unfold InboxSyncTask.cancelHandler
  dsimp only
  split
  · simp [Past]
  · exact finally_past _ _

theorem throw_past (s : Sync) : Past (InboxSyncTask.throwCancelled s).1 := by
  unfold InboxSyncTask.throwCancelled
  dsimp only
  split
  all_goals first
    | exact finally_past _ _
    | exact cancel_handler_past _
    | simp [Past]

/- A pass that runs does not ask again. -/
theorem resume_past {s s' : Sync} {answer : InboxSyncTask.Answer}
    {writes : List InboxSyncTask.Write} (past : Past s)
    (step : InboxSyncTask.resume s answer = some (s', writes)) : Past s' := by
  unfold InboxSyncTask.resume at step
  split at step
  · split at step
    · have same : (InboxSyncTask.throwCancelled s).1 = s' :=
        congrArg Prod.fst (Option.some.inj step)
      exact same ▸ throw_past s
    · contradiction
  · have begin_past : ∀ x found, Past (InboxSyncTask.beginFolders x found).1 :=
      fun x found => next_folder_past _
    have outer_past : ∀ x e, Past (InboxSyncTask.outerHandler x e).1 := by
      intro x e
      simp [InboxSyncTask.outerHandler, Past]
    have logout_past : ∀ leave, Past (InboxSyncTask.afterLogout s leave).1 := by
      intro leave
      unfold InboxSyncTask.afterLogout
      split <;> simp [Past]
    split at step
    case h_1 asks => exact absurd asks past.1
    case h_5 =>
      dsimp only at step
      split at step
      all_goals
        have same := congrArg Prod.fst (Option.some.inj step)
        subst same
      · simp [Past]
      · exact begin_past _ _
    all_goals first
      | contradiction
      | have same := congrArg Prod.fst (Option.some.inj step)
        subst same
        first
          | exact finally_past _ _
          | exact next_folder_past _
          | exact cancel_handler_past _
          | exact begin_past _ _
          | exact outer_past _ _
          | exact logout_past _
          | simp [Past]

theorem past_stage (account : Nat) {s : Sync} (past : Past s) :
    passStage account s = .outside ∨
      passStage account s = .holding [.lock account, .semaphore] := by
  unfold passStage
  split
  · rename_i pc
    exact absurd pc past.1
  · rename_i pc
    exact absurd pc past.2
  · exact Or.inl rfl
  · exact Or.inr rfl

/- Outside of its block a cancelled pass has only to end. -/
theorem thrown_outside {account : Nat} {s s' : Sync} {answer : InboxSyncTask.Answer}
    {writes : List InboxSyncTask.Write} (must : s.mustCancel = true)
    (step : InboxSyncTask.resume s answer = some (s', writes))
    (place : s.pc = .lock ∨ s.pc = .semaphore ∨ ∃ leave, s.pc = .ended leave) :
    passStage account s' = .outside := by
  unfold InboxSyncTask.resume at step
  rw [if_pos must] at step
  split at step
  · have same : (InboxSyncTask.throwCancelled s).1 = s' :=
      congrArg Prod.fst (Option.some.inj step)
    rw [← same]
    rcases place with pc | pc | ⟨leave, pc⟩
    all_goals simp [InboxSyncTask.throwCancelled, pc, passStage]
  · contradiction

section Legal
variable {h : Hall Nat Resource} {task : Nat}

/- A task that is not cancelled goes on only when it was let in. -/
def Ready (h : Hall Nat Resource) (task : Nat) (mustCancel : Bool) (stage : Stage Resource) :
    Prop :=
  mustCancel = false → ∀ held r, stage = .asking held r → task ∈ (h.gates r).inside

theorem pass_legal {account : Nat} {s s' : Sync} {answer : InboxSyncTask.Answer}
    {writes : List InboxSyncTask.Write}
    (step : InboxSyncTask.resume s answer = some (s', writes))
    (ready : Ready h task s.mustCancel (passStage account s)) :
    h.Legal rank task (passStage account s) (passStage account s') := by
  by_cases place : s.pc = .lock ∨ s.pc = .semaphore ∨ ∃ leave, s.pc = .ended leave
  · cases must : s.mustCancel with
    | true =>
      rw [thrown_outside must step place]
      exact .leaves _
    | false =>
      unfold InboxSyncTask.resume at step
      rw [if_neg (by simp [must])] at step
      rcases place with pc | pc | ⟨leave, pc⟩
      · have stage : passStage account s = .asking [] (.lock account) := by simp [passStage, pc]
        have inside := ready must _ _ stage
        cases answer with
        | ok =>
          simp only [pc] at step
          obtain ⟨rfl, _⟩ := Prod.mk.inj (Option.some.inj step)
          rw [stage]
          refine .further inside ?_
          intro q mem
          rw [List.mem_singleton.mp mem]
          exact (by decide : (0 : Fin 2) < 1)
        | _ => simp [pc] at step
      · have stage : passStage account s = .asking [.lock account] .semaphore := by
          simp [passStage, pc]
        have inside := ready must _ _ stage
        cases answer with
        | ok =>
          simp only [pc] at step
          obtain ⟨rfl, _⟩ := Prod.mk.inj (Option.some.inj step)
          rw [stage]
          exact .admitted inside
        | _ => simp [pc] at step
      · simp [pc] at step
  · obtain ⟨asks, further, goes⟩ := by simpa [not_or] using place
    have stage : passStage account s = .holding [.lock account, .semaphore] := by
      unfold passStage
      split
      · contradiction
      · contradiction
      · rename_i leave pc
        exact absurd pc (goes leave)
      · rfl
    rw [stage]
    rcases past_stage account (resume_past ⟨asks, further⟩ step) with out | works
    · rw [out]
      exact .leaves _
    · rw [works]
      exact .stays _

/- Without the lock a watcher at most asks for it. -/
def Outside (w : Watch) (account : Nat) : Prop :=
  watcherStage w = .outside ∨ watcherStage w = .asking [] (.lock account)

theorem after_finally_outside (w : Watch) (again : Bool) :
    Outside (InboxWatcher.afterFinally w again).1 w.account := by
  cases again with
  | true => exact Or.inr rfl
  | false => exact Or.inl rfl

theorem inner_finally_outside (w : Watch) (again : Bool) :
    Outside (InboxWatcher.innerFinally w again).1 w.account := by
  unfold InboxWatcher.innerFinally
  cases w.client with
  | some client => exact Or.inl rfl
  | none => exact after_finally_outside w again

/- A watcher that does not go round again asks for nothing. -/
theorem last_finally_outside (w : Watch) :
    watcherStage (InboxWatcher.innerFinally w false).1 = .outside := by
  unfold InboxWatcher.innerFinally
  cases w.client <;> rfl

theorem after_session_outside (w : Watch) (leave : InboxWatcher.Leave) :
    watcherStage (InboxWatcher.afterSession w leave).1 = .outside := by
  cases leave with
  | proceed => rfl
  | returned => exact last_finally_outside w
  | raised exception => rfl
  | cancelled => exact last_finally_outside w

theorem after_check_outside (w : Watch) (elapsed : Bool) (listens : w.pc = .idleCheck) :
    watcherStage (InboxWatcher.afterCheck w elapsed).1 = .outside := by
  unfold InboxWatcher.afterCheck
  dsimp only
  split
  · rfl
  · split
    · rfl
    · simp [watcherStage, listens]

def connects : InboxWatcher.Pc → Bool
  | .loadAccount | .opening | .awaitOpening | .closeSession _ => true
  | _ => false

theorem connects_stage {w : Watch} (inside : connects w.pc = true) :
    watcherStage w = .holding [.lock w.account] := by
  unfold connects at inside
  split at inside
  all_goals first
    | contradiction
    | rename_i pc
      simp [watcherStage, pc]

theorem thrown_watcher (w : Watch) :
    watcherStage (InboxWatcher.throwCancelled w).1 = .outside ∨
      (InboxWatcher.throwCancelled w).1.account = w.account ∧ connects w.pc = true ∧
        connects (InboxWatcher.throwCancelled w).1.pc = true := by
  unfold InboxWatcher.throwCancelled
  cases pc : w.pc with
  | loadAccount | opening | awaitOpening => exact Or.inr ⟨rfl, rfl, rfl⟩
  | created | shutdownClient | shutdownExecutor | done => exact Or.inl rfl
  | _ => exact Or.inl (last_finally_outside _)

theorem watcher_legal {w w' : Watch} {answer : InboxWatcher.Answer}
    {effects : List InboxWatcher.Effect}
    (step : InboxWatcher.resume w answer = some (w', effects))
    (ready : Ready h task w.mustCancel (watcherStage w)) :
    h.Legal rank task (watcherStage w) (watcherStage w') := by
  have leaves : ∀ {x}, watcherStage x = .outside →
      h.Legal rank task (watcherStage w) (watcherStage x) := by
    intro x out
    rw [out]
    exact .leaves _
  have keeps : ∀ {x : Watch}, x.account = w.account → connects w.pc = true →
      connects x.pc = true → h.Legal rank task (watcherStage w) (watcherStage x) := by
    intro x account inside still
    rw [connects_stage inside, connects_stage still, account]
    exact .stays _
  have asks : ∀ {x}, Outside x w.account → watcherStage w = .outside →
      h.Legal rank task (watcherStage w) (watcherStage x) := by
    intro x outside stage
    rcases outside with out | asking
    · exact leaves out
    · rw [stage, asking]
      exact .asks _
  unfold InboxWatcher.resume at step
  split at step
  · split at step
    · have same : (InboxWatcher.throwCancelled w).1 = w' :=
        congrArg Prod.fst (Option.some.inj step)
      rw [← same]
      rcases thrown_watcher w with out | ⟨account, inside, still⟩
      · exact leaves out
      · exact keeps account inside still
    · contradiction
  · rename_i calm
    have calm : w.mustCancel = false := by simpa using calm
    split at step
    case h_2 pc =>
      have stage : watcherStage w = .asking [] (.lock w.account) := by simp [watcherStage, pc]
      have same := congrArg Prod.fst (Option.some.inj step)
      subst same
      rw [stage]
      exact .admitted (ready calm _ _ stage)
    all_goals first
      | contradiction
      | rename_i pc
        have same := congrArg Prod.fst (Option.some.inj step)
        subst same
        first
          | exact keeps rfl (by rw [pc]; rfl) rfl
          | exact leaves rfl
          | exact leaves (after_session_outside _ _)
          | exact leaves (after_check_outside _ _ pc)
          | exact asks (inner_finally_outside _ _) (by rw [watcherStage, pc])
          | exact asks (after_finally_outside _ _) (by rw [watcherStage, pc])
          | exact asks (Or.inr rfl) (by rw [watcherStage, pc])

theorem refresh_legal {r r' : Refresh} {answer : RefreshAnswer}
    (step : resumeRefresh r answer = some r') (ready : Ready h task r.mustCancel (refreshStage r)) :
    h.Legal rank task (refreshStage r) (refreshStage r') := by
  have leaves : ∀ {x}, refreshStage x = .outside →
      h.Legal rank task (refreshStage r) (refreshStage x) := by
    intro x out
    rw [out]
    exact .leaves _
  unfold resumeRefresh at step
  split at step
  · split at step
    · rw [← Option.some.inj step]
      cases pc : r.pc with
      | work =>
        have stage : refreshStage r = .holding [.lock r.account] := by rw [refreshStage, pc]
        have same : refreshStage (refreshCancelled r) = .holding [.lock r.account] := by
          simp [refreshCancelled, pc, refreshStage]
        rw [stage, same]
        exact .stays _
      | _ => exact leaves (by simp [refreshCancelled, pc, refreshStage])
    · contradiction
  · rename_i calm
    have calm : r.mustCancel = false := by simpa using calm
    split at step
    case h_3 pc =>
      split at step
      · rw [← Option.some.inj step]
        exact leaves rfl
      · rw [← Option.some.inj step, refreshStage, pc]
        exact .asks _
    case h_4 pc =>
      have stage : refreshStage r = .asking [] (.lock r.account) := by rw [refreshStage, pc]
      rw [← Option.some.inj step, stage]
      exact .admitted (ready calm _ _ stage)
    case h_5 pc | h_6 pc =>
      rw [← Option.some.inj step, refreshStage, pc]
      exact .stays _
    all_goals first
      | contradiction
      | rw [← Option.some.inj step]
        exact leaves rfl

end Legal

/-- The task whose step a label is. -/
def mover (w : World) : Label → Nat
  | .startPass _ _ | .startWatcher _ _ _ | .startRefresh => w.spawned
  | .pass task _ | .watcher task _ | .refresh task _ | .cancel task => task

structure Sound (maxConcurrentSyncs : Nat) (w : World) : Prop where
  orderly : w.hall.Orderly rank
  capacity : ∀ r, (w.gates r).capacity = ((World.initial maxConcurrentSyncs).gates r).capacity
  unspawned : ∀ n, w.spawned ≤ n → w.tasks n = none

theorem initial_sound (n : Nat) : Sound n (World.initial n) where
  orderly := by
    have empty : ∀ r, ((World.initial n).gates r).queue = [] := by
      intro r
      cases r <;> rfl
    refine ⟨?_, ?_, ?_, ?_⟩
    · intro r
      rw [World.hall, empty]
      exact List.nodup_nil
    · intro r t
      rw [World.hall, empty]
      simp [World.initial, stageOf, Stage.claims]
    · intro r t has
      simp [World.hall, World.initial, stageOf, Stage.has] at has
    · intro t held r asking
      simp [World.hall, World.initial, stageOf] at asking
  capacity _ := rfl
  unspawned _ _ := rfl

/-- What a step does: one task, which is there or new, goes on to another stage. -/
structure Moves (w w' : World) (task : Nat) (t : Task) : Prop where
  tasks : w'.tasks = Function.update w.tasks task (some t)
  gates : w'.gates = (w.hall.move task t.stage).gates
  departed : ∀ r, w'.departed r =
    if task ∈ (w.gates r).queue ∧ r ∉ t.stage.claims then w.departed r ++ [task]
    else w.departed r
  spawned : w.spawned ≤ w'.spawned ∧ task < w'.spawned
  legal : w.hall.Legal rank task (w.hall.stage task) t.stage

theorem put_moves {w : World} {n task : Nat} (sound : Sound n w) {old t : Task}
    (found : w.tasks task = some old) (legal : w.hall.Legal rank task old.stage t.stage) :
    Moves w (w.put task t) task t where
  tasks := rfl
  gates := rfl
  departed _ := rfl
  spawned := by
    refine ⟨Nat.le_refl _, ?_⟩
    by_contra late
    rw [sound.unspawned task (Nat.le_of_not_lt late)] at found
    contradiction
  legal := by
    have stage : w.hall.stage task = old.stage := by simp [World.hall, stageOf, found]
    rw [stage]
    exact legal

theorem start_moves {w : World} {n : Nat} (sound : Sound n w) {t : Task}
    (fresh : t.stage = .outside ∨ ∃ r, t.stage = .asking [] r) :
    Moves w (w.start t) w.spawned t where
  tasks := rfl
  gates := rfl
  departed _ := rfl
  spawned := ⟨Nat.le_succ _, Nat.lt_succ_self _⟩
  legal := by
    have stage : w.hall.stage w.spawned = .outside := by
      simp [World.hall, stageOf, sound.unspawned w.spawned (Nat.le_refl _)]
    rw [stage]
    rcases fresh with out | ⟨r, asking⟩
    · rw [out]
      exact .stays _
    · rw [asking]
      exact .asks r

theorem ready_let_in {w : World} {task : Nat} {t : Task} (found : w.tasks task = some t)
    (ready : w.ready task t = true) : Ready w.hall task t.mustCancel t.stage := by
  intro calm held r stage
  have free : w.hall.waits task = none := by
    simpa [World.ready, calm] using ready
  have same : w.hall.stage task = .asking held r := by
    rw [← stage]
    simp [World.hall, stageOf, found]
  by_contra outside
  have kept : w.hall.waits task = some r := by
    unfold Hall.waits
    rw [same]
    exact if_neg outside
  rw [kept] at free
  contradiction

theorem cancel_stage (t : Task) : t.cancel.stage = t.stage := by cases t <;> rfl

/-- The inversion of a step. -/
theorem next_moves {n : Nat} {w w' : World} {l : Label} (sound : Sound n w)
    (step : next w l = some w') : ∃ t, Moves w w' (mover w l) t := by
  have goes : ∀ {task : Nat} {t : Task} {t' : Option Task}, w.tasks task = some t →
      w.step task t t' = some w' →
      (∀ x, t' = some x → Ready w.hall task t.mustCancel t.stage →
        w.hall.Legal rank task t.stage x.stage) → ∃ x, Moves w w' task x := by
    intro task t t' found taken legal
    unfold World.step at taken
    split at taken
    · rename_i ready
      obtain ⟨x, resumed, rfl⟩ := Option.map_eq_some_iff.mp taken
      exact ⟨x, put_moves sound found (legal x resumed (ready_let_in found ready))⟩
    · contradiction
  cases l with
  | startPass account scope =>
    rw [← Option.some.inj step]
    exact ⟨_, start_moves sound (Or.inr ⟨_, rfl⟩)⟩
  | startWatcher account folder path =>
    rw [← Option.some.inj step]
    exact ⟨_, start_moves sound (Or.inl rfl)⟩
  | startRefresh =>
    rw [← Option.some.inj step]
    exact ⟨_, start_moves sound (Or.inl rfl)⟩
  | pass task answer =>
    simp only [next] at step
    split at step
    · rename_i account s found
      refine goes found step ?_
      intro x resumed ready
      obtain ⟨⟨s', writes⟩, eq, rfl⟩ := Option.map_eq_some_iff.mp resumed
      exact pass_legal eq ready
    · contradiction
  | watcher task answer =>
    simp only [next] at step
    split at step
    · rename_i watch found
      refine goes found step ?_
      intro x resumed ready
      obtain ⟨⟨watch', effects⟩, eq, rfl⟩ := Option.map_eq_some_iff.mp resumed
      exact watcher_legal eq ready
    · contradiction
  | refresh task answer =>
    simp only [next] at step
    split at step
    · rename_i r found
      refine goes found step ?_
      intro x resumed ready
      obtain ⟨r', eq, rfl⟩ := Option.map_eq_some_iff.mp resumed
      exact refresh_legal eq ready
    · contradiction
  | cancel task =>
    obtain ⟨t, found, rfl⟩ := Option.map_eq_some_iff.mp step
    refine ⟨t.cancel, put_moves sound found ?_⟩
    rw [cancel_stage]
    exact .stays _

theorem moved_hall {w w' : World} {task : Nat} {t : Task} (moves : Moves w w' task t) :
    w'.hall = w.hall.move task t.stage := by
  have stages : stageOf w'.tasks = Function.update (stageOf w.tasks) task t.stage := by
    funext x
    rw [moves.tasks, stageOf]
    by_cases same : x = task
    · subst same
      rw [Function.update_self, Function.update_self]
      rfl
    · rw [Function.update_of_ne same, Function.update_of_ne same]
      rfl
  rw [World.hall, moves.gates, stages]
  rfl

theorem moves_sound {n : Nat} {w w' : World} {task : Nat} {t : Task} (sound : Sound n w)
    (moves : Moves w w' task t) : Sound n w' where
  orderly := by
    rw [moved_hall moves]
    exact move_orderly sound.orderly moves.legal
  capacity r := by
    rw [moves.gates, move_capacity]
    exact sound.capacity r
  unspawned m late := by
    have later := Nat.le_trans moves.spawned.1 late
    have other : m ≠ task := Nat.ne_of_gt (Nat.lt_of_lt_of_le moves.spawned.2 late)
    rw [moves.tasks, Function.update_of_ne other]
    exact sound.unspawned m later

theorem run_sound {n : Nat} {w w' : World} {labels : List Label} (sound : Sound n w)
    (run : replay next w labels = some w') : Sound n w' :=
  replay_invariant (Sound n) sound (fun _ _ _ sound step =>
    let ⟨_, moves⟩ := next_moves sound step
    moves_sound sound moves) run

variable {n : Nat} {labels : List Label} {w : World}

/-- Two tasks are never at work under the lock of one account, and no more passes are past
    the semaphore than are allowed to run at once. -/
theorem account_work_exclusive (run : replay next (World.initial n) labels = some w) :
    (∀ account a b, .lock account ∈ (w.hall.stage a).has → .lock account ∈ (w.hall.stage b).has →
      a = b) ∧
    ∀ passes : List Nat, passes.Nodup → (∀ p ∈ passes, .semaphore ∈ (w.hall.stage p).has) →
      passes.length ≤ n := by
  have sound := run_sound (initial_sound n) run
  constructor
  · intro account a b first second
    by_contra other
    have few : [a, b].length ≤ _ :=
      has_bounded sound.orderly (.lock account) (by simp [other]) (by simp [first, second])
    have single : (w.hall.gates (.lock account)).capacity = 1 := sound.capacity (.lock account)
    rw [single] at few
    simp at few
  · intro passes once admitted
    exact (has_bounded sound.orderly .semaphore once admitted).trans
      (Nat.le_of_eq (sound.capacity .semaphore))

/- A pass has started, and the watcher of the same account asks for the lock. -/
def busyLabels : List Label :=
  [.startPass 1 ⟨none, true⟩, .startWatcher 1 10 "INBOX", .pass 0 .ok, .pass 0 .ok,
    .watcher 1 .ok]

theorem busy_waits : (replay next (World.initial 2) busyLabels).map (fun w => w.hall.waits 1) =
    some (some (.lock 1)) := rfl

theorem account_work_exclusive_busy : ∃ w, replay next (World.initial 2) busyLabels = some w ∧
    (∀ account a b, .lock account ∈ (w.hall.stage a).has →
      .lock account ∈ (w.hall.stage b).has → a = b) ∧
    ∀ passes : List Nat, passes.Nodup → (∀ p ∈ passes, .semaphore ∈ (w.hall.stage p).has) →
      passes.length ≤ 2 := by
  obtain ⟨w, run, _⟩ := Option.map_eq_some_iff.mp busy_waits
  exact ⟨w, run, account_work_exclusive run⟩

/-- The label resumes the task. -/
def Resumes (task : Nat) : Label → Prop
  | .pass t _ | .watcher t _ | .refresh t _ => t = task
  | _ => False

theorem pass_resumable {s : Sync} (goes : ∀ leave, s.pc ≠ .ended leave) :
    ∃ answer, (InboxSyncTask.resume s answer).isSome := by
  unfold InboxSyncTask.resume
  cases must : s.mustCancel with
  | true => exact ⟨.cancelled, rfl⟩
  | false =>
    cases pc : s.pc with
    | loadAccount => exact ⟨.account none, rfl⟩
    | discover => exact ⟨.discovered [], rfl⟩
    | getFolder folder => exact ⟨.folder none, rfl⟩
    | opening => exact ⟨.fail "", rfl⟩
    | ended leave => exact absurd pc (goes leave)
    | _ => exact ⟨.ok, rfl⟩

theorem watcher_resumable {watch : Watch} (goes : watch.pc = .lock ∨ connects watch.pc = true) :
    ∃ answer, (InboxWatcher.resume watch answer).isSome := by
  unfold InboxWatcher.resume
  cases must : watch.mustCancel with
  | true => exact ⟨.cancelled, rfl⟩
  | false =>
    cases pc : watch.pc with
    | lock => exact ⟨.ok, rfl⟩
    | loadAccount => exact ⟨.account true, rfl⟩
    | opening | awaitOpening | closeSession => exact ⟨.fail "", rfl⟩
    | _ => simp [pc, connects] at goes

theorem refresh_resumable {r : Refresh} (goes : refreshStage r ≠ .outside) :
    ∃ answer, (resumeRefresh r answer).isSome := by
  unfold resumeRefresh
  cases must : r.mustCancel with
  | true => exact ⟨.cancelled, rfl⟩
  | false =>
    cases pc : r.pc with
    | lock | work => exact ⟨.ok, rfl⟩
    | closeSession cancelled => cases cancelled <;> exact ⟨.ok, rfl⟩
    | _ => simp [refreshStage, pc] at goes

/- A task in the hall that no gate keeps waiting can be resumed. -/
theorem resumable {task : Nat} (inside : w.hall.stage task ≠ .outside)
    (free : w.hall.waits task = none) : ∃ l, Resumes task l ∧ (next w l).isSome := by
  cases found : w.tasks task with
  | none => exact absurd (by simp [World.hall, stageOf, found]) inside
  | some t =>
    have stage : w.hall.stage task = t.stage := by simp [World.hall, stageOf, found]
    rw [stage] at inside
    have ready : w.ready task t = true := by simp [World.ready, free]
    cases t with
    | pass account s =>
      have goes : ∀ leave, s.pc ≠ .ended leave := by
        intro leave pc
        exact inside (by rw [Task.stage, passStage, pc])
      obtain ⟨answer, answered⟩ := pass_resumable goes
      exact ⟨.pass task answer, rfl, by simp [next, found, World.step, ready, answered]⟩
    | watcher watch =>
      have goes : watch.pc = .lock ∨ connects watch.pc = true := by
        by_contra out
        apply inside
        cases pc : watch.pc <;> simp_all [Task.stage, watcherStage, connects]
      obtain ⟨answer, answered⟩ := watcher_resumable goes
      exact ⟨.watcher task answer, rfl, by simp [next, found, World.step, ready, answered]⟩
    | refresh r =>
      obtain ⟨answer, answered⟩ := refresh_resumable inside
      exact ⟨.refresh task answer, rfl, by simp [next, found, World.step, ready, answered]⟩

/-- Passes, watchers and the token refresh never wait for each other in a circle: behind
    every task that is kept waiting there is one that can go on. -/
theorem locks_never_deadlock (positive : 0 < n) (run : replay next (World.initial n) labels = some w)
    {task : Nat} {r : Resource} (waiting : w.hall.waits task = some r) :
    ∃ task', Relation.TransGen (Blocks w.hall.waits w.hall.holds) task task' ∧
      ∃ l, Resumes task' l ∧ (next w l).isSome := by
  have sound := run_sound (initial_sound n) run
  have room : ∀ q, 0 < (w.hall.gates q).capacity := by
    intro q
    have same : (w.hall.gates q).capacity = ((World.initial n).gates q).capacity :=
      sound.capacity q
    rw [same]
    cases q with
    | lock account => exact Nat.one_pos
    | semaphore => exact positive
  obtain ⟨task', chain, free⟩ := never_deadlocked sound.orderly room waiting
  refine ⟨task', chain, resumable ?_ free⟩
  obtain ⟨before, _, q, _, holds⟩ := Relation.TransGen.tail'_iff.mp chain
  have claimed := (sound.orderly.queued q task').mp (inside_queue holds)
  intro out
  rw [out] at claimed
  contradiction

theorem locks_never_deadlock_busy : ∃ w task',
    replay next (World.initial 2) busyLabels = some w ∧
      Relation.TransGen (Blocks w.hall.waits w.hall.holds) 1 task' ∧
      ∃ l, Resumes task' l ∧ (next w l).isSome := by
  obtain ⟨w, run, waits⟩ := Option.map_eq_some_iff.mp busy_waits
  obtain ⟨task', chain, goes⟩ := locks_never_deadlock (by decide) run waits
  exact ⟨w, task', run, chain, goes⟩

/-- Ahead of a task are those who were ahead before and have not departed since. -/
def Advances (before after : World) (task : Nat) (r : Resource) : Prop :=
  ∃ gone, after.departed r = before.departed r ++ gone ∧
    (after.gates r).ahead task = ((before.gates r).ahead task).filter (· ∉ gone)

theorem moves_advances {before w w' : World} (sound : Sound n w) {task other : Nat} {t : Task}
    {r : Resource} (present : task ∈ (w.gates r).queue) (advances : Advances before w task r)
    (moves : Moves w w' other t) (apart : other ≠ task) :
    task ∈ (w'.gates r).queue ∧ Advances before w' task r := by
  obtain ⟨gone, departed, ahead⟩ := advances
  have gate : w'.gates r = (w.hall.move other t.stage).gates r := by rw [moves.gates]
  have place := move_ahead sound.orderly t.stage apart present
  constructor
  · rw [gate, move_queued sound.orderly, move_other (Ne.symm apart), ← sound.orderly.queued]
    exact present
  · by_cases leaves : other ∈ (w.gates r).queue ∧ r ∉ t.stage.claims
    · refine ⟨gone ++ [other], ?_, ?_⟩
      · rw [moves.departed r, if_pos leaves, departed, List.append_assoc]
      · have without : (w'.gates r).ahead task = ((w.gates r).ahead task).filter (· ≠ other) := by
          rw [gate, place]
          exact if_pos leaves
        rw [without, ahead, List.filter_filter]
        exact List.filter_congr fun x _ => by simp [and_comm]
    · refine ⟨gone, ?_, ?_⟩
      · rw [moves.departed r, if_neg leaves, departed]
      · rw [gate, place, ← ahead]
        exact if_neg leaves

/-- First come, first served: as long as a waiting task is not touched, ahead of it are
    those who came before it and have not departed since, and it is inside as soon as there
    is room beside them. -/
theorem waiting_is_bounded {labels' : List Label} {w' : World}
    (run : replay next (World.initial n) labels = some w) {task : Nat} {r : Resource}
    (waiting : w.hall.waits task = some r)
    (later : replay (restrict (fun w l => mover w l ≠ task) next) w labels' = some w') :
    ∃ gone, w'.departed r = w.departed r ++ gone ∧
      (w'.gates r).ahead task = ((w.gates r).ahead task).filter (· ∉ gone) ∧
      (task ∈ (w'.gates r).inside ↔
        (((w.gates r).ahead task).filter (· ∉ gone)).length < (w.gates r).capacity) := by
  have sound := run_sound (initial_sound n) run
  have queued : task ∈ (w.gates r).queue := by
    apply (sound.orderly.queued r task).mpr
    unfold Hall.waits at waiting
    split at waiting
    · rename_i held q stage
      split at waiting
      · contradiction
      · cases waiting
        rw [stage]
        exact List.mem_append_right _ List.mem_cons_self
    · contradiction
  have all : Sound n w' ∧ task ∈ (w'.gates r).queue ∧ Advances w w' task r := by
    refine replay_invariant (fun u => Sound n u ∧ task ∈ (u.gates r).queue ∧ Advances w u task r)
      ⟨sound, queued, [], by simp, by simp⟩ ?_ later
    intro u l u' before step
    obtain ⟨apart, step⟩ := restrict_step step
    obtain ⟨t, moves⟩ := next_moves before.1 step
    exact ⟨moves_sound before.1 moves,
      moves_advances before.1 before.2.1 before.2.2 moves (of_decide_eq_true apart)⟩
  obtain ⟨sound', present, gone, departed, ahead⟩ := all
  have same : (w'.gates r).capacity = (w.gates r).capacity :=
    (sound'.capacity r).trans (sound.capacity r).symm
  refine ⟨gone, departed, ahead, ?_⟩
  rw [inside_iff present, ahead, same]

/- A second watcher asks for the lock after the first one. -/
def queueLabels : List Label := busyLabels ++ [.startWatcher 1 11 "Work", .watcher 2 .ok]

/- The first watcher is cancelled while it waits, and then the pass while it connects; the
   attempt to connect still succeeds. -/
def cancelledLabels : List Label :=
  [.cancel 1, .watcher 1 .cancelled, .pass 0 (.account (some [10])), .cancel 0,
    .pass 0 .cancelled, .pass 0 .ok, .pass 0 .ok, .pass 0 .ok, .pass 0 .ok]

theorem queue_waits : (replay next (World.initial 2) queueLabels).map (fun w =>
    (w.hall.waits 2, (w.gates (.lock 1)).ahead 2, w.departed (.lock 1),
      (w.gates (.lock 1)).capacity)) = some (some (.lock 1), [0, 1], [], 1) := rfl

theorem cancelled_depart : (replay next (World.initial 2) queueLabels).bind (fun w =>
    (replay (restrict (fun w l => mover w l ≠ 2) next) w cancelledLabels).map fun w' =>
      w'.departed (.lock 1)) = some [1, 0] := rfl

theorem waiting_is_bounded_cancelled : ∃ w w', replay next (World.initial 2) queueLabels = some w ∧
    replay (restrict (fun w l => mover w l ≠ 2) next) w cancelledLabels = some w' ∧
      w'.departed (.lock 1) = [1, 0] ∧ 2 ∈ (w'.gates (.lock 1)).inside := by
  obtain ⟨w, run, facts⟩ := Option.map_eq_some_iff.mp queue_waits
  obtain ⟨u, run', last⟩ := Option.bind_eq_some_iff.mp cancelled_depart
  rw [run] at run'
  cases run'
  obtain ⟨w', later, departed⟩ := Option.map_eq_some_iff.mp last
  simp only [Prod.mk.injEq] at facts
  obtain ⟨waits, ahead, before, capacity⟩ := facts
  obtain ⟨gone, since, _, inside⟩ := waiting_is_bounded run waits later
  rw [before, departed, List.nil_append] at since
  refine ⟨w, w', run, later, departed, inside.mpr ?_⟩
  rw [ahead, capacity, ← since]
  decide

end InboxSyncLocks
