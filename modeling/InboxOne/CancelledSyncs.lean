import InboxOne.SyncTask

/-!
The drain tasks of `requests.py` with the awaits of the pass each of them is in. The field
`log` only observes the run, newest first; a request that is taken is recorded with the
task that was registered then.
-/
namespace InboxCancelledSyncs
open LabelledRuns InboxRequests InboxSyncTask
open InboxWatcher (safeError)

inductive Record where
  | retired (task account : Nat)
  | taken (task account : Nat) (registered : Option Nat)
  | wroteErrors (task : Nat)
  | wroteStatus (task : Nat)
  deriving DecidableEq, Repr

/-- What the account row says about its latest pass. -/
structure LastSync where
  status : String
  error : Option String
  deriving DecidableEq, Repr

structure World where
  requests : Requests
  syncs : Nat → Option Sync
  accountErrors : Nat → Option String
  lastSync : Nat → Option LastSync
  log : List Record

def World.initial : World := ⟨.initial, fun _ => none, fun _ => none, fun _ => none, []⟩

def lastSyncOf (errors : List String) : LastSync where
  status := if errors = [] then "ok" else "error"
  error := if errors = [] then none else some ("; ".intercalate errors)

def applyWrite (task account : Nat) (w : World) : Write → World
  | .accountError error =>
      { w with
        accountErrors := Function.update w.accountErrors account (some error)
        log := .wroteErrors task :: w.log }
  | .clearError =>
      { w with
        accountErrors := Function.update w.accountErrors account none
        log := .wroteErrors task :: w.log }
  | .status errors =>
      { w with
        lastSync := Function.update w.lastSync account (some (lastSyncOf errors))
        log := .wroteStatus task :: w.log }

/- The loop test of `_drain`, up to the first await of the next pass or the end. -/
def enterLoop (w : World) (task account : Nat) : World :=
  let requests := drainLoop w.requests task account
  match requests.tasks task with
  | some ⟨_, .inPass scope _, _⟩ =>
      { w with
        requests := requests
        syncs := Function.update w.syncs task (some (.start scope))
        log := .taken task account (w.requests.running account) :: w.log }
  | _ => { w with requests := requests, syncs := Function.update w.syncs task none }

def finishActivity (w : World) (activity : Nat) : World :=
  { w with requests := { w.requests with activities := w.requests.activities.finish activity } }

/- `_drain` once `sync_account` is left. -/
def leavePass (w : World) (task account activity : Nat) : Leave → World
  | .returned => enterLoop (finishActivity w activity) task account
  | .raised exception =>
      enterLoop (finishActivity (applyWrite task account w (.accountError (safeError exception)))
        activity) task account
  | .cancelled =>
      { w with
        requests := exitDrain (finishActivity w activity).requests task account
        syncs := Function.update w.syncs task none }

/- The task is suspended again, or its pass is over. -/
def proceed (w : World) (task account activity : Nat) (s : Sync) : World :=
  match s.pc with
  | .ended leave => leavePass w task account activity leave
  | _ => { w with syncs := Function.update w.syncs task (some s) }

inductive Label where
  | request (account : Nat) (folders : Option (Finset Nat)) (discover : Bool)
      (parent : Option Nat) (now : Nat)
  | cancel (account : Nat)
  | start (task : Nat)
  | answer (task : Nat) (answer : Answer)
  | doneCallback (task : Nat)

def cancelSync (w : World) (account : Nat) : World :=
  match w.requests.running account with
  | none => { w with requests := cancelAccount w.requests account }
  | some task =>
      { w with
        requests := cancelAccount w.requests account
        syncs := Function.update w.syncs task
          ((w.syncs task).map fun s => { s with mustCancel := true })
        log := .retired task account :: w.log }

def next (w : World) : Label → Option World
  | .request account folders discover parent now =>
      some { w with requests := (requestSync w.requests account folders discover parent now).1 }
  | .cancel account => some (cancelSync w account)
  | .start task =>
      match w.requests.tasks task with
      | some ⟨account, .created, false⟩ => some (enterLoop w task account)
      | some ⟨account, .created, true⟩ =>
          some { w with requests := abandonDrain w.requests task account }
      | _ => none
  | .answer task a =>
      match w.requests.tasks task, w.syncs task with
      | some ⟨account, .inPass _ activity, _⟩, some s =>
          (resume s a).map fun (s', writes) =>
            proceed (writes.foldl (applyWrite task account) w) task account activity s'
      | _, _ => none
  | .doneCallback task =>
      (InboxRequests.next w.requests (.doneCallback task)).map fun requests =>
        { w with requests := requests }

/- The loop goes on with a pass, or the task ends. -/
theorem drain_loop_cases (s : Requests) (task account : Nat) :
    (drainLoop s task account = exitDrain s task account ∨
      drainLoop s task account =
        exitDrain { s with pending := Function.update s.pending account none } task account) ∨
    ∃ scope activity, (drainLoop s task account).tasks =
        Function.update s.tasks task (some ⟨account, .inPass scope activity, false⟩) ∧
      (drainLoop s task account).running = s.running := by
  unfold drainLoop
  split
  · exact Or.inl (Or.inl rfl)
  · dsimp only
    split
    · exact Or.inl (Or.inr rfl)
    · exact Or.inr ⟨_, _, rfl, rfl⟩

/-- What happens to one task and to the registry when the task goes on or ends. -/
inductive Moves (w w' : World) (task account : Nat) : Prop where
  | again (scope : Scope) (activity : Nat)
      (tasks : w'.requests.tasks = Function.update w.requests.tasks task
        (some ⟨account, .inPass scope activity, false⟩))
      (running : w'.requests.running = w.requests.running)
      (syncs : w'.syncs = Function.update w.syncs task (some (.start scope)))
      (log : w'.log = .taken task account (w.requests.running account) :: w.log)
  | ends (tasks : w'.requests.tasks = Function.update w.requests.tasks task
        (some ⟨account, .done, false⟩))
      (running : ∀ a t, t ≠ task → (w'.requests.running a = some t ↔
        w.requests.running a = some t))
      (syncs : w'.syncs = Function.update w.syncs task none) (log : w'.log = w.log)

theorem exit_running (s : Requests) (task account : Nat) {a t : Nat} (other : t ≠ task) :
    (exitDrain s task account).running a = some t ↔ s.running a = some t := by
  unfold exitDrain
  dsimp only
  split
  · rename_i own
    by_cases same : a = account
    · subst same
      rw [Function.update_self, own]
      simp [Ne.symm other]
    · rw [Function.update_of_ne same]
  · exact Iff.rfl

theorem enter_loop_moves (w : World) (task account : Nat) :
    Moves w (enterLoop w task account) task account := by
  unfold enterLoop
  dsimp only
  have ended : ∀ s : Requests, s.tasks = w.requests.tasks → s.running = w.requests.running →
      Moves w { w with requests := exitDrain s task account,
                       syncs := Function.update w.syncs task none } task account := by
    intro s tasks running
    apply Moves.ends
    · simp only [exitDrain, tasks]
    · intro a t other
      rw [← running]
      exact exit_running s task account other
    · rfl
    · rfl
  have done_ : ∀ s : Requests, (exitDrain s task account).tasks task =
      some ⟨account, .done, false⟩ := fun s => Function.update_self ..
  rcases drain_loop_cases w.requests task account with (stops | stops) |
    ⟨scope, activity, tasks, running⟩
  · rw [stops, done_]
    exact ended w.requests rfl rfl
  · rw [stops, done_]
    refine ended _ ?_ ?_
    · rfl
    · rfl
  · rw [tasks, Function.update_self]
    exact .again scope activity tasks running rfl rfl

/-- The task that took a request or wrote. -/
def Record.actor : Record → Option Nat
  | .taken task _ _ | .wroteErrors task | .wroteStatus task => some task
  | .retired _ _ => none

/-- Writes leave everything but the written tables and the log alone. -/
theorem writes_frame (task account : Nat) (writes : List Write) (w : World) :
    (writes.foldl (applyWrite task account) w).requests = w.requests ∧
      (writes.foldl (applyWrite task account) w).syncs = w.syncs ∧
      ∃ extra, (writes.foldl (applyWrite task account) w).log = extra ++ w.log ∧
        ∀ r ∈ extra, r = .wroteErrors task ∨ r = .wroteStatus task := by
  induction writes generalizing w with
  | nil => exact ⟨rfl, rfl, [], rfl, by simp⟩
  | cons write rest ih =>
    obtain ⟨requests, syncs, extra, log, own⟩ := ih (applyWrite task account w write)
    have one : (applyWrite task account w write).requests = w.requests ∧
        (applyWrite task account w write).syncs = w.syncs ∧
        ∃ r, (applyWrite task account w write).log = r :: w.log ∧
          (r = .wroteErrors task ∨ r = .wroteStatus task) := by
      cases write with
      | accountError error => exact ⟨rfl, rfl, _, rfl, Or.inl rfl⟩
      | clearError => exact ⟨rfl, rfl, _, rfl, Or.inl rfl⟩
      | status errors => exact ⟨rfl, rfl, _, rfl, Or.inr rfl⟩
    obtain ⟨requests', syncs', r, log', kind⟩ := one
    rw [List.foldl_cons]
    refine ⟨requests.trans requests', syncs.trans syncs', extra ++ [r], ?_, ?_⟩
    · rw [log, log', List.append_assoc, List.singleton_append]
    · intro r' mem
      rcases List.mem_append.mp mem with old | new
      · exact own r' old
      · exact List.mem_singleton.mp new ▸ kind

/- The tables of the calls and of the drain tasks agree in every reachable state. -/
structure Linked (w : World) : Prop where
  requests : InboxRequests.Sound w.requests
  running : ∀ t s, w.syncs t = some s → ∃ account scope activity cancelled,
    w.requests.tasks t = some ⟨account, .inPass scope activity, cancelled⟩ ∧
      (Thrown s → cancelled = true)
  inPass : ∀ t account scope activity cancelled,
    w.requests.tasks t = some ⟨account, .inPass scope activity, cancelled⟩ →
      ∃ s, w.syncs t = some s

/- One task and its call are rewritten. -/
theorem linked_update {w w' : World} {task : Nat} {drain : Drain} {call : Option Sync}
    (linked : Linked w) (sound : InboxRequests.Sound w'.requests)
    (tasks : w'.requests.tasks = Function.update w.requests.tasks task (some drain))
    (syncs : w'.syncs = Function.update w.syncs task call)
    (calls : ∀ s, call = some s → ∃ scope activity, drain.phase = .inPass scope activity ∧
      (Thrown s → drain.cancelled = true))
    (passes : ∀ scope activity, drain.phase = .inPass scope activity → ∃ s, call = some s) :
    Linked w' where
  requests := sound
  running t s found := by
    rw [syncs] at found
    rw [tasks]
    by_cases own : t = task
    · subst own
      rw [Function.update_self] at found
      obtain ⟨scope, activity, phase, must⟩ := calls s found
      refine ⟨drain.account, scope, activity, drain.cancelled, ?_, must⟩
      rw [Function.update_self, ← phase]
    · rw [Function.update_of_ne own] at found ⊢
      exact linked.running t s found
  inPass t account scope activity cancelled found := by
    rw [tasks] at found
    rw [syncs]
    rcases written_cell found with ⟨rfl, rfl⟩ | ⟨own, old⟩
    · rw [Function.update_self]
      exact passes scope activity rfl
    · rw [Function.update_of_ne own]
      exact linked.inPass t account scope activity cancelled old

theorem moves_linked {w w' : World} {task account : Nat} (linked : Linked w)
    (sound : InboxRequests.Sound w'.requests) (moves : Moves w w' task account) : Linked w' := by
  cases moves with
  | again scope activity tasks running syncs log =>
    apply linked_update linked sound tasks syncs
    · intro s started
      cases started
      exact ⟨scope, activity, rfl, by simp [Thrown, Sync.start]⟩
    · intro _ _ _
      exact ⟨_, rfl⟩
  | ends tasks running syncs log =>
    apply linked_update linked sound tasks syncs
    · intro s started
      contradiction
    · intro scope activity inPass
      contradiction

/- Only a task in a pass has a call. -/
theorem no_call {w : World} (linked : Linked w) {task : Nat}
    (outside : ∀ account scope activity cancelled,
      w.requests.tasks task ≠ some ⟨account, .inPass scope activity, cancelled⟩) :
    w.syncs = Function.update w.syncs task none := by
  have absent : w.syncs task = none := by
    cases suspended : w.syncs task with
    | none => rfl
    | some s =>
      obtain ⟨account, scope, activity, cancelled, drain, _⟩ := linked.running task s suspended
      exact absurd drain (outside account scope activity cancelled)
  rw [← absent, Function.update_eq_self]

theorem request_tasks (s : Requests) (account : Nat) (folders : Option (Finset Nat))
    (discover : Bool) (parent : Option Nat) (now : Nat) :
    ((requestSync s account folders discover parent now).1.tasks = s.tasks ∧
      (requestSync s account folders discover parent now).1.running = s.running) ∨
    (s.running account = none ∧
      (requestSync s account folders discover parent now).1.tasks =
        Function.update s.tasks s.spawned (some ⟨account, .created, false⟩) ∧
      (requestSync s account folders discover parent now).1.running =
        Function.update s.running account (some s.spawned)) := by
  unfold requestSync ensureDrain
  split
  · exact Or.inl ⟨rfl, rfl⟩
  · rename_i free
    exact Or.inr ⟨free, rfl, rfl⟩

theorem cancel_tasks (s : Requests) (account : Nat) :
    (s.running account = none ∧ (cancelAccount s account).tasks = s.tasks ∧
      (cancelAccount s account).running = s.running) ∨
    ∃ task, s.running account = some task ∧
      (cancelAccount s account).tasks = Function.update s.tasks task
        ((s.tasks task).map fun drain => { drain with cancelled := true }) ∧
      (cancelAccount s account).running = Function.update s.running account none := by
  unfold cancelAccount retireDrain
  have same : (dropPending s account).running = s.running := rfl
  rw [same]
  cases registered : s.running account with
  | none => exact Or.inl ⟨rfl, rfl, rfl⟩
  | some task => exact Or.inr ⟨task, rfl, rfl, rfl⟩

theorem answer_cases {w w' : World} {task : Nat} {a : Answer}
    (step : next w (.answer task a) = some w') : ∃ account scope activity cancelled s s' writes,
      w.requests.tasks task = some ⟨account, .inPass scope activity, cancelled⟩ ∧
      w.syncs task = some s ∧ resume s a = some (s', writes) ∧
      w' = proceed (writes.foldl (applyWrite task account) w) task account activity s' := by
  simp only [next] at step
  split at step
  · rename_i account scope activity cancelled s found suspended
    obtain ⟨⟨s', writes⟩, resumed, eq⟩ := Option.map_eq_some_iff.mp step
    exact ⟨account, scope, activity, cancelled, s, s', writes, found, suspended, resumed, eq.symm⟩
  · contradiction

theorem proceed_cases (w : World) (task account activity : Nat) (s : Sync) :
    ((∀ leave, s.pc ≠ .ended leave) ∧ proceed w task account activity s =
      { w with syncs := Function.update w.syncs task (some s) }) ∨
    ∃ leave, s.pc = .ended leave ∧
      proceed w task account activity s = leavePass w task account activity leave := by
  unfold proceed
  split
  · rename_i leave pc
    exact Or.inr ⟨leave, pc, rfl⟩
  · rename_i other
    exact Or.inl ⟨fun leave pc => other leave pc, rfl⟩

/- The activities are in no table that decides about tasks. -/
theorem moves_finished {w w' : World} {task account activity : Nat}
    (moves : Moves (finishActivity w activity) w' task account) : Moves w w' task account := by
  cases moves with
  | again scope activity tasks running syncs log => exact .again scope activity tasks running syncs log
  | ends tasks running syncs log => exact .ends tasks running syncs log

theorem returned_moves (w : World) (task account activity : Nat) :
    Moves w (leavePass w task account activity .returned) task account :=
  moves_finished (enter_loop_moves (finishActivity w activity) task account)

theorem cancelled_moves (w : World) (task account activity : Nat) :
    Moves w (leavePass w task account activity .cancelled) task account :=
  .ends rfl (fun _ _ other => exit_running _ task account other) rfl rfl

/- An exception is reported, and then the loop goes on. -/
theorem raised_returned (w : World) (task account activity : Nat) (exception : String) :
    leavePass w task account activity (.raised exception) =
      leavePass (applyWrite task account w (.accountError (safeError exception))) task account
        activity .returned := rfl

theorem enter_loop_requests (w : World) (task account : Nat) :
    (enterLoop w task account).requests = drainLoop w.requests task account := by
  unfold enterLoop
  dsimp only
  split
  · rfl
  · rfl

/-- Every step is a step of the machine without the awaits of a pass, or does not touch
    its tables. -/
theorem next_refines {w w' : World} {l : Label} (linked : Linked w)
    (step : next w l = some w') : w'.requests = w.requests ∨
      ∃ l', InboxRequests.next w.requests l' = some w'.requests := by
  cases l with
  | request account folders discover parent now =>
    cases step
    exact Or.inr ⟨.request account folders discover parent now, rfl⟩
  | cancel account =>
    cases step
    right
    refine ⟨.cancel account, ?_⟩
    unfold cancelSync
    split
    · rfl
    · rfl
  | start task =>
    right
    refine ⟨.start task, ?_⟩
    simp only [next] at step
    split at step
    · rename_i account found
      cases step
      rw [enter_loop_requests, InboxRequests.next, found]
    · rename_i account found
      cases step
      rw [InboxRequests.next, found]
    · contradiction
  | answer task a =>
    obtain ⟨account, scope, activity, cancelled, s, s', writes, found, suspended, resumed, eq⟩ :=
      answer_cases step
    obtain ⟨requests, _, _⟩ := writes_frame task account writes w
    rcases proceed_cases (writes.foldl (applyWrite task account) w) task account activity s' with
      ⟨_, stays⟩ | ⟨leave, pc, leaves⟩
    · left
      rw [eq, stays]
      exact requests
    · right
      rw [eq, leaves]
      cases leave with
      | returned =>
        refine ⟨.passEnds task .normal, ?_⟩
        rw [leavePass, enter_loop_requests, InboxRequests.next, found]
        simp only [finishActivity, requests]
      | raised exception =>
        refine ⟨.passEnds task .exception, ?_⟩
        rw [leavePass, enter_loop_requests, InboxRequests.next, found]
        simp only [finishActivity, applyWrite, requests]
      | cancelled =>
        refine ⟨.passEnds task .cancelledError, ?_⟩
        have thrown : Thrown s := by
          apply thrown_resume resumed
          right
          rw [pc]
          trivial
        obtain ⟨_, _, _, _, found', must⟩ := linked.running task s suspended
        rw [found] at found'
        cases found'
        simp only [InboxRequests.next, found, must thrown, if_true, leavePass, finishActivity,
          requests]
  | doneCallback task =>
    obtain ⟨requests, stepped, eq⟩ := Option.map_eq_some_iff.mp step
    subst eq
    exact Or.inr ⟨.doneCallback task, stepped⟩

theorem requests_sound {w w' : World} {l : Label} (linked : Linked w)
    (step : next w l = some w') : InboxRequests.Sound w'.requests := by
  rcases next_refines linked step with same | ⟨l', stepped⟩
  · exact same ▸ linked.requests
  · exact InboxRequests.next_sound linked.requests stepped

/- Calls of the others, and the tasks they belong to, are as they were. -/
theorem linked_frame {w w' : World} (linked : Linked w)
    (sound : InboxRequests.Sound w'.requests) (tasks : w'.requests.tasks = w.requests.tasks)
    (syncs : w'.syncs = w.syncs) : Linked w' where
  requests := sound
  running t s found := by
    rw [tasks]
    exact linked.running t s (syncs ▸ found)
  inPass t account scope activity cancelled found := by
    rw [syncs]
    exact linked.inPass t account scope activity cancelled (tasks ▸ found)

theorem request_linked {w : World} (linked : Linked w) (account : Nat)
    (folders : Option (Finset Nat)) (discover : Bool) (parent : Option Nat) (now : Nat) :
    Linked { w with
      requests := (requestSync w.requests account folders discover parent now).1 } := by
  have sound := InboxRequests.request_sound linked.requests account folders discover parent now
  rcases request_tasks w.requests account folders discover parent now with
    ⟨tasks, _⟩ | ⟨_, tasks, _⟩
  · exact linked_frame linked sound tasks rfl
  · have fresh := linked.requests.unspawned w.requests.spawned (Nat.le_refl _)
    have idle : w.syncs = Function.update w.syncs w.requests.spawned none := by
      apply no_call linked
      simp [fresh]
    refine linked_update linked sound tasks idle ?_ ?_
    · intro s started
      contradiction
    · intro scope activity inPass
      contradiction

theorem cancel_linked {w : World} (linked : Linked w) (account : Nat) :
    Linked (cancelSync w account) := by
  have sound := InboxRequests.cancel_sound linked.requests account
  rcases cancel_tasks w.requests account with ⟨free, tasks, _⟩ | ⟨task, registered, tasks, _⟩
  · unfold cancelSync
    rw [free]
    exact linked_frame linked sound tasks rfl
  · obtain ⟨phase, drain, _⟩ := linked.requests.registered account task registered
    rw [drain, Option.map_some] at tasks
    unfold cancelSync
    rw [registered]
    refine linked_update linked sound tasks rfl ?_ ?_
    · intro s found
      obtain ⟨s', suspended, _⟩ := Option.map_eq_some_iff.mp found
      obtain ⟨a, scope, activity, cancelled, drain', _⟩ := linked.running task s' suspended
      rw [drain] at drain'
      cases drain'
      exact ⟨scope, activity, rfl, fun _ => rfl⟩
    · intro scope activity inPass
      cases inPass
      obtain ⟨s, suspended⟩ := linked.inPass task account scope activity false drain
      exact ⟨_, by rw [suspended, Option.map_some]⟩

/- A cancelled task that never started has no call. -/
theorem abandon_moves {w : World} (linked : Linked w) {task account : Nat}
    (found : w.requests.tasks task = some ⟨account, .created, true⟩) :
    Moves w { w with requests := abandonDrain w.requests task account } task account := by
  refine .ends rfl (fun _ _ _ => Iff.rfl) ?_ rfl
  apply no_call linked
  simp [found]

theorem answer_linked {w w' : World} {task : Nat} {a : Answer} (linked : Linked w)
    (step : next w (.answer task a) = some w') : Linked w' := by
  have sound := requests_sound linked step
  obtain ⟨account, scope, activity, cancelled, s, s', writes, found, suspended, resumed, eq⟩ :=
    answer_cases step
  obtain ⟨requests, syncs, _⟩ := writes_frame task account writes w
  have written : Linked (writes.foldl (applyWrite task account) w) :=
    linked_frame linked (requests ▸ linked.requests) (by rw [requests]) syncs
  rw [eq] at sound ⊢
  rcases proceed_cases (writes.foldl (applyWrite task account) w) task account activity s' with
    ⟨_, stays⟩ | ⟨leave, _, leaves⟩
  · rw [stays] at sound ⊢
    have same : (writes.foldl (applyWrite task account) w).requests.tasks =
        Function.update (writes.foldl (applyWrite task account) w).requests.tasks task
          (some ⟨account, .inPass scope activity, cancelled⟩) := by
      rw [← found, requests, Function.update_eq_self]
    refine linked_update written sound same rfl ?_ ?_
    · intro x call
      cases call
      obtain ⟨_, _, _, _, drain, must⟩ := linked.running task s suspended
      rw [found] at drain
      cases drain
      exact ⟨scope, activity, rfl, fun thrown => must (thrown_resume resumed thrown)⟩
    · intro _ _ _
      exact ⟨s', rfl⟩
  · rw [leaves] at sound ⊢
    cases leave with
    | returned => exact moves_linked written sound (returned_moves _ task account activity)
    | raised exception =>
      rw [raised_returned] at sound ⊢
      refine moves_linked (linked_frame written ?_ ?_ ?_) sound (returned_moves _ task account activity)
      · exact written.requests
      · rfl
      · rfl
    | cancelled => exact moves_linked written sound (cancelled_moves _ task account activity)

theorem next_linked {w w' : World} {l : Label} (linked : Linked w)
    (step : next w l = some w') : Linked w' := by
  have sound := requests_sound linked step
  cases l with
  | request account folders discover parent now =>
    cases step
    exact request_linked linked account folders discover parent now
  | cancel account =>
    cases step
    exact cancel_linked linked account
  | start task =>
    simp only [next] at step
    split at step
    · cases step
      exact moves_linked linked sound (enter_loop_moves w task _)
    · rename_i account found
      cases step
      exact moves_linked linked sound (abandon_moves linked found)
    · contradiction
  | answer task a => exact answer_linked linked step
  | doneCallback task =>
    obtain ⟨requests, stepped, eq⟩ := Option.map_eq_some_iff.mp step
    subst eq
    refine linked_frame linked sound ?_ rfl
    simp only [InboxRequests.next] at stepped
    split at stepped
    · cases stepped
      rfl
    · contradiction

theorem initial_linked : Linked .initial where
  requests := InboxRequests.initial_sound
  running t s found := by contradiction
  inPass t account scope activity cancelled found := by contradiction

/-- What `requests.py` sees of a run is a run of the machine in which a pass may end in
    any way that its cancellation allows. -/
theorem run_refines {labels : List Label} {w : World}
    (run : replay next .initial labels = some w) :
    ∃ labels', replay InboxRequests.next .initial labels' = some w.requests := by
  have both : Linked w ∧ ∃ labels', replay InboxRequests.next .initial labels' =
      some w.requests := by
    apply replay_invariant (fun w => Linked w ∧ ∃ labels',
      replay InboxRequests.next .initial labels' = some w.requests) _ _ run
    · exact ⟨initial_linked, [], rfl⟩
    · intro t l u inv step
      obtain ⟨linked, labels', before⟩ := inv
      refine ⟨next_linked linked step, ?_⟩
      rcases next_refines linked step with same | ⟨l', stepped⟩
      · exact ⟨labels', by rw [same]; exact before⟩
      · exact ⟨labels' ++ [l'], by simp [replay_append, before, stepped]⟩
  exact both.2

end InboxCancelledSyncs
