import Mathlib.Data.Finset.Basic
import Mathlib.Logic.Function.Basic
import InboxOne.LabelledRuns
import InboxOne.MailParser

/-!
The IDLE watchers of the scheduler. The program counter of a task is the await it is
suspended at, with the local variables that later code reads. One step resumes the task
with the answer of what it awaited, or throws CancelledError into it, and runs to the
next await; what it does to the shared dictionaries is a list of effects. Waiting times
and the time stamps of the published states are left out.
-/
namespace InboxWatcher
open LabelledRuns

inductive WatcherState where
  | connecting
  | polling
  | reconciling
  | error
  | reconnecting
  deriving DecidableEq, Repr

inductive Mode where
  | idle
  | polling
  deriving DecidableEq, Repr

/-- An entry of `live.watchers`. -/
structure Watcher where
  accountId : Option Nat
  state : WatcherState
  mode : Mode
  error : Option String
  deriving DecidableEq, Repr

/-- The values that a call of `set_watcher` gives; the others stay as they are. -/
structure WatcherValues where
  accountId : Option Nat
  state : WatcherState
  mode : Mode
  error : Option (Option String)
  deriving DecidableEq, Repr

def setWatcher (entry : Option Watcher) (values : WatcherValues) : Watcher where
  accountId := values.accountId.or (entry.bind Watcher.accountId)
  state := values.state
  mode := values.mode
  error := values.error.getD (entry.bind Watcher.error)

/-- Untagged responses of the server during IDLE. -/
inductive Untagged where
  | bye
  | event (id : Nat)
  deriving DecidableEq, Repr

/-- How the block around the connection was left. -/
inductive Leave where
  | proceed
  | returned
  | raised (exception : String)
  | cancelled
  deriving DecidableEq, Repr

/-- Where a watcher is suspended. In `awaitOpening` the cancellation was caught and the
    pending connection attempt is awaited before it is raised again. -/
inductive Pc where
  | created
  | lock
  | loadAccount
  | opening
  | awaitOpening
  | closeSession (leave : Leave)
  | select
  | capability
  | logout
  | pollSleep
  | idle
  | idleCheck
  | idleDone (responses : List Untagged)
  | reIdle (responses : List Untagged)
  | backoffSleep
  | shutdownClient (again : Bool)
  | shutdownExecutor
  | done
  deriving DecidableEq, Repr

structure Watch where
  account : Nat
  folder : Nat
  path : String
  pc : Pc
  client : Option Nat
  received : List Untagged
  mustCancel : Bool
  cancelling : Bool
  deriving DecidableEq, Repr

/-- The answer of what a task awaits; `elapsed` says that the renewal is due. -/
inductive Answer where
  | ok
  | fail (exception : String)
  | account (active : Bool)
  | opened (client : Nat)
  | capable (idle : Bool)
  | checked (elapsed : Bool)
  | cancelled
  deriving DecidableEq, Repr

inductive Effect where
  | publish (values : WatcherValues)
  | connect
  | register (client : Nat)
  | unregister
  | close (expected : Option Nat)
  | requestSync
  deriving DecidableEq, Repr

def lower (text : String) : String := String.ofList (text.toList.map Char.toLower)

/-- `live.safe_error`, which sees only the name of the exception's type. -/
def safeError (exception : String) : String :=
  let name := lower exception
  if InboxMailParser.contains name "login" || InboxMailParser.contains name "auth" then
    "Authentication failed. Check credentials or reconnect OAuth."
  else if InboxMailParser.contains name "invalidtoken" ||
      InboxMailParser.contains name "valueerror" then
    "Account configuration or stored credentials could not be read."
  else "Mail server connection or reconciliation failed. Retry or check server settings."

def isTerminal (error : String) : Bool :=
  InboxMailParser.contains error "Authentication" ||
    InboxMailParser.contains error "configuration"

/- The top of the loop, up to the lock of the account. -/
def iterate (w : Watch) : Watch × List Effect :=
  ({ w with pc := .lock, client := none, received := [] },
    [.publish ⟨some w.account, .connecting, .polling, none⟩])

/- The outer finally, up to the shutdown of the executor. -/
def outerFinally (w : Watch) : Watch × List Effect :=
  ({ w with pc := .shutdownExecutor }, [.close w.client])

def afterFinally (w : Watch) (again : Bool) : Watch × List Effect :=
  if again then iterate w else outerFinally w

/- The inner finally: without a client it awaits nothing. -/
def innerFinally (w : Watch) (again : Bool) : Watch × List Effect :=
  match w.client with
  | some client => ({ w with pc := .shutdownClient again }, [.close (some client)])
  | none => afterFinally w again

/- The handler of all exceptions but CancelledError. -/
def handler (w : Watch) (exception : String) : Watch × List Effect :=
  let error := safeError exception
  ({ w with pc := .backoffSleep },
    [.publish ⟨none, if isTerminal error then .error else .reconnecting, .polling,
        some (some error)⟩,
      .close w.client])

def throwCancelled (w : Watch) : Watch × List Effect :=
  let w := { w with mustCancel := false }
  match w.pc with
  | .created => ({ w with pc := .done }, [])
  | .loadAccount => ({ w with pc := .closeSession .cancelled }, [])
  | .opening => ({ w with pc := .awaitOpening }, [])
  | .awaitOpening => ({ w with pc := .closeSession .cancelled }, [])
  | .shutdownClient _ => outerFinally w
  | .shutdownExecutor | .done => ({ w with pc := .done }, [])
  | _ => innerFinally w false

/- The session is closed and the lock released. -/
def afterSession (w : Watch) : Leave → Watch × List Effect
  | .proceed =>
      ({ w with pc := .select }, match w.client with
        | some client => [.register client]
        | none => [])
  | .returned => innerFinally w false
  | .raised exception => handler w exception
  | .cancelled => innerFinally w false

/- One round of the IDLE loop after idle_check. -/
def afterCheck (w : Watch) (elapsed : Bool) : Watch × List Effect :=
  let responses := w.received
  let w := { w with received := [] }
  if .bye ∈ responses then handler w "ConnectionError"
  else if responses ≠ [] ∨ elapsed then ({ w with pc := .idleDone responses }, [])
  else (w, [])

def resume (w : Watch) (answer : Answer) : Option (Watch × List Effect) :=
  if w.mustCancel then
    if answer = .cancelled then some (throwCancelled w) else none
  else
    match w.pc, answer with
    | .created, .ok => some (iterate w)
    | .lock, .ok => some ({ w with pc := .loadAccount }, [])
    | .loadAccount, .account true => some ({ w with pc := .opening }, [.connect])
    | .loadAccount, .account false => some ({ w with pc := .closeSession .returned }, [])
    | .loadAccount, .fail e => some ({ w with pc := .closeSession (.raised e) }, [])
    | .opening, .opened client =>
        some ({ w with pc := .closeSession .proceed, client := some client }, [])
    | .opening, .fail e => some ({ w with pc := .closeSession (.raised e) }, [])
    | .awaitOpening, .opened client =>
        some ({ w with pc := .closeSession .cancelled, client := some client }, [])
    | .awaitOpening, .fail e => some ({ w with pc := .closeSession (.raised e) }, [])
    | .closeSession leave, .ok => some (afterSession w leave)
    | .closeSession _, .fail e => some (handler w e)
    | .select, .ok => some ({ w with pc := .capability }, [])
    | .capability, .capable true => some ({ w with pc := .idle }, [])
    | .capability, .capable false =>
        some ({ w with pc := .logout }, [.publish ⟨none, .polling, .polling, some none⟩])
    | .logout, .ok => some ({ w with pc := .pollSleep, client := none }, [.unregister])
    | .pollSleep, .ok => some (innerFinally w true)
    | .idle, .ok =>
        some ({ w with pc := .idleCheck },
          [.publish ⟨none, .reconciling, .idle, some none⟩, .requestSync])
    | .idleCheck, .checked elapsed => some (afterCheck w elapsed)
    -- what idle_done returns is dropped
    | .idleDone responses, .ok => some ({ w with pc := .reIdle responses, received := [] }, [])
    | .reIdle responses, .ok =>
        some ({ w with pc := .idleCheck }, if responses ≠ [] then [.requestSync] else [])
    | .backoffSleep, .ok => some (innerFinally w true)
    | .shutdownClient again, .ok => some (afterFinally w again)
    | .shutdownClient again, .fail _ => some (afterFinally w again)
    | .shutdownExecutor, .ok => some ({ w with pc := .done }, [])
    | .shutdownExecutor, .fail _ => some ({ w with pc := .done }, [])
    | .select, .fail e | .capability, .fail e | .logout, .fail e | .idle, .fail e
    | .idleCheck, .fail e | .idleDone _, .fail e | .reIdle _, .fail e => some (handler w e)
    | _, _ => none

/- What is recorded of a run, newest first. -/
inductive Record where
  | effect (task : Nat) (effect : Effect)
  | stopped (task : Nat)
  | reported (task : Nat) (response : Untagged)
  deriving DecidableEq, Repr

/-- The dictionaries of the scheduler: `_tasks` is registry. -/
structure Scheduler where
  registry : Nat → Option Nat
  clients : Nat → Option Nat
  accounts : Nat → Option Nat
  background : Finset Nat
  watchers : Nat → Option Watcher
  tasks : Nat → Option Watch
  spawned : Nat
  opened : Nat
  log : List Record

def Scheduler.initial : Scheduler where
  registry := fun _ => none
  clients := fun _ => none
  accounts := fun _ => none
  background := ∅
  watchers := fun _ => none
  tasks := fun _ => none
  spawned := 0
  opened := 0
  log := []

/-- `_close` for an expected client: another registered client is left alone. -/
def closeClient (clients : Nat → Option Nat) (folder : Nat) (expected : Option Nat) :
    Nat → Option Nat :=
  if clients folder = expected then Function.update clients folder none else clients

def applyEffect (task folder : Nat) (s : Scheduler) (e : Effect) : Scheduler :=
  let s := { s with log := .effect task e :: s.log }
  match e with
  | .publish values =>
      { s with
        watchers := Function.update s.watchers folder
          (some (setWatcher (s.watchers folder) values)) }
  | .connect => s
  | .register client => { s with clients := Function.update s.clients folder (some client) }
  | .unregister => { s with clients := Function.update s.clients folder none }
  | .close expected => { s with clients := closeClient s.clients folder expected }
  | .requestSync => s

inductive Label where
  | spawn (account folder : Nat) (path : String)
  | stop (folder : Nat)
  | answer (task : Nat) (answer : Answer)
  | report (task : Nat) (response : Untagged)
  | doneCallback (task : Nat)
  deriving DecidableEq

/- The supervisor starts a watcher for a folder that has none. -/
def spawnWatcher (s : Scheduler) (account folder : Nat) (path : String) : Scheduler :=
  { s with
    accounts := Function.update s.accounts folder (some account)
    watchers := Function.update s.watchers folder
      (some (setWatcher (s.watchers folder) ⟨some account, .connecting, .idle, none⟩))
    registry := Function.update s.registry folder (some s.spawned)
    tasks := Function.update s.tasks s.spawned
      (some ⟨account, folder, path, .created, none, [], false, false⟩)
    spawned := s.spawned + 1 }

/- `task.cancel()`, which does nothing to a task that has ended. -/
def cancelTask (s : Scheduler) (task : Nat) : Scheduler :=
  match s.tasks task with
  | none => s
  | some w =>
      if w.pc = .done then s
      else { s with
        tasks := Function.update s.tasks task
          (some { w with mustCancel := true, cancelling := true })
        log := .stopped task :: s.log }

def stopTask (s : Scheduler) (folder : Nat) : Scheduler :=
  match s.registry folder with
  | none => s
  | some task =>
      cancelTask { s with
        registry := Function.update s.registry folder none
        background := insert task s.background } task

def stopFolder (s : Scheduler) (folder : Nat) : Scheduler :=
  let s := stopTask { s with clients := Function.update s.clients folder none } folder
  { s with
    accounts := Function.update s.accounts folder none
    watchers := Function.update s.watchers folder none }

/- A server reports on the connection once the IDLE command was sent. -/
def Pc.Listening : Pc → Bool
  | .idle | .idleCheck | .idleDone _ | .reIdle _ => true
  | _ => false

/- A connection attempt that succeeds yields a client of its own. -/
def freshClient (s : Scheduler) : Answer → Bool
  | .opened client => client = s.opened
  | _ => true

def openedAfter (s : Scheduler) : Answer → Nat
  | .opened _ => s.opened + 1
  | _ => s.opened

def next (s : Scheduler) : Label → Option Scheduler
  | .spawn account folder path =>
      if s.registry folder = none then some (spawnWatcher s account folder path) else none
  | .stop folder => some (stopFolder s folder)
  | .answer task answer =>
      match s.tasks task with
      | none => none
      | some w =>
          if freshClient s answer then
            (resume w answer).map fun (w', effects) =>
              effects.foldl (applyEffect task w.folder)
                { s with
                  tasks := Function.update s.tasks task (some w')
                  opened := openedAfter s answer }
          else none
  | .report task response =>
      match s.tasks task with
      | none => none
      | some w =>
          if w.pc.Listening then
            some { s with
              tasks := Function.update s.tasks task
                (some { w with received := w.received ++ [response] })
              log := .reported task response :: s.log }
          else none
  | .doneCallback task =>
      match s.tasks task with
      | none => none
      | some w => if w.pc = .done then some { s with background := s.background.erase task } else none

/- How often a schedule resumes a task. -/
def resumes (task : Nat) : Label → Nat
  | .answer t _ => if t = task then 1 else 0
  | _ => 0

def resumptions (task : Nat) (labels : List Label) : Nat :=
  (labels.map (resumes task)).foldr (· + ·) 0

theorem apply_effects (task folder : Nat) (effects : List Effect) (s : Scheduler) :
    (effects.foldl (applyEffect task folder) s).tasks = s.tasks ∧
      (effects.foldl (applyEffect task folder) s).registry = s.registry ∧
      (effects.foldl (applyEffect task folder) s).spawned = s.spawned ∧
      (effects.foldl (applyEffect task folder) s).log =
        (effects.map (Record.effect task)).reverse ++ s.log := by
  induction effects generalizing s with
  | nil => exact ⟨rfl, rfl, rfl, rfl⟩
  | cons e rest ih =>
    obtain ⟨tasks, registry, spawned, log⟩ := ih (applyEffect task folder s e)
    have one : (applyEffect task folder s e).tasks = s.tasks ∧
        (applyEffect task folder s e).registry = s.registry ∧
        (applyEffect task folder s e).spawned = s.spawned ∧
        (applyEffect task folder s e).log = .effect task e :: s.log := by
      cases e <;> exact ⟨rfl, rfl, rfl, rfl⟩
    rw [List.foldl_cons, tasks, registry, spawned, log, one.1, one.2.1, one.2.2.1, one.2.2.2]
    simp

/-- What resuming a task does to the tables that decide about tasks. -/
structure Resumed (s s' : Scheduler) (task : Nat) (w w' : Watch) (effects : List Effect) :
    Prop where
  found : s.tasks task = some w
  tasks : s'.tasks = Function.update s.tasks task (some w')
  registry : s'.registry = s.registry
  spawned : s'.spawned = s.spawned
  log : s'.log = (effects.map (Record.effect task)).reverse ++ s.log

theorem spawn_step {s s' : Scheduler} {account folder : Nat} {path : String}
    (step : next s (.spawn account folder path) = some s') :
    s.registry folder = none ∧ s' = spawnWatcher s account folder path := by
  rw [next] at step
  split at step
  · rename_i vacant
    exact ⟨vacant, (Option.some.inj step).symm⟩
  · contradiction

theorem stop_step {s s' : Scheduler} {folder : Nat} (step : next s (.stop folder) = some s') :
    s' = stopFolder s folder := (Option.some.inj step).symm

theorem callback_step {s s' : Scheduler} {task : Nat}
    (step : next s (.doneCallback task) = some s') : ∃ w, s.tasks task = some w ∧ w.pc = .done ∧
      s' = { s with background := s.background.erase task } := by
  rw [next] at step
  cases found : s.tasks task with
  | none =>
    rw [found] at step
    contradiction
  | some w =>
    simp only [found] at step
    split at step
    · rename_i ended
      exact ⟨w, rfl, ended, (Option.some.inj step).symm⟩
    · contradiction

theorem answer_step {s s' : Scheduler} {task : Nat} {a : Answer}
    (step : next s (.answer task a) = some s') : ∃ w w' effects,
      resume w a = some (w', effects) ∧ Resumed s s' task w w' effects := by
  rw [next] at step
  cases found : s.tasks task with
  | none =>
    rw [found] at step
    contradiction
  | some w =>
    simp only [found] at step
    split at step
    · obtain ⟨⟨w', effects⟩, answer, rfl⟩ := Option.map_eq_some_iff.mp step
      obtain ⟨tasks, registry, spawned, log⟩ := apply_effects task w.folder effects
        { s with tasks := Function.update s.tasks task (some w'), opened := openedAfter s a }
      exact ⟨w, w', effects, answer, found, tasks, registry, spawned, log⟩
    · contradiction

theorem answer_enabled {s : Scheduler} {task : Nat} {w : Watch} {a : Answer}
    (found : s.tasks task = some w) (answer : (resume w a).isSome = true)
    (fresh : freshClient s a = true) : ∃ s', next s (.answer task a) = some s' := by
  obtain ⟨out, resumed⟩ := Option.isSome_iff_exists.mp answer
  rw [next]
  simp only [found, fresh, if_true, resumed, Option.map_some]
  exact ⟨_, rfl⟩

theorem report_step {s s' : Scheduler} {task : Nat} {response : Untagged}
    (step : next s (.report task response) = some s') : ∃ w, s.tasks task = some w ∧
      w.pc.Listening = true ∧ s' = { s with
        tasks := Function.update s.tasks task
          (some { w with received := w.received ++ [response] })
        log := .reported task response :: s.log } := by
  rw [next] at step
  split at step
  · contradiction
  · rename_i w found
    split at step
    · rename_i listening
      exact ⟨w, found, listening, (Option.some.inj step).symm⟩
    · contradiction

theorem stop_task_cases (s : Scheduler) (folder : Nat) :
    ((stopTask s folder).tasks = s.tasks ∧ (stopTask s folder).spawned = s.spawned ∧
      (stopTask s folder).log = s.log) ∨
    ∃ task w, s.registry folder = some task ∧ s.tasks task = some w ∧
      (stopTask s folder).tasks = Function.update s.tasks task
        (some { w with mustCancel := true, cancelling := true }) ∧
      (stopTask s folder).spawned = s.spawned ∧
      (stopTask s folder).log = .stopped task :: s.log := by
  unfold stopTask
  cases registered : s.registry folder with
  | none => exact Or.inl ⟨rfl, rfl, rfl⟩
  | some task =>
    cases found : s.tasks task with
    | none =>
      left
      simp only [cancelTask, found]
      exact ⟨trivial, trivial, trivial⟩
    | some w =>
      by_cases ended : w.pc = .done
      · left
        simp only [cancelTask, found, if_pos ended]
        exact ⟨trivial, trivial, trivial⟩
      · right
        refine ⟨task, w, rfl, found, ?_⟩
        simp only [cancelTask, found, if_neg ended]
        exact ⟨trivial, trivial, trivial⟩

/- The record only grows. -/
theorem log_grows {s s' : Scheduler} {l : Label} (step : next s l = some s') :
    ∃ records, s'.log = records ++ s.log := by
  cases l with
  | spawn account folder path =>
    obtain ⟨_, rfl⟩ := spawn_step step
    exact ⟨[], rfl⟩
  | stop folder =>
    obtain rfl := stop_step step
    rcases stop_task_cases { s with clients := Function.update s.clients folder none } folder with
      ⟨_, _, log⟩ | ⟨task, _, _, _, _, _, log⟩
    · exact ⟨[], log⟩
    · exact ⟨[.stopped task], log⟩
  | answer task a =>
    obtain ⟨_, _, _, _, resumed⟩ := answer_step step
    exact ⟨_, resumed.log⟩
  | report task response =>
    obtain ⟨_, _, _, rfl⟩ := report_step step
    exact ⟨[.reported task response], rfl⟩
  | doneCallback task =>
    obtain ⟨_, _, _, rfl⟩ := callback_step step
    exact ⟨[], rfl⟩

theorem run_log_grows {allowed : Scheduler → Label → Bool} {s s' : Scheduler}
    {labels : List Label} (run : replay (restrict allowed next) s labels = some s') :
    ∃ records, s'.log = records ++ s.log := by
  refine replay_relates (fun a b : Scheduler => ∃ records, b.log = records ++ a.log)
    (fun a => ⟨[], rfl⟩) ?_ run
  intro a b l c grown step
  obtain ⟨records, before⟩ := grown
  obtain ⟨new, after⟩ := log_grows (restrict_step step).2
  exact ⟨new ++ records, by rw [after, before, List.append_assoc]⟩

/-- Resuming a task neither moves it to another folder nor cancels it. -/
structure SameTask (w w' : Watch) : Prop where
  folder : w'.folder = w.folder
  cancelling : w'.cancelling = w.cancelling
  thrown : w'.mustCancel = false

theorem inner_finally_keeps {w : Watch} (again : Bool) (calm : w.mustCancel = false) :
    SameTask w (innerFinally w again).1 := by
  unfold innerFinally afterFinally
  cases w.client with
  | some client => exact ⟨rfl, rfl, calm⟩
  | none => cases again <;> exact ⟨rfl, rfl, calm⟩

theorem throw_cancelled_keeps (w : Watch) : SameTask w (throwCancelled w).1 := by
  have through : SameTask w (innerFinally { w with mustCancel := false } false).1 :=
    have keeps := inner_finally_keeps (w := { w with mustCancel := false }) false rfl
    ⟨keeps.folder, keeps.cancelling, keeps.thrown⟩
  unfold throwCancelled
  cases w.pc <;> first | exact through | exact ⟨rfl, rfl, rfl⟩

theorem resume_keeps {w w' : Watch} {a : Answer} {effects : List Effect}
    (step : resume w a = some (w', effects)) : SameTask w w' := by
  unfold resume at step
  split at step
  · split at step
    · have same : (throwCancelled w).1 = w' := congrArg Prod.fst (Option.some.inj step)
      exact same ▸ throw_cancelled_keeps w
    · contradiction
  · rename_i calm
    have calm : w.mustCancel = false := by simpa using calm
    have finally_keeps := fun again => inner_finally_keeps (w := w) again calm
    have after_keeps : ∀ again, SameTask w (afterFinally w again).1 := by
      intro again
      cases again <;> exact ⟨rfl, rfl, calm⟩
    have plain : ∀ {x : Watch}, x.folder = w.folder → x.cancelling = w.cancelling →
        x.mustCancel = w.mustCancel → SameTask w x :=
      fun folder cancelling must => ⟨folder, cancelling, must.trans calm⟩
    have session_keeps : ∀ leave, SameTask w (afterSession w leave).1 := by
      intro leave
      cases leave with
      | proceed => exact plain rfl rfl rfl
      | returned => exact finally_keeps false
      | raised => exact plain rfl rfl rfl
      | cancelled => exact finally_keeps false
    have check_keeps : ∀ elapsed, SameTask w (afterCheck w elapsed).1 := by
      intro elapsed
      unfold afterCheck
      simp only
      split
      · exact plain rfl rfl rfl
      · split <;> exact plain rfl rfl rfl
    split at step
    all_goals first
      | contradiction
      | have same := congrArg Prod.fst (Option.some.inj step)
        subst same
        first
          | exact plain rfl rfl rfl
          | exact session_keeps _
          | exact check_keeps _
          | exact finally_keeps _
          | exact after_keeps _

end InboxWatcher
