import InboxOne.LiveStatus
import InboxOne.WatcherStops

/-!
The watchers, the passes over folders and the requests for the status, all on the
dictionaries of `live.py`. A pass over a folder is `_sync_folder` with the report of its
outcome; a snapshot first reads the folder rows and is computed some time later. The rows
of all accounts are in one table, which may change in any way at any time. The field `log`
only observes the run, newest first.
-/
namespace InboxGreenStatus
open LabelledRuns InboxWatcher InboxLiveStatus

inductive Record where
  | subscribed (task folder : Nat)
  | begun (pass folder : Nat)
  | finished (pass folder : Nat) (ok : Bool)
  deriving DecidableEq, Repr

structure Pass where
  account : Nat
  folder : Nat
  deriving DecidableEq, Repr

structure World where
  scheduler : Scheduler
  watchers : Nat → Option Entry
  accountErrors : Nat → Option String
  folders : List FolderRow
  readings : List (List FolderRow)
  passes : Nat → Option Pass
  begun : Nat
  log : List Record

def World.initial : World := ⟨.initial, fun _ => none, fun _ => none, [], [], fun _ => none, 0, []⟩

/- The effects of a watcher on the entry of its folder. -/
def applyPublish (entry : Option Entry) : Effect → Option Entry
  | .publish values => some (setWatcher entry values)
  | _ => entry

def watchersAfter (w : World) : InboxWatcher.Label → Nat → Option Entry
  | .spawn account folder _ =>
      Function.update w.watchers folder
        (some (setWatcher (w.watchers folder) ⟨some account, .connecting, .idle, none⟩))
  | .stop folder => Function.update w.watchers folder none
  | .answer task answer =>
      match w.scheduler.tasks task with
      | none => w.watchers
      | some watch =>
          match resume watch answer with
          | none => w.watchers
          | some (_, effects) =>
              Function.update w.watchers watch.folder
                (effects.foldl applyPublish (w.watchers watch.folder))
  | _ => w.watchers

/- The first IDLE command of a connection has succeeded. -/
def subscribes (w : World) : InboxWatcher.Label → List Record
  | .answer task .ok =>
      match w.scheduler.tasks task with
      | some watch =>
          if watch.pc = .idle ∧ watch.mustCancel = false then [.subscribed task watch.folder] else []
      | none => []
  | _ => []

inductive Label where
  | scheduler (step : InboxWatcher.Label)
  | forget (folder : Nat)
  | syncFolder (account folder : Nat)
  | synced (pass : Nat)
  | syncFailed (pass : Nat) (exception : String)
  | cancelled (pass : Nat)
  | accountFailed (account : Nat) (exception : String)
  | accountCleared (account : Nat)
  | edit (folders : List FolderRow)
  | read
  | respond (reading : Nat)

/- The end of a pass that reports its outcome. -/
def finishPass (w : World) (pass : Nat) (p : Pass) (entry : Entry) (ok : Bool) : World :=
  { w with
    watchers := Function.update w.watchers p.folder (some entry)
    passes := Function.update w.passes pass none
    log := .finished pass p.folder ok :: w.log }

def next (w : World) : Label → Option World
  | .scheduler step =>
      (InboxWatcher.next w.scheduler step).map fun scheduler =>
        { w with
          scheduler := scheduler
          watchers := watchersAfter w step
          log := subscribes w step ++ w.log }
  -- `_tick` for a folder without an active account
  | .forget folder => some { w with watchers := Function.update w.watchers folder none }
  | .syncFolder account folder =>
      some { w with
        passes := Function.update w.passes w.begun (some ⟨account, folder⟩)
        begun := w.begun + 1
        log := .begun w.begun folder :: w.log }
  | .synced pass =>
      match w.passes pass with
      | some p => some (finishPass w pass p (synced (w.watchers p.folder)) true)
      | none => none
  | .syncFailed pass exception =>
      match w.passes pass with
      | some p => some (finishPass w pass p (syncFailed (w.watchers p.folder) exception) false)
      | none => none
  | .cancelled pass => some { w with passes := Function.update w.passes pass none }
  | .accountFailed account exception =>
      some { w with
        accountErrors := Function.update w.accountErrors account (some (safeError exception)) }
  | .accountCleared account =>
      some { w with accountErrors := Function.update w.accountErrors account none }
  | .edit folders => some { w with folders := folders }
  | .read => some { w with readings := w.folders :: w.readings }
  | .respond reading => some { w with readings := w.readings.eraseIdx reading }

/-- The folder rows that a snapshot may report: those in the table and those that were
    read by a snapshot still to be computed. -/
def views (w : World) : List (List FolderRow) := w.folders :: w.readings

/-- Whether the latest pass over a folder that finished was successful. -/
def latest (folder : Nat) : List Record → Option Bool
  | [] => none
  | .finished _ f ok :: older => if f = folder then some ok else latest folder older
  | _ :: older => latest folder older

/-- The pass began after the latest subscription for its folder. -/
def begunSince (pass folder : Nat) : List Record → Bool
  | [] => false
  | .begun p f :: older => (p = pass ∧ f = folder) ∨ begunSince pass folder older
  | .subscribed _ f :: older => f ≠ folder ∧ begunSince pass folder older
  | _ :: older => begunSince pass folder older

/-- The failure of the latest pass is no longer recorded. -/
def forgotten (w : World) (folder : Nat) : Prop :=
  latest folder w.log = some false ∧ hasFailed (w.watchers folder) = false

instance (w : World) (folder : Nat) : Decidable (forgotten w folder) :=
  inferInstanceAs (Decidable (_ ∧ _))

/- Dropping the entry of a folder loses no failure, or that of a folder which is an inbox
   wherever it is reported. -/
def losesNothing (w : World) (folder : Nat) : Bool :=
  hasFailed (w.watchers folder) = false ∨
    ∀ rows ∈ views w, ∀ row ∈ rows, row.id = folder → row.isInbox = true

/-- A pass that began before the IDLE command does not finish while its folder waits for
    reconciliation; a recorded failure is dropped only of a folder marked as inbox, and
    the mark then stays until a pass over the folder has finished. -/
def careful (w : World) : Label → Bool
  | .scheduler (.stop folder) | .forget folder => losesNothing w folder
  | .synced pass =>
      match w.passes pass with
      | some p => stateOf (w.watchers p.folder) ≠ some (.watcher .reconciling) ∨
          begunSince pass p.folder w.log
      | none => true
  | .edit folders => ∀ row ∈ folders, row.isInbox = true ∨ ¬forgotten w row.id
  | _ => true

/-- IDLE was established and no failure of it was seen; a renewal keeps it. -/
def Subscribed (watch : Watch) : Prop :=
  watch.mustCancel = false ∧ match watch.pc with
    | .idleCheck | .idleDone _ | .reIdle _ => True
    | _ => False

/-- The latest subscription for the folder belongs to a watcher that still has it. -/
def SubscribedSince (w : World) (folder : Nat) (newer : List Record) : Prop :=
  ∃ task watch older, w.scheduler.tasks task = some watch ∧ watch.folder = folder ∧
    Subscribed watch ∧ w.log = newer ++ .subscribed task folder :: older ∧
    ∀ t, .subscribed t folder ∉ newer

def ReconciledIn (folder : Nat) (newer : List Record) : Prop :=
  ∃ pass, .begun pass folder ∈ newer ∧ .finished pass folder true ∈ newer

/-- What green promises of an inbox: it is subscribed, and a pass over it that began
    afterwards was successful. -/
def Watched (w : World) (folder : Nat) : Prop :=
  ∃ newer, SubscribedSince w folder newer ∧ ReconciledIn folder newer

/- The effects publish no state. -/
def Calm (effects : List Effect) : Prop := ∀ values, .publish values ∉ effects

/- They publish a state, and none that claims a subscription. -/
def Retreats (effects : List Effect) : Prop :=
  (∃ values, .publish values ∈ effects) ∧
    ∀ values, .publish values ∈ effects → values.state ≠ .reconciling

def Plain (effects : List Effect) : Prop := Retreats effects ∨ Calm effects

theorem retreats_first {values : WatcherValues} (state : values.state ≠ .reconciling)
    {rest : List Effect} (calm : Calm rest) : Retreats (.publish values :: rest) := by
  refine ⟨⟨values, List.mem_cons_self⟩, ?_⟩
  intro values' mem
  rcases List.mem_cons.mp mem with same | later
  · injection same with same
    exact same ▸ state
  · exact absurd later (calm values')

theorem calm_nil : Calm [] := by
  intro values mem
  contradiction

theorem iterate_plain (w : Watch) : Plain (iterate w).2 :=
  Or.inl (retreats_first (by intro same; contradiction) calm_nil)

theorem inner_finally_plain (w : Watch) (again : Bool) : Plain (innerFinally w again).2 := by
  unfold innerFinally
  cases w.client with
  | some client => exact Or.inr (by intro values mem; simp at mem)
  | none =>
    cases again with
    | true => exact iterate_plain w
    | false => exact Or.inr (by intro values mem; simp [afterFinally, outerFinally] at mem)

theorem handler_retreats (w : Watch) (exception : String) : Retreats (handler w exception).2 := by
  apply retreats_first
  · dsimp only
    split
    · decide
    · decide
  · intro values mem
    simp at mem

theorem after_session_plain (w : Watch) (leave : Leave) : Plain (afterSession w leave).2 := by
  cases leave with
  | proceed =>
    right
    intro values mem
    cases client : w.client <;> simp [afterSession, client] at mem
  | returned => exact inner_finally_plain w false
  | raised exception => exact Or.inl (handler_retreats w exception)
  | cancelled => exact inner_finally_plain w false

theorem only_closes_calm {effects : List Effect} (closes : InboxWatcherStops.OnlyCloses effects) :
    Calm effects := by
  intro values mem
  obtain ⟨client, close⟩ := closes _ mem
  contradiction

/-- What resuming a watcher does to its subscription and to the state it publishes. -/
inductive Resumption (w w' : Watch) (a : Answer) (effects : List Effect) : Prop where
  | subscribes (pc : w.pc = .idle) (running : w.mustCancel = false) (ok : a = .ok)
      (now : Subscribed w')
      (published : effects = [.publish ⟨none, .reconciling, .idle, some none⟩, .requestSync])
  | other (not : ¬(w.pc = .idle ∧ w.mustCancel = false ∧ a = .ok))
      (outcome : Retreats effects ∨ Calm effects ∧ (Subscribed w → Subscribed w'))

/-- Apart from the first IDLE command, only the watchers that give up publish a state. -/
theorem unsubscribed_resumption {w w' : Watch} {a : Answer} {effects : List Effect}
    (step : resume w a = some (w', effects)) (running : w.mustCancel = false)
    (not : ¬Subscribed w) (notIdle : w.pc ≠ .idle) : Plain effects := by
  have through : ∀ {out : Watch × List Effect}, some out = some (w', effects) → Plain out.2 →
      Plain effects := by
    intro out eq plain
    rw [Option.some.inj eq] at plain
    exact plain
  have fails : ∀ {e : String}, some (handler w e) = some (w', effects) → Plain effects :=
    fun eq => through eq (Or.inl (handler_retreats w _))
  have silent : ∀ {x : Watch} {e : Effect}, (∀ values, e ≠ .publish values) →
      some (x, [e]) = some (w', effects) → Plain effects := by
    intro x e other eq
    refine through eq (Or.inr ?_)
    intro values mem
    exact other values (List.mem_singleton.mp mem).symm
  have nothing : ∀ {x : Watch}, some (x, []) = some (w', effects) → Plain effects :=
    fun eq => through eq (Or.inr calm_nil)
  unfold resume at step
  rw [if_neg (by simp [running])] at step
  cases pc : w.pc with
  | idle => exact absurd pc notIdle
  | idleCheck => exact absurd ⟨running, by rw [pc]; trivial⟩ not
  | idleDone responses => exact absurd ⟨running, by rw [pc]; trivial⟩ not
  | reIdle responses => exact absurd ⟨running, by rw [pc]; trivial⟩ not
  | created =>
    cases a with
    | ok =>
      simp only [pc] at step
      exact through step (iterate_plain w)
    | _ => simp [pc] at step
  | lock =>
    cases a with
    | ok =>
      simp only [pc] at step
      exact nothing step
    | _ => simp [pc] at step
  | loadAccount =>
    cases a with
    | account active =>
      cases active with
      | true =>
        simp only [pc] at step
        exact silent (by simp) step
      | false =>
        simp only [pc] at step
        exact nothing step
    | fail e =>
      simp only [pc] at step
      exact nothing step
    | _ => simp [pc] at step
  | opening =>
    cases a with
    | opened client =>
      simp only [pc] at step
      exact nothing step
    | fail e =>
      simp only [pc] at step
      exact nothing step
    | _ => simp [pc] at step
  | awaitOpening =>
    cases a with
    | opened client =>
      simp only [pc] at step
      exact nothing step
    | fail e =>
      simp only [pc] at step
      exact nothing step
    | _ => simp [pc] at step
  | closeSession leave =>
    cases a with
    | ok =>
      simp only [pc] at step
      exact through step (after_session_plain w leave)
    | fail e =>
      simp only [pc] at step
      exact fails step
    | _ => simp [pc] at step
  | select =>
    cases a with
    | ok =>
      simp only [pc] at step
      exact nothing step
    | fail e =>
      simp only [pc] at step
      exact fails step
    | _ => simp [pc] at step
  | capability =>
    cases a with
    | capable idle =>
      cases idle with
      | true =>
        simp only [pc] at step
        exact nothing step
      | false =>
        simp only [pc] at step
        exact through step (Or.inl (retreats_first (by decide) calm_nil))
    | fail e =>
      simp only [pc] at step
      exact fails step
    | _ => simp [pc] at step
  | logout =>
    cases a with
    | ok =>
      simp only [pc] at step
      exact silent (by simp) step
    | fail e =>
      simp only [pc] at step
      exact fails step
    | _ => simp [pc] at step
  | pollSleep | backoffSleep =>
    cases a with
    | ok =>
      simp only [pc] at step
      exact through step (inner_finally_plain w true)
    | _ => simp [pc] at step
  | shutdownClient again =>
    cases a with
    | ok | fail =>
      simp only [pc] at step
      cases again with
      | true => exact through step (iterate_plain w)
      | false => exact silent (by simp) step
    | _ => simp [pc] at step
  | shutdownExecutor =>
    cases a with
    | ok | fail =>
      simp only [pc] at step
      exact nothing step
    | _ => simp [pc] at step
  | done => simp [pc] at step

theorem resumption {w w' : Watch} {a : Answer} {effects : List Effect}
    (step : resume w a = some (w', effects)) : Resumption w w' a effects := by
  cases running : w.mustCancel with
  | true =>
    unfold resume at step
    rw [if_pos running] at step
    split at step
    · have closes := (InboxWatcherStops.throw_unwinds w).2.2
      rw [Option.some.inj step] at closes
      apply Resumption.other
      · intro first
        simp [running] at first
      · right
        refine ⟨only_closes_calm closes, ?_⟩
        intro subscribed
        have calm := subscribed.1
        simp [running] at calm
    · contradiction
  | false =>
    have whole := step
    unfold resume at step
    rw [if_neg (by simp [running])] at step
    have other : ∀ {pc : Pc}, w.pc = pc → pc ≠ .idle →
        ¬(w.pc = .idle ∧ w.mustCancel = false ∧ a = .ok) := by
      intro pc eq notIdle first
      exact notIdle (eq.symm.trans first.1)
    have fails : ∀ {x : Watch} {e : String}, some (handler x e) = some (w', effects) →
        Retreats effects := by
      intro x e eq
      have retreats := handler_retreats x e
      rw [Option.some.inj eq] at retreats
      exact retreats
    have stays : ∀ {x : Watch} {out : List Effect}, some (x, out) = some (w', effects) →
        Calm out → Subscribed x → Retreats effects ∨ Calm effects ∧ (Subscribed w → Subscribed w') := by
      intro x out eq calm subscribed
      obtain ⟨rfl, rfl⟩ := Prod.mk.inj (Option.some.inj eq)
      exact Or.inr ⟨calm, fun _ => subscribed⟩
    cases pc : w.pc with
    | idle =>
      cases a with
      | ok =>
        simp only [pc] at step
        obtain ⟨rfl, rfl⟩ := Prod.mk.inj (Option.some.inj step)
        exact .subscribes pc running rfl ⟨running, trivial⟩ rfl
      | fail e =>
        simp only [pc] at step
        exact .other (by simp) (Or.inl (fails step))
      | _ => simp [pc] at step
    | idleCheck =>
      cases a with
      | checked elapsed =>
        simp only [pc] at step
        apply Resumption.other (other pc (by simp))
        unfold afterCheck at step
        dsimp only at step
        split at step
        · exact Or.inl (fails step)
        · split at step
          · exact stays step calm_nil ⟨running, trivial⟩
          · exact stays step calm_nil ⟨running, by simp [pc]⟩
      | fail e =>
        simp only [pc] at step
        exact .other (other pc (by simp)) (Or.inl (fails step))
      | _ => simp [pc] at step
    | idleDone responses =>
      cases a with
      | ok =>
        simp only [pc] at step
        exact .other (other pc (by simp)) (stays step calm_nil ⟨running, trivial⟩)
      | fail e =>
        simp only [pc] at step
        exact .other (other pc (by simp)) (Or.inl (fails step))
      | _ => simp [pc] at step
    | reIdle responses =>
      cases a with
      | ok =>
        simp only [pc] at step
        apply Resumption.other (other pc (by simp))
        apply stays step _ ⟨running, trivial⟩
        intro values mem
        split at mem
        · simp at mem
        · contradiction
      | fail e =>
        simp only [pc] at step
        exact .other (other pc (by simp)) (Or.inl (fails step))
      | _ => simp [pc] at step
    | _ =>
      apply Resumption.other (other pc (by simp))
      have unsubscribed : ¬Subscribed w := by
        intro subscribed
        have listening := subscribed.2
        rw [pc] at listening
        exact listening
      rcases unsubscribed_resumption whole running unsubscribed (by simp [pc]) with
        retreats | calm
      · exact Or.inl retreats
      · exact Or.inr ⟨calm, fun subscribed => absurd subscribed unsubscribed⟩

theorem fold_calm {effects : List Effect} (calm : Calm effects) (entry : Option Entry) :
    effects.foldl applyPublish entry = entry := by
  induction effects with
  | nil => rfl
  | cons e rest ih =>
    have same : applyPublish entry e = entry := by
      cases e with
      | publish values => exact absurd List.mem_cons_self (calm values)
      | _ => rfl
    rw [List.foldl_cons, same]
    exact ih fun values mem => calm values (List.mem_cons_of_mem e mem)

theorem fold_failure (effects : List Effect) (entry : Option Entry) :
    hasFailed (effects.foldl applyPublish entry) = hasFailed entry := by
  induction effects generalizing entry with
  | nil => rfl
  | cons e rest ih =>
    rw [List.foldl_cons, ih]
    cases e with
    | publish values => exact set_watcher_failure entry values
    | _ => rfl

theorem fold_retreats {effects : List Effect} (retreats : Retreats effects)
    (entry : Option Entry) : ∃ s, s ≠ WatcherState.reconciling ∧
      stateOf (effects.foldl applyPublish entry) = some (.watcher s) := by
  obtain ⟨⟨values, mem⟩, other⟩ := retreats
  induction effects generalizing entry values with
  | nil => contradiction
  | cons e rest ih =>
    rw [List.foldl_cons]
    by_cases later : ∃ values', .publish values' ∈ rest
    · obtain ⟨values', mem'⟩ := later
      exact ih _ (fun v m => other v (List.mem_cons_of_mem e m)) values' mem'
    · have calm : Calm rest := fun v m => later ⟨v, m⟩
      rw [fold_calm calm]
      rcases List.mem_cons.mp mem with same | inRest
      · subst same
        exact ⟨values.state, other values mem, set_watcher_state entry values⟩
      · exact absurd inRest (calm values)

/- The registry names watchers of its folder, and tasks are numbered as they start. -/
structure Tasks (s : Scheduler) : Prop where
  registered : ∀ f t, s.registry f = some t → ∃ w, s.tasks t = some w ∧ w.folder = f
  unspawned : ∀ t, s.spawned ≤ t → s.tasks t = none

/- Whoever claims a subscription has one; who claims a reconciliation as well. -/
def Claimed (w : World) (folder : Nat) : Prop :=
  stateOf (w.watchers folder) = some (.watcher .reconciling) ∨
      stateOf (w.watchers folder) = some .connected →
    ∃ newer, SubscribedSince w folder newer ∧
      (stateOf (w.watchers folder) = some .connected → ReconciledIn folder newer)

/- A failure that is no longer recorded is reported of no folder but an inbox, and not of
   one that counts as connected. -/
def Remembered (w : World) (folder : Nat) : Prop :=
  latest folder w.log = some false → hasFailed (w.watchers folder) = false →
    stateOf (w.watchers folder) ≠ some .connected ∧
      ∀ rows ∈ views w, ∀ row ∈ rows, row.id = folder → row.isInbox = true

structure Sound (w : World) : Prop where
  tasks : Tasks w.scheduler
  claimed : ∀ folder, Claimed w folder
  remembered : ∀ folder, Remembered w folder

theorem reconciled_more {folder : Nat} {newer : List Record} (reconciled : ReconciledIn folder newer)
    (extra : List Record) : ReconciledIn folder (extra ++ newer) := by
  obtain ⟨pass, begun, finished⟩ := reconciled
  exact ⟨pass, List.mem_append_right extra begun, List.mem_append_right extra finished⟩

/- What the subscriber of a folder goes through in a step that leaves it subscribed. -/
def KeepsSubscriber (w w' : World) (folder : Nat) : Prop :=
  ∀ task watch, w.scheduler.tasks task = some watch → watch.folder = folder → Subscribed watch →
    ∃ watch', w'.scheduler.tasks task = some watch' ∧ watch'.folder = folder ∧ Subscribed watch'

theorem subscribed_keeps {w w' : World} {folder : Nat} {newer : List Record}
    (extra : List Record) (log : w'.log = extra ++ w.log) (unsubscribed : ∀ t, .subscribed t folder ∉ extra)
    (keeps : KeepsSubscriber w w' folder) (subscribed : SubscribedSince w folder newer) :
    SubscribedSince w' folder (extra ++ newer) := by
  obtain ⟨task, watch, older, found, own, active, eq, last⟩ := subscribed
  obtain ⟨watch', found', own', active'⟩ := keeps task watch found own active
  refine ⟨task, watch', older, found', own', active', by rw [log, eq, List.append_assoc], ?_⟩
  intro t mem
  rcases List.mem_append.mp mem with inExtra | inNewer
  · exact unsubscribed t inExtra
  · exact last t inNewer

theorem claimed_keeps {w w' : World} {folder : Nat} (claimed : Claimed w folder)
    (extra : List Record)
    (state : stateOf (w'.watchers folder) = stateOf (w.watchers folder))
    (log : w'.log = extra ++ w.log) (unsubscribed : ∀ t, .subscribed t folder ∉ extra)
    (keeps : KeepsSubscriber w w' folder) : Claimed w' folder := by
  intro claims
  rw [state] at claims ⊢
  obtain ⟨newer, subscribed, reconciled⟩ := claimed claims
  exact ⟨extra ++ newer, subscribed_keeps extra log unsubscribed keeps subscribed,
    fun connected => reconciled_more (reconciled connected) extra⟩

theorem remembered_keeps {w w' : World} {folder : Nat} (remembered : Remembered w folder)
    (same : latest folder w'.log = latest folder w.log)
    (failed : hasFailed (w'.watchers folder) = hasFailed (w.watchers folder))
    (state : stateOf (w'.watchers folder) = some .connected →
      stateOf (w.watchers folder) = some .connected)
    (seen : ∀ rows ∈ views w', rows ∈ views w) : Remembered w' folder := by
  intro last calm
  obtain ⟨notConnected, inboxes⟩ := remembered (same ▸ last) (failed ▸ calm)
  exact ⟨fun connected => notConnected (state connected),
    fun rows mem => inboxes rows (seen rows mem)⟩

theorem keeps_same {w w' : World} (tasks : w'.scheduler.tasks = w.scheduler.tasks)
    (folder : Nat) : KeepsSubscriber w w' folder := by
  intro task watch found own active
  exact ⟨watch, tasks ▸ found, own, active⟩

/- One task is rewritten. -/
theorem keeps_update {w w' : World} {task folder : Nat} {new : Watch}
    (tasks : w'.scheduler.tasks = Function.update w.scheduler.tasks task (some new))
    (active : ∀ old, w.scheduler.tasks task = some old → old.folder = folder → Subscribed old →
      new.folder = folder ∧ Subscribed new) : KeepsSubscriber w w' folder := by
  intro t watch found own subscribed
  by_cases same : t = task
  · subst same
    obtain ⟨own', subscribed'⟩ := active watch found own subscribed
    exact ⟨new, by rw [tasks, Function.update_self], own', subscribed'⟩
  · exact ⟨watch, by rw [tasks, Function.update_of_ne same]; exact found, own, subscribed⟩

theorem keeps_others {w w' : World} {task folder : Nat} {old new : Watch}
    (found : w.scheduler.tasks task = some old)
    (tasks : w'.scheduler.tasks = Function.update w.scheduler.tasks task (some new))
    (other : folder ≠ old.folder) : KeepsSubscriber w w' folder := by
  refine keeps_update tasks ?_
  intro old' found' own _
  rw [found] at found'
  cases found'
  exact absurd own.symm other

/- A step about one folder, whose entry it rewrites. -/
theorem sound_update {w w' : World} {folder : Nat} {entry : Option Entry} (sound : Sound w)
    (tasks : Tasks w'.scheduler) (extra : List Record)
    (watchers : w'.watchers = Function.update w.watchers folder entry)
    (log : w'.log = extra ++ w.log) (views_ : views w' = views w)
    (silent : ∀ f, f ≠ folder → (∀ t, .subscribed t f ∉ extra) ∧
      latest f w'.log = latest f w.log)
    (keeps : ∀ f, f ≠ folder → KeepsSubscriber w w' f)
    (claimed : Claimed w' folder) (remembered : Remembered w' folder) : Sound w' where
  tasks := tasks
  claimed f := by
    by_cases own : f = folder
    · exact own ▸ claimed
    · refine claimed_keeps (sound.claimed f) extra ?_ log (silent f own).1 (keeps f own)
      rw [watchers, Function.update_of_ne own]
  remembered f := by
    by_cases own : f = folder
    · exact own ▸ remembered
    · refine remembered_keeps (sound.remembered f) (silent f own).2 ?_ ?_ ?_
      · rw [watchers, Function.update_of_ne own]
      · rw [watchers, Function.update_of_ne own]
        exact id
      · rw [views_]
        exact fun _ mem => mem

theorem no_records {w w' : World} {folder : Nat} (log : w'.log = w.log) :
    ∀ f, f ≠ folder → (∀ t, .subscribed t f ∉ ([] : List Record)) ∧
      latest f w'.log = latest f w.log := by
  intro f _
  exact ⟨by simp, by rw [log]⟩

theorem tasks_update {s s' : Scheduler} (sound : Tasks s) {task : Nat} {old new : Watch}
    (found : s.tasks task = some old) (folder : new.folder = old.folder)
    (tasks : s'.tasks = Function.update s.tasks task (some new))
    (registry : ∀ f t, s'.registry f = some t → s.registry f = some t)
    (spawned : s'.spawned = s.spawned) : Tasks s' where
  registered f t registered := by
    obtain ⟨w, found', own⟩ := sound.registered f t (registry f t registered)
    rw [tasks]
    by_cases same : t = task
    · subst same
      rw [found] at found'
      cases found'
      exact ⟨new, Function.update_self .., folder.trans own⟩
    · exact ⟨w, by rw [Function.update_of_ne same]; exact found', own⟩
  unspawned t late := by
    rw [spawned] at late
    have absent := sound.unspawned t late
    have other : t ≠ task := by
      intro same
      rw [same, found] at absent
      contradiction
    rw [tasks, Function.update_of_ne other]
    exact absent

theorem tasks_same {s s' : Scheduler} (sound : Tasks s) (tasks : s'.tasks = s.tasks)
    (registry : ∀ f t, s'.registry f = some t → s.registry f = some t)
    (spawned : s'.spawned = s.spawned) : Tasks s' where
  registered f t registered := tasks ▸ sound.registered f t (registry f t registered)
  unspawned t late := tasks ▸ sound.unspawned t (spawned ▸ late)

theorem spawn_tasks {s : Scheduler} (sound : Tasks s) (account folder : Nat) (path : String) :
    Tasks (spawnWatcher s account folder path) where
  registered f t registered := by
    change ∃ w, Function.update s.tasks s.spawned _ t = some w ∧ w.folder = f
    rcases written_cell registered with ⟨rfl, rfl⟩ | ⟨_, registered⟩
    · exact ⟨_, Function.update_self .., rfl⟩
    · obtain ⟨w, found, same⟩ := sound.registered f t registered
      have other : t ≠ s.spawned := by
        intro new
        have absent := sound.unspawned t (Nat.le_of_eq new.symm)
        rw [absent] at found
        contradiction
      exact ⟨w, by rw [Function.update_of_ne other]; exact found, same⟩
  unspawned t late := by
    change Function.update s.tasks s.spawned _ t = none
    have later : s.spawned + 1 ≤ t := late
    rw [Function.update_of_ne (by omega)]
    exact sound.unspawned t (by omega)

/- `_stop_folder` cancels at most a watcher of its folder. -/
theorem stop_folder_cases (s : Scheduler) (folder : Nat) :
    (∀ f t, (stopFolder s folder).registry f = some t → s.registry f = some t) ∧
      (stopFolder s folder).spawned = s.spawned ∧
      ((stopFolder s folder).tasks = s.tasks ∨ ∃ task w, s.registry folder = some task ∧
        s.tasks task = some w ∧ (stopFolder s folder).tasks = Function.update s.tasks task
          (some { w with mustCancel := true, cancelling := true })) := by
  have registry : ∀ f t, (stopFolder s folder).registry f = some t → s.registry f = some t := by
    intro f t registered
    simp only [stopFolder, stopTask] at registered
    cases own : s.registry folder with
    | none =>
      rw [own] at registered
      exact registered
    | some task =>
      rw [own] at registered
      have shape : ∀ x : Scheduler, (cancelTask x task).registry = x.registry := by
        intro x
        unfold cancelTask
        split
        · rfl
        · split <;> rfl
      simp only [shape] at registered
      by_cases same : f = folder
      · subst same
        rw [Function.update_self] at registered
        contradiction
      · rw [Function.update_of_ne same] at registered
        exact registered
  refine ⟨registry, ?_⟩
  rcases stop_task_cases { s with clients := Function.update s.clients folder none } folder with
    ⟨tasks, spawned, _⟩ | ⟨task, w, registered, found, tasks, spawned, _⟩
  · exact ⟨spawned, Or.inl tasks⟩
  · exact ⟨spawned, Or.inr ⟨task, w, registered, found, tasks⟩⟩

theorem spawn_sound {w : World} (sound : Sound w) {account folder : Nat} {path : String}
    (scheduler : Scheduler) (eq : scheduler = spawnWatcher w.scheduler account folder path) :
    Sound { w with
      scheduler := scheduler
      watchers := watchersAfter w (.spawn account folder path) } := by
  have tasks := spawn_tasks sound.tasks account folder path
  rw [← eq] at tasks
  refine sound_update sound tasks [] rfl rfl rfl (no_records rfl) ?_ ?_ ?_
  · intro f _ task watch found own active
    have other : task ≠ w.scheduler.spawned := by
      intro new
      have absent := sound.tasks.unspawned task (Nat.le_of_eq new.symm)
      rw [absent] at found
      contradiction
    refine ⟨watch, ?_, own, active⟩
    rw [eq]
    change Function.update w.scheduler.tasks w.scheduler.spawned _ task = some watch
    rw [Function.update_of_ne other]
    exact found
  · intro claims
    simp [watchersAfter, set_watcher_state] at claims
  · refine remembered_keeps (sound.remembered folder) rfl ?_ ?_ (fun _ mem => mem)
    · simp only [watchersAfter, Function.update_self]
      exact set_watcher_failure _ _
    · intro connected
      simp [watchersAfter, set_watcher_state] at connected

/-- The entry of a folder is dropped, and with it no failure that a folder might need. -/
theorem dropped_remembered {w w' : World} {folder : Nat} (remembered : Remembered w folder)
    (careful : losesNothing w folder = true) (log : w'.log = w.log) (views_ : views w' = views w)
    (dropped : w'.watchers folder = none) : Remembered w' folder := by
  intro last _
  rw [dropped, views_]
  refine ⟨by simp [stateOf], ?_⟩
  rw [losesNothing, decide_eq_true_eq] at careful
  rcases careful with calm | inboxes
  · exact (remembered (log ▸ last) calm).2
  · exact inboxes

theorem stop_sound {w : World} (sound : Sound w) {folder : Nat}
    (careful : losesNothing w folder = true) :
    Sound { w with
      scheduler := stopFolder w.scheduler folder
      watchers := watchersAfter w (.stop folder) } := by
  obtain ⟨registry, spawned, cases⟩ := stop_folder_cases w.scheduler folder
  refine sound_update sound ?_ [] rfl rfl rfl (no_records rfl) ?_ ?_ ?_
  · rcases cases with same | ⟨task, watch, _, found, tasks⟩
    · exact tasks_same sound.tasks same registry spawned
    · refine tasks_update sound.tasks found ?_ tasks registry spawned
      rfl
  · intro f other
    rcases cases with same | ⟨task, watch, registered, found, tasks⟩
    · exact keeps_same same f
    · obtain ⟨watch', found', named⟩ := sound.tasks.registered folder task registered
      rw [found] at found'
      cases found'
      exact keeps_others found tasks (named.symm ▸ other)
  · intro claims
    simp [watchersAfter, stateOf] at claims
  · exact dropped_remembered (sound.remembered folder) careful rfl rfl (Function.update_self ..)

theorem forget_sound {w : World} (sound : Sound w) {folder : Nat}
    (careful : losesNothing w folder = true) :
    Sound { w with watchers := Function.update w.watchers folder none } := by
  refine sound_update sound sound.tasks [] rfl rfl rfl (no_records rfl)
    (fun f _ => keeps_same rfl f) ?_ ?_
  · intro claims
    simp [stateOf] at claims
  · exact dropped_remembered (sound.remembered folder) careful rfl rfl (Function.update_self ..)

/- A watcher that does not subscribe is resumed. -/
theorem quiet_answer_sound {w : World} (sound : Sound w) {s' : Scheduler} {task : Nat}
    {watch watch' : Watch} {effects : List Effect}
    (resumed : Resumed w.scheduler s' task watch watch' effects) (same : SameTask watch watch')
    (outcome : Retreats effects ∨ Calm effects ∧ (Subscribed watch → Subscribed watch')) :
    Sound { w with
      scheduler := s'
      watchers := Function.update w.watchers watch.folder
        (effects.foldl applyPublish (w.watchers watch.folder)) } := by
  have tasks := tasks_update sound.tasks resumed.found same.folder resumed.tasks
    (fun f t => resumed.registry ▸ id) resumed.spawned
  refine sound_update sound tasks [] rfl rfl rfl (no_records rfl)
    (fun f other => keeps_others resumed.found resumed.tasks other) ?_ ?_
  · rcases outcome with retreats | ⟨calm, active⟩
    · obtain ⟨state, notReconciling, published⟩ :=
        fold_retreats retreats (w.watchers watch.folder)
      intro claims
      simp [published, notReconciling] at claims
    · refine claimed_keeps (sound.claimed watch.folder) [] ?_ rfl (by simp) ?_
      · simp only [Function.update_self, fold_calm calm]
      · refine keeps_update resumed.tasks ?_
        intro old found own subscribed
        rw [resumed.found] at found
        cases found
        exact ⟨same.folder, active subscribed⟩
  · refine remembered_keeps (sound.remembered watch.folder) rfl ?_ ?_ (fun _ mem => mem)
    · simp only [Function.update_self, fold_failure]
    · rcases outcome with retreats | ⟨calm, _⟩
      · obtain ⟨state, _, published⟩ := fold_retreats retreats (w.watchers watch.folder)
        intro connected
        simp [published] at connected
      · simp only [Function.update_self, fold_calm calm]
        exact id

theorem subscribe_sound {w : World} (sound : Sound w) {s' : Scheduler} {task : Nat}
    {watch watch' : Watch} {effects : List Effect}
    (resumed : Resumed w.scheduler s' task watch watch' effects) (same : SameTask watch watch')
    (now : Subscribed watch')
    (state : stateOf (effects.foldl applyPublish (w.watchers watch.folder)) =
      some (.watcher .reconciling)) :
    Sound { w with
      scheduler := s'
      watchers := Function.update w.watchers watch.folder
        (effects.foldl applyPublish (w.watchers watch.folder))
      log := .subscribed task watch.folder :: w.log } := by
  have tasks := tasks_update sound.tasks resumed.found same.folder resumed.tasks
    (fun f t => resumed.registry ▸ id) resumed.spawned
  refine sound_update sound tasks [.subscribed task watch.folder] rfl rfl rfl ?_
    (fun f other => keeps_others resumed.found resumed.tasks other) ?_ ?_
  · intro f other
    refine ⟨?_, rfl⟩
    intro t mem
    exact other (Record.subscribed.inj (List.mem_singleton.mp mem)).2
  · intro _
    refine ⟨[], ⟨task, watch', w.log, ?_, same.folder, now, rfl, by simp⟩, ?_⟩
    · rw [resumed.tasks, Function.update_self]
    · intro connected
      simp [state] at connected
  · refine remembered_keeps (sound.remembered watch.folder) rfl ?_ ?_ (fun _ mem => mem)
    · simp only [Function.update_self, fold_failure]
    · intro connected
      simp [state] at connected

theorem answer_sound {w : World} (sound : Sound w) {s' : Scheduler} {task : Nat} {a : Answer}
    (step : InboxWatcher.next w.scheduler (.answer task a) = some s') :
    Sound { w with
      scheduler := s'
      watchers := watchersAfter w (.answer task a)
      log := subscribes w (.answer task a) ++ w.log } := by
  obtain ⟨watch, watch', effects, answered, resumed⟩ := answer_step step
  have same := resume_keeps answered
  have watchers : watchersAfter w (.answer task a) = Function.update w.watchers watch.folder
      (effects.foldl applyPublish (w.watchers watch.folder)) := by
    simp only [watchersAfter, resumed.found, answered]
  rw [watchers]
  cases resumption answered with
  | subscribes pc running ok now published =>
    have recorded : subscribes w (.answer task a) = [.subscribed task watch.folder] := by
      simp [subscribes, ok, resumed.found, pc, running]
    rw [recorded]
    exact subscribe_sound sound resumed same now (by rw [published]; rfl)
  | other not outcome =>
    have recorded : subscribes w (.answer task a) = [] := by
      cases a with
      | ok =>
        simp only [subscribes, resumed.found]
        rw [if_neg fun first => not ⟨first.1, first.2, rfl⟩]
      | _ => rfl
    rw [recorded]
    exact quiet_answer_sound sound resumed same outcome

theorem begun_since_iff {pass task folder : Nat} {newer older : List Record}
    (last : ∀ t, .subscribed t folder ∉ newer) :
    begunSince pass folder (newer ++ .subscribed task folder :: older) = true ↔
      .begun pass folder ∈ newer := by
  induction newer with
  | nil => simp [begunSince]
  | cons r newer ih =>
    have rest := ih fun t mem => last t (List.mem_cons_of_mem r mem)
    cases r with
    | subscribed t f =>
      have other : f ≠ folder := fun same => last t (same ▸ List.mem_cons_self)
      simp [begunSince, other, rest]
    | begun p f =>
      have same : (p = pass ∧ f = folder) ↔ (pass = p ∧ folder = f) :=
        and_congr eq_comm eq_comm
      simp [begunSince, rest, same]
    | finished p f ok => simp [begunSince, rest]

theorem finish_sound {w : World} (sound : Sound w) (pass : Nat) (p : Pass) (entry : Entry)
    (ok : Bool) (failed : hasFailed (some entry) = !ok)
    (state : stateOf (some entry) = stateOf (w.watchers p.folder) ∨
      ok = true ∧ stateOf (some entry) = some .connected ∧
        stateOf (w.watchers p.folder) = some (.watcher .reconciling) ∧
        begunSince pass p.folder w.log = true) :
    Sound (finishPass w pass p entry ok) := by
  refine sound_update sound sound.tasks [.finished pass p.folder ok] rfl rfl rfl ?_
    (fun f _ => keeps_same rfl f) ?_ ?_
  · intro f other
    refine ⟨by simp, ?_⟩
    simp only [finishPass, latest, if_neg (Ne.symm other)]
  · rcases state with same | ⟨success, connected, reconciling, since⟩
    · refine claimed_keeps (sound.claimed p.folder) [.finished pass p.folder ok] ?_ rfl (by simp)
        (keeps_same rfl p.folder)
      simp only [finishPass, Function.update_self]
      exact same
    · intro _
      obtain ⟨newer, subscribed, _⟩ := sound.claimed p.folder (Or.inl reconciling)
      refine ⟨.finished pass p.folder ok :: newer, ?_, fun _ => ⟨pass, ?_, ?_⟩⟩
      · exact subscribed_keeps [.finished pass p.folder ok] rfl (by simp)
          (keeps_same rfl p.folder) subscribed
      · obtain ⟨_, _, _, _, _, _, log, last⟩ := subscribed
        rw [log, begun_since_iff last] at since
        exact List.mem_cons_of_mem _ since
      · rw [success]
        exact List.mem_cons_self
  · intro last calm
    simp only [finishPass, Function.update_self, latest, if_true, Option.some.injEq] at last calm
    rw [failed, last] at calm
    contradiction

/- A step that changes neither an entry nor a watcher. -/
theorem rows_sound {w w' : World} (sound : Sound w) (scheduler : w'.scheduler = w.scheduler)
    (watchers : w'.watchers = w.watchers) (log : w'.log = w.log)
    (views_ : ∀ folder, forgotten w folder → ∀ rows ∈ views w', rows ∈ views w ∨
      ∀ row ∈ rows, row.id = folder → row.isInbox = true) : Sound w' where
  tasks := scheduler ▸ sound.tasks
  claimed f := claimed_keeps (sound.claimed f) [] (by rw [watchers]) log (by simp)
    (keeps_same (by rw [scheduler]) f)
  remembered f := by
    intro last calm
    rw [log] at last
    rw [watchers] at calm ⊢
    obtain ⟨notConnected, inboxes⟩ := sound.remembered f last calm
    refine ⟨notConnected, ?_⟩
    intro rows mem
    rcases views_ f ⟨last, calm⟩ rows mem with old | marked
    · exact inboxes rows old
    · exact marked

theorem begin_sound {w : World} (sound : Sound w) (account folder : Nat) :
    Sound { w with
      passes := Function.update w.passes w.begun (some ⟨account, folder⟩)
      begun := w.begun + 1
      log := .begun w.begun folder :: w.log } where
  tasks := sound.tasks
  claimed f := claimed_keeps (sound.claimed f) [.begun w.begun folder] rfl rfl (by simp)
    (keeps_same rfl f)
  remembered f := remembered_keeps (sound.remembered f) rfl rfl id fun _ mem => mem

theorem scheduler_sound {w w' : World} {l : InboxWatcher.Label} (sound : Sound w)
    (allowed : careful w (.scheduler l) = true) (step : next w (.scheduler l) = some w') :
    Sound w' := by
  obtain ⟨s', stepped, eq⟩ := Option.map_eq_some_iff.mp step
  subst eq
  cases l with
  | spawn account folder path =>
    exact spawn_sound sound s' (spawn_step stepped).2
  | stop folder =>
    obtain rfl := stop_step stepped
    exact stop_sound sound allowed
  | answer task a => exact answer_sound sound stepped
  | report task response =>
    obtain ⟨watch, found, _, eq⟩ := report_step stepped
    subst eq
    have folder : ({ watch with received := watch.received ++ [response] } : Watch).folder =
        watch.folder := rfl
    refine ⟨tasks_update sound.tasks found folder rfl (fun _ _ => id) rfl, ?_, ?_⟩
    · intro f
      refine claimed_keeps (sound.claimed f) [] rfl rfl (by simp) (keeps_update rfl ?_)
      intro old found' own subscribed
      rw [found] at found'
      cases found'
      exact ⟨own, subscribed⟩
    · intro f
      exact remembered_keeps (sound.remembered f) rfl rfl id fun _ mem => mem
  | doneCallback task =>
    obtain ⟨_, _, _, rfl⟩ := callback_step stepped
    refine ⟨tasks_same sound.tasks rfl (fun _ _ => id) rfl, ?_, ?_⟩
    · intro f
      exact claimed_keeps (sound.claimed f) [] rfl rfl (by simp) (keeps_same rfl f)
    · intro f
      exact remembered_keeps (sound.remembered f) rfl rfl id fun _ mem => mem

theorem next_sound {w w' : World} {l : Label} (sound : Sound w)
    (step : restrict careful next w l = some w') : Sound w' := by
  obtain ⟨allowed, step⟩ := restrict_step step
  cases l with
  | scheduler l => exact scheduler_sound sound allowed step
  | forget folder =>
    cases step
    exact forget_sound sound allowed
  | syncFolder account folder =>
    cases step
    exact begin_sound sound account folder
  | synced pass =>
    simp only [next] at step
    split at step
    · rename_i p found
      cases step
      simp only [careful, found, decide_eq_true_eq] at allowed
      refine finish_sound sound pass p _ true (synced_failure _) ?_
      rw [synced_state]
      by_cases reconciling : stateOf (w.watchers p.folder) = some (.watcher .reconciling)
      · right
        rw [if_pos reconciling]
        exact ⟨rfl, rfl, reconciling, allowed.resolve_left (not_not.mpr reconciling)⟩
      · left
        rw [if_neg reconciling]
    · contradiction
  | syncFailed pass exception =>
    simp only [next] at step
    split at step
    · rename_i p found
      cases step
      exact finish_sound sound pass p _ false (sync_failed_failure _ exception)
        (Or.inl (sync_failed_state _ exception))
    · contradiction
  | cancelled pass =>
    cases step
    exact rows_sound sound rfl rfl rfl fun _ _ _ mem => Or.inl mem
  | accountFailed account exception =>
    cases step
    exact rows_sound sound rfl rfl rfl fun _ _ _ mem => Or.inl mem
  | accountCleared account =>
    cases step
    exact rows_sound sound rfl rfl rfl fun _ _ _ mem => Or.inl mem
  | edit folders =>
    cases step
    simp only [careful, decide_eq_true_eq] at allowed
    refine rows_sound sound rfl rfl rfl ?_
    intro folder lost rows mem
    rcases List.mem_cons.mp mem with new | old
    · right
      intro row inRows own
      rw [new] at inRows
      rcases allowed row inRows with inbox | safe
      · exact inbox
      · exact absurd (own ▸ lost) safe
    · exact Or.inl (List.mem_cons_of_mem _ old)
  | read =>
    cases step
    refine rows_sound sound rfl rfl rfl ?_
    intro folder _ rows mem
    left
    rcases List.mem_cons.mp mem with table | reading
    · exact table ▸ List.mem_cons_self
    · exact reading
  | respond reading =>
    cases step
    refine rows_sound sound rfl rfl rfl ?_
    intro folder _ rows mem
    left
    rcases List.mem_cons.mp mem with table | rest
    · exact table ▸ List.mem_cons_self
    · exact List.mem_cons_of_mem _ (List.mem_of_mem_eraseIdx rest)

theorem run_sound {labels : List Label} {w : World}
    (run : replay (restrict careful next) .initial labels = some w) : Sound w := by
  apply replay_invariant Sound _ (fun _ _ _ sound step => next_sound sound step) run
  refine ⟨⟨?_, fun _ _ => rfl⟩, ?_, ?_⟩
  · intro f t registered
    contradiction
  · intro f claims
    simp [World.initial, stateOf] at claims
  · intro f last
    contradiction

/-- In every run of careful steps: when a snapshot calls an account green, each of its
    inboxes is subscribed and was reconciled since, and of no folder of the account did
    the latest pass that finished fail. -/
theorem green_is_sound {labels : List Label} {w : World}
    (run : replay (restrict careful next) .initial labels = some w) {rows : List FolderRow}
    (read : rows ∈ views w) (accounts : List Nat) {status : AccountStatus}
    (reported : status ∈ (snapshot accounts rows w.watchers w.accountErrors).accounts)
    (green : status.health = .green) {row : FolderRow} (mem : row ∈ rows)
    (own : row.accountId = status.accountId) :
    (row.isInbox = true → Watched w row.id) ∧ latest row.id w.log ≠ some false := by
  have sound := run_sound run
  obtain ⟨account, _, eq⟩ := List.mem_map.mp reported
  subst eq
  have folderGreen := (account_green green).2 row mem own
  obtain ⟨calm, connected⟩ := folder_green folderGreen
  constructor
  · intro inbox
    obtain ⟨newer, subscribed, reconciled⟩ := sound.claimed row.id (Or.inr (connected inbox))
    exact ⟨newer, subscribed, reconciled (connected inbox)⟩
  · intro failed
    obtain ⟨notConnected, inboxes⟩ := sound.remembered row.id failed calm
    exact notConnected (connected (inboxes rows read row mem rfl))

/- A watcher up to the answer to its IDLE command. -/
def idlingSteps : List Label :=
  [.answer 0 .ok, .answer 0 .ok, .answer 0 (.account true), .answer 0 (.opened 0), .answer 0 .ok,
    .answer 0 .ok, .answer 0 (.capable true)].map .scheduler

/- The pass begins before the IDLE command is answered, or after it. -/
def catchUp (early : Bool) : List Label :=
  [.edit [⟨10, 1, true⟩], .scheduler (.spawn 1 10 "INBOX")] ++ idlingSteps ++
    (if early then [.syncFolder 1 10, .scheduler (.answer 0 .ok)]
      else [.scheduler (.answer 0 .ok), .syncFolder 1 10]) ++ [.synced 0]

theorem green_is_sound_caught_up : ∃ w, replay (restrict careful next) .initial (catchUp false) =
    some w ∧ (snapshot [1] w.folders w.watchers w.accountErrors).health = .green ∧
      Watched w 10 := by
  have ends : ∃ w, replay (restrict careful next) .initial (catchUp false) = some w ∧
      w.folders = [⟨10, 1, true⟩] ∧
      (snapshot [1] w.folders w.watchers w.accountErrors).health = .green ∧
      ∃ status ∈ (snapshot [1] w.folders w.watchers w.accountErrors).accounts,
        status.health = .green ∧ status.accountId = 1 :=
    ⟨_, rfl, rfl, rfl, _, List.mem_cons_self, rfl, rfl⟩
  obtain ⟨w, run, rows, whole, status, reported, green, own⟩ := ends
  have mem : ⟨10, 1, true⟩ ∈ w.folders := by rw [rows]; exact List.mem_cons_self
  have promises := green_is_sound run List.mem_cons_self [1] reported green mem own.symm
  exact ⟨w, run, whole, promises.1 rfl⟩

theorem watched_since {w : World} {folder : Nat} (watched : Watched w folder) :
    ∃ pass, begunSince pass folder w.log = true := by
  obtain ⟨newer, ⟨_, _, _, _, _, _, log, last⟩, pass, begun, _⟩ := watched
  refine ⟨pass, ?_⟩
  rw [log, begun_since_iff last]
  exact begun

/- A folder whose latest pass failed is no inbox any more, and its watcher is stopped. -/
def unmarkFailed : List Label :=
  [.edit [⟨10, 1, true⟩], .scheduler (.spawn 1 10 "INBOX"), .syncFolder 1 10,
    .syncFailed 0 "IMAPClientError", .edit [⟨10, 1, false⟩], .scheduler (.stop 10)]

theorem early_pass_and_dropped_failure_turn_green :
    (∃ w, replay next .initial (catchUp true) = some w ∧ w.folders = [⟨10, 1, true⟩] ∧
      (snapshot [1] w.folders w.watchers w.accountErrors).accounts.map AccountStatus.health =
        [.green] ∧ ¬Watched w 10) ∧
    ∃ w, replay next .initial unmarkFailed = some w ∧ w.folders = [⟨10, 1, false⟩] ∧
      (snapshot [1] w.folders w.watchers w.accountErrors).accounts.map AccountStatus.health =
        [.green] ∧ latest 10 w.log = some false := by
  constructor
  · have ends : ∃ w, replay next .initial (catchUp true) = some w ∧
        w.folders = [⟨10, 1, true⟩] ∧
        (snapshot [1] w.folders w.watchers w.accountErrors).accounts.map AccountStatus.health =
          [.green] ∧
        w.log = [.finished 0 10 true, .subscribed 0 10, .begun 0 10] := ⟨_, rfl, rfl, rfl, rfl⟩
    obtain ⟨w, run, rows, green, log⟩ := ends
    refine ⟨w, run, rows, green, ?_⟩
    intro watched
    obtain ⟨pass, since⟩ := watched_since watched
    simp [log, begunSince] at since
  · exact ⟨_, rfl, rfl, rfl, rfl⟩

end InboxGreenStatus
