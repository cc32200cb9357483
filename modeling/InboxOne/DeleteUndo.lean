import Mathlib.Data.Finset.Basic
import Mathlib.Logic.Function.Basic
import InboxOne.Tables
import InboxOne.LabelledRuns
import InboxOne.Timers

/-!
Deleting a message with a chance to undo it: the page hides the message, a toast offers
Undo, and the DELETE request is sent by a timer. The page may be left and opened again,
which makes a new instance of it, while the timers and the toasts of the old one go on.
The log only observes the run.
-/
namespace InboxDeleteUndo
open LabelledRuns Timers InboxTables

def undoWindowMs : Nat := 5000

def deleteCommitMs : Nat := 5300

/-- What the callbacks of the timers do. -/
inductive Callback where
  | commitDelete (page id : Nat)
  | expire (toast : Nat)
  deriving DecidableEq

/- An action is the undo of a message on an instance of the page. -/
structure Toast where
  id : Nat
  message : String
  actionLabel : Option String
  onAction : Option (Nat × Nat)
  duration : Nat
  deriving DecidableEq

/-- An instance of InboxPage. -/
structure Page where
  pendingDeleteIds : Finset Nat
  deleteTimers : Nat → Option Nat

inductive Record where
  | accepted (timer page id toast time : Nat)
  | undone (timer : Option Nat)
  | dismissed (toast : Nat)
  | sent (timer page id time : Nat)
  deriving DecidableEq

structure World where
  clock : Clock Callback
  toasts : List Toast
  nextId : Nat
  page : Nat
  pages : Nat → Page
  calls : Nat → Option (Nat × Nat)
  nextCall : Nat
  selectedMessageId : Option Nat
  log : List Record

def World.initial : World :=
  ⟨.initial, [], 1, 0, fun _ => ⟨∅, fun _ => none⟩, fun _ => none, 0, none, []⟩

/-- `toast`: the store drops the entry when its time is over. -/
def showToast (w : World) (message : String) (action : Option (String × (Nat × Nat)))
    (duration : Nat) : World :=
  { w with
    nextId := w.nextId + 1
    toasts := w.toasts ++
      [⟨w.nextId, message, action.map Prod.fst, action.map Prod.snd, duration⟩]
    clock := w.clock.set duration (.expire w.nextId) }

def dismiss (w : World) (toast : Nat) : World :=
  { w with toasts := w.toasts.filter fun t => t.id ≠ toast }

def setPage (w : World) (p : Nat) (page : Page) : World :=
  { w with pages := Function.update w.pages p page }

def removePending (w : World) (p id : Nat) : World :=
  setPage w p { w.pages p with pendingDeleteIds := (w.pages p).pendingDeleteIds.erase id }

/-- The delete button of the mounted instance. -/
def handleDelete (w : World) (id : Nat) : World :=
  if ((w.pages w.page).deleteTimers id).isSome then w
  else
    let timer := w.clock.issued
    let hidden := setPage w w.page
      { pendingDeleteIds := insert id (w.pages w.page).pendingDeleteIds
        deleteTimers := Function.update (w.pages w.page).deleteTimers id (some timer) }
    let armed := { hidden with
      selectedMessageId := if w.selectedMessageId = some id then none else w.selectedMessageId
      clock := w.clock.set deleteCommitMs (.commitDelete w.page id)
      log := .accepted timer w.page id w.nextId w.clock.now :: w.log }
    showToast armed "Message deleted" (some ("Undo", (w.page, id))) undoWindowMs

def forget (w : World) (p id : Nat) : World :=
  setPage w p { w.pages p with deleteTimers := Function.update (w.pages p).deleteTimers id none }

def undoDelete (w : World) (p id : Nat) : World :=
  let timer := (w.pages p).deleteTimers id
  let cleared := { w with
    clock := match timer with
      | some timer => w.clock.clear timer
      | none => w.clock
    log := .undone timer :: w.log }
  removePending (forget cleared p id) p id

/- The first part of `commitDelete`, up to the answer of the request. -/
def commitDelete (w : World) (timer p id : Nat) : World :=
  { forget w p id with
    calls := Function.update w.calls w.nextCall (some (p, id))
    nextCall := w.nextCall + 1
    log := .sent timer p id w.clock.now :: w.log }

/-- How the request fails: with the message of an ApiError, or otherwise. -/
inductive Failure where
  | apiError (message : String)
  | other

def failureText : Failure → String
  | .apiError message => message
  | .other => "Failed to delete message"

def finishDelete (w : World) (call p id : Nat) (failure : Option Failure) : World :=
  let answered := { w with calls := Function.update w.calls call none }
  let told := match failure with
    | none => answered
    | some failure => showToast answered (failureText failure) none 5000
  removePending told p id

inductive Label where
  | delete (id : Nat)
  | undo (toast : Nat)
  | dismiss (toast : Nat)
  | notify (message : String) (duration : Nat)
  | fire
  | wait (elapsed : Nat)
  | answer (call : Nat) (failure : Option Failure)
  | select (id : Option Nat)
  | remount

def toastById (w : World) (toast : Nat) : Option Toast := w.toasts.find? fun t => t.id == toast

/- A click reaches a button of a toast only while the toast is shown. -/
def next (w : World) : Label → Option World
  | .delete id => some (handleDelete w id)
  | .undo toast =>
      match toastById w toast with
      | some ⟨_, _, some _, some (p, id), _⟩ => some (dismiss (undoDelete w p id) toast)
      | _ => none
  | .dismiss toast =>
      (toastById w toast).map fun _ =>
        { dismiss w toast with log := .dismissed toast :: w.log }
  | .notify message duration => some (showToast w message none duration)
  | .fire =>
      match w.clock.fire with
      | some (⟨timer, _, .commitDelete p id⟩, clock) =>
          some (commitDelete { w with clock := clock } timer p id)
      | some (⟨_, _, .expire toast⟩, clock) => some (dismiss { w with clock := clock } toast)
      | none => none
  | .wait elapsed => some { w with clock := w.clock.advance elapsed }
  | .answer call failure =>
      match w.calls call with
      | some (p, id) => some (finishDelete w call p id failure)
      | none => none
  | .select id => some { w with selectedMessageId := id }
  | .remount => some { w with page := w.page + 1 }

/-- The pending timer of a message on an instance of the page. -/
def timerOf (w : World) (p id : Nat) : Option Nat := (w.pages p).deleteTimers id

/- Undone or sent, by the timer that stands for the acceptance. -/
def Record.settles (k : Nat) : Record → Bool
  | .undone timer => timer = some k
  | .sent timer _ _ _ => timer = k
  | _ => false

def outcomes (w : World) (k : Nat) : Nat := w.log.countP (Record.settles k)

/-- What is armed, shown and recorded belongs together. -/
structure Sound (w : World) : Prop where
  past : ∀ k p id i t, .accepted k p id i t ∈ w.log →
    k < w.clock.issued ∧ i < w.nextId ∧ t ≤ w.clock.now
  once : ∀ k p id i t k' p' id' i' t', .accepted k p id i t ∈ w.log →
    .accepted k' p' id' i' t' ∈ w.log → k = k' ∨ i = i' →
      k = k' ∧ p = p' ∧ id = id' ∧ i = i' ∧ t = t'
  armed : ∀ k p id, timerOf w p id = some k → ∃ i t, .accepted k p id i t ∈ w.log ∧
    ⟨k, t + deleteCommitMs, .commitDelete p id⟩ ∈ w.clock.timers
  committing : ∀ k due p id, ⟨k, due, .commitDelete p id⟩ ∈ w.clock.timers →
    timerOf w p id = some k
  expiring : ∀ m due i, ⟨m, due, .expire i⟩ ∈ w.clock.timers → i < w.nextId ∧
    ∀ k p id t, .accepted k p id i t ∈ w.log → due = t + undoWindowMs
  numbered : ∀ toast ∈ w.toasts, toast.id < w.nextId
  distinct : (w.toasts.map Toast.id).Nodup
  labelled : ∀ toast ∈ w.toasts, toast.actionLabel = toast.onAction.map fun _ => "Undo"
  offered : ∀ toast ∈ w.toasts, ∀ p id, toast.onAction = some (p, id) → ∃ k t m,
    .accepted k p id toast.id t ∈ w.log ∧ timerOf w p id = some k ∧
      ⟨m, t + undoWindowMs, .expire toast.id⟩ ∈ w.clock.timers
  kept : ∀ k p id i t, .accepted k p id i t ∈ w.log →
    (∃ toast ∈ w.toasts, toast.id = i ∧ toast.onAction = some (p, id)) ∨
      .dismissed i ∈ w.log ∨ .undone (some k) ∈ w.log ∨ t + undoWindowMs ≤ w.clock.now
  settled : ∀ k p id i t, .accepted k p id i t ∈ w.log →
    outcomes w k = if timerOf w p id = some k then 0 else 1
  unused : ∀ k, w.clock.issued ≤ k → outcomes w k = 0
  found : .undone none ∉ w.log
  late : ∀ k p id t, .sent k p id t ∈ w.log →
    ∃ i t0, .accepted k p id i t0 ∈ w.log ∧ t0 + deleteCommitMs ≤ t

theorem initial_sound : Sound .initial := by
  constructor <;> simp [World.initial, Clock.initial, timerOf, outcomes]

section Steps
variable {w w' : World}

/- Steps that leave the timers, the toasts and the log as they are. -/
structure SameBooks (w w' : World) : Prop where
  timers : w'.clock.timers = w.clock.timers
  issued : w'.clock.issued = w.clock.issued
  now : w.clock.now ≤ w'.clock.now
  toasts : w'.toasts = w.toasts
  nextId : w'.nextId = w.nextId
  timerOf : ∀ p id, timerOf w' p id = timerOf w p id
  log : w'.log = w.log

theorem same_sound (sound : Sound w) (same : SameBooks w w') : Sound w' := by
  obtain ⟨timers, issued, now, toasts, nextId, timerOf, log⟩ := same
  have outcomes_eq : ∀ k, outcomes w' k = outcomes w k := fun k => by rw [outcomes, outcomes, log]
  exact {
    past := by
      intro k p id i t mem
      obtain ⟨older, fresh, time⟩ := sound.past k p id i t (log ▸ mem)
      exact ⟨issued ▸ older, nextId ▸ fresh, Nat.le_trans time now⟩
    once := by
      rw [log]
      exact sound.once
    armed := by
      rw [log, timers]
      exact fun k p id pending => sound.armed k p id (timerOf p id ▸ pending)
    committing := by
      rw [timers]
      intro k due p id mem
      rw [timerOf]
      exact sound.committing k due p id mem
    expiring := by
      rw [timers, log, nextId]
      exact sound.expiring
    numbered := by
      rw [toasts, nextId]
      exact sound.numbered
    distinct := by
      rw [toasts]
      exact sound.distinct
    labelled := by
      rw [toasts]
      exact sound.labelled
    offered := by
      rw [toasts, log, timers]
      intro toast mem p id action
      rw [timerOf]
      exact sound.offered toast mem p id action
    kept := by
      rw [toasts, log]
      intro k p id i t mem
      exact (sound.kept k p id i t mem).imp_right (Or.imp_right (Or.imp_right fun late =>
        Nat.le_trans late now))
    settled := by
      rw [log]
      intro k p id i t mem
      rw [outcomes_eq, timerOf]
      exact sound.settled k p id i t mem
    unused := by
      rw [issued]
      intro k fresh
      rw [outcomes_eq]
      exact sound.unused k fresh
    found := by
      rw [log]
      exact sound.found
    late := by
      rw [log]
      exact sound.late }

/- The kinds of timers are told apart by what they do. -/
theorem commit_in_set {c : Clock Callback} {k due p id delay i : Nat} :
    (⟨k, due, .commitDelete p id⟩ : Timer Callback) ∈ (c.set delay (.expire i)).timers ↔
      ⟨k, due, .commitDelete p id⟩ ∈ c.timers := by
  rw [mem_set]
  simp

/- A new toast gets the next number. -/
theorem toasts_numbered (sound : Sound w) {toast : Toast} (toasts : w'.toasts = w.toasts ++ [toast])
    (number : toast.id = w.nextId) (nextId : w'.nextId = w.nextId + 1) :
    ∀ toast ∈ w'.toasts, toast.id < w'.nextId := by
  rw [toasts, nextId]
  intro other mem
  rcases List.mem_append.mp mem with old | new
  · exact Nat.lt_succ_of_lt (sound.numbered other old)
  · rw [List.mem_singleton.mp new, number]
    exact Nat.lt_succ_self _

theorem toasts_distinct (sound : Sound w) {toast : Toast} (toasts : w'.toasts = w.toasts ++ [toast])
    (number : toast.id = w.nextId) : (w'.toasts.map Toast.id).Nodup := by
  rw [toasts, List.map_append, List.map_singleton]
  refine sound.distinct.append (List.nodup_singleton _)
    (List.disjoint_singleton.mpr fun old => ?_)
  obtain ⟨other, mem, same⟩ := List.mem_map.mp old
  exact absurd (sound.numbered other mem) (by simp [same, number])

theorem show_sound (sound : Sound w) (message : String) (duration : Nat) :
    Sound (showToast w message none duration) where
  past k p id i t mem := by
    obtain ⟨older, fresh, time⟩ := sound.past k p id i t mem
    exact ⟨Nat.lt_succ_of_lt older, Nat.lt_succ_of_lt fresh, time⟩
  once := sound.once
  armed k p id pending := by
    obtain ⟨i, t, mem, timer⟩ := sound.armed k p id pending
    exact ⟨i, t, mem, commit_in_set.mpr timer⟩
  committing k due p id mem := sound.committing k due p id (commit_in_set.mp mem)
  expiring m due i mem := by
    rcases mem_set.mp mem with old | new
    · obtain ⟨fresh, expiry⟩ := sound.expiring m due i old
      exact ⟨Nat.lt_succ_of_lt fresh, expiry⟩
    · simp only [Timer.mk.injEq, Callback.expire.injEq] at new
      obtain ⟨_, _, rfl⟩ := new
      refine ⟨Nat.lt_succ_self _, fun k p id t accepted => ?_⟩
      exact absurd (sound.past k p id _ t accepted).2.1 (Nat.lt_irrefl _)
  numbered := toasts_numbered sound rfl rfl rfl
  distinct := toasts_distinct sound rfl rfl
  labelled toast mem := by
    rcases List.mem_append.mp mem with old | new
    · exact sound.labelled toast old
    · rw [List.mem_singleton.mp new]
      rfl
  offered toast mem p id action := by
    rcases List.mem_append.mp mem with old | new
    · obtain ⟨k, t, m, accepted, pending, expiry⟩ := sound.offered toast old p id action
      exact ⟨k, t, m, accepted, pending, mem_set.mpr (Or.inl expiry)⟩
    · rw [List.mem_singleton.mp new] at action
      contradiction
  kept k p id i t mem :=
    (sound.kept k p id i t mem).imp_left fun ⟨toast, shown, rest⟩ =>
      ⟨toast, List.mem_append_left _ shown, rest⟩
  settled := sound.settled
  unused k fresh := sound.unused k (Nat.le_of_succ_le fresh)
  found := sound.found
  late := sound.late

theorem toast_gone {toast : Toast} {i : Nat} : toast ∈ (dismiss w i).toasts ↔
    toast ∈ w.toasts ∧ toast.id ≠ i := by
  simp [dismiss]

/- A toast that goes away, for a reason that the log or the clock knows. -/
theorem dismiss_sound (sound : Sound w) {i : Nat} (log : List Record)
    (grown : log = w.log ∨ log = .dismissed i :: w.log)
    (reason : .dismissed i ∈ log ∨ ∀ k p id t, .accepted k p id i t ∈ w.log →
      .undone (some k) ∈ w.log ∨ t + undoWindowMs ≤ w.clock.now) :
    Sound { dismiss w i with log := log } := by
  have accepted_iff : ∀ k p id i t, .accepted k p id i t ∈ log ↔
      .accepted k p id i t ∈ w.log := by
    rcases grown with rfl | rfl <;> simp
  have outcomes_eq : ∀ k, outcomes { dismiss w i with log := log } k = outcomes w k := by
    rcases grown with rfl | rfl
    · exact fun _ => rfl
    · exact fun k => List.countP_cons_of_neg (by simp [Record.settles])
  have more : ∀ r, r ∈ w.log → r ∈ log := by
    rcases grown with rfl | rfl
    · exact fun _ mem => mem
    · exact fun _ mem => List.mem_cons_of_mem _ mem
  exact {
    past := fun k p id i t mem => sound.past k p id i t ((accepted_iff _ _ _ _ _).mp mem)
    once := fun k p id i t k' p' id' i' t' first second =>
      sound.once k p id i t k' p' id' i' t' ((accepted_iff _ _ _ _ _).mp first)
        ((accepted_iff _ _ _ _ _).mp second)
    armed := by
      intro k p id pending
      obtain ⟨i, t, mem, timer⟩ := sound.armed k p id pending
      exact ⟨i, t, (accepted_iff _ _ _ _ _).mpr mem, timer⟩
    committing := sound.committing
    expiring := by
      intro m due i mem
      obtain ⟨fresh, expiry⟩ := sound.expiring m due i mem
      exact ⟨fresh, fun k p id t mem => expiry k p id t ((accepted_iff _ _ _ _ _).mp mem)⟩
    numbered := fun toast mem => sound.numbered toast (toast_gone.mp mem).1
    distinct := sound.distinct.sublist (List.filter_sublist.map _)
    labelled := fun toast mem => sound.labelled toast (toast_gone.mp mem).1
    offered := by
      intro toast mem p id action
      obtain ⟨k, t, m, accepted, rest⟩ := sound.offered toast (toast_gone.mp mem).1 p id action
      exact ⟨k, t, m, (accepted_iff _ _ _ _ _).mpr accepted, rest⟩
    kept := by
      intro k p id j t mem
      have accepted := (accepted_iff _ _ _ _ _).mp mem
      rcases sound.kept k p id j t accepted with ⟨toast, shown, rfl, action⟩ | closed | undone | late
      · by_cases own : toast.id = i
        · rcases reason with closed | ended
          · exact Or.inr (Or.inl (own ▸ closed))
          · exact Or.inr (Or.inr ((ended k p id t (own ▸ accepted)).imp_left (more _)))
        · exact Or.inl ⟨toast, toast_gone.mpr ⟨shown, own⟩, rfl, action⟩
      · exact Or.inr (Or.inl (more _ closed))
      · exact Or.inr (Or.inr (Or.inl (more _ undone)))
      · exact Or.inr (Or.inr (Or.inr late))
    settled := by
      intro k p id j t mem
      rw [outcomes_eq]
      exact sound.settled k p id j t ((accepted_iff _ _ _ _ _).mp mem)
    unused := by
      intro k fresh
      rw [outcomes_eq]
      exact sound.unused k fresh
    found := by
      rcases grown with rfl | rfl
      · exact sound.found
      · simp [sound.found]
    late := by
      intro k p id t mem
      have sent : .sent k p id t ∈ w.log := by
        rcases grown with rfl | rfl
        · exact mem
        · simpa using mem
      obtain ⟨j, t0, accepted, late⟩ := sound.late k p id t sent
      exact ⟨j, t0, (accepted_iff _ _ _ _ _).mpr accepted, late⟩ }

/- An expiry timer whose toast is gone runs for nothing. -/
theorem clear_expiry_sound (sound : Sound w) {m due i : Nat}
    (timer : ⟨m, due, .expire i⟩ ∈ w.clock.timers) (gone : ∀ toast ∈ w.toasts, toast.id ≠ i) :
    Sound { w with clock := w.clock.clear m } where
  past := sound.past
  once := sound.once
  armed k p id pending := by
    obtain ⟨j, t, mem, armed⟩ := sound.armed k p id pending
    refine ⟨j, t, mem, mem_clear.mpr ⟨armed, fun same => ?_⟩⟩
    exact absurd (same_timer armed timer same) (by simp)
  committing k due p id mem := sound.committing k due p id (mem_clear.mp mem).1
  expiring m due i mem := sound.expiring m due i (mem_clear.mp mem).1
  numbered := sound.numbered
  distinct := sound.distinct
  labelled := sound.labelled
  offered toast mem p id action := by
    obtain ⟨k, t, n, accepted, pending, expiry⟩ := sound.offered toast mem p id action
    refine ⟨k, t, n, accepted, pending, mem_clear.mpr ⟨expiry, fun same => ?_⟩⟩
    have one := same_timer expiry timer same
    simp only [Timer.mk.injEq, Callback.expire.injEq] at one
    exact gone toast mem one.2.2
  kept := sound.kept
  settled := sound.settled
  unused := sound.unused
  found := sound.found
  late := sound.late

theorem expire_sound (sound : Sound w) {m due i : Nat} {clock : Clock Callback}
    (fires : w.clock.fire = some (⟨m, due, .expire i⟩, clock)) :
    Sound (dismiss { w with clock := clock } i) := by
  obtain ⟨timer, ready, _, rfl⟩ := fire_first fires
  have late := (sound.expiring m due i timer).2
  have gone := dismiss_sound sound (i := i) w.log (Or.inl rfl) (Or.inr fun k p id t accepted =>
    Or.inr (late k p id t accepted ▸ ready))
  exact clear_expiry_sound gone timer fun toast mem => (toast_gone.mp mem).2

/- Writing one cell of the map of timers. -/
theorem timer_of_write {p id : Nat} {value : Option Nat} {page : Page}
    (pages : w'.pages = Function.update w.pages p page)
    (cell : page.deleteTimers = Function.update (w.pages p).deleteTimers id value) (q j : Nat) :
    timerOf w' q j = if q = p ∧ j = id then value else timerOf w q j := by
  unfold timerOf
  rw [pages]
  by_cases samePage : q = p
  · subst samePage
    rw [Function.update_self, cell]
    by_cases same : j = id
    · subst same
      simp
    · simp [same]
  · simp [samePage]

/- The books after a delete was accepted. -/
structure Accepted (w w' : World) (id : Nat) : Prop where
  clock : w'.clock = (w.clock.set deleteCommitMs (.commitDelete w.page id)).set undoWindowMs
    (.expire w.nextId)
  toasts : w'.toasts = w.toasts ++
    [⟨w.nextId, "Message deleted", some "Undo", some (w.page, id), undoWindowMs⟩]
  nextId : w'.nextId = w.nextId + 1
  timerOf : ∀ q j, timerOf w' q j =
    if q = w.page ∧ j = id then some w.clock.issued else timerOf w q j
  log : w'.log = .accepted w.clock.issued w.page id w.nextId w.clock.now :: w.log

theorem delete_accepted {id : Nat} (free : timerOf w w.page id = none) :
    Accepted w (handleDelete w id) id := by
  have idle : ¬ ((w.pages w.page).deleteTimers id).isSome = true := by
    rw [show (w.pages w.page).deleteTimers id = none from free]
    simp
  unfold handleDelete
  rw [if_neg idle]
  exact ⟨rfl, rfl, rfl, timer_of_write rfl rfl, rfl⟩

section Accepting
variable {id : Nat}

theorem accept_timers (accepted : Accepted w w' id) (t : Timer Callback) :
    t ∈ w'.clock.timers ↔ (t ∈ w.clock.timers ∨
      t = ⟨w.clock.issued, w.clock.now + deleteCommitMs, .commitDelete w.page id⟩) ∨
      t = ⟨w.clock.issued + 1, w.clock.now + undoWindowMs, .expire w.nextId⟩ := by
  rw [accepted.clock, mem_set, mem_set]
  rfl

theorem accept_clock (accepted : Accepted w w' id) :
    w'.clock.issued = w.clock.issued + 2 ∧ w'.clock.now = w.clock.now := by
  rw [accepted.clock]
  exact ⟨rfl, rfl⟩

theorem accept_records (accepted : Accepted w w' id) (k p j i t : Nat) :
    .accepted k p j i t ∈ w'.log ↔
      (k = w.clock.issued ∧ p = w.page ∧ j = id ∧ i = w.nextId ∧ t = w.clock.now) ∨
        .accepted k p j i t ∈ w.log := by
  rw [accepted.log, List.mem_cons, Record.accepted.injEq]

theorem accept_outcomes (accepted : Accepted w w' id) (k : Nat) : outcomes w' k = outcomes w k := by
  rw [outcomes, accepted.log]
  exact List.countP_cons_of_neg (by simp [Record.settles])

/- The timers that were armed before are those of other messages. -/
theorem accept_keeps_timer (free : timerOf w w.page id = none) (accepted : Accepted w w' id)
    {k p j : Nat} (pending : timerOf w p j = some k) : timerOf w' p j = some k := by
  have other : ¬ (p = w.page ∧ j = id) := by
    rintro ⟨rfl, rfl⟩
    rw [free] at pending
    contradiction
  rw [accepted.timerOf, if_neg other]
  exact pending

theorem accept_past (sound : Sound w) (accepted : Accepted w w' id) (k p j i t : Nat)
    (mem : .accepted k p j i t ∈ w'.log) :
    k < w'.clock.issued ∧ i < w'.nextId ∧ t ≤ w'.clock.now := by
  rw [(accept_clock accepted).1, (accept_clock accepted).2, accepted.nextId]
  rcases (accept_records accepted k p j i t).mp mem with ⟨rfl, _, _, rfl, rfl⟩ | old
  · exact ⟨by omega, by omega, Nat.le_refl _⟩
  · obtain ⟨older, fresh, time⟩ := sound.past k p j i t old
    exact ⟨by omega, by omega, time⟩

theorem accept_once (sound : Sound w) (accepted : Accepted w w' id)
    (k p j i t k' p' j' i' t' : Nat) (first : .accepted k p j i t ∈ w'.log)
    (second : .accepted k' p' j' i' t' ∈ w'.log) (same : k = k' ∨ i = i') :
    k = k' ∧ p = p' ∧ j = j' ∧ i = i' ∧ t = t' := by
  rcases (accept_records accepted k p j i t).mp first with ⟨rfl, rfl, rfl, rfl, rfl⟩ | old
  · rcases (accept_records accepted k' p' j' i' t').mp second with ⟨rfl, rfl, rfl, rfl, rfl⟩ | old'
    · exact ⟨rfl, rfl, rfl, rfl, rfl⟩
    · obtain ⟨older, fresh, _⟩ := sound.past k' p' j' i' t' old'
      omega
  · rcases (accept_records accepted k' p' j' i' t').mp second with ⟨rfl, rfl, rfl, rfl, rfl⟩ | old'
    · obtain ⟨older, fresh, _⟩ := sound.past k p j i t old
      omega
    · exact sound.once k p j i t k' p' j' i' t' old old' same

theorem accept_armed (sound : Sound w) (accepted : Accepted w w' id) (k p j : Nat)
    (pending : timerOf w' p j = some k) : ∃ i t, .accepted k p j i t ∈ w'.log ∧
      ⟨k, t + deleteCommitMs, .commitDelete p j⟩ ∈ w'.clock.timers := by
  rw [accepted.timerOf] at pending
  split at pending
  · rename_i cell
    obtain ⟨rfl, rfl⟩ := cell
    rw [← Option.some.inj pending]
    exact ⟨_, _, (accept_records accepted ..).mpr (Or.inl ⟨rfl, rfl, rfl, rfl, rfl⟩),
      (accept_timers accepted _).mpr (Or.inl (Or.inr rfl))⟩
  · obtain ⟨i, t, mem, timer⟩ := sound.armed k p j pending
    exact ⟨i, t, (accept_records accepted ..).mpr (Or.inr mem),
      (accept_timers accepted _).mpr (Or.inl (Or.inl timer))⟩

theorem accept_committing (sound : Sound w) (free : timerOf w w.page id = none)
    (accepted : Accepted w w' id) (k due p j : Nat)
    (mem : ⟨k, due, .commitDelete p j⟩ ∈ w'.clock.timers) : timerOf w' p j = some k := by
  rcases (accept_timers accepted _).mp mem with (old | new) | expiry
  · exact accept_keeps_timer free accepted (sound.committing k due p j old)
  · simp only [Timer.mk.injEq, Callback.commitDelete.injEq] at new
    obtain ⟨rfl, _, rfl, rfl⟩ := new
    rw [accepted.timerOf, if_pos ⟨rfl, rfl⟩]
  · simp at expiry

theorem accept_expiring (sound : Sound w) (accepted : Accepted w w' id) (m due i : Nat)
    (mem : ⟨m, due, .expire i⟩ ∈ w'.clock.timers) : i < w'.nextId ∧
      ∀ k p j t, .accepted k p j i t ∈ w'.log → due = t + undoWindowMs := by
  rw [accepted.nextId]
  rcases (accept_timers accepted _).mp mem with (old | commit) | new
  · obtain ⟨fresh, expiry⟩ := sound.expiring m due i old
    refine ⟨Nat.lt_succ_of_lt fresh, fun k p j t record => ?_⟩
    rcases (accept_records accepted k p j i t).mp record with ⟨_, _, _, rfl, _⟩ | before
    · exact absurd fresh (Nat.lt_irrefl _)
    · exact expiry k p j t before
  · simp at commit
  · simp only [Timer.mk.injEq, Callback.expire.injEq] at new
    obtain ⟨_, rfl, rfl⟩ := new
    refine ⟨Nat.lt_succ_self _, fun k p j t record => ?_⟩
    rcases (accept_records accepted k p j _ t).mp record with ⟨_, _, _, _, rfl⟩ | before
    · rfl
    · exact absurd (sound.past k p j _ t before).2.1 (Nat.lt_irrefl _)

theorem accept_offered (sound : Sound w) (free : timerOf w w.page id = none)
    (accepted : Accepted w w' id) (toast : Toast) (mem : toast ∈ w'.toasts) (p j : Nat)
    (action : toast.onAction = some (p, j)) : ∃ k t m,
      .accepted k p j toast.id t ∈ w'.log ∧ timerOf w' p j = some k ∧
        ⟨m, t + undoWindowMs, .expire toast.id⟩ ∈ w'.clock.timers := by
  rw [accepted.toasts] at mem
  rcases List.mem_append.mp mem with old | new
  · obtain ⟨k, t, m, record, pending, expiry⟩ := sound.offered toast old p j action
    exact ⟨k, t, m, (accept_records accepted ..).mpr (Or.inr record),
      accept_keeps_timer free accepted pending,
      (accept_timers accepted _).mpr (Or.inl (Or.inl expiry))⟩
  · rw [List.mem_singleton.mp new] at action ⊢
    obtain ⟨rfl, rfl⟩ := Prod.mk.inj (Option.some.inj action)
    refine ⟨_, _, _, (accept_records accepted ..).mpr (Or.inl ⟨rfl, rfl, rfl, rfl, rfl⟩), ?_,
      (accept_timers accepted _).mpr (Or.inr rfl)⟩
    rw [accepted.timerOf, if_pos ⟨rfl, rfl⟩]

theorem accept_kept (sound : Sound w) (accepted : Accepted w w' id) (k p j i t : Nat)
    (mem : .accepted k p j i t ∈ w'.log) :
    (∃ toast ∈ w'.toasts, toast.id = i ∧ toast.onAction = some (p, j)) ∨
      .dismissed i ∈ w'.log ∨ .undone (some k) ∈ w'.log ∨ t + undoWindowMs ≤ w'.clock.now := by
  have records := accept_records accepted k p j i t
  rw [accepted.toasts, (accept_clock accepted).2]
  rw [accepted.log] at mem records ⊢
  rcases records.mp mem with ⟨rfl, rfl, rfl, rfl, rfl⟩ | old
  · exact Or.inl ⟨_, List.mem_append_right _ List.mem_cons_self, rfl, rfl⟩
  · rcases sound.kept k p j i t old with ⟨toast, shown, rest⟩ | closed | undone | late
    · exact Or.inl ⟨toast, List.mem_append_left _ shown, rest⟩
    · exact Or.inr (Or.inl (List.mem_cons_of_mem _ closed))
    · exact Or.inr (Or.inr (Or.inl (List.mem_cons_of_mem _ undone)))
    · exact Or.inr (Or.inr (Or.inr late))

theorem accept_settled (sound : Sound w) (free : timerOf w w.page id = none)
    (accepted : Accepted w w' id) (k p j i t : Nat) (mem : .accepted k p j i t ∈ w'.log) :
    outcomes w' k = if timerOf w' p j = some k then 0 else 1 := by
  rw [accept_outcomes accepted, accepted.timerOf]
  rcases (accept_records accepted k p j i t).mp mem with ⟨rfl, rfl, rfl, rfl, rfl⟩ | old
  · simp only [and_self, ↓reduceIte]
    exact sound.unused _ (Nat.le_refl _)
  · rw [sound.settled k p j i t old]
    have differs : some w.clock.issued ≠ some k := by
      intro same
      have := (sound.past k p j i t old).1
      rw [Option.some.inj same] at this
      exact Nat.lt_irrefl _ this
    by_cases cell : p = w.page ∧ j = id
    · obtain ⟨rfl, rfl⟩ := cell
      simp only [free, and_self, ↓reduceIte, differs, reduceCtorEq]
    · rw [if_neg cell]

theorem accept_sound (sound : Sound w) (free : timerOf w w.page id = none)
    (accepted : Accepted w w' id) : Sound w' where
  past := accept_past sound accepted
  once := accept_once sound accepted
  armed := accept_armed sound accepted
  committing := accept_committing sound free accepted
  expiring := accept_expiring sound accepted
  numbered := toasts_numbered sound accepted.toasts rfl accepted.nextId
  distinct := toasts_distinct sound accepted.toasts rfl
  labelled toast mem := by
    rw [accepted.toasts] at mem
    rcases List.mem_append.mp mem with old | new
    · exact sound.labelled toast old
    · rw [List.mem_singleton.mp new]
      rfl
  offered := accept_offered sound free accepted
  kept := accept_kept sound accepted
  settled := accept_settled sound free accepted
  unused k fresh := by
    rw [accept_outcomes accepted]
    rw [(accept_clock accepted).1] at fresh
    exact sound.unused k (by omega)
  found := by
    rw [accepted.log]
    simp [sound.found]
  late k p j t mem := by
    rw [accepted.log] at mem
    have sent : .sent k p j t ∈ w.log := by simpa using mem
    obtain ⟨i, t0, record, late⟩ := sound.late k p j t sent
    exact ⟨i, t0, (accept_records accepted ..).mpr (Or.inr record), late⟩

end Accepting

/- The books after the timer of an acceptance is gone, by a click on Undo or because it ran. -/
structure Settled (w w' : World) (k p id : Nat) (r : Record) (keep : Toast → Bool) : Prop where
  clock : w'.clock = w.clock.clear k
  toasts : w'.toasts = w.toasts.filter keep
  nextId : w'.nextId = w.nextId
  timerOf : ∀ q j, timerOf w' q j = if q = p ∧ j = id then none else timerOf w q j
  log : w'.log = r :: w.log
  outcome : r = .undone (some k) ∨ ∃ t, r = .sent k p id t ∧
    ∃ i t0, .accepted k p id i t0 ∈ w.log ∧ t0 + deleteCommitMs ≤ t
  withdrawn : ∀ toast ∈ w.toasts, toast.onAction = some (p, id) → keep toast = false
  undone : ∀ toast ∈ w.toasts, keep toast = false →
    toast.onAction = some (p, id) ∧ r = .undone (some k)

section Settling
variable {k p id : Nat} {r : Record} {keep : Toast → Bool}

theorem settle_timers (settled : Settled w w' k p id r keep) (t : Timer Callback) :
    t ∈ w'.clock.timers ↔ t ∈ w.clock.timers ∧ t.id ≠ k := by
  rw [settled.clock, mem_clear]

theorem settle_clock (settled : Settled w w' k p id r keep) :
    w'.clock.issued = w.clock.issued ∧ w'.clock.now = w.clock.now := by
  rw [settled.clock]
  exact ⟨rfl, rfl⟩

theorem settle_records (settled : Settled w w' k p id r keep) (k' q j i t : Nat) :
    .accepted k' q j i t ∈ w'.log ↔ .accepted k' q j i t ∈ w.log := by
  rw [settled.log, List.mem_cons, or_iff_right]
  rcases settled.outcome with rfl | ⟨_, rfl, _⟩ <;> simp

theorem settle_toasts (settled : Settled w w' k p id r keep) (toast : Toast) :
    toast ∈ w'.toasts ↔ toast ∈ w.toasts ∧ keep toast = true := by
  rw [settled.toasts, List.mem_filter]

theorem settle_outcomes (settled : Settled w w' k p id r keep) (k' : Nat) :
    outcomes w' k' = outcomes w k' + if k' = k then 1 else 0 := by
  rw [outcomes, settled.log, List.countP_cons]
  congr 1
  rcases settled.outcome with rfl | ⟨_, rfl, _⟩ <;> simp [Record.settles, eq_comm]

theorem settle_armed (sound : Sound w) (pending : timerOf w p id = some k)
    (settled : Settled w w' k p id r keep) (k' q j : Nat) (armed : timerOf w' q j = some k') :
    ∃ i t, .accepted k' q j i t ∈ w'.log ∧
      ⟨k', t + deleteCommitMs, .commitDelete q j⟩ ∈ w'.clock.timers := by
  obtain ⟨_, _, _, timer⟩ := sound.armed k p id pending
  rw [settled.timerOf] at armed
  split at armed
  · contradiction
  · rename_i cell
    obtain ⟨i, t, mem, still⟩ := sound.armed k' q j armed
    refine ⟨i, t, (settle_records settled ..).mpr mem,
      (settle_timers settled _).mpr ⟨still, fun same => cell ?_⟩⟩
    have one := same_timer still timer same
    simp only [Timer.mk.injEq, Callback.commitDelete.injEq] at one
    exact one.2.2

theorem settle_committing (sound : Sound w) (pending : timerOf w p id = some k)
    (settled : Settled w w' k p id r keep) (k' due q j : Nat)
    (mem : ⟨k', due, .commitDelete q j⟩ ∈ w'.clock.timers) : timerOf w' q j = some k' := by
  obtain ⟨still, differs⟩ := (settle_timers settled _).mp mem
  have armed := sound.committing k' due q j still
  have other : ¬ (q = p ∧ j = id) := by
    rintro ⟨rfl, rfl⟩
    rw [pending] at armed
    exact differs (Option.some.inj armed).symm
  rw [settled.timerOf, if_neg other]
  exact armed

theorem settle_offered (sound : Sound w) (pending : timerOf w p id = some k)
    (settled : Settled w w' k p id r keep) (toast : Toast) (mem : toast ∈ w'.toasts) (q j : Nat)
    (action : toast.onAction = some (q, j)) : ∃ k' t m,
      .accepted k' q j toast.id t ∈ w'.log ∧ timerOf w' q j = some k' ∧
        ⟨m, t + undoWindowMs, .expire toast.id⟩ ∈ w'.clock.timers := by
  obtain ⟨_, _, _, timer⟩ := sound.armed k p id pending
  obtain ⟨shown, stays⟩ := (settle_toasts settled toast).mp mem
  obtain ⟨k', t, m, record, armed, expiry⟩ := sound.offered toast shown q j action
  have cell : ¬ (q = p ∧ j = id) := by
    rintro ⟨rfl, rfl⟩
    rw [settled.withdrawn toast shown action] at stays
    contradiction
  refine ⟨k', t, m, (settle_records settled ..).mpr record, ?_,
    (settle_timers settled _).mpr ⟨expiry, fun same => ?_⟩⟩
  · rw [settled.timerOf, if_neg cell]
    exact armed
  · exact absurd (same_timer expiry timer same) (by simp)

theorem settle_kept (sound : Sound w) (pending : timerOf w p id = some k)
    (settled : Settled w w' k p id r keep) (k' q j i t : Nat)
    (mem : .accepted k' q j i t ∈ w'.log) :
    (∃ toast ∈ w'.toasts, toast.id = i ∧ toast.onAction = some (q, j)) ∨
      .dismissed i ∈ w'.log ∨ .undone (some k') ∈ w'.log ∨ t + undoWindowMs ≤ w'.clock.now := by
  have before := (settle_records settled k' q j i t).mp mem
  rw [settled.log, (settle_clock settled).2]
  rcases sound.kept k' q j i t before with ⟨toast, shown, rfl, action⟩ | closed | ended | late
  · cases stays : keep toast with
    | true => exact Or.inl ⟨toast, (settle_toasts settled toast).mpr ⟨shown, stays⟩, rfl, action⟩
    | false =>
      obtain ⟨own, rfl⟩ := settled.undone toast shown stays
      obtain ⟨k2, t2, _, record, armed, _⟩ := sound.offered toast shown p id own
      have first := (sound.once _ _ _ _ _ _ _ _ _ _ before record (Or.inr rfl)).1
      have same : k2 = k := Option.some.inj (armed.symm.trans pending)
      rw [first, same]
      exact Or.inr (Or.inr (Or.inl List.mem_cons_self))
  · exact Or.inr (Or.inl (List.mem_cons_of_mem _ closed))
  · exact Or.inr (Or.inr (Or.inl (List.mem_cons_of_mem _ ended)))
  · exact Or.inr (Or.inr (Or.inr late))

theorem settle_settled (sound : Sound w) (pending : timerOf w p id = some k)
    (settled : Settled w w' k p id r keep) (k' q j i t : Nat)
    (mem : .accepted k' q j i t ∈ w'.log) :
    outcomes w' k' = if timerOf w' q j = some k' then 0 else 1 := by
  obtain ⟨_, _, accepted, _⟩ := sound.armed k p id pending
  have before := (settle_records settled k' q j i t).mp mem
  rw [settle_outcomes settled, sound.settled k' q j i t before, settled.timerOf]
  by_cases own : k' = k
  · obtain ⟨_, rfl, rfl, _⟩ := sound.once _ _ _ _ _ _ _ _ _ _ before accepted (Or.inl own)
    simp [own, pending]
  · rw [if_neg own, Nat.add_zero]
    by_cases cell : q = p ∧ j = id
    · obtain ⟨rfl, rfl⟩ := cell
      have differs : some k ≠ some k' := fun same => own (Option.some.inj same).symm
      simp only [pending, and_self, ↓reduceIte, differs, reduceCtorEq]
    · rw [if_neg cell]

theorem settle_unused (sound : Sound w) (pending : timerOf w p id = some k)
    (settled : Settled w w' k p id r keep) (k' : Nat) (fresh : w'.clock.issued ≤ k') :
    outcomes w' k' = 0 := by
  obtain ⟨i, t, accepted, _⟩ := sound.armed k p id pending
  have older := (sound.past k p id i t accepted).1
  rw [(settle_clock settled).1] at fresh
  have differs : k' ≠ k := by omega
  rw [settle_outcomes settled, if_neg differs]
  exact sound.unused k' fresh

theorem settle_late (sound : Sound w) (settled : Settled w w' k p id r keep) (k' q j t : Nat)
    (mem : .sent k' q j t ∈ w'.log) :
    ∃ i t0, .accepted k' q j i t0 ∈ w'.log ∧ t0 + deleteCommitMs ≤ t := by
  have before : ∃ i t0, .accepted k' q j i t0 ∈ w.log ∧ t0 + deleteCommitMs ≤ t := by
    rw [settled.log, List.mem_cons] at mem
    rcases mem with new | old
    · rcases settled.outcome with rfl | ⟨_, rfl, rest⟩
      · contradiction
      · simp only [Record.sent.injEq] at new
        obtain ⟨rfl, rfl, rfl, rfl⟩ := new
        exact rest
    · exact sound.late k' q j t old
  obtain ⟨i, start, record, late⟩ := before
  exact ⟨i, start, (settle_records settled ..).mpr record, late⟩

theorem settle_sound (sound : Sound w) (pending : timerOf w p id = some k)
    (settled : Settled w w' k p id r keep) : Sound w' where
  past k' q j i t mem := by
    rw [(settle_clock settled).1, (settle_clock settled).2, settled.nextId]
    exact sound.past k' q j i t ((settle_records settled ..).mp mem)
  once k₁ p₁ id₁ i₁ t₁ k₂ p₂ id₂ i₂ t₂ first second :=
    sound.once k₁ p₁ id₁ i₁ t₁ k₂ p₂ id₂ i₂ t₂ ((settle_records settled ..).mp first)
      ((settle_records settled ..).mp second)
  armed := settle_armed sound pending settled
  committing := settle_committing sound pending settled
  expiring m due i mem := by
    rw [settled.nextId]
    obtain ⟨fresh, expiry⟩ := sound.expiring m due i ((settle_timers settled _).mp mem).1
    exact ⟨fresh, fun k p j t mem => expiry k p j t ((settle_records settled ..).mp mem)⟩
  numbered toast mem := by
    rw [settled.nextId]
    exact sound.numbered toast ((settle_toasts settled toast).mp mem).1
  distinct := by
    rw [settled.toasts]
    exact sound.distinct.sublist (List.filter_sublist.map _)
  labelled toast mem := sound.labelled toast ((settle_toasts settled toast).mp mem).1
  offered := settle_offered sound pending settled
  kept := settle_kept sound pending settled
  settled := settle_settled sound pending settled
  unused := settle_unused sound pending settled
  found := by
    rw [settled.log, List.mem_cons, not_or]
    refine ⟨?_, sound.found⟩
    rcases settled.outcome with rfl | ⟨_, rfl, _⟩ <;> simp
  late := settle_late sound settled

end Settling

/- When the timer runs, the toast has already gone. -/
theorem commit_after_toast (sound : Sound w) {k due p id : Nat}
    (timer : ⟨k, due, .commitDelete p id⟩ ∈ w.clock.timers)
    (first : ∀ u ∈ w.clock.timers, due ≤ u.due) {toast : Toast} (shown : toast ∈ w.toasts) :
    toast.onAction ≠ some (p, id) := by
  intro action
  obtain ⟨k', t, m, accepted, armed, expiry⟩ := sound.offered toast shown p id action
  have same : k' = k := Option.some.inj (armed.symm.trans (sound.committing k due p id timer))
  obtain ⟨i, t', accepted', timer'⟩ := sound.armed k p id (same ▸ armed)
  obtain ⟨_, _, _, _, rfl⟩ := sound.once _ _ _ _ _ _ _ _ _ _ accepted accepted' (Or.inl same)
  have one := same_timer timer timer' rfl
  have due_eq : due = t + deleteCommitMs := congrArg Timer.due one
  have early : due ≤ t + undoWindowMs := first _ expiry
  simp only [due_eq, deleteCommitMs, undoWindowMs] at early
  omega

theorem commit_sound (sound : Sound w) {k due p id : Nat} {clock : Clock Callback}
    (fires : w.clock.fire = some (⟨k, due, .commitDelete p id⟩, clock)) :
    Sound (commitDelete { w with clock := clock } k p id) := by
  obtain ⟨timer, ready, first, rfl⟩ := fire_first fires
  have pending := sound.committing k due p id timer
  obtain ⟨i, t, accepted, timer'⟩ := sound.armed k p id pending
  have due_eq : due = t + deleteCommitMs := congrArg Timer.due (same_timer timer timer' rfl)
  have settled : Settled w (commitDelete { w with clock := w.clock.clear k } k p id) k p id
      (.sent k p id w.clock.now) fun _ => true :=
    { clock := rfl
      toasts := (List.filter_true _).symm
      nextId := rfl
      timerOf := timer_of_write rfl rfl
      log := rfl
      outcome := Or.inr ⟨_, rfl, i, t, accepted, due_eq ▸ ready⟩
      withdrawn := fun toast shown action =>
        absurd action (commit_after_toast sound timer first shown)
      undone := fun _ _ lost => by contradiction }
  exact settle_sound sound pending settled

theorem toast_by_id {i : Nat} {toast : Toast} (found : toastById w i = some toast) :
    toast ∈ w.toasts ∧ toast.id = i :=
  ⟨List.mem_of_find?_eq_some found, by simpa using List.find?_some found⟩

theorem undo_timers (w : World) (p id toast q j : Nat) :
    timerOf (dismiss (undoDelete w p id) toast) q j =
      if q = p ∧ j = id then none else timerOf w q j := by
  have forgotten : timerOf (forget w p id) q j = if q = p ∧ j = id then none else timerOf w q j :=
    timer_of_write rfl rfl q j
  rw [← forgotten]
  show ((Function.update (Function.update w.pages p _) p _) q).deleteTimers j = _
  by_cases own : q = p
  · subst own
    simp [timerOf, forget, setPage]
  · simp [timerOf, forget, setPage, own]

theorem undo_sound (sound : Sound w) {toast : Toast} (shown : toast ∈ w.toasts) {p id : Nat}
    (action : toast.onAction = some (p, id)) :
    Sound (dismiss (undoDelete w p id) toast.id) := by
  obtain ⟨k, t, m, accepted, pending, _⟩ := sound.offered toast shown p id action
  have found : (w.pages p).deleteTimers id = some k := pending
  have same : ∀ other ∈ w.toasts, other.onAction = some (p, id) → other.id = toast.id := by
    intro other mem own
    obtain ⟨k', t', _, accepted', pending', _⟩ := sound.offered other mem p id own
    have first : k' = k := Option.some.inj (pending'.symm.trans pending)
    exact (sound.once _ _ _ _ _ _ _ _ _ _ accepted' accepted (Or.inl first)).2.2.2.1
  have settled : Settled w (dismiss (undoDelete w p id) toast.id) k p id (.undone (some k))
      fun t => t.id ≠ toast.id :=
    { clock := by
        show (match (w.pages p).deleteTimers id with
          | some timer => w.clock.clear timer
          | none => w.clock) = _
        rw [found]
      toasts := rfl
      nextId := rfl
      timerOf := undo_timers w p id toast.id
      log := by
        show Record.undone ((w.pages p).deleteTimers id) :: w.log = _
        rw [found]
      outcome := Or.inl rfl
      withdrawn := fun other mem own => by simp [same other mem own]
      undone := by
        intro other mem lost
        have key : other.id = toast.id := by simpa using lost
        have eq := List.inj_on_of_nodup_map sound.distinct mem shown key
        exact ⟨eq ▸ action, rfl⟩ }
  exact settle_sound sound pending settled

theorem undo_step {toast : Nat} (step : next w (.undo toast) = some w') :
    ∃ t ∈ w.toasts, ∃ p id, t.id = toast ∧ t.onAction = some (p, id) ∧
      w' = dismiss (undoDelete w p id) toast := by
  unfold next at step
  dsimp only at step
  split at step
  · rename_i found
    obtain ⟨mem, same⟩ := toast_by_id found
    exact ⟨_, mem, _, _, same, rfl, (Option.some.inj step).symm⟩
  · contradiction

theorem timer_of_removed (w : World) (p id q j : Nat) :
    timerOf (removePending w p id) q j = timerOf w q j := by
  unfold timerOf removePending setPage
  by_cases same : q = p
  · simp [same]
  · simp [same]

theorem next_sound (sound : Sound w) {l : Label} (step : next w l = some w') : Sound w' := by
  cases l with
  | delete id =>
    have result : handleDelete w id = w' := Option.some.inj step
    cases pending : timerOf w w.page id with
    | none => exact accept_sound sound pending (result ▸ delete_accepted pending)
    | some k =>
      have busy : ((w.pages w.page).deleteTimers id).isSome = true := by
        rw [show (w.pages w.page).deleteTimers id = some k from pending]
        rfl
      rw [handleDelete, if_pos busy] at result
      exact result ▸ sound
  | undo toast =>
    obtain ⟨t, shown, p, id, rfl, action, rfl⟩ := undo_step step
    exact undo_sound sound shown action
  | dismiss toast =>
    obtain ⟨t, _, rfl⟩ := Option.map_eq_some_iff.mp step
    exact dismiss_sound sound _ (Or.inr rfl) (Or.inl List.mem_cons_self)
  | notify message duration =>
    rw [next, Option.some.injEq] at step
    exact step ▸ show_sound sound message duration
  | fire =>
    unfold next at step
    dsimp only at step
    split at step
    · rename_i fires
      rw [Option.some.injEq] at step
      exact step ▸ commit_sound sound fires
    · rename_i fires
      rw [Option.some.injEq] at step
      exact step ▸ expire_sound sound fires
    · contradiction
  | wait elapsed =>
    rw [next, Option.some.injEq] at step
    subst step
    exact same_sound sound ⟨rfl, rfl, Nat.le_add_right _ _, rfl, rfl, fun _ _ => rfl, rfl⟩
  | answer call failure =>
    unfold next at step
    dsimp only at step
    split at step
    · rename_i p id _
      rw [Option.some.injEq] at step
      subst step
      have answered : Sound { w with calls := Function.update w.calls call none } :=
        same_sound sound ⟨rfl, rfl, Nat.le_refl _, rfl, rfl, fun _ _ => rfl, rfl⟩
      unfold finishDelete
      cases failure with
      | none =>
        exact same_sound answered
          ⟨rfl, rfl, Nat.le_refl _, rfl, rfl, timer_of_removed _ p id, rfl⟩
      | some failure =>
        exact same_sound (show_sound answered (failureText failure) 5000)
          ⟨rfl, rfl, Nat.le_refl _, rfl, rfl, timer_of_removed _ p id, rfl⟩
    · contradiction
  | select id =>
    rw [next, Option.some.injEq] at step
    subst step
    exact same_sound sound ⟨rfl, rfl, Nat.le_refl _, rfl, rfl, fun _ _ => rfl, rfl⟩
  | remount =>
    rw [next, Option.some.injEq] at step
    subst step
    exact same_sound sound ⟨rfl, rfl, Nat.le_refl _, rfl, rfl, fun _ _ => rfl, rfl⟩

theorem run_sound {labels : List Label} (run : replay next .initial labels = some w) : Sound w :=
  replay_invariant Sound initial_sound (fun _ _ _ sound step => next_sound sound step) run

/- Undo is one click away, and the click takes the acceptance back. -/
def CanUndo (w : World) (k toast : Nat) : Prop :=
  ∃ w', next w (.undo toast) = some w' ∧ .undone (some k) ∈ w'.log

theorem shown_can_undo (sound : Sound w) {k p id t : Nat} {toast : Toast}
    (accepted : .accepted k p id toast.id t ∈ w.log) (shown : toast ∈ w.toasts)
    (action : toast.onAction = some (p, id)) : CanUndo w k toast.id := by
  obtain ⟨k', _, _, accepted', pending, _⟩ := sound.offered toast shown p id action
  have same := (sound.once _ _ _ _ _ _ _ _ _ _ accepted accepted' (Or.inr rfl)).1
  have found : toastById w toast.id = some toast := find_by_key sound.distinct shown rfl
  refine ⟨dismiss (undoDelete w p id) toast.id, ?_, ?_⟩
  · have label := sound.labelled toast shown
    rw [action] at label
    obtain ⟨i, message, actionLabel, onAction, duration⟩ := toast
    dsimp only at action label
    subst action label
    unfold next
    dsimp only
    rw [found]
    rfl
  · show Record.undone (some k) ∈ Record.undone (timerOf w p id) :: w.log
    rw [pending, same]
    exact List.mem_cons_self

theorem two_outcomes {log : List Record} {k p id t : Nat} (undone : .undone (some k) ∈ log)
    (sent : .sent k p id t ∈ log) : 2 ≤ log.countP (Record.settles k) := by
  induction log with
  | nil => contradiction
  | cons r rest ih =>
    rw [List.countP_cons]
    have one : ∀ {r : Record}, r ∈ rest → r.settles k = true → 0 < rest.countP (Record.settles k) :=
      fun mem settles => List.countP_pos_iff.mpr ⟨_, mem, settles⟩
    rcases List.mem_cons.mp undone with rfl | undoneLater
    · rcases List.mem_cons.mp sent with same | sentLater
      · contradiction
      · have := one sentLater (by simp [Record.settles])
        simp only [Record.settles, decide_true, ↓reduceIte]
        omega
    · rcases List.mem_cons.mp sent with rfl | sentLater
      · have := one undoneLater (by simp [Record.settles])
        simp only [Record.settles, decide_true, ↓reduceIte]
        omega
      · have := ih undoneLater sentLater
        omega

/-- An accepted delete: it ends once, by Undo or by the request and never by both, at the
latest when the timers that are due have run; the request is not sent before the grace
period is over; and for the whole undo window the click on Undo is possible, unless the
toast was closed or used, and takes the delete back. -/
structure Guarded (w : World) (k p id toast t : Nat) : Prop where
  pending : outcomes w k = 0 ↔ timerOf w p id = some k
  once : outcomes w k ≤ 1
  ends : w.clock.fire = none → t + deleteCommitMs ≤ w.clock.now → outcomes w k = 1
  exclusive : ∀ page message time, .sent k page message time ∈ w.log →
    .undone (some k) ∉ w.log ∧ t + deleteCommitMs ≤ time
  undoable : CanUndo w k toast ∨ .dismissed toast ∈ w.log ∨ .undone (some k) ∈ w.log ∨
    t + undoWindowMs ≤ w.clock.now

/-- In every run of clicks, timers and answers no click on Undo comes too late. -/
theorem undo_is_never_too_late {labels : List Label} (run : replay next .initial labels = some w) :
    .undone none ∉ w.log ∧
      (∀ k p id toast t, .accepted k p id toast t ∈ w.log → Guarded w k p id toast t) ∧
      ∀ k p id t, .sent k p id t ∈ w.log → ∃ toast t0, .accepted k p id toast t0 ∈ w.log := by
  have sound := run_sound run
  refine ⟨sound.found, ?_, fun k p id t sent => ?_⟩
  · intro k p id i t accepted
    have settled := sound.settled k p id i t accepted
    refine ⟨?_, ?_, fun idle late => ?_, ?_, ?_⟩
    · rw [settled]
      split <;> simp_all
    · rw [settled]
      split <;> omega
    · rw [settled, if_neg]
      intro pending
      obtain ⟨i', t', accepted', timer⟩ := sound.armed k p id pending
      obtain ⟨_, _, _, _, rfl⟩ := sound.once _ _ _ _ _ _ _ _ _ _ accepted accepted' (Or.inl rfl)
      have early : w.clock.now < t + deleteCommitMs := idle_not_due idle timer
      omega
    · intro page message time sent
      obtain ⟨i', t', accepted', late⟩ := sound.late k page message time sent
      obtain ⟨_, _, _, _, rfl⟩ := sound.once _ _ _ _ _ _ _ _ _ _ accepted accepted' (Or.inl rfl)
      refine ⟨fun undone => ?_, late⟩
      have both := two_outcomes undone sent
      have one : outcomes w k ≤ 1 := by
        rw [settled]
        split <;> omega
      exact absurd (Nat.le_trans both one) (by decide)
    · rcases sound.kept k p id i t accepted with ⟨toast, shown, rfl, action⟩ | rest
      · exact Or.inl (shown_can_undo sound accepted shown action)
      · exact Or.inr rest
  · obtain ⟨i, t0, accepted, _⟩ := sound.late k p id t sent
    exact ⟨i, t0, accepted⟩

/- One message is taken back at the last moment, and the other one is deleted. -/
def lastMoment : List Label :=
  [.delete 7, .delete 8, .wait 4999, .undo 1, .wait 301, .fire, .fire, .fire, .answer 0 none]

theorem last_moment_log : (replay next .initial lastMoment).map World.log =
    some [.sent 2 0 8 5300, .undone (some 0), .accepted 2 0 8 2 0, .accepted 0 0 7 1 0] := rfl

theorem undo_is_never_too_late_last_moment : ∃ w, replay next .initial lastMoment = some w ∧
    Guarded w 0 0 7 1 0 ∧ Guarded w 2 0 8 2 0 := by
  obtain ⟨w, run, log⟩ := Option.map_eq_some_iff.mp last_moment_log
  have guarded := (undo_is_never_too_late run).2.1
  exact ⟨w, run, guarded 0 0 7 1 0 (by simp [log]), guarded 2 0 8 2 0 (by simp [log])⟩

end Steps

end InboxDeleteUndo
